import RdpServer.Lib.Bytes

/-!
# Clipboard messages between worker and session

The five clipboard messages of the backend protocol travel in both directions. A
message is read from its type and its payload: an offer or a request that is too
short stands for text, and the other messages are dropped when their header is not
there (`read`).
-/

namespace RdpServer.Backend

open Bytes

def fmtText : Nat := 0x1

def fmtImage : Nat := 0x2

def fmtHtml : Nat := 0x4

def fmtFiles : Nat := 0x8

/-- `struct rdp_be_clip_file_req`. -/
structure ClipFileReq where
  streamId : Nat
  lindex : Nat
  flags : Nat
  posLow : Nat
  posHigh : Nat
  cbRequested : Nat
  deriving DecidableEq

def ClipFileReq.position (req : ClipFileReq) : Nat := req.posLow + req.posHigh * 0x100000000

inductive ClipMsg where
  | offer (formats : Nat)
  | request (format : Nat)
  | data (format status : Nat) (octets : Bytes)
  | fileRequest (req : ClipFileReq)
  | fileData (streamId status : Nat) (octets : Bytes)
  deriving DecidableEq

namespace ClipMsg

def payload : ClipMsg → Bytes
  | offer formats => leBytes 4 formats
  | request format => leBytes 4 format
  | data format status octets => leBytes 4 format ++ leBytes 4 status ++ octets
  | fileRequest req =>
    leBytes 4 req.streamId ++ leBytes 4 req.lindex ++ leBytes 4 req.flags ++
      leBytes 4 req.posLow ++ leBytes 4 req.posHigh ++ leBytes 4 req.cbRequested
  | fileData streamId status octets => leBytes 4 streamId ++ leBytes 4 status ++ octets

def isOffer : ClipMsg → Bool
  | offer _ => true
  | _ => false

def isData : ClipMsg → Bool
  | data _ _ _ => true
  | _ => false

def wants : ClipMsg → Option Nat
  | request format => some format
  | _ => none

def fileAsk : ClipMsg → Option ClipFileReq
  | fileRequest req => some req
  | _ => none

theorem eq_request {msg : ClipMsg} {format : Nat} (asks : msg.wants = some format) :
    msg = request format := by
  cases msg with
  | request _ => rw [Option.some.inj asks]
  | offer _ | data _ _ _ | fileRequest _ | fileData _ _ _ => cases asks

def fieldAt (payload : Bytes) (off : Nat) : Nat := leValue ((payload.drop off).take 4)

def read (type : Nat) (payload : Bytes) : Option ClipMsg :=
  match type with
  | 6 => some (offer (if payload.length ≥ 4 then fieldAt payload 0 else fmtText))
  | 7 => some (request (if payload.length ≥ 4 then fieldAt payload 0 else fmtText))
  | 8 =>
    if payload.length < 8 then none
    else some (data (fieldAt payload 0) (fieldAt payload 4) (payload.drop 8))
  | 18 =>
    if payload.length < 24 then none
    else some (fileRequest
      { streamId := fieldAt payload 0, lindex := fieldAt payload 4
        flags := fieldAt payload 8, posLow := fieldAt payload 12
        posHigh := fieldAt payload 16, cbRequested := fieldAt payload 20 })
  | 19 =>
    if payload.length < 8 then none
    else some (fileData (fieldAt payload 0) (fieldAt payload 4) (payload.drop 8))
  | _ => none

end ClipMsg

end RdpServer.Backend
