import RdpServer.Backend.ClipMsg
import RdpServer.Channels.Cliprdr
import RdpServer.Channels.Vchan
import RdpServer.Lib.Runs

/-!
# The worker's side of the clipboard

`conn.c` relays the clipboard between the client's channel and the session. Of the
format that it last asked the client for it keeps one number, `pending_req_fmt`, and
decodes the next response as that format. `Exchange` numbers the requests to a client that
answers in order; one for a format that the client does not offer is dropped
(`requests_resolved_iff`).
-/

namespace RdpServer.Daemon

open Bytes Backend Channels Channels.Cliprdr

inductive ClipPdu where
  | formatList (longNames : Bool) (fmts : List (Nat × Bytes))
  | formatListResponse
  | formatDataRequest (formatId : Nat)
  | formatDataResponse (ok : Bool) (data : Bytes)
  | filecontentsRequest (req : Filereq)
  | filecontentsResponse (streamId : Nat) (ok : Bool) (data : Bytes)
  deriving DecidableEq

/-- `CLIP_MAX_PDU`. -/
def clipMaxPdu : Nat := 0x800000

/-- `CLIP_BE_DATA_MAX`. -/
def clipBeDataMax : Nat := 0x400000 - 8

/-- `struct clip_state`, with what was sent to the session and to the client. -/
structure ClipState where
  enabled : Bool := true
  useLongNames : Bool := false
  clientHtmlId : Nat := 0
  clientDibId : Nat := 0
  clientFilesId : Nat := 0
  pendingReqFmt : Nat := 0
  reasm : VcReasm := { maxPdu := clipMaxPdu }
  toSession : List ClipMsg := []
  toClient : List ClipPdu := []
  deriving DecidableEq

namespace ClipState

/-- The format of an id that the client asks for, 0 if the server has none for it. -/
def clipSemFromId (id : Nat) : Nat :=
  if id = cfUnicodetext ∨ id = cfText then fmtText
  else if id = cfDib ∨ id = cfDibv5 then fmtImage
  else if id = fmtHtmlId then fmtHtml
  else if id = fmtFilegroupId then fmtFiles
  else 0

variable (cs : ClipState)

def clipIdForClient (sem : Nat) : Nat :=
  if sem = fmtText then cfUnicodetext
  else if sem = fmtImage then cs.clientDibId
  else if sem = fmtHtml then cs.clientHtmlId
  else if sem = fmtFiles then cs.clientFilesId
  else 0

def tell (msg : ClipMsg) : ClipState := { cs with toSession := cs.toSession ++ [msg] }

def sendClipPdu (pdu : ClipPdu) : ClipState := { cs with toClient := cs.toClient ++ [pdu] }

def capsLongNames : Nat → Bytes → Bool
  | 0, _ => false
  | rounds + 1, p =>
    if p.length < 4 then false
    else
      let clen := le16At p 2
      if clen < 4 ∨ clen > p.length then false
      else
        (le16At p 0 = 1 && clen ≥ 12 && le32At p 8 &&& 0x2 ≠ 0) ||
          capsLongNames rounds (p.drop clen)

def handleCaps (hdr : Hdr) (pdu : Bytes) : ClipState :=
  if hdr.dataLen ≥ 4 ∧ pdu.length ≥ 12 then
    { cs with useLongNames := cs.useLongNames || capsLongNames pdu.length (pdu.drop 12) }
  else cs

def formatBits (f : Formats) : Nat :=
  (if f.hasUnicodeText || f.hasText then fmtText else 0) ||| (if f.hasDib then fmtImage else 0) |||
    (if f.hasHtml then fmtHtml else 0) ||| (if f.hasFiles then fmtFiles else 0)

def learnFormats (f : Formats) : ClipState :=
  { cs with clientHtmlId := if f.hasHtml then f.htmlId else 0
            clientDibId := if f.hasDib then f.dibId else 0
            clientFilesId := if f.hasFiles then f.filesId else 0 }

def handleFormatList (body : Bytes) : ClipState :=
  let f := parseFormatList body cs.useLongNames
  let cs := (cs.learnFormats f).sendClipPdu .formatListResponse
  if formatBits f ≠ 0 then cs.tell (.offer (formatBits f)) else cs

def handleFormatDataRequest (body : Bytes) : ClipState :=
  if body.length < 4 then cs
  else
    let sem := clipSemFromId (le32At body 0)
    if sem ≠ 0 then cs.tell (.request sem) else cs.sendClipPdu (.formatDataResponse false [])

def clipText (data : Bytes) : Bytes :=
  let room := data.length * 2 + 1
  let converted := rdpUtf16leToUtf8 (List.replicate room 0) room data
  ((converted.1.take (converted.2.getD 0)).reverse.dropWhile (· == 0)).reverse

def decodeResponse (sem : Nat) (fail : Bool) (data : Bytes) : ClipMsg :=
  if fail then .data sem 1 []
  else if sem = fmtFiles then .data sem 0 (data.take clipBeDataMax)
  else if sem = fmtImage then
    match dibToBmp data with
    | none => .data sem 1 []
    | some bmp => .data sem 0 bmp
  else if sem = fmtHtml then .data sem 0 (htmlFragment data)
  else .data fmtText 0 (clipText data)

def fails (hdr : Hdr) : Bool := hdr.msgFlags &&& responseFail != 0

def handleFormatDataResponse (hdr : Hdr) (pdu : Bytes) : ClipState :=
  { cs with pendingReqFmt := 0 }.tell
    (decodeResponse cs.pendingReqFmt (fails hdr) ((pdu.drop 8).take hdr.dataLen))

def handleFilecontentsRequest (body : Bytes) : ClipState :=
  match parseFilecontentsRequest body with
  | none => cs
  | some fr => cs.tell (.fileRequest
      { streamId := fr.streamId, lindex := fr.lindex, flags := fr.flags
        posLow := fr.position % 0x100000000, posHigh := fr.position / 0x100000000
        cbRequested := fr.cbRequested })

def handleFilecontentsResponse (hdr : Hdr) (body : Bytes) : ClipState :=
  match parseFilecontentsResponse body with
  | none => cs
  | some (streamId, data) =>
    if fails hdr then cs.tell (.fileData streamId 1 [])
    else cs.tell (.fileData streamId 0 (data.take clipBeDataMax))

/-- `clip_handle_pdu`. -/
def clipHandlePdu (pdu : Bytes) : ClipState :=
  match parseHdr pdu with
  | none => cs
  | some hdr =>
    match hdr.msgType with
    | 2 => cs.handleFormatList (pdu.drop 8)
    | 4 => cs.handleFormatDataRequest (pdu.drop 8)
    | 5 => cs.handleFormatDataResponse hdr pdu
    | 7 => cs.handleCaps hdr pdu
    | 8 => cs.handleFilecontentsRequest (pdu.drop 8)
    | 9 => cs.handleFilecontentsResponse hdr (pdu.drop 8)
    | _ => cs

/-- A payload on the clipboard channel, as `maybe_dispatch_clip` takes it. -/
def dispatch (payload : Bytes) : ClipState :=
  if !cs.enabled then cs
  else
    match cs.reasm.feedPayload payload with
    | (reasm, .complete pdu) =>
      let cs := { cs with reasm := reasm }.clipHandlePdu pdu
      { cs with reasm := cs.reasm.reset }
    | (reasm, _) => { cs with reasm := reasm }

def offeredFormats (bitmap : Nat) : List (Nat × Bytes) :=
  (if bitmap &&& fmtText ≠ 0 then [(cfUnicodetext, [])] else []) ++
    (if bitmap &&& fmtImage ≠ 0 then [(cfDib, [])] else []) ++
    (if bitmap &&& fmtHtml ≠ 0 then [(fmtHtmlId, fmtNameHtml)] else []) ++
    (if bitmap &&& fmtFiles ≠ 0 then [(fmtFilegroupId, fmtNameFilegroup)] else [])

def handleOffer (bitmap : Nat) : ClipState :=
  if !cs.enabled ∨ (offeredFormats bitmap).isEmpty then cs
  else cs.sendClipPdu (.formatList cs.useLongNames (offeredFormats bitmap))

def handleRequest (sem : Nat) : ClipState :=
  if cs.clipIdForClient sem = 0 then cs
  else
    { cs with pendingReqFmt := sem }.sendClipPdu (.formatDataRequest (cs.clipIdForClient sem))

def wideText (data : Bytes) : Bytes :=
  let converted := rdpUtf8ToUtf16le (List.replicate (data.length * 2 + 2) 0) (data.length * 2) data
  converted.1.take (converted.2.getD 0) ++ [0, 0]

def handleData (format status : Nat) (data : Bytes) : ClipState :=
  if status ≠ 0 then cs.sendClipPdu (.formatDataResponse false [])
  else if format = fmtFiles then cs.sendClipPdu (.formatDataResponse true data)
  else if format = fmtImage then
    match bmpToDib data with
    | none => cs.sendClipPdu (.formatDataResponse false [])
    | some dib => cs.sendClipPdu (.formatDataResponse true dib)
  else if format = fmtHtml then
    match htmlWrap (data.length + 256) data with
    | none => cs
    | some cfhtml => cs.sendClipPdu (.formatDataResponse true cfhtml)
  else cs.sendClipPdu (.formatDataResponse true (wideText data))

/-- `clip_handle_be`. -/
def clipHandleBe : ClipMsg → ClipState
  | .offer formats => cs.handleOffer formats
  | .request format => cs.handleRequest format
  | .data format status octets => cs.handleData format status octets
  | .fileData streamId status octets =>
    cs.sendClipPdu (.filecontentsResponse streamId (status = 0)
      (if status = 0 then octets else []))
  | .fileRequest req => cs.sendClipPdu (.filecontentsRequest
      { streamId := req.streamId, lindex := req.lindex, flags := req.flags
        position := req.posLow + req.posHigh * 0x100000000, cbRequested := req.cbRequested })

end ClipState

open List Option ClipState

structure Exchange where
  cs : ClipState := {}
  /-- The number of requests received from the session. -/
  received : Nat := 0
  /-- The requests that the client has to answer, by their number. -/
  outstanding : List Nat := []
  /-- What the session was sent for the requests that the client answered. -/
  resolved : List (Nat × ClipMsg) := []
  deriving DecidableEq

namespace Exchange

inductive Event where
  /-- A PDU of the client. -/
  | client (pdu : Bytes)
  /-- A frame of the session. -/
  | session (type : Nat) (payload : Bytes)
  deriving DecidableEq

def isResponse (pdu : Bytes) : Bool := (parseHdr pdu).any fun hdr => hdr.msgType == 5

def isAsk : ClipPdu → Bool
  | .formatDataRequest _ => true
  | _ => false

def asks (cs : ClipState) : Nat := cs.toClient.countP isAsk

def datas (cs : ClipState) : List ClipMsg := cs.toSession.filter ClipMsg.isData

/-- A response answers the oldest request that is outstanding; a client that was not
asked sends none. -/
def answer (x : Exchange) (pdu : Bytes) : Exchange :=
  match x.outstanding with
  | [] => x
  | i :: rest =>
    let cs := x.cs.clipHandlePdu pdu
    { x with cs := cs, outstanding := rest
             resolved := x.resolved ++
               ((datas cs).drop (datas x.cs).length).map fun msg => (i, msg) }

def request (x : Exchange) (sem : Nat) : Exchange :=
  let cs := x.cs.handleRequest sem
  { x with cs := cs, received := x.received + 1
           outstanding := x.outstanding ++ List.replicate (asks cs - asks x.cs) x.received }

def client (x : Exchange) (pdu : Bytes) : Exchange :=
  if isResponse pdu then x.answer pdu else { x with cs := x.cs.clipHandlePdu pdu }

def handle (x : Exchange) (msg : ClipMsg) : Exchange :=
  match msg with
  | .request sem => x.request sem
  | msg => { x with cs := x.cs.clipHandleBe msg }

def step (x : Exchange) : Event → Exchange
  | .client pdu => x.client pdu
  | .session type payload => ((ClipMsg.read type payload).map x.handle).getD x

def run (events : List Event) (x : Exchange) : Exchange := events.foldl step x

def Event.wants : Event → Option Nat
  | .client _ => none
  | .session type payload =>
    (ClipMsg.read type payload).bind ClipMsg.wants

def Offered (x : Exchange) (event : Event) : Prop :=
  ∀ sem ∈ event.wants, x.cs.clipIdForClient sem ≠ 0

instance decidableOffered (x : Exchange) (event : Event) : Decidable (Offered x event) :=
  inferInstanceAs (Decidable (∀ sem ∈ event.wants, x.cs.clipIdForClient sem ≠ 0))

def accountedFor (x : Exchange) (i : Nat) : Nat :=
  (x.resolved.map Prod.fst).count i + x.outstanding.count i

variable {x : Exchange} {i : Nat}

structure Passive (cs after : ClipState) : Prop where
  pending : after.pendingReqFmt = cs.pendingReqFmt
  told : ∃ frames, after.toSession = cs.toSession ++ frames ∧ frames.filter ClipMsg.isData = []
  asks : asks after = asks cs

variable {cs after : ClipState} {pdu : Bytes} {msg : ClipMsg} (body : Bytes)

theorem passive_of_eq (pending : after.pendingReqFmt = cs.pendingReqFmt)
    (told : after.toSession = cs.toSession) (asks : Exchange.asks after = Exchange.asks cs) :
    Passive cs after :=
  ⟨pending, ⟨[], by rw [told, append_nil], rfl⟩, asks⟩

theorem Passive.refl (cs : ClipState) : Passive cs cs := passive_of_eq rfl rfl rfl

theorem Passive.datas (passive : Passive cs after) : datas after = Exchange.datas cs := by
  obtain ⟨frames, told, none⟩ := passive.told
  rw [Exchange.datas, told, filter_append, none, append_nil]
  rfl

theorem asks_sendClipPdu (cs : ClipState) {pdu : ClipPdu} (other : isAsk pdu = false) :
    asks (cs.sendClipPdu pdu) = asks cs := by
  rw [asks, ClipState.sendClipPdu, countP_append, countP_singleton, other]
  rfl

theorem passive_sendClipPdu (cs : ClipState) {pdu : ClipPdu} (other : isAsk pdu = false) :
    Passive cs (cs.sendClipPdu pdu) := passive_of_eq rfl rfl (asks_sendClipPdu cs other)

/-- Passive, and what the session is told fits a frame. -/
structure Modest (cs after : ClipState) : Prop extends Passive cs after where
  fits : ∃ frames, after.toSession = cs.toSession ++ frames ∧
    ∀ msg ∈ frames, msg.payload.length ≤ 8 + clipBeDataMax

theorem modest_of_eq (pending : after.pendingReqFmt = cs.pendingReqFmt)
    (told : after.toSession = cs.toSession) (asks : Exchange.asks after = Exchange.asks cs) :
    Modest cs after :=
  ⟨passive_of_eq pending told asks, [], by rw [told, append_nil],
    nofun⟩

theorem Modest.refl (cs : ClipState) : Modest cs cs := modest_of_eq rfl rfl rfl

theorem modest_tell (pending : after.pendingReqFmt = cs.pendingReqFmt)
    (told : after.toSession = cs.toSession ++ [msg]) (asks : Exchange.asks after = Exchange.asks cs)
    (other : msg.isData = false) (fits : msg.payload.length ≤ 8 + clipBeDataMax) :
    Modest cs after := by
  refine ⟨⟨pending, ⟨[msg], told, ?_⟩, asks⟩, [msg], told, forall_mem_singleton.2 fits⟩
  rw [filter_singleton, other]
  rfl

theorem handleCaps_modest (hdr : Hdr) (pdu : Bytes) : Modest cs (cs.handleCaps hdr pdu) := by
  unfold handleCaps
  split_ifs
  · exact modest_of_eq rfl rfl rfl
  · exact .refl cs

theorem handleFormatList_modest : Modest cs (cs.handleFormatList body) := by
  have asked : asks ((cs.learnFormats (parseFormatList body cs.useLongNames)).sendClipPdu
      .formatListResponse) = asks cs := asks_sendClipPdu _ rfl
  unfold handleFormatList
  dsimp only
  split_ifs
  · exact modest_tell rfl rfl asked rfl (by rw [ClipMsg.payload, length_leBytes]; decide)
  · exact modest_of_eq rfl rfl asked

theorem handleFormatDataRequest_modest : Modest cs (cs.handleFormatDataRequest body) := by
  unfold handleFormatDataRequest
  dsimp only
  split_ifs
  · exact .refl cs
  · exact modest_tell rfl rfl rfl rfl (by rw [ClipMsg.payload, length_leBytes]; decide)
  · exact modest_of_eq rfl rfl (asks_sendClipPdu cs rfl)

theorem handleFilecontentsRequest_modest : Modest cs (cs.handleFilecontentsRequest body) := by
  unfold handleFilecontentsRequest
  split
  · exact .refl cs
  · refine modest_tell rfl rfl rfl rfl ?_
    simp only [ClipMsg.payload, length_append, length_leBytes]
    decide

theorem length_fileDataPayload (streamId status : Nat) (octets : Bytes) :
    (ClipMsg.fileData streamId status octets).payload.length = 8 + octets.length := by
  simp only [ClipMsg.payload, length_append, length_leBytes]

theorem handleFilecontentsResponse_modest (hdr : Hdr) (body : Bytes) :
    Modest cs (cs.handleFilecontentsResponse hdr body) := by
  unfold handleFilecontentsResponse
  split
  · exact .refl cs
  · split_ifs
    · exact modest_tell rfl rfl rfl rfl (by rw [length_fileDataPayload]; decide)
    · refine modest_tell rfl rfl rfl rfl ?_
      rw [length_fileDataPayload, length_take]
      exact Nat.add_le_add_left (min_le_left _ _) 8

theorem clipHandlePdu_modest (other : isResponse pdu = false) :
    Modest cs (cs.clipHandlePdu pdu) := by
  unfold clipHandlePdu
  split
  · exact .refl cs
  · rename_i hdr parsed
    split
    · exact handleFormatList_modest _
    · exact handleFormatDataRequest_modest _
    · rename_i response
      rw [isResponse, parsed, any_some, response] at other
      cases other
    · exact handleCaps_modest _ _
    · exact handleFilecontentsRequest_modest _
    · exact handleFilecontentsResponse_modest _ _
    · exact .refl cs

def responseOf (pdu : Bytes) (sem : Nat) : ClipMsg :=
  ClipState.decodeResponse sem ((parseHdr pdu).any ClipState.fails)
    ((pdu.drop 8).take (((parseHdr pdu).map Hdr.dataLen).getD 0))

theorem clipHandlePdu_response (response : isResponse pdu = true) :
    cs.clipHandlePdu pdu =
      { cs with pendingReqFmt := 0 }.tell (responseOf pdu cs.pendingReqFmt) := by
  obtain ⟨hdr, parsed, type⟩ := (any_eq_true _ _).1 response
  have five : hdr.msgType = 5 := beq_iff_eq.1 type
  simp only [clipHandlePdu, parsed, five, responseOf]
  rfl

theorem isData_decodeResponse (sem : Nat) (fail : Bool) (data : Bytes) :
    (decodeResponse sem fail data).isData = true := by
  unfold decodeResponse
  split_ifs
  · rfl
  · rfl
  · split <;> rfl
  · rfl
  · rfl

theorem datas_response (response : isResponse pdu = true) (cs : ClipState) :
    datas (cs.clipHandlePdu pdu) = datas cs ++ [responseOf pdu cs.pendingReqFmt] := by
  rw [clipHandlePdu_response response, datas, ClipState.tell, filter_append,
    filter_singleton, responseOf, isData_decodeResponse]
  rfl

theorem handleData_passive (format status : Nat) (data : Bytes) :
    Passive cs (cs.handleData format status data) := by
  unfold handleData
  split_ifs
  · exact passive_sendClipPdu _ rfl
  · exact passive_sendClipPdu _ rfl
  · split <;> exact passive_sendClipPdu _ rfl
  · split
    · exact .refl cs
    · exact passive_sendClipPdu _ rfl
  · exact passive_sendClipPdu _ rfl

theorem clipHandleBe_passive (other : msg.wants = none) : Passive cs (cs.clipHandleBe msg) := by
  cases msg with
  | offer formats =>
    rw [clipHandleBe, handleOffer]
    split_ifs
    · exact .refl cs
    · exact passive_sendClipPdu _ rfl
  | request sem => cases other
  | data format status octets => exact handleData_passive _ _ _
  | fileRequest req | fileData streamId status octets => exact passive_sendClipPdu _ rfl

theorem asks_handleRequest (cs : ClipState) (sem : Nat) :
    asks (cs.handleRequest sem) - asks cs = if cs.clipIdForClient sem = 0 then 0 else 1 := by
  unfold handleRequest
  split_ifs
  · exact Nat.sub_self _
  · rw [asks, ClipState.sendClipPdu, countP_append]
    exact Nat.add_sub_cancel_left _ _

theorem datas_handleRequest (cs : ClipState) (sem : Nat) :
    datas (cs.handleRequest sem) = datas cs := by
  unfold handleRequest
  split_ifs <;> rfl

theorem request_outstanding (x : Exchange) (sem : Nat) :
    (x.request sem).outstanding =
      x.outstanding ++ if x.cs.clipIdForClient sem = 0 then [] else [x.received] := by
  rw [request, asks_handleRequest]
  split_ifs <;> rfl

/-- **One event** leaves the requests as they are, or answers the oldest that is
outstanding with one message, or makes a request. -/
inductive Steps (x : Exchange) (wants : Option Nat) : Exchange → Prop where
  | passive (cs : ClipState) (passive : Passive x.cs cs) (none : wants = none) :
      Steps x wants { x with cs := cs }
  | answered (pdu : Bytes) (i : Nat) (rest : List Nat) (head : x.outstanding = i :: rest)
      (response : isResponse pdu = true) (none : wants = none) :
      Steps x wants
        { x with cs := { x.cs with pendingReqFmt := 0 }.tell (responseOf pdu x.cs.pendingReqFmt)
                 outstanding := rest
                 resolved := x.resolved ++ [(i, responseOf pdu x.cs.pendingReqFmt)] }
  | requested (sem : Nat) (made : wants = some sem) : Steps x wants (x.request sem)

theorem answer_of_head {rest : List Nat} (head : x.outstanding = i :: rest)
    (response : isResponse pdu = true) :
    x.answer pdu =
      { x with cs := { x.cs with pendingReqFmt := 0 }.tell (responseOf pdu x.cs.pendingReqFmt)
               outstanding := rest
               resolved := x.resolved ++ [(i, responseOf pdu x.cs.pendingReqFmt)] } := by
  rw [answer, head]
  dsimp only
  rw [datas_response response, drop_left, clipHandlePdu_response response]
  rfl

theorem client_steps (x : Exchange) (pdu : Bytes) : Steps x none (x.client pdu) := by
  rw [client]
  cases response : isResponse pdu with
  | false => exact .passive _ (clipHandlePdu_modest response).toPassive rfl
  | true =>
    cases head : x.outstanding with
    | nil =>
      rw [answer, head]
      exact .passive x.cs (.refl _) rfl
    | cons i rest =>
      rw [answer_of_head head response]
      exact .answered pdu i rest head response rfl

theorem handle_steps (x : Exchange) (msg : ClipMsg) : Steps x msg.wants (x.handle msg) := by
  cases msg with
  | request sem => exact .requested sem rfl
  | offer _ | data _ _ _ | fileRequest _ | fileData _ _ _ =>
    exact .passive _ (clipHandleBe_passive rfl) rfl

theorem handle_of_other (other : msg.wants = none) :
    x.handle msg = { x with cs := x.cs.clipHandleBe msg } := by
  cases msg with
  | request sem => cases other
  | offer _ | data _ _ _ | fileRequest _ | fileData _ _ _ => rfl

theorem step_steps (x : Exchange) (event : Event) : Steps x event.wants (x.step event) := by
  cases event with
  | client pdu => exact client_steps x pdu
  | session type payload =>
    rw [step, Event.wants]
    cases ClipMsg.read type payload with
    | none => exact .passive x.cs (.refl _) rfl
    | some msg => exact handle_steps x msg

def Fresh (x : Exchange) : Prop := ∀ i, x.received ≤ i → x.accountedFor i = 0

theorem accountedFor_request (x : Exchange) (sem i : Nat) :
    (x.request sem).accountedFor i = x.accountedFor i +
        if x.cs.clipIdForClient sem ≠ 0 ∧ i = x.received then 1 else 0 := by
  rw [accountedFor, request_outstanding, count_append, ← Nat.add_assoc]
  refine congrArg (x.accountedFor i + ·) ?_
  by_cases gone : x.cs.clipIdForClient sem = 0
  · rw [if_pos gone, if_neg fun both => both.1 gone]
    rfl
  · rw [if_neg gone, count_singleton]
    by_cases here : i = x.received
    · rw [if_pos (beq_iff_eq.2 here.symm), if_pos ⟨gone, here⟩]
    · rw [if_neg fun same => here (beq_iff_eq.1 same).symm, if_neg fun both => here both.2]

theorem accountedFor_answered {rest : List Nat}
    (head : x.outstanding = i :: rest) (j : Nat) (cs : ClipState) (msg : ClipMsg) :
    accountedFor { x with cs := cs, outstanding := rest
                          resolved := x.resolved ++ [(i, msg)] } j = x.accountedFor j := by
  simp only [accountedFor, head, map_append, count_append, map_cons, map_nil, count_cons, count_nil]
  omega

variable {wants : Option Nat} {next : Exchange} (events : List Event)

section

variable (steps : Steps x wants next)
include steps

theorem Steps.accountedFor (old : i < x.received) : next.accountedFor i = x.accountedFor i := by
  cases steps with
  | passive cs passive none => rfl
  | answered pdu j rest head response none => exact accountedFor_answered head i _ _
  | requested sem made =>
    rw [accountedFor_request, if_neg fun both => (ne_of_lt old) both.2, Nat.add_zero]

theorem Steps.received_le : x.received ≤ next.received := by
  cases steps with
  | passive cs passive none | answered pdu j rest head response none => exact le_rfl
  | requested sem made => exact Nat.le_succ _

theorem Steps.fresh (fresh : x.Fresh) : next.Fresh := by
  intro i above
  cases steps with
  | passive cs passive none => exact fresh i above
  | answered pdu j rest head response none =>
    rw [accountedFor_answered head]
    exact fresh i above
  | requested sem made =>
    have beyond : x.received + 1 ≤ i := above
    rw [accountedFor_request, fresh i (le_of_lt beyond),
      if_neg fun both => (ne_of_gt beyond) both.2]

theorem Steps.datas (same : x.resolved.map Prod.snd = datas x.cs) :
    next.resolved.map Prod.snd = Exchange.datas next.cs := by
  cases steps with
  | passive cs passive none => exact same.trans passive.datas.symm
  | answered pdu j rest head response none =>
    rw [← clipHandlePdu_response response, datas_response response, map_append, same]
    rfl
  | requested sem made => exact same.trans (datas_handleRequest _ _).symm

end

theorem Steps.eq_request {sem : Nat} (steps : Steps x (some sem) next) : next = x.request sem := by
  cases steps with
  | passive cs passive none => cases none
  | answered pdu j rest head response none => cases none
  | requested sem' made => rw [some.inj made]

theorem run_accountedFor (old : i < x.received) :
    (run events x).accountedFor i = x.accountedFor i := by
  induction events generalizing x with
  | nil => rfl
  | cons event rest ih =>
    have steps := step_steps x event
    rw [run, foldl_cons, ← run, ih (lt_of_lt_of_le old steps.received_le), steps.accountedFor old]

theorem received_le_run : x.received ≤ (run events x).received := by
  induction events generalizing x with
  | nil => exact le_rfl
  | cons event rest ih => exact le_trans (step_steps x event).received_le ih

theorem accountedFor_iff (fresh : x.Fresh) :
    (∀ i, x.received ≤ i → i < (run events x).received → (run events x).accountedFor i = 1) ↔
      Runs.Along step Offered x events := by
  induction events generalizing x with
  | nil => exact ⟨fun _ => True.intro, fun _ i above below => absurd below (Nat.not_lt.2 above)⟩
  | cons event rest ih =>
    have steps := step_steps x event
    have tail := ih (steps.fresh fresh)
    rw [Runs.Along, ← tail, run, foldl_cons, ← run]
    by_cases asks : event.wants = none
    · have offered : Offered x event := by
        intro sem wanted
        rw [asks] at wanted
        cases wanted
      rw [asks] at steps
      have kept : (x.step event).received = x.received := by
        generalize x.step event = next at steps
        cases steps with
        | passive | answered => rfl
        | requested sem made => cases made
      rw [kept]
      exact ⟨fun all => ⟨offered, all⟩, fun both => both.2⟩
    · obtain ⟨sem, wants⟩ := ne_none_iff_exists'.1 asks
      rw [wants] at steps
      have stepped := steps.eq_request
      have here : (run rest (x.step event)).accountedFor x.received =
          if x.cs.clipIdForClient sem ≠ 0 then 1 else 0 := by
        rw [run_accountedFor rest (by rw [stepped]; exact Nat.lt_succ_self _), stepped,
          accountedFor_request, fresh _ (le_rfl), Nat.zero_add]
        exact if_congr (and_iff_left rfl) rfl rfl
      have offered : Offered x event ↔ x.cs.clipIdForClient sem ≠ 0 := by
        rw [Offered, wants]
        exact ⟨fun all => all sem rfl, fun known other same => some.inj same ▸ known⟩
      have next : (x.step event).received = x.received + 1 := by
        rw [stepped]
        rfl
      have reached : x.received < (run rest (x.step event)).received := by
        have grows := received_le_run (x := x.step event) rest
        omega
      rw [offered, next]
      constructor
      · intro all
        refine ⟨fun gone => ?_, fun i above below => all i (Nat.le_of_succ_le above) below⟩
        have one := all x.received (le_rfl) reached
        rw [here, if_neg (not_not_intro gone)] at one
        cases one
      · rintro ⟨known, all⟩ i above below
        by_cases first : i = x.received
        · rw [first, here, if_pos known]
        · exact all i (by omega) below

theorem run_datas : (run events {}).resolved.map Prod.snd = datas (run events {}).cs :=
  Runs.invariant (P := fun x : Exchange => x.resolved.map Prod.snd = datas x.cs)
    (fun x event same => (step_steps x event).datas same) rfl events

/-- **Clipboard requests**: once the client has answered all it was asked, every request
of the session is resolved by exactly one CLIP_DATA, exactly if the client offered its
format when the request came; and there are no other CLIP_DATA messages. -/
theorem requests_resolved_iff (events : List Event) (answered : (run events {}).outstanding = []) :
    ((∀ i < (run events {}).received, ((run events {}).resolved.map Prod.fst).count i = 1) ↔
      Runs.Along step Offered {} events) ∧
    (run events {}).resolved.map Prod.snd = datas (run events {}).cs := by
  refine ⟨?_, run_datas events⟩
  have fresh : Fresh {} := fun _ _ => rfl
  rw [← accountedFor_iff events fresh]
  refine forall_congr' fun i => ?_
  rw [accountedFor, answered, count_nil, Nat.add_zero]
  exact ⟨fun all _ => all, fun all => all (Nat.zero_le i)⟩

def bitmapOffered : Bytes :=
  [2, 0, 0, 0, 36, 0, 0, 0] ++ [8, 0, 0, 0] ++ List.replicate 32 0

def nothingOffered : Bytes := [2, 0, 0, 0, 0, 0, 0, 0]

/-- The session asks for the bitmap that is on offer, and the client fails to give it. -/
def bitmapRefused : List Event :=
  [.client bitmapOffered, .session 7 [2, 0, 0, 0], .client [5, 0, 2, 0, 0, 0, 0, 0]]

theorem requests_resolved_iff_bitmapRefused :
    (run bitmapRefused {}).outstanding = [] ∧ ∀ i < (run bitmapRefused {}).received,
        ((run bitmapRefused {}).resolved.map Prod.fst).count i = 1 :=
  ⟨by decide, (requests_resolved_iff bitmapRefused (by decide)).1.2 (by decide)⟩

/-- The client offers a bitmap and takes it back before the session asks for it. -/
def bitmapWithdrawn : List Event :=
  [.client bitmapOffered, .client nothingOffered, .session 7 [2, 0, 0, 0]]

/-- The client is not asked, and the session is told nothing but the first offer. -/
theorem bitmapWithdrawn_unresolved :
    (run bitmapWithdrawn {}).outstanding = [] ∧ (run bitmapWithdrawn {}).received = 1 ∧
      (run bitmapWithdrawn {}).cs.toSession = [.offer fmtImage] := by
  decide

end Exchange

end RdpServer.Daemon
