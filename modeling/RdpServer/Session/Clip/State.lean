import RdpServer.Backend.ClipMsg
import RdpServer.Session.Clip.Sanitize

/-!
# The clipboard of the session

`clip_x11.c` stands between the X selection CLIPBOARD and the clipboard of the
client. When the client offers something the session owns the selection; the one
SelectionRequest that is deferred is answered when the data comes. Files are downloaded,
range by range. When a local program owns the selection the session fetches from it what the
client asks for. An event carries what the session reads from outside meanwhile (`Host`).
-/

namespace RdpServer.Session.Clip

open Bytes Backend Channels.Cliprdr

inductive Atom where
  | clipboard
  | targets
  | utf8String
  | string
  | text
  | compoundText
  | textHtml
  | imageBmp
  | imageXbmp
  | uriList
  | timestamp
  | incr
  | property
  | other (n : Nat)
  deriving DecidableEq

structure SelectionRequest where
  /-- Tells two requests apart that are otherwise equal; the session does not read it. -/
  serial : Nat
  requestor : Nat
  selection : Atom
  target : Atom
  property : Nat
  time : Nat
  deriving DecidableEq

inductive Answer where
  | refused
  | targets (atoms : List Atom)
  | timestamp
  | data (octets : Bytes)
  deriving DecidableEq

structure Notify where
  request : SelectionRequest
  answer : Answer
  deriving DecidableEq

structure Property where
  type : Atom
  format : Nat
  octets : Bytes
  /-- The value as a list of atoms, empty if it is none. -/
  atoms : List Atom := []
  deriving DecidableEq

structure Host where
  /-- The directory that `mkdtemp` makes. -/
  tmpdir : Option Path
  /-- Whether a directory is made or is there. -/
  mkdir : Path → Bool
  /-- Whether a file can be opened for writing. -/
  create : Path → Bool
  /-- Whether what is written to the open file reaches it. -/
  write : Bool
  stat : Path → Option Stat
  /-- What `pread` returns for a path, a length and an offset. -/
  pread : Path → Nat → Nat → Option Bytes

structure DlEnt where
  path : Path
  size : Nat
  isDir : Bool
  topLevel : Bool
  lindex : Nat
  deriving DecidableEq

end Clip

open Bytes Backend Channels.Cliprdr Clip

/-- `struct rdp_clip`, with the files below the session's directories, the messages
sent to the worker and the notifications sent to local programs. -/
structure Clip where
  rdpOffered : Nat := 0
  rdpDataPending : Bool := false
  /-- The request in the `defer_` fields. -/
  deferred : SelectionRequest :=
    { serial := 0, requestor := 0, selection := .other 0, target := .other 0, property := 0
      time := 0 }
  deferFmt : Nat := 0
  xFetchFmt : Nat := 0
  incrActive : Bool := false
  incrDiscard : Bool := false
  incrBuf : Bytes := []
  filePaths : List Path := []
  dlActive : Bool := false
  dlDescs : List DlEnt := []
  dlIdx : Nat := 0
  /-- The file that is open. -/
  dlFd : Option Path := none
  dlOff : Nat := 0
  dlSize : Nat := 0
  dlStream : Nat := 0
  dlTmpdir : Option Path := none
  files : Path → Option Bytes := fun _ => none
  sent : List ClipMsg := []
  notified : List Notify := []

namespace Clip

/-- `CLIP_X11_MAX`. -/
def clipX11Max : Nat := 0x400000

/-- `CLIP_FILE_RANGE_MAX` and `CLIP_FILE_DL_CHUNK`. -/
def fileChunk : Nat := 0x400000 - 8

/-- `CLIP_FILE_DL_MAX`. -/
def fileDlMax : Nat := 0x10000000

def targetForFmt (fmt : Nat) : Option Atom :=
  if fmt = fmtText then some .utf8String
  else if fmt = fmtImage then some .imageBmp
  else if fmt = fmtHtml then some .textHtml
  else if fmt = fmtFiles then some .uriList
  else none

def fmtForTarget : Atom → Nat
  | .utf8String | .string | .text | .compoundText => fmtText
  | .textHtml => fmtHtml
  | .imageBmp | .imageXbmp => fmtImage
  | .uriList => fmtFiles
  | _ => 0

section Handlers

variable (c : Clip) (host : Host)

def send (msg : ClipMsg) : Clip := { c with sent := c.sent ++ [msg] }

/-- `send_clip_data`: without data it reports a failure. -/
def sendClipData (fmt : Nat) (data : Option Bytes) : Clip :=
  c.send (.data fmt (if data.isSome then 0 else 1) (data.getD []))

def sendClipFileRequest (streamId lindex flags pos cbRequested : Nat) : Clip :=
  c.send (.fileRequest
    { streamId := streamId, lindex := lindex, flags := flags, posLow := pos % 0x100000000
      posHigh := pos / 0x100000000, cbRequested := cbRequested })

def sendClipFileData (streamId : Nat) (data : Option Bytes) : Clip :=
  c.send (.fileData streamId (if data.isSome then 0 else 1) (data.getD []))

def notifySelection (re : SelectionRequest) (answer : Answer) : Clip :=
  { c with notified := c.notified ++ [{ request := re, answer := answer }] }

/-- `answer_selection_request`: a request is refused for want of data. -/
def answerSelectionRequest (re : SelectionRequest) (data : Option Bytes) : Clip :=
  match data with
  | some (octet :: rest) => c.notifySelection re (.data (octet :: rest))
  | _ => c.notifySelection re .refused

def answerDeferred (data : Option Bytes) : Clip :=
  if c.rdpDataPending then
    { c with rdpDataPending := false }.answerSelectionRequest c.deferred data
  else c

def filesReset : Clip := { c with filePaths := [] }

def incrReset : Clip :=
  { c with incrBuf := [], incrActive := false, incrDiscard := false }

def dlClearState : Clip :=
  { c with dlFd := none, dlDescs := [], dlIdx := 0, dlOff := 0, dlSize := 0, dlStream := 0
           dlActive := false }

/-- `clip_rmtree`. -/
def rmtree (dir : Path) : Clip :=
  { c with files := fun path => if (dir ++ [slash]).isPrefixOf path then none else c.files path }

def dlReset : Clip :=
  match c.dlTmpdir with
  | none => c.dlClearState
  | some dir => { c.dlClearState.rmtree dir with dlTmpdir := none }

def uriListOf (descs : List DlEnt) : Bytes :=
  (descs.filter DlEnt.topLevel).foldl (fun buf e => uriListAppend buf e.path) []

def dlFinishOk : Clip := (c.answerDeferred (some (uriListOf c.dlDescs))).dlClearState

def dlAbort : Clip := (c.answerDeferred none).dlReset

/-- `open` with `O_TRUNC`. -/
def truncate (path : Path) : Clip :=
  { c with dlFd := some path
           files := fun other => if other = path then some [] else c.files other }

/-- `write` at the end of the open file. -/
def append (path : Path) (octets : Bytes) : Clip :=
  { c with files := fun other =>
      if other = path then some ((c.files path).getD [] ++ octets) else c.files other }

def requestRange (e : DlEnt) : Clip :=
  let stream := (c.dlStream + 1) % 0x100000000
  { c with dlStream := stream }.sendClipFileRequest stream e.lindex filecontentsRange c.dlOff
    (min (c.dlSize - c.dlOff) fileChunk)

/-- The loop of `clip_dl_begin_current` over the entries from `dl_idx` on; the flag is
false for a failure. -/
def beginCurrent : List DlEnt → Clip → Clip × Bool
  | [], c => (c.dlFinishOk, true)
  | e :: rest, c =>
    if e.isDir then
      if host.mkdir e.path then beginCurrent rest { c with dlIdx := c.dlIdx + 1 }
      else (c, false)
    else if host.create e.path then
      let c := { c.truncate e.path with dlOff := 0, dlSize := e.size }
      if e.size = 0 then beginCurrent rest { c with dlFd := none, dlIdx := c.dlIdx + 1 }
      else (c.requestRange e, true)
    else (c, false)

/-- `clip_dl_begin_current`, and the abort of its callers. -/
def dlBegin : Clip :=
  match beginCurrent host (c.dlDescs.drop c.dlIdx) c with
  | (c, true) => c
  | (c, false) => c.dlAbort

def parentsOf (base rel : Path) : List Path :=
  (List.range rel.length).filterMap fun i =>
    if rel[i]? = some slash then some (base ++ [slash] ++ rel.take i) else none

/-- `clip_mkdirs_for`. -/
def mkdirsFor (base rel : Path) : Bool :=
  (parentsOf base rel).all fun dir => dir.length < 4096 && host.mkdir dir

def dlEntry (dir : Path) (desc : Filedesc) (lindex : Nat) : Except Unit (Option DlEnt) :=
  match sanitizeName desc.name 1024 with
  | none => .ok none
  | some rel =>
    let abspath := dir ++ [slash] ++ rel
    if abspath.length ≥ 4096 then .ok none
    else
      let isDir := desc.attrs &&& fileAttributeDirectory != 0
      if !isDir ∧ desc.size > fileDlMax then .error ()
      else if !mkdirsFor host dir rel then .error ()
      else .ok (some
        { path := abspath, size := if isDir then 0 else desc.size, isDir := isDir
          topLevel := !rel.contains slash, lindex := lindex })

/-- The loop of `clip_dl_start` over the descriptors. -/
def dlEntries (dir : Path) : List Filedesc → Nat → Except Unit (List DlEnt)
  | [], _ => .ok []
  | desc :: rest, i =>
    match dlEntry host dir desc i with
    | .error () => .error ()
    | .ok none => dlEntries dir rest (i + 1)
    | .ok (some e) =>
      match dlEntries dir rest (i + 1) with
      | .error () => .error ()
      | .ok es => .ok (e :: es)

/-- `clip_dl_start`. -/
def dlStart (blob : Bytes) : Clip :=
  let c := c.dlReset
  match parseFileList blob maxFiles with
  | none => c.dlAbort
  | some descs =>
    if descs.isEmpty then c.dlAbort
    else
      match host.tmpdir with
      | none => c.dlAbort
      | some dir =>
        let c := { c with dlTmpdir := some dir }
        match dlEntries host dir descs 0 with
        | .error () => c.dlAbort
        | .ok [] => c.dlAbort
        | .ok (e :: es) =>
          { c with dlDescs := e :: es, dlActive := true, dlIdx := 0
                   dlFd := none }.dlBegin host

def dlContinue (e : DlEnt) : Clip :=
  if c.dlOff ≥ c.dlSize then
    { c with dlFd := none, dlIdx := c.dlIdx + 1 }.dlBegin host
  else c.requestRange e

/-- `clip_dl_on_file_data`. -/
def dlOnFileData (streamId status : Nat) (data : Bytes) : Clip :=
  if !c.dlActive then c
  else
    match c.dlDescs[c.dlIdx]? with
    | none => c
    | some e =>
      if streamId ≠ c.dlStream then c
      else if status ≠ 0 then c.dlAbort
      else
        match c.dlFd with
        | none => c.dlAbort
        | some path =>
          if data.isEmpty then
            if c.dlOff < c.dlSize then c.dlAbort else c.dlContinue host e
          else
            let octets := data.take (c.dlSize - c.dlOff)
            if !octets.isEmpty ∧ !host.write then c.dlAbort
            else
              let c := { c.append path octets with dlOff := c.dlOff + octets.length }
              c.dlContinue host e

/-- `read_property_bytes`. -/
def readPropertyBytes (value : Property) : Option Bytes :=
  if value.format ≠ 8 ∨ value.octets.isEmpty ∨ value.octets.length > clipX11Max then none
  else some value.octets

/-- `send_fetched_clip_data`. -/
def sendFetchedClipData (fmt : Nat) (data : Option Bytes) : Clip :=
  if fmt = fmtFiles then
    match data with
    | none => c.sendClipData fmt none
    | some uri =>
      let found := filesOf host.stat uri
      if found.isEmpty then c.filesReset.sendClipData fmt none
      else
        match buildFileList (found.map Prod.snd) with
        | none => c.filesReset.sendClipData fmt none
        | some blob =>
          { c with filePaths := found.map Prod.fst }.sendClipData fmt (some blob)
  else c.sendClipData fmt data

/-- `on_xfixes_selection_notify`, for an owner other than the session. -/
def onXfixesSelectionNotify : Clip := { c.incrReset.filesReset with xFetchFmt := 0 }

/-- `on_targets_notify`. -/
def onTargetsNotify (atoms : List Atom) : Clip :=
  let bitmap := atoms.foldl (fun bits atom => bits ||| fmtForTarget atom) 0
  c.send (.offer (if bitmap = 0 then fmtText else bitmap))

/-- `on_incr_property`. -/
def onIncrProperty (value : Property) : Clip :=
  match readPropertyBytes value with
  | none =>
    c.incrReset.sendFetchedClipData host c.xFetchFmt
      (if c.incrDiscard ∨ c.incrBuf.isEmpty then none else some c.incrBuf)
  | some chunk =>
    if c.incrDiscard then c
    else if c.incrBuf.length + chunk.length > clipX11Max then
      { c with incrBuf := [], incrDiscard := true }
    else { c with incrBuf := c.incrBuf ++ chunk }

/-- `on_selection_notify`; the owner names no property when it refuses. -/
def onSelectionNotify (target : Atom) : Option Property → Clip
  | none =>
    if target = .targets then c.send (.offer fmtText)
    else c.sendClipData c.xFetchFmt none
  | some value =>
    if target = .targets then c.onTargetsNotify value.atoms
    else if value.type = .incr then { c.incrReset with incrActive := true }
    else
      let fmt := if fmtForTarget target = 0 then c.xFetchFmt else fmtForTarget target
      c.sendFetchedClipData host fmt (readPropertyBytes value)

def targetsOf (offered : Nat) : List Atom :=
  [.targets, .timestamp] ++
    (if offered &&& fmtText ≠ 0 then [.utf8String, .string, .text] else []) ++
    (if offered &&& fmtImage ≠ 0 then [.imageBmp, .imageXbmp] else []) ++
    (if offered &&& fmtHtml ≠ 0 then [.textHtml] else []) ++
    (if offered &&& fmtFiles ≠ 0 then [.uriList] else [])

/-- `on_selection_request`. -/
def onSelectionRequest (re : SelectionRequest) : Clip :=
  if re.selection ≠ .clipboard then c
  else if re.target = .targets then c.notifySelection re (.targets (targetsOf c.rdpOffered))
  else if re.target = .timestamp then c.notifySelection re .timestamp
  else
    let fmt := fmtForTarget re.target
    if fmt ≠ 0 ∧ c.rdpOffered &&& fmt ≠ 0 ∧ !c.rdpDataPending then
      { c with deferred := re, deferFmt := fmt, rdpDataPending := true }.send (.request fmt)
    else c.answerSelectionRequest re none

def onSelectionClear : Clip :=
  ({ c with rdpOffered := 0, rdpDataPending := false }.filesReset).dlReset

def onClipOffer (formats : Nat) : Clip :=
  { c with rdpOffered := formats, rdpDataPending := false }.dlReset

def onClipRequest (format : Nat) : Clip :=
  match targetForFmt format with
  | none => c.sendClipData format none
  | some _ => { c.incrReset with xFetchFmt := format }

def onClipData (format status : Nat) (octets : Bytes) : Clip :=
  let data := if status = 0 ∧ !octets.isEmpty then some octets else none
  if format = fmtFiles then
    if !c.rdpDataPending then c
    else
      match data with
      | none => c.dlAbort
      | some blob => c.dlStart host blob
  else c.answerDeferred data

def onClipFileRequest (rq : ClipFileReq) : Clip :=
  match c.filePaths[rq.lindex]? with
  | none => c.sendClipFileData rq.streamId none
  | some path =>
    if rq.flags &&& filecontentsSize ≠ 0 then
      c.sendClipFileData rq.streamId
        ((host.stat path).map fun st => leBytes 8 (if st.isDir then 0 else st.size))
    else if rq.flags &&& filecontentsRange = 0 then c.sendClipFileData rq.streamId none
    else
      let want := min rq.cbRequested fileChunk
      c.sendClipFileData rq.streamId
        ((host.pread path want (rq.posLow + rq.posHigh * 0x100000000)).map (·.take want))

/-- `rdp_clip_handle_be_msg`. -/
def handleBeMsg : ClipMsg → Clip
  | .offer formats => c.onClipOffer formats
  | .request format => c.onClipRequest format
  | .data format status octets => c.onClipData host format status octets
  | .fileData streamId status octets =>
    c.dlOnFileData host streamId status (if status = 0 then octets else [])
  | .fileRequest rq => c.onClipFileRequest host rq

end Handlers

inductive Event where
  | selectionRequest (re : SelectionRequest)
  | selectionClear (selection : Atom)
  /-- Another program than the session owns the selection. -/
  | selectionOwner (selection : Atom)
  | selectionNotify (host : Host) (selection target : Atom) (property : Option Property)
  /-- The property that the session reads in parts has a new value. -/
  | propertyNotify (host : Host) (value : Property)
  | message (host : Host) (type : Nat) (payload : Bytes)

/-- `rdp_clip_handle_xevent` and `rdp_clip_handle_be_msg`. -/
def step (c : Clip) : Event → Clip
  | .selectionRequest re => c.onSelectionRequest re
  | .selectionClear selection => if selection = .clipboard then c.onSelectionClear else c
  | .selectionOwner selection =>
    if selection = .clipboard then c.onXfixesSelectionNotify else c
  | .selectionNotify host selection target property =>
    if selection = .clipboard then c.onSelectionNotify host target property else c
  | .propertyNotify host value => if c.incrActive then c.onIncrProperty host value else c
  | .message host type payload =>
    match ClipMsg.read type payload with
    | none => c
    | some msg => c.handleBeMsg host msg

def run (events : List Event) (c : Clip) : Clip := events.foldl step c

end Clip

end RdpServer.Session
