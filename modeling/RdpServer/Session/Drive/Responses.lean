import RdpServer.Session.Drive.Requests

/-!
# Answers of the client

`handleFsRsp` takes the operation in flight that an FS_RSP answers out of its
slot and completes it: with a reply to the kernel, or with the next message of
its chain. Everything in the payload comes from the client; a length that it
declares is bounded by what was received.

`step` is what one event does to the drive, whichever side it comes from, and
`run` is a sequence of events.
-/

namespace RdpServer.Session

open Bytes

def ld32 (octets : Bytes) (offset : Nat) : Nat := leValue ((octets.drop offset).take 4)

def ld64 (octets : Bytes) (offset : Nat) : Nat := leValue ((octets.drop offset).take 8)

/-- The FSCC buffer of an answer: a length and that many bytes, if they came. -/
def fsccOf (payload : Bytes) : Bytes := (payload.drop 4).take (ld32 payload 0)

def Node.granted (node : Node) (fileId : FileId) (access : Access) : Node :=
  { node with fileId, haveOpen := true, access }

namespace FuseDrive

variable (fd : FuseDrive)

def fdiFixed : Nat := 93

structure Decoded where
  cache : Dircache
  records : Nat := 0
  full : Bool := false
  deriving DecidableEq

def direntName (fdi : Bytes) : Name :=
  (List.range (min (ld32 fdi 60 / 2) nameMax)).map fun i => fdi.getD (fdiFixed + i * 2) 0

def isDots (name : Name) : Bool :=
  name.isEmpty || cString name == [0x2E] || cString name == [0x2E, 0x2E]

def direntAdvance (fdi : Bytes) : Nat :=
  if ld32 fdi 0 = 0 then fdi.length
  else if ld32 fdi 0 < fdiFixed ∨ ld32 fdi 0 > fdi.length then 0
  else ld32 fdi 0

/-- `fd_decode_one_dirent`: the bytes to advance, or 0 to stop. -/
def decodeOneDirent (fdi : Bytes) (parent : NodeId) (d : Decoded) : Nat × Decoded :=
  if fdi.length < fdiFixed then (0, d)
  else if ld32 fdi 60 > fdi.length - fdiFixed then (0, d)
  else
    let name := direntName fdi
    let d := { d with records := d.records + 1 }
    if isDots name then (direntAdvance fdi, d)
    else
      let ino := ((fd.childFind parent name).map fun n => (fd.nodeAt n).nodeid).getD unknownIno
      match dircacheAdd d.cache { ino, name, isDir := ld32 fdi 56 / 16 % 2 = 1 } with
      | none => (0, { d with full := true })
      | some cache => (direntAdvance fdi, { d with cache })

def decodeDirents (parent : NodeId) : Nat → Bytes → Decoded → Decoded
  | 0, _, d => d
  | fuel + 1, fdi, d =>
    if fdi.length < fdiFixed ∨ d.full then d
    else
      let (used, d) := fd.decodeOneDirent fdi parent d
      if used = 0 ∨ used > fdi.length then d
      else decodeDirents parent fuel (fdi.drop used) d

def finishList (slot : Nat) (c : Dircache) (unique : Unique) (off size : Nat) : FuseDrive :=
  let c := { c with filling := false }
  { fd with dircache := fd.dircache.put slot c }.dircacheServe (some c) unique off size

def continueList (f : Inflight) (n : NodeRef) (c : Dircache) (payload : Bytes) : FuseDrive :=
  let fscc := fsccOf payload
  let d := fd.decodeDirents f.nodeid fscc.length fscc { cache := c }
  let fd := { fd with dircache := fd.dircache.put f.dircache d.cache }
  if d.records > 0 ∧ ¬ d.full then
    (fd.sendList n f.fuseUnique true f.listOff f.readSize f.dircache).orElse fun fd =>
      fd.finishList f.dircache d.cache f.fuseUnique f.listOff f.readSize
  else fd.finishList f.dircache d.cache f.fuseUnique f.listOff f.readSize

def fillingCache (f : Inflight) : Option Dircache :=
  (fd.dircache.entry f.dircache).filter fun c => c.filling && c.nodeid == f.nodeid

def completeList (f : Inflight) (rsp : FsRsp) : FuseDrive :=
  match fd.fillingCache f with
  | none => fd.replyError f.fuseUnique .eio
  | some c =>
    match fd.nodeFind f.nodeid with
    | none => (fd.dircacheRelease f.dircache).replyError f.fuseUnique .enoent
    | some n =>
      if rsp.status = statusSuccess then fd.continueList f n c rsp.payload
      else if rsp.status ≠ statusNoMoreFiles ∧ c.ents = [] then
        (fd.dircacheRelease f.dircache).replyError f.fuseUnique (statusToErrno rsp.status)
      else fd.finishList f.dircache c f.fuseUnique f.listOff f.readSize

def completeRead (f : Inflight) (rsp : FsRsp) : FuseDrive :=
  if rsp.status ≠ statusSuccess then fd.replyError f.fuseUnique (statusToErrno rsp.status)
  else fd.reply f.fuseUnique (.data ((fsccOf rsp.payload).take f.readSize))

def completeWrite (f : Inflight) (rsp : FsRsp) : FuseDrive :=
  if rsp.status ≠ statusSuccess then fd.replyError f.fuseUnique (statusToErrno rsp.status)
  else
    let written := if rsp.payload.length ≥ 4 then ld32 rsp.payload 0 else rsp.length
    fd.reply f.fuseUnique (.written (min written f.readSize))

def fsccStdInfoLen : Nat := 22
def fsccBasicInfoLen : Nat := 36

/-- `fd_filetime_to_unix`, in seconds. -/
def filetimeToUnix (ft : Nat) : Nat :=
  if ft = 0 ∨ ft / 10000000 < 11644473600 then 0 else ft / 10000000 - 11644473600

def standardInfo (acc : AttrAcc) (fscc : Bytes) : AttrAcc :=
  if fscc.length ≥ fsccStdInfoLen then
    { acc with size := ld64 fscc 8, isDir := fscc.getD 21 0 != 0 }
  else acc

def basicInfo (acc : AttrAcc) (fscc : Bytes) : AttrAcc :=
  if fscc.length ≥ fsccBasicInfoLen then
    let mtime := filetimeToUnix (ld64 fscc 16)
    let ctime := filetimeToUnix (ld64 fscc 24)
    { acc with
      atime := filetimeToUnix (ld64 fscc 8)
      mtime
      ctime := if ctime = 0 then mtime else ctime
      isDir := ld32 fscc 32 / 16 % 2 = 1
      readonly := ld32 fscc 32 % 2 = 1 }
  else acc

/-- The reply at the end of a getattr chain: an entry for LOOKUP, else attributes. -/
def getattrReply (f : Inflight) (acc : AttrAcc) (n : NodeRef) : FuseDrive :=
  if f.replyOp = .opLookup then fd.replyEntryAcc f.fuseUnique n acc
  else fd.replyAttrAcc f.fuseUnique n acc

def completeQuery (f : Inflight) (rsp : FsRsp) : FuseDrive :=
  match fd.nodeFind f.nodeid with
  | none => fd.replyError f.fuseUnique .enoent
  | some n =>
    let fscc := if rsp.status = statusSuccess then fsccOf rsp.payload else []
    match f.phase with
    | .getattrStd =>
      let acc := standardInfo f.acc fscc
      (fd.sendQuery n f.fuseUnique .fileBasicInformation .getattrBasic acc f.replyOp).orElse
        fun fd => fd.getattrReply f acc n
    | .getattrBasic =>
      let acc := basicInfo f.acc fscc
      (fd.updateNode n fun n => { n with isDir := acc.isDir }).getattrReply f acc n
    | _ => fd.replyError f.fuseUnique .eio

def openFailed (f : Inflight) (n : NodeRef) (status : UInt32) : FuseDrive :=
  let node := fd.nodeAt n
  let fd :=
    if (f.op = .fsOpen ∨ f.op = .getattrTag) ∧ f.replyOp = .opLookup ∧ ¬ node.isDrive then
      let fd := fd.updateNode n fun n => { n with nlookup := n.nlookup - 1 }
      if node.nlookup ≤ 1 then fd.freeNode n else fd
    else if (f.op = .createTag ∨ f.op = .mknodTag ∨ f.op = .mkdirTag) ∧ ¬ node.haveOpen ∧
        node.nlookup = 0 ∧ ¬ node.isDrive then fd.freeNode n
    else fd
  fd.replyError f.fuseUnique (statusToErrno status)

def openGranted (f : Inflight) (n : NodeRef) : FuseDrive :=
  match f.op with
  | .getattrTag =>
    (fd.sendQuery n f.fuseUnique .fileStandardInformation .getattrStd f.acc f.replyOp).orElse
      fun fd => fd.getattrReply f f.acc n
  | .fsOpen =>
    (fd.updateNode n fun n => { n with nlookup := n.nlookup + 1 }).replyEntry f.fuseUnique n
  | .openfileTag =>
    (fd.updateNode n fun n => { n with openRefs := n.openRefs + 1 }).reply f.fuseUnique
      (.opened (fd.nodeAt n).nodeid true)
  | .opendirTag =>
    (fd.updateNode n fun n => { n with openRefs := n.openRefs + 1 }).reply f.fuseUnique
      (.opened (fd.nodeAt n).nodeid false)
  | .createTag =>
    (fd.updateNode n fun n =>
      { n with openRefs := n.openRefs + 1, nlookup := n.nlookup + 1 }).replyCreate f.fuseUnique n
  | .mknodTag =>
    ((fd.updateNode n fun n => { n with nlookup := n.nlookup + 1 }).sendClose n).replyEntry
      f.fuseUnique n
  | .mkdirTag =>
    ((fd.updateNode n fun n =>
      { n with isDir := true, nlookup := n.nlookup + 1 }).sendClose n).replyEntry f.fuseUnique n
  | _ => fd.replyError f.fuseUnique .eio

/-- `fd_complete_open`. The handle is recorded in the node over any other. -/
def completeOpen (f : Inflight) (rsp : FsRsp) : FuseDrive :=
  match fd.nodeFind f.nodeid with
  | none => fd.replyError f.fuseUnique .enoent
  | some n =>
    if rsp.status ≠ statusSuccess then fd.openFailed f n rsp.status
    else
      let access := if f.reqAccess ≠ 0 then f.reqAccess else fileReadData
      (fd.updateNode n fun n => n.granted rsp.fileId access).openGranted f n

/-- `fd_drop_node`. -/
def dropNode (n : NodeRef) : FuseDrive :=
  if (fd.nodeAt n).nodeid = rootId ∨ (fd.nodeAt n).isDrive then fd else fd.freeNode n

def completeUnlink (f : Inflight) (rsp : FsRsp) : FuseDrive :=
  match fd.nodeFind f.nodeid with
  | none => fd.replyError f.fuseUnique .enoent
  | some n =>
    if f.phase = .unlinkOpen then
      if rsp.status ≠ statusSuccess then fd.replyError f.fuseUnique (statusToErrno rsp.status)
      else
        let fd := fd.updateNode n fun n => n.granted rsp.fileId accessDelete
        ((fd.sendSetInfo n f.fuseUnique .fileDispositionInformation .unlinkTag [1]).tag
          fun slot => { slot with phase := .unlinkSetdisp }).orElse fun fd =>
            (fd.sendClose n).replyError f.fuseUnique .eio
    else if rsp.status ≠ statusSuccess then
      (fd.sendClose n).replyError f.fuseUnique (statusToErrno rsp.status)
    else ((fd.sendClose n).reply f.fuseUnique .ok).dropNode n

def fsccRenameNameMax : Nat := 2048

/-- `fd_build_rename_info`; `none` if the target does not fit. -/
def buildRenameInfo (target : Name) : Option Bytes :=
  if target.length * 2 > fsccRenameNameMax then none
  else some ([1, 0] ++ leBytes 4 (target.length * 2) ++ target.flatMap fun octet => [octet, 0])

def leafOf (target : Name) : Name :=
  cString (target.reverse.takeWhile (· != backslash)).reverse

def renameOpened (f : Inflight) (n : NodeRef) (fileId : FileId) : FuseDrive :=
  let fd := fd.updateNode n fun n => n.granted fileId (accessDelete ||| fileWriteData)
  match buildRenameInfo f.target with
  | none => (fd.sendClose n).replyError f.fuseUnique .enametoolong
  | some info =>
    ((fd.sendSetInfo n f.fuseUnique .fileRenameInformation .renameTag info).tag fun slot =>
      { slot with phase := .renameSet, targetParent := f.targetParent, target := f.target }).orElse
        fun fd => (fd.sendClose n).replyError f.fuseUnique .eio

def completeRename (f : Inflight) (rsp : FsRsp) : FuseDrive :=
  match fd.nodeFind f.nodeid with
  | none => fd.replyError f.fuseUnique .enoent
  | some n =>
    if f.phase = .renameOpen then
      if rsp.status ≠ statusSuccess then fd.replyError f.fuseUnique (statusToErrno rsp.status)
      else fd.renameOpened f n rsp.fileId
    else if rsp.status ≠ statusSuccess then
      (fd.sendClose n).replyError f.fuseUnique (statusToErrno rsp.status)
    else
      let leaf := leafOf f.target
      let fd := fd.sendClose n
      let fd := if 0 < leaf.length ∧ leaf.length ≤ nameMax then
          fd.updateNode n fun n => { n with parent := f.targetParent, name := leaf }
        else fd
      fd.reply f.fuseUnique .ok

/-- `fd_complete_set_info`. -/
def completeSetInfo (f : Inflight) (rsp : FsRsp) : FuseDrive :=
  if f.op ≠ .setattrTag then fd
  else match fd.nodeFind f.nodeid with
    | none => fd.replyError f.fuseUnique .enoent
    | some n =>
      if rsp.status ≠ statusSuccess then fd.replyError f.fuseUnique (statusToErrno rsp.status)
      else if f.phase = .setattrEofThenTime then
        (fd.sendTimeSet n f.fuseUnique f.timeSet f.acc).orElse fun fd =>
          fd.replyAttrAcc f.fuseUnique n f.acc
      else
        (fd.sendQuery n f.fuseUnique .fileStandardInformation .getattrStd f.acc .opSetattr).orElse
          fun fd => fd.replyAttrAcc f.fuseUnique n f.acc

def complete (f : Inflight) (rsp : FsRsp) : FuseDrive :=
  match f.op with
  | .fsClose => fd
  | .fsOpen | .openfileTag | .opendirTag | .getattrTag | .createTag | .mknodTag | .mkdirTag =>
    fd.completeOpen f rsp
  | .unlinkTag => fd.completeUnlink f rsp
  | .renameTag => fd.completeRename f rsp
  | .fsRead => fd.completeRead f rsp
  | .fsWrite => fd.completeWrite f rsp
  | .fsList => fd.completeList f rsp
  | .fsQueryInfo => fd.completeQuery f rsp
  | .fsSetInfo | .setattrTag => fd.completeSetInfo f rsp

/-- `fuse_drive_handle_fs_rsp`. An answer that no slot waits for is ignored. -/
def handleFsRsp (rsp : FsRsp) : FuseDrive :=
  match fd.inflightFind rsp.reqId with
  | none => fd
  | some (slot, f) => { fd with inflight := fd.inflight.clear slot }.complete f rsp

def decimal (value : Nat) : Name := (toString value).toList.map fun c => low c.toNat

def driveName (deviceId : DeviceId) (name : Name) : Name :=
  let label := ((name.take 8).takeWhile (· != 0)).map fun c =>
    if c = 0x2F ∨ c = backslash then 0x5F else c
  let label := (label.reverse.dropWhile fun c => c == 0x20 || c == 0x09).reverse
  if label.isEmpty then [0x64, 0x72, 0x69, 0x76, 0x65] ++ decimal deviceId.toNat else label

/-- `fuse_drive_add_device`. A label that is announced again keeps the device it
was first announced for. -/
def addDevice (deviceId : DeviceId) (name : Name) (added : Bool) : FuseDrive :=
  let label := driveName deviceId name
  if !added then
    { fd with nodes := fd.nodes.keep fun n => !(n.isDrive && n.deviceId == deviceId) }
  else if ((fd.childFind rootId label).any fun n => (fd.nodeAt n).isDrive) then fd
  else match fd.childMake rootId label deviceId true with
    | none => fd
    | some (n, fd) => fd.updateNode n fun n => { n with isDrive := true }

inductive Event where
  /-- The kernel dispatches a request. -/
  | request (req : FdRequest)
  /-- An answer of the client arrives. -/
  | response (rsp : FsRsp)
  /-- The client announces or withdraws a drive. -/
  | device (deviceId : DeviceId) (name : Name) (added : Bool)
  deriving DecidableEq

def step : Event → FuseDrive
  | .request req => fd.dispatch req
  | .response rsp => fd.handleFsRsp rsp
  | .device deviceId name added => fd.addDevice deviceId name added

def run (events : List Event) : FuseDrive := events.foldl step fd

/-- `fd_common_init`, over a socket that takes every FS_REQ. -/
def commonInit (indexOffsets : Bool) : FuseDrive := { indexOffsets }

end FuseDrive

end RdpServer.Session
