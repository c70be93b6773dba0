import RdpServer.Lib.Bytes
import RdpServer.Lib.Slots

/-!
# The drive of a session: nodes, in-flight operations, listings

The session presents the drives that the client redirects as a file system. Requests of the
kernel that need the client are sent on as FS_REQ messages and answered when the matching
FS_RSP arrives. `FuseDrive` is what the drive keeps between messages; the FS_REQ messages it
has sent and the replies it has written are logged with it, in order. A pointer into one of
the tables is the index of its slot.
-/

namespace RdpServer.Session

open Bytes

abbrev NodeId := Nat
abbrev ReqId := UInt32
abbrev DeviceId := UInt32
abbrev FileId := UInt32
abbrev Unique := UInt64
abbrev Name := Bytes
abbrev Access := UInt32

abbrev NodeRef := Nat
abbrev SlotRef := Nat

def maxNodes : Nat := 512
def inflightMax : Nat := 64
def nameMax : Nat := 255
def unknownIno : NodeId := 0xffffffff
def dircacheSlots : Nat := 4
def rootId : NodeId := 1
def maxRead : Nat := 128 * 1024
def maxWrite : Nat := 128 * 1024
def pathCap : Nat := 1024
def dirMaxEntries : Nat := 65536
def dirMaxNames : Nat := 4 * 1024 * 1024

def fileReadData : Access := 0x00000001
def fileWriteData : Access := 0x00000002
def accessDelete : Access := 0x00010000

def fileDirectoryFile : UInt32 := 0x00000001
def fileNonDirectoryFile : UInt32 := 0x00000040
def fileDeleteOnClose : UInt32 := 0x00001000
def fsListContinue : UInt32 := 1

def statusSuccess : UInt32 := 0x00000000
def statusNoMoreFiles : UInt32 := 0x80000006
def statusUnsuccessful : UInt32 := 0xC0000001
def statusNotImplemented : UInt32 := 0xC0000002
def statusNoSuchFile : UInt32 := 0xC000000F
def statusAccessDenied : UInt32 := 0xC0000022
def statusObjectNameNotFound : UInt32 := 0xC0000034
def statusObjectNameCollision : UInt32 := 0xC0000035

def backslash : UInt8 := 0x5C

inductive Errno where
  | enoent
  | eio
  | ebadf
  | eagain
  | enomem
  | eacces
  | eexist
  | exdev
  | enotdir
  | eisdir
  | einval
  | enosys
  | enametoolong
  deriving DecidableEq

/-- `fd_status_to_errno`, for a status other than success. -/
def statusToErrno (status : UInt32) : Errno :=
  if status = statusNoSuchFile ∨ status = statusObjectNameNotFound then .enoent
  else if status = statusObjectNameCollision then .eexist
  else if status = statusAccessDenied then .eacces
  else .eio

inductive FsOp where
  | fsOpen
  | fsRead
  | fsWrite
  | fsClose
  | fsList
  | fsQueryInfo
  | fsSetInfo
  deriving DecidableEq

inductive Disposition where
  | unset
  | fileOpen
  | fileCreate
  deriving DecidableEq

inductive InfoClass where
  | unset
  | fileBasicInformation
  | fileStandardInformation
  | fileRenameInformation
  | fileDispositionInformation
  | fileEndOfFileInformation
  deriving DecidableEq

/-- `struct rdp_be_fs_req` and its payload. -/
structure FsReq where
  reqId : ReqId
  op : FsOp
  deviceId : DeviceId
  fileId : FileId := 0
  desiredAccess : Access := 0
  disposition : Disposition := .unset
  options : UInt32 := 0
  infoClass : InfoClass := .unset
  length : Nat := 0
  offset : Nat := 0
  payload : Bytes := []
  deriving DecidableEq

/-- A message on the record, with the label of the drive its node stood under and
the kernel request it was sent for. Neither is on the wire. -/
structure Sent where
  req : FsReq
  drive : Option Name
  behalf : Option Unique
  deriving DecidableEq

/-- `struct rdp_be_fs_rsp` and its payload. -/
structure FsRsp where
  reqId : ReqId
  status : UInt32
  fileId : FileId := 0
  length : Nat := 0
  payload : Bytes := []
  deriving DecidableEq

/-- `struct fd_attr`. -/
structure Attr where
  ino : NodeId
  mode : UInt32
  nlink : Nat
  size : Nat
  atime : Nat := 0
  mtime : Nat := 0
  ctime : Nat := 0
  deriving DecidableEq

/-- `struct fd_dirent`. -/
structure Dirent where
  ino : NodeId
  name : Name
  isDir : Bool
  deriving DecidableEq

inductive Body where
  | error (errno : Errno)
  | attr (attr : Attr)
  | entry (nodeid : NodeId) (attr : Attr)
  | opened (fh : NodeId) (directIo : Bool)
  | created (nodeid fh : NodeId) (attr : Attr)
  | data (data : Bytes)
  | written (count : Nat)
  | dirents (ents : List Dirent) (firstOff maxbytes : Nat)
  | ok
  deriving DecidableEq

def Body.lists : Body → Bool
  | .dirents .. => true
  | _ => false

structure Reply where
  unique : Unique
  body : Body
  deriving DecidableEq

/-- `enum fd_op`. -/
inductive FdOp where
  | opNone
  | opInit
  | opDestroy
  | opLookup
  | opGetattr
  | opSetattr
  | opOpen
  | opRead
  | opWrite
  | opRelease
  | opOpendir
  | opReaddir
  | opReleasedir
  | opCreate
  | opMknod
  | opMkdir
  | opUnlink
  | opRmdir
  | opRename
  | opFlush
  | opForget
  deriving DecidableEq

/-- `struct fd_request`, as far as the drive core reads it. -/
structure FdRequest where
  op : FdOp
  unique : Unique
  nodeid : NodeId
  offset : Nat := 0
  size : Nat := 0
  flags : UInt32 := 0
  fattrValid : UInt32 := 0
  name : Name := []
  name2 : Name := []
  data : Bytes := []
  setSize : Nat := 0
  setAtime : Nat := 0
  setAtimensec : Nat := 0
  setMtime : Nat := 0
  setMtimensec : Nat := 0
  newdir : NodeId := 0
  nlookup : Nat := 0
  deriving DecidableEq

/-- `struct fd_node` of a slot that is in use. -/
structure Node where
  nodeid : NodeId := 0
  parent : NodeId := 0
  deviceId : DeviceId := 0
  isDrive : Bool := false
  isDir : Bool := false
  fileId : FileId := 0
  haveOpen : Bool := false
  openRefs : Nat := 0
  access : Access := 0
  nlookup : Nat := 0
  name : Name := []
  deriving DecidableEq

/-- `struct fd_attr_acc`. -/
structure AttrAcc where
  size : Nat := 0
  mtime : Nat := 0
  atime : Nat := 0
  ctime : Nat := 0
  isDir : Bool := false
  readonly : Bool := false
  deriving DecidableEq

/-- `struct fd_time_set`. -/
structure TimeSet where
  setAtime : Bool := false
  setMtime : Bool := false
  atimeFt : Nat := 0
  mtimeFt : Nat := 0
  deriving DecidableEq

/-- What an operation in flight is for: a wire operation, or one of the private
tags above them. -/
inductive Tag where
  | fsOpen
  | fsRead
  | fsWrite
  | fsClose
  | fsList
  | fsQueryInfo
  | fsSetInfo
  | opendirTag
  | openfileTag
  | getattrTag
  | setattrTag
  | createTag
  | mknodTag
  | mkdirTag
  | unlinkTag
  | renameTag
  deriving DecidableEq

/-- `enum fd_phase`. -/
inductive Phase where
  | phaseNone
  | getattrStd
  | getattrBasic
  | getattrOpen
  | setattrEofThenTime
  | unlinkOpen
  | unlinkSetdisp
  | renameOpen
  | renameSet
  deriving DecidableEq

/-- `struct fd_inflight` of a slot that is in use. -/
structure Inflight where
  reqId : ReqId := 0
  fuseUnique : Unique := 0
  op : Tag
  nodeid : NodeId
  readSize : Nat := 0
  reqAccess : Access := 0
  replyOp : FdOp := .opNone
  phase : Phase := .phaseNone
  acc : AttrAcc := {}
  listOff : Nat := 0
  dircache : Nat := 0
  timeSet : TimeSet := {}
  target : Name := []
  targetParent : NodeId := 0
  deriving DecidableEq

/-- `struct fd_dircache` of a slot that is in use. -/
structure Dircache where
  filling : Bool
  nodeid : NodeId
  stamp : Nat
  ents : List Dirent := []
  deriving DecidableEq

def Dircache.namesLen (c : Dircache) : Nat := (c.ents.map fun e => e.name.length).sum

def rootNode : Node := { nodeid := rootId, isDir := true }

/-- `struct fuse_drive`, as `fd_common_init` leaves it. -/
structure FuseDrive where
  nextReqId : ReqId := 1
  nextNodeid : NodeId := rootId + 1
  nodes : Slots Node := (Slots.empty maxNodes).put 0 rootNode
  inflight : Slots Inflight := Slots.empty inflightMax
  dircache : Slots Dircache := Slots.empty dircacheSlots
  dircacheClock : Nat := 0
  /-- Whether the READDIR offsets of the kernel are indexes of entries. -/
  indexOffsets : Bool := true
  /-- Whether the session's socket takes an FS_REQ. -/
  sendOk : Bool := true
  sent : List Sent := []
  replies : List Reply := []
  deriving DecidableEq

namespace FuseDrive

variable (fd : FuseDrive)

def nodeAt (n : NodeRef) : Node := (fd.nodes.entry n).getD {}

def updateNode (n : NodeRef) (change : Node → Node) : FuseDrive :=
  match fd.nodes.entry n with
  | none => fd
  | some node => { fd with nodes := fd.nodes.put n (change node) }

/-- `n->in_use = 0`. -/
def freeNode (n : NodeRef) : FuseDrive := { fd with nodes := fd.nodes.clear n }

def nodeFind (nodeid : NodeId) : Option NodeRef :=
  fd.nodes.find fun n => n.nodeid == nodeid

def cString (octets : Bytes) : Name := octets.takeWhile (· != 0)

def childFind (parent : NodeId) (name : Name) : Option NodeRef :=
  if name.length > nameMax then none
  else fd.nodes.find fun n => n.parent == parent && n.name == name

def nodeAlloc (node : Node) : Option (NodeRef × FuseDrive) :=
  fd.nodes.free.map fun n =>
    (n, { fd with nodes := fd.nodes.put n { node with nodeid := fd.nextNodeid }
                  nextNodeid := fd.nextNodeid + 1 })

/-- `fd_child_make`: a child that exists is taken as it is. -/
def childMake (parent : NodeId) (name : Name) (deviceId : DeviceId) (isDir : Bool) :
    Option (NodeRef × FuseDrive) :=
  if name.length > nameMax then none
  else match fd.childFind parent name with
    | some n => some (n, fd)
    | none => fd.nodeAlloc { parent, deviceId, isDir, name := cString name }

/-- The names from below the drive root down to a node; `none` if an ancestor is
gone or the chain does not end within `fuel` nodes. -/
def pathParts : Nat → NodeRef → Option (List Name)
  | fuel, n =>
    let node := fd.nodeAt n
    if node.isDrive ∨ node.nodeid = rootId then some []
    else match fuel with
      | 0 => none
      | fuel + 1 =>
        match fd.nodeFind node.parent with
        | none => none
        | some above => (pathParts fuel above).map fun parts => parts ++ [node.name]

/-- `fd_node_path` into a buffer of `cap` bytes. -/
def nodePath (n : NodeRef) (cap : Nat) : Option Name :=
  match fd.pathParts maxNodes n with
  | none => none
  | some [] => if cap < 2 then none else some [backslash]
  | some parts =>
    let path := parts.flatMap fun part => backslash :: part
    if path.length + 1 > cap then none else some path

def driveLabel : Nat → NodeRef → Option Name
  | fuel, n =>
    let node := fd.nodeAt n
    if node.isDrive then some node.name
    else match fuel with
      | 0 => none
      | fuel + 1 => (fd.nodeFind node.parent).bind (driveLabel fuel)

def inflightFind (reqId : ReqId) : Option (SlotRef × Inflight) :=
  fd.inflight.lookup fun f => f.reqId == reqId

def updateSlot (f : SlotRef) (change : Inflight → Inflight) : FuseDrive :=
  match fd.inflight.entry f with
  | none => fd
  | some slot => { fd with inflight := fd.inflight.put f (change slot) }

/-- `fd_inflight_alloc`, with the fields that the sender fills in next. -/
def inflightAlloc (slot : Inflight) : Option (SlotRef × FuseDrive) :=
  fd.inflight.free.map fun f =>
    (f, { fd with inflight := fd.inflight.put f { slot with reqId := fd.nextReqId }
                  nextReqId := fd.nextReqId + 1 })

def reply (unique : Unique) (body : Body) : FuseDrive :=
  { fd with replies := fd.replies ++ [{ unique, body }] }

def sIfdir : UInt32 := 0x4000
def sIfreg : UInt32 := 0x8000

/-- `fd_node_to_attr`; without an accumulator the size and the times are zero. -/
def nodeToAttr (n : Node) (acc : Option AttrAcc) : Attr :=
  let isDir := (acc.map (·.isDir)).getD n.isDir
  let size := (acc.map (·.size)).getD 0
  let times := acc.getD {}
  let readonly := (acc.map (·.readonly)).getD false
  { ino := n.nodeid
    mode := if isDir then sIfdir ||| (if n.nodeid = rootId then 0o500 else 0o700)
            else sIfreg ||| (if readonly then 0o400 else 0o600)
    nlink := if isDir then 2 else 1
    size
    atime := times.atime, mtime := times.mtime, ctime := times.ctime }

def replyError (unique : Unique) (errno : Errno) : FuseDrive := fd.reply unique (.error errno)

def replyAttrAcc (unique : Unique) (n : NodeRef) (acc : AttrAcc) : FuseDrive :=
  fd.reply unique (.attr (nodeToAttr (fd.nodeAt n) (some acc)))

def replyAttr (unique : Unique) (n : NodeRef) : FuseDrive :=
  fd.reply unique (.attr (nodeToAttr (fd.nodeAt n) none))

def replyEntryAcc (unique : Unique) (n : NodeRef) (acc : AttrAcc) : FuseDrive :=
  fd.reply unique (.entry (fd.nodeAt n).nodeid (nodeToAttr (fd.nodeAt n) (some acc)))

def replyEntry (unique : Unique) (n : NodeRef) : FuseDrive :=
  fd.reply unique (.entry (fd.nodeAt n).nodeid (nodeToAttr (fd.nodeAt n) none))

def replyCreate (unique : Unique) (n : NodeRef) : FuseDrive :=
  let id := (fd.nodeAt n).nodeid
  fd.reply unique (.created id id (nodeToAttr (fd.nodeAt n) none))

end FuseDrive

def Node.closed (node : Node) : Node := { node with haveOpen := false, fileId := 0, access := 0 }

/-- What a sender leaves behind: the drive, and the slot that waits for the answer
if the message went out. -/
structure Sending where
  drive : FuseDrive
  slot : Option SlotRef := none

namespace Sending

def tag (sending : Sending) (change : Inflight → Inflight) : Sending :=
  match sending.slot with
  | none => sending
  | some f => { sending with drive := sending.drive.updateSlot f change }

def orElse (sending : Sending) (failed : FuseDrive → FuseDrive) : FuseDrive :=
  match sending.slot with
  | none => failed sending.drive
  | some _ => sending.drive

end Sending

namespace FuseDrive

variable (fd : FuseDrive)

/-- `fd->send_fs_req`. -/
def sendFsReq (n : NodeRef) (behalf : Option Unique) (req : FsReq) : FuseDrive :=
  if fd.sendOk then
    { fd with sent := fd.sent ++ [{ req, drive := fd.driveLabel maxNodes n, behalf }] }
  else fd

/-- Take a slot and send a request under its id. The slot is in use even if the
message could not be sent. -/
def issue (n : NodeRef) (slot : Inflight) (req : FsReq) : Sending :=
  match fd.inflightAlloc slot with
  | none => { drive := fd }
  | some (f, after) =>
    { drive := after.sendFsReq n (some slot.fuseUnique) { req with reqId := fd.nextReqId }
      slot := if fd.sendOk then some f else none }

def sendOpenFull (n : NodeRef) (unique : Unique) (opTag : Tag) (desiredAccess : Access)
    (disposition : Disposition) (options : UInt32) : Sending :=
  match fd.nodePath n pathCap with
  | none => { drive := fd }
  | some path =>
    fd.issue n
      { fuseUnique := unique, op := opTag, nodeid := (fd.nodeAt n).nodeid
        reqAccess := desiredAccess }
      { reqId := 0, op := .fsOpen, deviceId := (fd.nodeAt n).deviceId
        desiredAccess, disposition, options, payload := path }

def sendOpenEx (n : NodeRef) (unique : Unique) (opTag : Tag) (desiredAccess : Access) :
    Sending :=
  fd.sendOpenFull n unique opTag desiredAccess .fileOpen 0

def sendOpen (n : NodeRef) (unique : Unique) (opTag : Tag) : Sending :=
  fd.sendOpenEx n unique opTag 0

def sendQuery (n : NodeRef) (unique : Unique) (infoClass : InfoClass) (phase : Phase)
    (acc : AttrAcc) (replyOp : FdOp) : Sending :=
  if (fd.nodeAt n).haveOpen then
    fd.issue n
      { fuseUnique := unique, op := .fsQueryInfo, nodeid := (fd.nodeAt n).nodeid
        phase, replyOp, acc }
      { reqId := 0, op := .fsQueryInfo, deviceId := (fd.nodeAt n).deviceId
        fileId := (fd.nodeAt n).fileId, infoClass }
  else { drive := fd }

def sendSetInfo (n : NodeRef) (unique : Unique) (infoClass : InfoClass) (opTag : Tag)
    (buf : Bytes) : Sending :=
  if (fd.nodeAt n).haveOpen then
    fd.issue n
      { fuseUnique := unique, op := opTag, nodeid := (fd.nodeAt n).nodeid }
      { reqId := 0, op := .fsSetInfo, deviceId := (fd.nodeAt n).deviceId
        fileId := (fd.nodeAt n).fileId, infoClass, payload := buf }
  else { drive := fd }

/-- `fd_send_read`: its caller has seen the handle. -/
def sendRead (n : NodeRef) (unique : Unique) (offset size : Nat) : Sending :=
  fd.issue n
    { fuseUnique := unique, op := .fsRead, nodeid := (fd.nodeAt n).nodeid, readSize := size }
    { reqId := 0, op := .fsRead, deviceId := (fd.nodeAt n).deviceId
      fileId := (fd.nodeAt n).fileId, length := size, offset }

def sendWrite (n : NodeRef) (unique : Unique) (offset : Nat) (data : Bytes) :
    Sending :=
  if (fd.nodeAt n).haveOpen then
    fd.issue n
      { fuseUnique := unique, op := .fsWrite, nodeid := (fd.nodeAt n).nodeid
        readSize := data.length }
      { reqId := 0, op := .fsWrite, deviceId := (fd.nodeAt n).deviceId
        fileId := (fd.nodeAt n).fileId, length := data.length, offset, payload := data }
  else { drive := fd }

/-- The search path of a listing: the directory's path, a separator and a star. -/
def listPattern (path : Name) : Name :=
  (if path.getLast? = some backslash then path else path ++ [backslash]) ++ [0x2A]

/-- `fd_send_list`. It takes the file id of the node whether or not there is an
open handle behind it. -/
def sendList (n : NodeRef) (unique : Unique) (cont : Bool) (listOff size slot : Nat) :
    Sending :=
  match fd.nodePath n (pathCap - 2) with
  | none => { drive := fd }
  | some path =>
    fd.issue n
      { fuseUnique := unique, op := .fsList, nodeid := (fd.nodeAt n).nodeid
        listOff, readSize := size, dircache := slot }
      { reqId := 0, op := .fsList, deviceId := (fd.nodeAt n).deviceId
        fileId := (fd.nodeAt n).fileId, options := if cont then fsListContinue else 0
        payload := listPattern path }

def closeSlot (nodeid : NodeId) : Inflight := { op := .fsClose, nodeid }

def closeReq (node : Node) (reqId : ReqId) : FsReq :=
  { reqId, op := .fsClose, deviceId := node.deviceId, fileId := node.fileId }

/-- `fd_send_close`. Without a free slot the message goes out all the same, under
an id that no slot waits for. -/
def sendClose (n : NodeRef) : FuseDrive :=
  if (fd.nodeAt n).haveOpen then
    let after :=
      match fd.inflightAlloc (closeSlot (fd.nodeAt n).nodeid) with
      | some (_, after) => after
      | none => { fd with nextReqId := fd.nextReqId + 1 }
    (after.sendFsReq n none (closeReq (fd.nodeAt n) fd.nextReqId)).updateNode n Node.closed
  else fd

end FuseDrive

end RdpServer.Session
