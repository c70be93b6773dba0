import RdpServer.Session.Drive.State

/-!
# Requests of the kernel

`dispatch` runs one request of the kernel. A request that the drive can answer
by itself is answered at once; the others send an FS_REQ and leave the answer to
the completion of that message.
-/

namespace RdpServer.Session.FuseDrive

open Bytes

variable (fd : FuseDrive)

/-- The finished listing of a directory that was used last; it is used now. -/
def dircacheFind (nodeid : NodeId) : FuseDrive × Option Dircache :=
  let newest := (List.range dircacheSlots).foldl (fun best i =>
    match fd.dircache.entry i with
    | none => best
    | some c =>
      if !c.filling && c.nodeid == nodeid &&
          (best.all fun (_, (b : Dircache)) => decide (b.stamp < c.stamp)) then some (i, c)
      else best) none
  match newest with
  | none => (fd, none)
  | some (i, c) =>
    let used := { c with stamp := fd.dircacheClock + 1 }
    ({ fd with dircache := fd.dircache.put i used, dircacheClock := fd.dircacheClock + 1 },
      some used)

/-- The slot for a fresh listing: a free one, or the finished one not used for
the longest time. -/
def dircachePick : Option Nat :=
  match fd.dircache.free with
  | some i => some i
  | none =>
    ((List.range dircacheSlots).foldl (fun oldest i =>
      match fd.dircache.entry i with
      | none => oldest
      | some c =>
        if !c.filling && (oldest.all fun (_, (b : Dircache)) => decide (c.stamp < b.stamp)) then
          some (i, c)
        else oldest) none).map Prod.fst

def dircacheClaim (nodeid : NodeId) : Option (Nat × FuseDrive) :=
  fd.dircachePick.map fun i =>
    (i, { fd with
            dircache := fd.dircache.put i
              { filling := true, nodeid, stamp := fd.dircacheClock + 1 }
            dircacheClock := fd.dircacheClock + 1 })

def dircacheRelease (slot : Nat) : FuseDrive := { fd with dircache := fd.dircache.clear slot }

def dircacheDrop (nodeid : NodeId) : FuseDrive :=
  { fd with dircache := fd.dircache.keep fun c => c.filling || c.nodeid != nodeid }

/-- Append an entry; `none` once the listing is at its bounds. -/
def dircacheAdd (c : Dircache) (ent : Dirent) : Option Dircache :=
  if c.ents.length ≥ dirMaxEntries ∨ ent.name.length > dirMaxNames - c.namesLen then none
  else some { c with ents := c.ents ++ [ent] }

/-- `fd_dircache_serve`: the entries from an index on. -/
def dircacheServe (c : Option Dircache) (unique : Unique) (off size : Nat) : FuseDrive :=
  match c with
  | none => fd.reply unique (.dirents [] 0 0)
  | some c =>
    if off ≥ c.ents.length then fd.reply unique (.dirents [] 0 0)
    else fd.reply unique (.dirents (c.ents.drop off) off size)

/-- The root of the mount and the roots of the drives have no path to query. -/
def nodeSynthetic (n : Node) : Bool := n.nodeid == rootId || n.isDrive

def startGetattr (n : NodeRef) (unique : Unique) (replyOp : FdOp) : Sending :=
  let acc : AttrAcc := { isDir := (fd.nodeAt n).isDir }
  if (fd.nodeAt n).haveOpen then
    fd.sendQuery n unique .fileStandardInformation .getattrStd acc replyOp
  else
    (fd.sendOpenEx n unique .getattrTag fileReadData).tag fun slot =>
      { slot with phase := .getattrOpen, replyOp, acc }

def opGetattr (req : FdRequest) : FuseDrive :=
  match fd.nodeFind req.nodeid with
  | none => fd.replyError req.unique .enoent
  | some n =>
    if nodeSynthetic (fd.nodeAt n) then fd.replyAttr req.unique n
    else (fd.startGetattr n req.unique .opGetattr).orElse fun fd => fd.replyAttr req.unique n

def validName (name : Name) : Bool := !name.isEmpty && name.length ≤ nameMax

/-- The lookup of a child below a drive: the child is counted before the client
has said that it exists. -/
def probeChild (child : NodeRef) (unique : Unique) : FuseDrive :=
  let fd := fd.updateNode child fun n => { n with nlookup := n.nlookup + 1 }
  (fd.startGetattr child unique .opLookup).orElse fun fd =>
    let fd := if (fd.nodeAt child).haveOpen then fd
      else fd.updateNode child fun n => { n with nlookup := n.nlookup - 1 }
    fd.replyEntry unique child

def opLookup (req : FdRequest) : FuseDrive :=
  match fd.nodeFind req.nodeid with
  | none => fd.replyError req.unique .enoent
  | some parent =>
    if !(fd.nodeAt parent).isDir then fd.replyError req.unique .enoent
    else if !validName req.name then fd.replyError req.unique .einval
    else if req.nodeid = rootId then
      match fd.childFind rootId req.name with
      | none => fd.replyError req.unique .enoent
      | some child => fd.replyEntry req.unique child
    else
      match fd.childMake (fd.nodeAt parent).nodeid req.name (fd.nodeAt parent).deviceId false with
      | none => fd.replyError req.unique .enomem
      | some (child, fd) => fd.probeChild child req.unique

def opOpendir (req : FdRequest) : FuseDrive :=
  match fd.nodeFind req.nodeid with
  | none => fd.replyError req.unique .enotdir
  | some n =>
    if !(fd.nodeAt n).isDir then fd.replyError req.unique .enotdir
    else if req.nodeid = rootId then fd.reply req.unique (.opened req.nodeid false)
    else if (fd.nodeAt n).haveOpen then
      (fd.updateNode n fun n => { n with openRefs := n.openRefs + 1 }).reply req.unique
        (.opened req.nodeid false)
    else
      (fd.sendOpen n req.unique .opendirTag).orElse fun fd => fd.replyError req.unique .enomem

def driveDirents : List Dirent :=
  (fd.nodes.entries.filter fun d => d.parent == rootId && d.isDrive).map fun d =>
    { ino := d.nodeid, name := d.name, isDir := true }

def opReaddirRoot (req : FdRequest) : FuseDrive :=
  if req.offset ≠ 0 then fd.reply req.unique (.dirents [] 0 0)
  else fd.reply req.unique (.dirents fd.driveDirents 0 req.size)

def startList (n : NodeRef) (req : FdRequest) : FuseDrive :=
  if !(fd.nodeAt n).haveOpen then fd.replyError req.unique .ebadf
  else match fd.dircacheClaim (fd.nodeAt n).nodeid with
    | none => fd.replyError req.unique .eagain
    | some (slot, fd) =>
      (fd.sendList n req.unique false req.offset req.size slot).orElse fun fd =>
        (fd.dircacheRelease slot).replyError req.unique .enomem

def opReaddir (req : FdRequest) : FuseDrive :=
  match fd.nodeFind req.nodeid with
  | none => fd.replyError req.unique .enotdir
  | some n =>
    if !(fd.nodeAt n).isDir then fd.replyError req.unique .enotdir
    else if req.nodeid = rootId then fd.opReaddirRoot req
    else if req.offset = 0 then fd.startList n req
    else if fd.indexOffsets then
      match fd.dircacheFind (fd.nodeAt n).nodeid with
      | (fd, some c) => fd.dircacheServe (some c) req.unique req.offset req.size
      | (fd, none) => fd.startList n req
    else fd.dircacheServe none req.unique req.offset req.size

def accessFromOflags (oflags : UInt32) : Access :=
  if oflags &&& 3 = 1 then fileWriteData
  else if oflags &&& 3 = 2 then fileReadData ||| fileWriteData
  else fileReadData

/-- `fd_op_open`: a handle that does not grant the access is closed, and the file
is opened again with the access of both. -/
def opOpen (req : FdRequest) : FuseDrive :=
  match fd.nodeFind req.nodeid with
  | none => fd.replyError req.unique .enoent
  | some n =>
    let node := fd.nodeAt n
    let want := accessFromOflags req.flags
    if node.isDir then fd.replyError req.unique .eisdir
    else if node.haveOpen ∧ node.access &&& want = want then
      (fd.updateNode n fun n => { n with openRefs := n.openRefs + 1 }).reply req.unique
        (.opened req.nodeid true)
    else
      let (fd, want) := if node.haveOpen then (fd.sendClose n, want ||| node.access)
        else (fd, want)
      (fd.sendOpenEx n req.unique .openfileTag want).orElse fun fd =>
        fd.replyError req.unique .enomem

def opRead (req : FdRequest) : FuseDrive :=
  match fd.nodeFind req.nodeid with
  | none => fd.replyError req.unique .ebadf
  | some n =>
    if (fd.nodeAt n).isDir ∨ ¬ (fd.nodeAt n).haveOpen then fd.replyError req.unique .ebadf
    else
      (fd.sendRead n req.unique req.offset (min req.size maxRead)).orElse fun fd =>
        fd.replyError req.unique .enomem

def opWrite (req : FdRequest) : FuseDrive :=
  match fd.nodeFind req.nodeid with
  | none => fd.replyError req.unique .ebadf
  | some n =>
    if (fd.nodeAt n).isDir ∨ ¬ (fd.nodeAt n).haveOpen then fd.replyError req.unique .ebadf
    else if (fd.nodeAt n).access &&& fileWriteData = 0 then fd.replyError req.unique .ebadf
    else
      (fd.sendWrite n req.unique req.offset (req.data.take maxWrite)).orElse fun fd =>
        fd.replyError req.unique .enomem

def fattrSize : UInt32 := 1
def fattrAtime : UInt32 := 2
def fattrMtime : UInt32 := 4

/-- `fd_unix_to_filetime`, in 64 bits. -/
def unixToFiletime (sec nsec : Nat) : Nat :=
  ((sec + 11644473600) * 10000000 + nsec / 100) % 2 ^ 64

def buildEofInfo (newSize : Nat) : Bytes := leBytes 8 newSize

/-- `fd_build_basic_info`: a time that is not set is left zero. -/
def buildBasicInfo (ts : TimeSet) : Bytes :=
  leBytes 8 0 ++ leBytes 8 (if ts.setAtime then ts.atimeFt else 0) ++
    leBytes 8 (if ts.setMtime then ts.mtimeFt else 0) ++ leBytes 12 0

def resolveTimeSet (req : FdRequest) (acc : AttrAcc) : TimeSet × AttrAcc :=
  let setAtime : Bool := req.fattrValid &&& fattrAtime ≠ 0
  let setMtime : Bool := req.fattrValid &&& fattrMtime ≠ 0
  ({ setAtime, setMtime
     atimeFt := if setAtime then unixToFiletime req.setAtime req.setAtimensec else 0
     mtimeFt := if setMtime then unixToFiletime req.setMtime req.setMtimensec else 0 },
   { acc with
     atime := if setAtime then req.setAtime else acc.atime
     mtime := if setMtime then req.setMtime else acc.mtime })

def sendTimeSet (n : NodeRef) (unique : Unique) (ts : TimeSet) (acc : AttrAcc) :
    Sending :=
  (fd.sendSetInfo n unique .fileBasicInformation .setattrTag (buildBasicInfo ts)).tag
    fun slot => { slot with acc }

/-- A change of the size, and then of the times if they are to be set as well. -/
def setattrSize (n : NodeRef) (req : FdRequest) (acc : AttrAcc) : FuseDrive :=
  let acc := { acc with size := req.setSize }
  let eof := buildEofInfo req.setSize
  if req.fattrValid &&& (fattrAtime ||| fattrMtime) ≠ 0 then
    let (ts, acc) := resolveTimeSet req acc
    ((fd.sendSetInfo n req.unique .fileEndOfFileInformation .setattrTag eof).tag fun slot =>
      { slot with phase := .setattrEofThenTime, acc, timeSet := ts }).orElse fun fd =>
        fd.replyAttrAcc req.unique n acc
  else
    (fd.sendSetInfo n req.unique .fileEndOfFileInformation .setattrTag eof).orElse fun fd =>
      fd.replyAttrAcc req.unique n acc

def setattrTime (n : NodeRef) (req : FdRequest) (acc : AttrAcc) : FuseDrive :=
  let (ts, acc) := resolveTimeSet req acc
  (fd.sendTimeSet n req.unique ts acc).orElse fun fd => fd.replyAttrAcc req.unique n acc

def opSetattr (req : FdRequest) : FuseDrive :=
  match fd.nodeFind req.nodeid with
  | none => fd.replyError req.unique .enoent
  | some n =>
    let acc : AttrAcc := { isDir := (fd.nodeAt n).isDir }
    if !(fd.nodeAt n).haveOpen then
      fd.replyAttrAcc req.unique n
        { acc with size := if req.fattrValid &&& fattrSize ≠ 0 then req.setSize else 0 }
    else if req.fattrValid &&& fattrSize ≠ 0 then fd.setattrSize n req acc
    else if req.fattrValid &&& (fattrAtime ||| fattrMtime) ≠ 0 then fd.setattrTime n req acc
    else
      (fd.startGetattr n req.unique .opSetattr).orElse fun fd => fd.replyAttrAcc req.unique n acc

/-- What CREATE, MKNOD, MKDIR, UNLINK and RMDIR share: the child that the request names on a
drive is found or made, and `next` goes on with it. -/
def onChild (req : FdRequest) (isDir : Bool) (next : NodeRef → FuseDrive → FuseDrive) :
    FuseDrive :=
  match fd.nodeFind req.nodeid with
  | none => fd.replyError req.unique .enoent
  | some parent =>
    let above := fd.nodeAt parent
    if !above.isDir ∨ above.deviceId = 0 then fd.replyError req.unique .enoent
    else if !validName req.name then fd.replyError req.unique .einval
    else match fd.childMake above.nodeid req.name above.deviceId isDir with
      | none => fd.replyError req.unique .enomem
      | some (child, fd) => next child fd

/-- What CREATE, MKNOD and MKDIR share: the child is made and opened as a new
file, and given up again if the message cannot be sent. -/
def makeChild (req : FdRequest) (isDir : Bool) (opTag : Tag) (access : Access)
    (options : UInt32) : FuseDrive :=
  fd.onChild req isDir fun child fd =>
    (fd.sendOpenFull child req.unique opTag access .fileCreate options).orElse fun fd =>
      let fd := if (fd.nodeAt child).haveOpen then fd else fd.freeNode child
      fd.replyError req.unique .enomem

def opCreate (req : FdRequest) : FuseDrive :=
  fd.makeChild req false .createTag (accessFromOflags req.flags ||| fileWriteData)
    fileNonDirectoryFile

def opMknod (req : FdRequest) : FuseDrive :=
  fd.makeChild req false .mknodTag (fileReadData ||| fileWriteData) fileNonDirectoryFile

def opMkdir (req : FdRequest) : FuseDrive :=
  fd.makeChild req true .mkdirTag fileReadData fileDirectoryFile

def deleteOptions (isDir : Bool) : UInt32 :=
  fileDeleteOnClose ||| (if isDir then fileDirectoryFile else fileNonDirectoryFile)

/-- `fd_op_unlink`, which serves RMDIR as well. -/
def opUnlink (req : FdRequest) : FuseDrive :=
  let isDir : Bool := req.op = .opRmdir
  fd.onChild req isDir fun child fd =>
    (((fd.sendClose child).sendOpenFull child req.unique .unlinkTag accessDelete .fileOpen
      (deleteOptions isDir)).tag fun slot => { slot with phase := .unlinkOpen }).orElse
        fun fd => fd.replyError req.unique .enomem

def renameTarget (dstParent : NodeRef) (leaf : Name) : Option Name :=
  match fd.nodePath dstParent pathCap with
  | none => none
  | some path =>
    let path := if path = [backslash] then [] else path
    if path.length + 1 + leaf.length + 1 > pathCap then none
    else some (path ++ backslash :: leaf)

def startRename (src : NodeRef) (req : FdRequest) (target : Name) (dst : NodeId) : FuseDrive :=
  (((fd.sendClose src).sendOpenFull src req.unique .renameTag
    (accessDelete ||| fileWriteData) .fileOpen 0).tag fun slot =>
      { slot with phase := .renameOpen, targetParent := dst, target }).orElse fun fd =>
        fd.replyError req.unique .enomem

def opRename (req : FdRequest) : FuseDrive :=
  match fd.nodeFind req.nodeid with
  | none => fd.replyError req.unique .enoent
  | some srcParent =>
    let above := fd.nodeAt srcParent
    if !above.isDir ∨ above.deviceId = 0 then fd.replyError req.unique .enoent
    else if !validName req.name ∨ !validName req.name2 then fd.replyError req.unique .einval
    else match fd.nodeFind req.newdir with
      | none => fd.replyError req.unique .enoent
      | some dstParent =>
        let below := fd.nodeAt dstParent
        if !below.isDir then fd.replyError req.unique .enoent
        else if below.deviceId ≠ above.deviceId then fd.replyError req.unique .exdev
        else match fd.childMake above.nodeid req.name above.deviceId false with
          | none => fd.replyError req.unique .enomem
          | some (src, fd) =>
            match fd.renameTarget dstParent req.name2 with
            | none => fd.replyError req.unique .enametoolong
            | some target => fd.startRename src req target below.nodeid

/-- `fd_op_release`, for RELEASE and RELEASEDIR: the handle goes with its last use. -/
def opRelease (req : FdRequest) : FuseDrive :=
  match fd.nodeFind req.nodeid with
  | none => fd.reply req.unique .ok
  | some n =>
    let fd := fd.updateNode n fun n => { n with openRefs := n.openRefs - 1 }
    if (fd.nodeAt n).openRefs = 0 then
      ((fd.sendClose n).dircacheDrop (fd.nodeAt n).nodeid).reply req.unique .ok
    else fd.reply req.unique .ok

def forgetNode (nodeid : NodeId) (nlookup : Nat) : FuseDrive :=
  if nodeid = rootId then fd
  else match fd.nodeFind nodeid with
    | none => fd
    | some n =>
      if (fd.nodeAt n).isDrive then fd
      else
        let fd := fd.updateNode n fun n => { n with nlookup := n.nlookup - nlookup }
        if (fd.nodeAt n).nlookup = 0 then (fd.sendClose n).freeNode n else fd

/-- `fd_dispatch`. INIT and FORGET are not answered. -/
def dispatch (req : FdRequest) : FuseDrive :=
  match req.op with
  | .opInit => fd
  | .opGetattr => fd.opGetattr req
  | .opSetattr => fd.opSetattr req
  | .opLookup => fd.opLookup req
  | .opOpendir => fd.opOpendir req
  | .opReaddir => fd.opReaddir req
  | .opOpen => fd.opOpen req
  | .opRead => fd.opRead req
  | .opWrite => fd.opWrite req
  | .opCreate => fd.opCreate req
  | .opMknod => fd.opMknod req
  | .opMkdir => fd.opMkdir req
  | .opUnlink | .opRmdir => fd.opUnlink req
  | .opRename => fd.opRename req
  | .opRelease | .opReleasedir => fd.opRelease req
  | .opFlush => fd.reply req.unique .ok
  | .opForget => fd.forgetNode req.nodeid req.nlookup
  | .opNone | .opDestroy => fd.replyError req.unique .enosys

end RdpServer.Session.FuseDrive
