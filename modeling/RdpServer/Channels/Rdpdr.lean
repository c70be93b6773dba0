import Mathlib.Data.List.Nodup
import RdpServer.Lib.Bytes
import RdpServer.Lib.Runs
import RdpServer.Lib.Slots
import RdpServer.Lib.Units

/-!
# The device redirection channel

`rdpdr.c`: the requests that are built for a device of the client (IRPs), the
table of those that wait for their completion, and the devices that the client
announces. Each of them is answered with success, as long as the answers fit their buffer,
whether it is in the table after it or not (`replies_truthful_iff`).
-/

namespace RdpServer.Channels

open Bytes List

abbrev DeviceId : Type := UInt32
abbrev CompletionId : Type := UInt32

inductive Major where
  | create
  | close
  | read
  | write
  | queryInformation
  | setInformation
  | directoryControl
  deriving DecidableEq

def Major.code : Major → Nat
  | create => 0
  | close => 2
  | read => 3
  | write => 4
  | queryInformation => 5
  | setInformation => 6
  | directoryControl => 0x0C

/-- `struct rdpdr_pending`. -/
structure Pending where
  completionId : CompletionId
  deviceId : DeviceId
  major : Major
  beReqId : UInt32 := 0
  deriving DecidableEq

def maxPending : Nat := 64
def maxDevices : Nat := 32

def dtypPrint : Nat := 4
def dtypFilesystem : Nat := 8

/-- `struct rdpdr_device`. -/
structure Device where
  deviceType : Nat
  deviceId : DeviceId
  name : Bytes
  announced : Bool := false
  deriving DecidableEq

/-- `struct rdpdr_state`. -/
structure Rdpdr where
  devices : List Device := []
  nextCompletionId : CompletionId := 0
  pending : Slots Pending := Slots.empty maxPending
  deriving DecidableEq

namespace Rdpdr

variable (st : Rdpdr)

def allocPending (deviceId : DeviceId) (major : Major) : Option (CompletionId × Rdpdr) :=
  st.pending.free.map fun slot =>
    (st.nextCompletionId,
      { st with
        pending := st.pending.put slot { completionId := st.nextCompletionId, deviceId, major }
        nextCompletionId := st.nextCompletionId + 1 })

def irpHdrSize : Nat := 24

/-- `put_irp_header`. -/
def irpHeader (deviceId fileId : UInt32) (cid : CompletionId) (major : Major) (minor : Nat) :
    Bytes :=
  leBytes 2 0x4472 ++ leBytes 2 0x4952 ++ leBytes 4 deviceId.toNat ++ leBytes 4 fileId.toNat ++
    leBytes 4 cid.toNat ++ leBytes 4 major.code ++ leBytes 4 minor

/-- A request that was built: the state with its pending entry, its completion id
and its bytes. -/
structure Built where
  rdpdr : Rdpdr
  cid : CompletionId
  irp : Bytes

/-- What the builders of requests share: room in the buffer, a pending entry, the
header and the body. -/
def buildIrp (cap : Nat) (deviceId fileId : UInt32) (major : Major) (minor : Nat)
    (body : Bytes) : Option Built :=
  if cap < irpHdrSize + body.length then none
  else (st.allocPending deviceId major).map fun (cid, rdpdr) =>
    { rdpdr, cid, irp := irpHeader deviceId fileId cid major minor ++ body }

def reserved (slot : Nat) (deviceId : DeviceId) (major : Major) : Rdpdr :=
  { st with
    pending := st.pending.put slot { completionId := st.nextCompletionId, deviceId, major }
    nextCompletionId := st.nextCompletionId + 1 }

theorem buildIrp_of_free {st : Rdpdr} {cap slot : Nat} {body : Bytes}
    (room : irpHdrSize + body.length ≤ cap) (free : st.pending.free = some slot)
    (deviceId fileId : UInt32) (major : Major) (minor : Nat) :
    st.buildIrp cap deviceId fileId major minor body =
      some { rdpdr := st.reserved slot deviceId major, cid := st.nextCompletionId
             irp := irpHeader deviceId fileId st.nextCompletionId major minor ++ body } := by
  rw [buildIrp, if_neg (Nat.not_lt.2 room), allocPending, free]
  rfl

def widePath (path : Bytes) : Bytes := Units.wide path ++ [0, 0]

def zeros (count : Nat) : Bytes := List.replicate count 0

/-- `rdp_rdpdr_build_irp_create`. The file id of the header is 0. -/
def buildIrpCreate (cap : Nat) (deviceId : DeviceId) (path : Bytes)
    (desiredAccess disposition options : Nat) : Option Built :=
  st.buildIrp cap deviceId 0 .create 0
    (leBytes 4 desiredAccess ++ zeros 8 ++ zeros 4 ++ leBytes 4 7 ++ leBytes 4 disposition ++
      leBytes 4 options ++ leBytes 4 ((path.length + 1) * 2) ++ widePath path)

def buildIrpRead (cap : Nat) (deviceId : DeviceId) (fileId : UInt32) (length offset : Nat) :
    Option Built :=
  st.buildIrp cap deviceId fileId .read 0 (leBytes 4 length ++ leBytes 8 offset ++ zeros 20)

def buildIrpClose (cap : Nat) (deviceId : DeviceId) (fileId : UInt32) : Option Built :=
  st.buildIrp cap deviceId fileId .close 0 (zeros 32)

/-- `rdp_rdpdr_build_irp_query_dir`, for FileBothDirectoryInformation. -/
def buildIrpQueryDir (cap : Nat) (deviceId : DeviceId) (fileId : UInt32) (pattern : Bytes)
    (initial : Bool) : Option Built :=
  st.buildIrp cap deviceId fileId .directoryControl 1
    (leBytes 4 3 ++ [if initial then 1 else 0] ++ leBytes 4 ((pattern.length + 1) * 2) ++
      zeros 23 ++ widePath pattern)

def buildIrpWrite (cap : Nat) (deviceId : DeviceId) (fileId : UInt32) (offset : Nat)
    (data : Bytes) : Option Built :=
  if data.length > 0xFFFFFFFF then none
  else st.buildIrp cap deviceId fileId .write 0
    (leBytes 4 data.length ++ leBytes 8 offset ++ zeros 20 ++ data)

def buildIrpQueryInfo (cap : Nat) (deviceId : DeviceId) (fileId : UInt32) (infoClass : Nat) :
    Option Built :=
  st.buildIrp cap deviceId fileId .queryInformation 0 (leBytes 4 infoClass ++ zeros 28)

def buildIrpSetInfo (cap : Nat) (deviceId : DeviceId) (fileId : UInt32) (infoClass : Nat)
    (buf : Bytes) : Option Built :=
  if buf.length > 0xFFFFFFFF then none
  else st.buildIrp cap deviceId fileId .setInformation 0
    (leBytes 4 infoClass ++ leBytes 4 buf.length ++ zeros 24 ++ buf)

/-- `struct rdpdr_completion`. -/
structure Completion where
  completionId : CompletionId
  deviceId : DeviceId
  major : Major
  ioStatus : UInt32
  beReqId : UInt32
  data : Bytes
  deriving DecidableEq

def ld16 (octets : Bytes) (offset : Nat) : Nat := leValue ((octets.drop offset).take 2)

def ld32 (octets : Bytes) (offset : Nat) : Nat := leValue ((octets.drop offset).take 4)

/-- A completion goes to the request that waits for its id, and names the device
that this request was for. -/
def handleIoCompletion (pdu : Bytes) : Option (Completion × Rdpdr) :=
  if pdu.length < 16 then none
  else
    let cid := UInt32.ofNat (ld32 pdu 8)
    (st.pending.lookup fun p => p.completionId == cid).map fun (slot, p) =>
      ({ completionId := cid, deviceId := p.deviceId, major := p.major
         ioStatus := UInt32.ofNat (ld32 pdu 12), beReqId := p.beReqId, data := pdu.drop 16 },
        { st with pending := st.pending.clear slot })

/-- The loop over a device list of `count` entries. A device id that is known is
skipped. -/
def deviceEntries : Nat → Bytes → List Device → List Device
  | 0, _, devices => devices
  | count + 1, body, devices =>
    if body.length < 20 then devices
    else if ld32 body 16 > body.length - 20 then devices
    else
      let device : Device :=
        { deviceType := ld32 body 0, deviceId := UInt32.ofNat (ld32 body 4)
          name := (body.drop 8).take 8 }
      let devices :=
        if (devices.any fun known => known.deviceId == device.deviceId) ∨
            devices.length ≥ maxDevices then devices
        else devices ++ [device]
      deviceEntries count (body.drop (20 + ld32 body 16)) devices

/-- `handle_device_list`. -/
def handleDeviceList (body : Bytes) : Rdpdr :=
  if body.length < 4 then st
  else { st with devices := deviceEntries (ld32 body 0) (body.drop 4) st.devices }

/-- `rdp_rdpdr_handle`, as far as it changes the state: a completion that a request
waited for, or a device list. The packets of the handshake are answered only. -/
def handle (pdu : Bytes) : Option Completion × Rdpdr :=
  if pdu.length < 4 ∨ ld16 pdu 0 ≠ 0x4472 then (none, st)
  else if ld16 pdu 2 = 0x4441 then (none, st.handleDeviceList (pdu.drop 4))
  else if ld16 pdu 2 = 0x4943 then
    match st.handleIoCompletion pdu with
    | none => (none, st)
    | some (completion, st) => (some completion, st)
  else (none, st)

def createPath (irp : Bytes) : List UInt16 :=
  (Units.decode ((irp.drop 56).take (ld32 irp 52))).takeWhile (· != 0)

@[simp] theorem length_irpHeader (deviceId fileId : UInt32) (cid : CompletionId) (major : Major)
    (minor : Nat) : (irpHeader deviceId fileId cid major minor).length = 24 := by
  simp [irpHeader]

theorem createPath_append {before path : Bytes} (room : before.length = 52)
    (short : (path.length + 1) * 2 < 256 ^ 4) (terminated : 0 ∉ path) :
    createPath (before ++ leBytes 4 ((path.length + 1) * 2) ++ widePath path) =
      path.map Units.widen := by
  have length : (widePath path).length = (path.length + 1) * 2 := by
    rw [widePath, length_append, Units.length_wide]
    simp only [length_cons, length_nil]
    omega
  have declared : ld32 (before ++ leBytes 4 ((path.length + 1) * 2) ++ widePath path) 52 =
      (path.length + 1) * 2 := by
    rw [ld32, append_assoc, leValue_field room _ short]
  have field : (before ++ leBytes 4 ((path.length + 1) * 2) ++ widePath path).drop 56 =
      widePath path := by
    refine drop_left' ?_
    rw [length_append, length_leBytes, room]
  have kept : ∀ unit ∈ path.map Units.widen, (unit != 0) = true := by
    intro unit member
    obtain ⟨octet, inside, rfl⟩ := mem_map.1 member
    rw [bne_iff_ne]
    intro zero
    have same : octet = 0 := Units.widen_injective zero
    exact terminated (same ▸ inside)
  rw [createPath, declared, field, ← length, take_length, widePath, Units.decode_wide,
    takeWhile_append_of_pos kept]
  exact append_nil _

end Rdpdr

end RdpServer.Channels

namespace RdpServer.Channels.Rdpdr

open Bytes List

/-- The entries of a device list that lie completely inside it. -/
def entries : Nat → Bytes → List Device
  | 0, _ => []
  | count + 1, body =>
    if body.length < 20 then []
    else if ld32 body 16 > body.length - 20 then []
    else
      { deviceType := ld32 body 0, deviceId := UInt32.ofNat (ld32 body 4)
        name := (body.drop 8).take 8 } :: entries count (body.drop (20 + ld32 body 16))

def addDevice (devices : List Device) (device : Device) : List Device :=
  if (devices.any fun known => known.deviceId == device.deviceId) ∨
      devices.length ≥ maxDevices then devices
  else devices ++ [device]

/-- `rdp_rdpdr_build_device_reply`. -/
def deviceReply (deviceId : DeviceId) (status : Nat) : Bytes :=
  leBytes 2 0x4472 ++ leBytes 2 0x6472 ++ leBytes 4 deviceId.toNat ++ leBytes 4 status

/-- The size of the response buffer of the worker. -/
def respCap : Nat := 4096

/-- An entry is answered if the answer fits behind the others, of 12 bytes each. -/
def reply (replies : List Bytes) (device : Device) : List Bytes :=
  if 12 * replies.length + 12 ≤ respCap then replies ++ [deviceReply device.deviceId 0]
  else replies

def listEntries (body : Bytes) : List Device :=
  if body.length < 4 then [] else entries (ld32 body 0) (body.drop 4)

/-- The answers of `handle_device_list`, which the worker sends one by one. -/
def deviceReplies (body : Bytes) : List Bytes := (listEntries body).foldl reply []

theorem deviceEntries_eq (count : Nat) (body : Bytes) (devices : List Device) :
    deviceEntries count body devices = (entries count body).foldl addDevice devices := by
  induction count generalizing body devices with
  | zero => rfl
  | succ count ih =>
    unfold deviceEntries entries
    split_ifs
    · rfl
    · rfl
    · exact ih _ _

theorem devices_handleDeviceList (st : Rdpdr) (body : Bytes) :
    (st.handleDeviceList body).devices = (listEntries body).foldl addDevice st.devices := by
  unfold handleDeviceList listEntries
  split_ifs
  · rfl
  · exact deviceEntries_eq _ _ _

theorem foldl_reply (devices : List Device) (replies : List Bytes) :
    devices.foldl reply replies =
      replies ++ (devices.take (341 - replies.length)).map (deviceReply ·.deviceId 0) := by
  induction devices generalizing replies with
  | nil => simp
  | cons device devices ih =>
    rw [foldl_cons, ih, reply, respCap]
    split_ifs with fits
    · obtain ⟨room, same⟩ : ∃ room, 341 - replies.length = room + 1 :=
        ⟨340 - replies.length, by omega⟩
      have left : 341 - (replies ++ [deviceReply device.deviceId 0]).length = room := by
        rw [length_append, length_singleton]
        omega
      rw [left, same, take_succ_cons, map_cons, append_assoc, singleton_append]
    · have full : 341 - replies.length = 0 := by omega
      simp [full]

/-- The device is in the table with its type. -/
def Present (devices : List Device) (device : Device) : Prop :=
  ∃ known ∈ devices, known.deviceId = device.deviceId ∧ known.deviceType = device.deviceType

/-- Each entry has one answer with its id, which is a success exactly if the device is in
the table after the announcement. -/
def Truthful (st : Rdpdr) (body : Bytes) : Prop :=
  (deviceReplies body).length = (listEntries body).length ∧
  ∀ (i : Nat) (device : Device), (listEntries body)[i]? = some device →
    ∃ status < 2 ^ 32, (deviceReplies body)[i]? = some (deviceReply device.deviceId status) ∧
      (status = 0 ↔ Present (st.handleDeviceList body).devices device)

theorem truthful_iff (st : Rdpdr) (body : Bytes) :
    Truthful st body ↔ (listEntries body).length ≤ 341 ∧
      ∀ device ∈ listEntries body, Present (st.handleDeviceList body).devices device := by
  unfold Truthful deviceReplies
  rw [foldl_reply, nil_append, length_map, length_take, length_nil]
  by_cases few : (listEntries body).length ≤ 341
  · rw [take_of_length_le few]
    simp only [few, min_eq_right, true_and, getElem?_map]
    constructor
    · intro answers device member
      obtain ⟨i, found⟩ := mem_iff_getElem?.1 member
      obtain ⟨status, small, same, told⟩ := answers i device found
      rw [found] at same
      have fields := congrArg leValue ((append_right_inj _).1 (Option.some.inj same))
      rw [leValue_leBytes 4 status small] at fields
      exact told.1 fields.symm
    · intro all i device found
      refine ⟨0, by decide, by rw [found, Option.map_some], iff_of_true rfl ?_⟩
      exact all device (mem_of_getElem? found)
  · exact iff_of_false (fun answers => by omega) fun both => few both.1

/-- The devices of a list that are new to the ids known, each at its first entry. -/
def newDevices (ids : List DeviceId) : List Device → List Device
  | [] => []
  | device :: rest =>
    if device.deviceId ∈ ids then newDevices ids rest
    else device :: newDevices (ids ++ [device.deviceId]) rest

section Table

variable {ids : List DeviceId} {devices : List Device} (listed : List Device)

theorem foldl_addDevice : listed.foldl addDevice devices = devices ++
    (newDevices (devices.map Device.deviceId) listed).take (maxDevices - devices.length) := by
  induction listed generalizing devices with
  | nil => simp [newDevices]
  | cons device rest ih =>
    have known : (devices.any fun known => known.deviceId == device.deviceId) = true ↔
        device.deviceId ∈ devices.map Device.deviceId := by
      simp
    rw [foldl_cons, ih, addDevice, newDevices]
    by_cases old : device.deviceId ∈ devices.map Device.deviceId
    · rw [if_pos (.inl (known.2 old)), if_pos old]
    · rw [if_neg old]
      by_cases full : devices.length ≥ maxDevices
      · rw [if_pos (.inr full), Nat.sub_eq_zero_of_le full, take_zero, take_zero]
      · obtain ⟨room, same⟩ : ∃ room, maxDevices - devices.length = room + 1 :=
          ⟨maxDevices - devices.length - 1, by omega⟩
        have left : maxDevices - (devices ++ [device]).length = room := by
          rw [length_append, length_singleton]
          omega
        rw [if_neg (not_or.2 ⟨mt known.1 old, full⟩), left, same, take_succ_cons, map_append,
          map_singleton, append_assoc, singleton_append]

variable (ids) in
theorem mem_of_newDevices : ∀ device ∈ newDevices ids listed, device ∈ listed := by
  induction listed generalizing ids with
  | nil => exact fun _ member => member
  | cons first rest ih =>
    intro device member
    unfold newDevices at member
    split_ifs at member
    · exact mem_cons_of_mem _ (ih _ device member)
    · exact (mem_cons.1 member).elim (fun same => same ▸ mem_cons_self)
        fun later => mem_cons_of_mem _ (ih _ device later)

/-- The ids known and those of the new devices are distinct, and are all that are listed. -/
theorem newDevices_ids (distinct : ids.Nodup) :
    (ids ++ (newDevices ids listed).map Device.deviceId).Nodup ∧
      ∀ device ∈ listed,
        device.deviceId ∈ ids ++ (newDevices ids listed).map Device.deviceId := by
  induction listed generalizing ids with
  | nil => simpa [newDevices] using distinct
  | cons first rest ih =>
    rw [forall_mem_cons]
    unfold newDevices
    split_ifs with old
    · exact ⟨(ih distinct).1, mem_append_left _ old, (ih distinct).2⟩
    · have next := ih (distinct.concat old)
      rw [concat_eq_append, append_assoc] at next
      exact ⟨next.1, mem_append_right _ mem_cons_self, next.2⟩

/-- **One list**: its devices are all in the table after it exactly if equal ids have equal
types in the table and the list, and the table has room for the new devices. -/
theorem present_iff (distinct : (devices.map Device.deviceId).Nodup) :
    (∀ device ∈ listed, Present (listed.foldl addDevice devices) device) ↔
      (∀ device ∈ listed, ∀ other ∈ devices ++ listed, other.deviceId = device.deviceId →
        other.deviceType = device.deviceType) ∧
      (newDevices (devices.map Device.deviceId) listed).length ≤ maxDevices - devices.length := by
  obtain ⟨nodup, covered⟩ := newDevices_ids listed distinct
  have inside := mem_of_newDevices (devices.map Device.deviceId) listed
  rw [foldl_addDevice]
  generalize newDevices (devices.map Device.deviceId) listed = fresh at *
  generalize maxDevices - devices.length = room
  rw [← map_append] at nodup covered
  constructor
  · intro present
    have kept : ((devices ++ fresh.take room).map Device.deviceId).Nodup :=
      nodup.sublist (((take_sublist _ _).append_left _).map _)
    refine ⟨fun device member other known same => ?_, ?_⟩
    · have there : Present (devices ++ fresh.take room) other :=
        (mem_append.1 known).elim (fun old => ⟨other, mem_append_left _ old, rfl, rfl⟩)
          (present other)
      obtain ⟨first, firstIn, firstId, firstType⟩ := present device member
      obtain ⟨second, secondIn, secondId, secondType⟩ := there
      have one : first = second := inj_on_of_nodup_map kept firstIn secondIn
        (firstId.trans (same.symm.trans secondId.symm))
      rw [← firstType, ← secondType, one]
    · by_contra long
      rw [not_le] at long
      -- the first device that finds no room is not in the table
      have left : fresh[room] ∈ fresh.drop room :=
        mem_drop_iff_getElem.2 ⟨0, by omega, by simp⟩
      obtain ⟨known, member, same, -⟩ := present _ (inside _ (getElem_mem long))
      rw [← take_append_drop room fresh, ← append_assoc, map_append] at nodup
      exact (nodup_append.1 nodup).2.2 _ (mem_map_of_mem member) _ (mem_map_of_mem left) same
  · rintro ⟨agree, short⟩ device member
    rw [take_of_length_le short]
    obtain ⟨known, there, same⟩ := mem_map.1 (covered device member)
    refine ⟨known, there, same, agree device member known ?_ same⟩
    exact mem_append.2 ((mem_append.1 there).imp_right (inside known))

end Table

/-- The answers fit, each id of the list has one type in the table and the list, and the table
has room for the new devices. -/
def Answerable (st : Rdpdr) (body : Bytes) : Prop :=
  (listEntries body).length ≤ 341 ∧
  (∀ device ∈ listEntries body, ∀ other ∈ st.devices ++ listEntries body,
    other.deviceId = device.deviceId → other.deviceType = device.deviceType) ∧
  (newDevices (st.devices.map Device.deviceId) (listEntries body)).length ≤
    maxDevices - st.devices.length

/-- **Announcements are answered truthfully**: in every sequence of device lists, exactly
if each list can be answered so in the table before it. -/
theorem replies_truthful_iff (bodies : List Bytes) :
    Runs.Along handleDeviceList Truthful {} bodies ↔
      Runs.Along handleDeviceList Answerable {} bodies := by
  refine Runs.along_congr (P := fun st => (st.devices.map Device.deviceId).Nodup) ?_ ?_ nodup_nil
  · intro st body distinct
    rw [devices_handleDeviceList, foldl_addDevice]
    have nodup := (newDevices_ids (listEntries body) distinct).1
    rw [← map_append] at nodup
    exact nodup.sublist (((take_sublist _ _).append_left _).map _)
  · intro st body distinct
    rw [truthful_iff, devices_handleDeviceList, present_iff _ distinct]
    exact Iff.rfl

/-- A device list with a printer and a drive of the same id. -/
def twoTypes : Bytes :=
  leBytes 4 2 ++ leBytes 4 dtypPrint ++ leBytes 4 1 ++ List.replicate 12 0 ++
    leBytes 4 dtypFilesystem ++ leBytes 4 1 ++ List.replicate 12 0

/-- Both are answered with success, and the drive is not in the table. -/
theorem duplicate_answered :
    deviceReplies twoTypes = [deviceReply 1 0, deviceReply 1 0] ∧
      (handleDeviceList {} twoTypes).devices =
        [{ deviceType := dtypPrint, deviceId := 1, name := List.replicate 8 0 }] ∧
      ¬ Truthful {} twoTypes := by
  refine ⟨by decide, by decide, fun truthful => ?_⟩
  obtain ⟨known, member, -, type⟩ := ((truthful_iff _ _).1 truthful).2
    { deviceType := dtypFilesystem, deviceId := 1, name := replicate 8 0 } (by decide)
  have only : (handleDeviceList {} twoTypes).devices =
      [{ deviceType := dtypPrint, deviceId := 1, name := replicate 8 0 }] := by decide
  rw [only, mem_singleton] at member
  rw [member] at type
  exact absurd type (by decide)

end RdpServer.Channels.Rdpdr
