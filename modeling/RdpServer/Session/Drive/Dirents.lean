import RdpServer.Session.Drive.Names

/-!
# Directory entries on the wire

The entries of a directory as the client sends them: records one behind the other,
each with the offset to the next. Decoding an answer adds exactly its entries to a
listing, apart from the names that every directory has, as long as the listing
stays within its bounds (`decodeDirents_encode`). Which names of an arbitrary answer
are names for the kernel is in `listed_components_iff`.
-/

namespace RdpServer.Session

open Bytes List

structure DirEntry where
  units : List UInt16
  attrs : UInt32 := 0
  /-- The file index, the times and the sizes. -/
  times : Bytes := List.replicate 52 0
  /-- The extended attributes size and the short name. -/
  extra : Bytes := List.replicate 29 0
  /-- What fills up the record. -/
  pad : Bytes := []
  times_length : times.length = 52 := by rfl
  extra_length : extra.length = 29 := by rfl

namespace DirEntry

def size (entry : DirEntry) : Nat := 93 + 2 * entry.units.length + entry.pad.length

def record (entry : DirEntry) (next : Nat) : Bytes :=
  leBytes 4 next ++ entry.times ++ leBytes 4 entry.attrs.toNat ++
    leBytes 4 (2 * entry.units.length) ++ entry.extra ++ Units.encode entry.units ++ entry.pad

def name (entry : DirEntry) : Name := (entry.units.take nameMax).map Units.narrow

def isDir (entry : DirEntry) : Bool := entry.attrs.toNat / 16 % 2 = 1

def isPseudo (entry : DirEntry) : Bool :=
  entry.units.isEmpty || entry.units == [0x2E] || entry.units == [0x2E, 0x2E]

end DirEntry

def encodeEntries : List DirEntry → Bytes
  | [] => []
  | entry :: entries =>
    entry.record (if entries.isEmpty then 0 else entry.size) ++ encodeEntries entries

def listPayload (entries : List DirEntry) : Bytes :=
  leBytes 4 (encodeEntries entries).length ++ encodeEntries entries

/-- What the kernel gets to see of an entry, apart from the number of its node. -/
def Dirent.seen (ent : Dirent) : Name × Bool := (ent.name, ent.isDir)

def emitted (entries : List DirEntry) : List (Name × Bool) :=
  (entries.filter fun entry => !FuseDrive.isDots entry.name).map fun entry =>
    (entry.name, entry.isDir)

namespace FuseDrive

variable {fd : FuseDrive} {entry : DirEntry} {entries : List DirEntry}

@[simp] theorem length_record (entry : DirEntry) (next : Nat) :
    (entry.record next).length = entry.size := by
  simp only [DirEntry.record, DirEntry.size, length_append, length_leBytes,
    Units.length_encode, entry.times_length, entry.extra_length]

theorem record_fields {next : Nat} (rest : Bytes) (small : next < 256 ^ 4)
    (short : entry.size < 256 ^ 4) :
    ld32 (entry.record next ++ rest) 0 = next ∧
      ld32 (entry.record next ++ rest) 56 = entry.attrs.toNat ∧
      Reports (entry.record next ++ rest) entry.units := by
  have attrs : entry.attrs.toNat < 256 ^ 4 := entry.attrs.toNat_lt
  have length : 2 * entry.units.length < 256 ^ 4 := by
    rw [DirEntry.size] at short
    omega
  have times := entry.times_length
  have extra := entry.extra_length
  have first : (leBytes 4 next ++ entry.times).length = 56 := by
    rw [length_append, length_leBytes, times]
  have second : (leBytes 4 next ++ entry.times ++ leBytes 4 entry.attrs.toNat).length = 60 := by
    rw [length_append, first, length_leBytes]
  rw [ld32, ld32, DirEntry.record]
  simp only [append_assoc]
  refine ⟨leValue_field (List.length_nil (α := UInt8)) _ small, ?_, ?_, ?_⟩
  · rw [← append_assoc, leValue_field first _ attrs]
  · rw [ld32, ← append_assoc, ← append_assoc, leValue_field second _ length]
  · rw [← append_assoc, ← append_assoc, ← append_assoc, ← append_assoc, drop_left']
    · exact prefix_append _ _
    · rw [length_append, length_append, second, extra]
      rfl

def addEntry (entry : DirEntry) (ino : NodeId) (cache : Dircache) : Dircache :=
  if isDots entry.name then cache
  else { cache with ents := cache.ents ++ [{ ino, name := entry.name, isDir := entry.isDir }] }

def Room (cache : Dircache) (entries : List DirEntry) : Prop :=
  cache.ents.length + (emitted entries).length ≤ dirMaxEntries ∧
    cache.namesLen + ((emitted entries).map fun seen => seen.1.length).sum ≤ dirMaxNames

theorem emitted_append (first second : List DirEntry) :
    emitted (first ++ second) = emitted first ++ emitted second := by
  rw [emitted, emitted, emitted, ← map_append, ← filter_append]

theorem emitted_cons (entry : DirEntry) (entries : List DirEntry) :
    emitted (entry :: entries) = emitted [entry] ++ emitted entries :=
  emitted_append [entry] entries

theorem emitted_of_dots (dots : isDots entry.name = true) : emitted [entry] = [] := by
  rw [emitted, filter_cons, dots]
  rfl

theorem emitted_of_name (plain : ¬ isDots entry.name = true) :
    emitted [entry] = [(entry.name, entry.isDir)] := by
  rw [emitted, filter_cons, Bool.eq_false_iff.2 plain]
  rfl

theorem addEntry_ents (entry : DirEntry) (ino : NodeId) (cache : Dircache) :
    ∃ added, addEntry entry ino cache = { cache with ents := cache.ents ++ added } ∧
      added.map Dirent.seen = emitted [entry] := by
  unfold addEntry
  split_ifs with dots
  · refine ⟨[], ?_, ?_⟩
    · rw [append_nil]
    · rw [emitted_of_dots dots]
      rfl
  · refine ⟨_, rfl, ?_⟩
    rw [emitted_of_name dots]
    rfl

theorem room_cons {cache : Dircache} (room : Room cache (entry :: entries)) :
    Room cache [entry] ∧ ∀ ino, Room (addEntry entry ino cache) entries := by
  obtain ⟨few, short⟩ := room
  rw [emitted_cons, length_append] at few
  rw [emitted_cons, map_append, sum_append] at short
  refine ⟨⟨by omega, by omega⟩, fun ino => ?_⟩
  obtain ⟨added, adds, same⟩ := addEntry_ents entry ino cache
  have more : (added.map fun e => e.name.length).sum =
      ((emitted [entry]).map fun seen => seen.1.length).sum := by
    rw [← same, map_map]
    rfl
  have count : added.length = (emitted [entry]).length := by
    rw [← same, length_map]
  rw [adds]
  constructor
  · rw [length_append]
    omega
  · rw [Dircache.namesLen, map_append, sum_append, ← Dircache.namesLen]
    omega

theorem decodeOneDirent_record (fd : FuseDrive) (parent : NodeId) (rest : Bytes)
    {next : Nat} {d : Decoded} (small : next < 256 ^ 4) (short : entry.size < 256 ^ 4)
    (room : Room d.cache [entry]) :
    ∃ ino, fd.decodeOneDirent (entry.record next ++ rest) parent d =
      (direntAdvance (entry.record next ++ rest),
        { d with cache := addEntry entry ino d.cache, records := d.records + 1 }) := by
  obtain ⟨_, attrs, reports⟩ := record_fields rest small short
  have long : ¬ (entry.record next ++ rest).length < fdiFixed := by
    rw [length_append, length_record, DirEntry.size, fdiFixed]
    omega
  have inside : ¬ ld32 (entry.record next ++ rest) 60 >
      (entry.record next ++ rest).length - fdiFixed := by
    rw [reports.length, length_append, length_record, DirEntry.size, fdiFixed]
    omega
  have named : direntName (entry.record next ++ rest) = entry.name :=
    direntName_of_reports reports
  refine ⟨((fd.childFind parent entry.name).map fun n => (fd.nodeAt n).nodeid).getD unknownIno, ?_⟩
  rw [decodeOneDirent, named, attrs, addEntry]
  dsimp only
  split_ifs with dots
  · rfl
  · obtain ⟨few, brief⟩ := room
    rw [emitted_of_name dots, length_singleton] at few
    rw [emitted_of_name dots, map_singleton, sum_singleton] at brief
    dsimp only at brief
    have fits : ¬ (d.cache.ents.length ≥ dirMaxEntries ∨
        entry.name.length > dirMaxNames - d.cache.namesLen) := by omega
    rw [dircacheAdd, if_neg fits]
    rfl

theorem direntAdvance_record (entries : List DirEntry) (short : entry.size < 256 ^ 4) :
    direntAdvance (entry.record (if entries.isEmpty then 0 else entry.size) ++
      encodeEntries entries) = entry.size := by
  cases entries with
  | nil =>
    have small : 0 < 256 ^ 4 := by decide
    obtain ⟨zero, _, _⟩ := record_fields [] small short
    rw [direntAdvance, if_pos]
    · rw [length_append, length_record]
      rfl
    · exact zero
  | cons other rest =>
    obtain ⟨next, _, _⟩ := record_fields (encodeEntries (other :: rest)) short short
    have large : 93 ≤ entry.size := by
      rw [DirEntry.size]
      omega
    rw [direntAdvance, isEmpty_cons, if_neg Bool.false_ne_true, next, if_neg (by omega), if_neg]
    rw [length_append, length_record, fdiFixed]
    omega

/-- **An answer adds its entries.** -/
theorem decodeDirents_encode (fd : FuseDrive) (parent : NodeId) {fuel : Nat} {d : Decoded}
    (enough : entries.length ≤ fuel) (goesOn : d.full = false) (room : Room d.cache entries)
    (short : (encodeEntries entries).length < 256 ^ 4) :
    ∃ added, fd.decodeDirents parent fuel (encodeEntries entries) d =
        { d with cache := { d.cache with ents := d.cache.ents ++ added }
                 records := d.records + entries.length } ∧
      added.map Dirent.seen = emitted entries := by
  induction entries generalizing fuel d with
  | nil =>
    refine ⟨[], ?_, rfl⟩
    have stops : fd.decodeDirents parent fuel [] d = d := by
      cases fuel with
      | zero => rfl
      | succ fuel =>
        rw [decodeDirents, if_pos]
        exact .inl (by decide)
    rw [encodeEntries, stops, append_nil]
    rfl
  | cons entry entries ih =>
    rw [encodeEntries, length_append, length_record] at short
    have small : entry.size < 256 ^ 4 := by omega
    have next : (if entries.isEmpty then 0 else entry.size) < 256 ^ 4 := by
      split_ifs
      · decide
      · exact small
    obtain ⟨fits, later⟩ := room_cons room
    obtain ⟨ino, reads⟩ :=
      decodeOneDirent_record fd parent (encodeEntries entries) next small fits
    rw [direntAdvance_record entries small] at reads
    obtain ⟨first, adds, seen⟩ := addEntry_ents entry ino d.cache
    cases fuel with
    | zero => exact absurd enough (by simp)
    | succ fuel =>
      have less : entries.length ≤ fuel := Nat.le_of_succ_le_succ enough
      obtain ⟨added, runs, same⟩ := ih less
        (d := { d with cache := addEntry entry ino d.cache, records := d.records + 1 })
        goesOn (later ino) (by omega)
      refine ⟨first ++ added, ?_, ?_⟩
      · have size : (encodeEntries (entry :: entries)).length =
            entry.size + (encodeEntries entries).length := by
          rw [encodeEntries, length_append, length_record]
        have large : 93 ≤ entry.size := by
          rw [DirEntry.size]
          omega
        have dropped : (encodeEntries (entry :: entries)).drop entry.size =
            encodeEntries entries := by
          exact drop_left' (length_record _ _)
        have more : ¬ ((encodeEntries (entry :: entries)).length < fdiFixed ∨ d.full) := by
          rw [fdiFixed, goesOn]
          simp only [Bool.false_eq_true, or_false]
          omega
        have inside : ¬ (entry.size = 0 ∨
            entry.size > (encodeEntries (entry :: entries)).length) := by omega
        rw [decodeDirents, if_neg more]
        rw [encodeEntries] at dropped inside ⊢
        rw [reads]
        dsimp only
        rw [if_neg inside, dropped, runs, adds]
        simp [Nat.add_assoc, Nat.add_comm 1]
      · rw [map_append, seen, same, ← emitted_cons]

theorem length_le_encodeEntries (entries : List DirEntry) :
    entries.length ≤ (encodeEntries entries).length := by
  induction entries with
  | nil => exact Nat.le_refl 0
  | cons entry entries ih =>
    rw [encodeEntries, length_append, length_record, length_cons, DirEntry.size]
    omega

theorem fsccOf_listPayload (short : (encodeEntries entries).length < 256 ^ 4) :
    fsccOf (listPayload entries) = encodeEntries entries := by
  have prefixed : ld32 (leBytes 4 (encodeEntries entries).length ++ encodeEntries entries) 0 =
      (encodeEntries entries).length := leValue_field (List.length_nil (α := UInt8)) _ short
  rw [fsccOf, listPayload, prefixed, drop_left' (length_leBytes _ _), take_length]

variable (parent : NodeId)

theorem decodeDirents_succ (fuel : Nat) (fdi : Bytes) (d : Decoded) :
    fd.decodeDirents parent (fuel + 1) fdi d =
      if fdi.length < fdiFixed ∨ d.full then d
      else if (fd.decodeOneDirent fdi parent d).1 = 0 ∨
          (fd.decodeOneDirent fdi parent d).1 > fdi.length then (fd.decodeOneDirent fdi parent d).2
      else fd.decodeDirents parent fuel (fdi.drop (fd.decodeOneDirent fdi parent d).1)
        (fd.decodeOneDirent fdi parent d).2 :=
  rfl

/-- The whole name of a record is in the answer. -/
def NameInside (fdi : Bytes) : Prop := ld32 fdi 60 ≤ fdi.length - fdiFixed

instance : DecidablePred NameInside := fun _ => inferInstanceAs (Decidable (_ ≤ _))

/-- The records of an answer, each with all that follows it, from one to the next by the
offsets, up to one that is the last or damaged. Neither the drive nor its listing is asked. -/
def recordsOf : Nat → Bytes → List Bytes
  | 0, _ => []
  | fuel + 1, fdi =>
    if fdi.length < fdiFixed then []
    else if ¬ NameInside fdi ∨ direntAdvance fdi = 0 then [fdi]
    else fdi :: recordsOf fuel (fdi.drop (direntAdvance fdi))

/-- The units of a record's name, as many as a name may have. -/
def nameUnits (fdi : Bytes) : List UInt16 :=
  (Units.decode ((fdi.drop fdiFixed).take (ld32 fdi 60))).take nameMax

/-- A record that is for the listing: its name is there and is not one of every directory. -/
def Listed (fdi : Bytes) : Prop :=
  NameInside fdi ∧ isDots ((nameUnits fdi).map Units.narrow) = false

instance : DecidablePred Listed := fun _ => inferInstanceAs (Decidable (_ ∧ _))

/-- The names that records give to a listing: the low bytes of their units. -/
def namesOf (records : List Bytes) : List Name :=
  (records.filter (Listed ·)).map fun record => (nameUnits record).map Units.narrow

def replyRecords (payload : Bytes) : List Bytes :=
  recordsOf (fsccOf payload).length (fsccOf payload)

theorem recordsOf_inside {fuel : Nat} :
    ∀ record ∈ recordsOf fuel fdi, ∃ off, record = fdi.drop off ∧ off + fdiFixed ≤ fdi.length := by
  induction fuel generalizing fdi with
  | zero => exact fun record member => nomatch member
  | succ fuel ih =>
    intro record member
    rw [recordsOf] at member
    split_ifs at member with short ends
    · cases member
    · exact ⟨0, mem_singleton.1 member, by omega⟩
    · rcases mem_cons.1 member with rfl | later
      · exact ⟨0, rfl, by omega⟩
      · obtain ⟨off, rfl, inside⟩ := ih record later
        rw [length_drop] at inside
        exact ⟨direntAdvance fdi + off, drop_drop, by rw [fdiFixed] at inside ⊢; omega⟩

theorem direntName_eq (inside : NameInside fdi) :
    direntName fdi = (nameUnits fdi).map Units.narrow := by
  have size : ((fdi.drop fdiFixed).take (ld32 fdi 60)).length = ld32 fdi 60 := by
    rw [length_take, length_drop]
    exact min_eq_left inside
  rw [nameUnits, map_take, Units.map_narrow_decode, size, ← map_take, take_range, Nat.min_comm]
  refine map_congr_left fun i below => ?_
  have less : 2 * i < ld32 fdi 60 := by
    have := mem_range.1 below
    omega
  rw [getD_eq_getElem?_getD, getD_eq_getElem?_getD, getElem?_take_of_lt less, getElem?_drop,
    Nat.mul_comm i]

/-- What becomes of one record: its name is cut off, the listing is full, or it is taken. -/
theorem decodeOneDirent_cases (fd : FuseDrive) (parent : NodeId) (d : Decoded)
    (long : fdiFixed ≤ fdi.length) :
    ¬ NameInside fdi ∧ fd.decodeOneDirent fdi parent d = (0, d) ∨
    NameInside fdi ∧ (fd.decodeOneDirent fdi parent d).1 = 0 ∧
      (fd.decodeOneDirent fdi parent d).2.full = true ∧
      (fd.decodeOneDirent fdi parent d).2.cache = d.cache ∨
    NameInside fdi ∧ (fd.decodeOneDirent fdi parent d).1 = direntAdvance fdi ∧
      ∃ added, (fd.decodeOneDirent fdi parent d).2.cache.ents = d.cache.ents ++ added ∧
        added.map Dirent.name = namesOf [fdi] := by
  by_cases inside : NameInside fdi
  · have listed : Listed fdi ↔ ¬ isDots (direntName fdi) = true := by
      rw [Listed, ← direntName_eq inside, Bool.not_eq_true]
      exact and_iff_right inside
    refine .inr ?_
    unfold decodeOneDirent dircacheAdd
    rw [if_neg (Nat.not_lt.2 long), if_neg (Nat.not_lt.2 inside)]
    dsimp only
    split_ifs with dots
    · refine .inr ⟨inside, rfl, [], (append_nil _).symm, ?_⟩
      rw [namesOf, filter_cons_of_neg (by simpa using fun is => listed.1 is dots)]
      rfl
    · exact .inl ⟨inside, rfl, rfl, rfl⟩
    · refine .inr ⟨inside, rfl, _, rfl, ?_⟩
      rw [namesOf, filter_cons_of_pos (by simpa using listed.2 dots)]
      exact congrArg (fun name => [name]) (direntName_eq inside)
  · refine .inl ⟨inside, ?_⟩
    rw [decodeOneDirent, if_neg (Nat.not_lt.2 long), if_pos (Nat.not_le.1 inside)]

theorem direntAdvance_le (fdi : Bytes) : direntAdvance fdi ≤ fdi.length := by
  rw [direntAdvance]
  split_ifs <;> omega

theorem namesOf_append (first second : List Bytes) :
    namesOf (first ++ second) = namesOf first ++ namesOf second := by
  rw [namesOf, filter_append, map_append]
  rfl

theorem decodeDirents_adds (fuel : Nat) (fdi : Bytes) (d : Decoded) :
    ∃ added taken, (fd.decodeDirents parent fuel fdi d).cache.ents = d.cache.ents ++ added ∧
      taken <+: recordsOf fuel fdi ∧ added.map Dirent.name = namesOf taken ∧
      ((fd.decodeDirents parent fuel fdi d).full = false → taken = recordsOf fuel fdi) := by
  induction fuel generalizing fdi d with
  | zero => exact ⟨[], [], (append_nil _).symm, nil_prefix, rfl, fun _ => rfl⟩
  | succ fuel ih =>
    rw [decodeDirents_succ]
    by_cases short : fdi.length < fdiFixed
    · rw [if_pos (.inl short), recordsOf, if_pos short]
      exact ⟨[], [], (append_nil _).symm, nil_prefix, rfl, fun _ => rfl⟩
    by_cases full : d.full = true
    · rw [if_pos (.inr full)]
      exact ⟨[], [], (append_nil _).symm, nil_prefix, rfl,
        fun goesOn => absurd (goesOn.symm.trans full) nofun⟩
    rw [if_neg (not_or.2 ⟨short, full⟩)]
    rcases fd.decodeOneDirent_cases parent d (Nat.not_lt.1 short) with
      ⟨outside, stays⟩ | ⟨_, stops, isFull, kept⟩ | ⟨inside, used, first, adds, named⟩
    · rw [stays, if_pos (.inl rfl), recordsOf, if_neg short, if_pos (.inl outside)]
      have skipped : namesOf [fdi] = [] := by
        rw [namesOf, filter_cons_of_neg (by simpa using fun is => outside is.1)]
        rfl
      exact ⟨[], [fdi], (append_nil _).symm, prefix_rfl, skipped.symm, fun _ => rfl⟩
    · rw [if_pos (.inl stops), kept]
      exact ⟨[], [], (append_nil _).symm, nil_prefix, rfl,
        fun goesOn => absurd (goesOn.symm.trans isFull) nofun⟩
    · rw [recordsOf, if_neg short, used]
      by_cases last : direntAdvance fdi = 0
      · rw [if_pos (.inl last), if_pos (.inr last)]
        exact ⟨first, [fdi], adds, prefix_rfl, named, fun _ => rfl⟩
      · rw [if_neg (not_or.2 ⟨last, Nat.not_lt.2 (direntAdvance_le fdi)⟩),
          if_neg (not_or.2 ⟨not_not.2 inside, last⟩)]
        obtain ⟨later, taken, addsLater, isPrefix, namedLater, whole⟩ :=
          ih (fdi.drop (direntAdvance fdi)) (fd.decodeOneDirent fdi parent d).2
        refine ⟨first ++ later, fdi :: taken, by rw [addsLater, adds, append_assoc],
          (prefix_cons_inj fdi).2 isPrefix, ?_, fun goesOn => by rw [whole goesOn]⟩
        rw [map_append, named, namedLater, ← namesOf_append]
        rfl

/-- The walk ends: fuel for every byte is enough. -/
theorem decodeDirents_fuel {fuel : Nat} {fdi : Bytes} {d : Decoded}
    (enough : fdi.length ≤ fuel) :
    fd.decodeDirents parent fuel fdi d = fd.decodeDirents parent fdi.length fdi d := by
  suffices more : ∀ fuel fdi d, fdi.length ≤ fuel →
      fd.decodeDirents parent (fuel + 1) fdi d = fd.decodeDirents parent fuel fdi d by
    induction enough with
    | refl => rfl
    | step enough ih => rw [more _ _ _ enough, ih]
  intro fuel
  induction fuel with
  | zero =>
    intro fdi d none
    rw [decodeDirents_succ, if_pos (.inl (lt_of_le_of_lt none (by decide)))]
    rfl
  | succ fuel ih =>
    intro fdi d enough
    rw [decodeDirents_succ, decodeDirents_succ parent fuel fdi d]
    split_ifs
    · rfl
    · rfl
    · refine ih _ _ ?_
      rw [length_drop]
      omega

/-- A name for one entry of a directory. -/
def Component (name : Name) : Prop :=
  name ≠ [] ∧ 0x2F ∉ name ∧ 0 ∉ name ∧ name ≠ [0x2E] ∧ name ≠ [0x2E, 0x2E]

theorem component_iff {name : Name} (plain : isDots name = false) :
    Component name ↔ 0x2F ∉ name ∧ 0 ∉ name := by
  refine ⟨fun component => ⟨component.2.1, component.2.2.1⟩, fun ⟨flat, clean⟩ => ?_⟩
  simp only [isDots, cString_of_clean clean, Bool.or_eq_false_iff, isEmpty_eq_false_iff,
    beq_eq_false_iff_ne] at plain
  exact ⟨plain.1.1, flat, clean, plain.1.2, plain.2⟩

theorem components_iff (records : List Bytes) :
    (∀ name ∈ namesOf records, Component name) ↔ ∀ record ∈ records, Listed record →
      ∀ unit ∈ nameUnits record, Units.narrow unit ≠ 0x2F ∧ Units.narrow unit ≠ 0 := by
  rw [namesOf, forall_mem_map]
  simp only [mem_filter, decide_eq_true_eq, and_imp]
  refine forall₃_congr fun record _ listed => ?_
  rw [component_iff listed.2, mem_map, mem_map]
  constructor
  · rintro ⟨flat, clean⟩ unit member
    exact ⟨fun slash => flat ⟨unit, member, slash⟩, fun zero => clean ⟨unit, member, zero⟩⟩
  · refine fun good => ⟨?_, ?_⟩
    · rintro ⟨unit, member, slash⟩
      exact (good unit member).1 slash
    · rintro ⟨unit, member, zero⟩
      exact (good unit member).2 zero

end FuseDrive

end RdpServer.Session
