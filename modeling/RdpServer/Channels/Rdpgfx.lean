import Mathlib.Data.List.Induction
import RdpServer.Lib.Bytes
import RdpServer.Lib.Runs

/-!
# The graphics channel

`rdpgfx.c`: the capability sets that the client advertises, and the one that the server
confirms (`confirms_offered_iff`); and the flow control, which counts the frames on their way
and finds their bytes from a ring of snapshots (`flow_exact`).
-/

namespace RdpServer.Channels.Rdpgfx

open Bytes Option

def headerSize : Nat := 8

def cmdidCapsadvertise : Nat := 0x0012

def capversion81 : UInt32 := 0x00080105

def capversion10 : UInt32 := 0x000A0002

def capsFlagAvc420Enabled : UInt32 := 0x10

def capsFlagAvcDisabled : UInt32 := 0x20

def maxCapsets : Nat := 16

/-- `enum rdpgfx_codec`. -/
inductive Codec where
  | none
  | avc420
  | avc444
  | caprogressive
  deriving DecidableEq

/-- `struct rdpgfx_capset`. -/
structure Capset where
  version : UInt32
  length : Nat
  flags : UInt32
  deriving DecidableEq

def ld32le (pdu : Bytes) (off : Nat) : Nat := leValue ((pdu.drop off).take 4)

/-- The sets that are left to read, of those that fit before `bound`. -/
def parseCapsets (pdu : Bytes) (bound : Nat) : Nat → Nat → List Capset → List Capset
  | 0, _, sets => sets
  | count + 1, off, sets =>
    if off + 8 > bound then sets
    else
      let dlen := ld32le pdu (off + 4)
      if dlen > bound - (off + 8) then sets
      else
        let set : Capset :=
          { version := UInt32.ofNat (ld32le pdu off), length := dlen
            flags := if dlen ≥ 4 then UInt32.ofNat (ld32le pdu (off + 8)) else 0 }
        parseCapsets pdu bound count (off + 8 + dlen)
          (if sets.length < maxCapsets then sets ++ [set] else sets)

/-- `rdp_rdpgfx_parse_caps_advertise`. A length in the PDU that is missing or too
large gives way to that of the buffer. -/
def parseCapsAdvertise (pdu : Bytes) : Option (List Capset) :=
  if pdu.length < headerSize + 2 then none
  else if leValue (pdu.take 2) ≠ cmdidCapsadvertise then none
  else
    let pduLen := ld32le pdu 4
    let bound := if headerSize + 2 ≤ pduLen ∧ pduLen < pdu.length then pduLen else pdu.length
    some (parseCapsets pdu bound (leValue ((pdu.drop 8).take 2)) 10 [])

namespace Capset

variable (set : Capset)

def avcOn : Bool := set.flags &&& capsFlagAvcDisabled = 0

def isV10 : Bool := capversion10 ≤ set.version

def avc81 : Bool :=
  set.version = capversion81 ∧ ¬ set.flags &&& capsFlagAvc420Enabled = 0

end Capset

def pref : List UInt32 :=
  [0x000A0200, 0x000A0100, capversion10, 0x000A0400, 0x000A0301, 0x000A0502, 0x000A0600, 0x000A0701]

structure Found where
  hasAvc420 : Bool := false
  hasV10Avc : Bool := false
  avc81Flags : UInt32 := capsFlagAvc420Enabled
  deriving DecidableEq

def Found.note (found : Found) (set : Capset) : Found :=
  let found :=
    if set.avc81 then { found with hasAvc420 := true, avc81Flags := set.flags } else found
  if set.isV10 ∧ set.avcOn then { found with hasV10Avc := true } else found

def survey (sets : List Capset) : Found := sets.foldl Found.note {}

/-- The first set of the most preferred version for which there is one that passes
a check. -/
def firstPreferred (sets : List Capset) (passes : Capset → Bool) : Option Capset :=
  pref.findSome? fun version => sets.find? fun set => set.version == version && passes set

structure Chosen where
  version : UInt32
  flags : UInt32
  codec : Codec
  deriving DecidableEq

def selectAvc (sets : List Capset) (allowV10Avc allowAvc444 : Bool) : Option Chosen :=
  let found := survey sets
  if found.hasAvc420 || (allowV10Avc && found.hasV10Avc) then
    match firstPreferred sets Capset.avcOn with
    | some set =>
      some { version := set.version, flags := set.flags
             codec := if allowAvc444 && set.isV10 then .avc444 else .avc420 }
    | none =>
      if found.hasAvc420 then
        some { version := capversion81, flags := found.avc81Flags, codec := .avc420 }
      else none
  else none

/-- The choice for the progressive codec: a preferred set with AVC off, one before
version 10, or the first with AVC forced off. -/
def selectProgressive (sets : List Capset) : Option Chosen :=
  match firstPreferred sets fun set => !set.avcOn with
  | some set => some { version := set.version, flags := set.flags, codec := .caprogressive }
  | none =>
    match sets.find? fun set => !set.isV10 with
    | some set => some { version := set.version, flags := set.flags, codec := .caprogressive }
    | none =>
      sets.head?.map fun set =>
        { version := set.version
          flags := set.flags ||| (if set.isV10 then capsFlagAvcDisabled else 0)
          codec := .caprogressive }

/-- `rdp_rdpgfx_select_caps`. -/
def selectCaps (sets : List Capset) (allowV10Avc allowProgressive allowAvc444 : Bool) :
    Option Chosen :=
  match selectAvc sets allowV10Avc allowAvc444 with
  | some chosen => some chosen
  | none => if allowProgressive ∧ sets ≠ [] then selectProgressive sets else none

variable {sets : List Capset} {set : Capset} {passes : Capset → Bool} {chosen : Chosen}
  {allowV10Avc allowProgressive allowAvc444 : Bool}

theorem isV10_of_pref (preferred : set.version ∈ pref) : set.isV10 = true := by
  have all : pref.all (fun version => capversion10 ≤ version) = true := by decide
  exact List.all_eq_true.1 all _ preferred

theorem not_avc81_of_isV10 (isV10 : set.isV10 = true) : set.avc81 = false := by
  refine decide_eq_false ?_
  rintro ⟨same, _⟩
  rw [Capset.isV10, same] at isV10
  exact absurd isV10 (by decide)

theorem firstPreferred_eq_some (found : firstPreferred sets passes = some set) :
    set ∈ sets ∧ set.version ∈ pref ∧ passes set = true := by
  obtain ⟨version, preferred, finds⟩ := List.exists_of_findSome?_eq_some found
  have fits := List.find?_some finds
  rw [Bool.and_eq_true, beq_iff_eq] at fits
  exact ⟨List.mem_of_find?_eq_some finds, fits.1 ▸ preferred, fits.2⟩

theorem firstPreferred_eq_none :
    firstPreferred sets passes = none ↔
      ∀ set ∈ sets, set.version ∈ pref → passes set = false := by
  rw [firstPreferred, List.findSome?_eq_none_iff]
  constructor
  · intro none set member preferred
    have skipped := List.find?_eq_none.1 (none set.version preferred) set member
    rw [beq_self_eq_true] at skipped
    exact Bool.eq_false_iff.2 skipped
  · intro skips version preferred
    refine List.find?_eq_none.2 fun set member fits => ?_
    rw [Bool.and_eq_true, beq_iff_eq] at fits
    rw [skips set member (fits.1 ▸ preferred)] at fits
    exact absurd fits.2 Bool.false_ne_true

def lastAvc81 (sets : List Capset) : Option Capset := (sets.filter Capset.avc81).getLast?

theorem Found.note_eq (found : Found) (set : Capset) :
    found.note set =
      { hasAvc420 := found.hasAvc420 || set.avc81
        hasV10Avc := found.hasV10Avc || (set.isV10 && set.avcOn)
        avc81Flags := if set.avc81 then set.flags else found.avc81Flags } := by
  unfold Found.note
  cases set.avc81 <;> cases set.isV10 <;> cases set.avcOn <;> simp

theorem survey_concat (sets : List Capset) (set : Capset) :
    survey (sets ++ [set]) = (survey sets).note set := by
  rw [survey, List.foldl_append, List.foldl_cons, List.foldl_nil, survey]

theorem lastAvc81_concat (sets : List Capset) (set : Capset) :
    lastAvc81 (sets ++ [set]) = if set.avc81 then some set else lastAvc81 sets := by
  rw [lastAvc81, List.filter_append]
  cases asks : set.avc81 with
  | true => rw [List.filter_cons_of_pos asks, List.filter_nil, List.getLast?_concat, if_pos rfl]
  | false =>
    rw [List.filter_cons_of_neg (by rw [asks]; exact Bool.false_ne_true), List.filter_nil,
      List.append_nil, if_neg Bool.false_ne_true, lastAvc81]

theorem hasAvc420_survey (sets : List Capset) :
    (survey sets).hasAvc420 = (lastAvc81 sets).isSome := by
  induction sets using List.reverseRecOn with
  | nil => rfl
  | append_singleton sets set ih =>
    rw [survey_concat, lastAvc81_concat, Found.note_eq, ih]
    cases set.avc81 with
    | true => exact Bool.or_true _
    | false => exact Bool.or_false _

theorem hasV10Avc_survey (sets : List Capset) :
    (survey sets).hasV10Avc = sets.any fun set => set.isV10 && set.avcOn := by
  induction sets using List.reverseRecOn with
  | nil => rfl
  | append_singleton sets set ih =>
    rw [survey_concat, Found.note_eq, ih, List.any_append, List.any_cons, List.any_nil,
      Bool.or_false]

theorem avc81Flags_survey (last : lastAvc81 sets = some set) :
    (survey sets).avc81Flags = set.flags := by
  induction sets using List.reverseRecOn with
  | nil => cases last
  | append_singleton sets other ih =>
    rw [lastAvc81_concat] at last
    rw [survey_concat, Found.note_eq]
    split_ifs at last ⊢ with asks
    · rw [some.inj last]
    · exact ih last

theorem lastAvc81_eq_some (last : lastAvc81 sets = some set) :
    set ∈ sets ∧ set.version = capversion81 := by
  have member := List.mem_filter.1 (List.mem_of_getLast? last)
  exact ⟨member.1, (of_decide_eq_true member.2).1⟩

/-- What the law wants of a choice: its version was advertised, its version and
flags were advertised together unless all sets are of version 10 with AVC on, and
AVC is chosen only if the flags leave it on. -/
structure Chosen.Lawful (sets : List Capset) (chosen : Chosen) : Prop where
  version : ∃ set ∈ sets, set.version = chosen.version
  pair : (∃ set ∈ sets, set.version = chosen.version ∧ set.flags = chosen.flags) ∨
    ∀ set ∈ sets, set.isV10 = true ∧ set.avcOn = true
  avc : chosen.codec = .avc420 ∨ chosen.codec = .avc444 → chosen.flags &&& capsFlagAvcDisabled = 0

def LeavesAvcOn (sets : List Capset) : Prop :=
  (∀ set ∈ sets, set.version ∈ pref → set.avcOn = false) →
    ∀ last, lastAvc81 sets = some last → last.avcOn = true

/-- The first set is not confirmed with AVC forced off while another set had it off,
unless that was offered. -/
def OffersForced (sets : List Capset) (allowV10Avc : Bool) : Prop :=
  ∀ first, sets.head? = some first → first.avcOn = true →
    (∀ set ∈ sets, set.isV10 = true) →
    (∀ set ∈ sets, set.version ∈ pref → set.avcOn = true ∧ allowV10Avc = false) →
    (∃ set ∈ sets, set.avcOn = false) →
    ∃ set ∈ sets, set.version = first.version ∧ set.flags = first.flags ||| capsFlagAvcDisabled

theorem lawful_of_echo (member : set ∈ sets) (version : chosen.version = set.version)
    (flags : chosen.flags = set.flags)
    (avc : chosen.codec = .avc420 ∨ chosen.codec = .avc444 → set.avcOn = true) :
    chosen.Lawful sets := by
  refine ⟨⟨set, member, version.symm⟩, .inl ⟨set, member, version.symm, flags.symm⟩, ?_⟩
  intro isAvc
  rw [flags]
  exact of_decide_eq_true (avc isAvc)

theorem selectAvc_cases (sets : List Capset) (allowV10Avc allowAvc444 : Bool) :
    (∃ set ∈ sets, set.version ∈ pref ∧ set.avcOn = true ∧
      ((∃ last, lastAvc81 sets = some last) ∨ allowV10Avc = true) ∧
      ∃ chosen, selectAvc sets allowV10Avc allowAvc444 = some chosen ∧
        chosen.version = set.version ∧ chosen.flags = set.flags) ∨
    (∃ last, lastAvc81 sets = some last ∧
      (∀ set ∈ sets, set.version ∈ pref → set.avcOn = false) ∧
      selectAvc sets allowV10Avc allowAvc444 =
        some { version := capversion81, flags := last.flags, codec := .avc420 }) ∨
    (lastAvc81 sets = none ∧ selectAvc sets allowV10Avc allowAvc444 = none ∧
      ∀ set ∈ sets, set.version ∈ pref → set.avcOn = true → allowV10Avc = false) := by
  have v10 : ∀ set ∈ sets, set.version ∈ pref → set.avcOn = true →
      (survey sets).hasV10Avc = true := by
    intro set member preferred on
    rw [hasV10Avc_survey, List.any_eq_true]
    exact ⟨set, member, by rw [isV10_of_pref preferred, on, Bool.and_true]⟩
  unfold selectAvc
  dsimp only
  cases first : firstPreferred sets Capset.avcOn with
  | some set =>
    obtain ⟨member, preferred, on⟩ := firstPreferred_eq_some first
    by_cases eligible :
        ((survey sets).hasAvc420 || allowV10Avc && (survey sets).hasV10Avc) = true
    · rw [if_pos eligible]
      refine .inl ⟨set, member, preferred, on, ?_, _, rfl, rfl, rfl⟩
      rw [hasAvc420_survey, Bool.or_eq_true, Bool.and_eq_true] at eligible
      exact eligible.imp isSome_iff_exists.1 And.left
    · rw [if_neg eligible]
      rw [v10 set member preferred on, hasAvc420_survey, Bool.and_true, Bool.or_eq_true, not_or,
        Bool.not_eq_true, Bool.not_eq_true, isSome_eq_false_iff, isNone_iff_eq_none] at eligible
      exact .inr (.inr ⟨eligible.1, rfl, fun _ _ _ _ => eligible.2⟩)
  | none =>
    have off := firstPreferred_eq_none.1 first
    cases last : lastAvc81 sets with
    | some set =>
      have has : (survey sets).hasAvc420 = true := by rw [hasAvc420_survey, last]; rfl
      rw [has, avc81Flags_survey last]
      exact .inr (.inl ⟨set, rfl, off, rfl⟩)
    | none =>
      have has : (survey sets).hasAvc420 = false := by rw [hasAvc420_survey, last]; rfl
      refine .inr (.inr ⟨rfl, ?_, ?_⟩)
      · rw [has]
        split_ifs <;> first | rfl | contradiction
      · intro set member preferred on
        rw [off set member preferred] at on
        cases on

theorem selectProgressive_cases (filled : sets ≠ []) :
    (∃ set ∈ sets, (set.isV10 = false ∨ set.version ∈ pref ∧ set.avcOn = false) ∧
      selectProgressive sets = some
        { version := set.version, flags := set.flags, codec := .caprogressive }) ∨
    (∃ first, sets.head? = some first ∧ (∀ set ∈ sets, set.isV10 = true) ∧
      (∀ set ∈ sets, set.version ∈ pref → set.avcOn = true) ∧
      selectProgressive sets = some
        { version := first.version, flags := first.flags ||| capsFlagAvcDisabled
          codec := .caprogressive }) := by
  unfold selectProgressive
  cases preferred : firstPreferred sets fun set => !set.avcOn with
  | some set =>
    obtain ⟨member, known, off⟩ := firstPreferred_eq_some preferred
    exact .inl ⟨set, member, .inr ⟨known, (Bool.not_eq_true' _).mp off⟩, rfl⟩
  | none =>
    have on : ∀ set ∈ sets, set.version ∈ pref → set.avcOn = true := fun set member known =>
      (Bool.not_eq_false' _).mp (firstPreferred_eq_none.1 preferred set member known)
    cases older : sets.find? fun set => !set.isV10 with
    | some set =>
      have old := List.find?_some older
      rw [Bool.not_eq_true'] at old
      exact .inl ⟨set, List.mem_of_find?_eq_some older, .inl old, rfl⟩
    | none =>
      have isV10 : ∀ set ∈ sets, set.isV10 = true := fun set member =>
        (Bool.not_eq_false' _).mp (Bool.eq_false_iff.2 (List.find?_eq_none.1 older set member))
      cases sets with
      | nil => exact absurd rfl filled
      | cons first rest =>
        refine .inr ⟨first, rfl, isV10, on, ?_⟩
        dsimp only [List.head?_cons, map_some]
        rw [isV10 first List.mem_cons_self, if_pos rfl]

theorem Capset.flags_or (off : set.avcOn = false) :
    set.flags ||| capsFlagAvcDisabled = set.flags := by
  have bit : capsFlagAvcDisabled.toNat = 2 ^ 5 := rfl
  have isSet : set.flags.toNat.testBit 5 = true := by
    by_contra unset
    refine of_decide_eq_false off (UInt32.toNat_inj.1 (Nat.eq_of_testBit_eq fun i => ?_))
    rw [UInt32.toNat_and, bit, Nat.testBit_and, Nat.testBit_two_pow]
    by_cases here : 5 = i
    · rw [← here, Bool.eq_false_iff.2 unset]
      exact (Nat.zero_testBit 5).symm
    · rw [decide_eq_false here, Bool.and_false]
      exact (Nat.zero_testBit i).symm
  refine UInt32.toNat_inj.1 (Nat.eq_of_testBit_eq fun i => ?_)
  rw [UInt32.toNat_or, bit, Nat.testBit_or, Nat.testBit_two_pow]
  by_cases here : 5 = i
  · rw [← here, isSet, Bool.true_or]
  · rw [decide_eq_false here, Bool.or_false]

theorem not_allV10_of_lastAvc81 (last : lastAvc81 sets = some set)
    (isV10 : ∀ set ∈ sets, set.isV10 = true) : False := by
  have member := List.mem_filter.1 (List.mem_of_getLast? last)
  rw [not_avc81_of_isV10 (isV10 set member.1)] at member
  exact Bool.false_ne_true member.2

theorem forced_lawful_iff {first : Capset} (isFirst : sets.head? = some first)
    (isV10 : ∀ set ∈ sets, set.isV10 = true)
    (on : ∀ set ∈ sets, set.version ∈ pref → set.avcOn = true ∧ allowV10Avc = false) :
    Chosen.Lawful sets
      { version := first.version, flags := first.flags ||| capsFlagAvcDisabled
        codec := .caprogressive } ↔ OffersForced sets allowV10Avc := by
  have member : first ∈ sets := List.mem_of_head? isFirst
  constructor
  · rintro lawful other isOther _ _ _ ⟨off, offMember, isOff⟩
    rw [isFirst] at isOther
    cases isOther
    rcases lawful.pair with offered | allOn
    · exact offered
    · rw [(allOn off offMember).2] at isOff
      cases isOff
  · intro offers
    refine ⟨⟨first, member, rfl⟩, ?_, fun isAvc => ?_⟩
    · cases firstOn : first.avcOn with
      | false => exact .inl ⟨first, member, rfl, (Capset.flags_or firstOn).symm⟩
      | true =>
        by_cases someOff : ∃ set ∈ sets, set.avcOn = false
        · exact .inl (offers first isFirst firstOn isV10 on someOff)
        · refine .inr fun set inside => ⟨isV10 set inside, ?_⟩
          by_contra isOff
          exact someOff ⟨set, inside, Bool.eq_false_iff.2 isOff⟩
    · rcases isAvc with isAvc | isAvc <;> cases isAvc

/-- **The confirmation names an offered set.** For every list of sets and all
switches: the choice is lawful exactly if no version 8.1 set that has AVC both on
and off decides it, and AVC is not forced off on the first set while a set of a
version that is not preferred had it off. -/
theorem confirms_offered_iff (sets : List Capset)
    (allowV10Avc allowProgressive allowAvc444 : Bool) :
    (∀ chosen, selectCaps sets allowV10Avc allowProgressive allowAvc444 = some chosen →
      chosen.Lawful sets) ↔
    LeavesAvcOn sets ∧ (allowProgressive = true → OffersForced sets allowV10Avc) := by
  unfold selectCaps
  rcases selectAvc_cases sets allowV10Avc allowAvc444 with
    ⟨set, member, preferred, on, eligible, chosen, selects, version, flags⟩ |
      ⟨last, isLast, off, selects⟩ | ⟨noAvc81, selects, barred⟩
  · rw [selects]
    constructor
    · refine fun _ => ⟨fun off => ?_, fun _ first _ _ isV10 apart => ?_⟩
      · rw [off set member preferred] at on
        cases on
      · rcases eligible with ⟨last, isLast⟩ | allowed
        · exact (not_allV10_of_lastAvc81 isLast isV10).elim
        · rw [(apart set member preferred).2] at allowed
          cases allowed
    · rintro _ _ ⟨⟩
      exact lawful_of_echo member version flags fun _ => on
  · rw [selects]
    obtain ⟨member, isOld⟩ := lastAvc81_eq_some isLast
    constructor
    · refine fun lawful => ⟨fun _ other isOther => ?_, fun _ first _ _ isV10 => ?_⟩
      · rw [isLast] at isOther
        cases isOther
        exact decide_eq_true ((lawful _ rfl).avc (.inl rfl))
      · exact (not_allV10_of_lastAvc81 isLast isV10).elim
    · rintro ⟨leaves, _⟩ _ ⟨⟩
      exact lawful_of_echo member isOld.symm rfl fun _ => leaves off last isLast
  · rw [selects]
    have leaves : LeavesAvcOn sets := by
      intro _ last isLast
      rw [noAvc81] at isLast
      cases isLast
    by_cases tries : allowProgressive = true ∧ sets ≠ []
    · dsimp only
      rw [if_pos tries]
      rcases selectProgressive_cases tries.2 with
        ⟨set, member, which, echoes⟩ | ⟨first, isFirst, isV10, on, forces⟩
      · rw [echoes]
        constructor
        · refine fun _ => ⟨leaves, fun _ first _ _ isV10 on => ?_⟩
          rcases which with old | ⟨preferred, off⟩
          · rw [isV10 set member] at old
            cases old
          · rw [(on set member preferred).1] at off
            cases off
        · rintro _ _ ⟨⟩
          refine lawful_of_echo member rfl rfl fun isAvc => ?_
          rcases isAvc with isAvc | isAvc <;> cases isAvc
      · rw [forces]
        have lawful := forced_lawful_iff isFirst isV10 fun set member preferred =>
          ⟨on set member preferred, barred set member preferred (on set member preferred)⟩
        constructor
        · exact fun all => ⟨leaves, fun _ => lawful.1 (all _ rfl)⟩
        · rintro ⟨_, offers⟩ _ ⟨⟩
          exact lawful.2 (offers tries.1)
    · dsimp only
      rw [if_neg tries]
      constructor
      · refine fun _ => ⟨leaves, fun allowed first isFirst => ?_⟩
        have filled : sets ≠ [] := by
          rintro rfl
          cases isFirst
        exact absurd ⟨allowed, filled⟩ tries
      · rintro _ _ ⟨⟩

/-- A set that forces AVC off although the other has it off already, and one that
takes AVC by flags that put it off. -/
theorem confirms_unoffered :
    (selectCaps [⟨0x000A0200, 4, 0⟩, ⟨0x000A0300, 4, 0x20⟩] false true false =
        some { version := 0x000A0200, flags := 0x20, codec := .caprogressive } ∧
      ¬ Chosen.Lawful [⟨0x000A0200, 4, 0⟩, ⟨0x000A0300, 4, 0x20⟩]
        { version := 0x000A0200, flags := 0x20, codec := .caprogressive }) ∧
    (selectCaps [⟨capversion81, 4, 0x30⟩] false false false =
        some { version := capversion81, flags := 0x30, codec := .avc420 } ∧
      ¬ Chosen.Lawful [⟨capversion81, 4, 0x30⟩]
        { version := capversion81, flags := 0x30, codec := .avc420 }) := by
  refine ⟨⟨by decide, fun lawful => ?_⟩, by decide, fun lawful => ?_⟩
  · exact absurd lawful.pair (by decide)
  · exact absurd (lawful.avc (.inl rfl)) (by decide)

end RdpServer.Channels.Rdpgfx

namespace RdpServer.Channels.Rdpgfx

open Bytes List UInt32

def cmdidFrameacknowledge : Nat := 0x000D

/-- `RDPGFX_ACK_RING`. -/
def ackRing : Nat := 8

/-- `RDPGFX_INFLIGHT_BUDGET`. -/
def inflightBudget : UInt64 := 0x100000

def suspendAcks : UInt32 := 0xFFFFFFFF

/-- `rdp_rdpgfx_parse_frame_ack`: the queue depth and the frame id. -/
def parseFrameAck (pdu : Bytes) : Option (UInt32 × UInt32) :=
  if pdu.length < headerSize + 12 then none
  else some (UInt32.ofNat (ld32le pdu 8), UInt32.ofNat (ld32le pdu 12))

/-- The counters of `struct rdpgfx_state`. -/
structure Flow where
  frameId : UInt32 := 0
  lastAckFrame : UInt32 := 0
  queueDepth : UInt32 := 0
  bytesSent : UInt64 := 0
  /-- `bytesSent` after each of the last frames. -/
  cumBytes : List UInt64 := List.replicate ackRing 0
  deriving DecidableEq

namespace Flow

variable (flow : Flow)

def ack (queueDepth frameId : UInt32) : Flow :=
  { flow with lastAckFrame := frameId, queueDepth := queueDepth }

def nextFrame : Flow := { flow with frameId := flow.frameId + 1 }

/-- `rdp_rdpgfx_frame_sent`. -/
def frameSent (bytes : Nat) : Flow :=
  let bytesSent := flow.bytesSent + UInt64.ofNat bytes
  { flow with
    bytesSent := bytesSent
    cumBytes := flow.cumBytes.set (flow.frameId.toNat % ackRing) bytesSent }

def window : UInt32 := if flow.queueDepth ≥ 2 then 1 else if flow.queueDepth = 1 then 2 else 4

/-- `rdp_rdpgfx_may_send_frame`. -/
def maySendFrame : Bool :=
  if flow.lastAckFrame = 0 ∨ flow.queueDepth = suspendAcks then true
  else
    let pending := flow.frameId - flow.lastAckFrame
    if pending ≥ flow.window then false
    else if pending = 0 then true
    else
      flow.bytesSent - flow.cumBytes.getD (flow.lastAckFrame.toNat % ackRing) 0 < inflightBudget

def Unthrottled : Prop := flow.lastAckFrame = 0 ∨ flow.queueDepth = suspendAcks

instance : Decidable flow.Unthrottled :=
  inferInstanceAs (Decidable (flow.lastAckFrame = 0 ∨ flow.queueDepth = suspendAcks))

variable {flow}

theorem Unthrottled.maySendFrame (unthrottled : flow.Unthrottled) : flow.maySendFrame = true :=
  if_pos unthrottled

theorem Unthrottled.frameSent (unthrottled : flow.Unthrottled) (bytes : Nat) :
    (flow.nextFrame.frameSent bytes).Unthrottled := unthrottled

theorem maySendFrame_of_pending (throttled : ¬ flow.Unthrottled)
    (may : flow.maySendFrame = true) :
    flow.frameId - flow.lastAckFrame < flow.window ∧
      (flow.frameId - flow.lastAckFrame ≠ 0 →
        flow.bytesSent - flow.cumBytes.getD (flow.lastAckFrame.toNat % ackRing) 0 <
          inflightBudget) := by
  unfold maySendFrame at may
  dsimp only at may
  split_ifs at may with free wide none
  · exact absurd free throttled
  · exact ⟨UInt32.not_le.1 wide, fun some => absurd none some⟩
  · exact ⟨UInt32.not_le.1 wide, fun _ => of_decide_eq_true may⟩

end Flow

/-- A frame is sent, or one is acknowledged. -/
inductive FlowEvent where
  | sent (bytes : Nat)
  | acked (frame : Nat) (queueDepth : UInt32)

/-- The counters, with the sizes of the frames that were sent and the number of the one that
was acknowledged last. -/
structure FlowRun where
  flow : Flow := {}
  sizes : List Nat := []
  acked : Nat := 0

namespace FlowRun

variable (t : FlowRun)

def step : FlowEvent → FlowRun
  | .sent bytes =>
    { t with flow := t.flow.nextFrame.frameSent bytes, sizes := t.sizes ++ [bytes] }
  | .acked frame queueDepth =>
    { t with flow := t.flow.ack queueDepth (UInt32.ofNat frame), acked := frame }

/-- The client acknowledges frames that were sent, and none before an earlier one. -/
def Orderly : FlowEvent → Prop
  | .sent _ => True
  | .acked frame _ => 1 ≤ frame ∧ t.acked ≤ frame ∧ frame ≤ t.sizes.length

instance : (e : FlowEvent) → Decidable (t.Orderly e)
  | .sent _ => inferInstanceAs (Decidable True)
  | .acked frame _ => inferInstanceAs (Decidable (1 ≤ frame ∧ _ ≤ frame ∧ _))

def unacked : List Nat := t.sizes.drop t.acked

/-- A client that is up to date gets a frame; and if one goes out while the sending is
throttled, fewer frames than the window are on their way, of fewer bytes than the budget. -/
structure Exact : Prop where
  goesOn : t.acked = t.sizes.length → t.flow.maySendFrame = true
  window : t.flow.maySendFrame = true → ¬ t.flow.Unthrottled →
    t.unacked.length < t.flow.window.toNat
  budget : t.flow.maySendFrame = true → ¬ t.flow.Unthrottled → t.unacked ≠ [] →
    t.unacked.sum < inflightBudget.toNat

/-- The counters are those of the frames, and the ring has the bytes that were sent up to
each of the last eight. -/
structure Counts : Prop where
  within : t.acked ≤ t.sizes.length
  frameId : t.flow.frameId = UInt32.ofNat t.sizes.length
  lastAck : t.flow.lastAckFrame = UInt32.ofNat t.acked
  bytesSent : t.flow.bytesSent = UInt64.ofNat t.sizes.sum
  ring : t.flow.cumBytes.length = ackRing
  snapshot : ∀ n, 1 ≤ n → n ≤ t.sizes.length → t.sizes.length < n + ackRing →
    t.flow.cumBytes.getD (n % ackRing) 0 = UInt64.ofNat (t.sizes.take n).sum

variable {t}

theorem toNat_frame_mod (n : Nat) : (ofNat n).toNat % ackRing = n % ackRing := by
  rw [toNat_ofNat', Nat.mod_mod_of_dvd n (by decide)]

theorem Counts.step {e : FlowEvent} (counts : t.Counts) (orderly : t.Orderly e) :
    (t.step e).Counts := by
  cases e with
  | acked frame queueDepth =>
    exact ⟨orderly.2.2, counts.frameId, rfl, counts.bytesSent, counts.ring, counts.snapshot⟩
  | sent bytes =>
    have frameId : t.flow.frameId + 1 = ofNat (t.sizes.length + 1) := by
      rw [counts.frameId, ofNat_add]
      rfl
    have bytesSent : t.flow.bytesSent + UInt64.ofNat bytes =
        UInt64.ofNat (t.sizes ++ [bytes]).sum := by
      rw [counts.bytesSent, sum_append, sum_singleton, UInt64.ofNat_add]
    have place : (t.flow.frameId + 1).toNat % ackRing = (t.sizes.length + 1) % ackRing := by
      rw [frameId, toNat_frame_mod]
    refine ⟨?_, ?_, counts.lastAck, bytesSent, ?_, ?_⟩
    · simpa [FlowRun.step] using Nat.le_succ_of_le counts.within
    · rw [← length_singleton (a := bytes), ← length_append] at frameId
      exact frameId
    · simpa [FlowRun.step, Flow.frameSent, Flow.nextFrame] using counts.ring
    · intro n positive inside recent
      simp only [FlowRun.step, length_append, length_singleton] at inside recent ⊢
      simp only [Flow.frameSent, Flow.nextFrame, place, getD_eq_getElem?_getD,
        getElem?_set, counts.ring]
      by_cases last : n = t.sizes.length + 1
      · rw [if_pos (by rw [last]), if_pos (Nat.mod_lt _ (by decide)), Option.getD_some, bytesSent,
          take_of_length_le (by simp [last])]
      · have other : (t.sizes.length + 1) % ackRing ≠ n % ackRing := by
          rw [ackRing] at recent ⊢
          omega
        rw [if_neg other, take_append_of_le_length (by omega)]
        exact counts.snapshot n positive (by omega) (by omega)

theorem Counts.pending (counts : t.Counts) (few : t.unacked.length < 2 ^ 32) :
    (t.flow.frameId - t.flow.lastAckFrame).toNat = t.unacked.length := by
  rw [counts.frameId, counts.lastAck, ← ofNat_sub counts.within, unacked, length_drop]
  rw [unacked, length_drop] at few
  exact Nat.mod_eq_of_lt few

theorem Counts.exact (counts : t.Counts) (few : t.unacked.length < 2 ^ 32)
    (small : t.unacked.sum < 2 ^ 64) : t.Exact := by
  have pending := counts.pending few
  have window (may : t.flow.maySendFrame = true) (throttled : ¬ t.flow.Unthrottled) :
      t.unacked.length < t.flow.window.toNat :=
    pending ▸ lt_iff_toNat_lt.1 (Flow.maySendFrame_of_pending throttled may).1
  refine ⟨fun all => ?_, window, fun may throttled some => ?_⟩
  · have none : t.flow.frameId - t.flow.lastAckFrame = 0 := by
      rw [counts.frameId, counts.lastAck, all, UInt32.sub_self]
    unfold Flow.maySendFrame Flow.window
    rw [none]
    split_ifs <;> rfl
  · have positive : 0 < t.unacked.length := length_pos_iff.2 some
    have narrow : t.unacked.length < 4 + 1 := by
      refine lt_of_lt_of_le (window may throttled) ?_
      unfold Flow.window
      split_ifs <;> decide
    have budget := (Flow.maySendFrame_of_pending throttled may).2 fun none => by
      rw [none] at pending
      exact absurd pending.symm (ne_of_gt positive)
    have acked : 1 ≤ t.acked := by
      refine Nat.pos_of_ne_zero fun zero => throttled (.inl ?_)
      rw [counts.lastAck, zero]
      rfl
    rw [unacked, length_drop] at narrow positive
    have total : (t.sizes.take t.acked).sum + t.unacked.sum = t.sizes.sum := by
      rw [unacked, ← sum_append, take_append_drop]
    rw [counts.lastAck, toNat_frame_mod, counts.snapshot _ acked (by omega) (by
      rw [ackRing]
      omega), counts.bytesSent, ← total, UInt64.ofNat_add, UInt64.add_comm,
      UInt64.add_sub_cancel, UInt64.lt_iff_toNat_lt, UInt64.toNat_ofNat',
      Nat.mod_eq_of_lt small] at budget
    exact budget

/-- **The flow control is exact.** In every run in which the acknowledgements name frames
that were sent, in order, and fewer than 2³² frames of fewer than 2⁶⁴ bytes are on
their way: a client that is up to date gets a frame, and while the sending is throttled
a frame goes out only behind fewer frames than the window, whose bytes are below the
budget. -/
theorem flow_exact (events : List FlowEvent) (orderly : Runs.Along step Orderly {} events)
    (few : (events.foldl step {}).unacked.length < 2 ^ 32)
    (small : (events.foldl step {}).unacked.sum < 2 ^ 64) : (events.foldl step {}).Exact := by
  refine Counts.exact (orderly.invariant (fun _ _ meets counts => counts.step meets) ?_) few small
  exact ⟨le_rfl, rfl, rfl, rfl, rfl, fun n positive inside => by
    exact absurd (lt_of_lt_of_le positive inside) (lt_irrefl _)⟩

theorem flow_exact_two : (FlowRun.Exact ([.sent 100, .acked 1 0, .sent 200].foldl step {})) :=
  flow_exact _ (by decide) (by decide) (by decide)

/-- Three frames that have 2⁶⁴ + 1 bytes together count as one byte. -/
theorem huge_frames_pass :
    Runs.Along step Orderly {} [.sent 1, .acked 1 suspendAcks, .sent (2 ^ 63 - 1),
      .sent (2 ^ 63 - 1), .sent 3, .acked 1 0] ∧
    ¬ FlowRun.Exact ([.sent 1, .acked 1 suspendAcks, .sent (2 ^ 63 - 1),
      .sent (2 ^ 63 - 1), .sent 3, .acked 1 0].foldl step {}) :=
  ⟨by decide, fun exact => absurd (exact.budget (by decide) (by decide) (by decide)) (by decide)⟩

end FlowRun

end RdpServer.Channels.Rdpgfx
