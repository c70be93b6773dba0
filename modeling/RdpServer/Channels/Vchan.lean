import Mathlib.Data.List.Induction
import RdpServer.Channels.Drdynvc

/-!
# Static virtual channels

`vchan.c`: a PDU of a static channel may come in fragments, from one with the FIRST
flag to one with the LAST flag. Only a fragment that carries both is passed on as it
came; every other PDU was announced with a length that the channel allows
(`feedPayload_complete`). The PDUs delivered are the whole ones (`delivers_iff`).
-/

namespace RdpServer.Channels

open Bytes List

def channelFlagFirst : Nat := 0x1

def channelFlagLast : Nat := 0x2

/-- `struct rdp_vc_reasm`. -/
structure VcReasm where
  maxPdu : Nat
  active : Bool := false
  cap : Nat := 0
  buf : Bytes := []
  deriving DecidableEq

namespace VcReasm

variable (r : VcReasm)

def reset : VcReasm := { maxPdu := r.maxPdu }

def collect (frag : Bytes) (flags : Nat) : VcReasm × Fed :=
  if !r.active then (r, .bad)
  else if frag.length > r.cap - r.buf.length then (r.reset, .bad)
  else
    let r := { r with buf := r.buf ++ frag }
    if flags &&& channelFlagLast ≠ 0 then (r, .complete r.buf) else (r, .more)

/-- `rdp_vc_reasm_feed`. -/
def feed (frag : Bytes) (total flags : Nat) : VcReasm × Fed :=
  if flags &&& channelFlagFirst ≠ 0 ∧ flags &&& channelFlagLast ≠ 0 then
    (r.reset, .complete frag)
  else if flags &&& channelFlagFirst ≠ 0 then
    if total = 0 ∨ total > r.maxPdu then (r.reset, .bad)
    else { r.reset with active := true, cap := total }.collect frag flags
  else r.collect frag flags

/-- `rdp_vc_reasm_feed_payload`. -/
def feedPayload (payload : Bytes) : VcReasm × Fed :=
  if payload.length < 8 then (r, .bad)
  else
    r.feed (payload.drop 8) (leValue (payload.take 4)) (leValue ((payload.drop 4).take 4))

structure Bounded : Prop where
  collected : r.buf.length ≤ r.cap
  allowed : r.cap ≤ r.maxPdu

variable {r}

theorem feedPayload_header (r : VcReasm) {total flags : Nat} (frag : Bytes)
    (fits : total < 2 ^ 32) (flagsFit : flags < 2 ^ 32) :
    r.feedPayload (leBytes 4 total ++ leBytes 4 flags ++ frag) = r.feed frag total flags := by
  have header : (leBytes 4 total ++ leBytes 4 flags).length = 8 := by
    rw [length_append, length_leBytes, length_leBytes]
  have long : ¬ (leBytes 4 total ++ leBytes 4 flags ++ frag).length < 8 := by
    rw [length_append]
    omega
  rw [VcReasm.feedPayload, if_neg long, drop_left' header, append_assoc,
    take_left' (length_leBytes 4 total), leValue_leBytes 4 total fits,
    leValue_field (length_leBytes 4 total) frag flagsFit]

theorem bounded_reset : r.reset.Bounded := ⟨Nat.le_refl 0, Nat.zero_le _⟩

theorem collect_more {frag : Bytes} {flags : Nat} (active : r.active = true)
    (room : frag.length ≤ r.cap - r.buf.length) (middle : flags &&& channelFlagLast = 0) :
    r.collect frag flags = ({ r with buf := r.buf ++ frag }, .more) := by
  rw [collect, active, if_neg (by decide), if_neg (Nat.not_lt.2 room),
    if_neg (not_not_intro middle)]

theorem collect_last {frag : Bytes} {flags : Nat} (active : r.active = true)
    (room : frag.length ≤ r.cap - r.buf.length) (last : flags &&& channelFlagLast ≠ 0) :
    r.collect frag flags = ({ r with buf := r.buf ++ frag }, .complete (r.buf ++ frag)) := by
  rw [collect, active, if_neg (by decide), if_neg (Nat.not_lt.2 room), if_pos last]

theorem collect_bounded (bounded : r.Bounded) (frag : Bytes) (flags : Nat) :
    (r.collect frag flags).1.Bounded ∧ (r.collect frag flags).1.maxPdu = r.maxPdu ∧
      ∀ pdu, (r.collect frag flags).2 = .complete pdu → pdu.length ≤ r.maxPdu := by
  unfold collect
  split_ifs with idle overrun last
  · exact ⟨bounded, rfl, fun pdu done => by cases done⟩
  · exact ⟨bounded_reset, rfl, fun pdu done => by cases done⟩
  all_goals
    have room : (r.buf ++ frag).length ≤ r.cap := by
      have collected := bounded.collected
      rw [length_append]
      omega
    refine ⟨⟨room, bounded.allowed⟩, rfl, fun pdu done => ?_⟩
    cases done
  exact le_trans room bounded.allowed

/-- **A PDU** is no longer than the channel allows, or than the payload that holds it. -/
theorem feedPayload_complete (bounded : r.Bounded) (payload : Bytes) :
    (r.feedPayload payload).1.Bounded ∧ (r.feedPayload payload).1.maxPdu = r.maxPdu ∧
      ∀ pdu, (r.feedPayload payload).2 = .complete pdu →
        pdu.length ≤ max r.maxPdu (payload.length - 8) := by
  unfold feedPayload
  split_ifs with short
  · exact ⟨bounded, rfl, fun pdu done => by cases done⟩
  · unfold feed
    split_ifs with single first refused
    · refine ⟨bounded_reset, rfl, fun pdu done => ?_⟩
      cases done
      rw [length_drop]
      exact le_max_right _ _
    · exact ⟨bounded_reset, rfl, fun pdu done => by cases done⟩
    · have begun : VcReasm.Bounded
          { r.reset with active := true, cap := leValue (payload.take 4) } :=
        ⟨Nat.zero_le _, Nat.le_of_not_lt fun large => refused (.inr large)⟩
      obtain ⟨kept, same, small⟩ := collect_bounded begun (payload.drop 8)
        (leValue ((payload.drop 4).take 4))
      exact ⟨kept, same, fun pdu done => Nat.le_trans (small pdu done) (Nat.le_max_left _ _)⟩
    · obtain ⟨kept, same, small⟩ := collect_bounded bounded (payload.drop 8)
        (leValue ((payload.drop 4).take 4))
      exact ⟨kept, same, fun pdu done => le_trans (small pdu done) (le_max_left _ _)⟩

end VcReasm

structure VcChunk where
  body : Bytes
  total : Nat
  flags : Nat
  deriving DecidableEq

namespace VcChunk

def first (c : VcChunk) : Bool := c.flags &&& channelFlagFirst ≠ 0

def last (c : VcChunk) : Bool := c.flags &&& channelFlagLast ≠ 0

def bodies (chunks : List VcChunk) : Bytes := chunks.flatMap body

end VcChunk

open VcChunk (bodies)

/-- The chunks of a PDU up to one that is not its last, within the declared and the configured
length. -/
structure Unfinished (maxPdu : Nat) (first : VcChunk) (rest : List VcChunk) : Prop where
  begins : first.first = true
  follow : ∀ c ∈ rest, c.first = false
  goesOn : ∀ c ∈ first :: rest, c.last = false
  positive : first.total ≠ 0
  allowed : first.total ≤ maxPdu
  fits : (bodies (first :: rest)).length ≤ first.total

/-- **The chunks of a whole PDU**: one with FIRST and LAST, or one with FIRST and those up to the
next with LAST, none of which has FIRST. -/
inductive Whole (maxPdu : Nat) : List VcChunk → Bytes → Prop
  | single {c : VcChunk} (begins : c.first = true) (ends : c.last = true) : Whole maxPdu [c] c.body
  | many {first last : VcChunk} {rest : List VcChunk} (unfinished : Unfinished maxPdu first rest)
      (follows : last.first = false) (ends : last.last = true)
      (fits : (bodies (first :: rest ++ [last])).length ≤ first.total) :
      Whole maxPdu (first :: rest ++ [last]) (bodies (first :: rest ++ [last]))

namespace VcReasm

/-- A chunk as the callers feed it: they reset the buffer when they are done with a PDU. -/
def next (r : VcReasm) (c : VcChunk) : VcReasm × Fed :=
  match r.feed c.body c.total c.flags with
  | (r, .complete pdu) => (r.reset, .complete pdu)
  | fed => fed

def after (maxPdu : Nat) (chunks : List VcChunk) : VcReasm :=
  chunks.foldl (fun r c => (r.next c).1) { maxPdu }

def holding (maxPdu : Nat) (first : VcChunk) (rest : List VcChunk) : VcReasm where
  maxPdu := maxPdu
  active := true
  cap := first.total
  buf := bodies (first :: rest)

section Chunks

variable {r : VcReasm} {maxPdu : Nat} {c first : VcChunk} {rest : List VcChunk}

theorem feed_chunk (r : VcReasm) (c : VcChunk) : r.feed c.body c.total c.flags =
    if c.first && c.last then (r.reset, .complete c.body)
    else if c.first then
      if c.total = 0 ∨ c.total > r.maxPdu then (r.reset, .bad)
      else { r.reset with active := true, cap := c.total }.collect c.body c.flags
    else r.collect c.body c.flags := by
  simp only [feed, VcChunk.first, VcChunk.last, ← Bool.decide_and, decide_eq_true_eq]

theorem next_collect (follows : c.first = false) : r.next c = match r.collect c.body c.flags with
    | (r, .complete pdu) => (r.reset, .complete pdu)
    | fed => fed := by
  simp [next, feed_chunk, follows]

theorem next_single (begins : c.first = true) (ends : c.last = true) :
    r.next c = (r.reset, .complete c.body) := by
  simp [next, feed_chunk, begins, ends, reset]

theorem collect_active (active : r.active = true) (held : r.buf.length ≤ r.cap) :
    r.collect c.body c.flags =
      if (r.buf ++ c.body).length ≤ r.cap then
        ({ r with buf := r.buf ++ c.body }, if c.last then .complete (r.buf ++ c.body) else .more)
      else (r.reset, .bad) := by
  rw [length_append, VcChunk.last]
  by_cases fits : r.buf.length + c.body.length ≤ r.cap
  · rw [if_pos fits]
    by_cases middle : c.flags &&& channelFlagLast = 0
    · rw [collect_more active (by omega) middle, if_neg (by simpa using middle)]
    · rw [collect_last active (by omega) middle, if_pos (by simpa using middle)]
  · rw [if_neg fits, collect, active, if_neg (by decide), if_pos (by omega)]

theorem next_begin (begins : c.first = true) (goesOn : c.last = false) :
    r.next c = if c.total ≠ 0 ∧ c.total ≤ r.maxPdu ∧ c.body.length ≤ c.total then
      (holding r.maxPdu c [], .more) else (r.reset, .bad) := by
  rw [next, feed_chunk, begins, goesOn, if_neg (by decide), if_pos rfl]
  by_cases refused : c.total = 0 ∨ c.total > r.maxPdu
  · rw [if_pos refused, if_neg (by omega)]
  · have collected := @collect_active { maxPdu := r.maxPdu, active := true, cap := c.total } c rfl
      (Nat.zero_le _)
    simp only [reset, refused, collected, goesOn]
    by_cases fits : c.body.length ≤ c.total
    · have ok : c.total ≠ 0 ∧ c.total ≤ r.maxPdu ∧ c.body.length ≤ c.total := by omega
      simp [ok, holding, bodies]
    · simp [fits]

theorem next_idle (follows : c.first = false) : VcReasm.next { maxPdu } c = ({ maxPdu }, .bad) := by
  rw [next_collect follows]
  rfl

theorem next_holding (follows : c.first = false)
    (held : (bodies (first :: rest)).length ≤ first.total) :
    (holding maxPdu first rest).next c =
      if (bodies (first :: rest ++ [c])).length ≤ first.total then
        if c.last then ({ maxPdu }, .complete (bodies (first :: rest ++ [c])))
        else (holding maxPdu first (rest ++ [c]), .more)
      else ({ maxPdu }, .bad) := by
  have joined : bodies (first :: rest) ++ c.body = bodies (first :: rest ++ [c]) := by
    simp [bodies]
  rw [next_collect follows, collect_active rfl held]
  simp only [holding, joined]
  split_ifs <;> rfl

theorem Unfinished.init {c : VcChunk} (unfinished : Unfinished maxPdu first (rest ++ [c])) :
    Unfinished maxPdu first rest ∧ c.first = false ∧ c.last = false ∧
      (bodies (first :: rest ++ [c])).length ≤ first.total := by
  have fits := unfinished.fits
  have shorter : (bodies (first :: rest)).length ≤ (bodies (first :: (rest ++ [c]))).length := by
    simp [bodies]
  refine ⟨⟨unfinished.begins, ?_, ?_, unfinished.positive, unfinished.allowed, by omega⟩,
    unfinished.follow c (by simp), unfinished.goesOn c (by simp), fits⟩
  · intro d member
    exact unfinished.follow d (by simp [member])
  · intro d member
    apply unfinished.goesOn d
    simp only [mem_cons, mem_append] at member ⊢
    tauto

theorem after_snoc (chunks : List VcChunk) : after maxPdu (chunks ++ [c]) =
    ((after maxPdu chunks).next c).1 := by
  rw [after, foldl_append]
  rfl

inductive Holds (maxPdu : Nat) : List VcChunk → VcReasm → Prop
  | idle (chunks : List VcChunk) : Holds maxPdu chunks { maxPdu }
  | begun (before : List VcChunk) {first : VcChunk} {rest : List VcChunk}
      (unfinished : Unfinished maxPdu first rest) :
      Holds maxPdu (before ++ first :: rest) (holding maxPdu first rest)

/-- What a chunk does: it leaves nothing, goes on with a PDU or ends one that is whole. -/
inductive Outcome (maxPdu : Nat) (chunks : List VcChunk) : VcReasm × Fed → Prop
  | error : Outcome maxPdu chunks ({ maxPdu }, .bad)
  | more {r : VcReasm} (held : Holds maxPdu chunks r) : Outcome maxPdu chunks (r, .more)
  | delivered {before span : List VcChunk} {pdu : Bytes} (split : chunks = before ++ span)
      (whole : Whole maxPdu span pdu) : Outcome maxPdu chunks ({ maxPdu }, .complete pdu)

theorem Holds.next {chunks : List VcChunk} (held : Holds maxPdu chunks r) (c : VcChunk) :
    Outcome maxPdu (chunks ++ [c]) (r.next c) := by
  have same : r.maxPdu = maxPdu := by
    cases held <;> rfl
  cases begins : c.first with
  | true =>
    cases ends : c.last with
    | true =>
      rw [next_single begins ends, reset, same]
      exact .delivered rfl (.single begins ends)
    | false =>
      rw [next_begin begins ends, reset, same]
      split_ifs with ok
      · refine .more (.begun chunks ⟨begins, by simp, ?_, ok.1, ok.2.1, ?_⟩)
        · simpa using ends
        · simpa [bodies] using ok.2.2
      · exact .error
  | false =>
    cases held with
    | idle =>
      rw [next_idle begins]
      exact .error
    | begun before unfinished =>
      rw [next_holding begins unfinished.fits, append_assoc]
      split_ifs with fits ends
      · exact .delivered rfl (.many unfinished begins ends fits)
      · refine .more (.begun before ⟨unfinished.begins, ?_, ?_, unfinished.positive,
          unfinished.allowed, fits⟩)
        · simpa [or_imp, forall_and, begins] using unfinished.follow
        · simpa [or_imp, forall_and, ends] using unfinished.goesOn
      · exact .error

theorem holds_after (maxPdu : Nat) (chunks : List VcChunk) :
    Holds maxPdu chunks (after maxPdu chunks) := by
  induction chunks using reverseRecOn with
  | nil => exact .idle []
  | append_singleton chunks c ih =>
    have outcome := ih.next c
    rw [after_snoc]
    generalize (after maxPdu chunks).next c = fed at outcome
    cases outcome with
    | error => exact .idle _
    | more held => exact held
    | delivered split whole => exact .idle _

theorem maxPdu_after (chunks : List VcChunk) : (after maxPdu chunks).maxPdu = maxPdu := by
  have held := holds_after maxPdu chunks
  generalize after maxPdu chunks = r at held
  cases held <;> rfl

theorem after_unfinished (before : List VcChunk) (unfinished : Unfinished maxPdu first rest) :
    after maxPdu (before ++ first :: rest) = holding maxPdu first rest := by
  induction rest using reverseRecOn with
  | nil =>
    have fits := unfinished.fits
    rw [after_snoc, next_begin unfinished.begins (unfinished.goesOn first (by simp)), maxPdu_after,
      if_pos ⟨unfinished.positive, unfinished.allowed, by simpa [bodies] using fits⟩]
  | append_singleton rest c ih =>
    obtain ⟨shorter, follows, goesOn, fits⟩ := Unfinished.init unfinished
    rw [← cons_append, ← append_assoc, after_snoc, ih shorter,
      next_holding follows shorter.fits, if_pos fits, goesOn]
    rfl

/-- **Every PDU delivered is a whole one, and every whole one is delivered**: for any chunks at all
before the one that ends it; and after an error nothing is left of the chunks before. -/
theorem delivers_iff (maxPdu : Nat) (chunks : List VcChunk) (c : VcChunk) :
    (∀ pdu, ((after maxPdu chunks).next c).2 = .complete pdu ↔
      ∃ before span, chunks ++ [c] = before ++ span ∧ Whole maxPdu span pdu) ∧
    (((after maxPdu chunks).next c).2 = .bad → after maxPdu (chunks ++ [c]) = { maxPdu }) := by
  have outcome := (holds_after maxPdu chunks).next c
  rw [after_snoc]
  refine ⟨fun pdu => ⟨fun done => ?_, ?_⟩, fun bad => ?_⟩
  · generalize (after maxPdu chunks).next c = fed at outcome done
    cases outcome with
    | delivered split whole =>
      cases done
      exact ⟨_, _, split, whole⟩
    | _ => cases done
  rotate_left
  · generalize (after maxPdu chunks).next c = fed at outcome bad
    cases outcome with
    | error => rfl
    | _ => cases bad
  rintro ⟨before, span, split, whole⟩
  cases whole with
  | single begins ends =>
    obtain ⟨rfl, same⟩ := append_inj' split rfl
    cases same
    rw [next_single begins ends]
  | @many first last rest unfinished follows ends fits =>
    rw [← append_assoc] at split
    obtain ⟨rfl, same⟩ := append_inj' split rfl
    cases same
    rw [after_unfinished before unfinished, next_holding follows unfinished.fits, if_pos fits,
      if_pos ends]

/-- **The buffer of a channel never overflows**: whatever chunks come, it holds no more than its
PDU was announced with, and the channel allows that. -/
theorem buffer_bounded (maxPdu : Nat) (chunks : List VcChunk) :
    (after maxPdu chunks).Bounded ∧ (after maxPdu chunks).maxPdu = maxPdu := by
  have held := holds_after maxPdu chunks
  generalize after maxPdu chunks = r at held
  cases held with
  | idle => exact ⟨⟨Nat.le_refl 0, Nat.zero_le _⟩, rfl⟩
  | begun before unfinished => exact ⟨⟨unfinished.fits, unfinished.allowed⟩, rfl⟩

end Chunks

end VcReasm

end RdpServer.Channels
