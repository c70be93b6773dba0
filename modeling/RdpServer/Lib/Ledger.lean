import Mathlib.Data.List.Nodup

/-!
# Books of requests and replies

What a server sends for a cause may be a request with an id, and then the cause waits for the
reply to that id; what it sends upon a reply belongs to the cause that waited for it. The book
of a run keeps, for each cause, what was sent for it and which replies it got. The rules at the
end carry a property of all records over a step.
-/

namespace Ledger

open List Option

variable {κ ρ δ ι : Type}

structure Record (κ ρ δ ι : Type) where
  cause : κ
  outputs : List δ
  replies : List ρ := []
  waiting : Option ι

def Record.answered (record : Record κ ρ δ ι) (reply : ρ) (outputs : List δ)
    (waiting : Option ι) : Record κ ρ δ ι :=
  { record with
    outputs := record.outputs ++ outputs, replies := record.replies ++ [reply], waiting := waiting }

structure Book (κ ρ δ ι : Type) where
  records : List (Record κ ρ δ ι) := []
  strays : List δ := []

def waitsOf (records : List (Record κ ρ δ ι)) : List ι := records.filterMap Record.waiting

namespace Book

variable (book : Book κ ρ δ ι)

def waits : List ι := waitsOf book.records

def opens (cause : κ) (outputs : List δ) (waiting : Option ι) : Book κ ρ δ ι :=
  { book with records := book.records ++
    [{ cause := cause, outputs := outputs, waiting := waiting }] }

variable [DecidableEq ι]

def answerIn (id : ι) (reply : ρ) (outputs : List δ) (waiting : Option ι) :
    List (Record κ ρ δ ι) → Option (List (Record κ ρ δ ι))
  | [] => none
  | record :: rest =>
    if record.waiting = some id then some (record.answered reply outputs waiting :: rest)
    else (answerIn id reply outputs waiting rest).map (record :: ·)

def answers (id : ι) (reply : ρ) (outputs : List δ) (waiting : Option ι) : Book κ ρ δ ι :=
  match answerIn id reply outputs waiting book.records with
  | none => { book with strays := book.strays ++ outputs }
  | some records => { book with records := records }

end Book

section Rules

variable {book : Book κ ρ δ ι} {record other : Record κ ρ δ ι} {records : List (Record κ ρ δ ι)}
  {id : ι} {reply : ρ} {outputs : List δ} {waiting : Option ι} {cause : κ}

theorem mem_waitsOf : id ∈ waitsOf records ↔ ∃ record ∈ records, record.waiting = some id :=
  mem_filterMap

theorem waitsOf_append (front back : List (Record κ ρ δ ι)) :
    waitsOf (front ++ back) = waitsOf front ++ waitsOf back := List.filterMap_append

theorem waitsOf_cons (record : Record κ ρ δ ι) (records : List (Record κ ρ δ ι)) :
    waitsOf (record :: records) = record.waiting.toList ++ waitsOf records := by
  rw [waitsOf, filterMap_cons]
  cases record.waiting <;> rfl

theorem waiting_ne_of_nodup {front rest : List (Record κ ρ δ ι)}
    (nodup : (waitsOf (front ++ record :: rest)).Nodup) (waits : record.waiting = some id) :
    ∀ other ∈ front ++ rest, other.waiting ≠ some id := by
  intro other member same
  have twice : id ∈ waitsOf (front ++ rest) := mem_waitsOf.2 ⟨other, member, same⟩
  rw [waitsOf_append, waitsOf_cons, waits] at nodup
  rw [waitsOf_append] at twice
  exact (nodup_cons.1 (nodup_middle.1 nodup)).1 twice

theorem eq_of_waiting (nodup : (waitsOf records).Nodup) (first : record ∈ records)
    (second : other ∈ records) (waits : record.waiting = some id)
    (alsoWaits : other.waiting = some id) : record = other := by
  obtain ⟨front, rest, rfl⟩ := append_of_mem first
  have others := waiting_ne_of_nodup nodup waits
  rcases mem_cons.1 (perm_middle.mem_iff.1 second) with rfl | second
  · rfl
  · exact (others other second alsoWaits).elim

theorem mem_waits_opens {x : ι} :
    x ∈ (book.opens cause outputs waiting).waits ↔ x ∈ book.waits ∨ waiting = some x := by
  rw [Book.waits, Book.opens, waitsOf_append, mem_append, waitsOf_cons]
  simp [Book.waits, waitsOf]

theorem nodup_opens (nodup : book.waits.Nodup) (fresh : ∀ x, waiting = some x → x ∉ book.waits) :
    (book.opens cause outputs waiting).waits.Nodup := by
  rw [Book.waits, Book.opens, waitsOf_append, waitsOf_cons]
  cases waiting with
  | none =>
    rw [toList_none, nil_append]
    exact (append_nil _).symm ▸ nodup
  | some x =>
    refine nodup_append.2 ⟨nodup, nodup_singleton x, fun y earlier z here same => ?_⟩
    rw [mem_singleton.1 here] at same
    exact fresh x rfl (same ▸ earlier)

variable {P Q : Record κ ρ δ ι → Prop}

theorem each_opens (each : ∀ record ∈ book.records, P record)
    (frame : ∀ record, P record → Q record)
    (new : Q { cause := cause, outputs := outputs, waiting := waiting }) :
    ∀ record ∈ (book.opens cause outputs waiting).records, Q record := by
  intro record member
  rcases mem_append.1 member with old | isNew
  · exact frame record (each record old)
  · rw [mem_singleton.1 isNew]
    exact new

variable [DecidableEq ι]

theorem answerIn_cases (id : ι) (reply : ρ) (outputs : List δ) (waiting : Option ι)
    (records : List (Record κ ρ δ ι)) :
    (id ∉ waitsOf records ∧ Book.answerIn id reply outputs waiting records = none) ∨
      ∃ front record rest, records = front ++ record :: rest ∧ record.waiting = some id ∧
        Book.answerIn id reply outputs waiting records =
          some (front ++ record.answered reply outputs waiting :: rest) := by
  induction records with
  | nil => exact .inl ⟨not_mem_nil, rfl⟩
  | cons record rest ih =>
    rw [Book.answerIn]
    by_cases here : record.waiting = some id
    · exact .inr ⟨[], record, rest, rfl, here, if_pos here⟩
    · rw [if_neg here]
      rcases ih with ⟨absent, none⟩ | ⟨front, found, back, split, waits, answered⟩
      · refine .inl ⟨fun member => ?_, by rw [none]; rfl⟩
        obtain ⟨other, isIn, waits⟩ := mem_waitsOf.1 member
        rcases mem_cons.1 isIn with rfl | later
        · exact here waits
        · exact absent (mem_waitsOf.2 ⟨other, later, waits⟩)
      · exact .inr ⟨record :: front, found, back, by rw [split]; rfl, waits, by rw [answered]; rfl⟩

theorem answers_stray (absent : id ∉ book.waits) :
    book.answers id reply outputs waiting = { book with strays := book.strays ++ outputs } := by
  rcases answerIn_cases id reply outputs waiting book.records with
    ⟨_, none⟩ | ⟨front, record, rest, split, waits, _⟩
  · rw [Book.answers, none]
  · refine (absent (mem_waitsOf.2 ⟨record, ?_, waits⟩)).elim
    rw [split]
    exact mem_append_right front mem_cons_self

theorem answers_found (present : id ∈ book.waits) (reply : ρ) (outputs : List δ)
    (waiting : Option ι) :
    ∃ front record rest, book.records = front ++ record :: rest ∧ record.waiting = some id ∧
      book.answers id reply outputs waiting =
        { book with records := front ++ record.answered reply outputs waiting :: rest } := by
  rcases answerIn_cases id reply outputs waiting book.records with
    ⟨absent, _⟩ | ⟨front, record, rest, split, waits, answered⟩
  · exact (absent present).elim
  · refine ⟨front, record, rest, split, waits, ?_⟩
    rw [Book.answers, answered]

theorem map_cause_answers (book : Book κ ρ δ ι) (id : ι) (reply : ρ) (outputs : List δ)
    (waiting : Option ι) :
    (book.answers id reply outputs waiting).records.map Record.cause =
      book.records.map Record.cause := by
  by_cases present : id ∈ book.waits
  · obtain ⟨front, record, rest, split, _, answered⟩ := answers_found present reply outputs waiting
    rw [answered, split, map_append, map_append, map_cons, map_cons]
    rfl
  · rw [answers_stray present]

theorem mem_answers_of_ne (member : record ∈ book.records) (other : record.waiting ≠ some id) :
    record ∈ (book.answers id reply outputs waiting).records := by
  by_cases present : id ∈ book.waits
  · obtain ⟨front, found, rest, split, waits, answered⟩ :=
      answers_found present reply outputs waiting
    rw [answered]
    rw [split] at member
    rcases mem_cons.1 (perm_middle.mem_iff.1 member) with rfl | member
    · exact (other waits).elim
    · exact perm_middle.mem_iff.2 (.tail _ member)
  · rw [answers_stray present]
    exact member

theorem mem_answers_self (nodup : book.waits.Nodup) (member : record ∈ book.records)
    (waits : record.waiting = some id) :
    record.answered reply outputs waiting ∈ (book.answers id reply outputs waiting).records := by
  obtain ⟨front, found, rest, split, alsoWaits, answered⟩ :=
    answers_found (mem_waitsOf.2 ⟨record, member, waits⟩) reply outputs waiting
  have isIn : found ∈ book.records := split ▸ mem_append_right _ mem_cons_self
  rw [answered, eq_of_waiting nodup member isIn waits alsoWaits]
  exact mem_append_right _ mem_cons_self

theorem mem_waits_answers {x : ι} (nodup : book.waits.Nodup) (present : id ∈ book.waits) :
    x ∈ (book.answers id reply outputs waiting).waits ↔
      x ∈ book.waits ∧ x ≠ id ∨ waiting = some x := by
  obtain ⟨front, record, rest, split, waits, answered⟩ :=
    answers_found present reply outputs waiting
  rw [Book.waits, split] at nodup
  have others : x ∈ waitsOf (front ++ rest) → x ≠ id := by
    rintro member rfl
    obtain ⟨other, isIn, same⟩ := mem_waitsOf.1 member
    exact waiting_ne_of_nodup nodup waits other isIn same
  rw [answered, Book.waits, Book.waits, split]
  simp only [waitsOf_append, waitsOf_cons, waits, Record.answered, mem_append,
    mem_toList, some.injEq] at others ⊢
  grind

theorem nodup_answers (nodup : book.waits.Nodup) (present : id ∈ book.waits)
    (fresh : ∀ x, waiting = some x → x ∈ book.waits → x = id) :
    (book.answers id reply outputs waiting).waits.Nodup := by
  obtain ⟨front, record, rest, split, waits, answered⟩ :=
    answers_found present reply outputs waiting
  rw [Book.waits, split] at nodup fresh
  rw [answered, Book.waits]
  rw [waitsOf_append, waitsOf_cons] at nodup fresh ⊢
  rw [waits] at nodup fresh
  have middle := nodup_cons.1 (nodup_middle.1 nodup)
  cases waiting with
  | none => exact middle.2
  | some x =>
    refine nodup_middle.2 (nodup_cons.2 ⟨fun member => middle.1 ?_, middle.2⟩)
    have same : x = id := fresh x rfl (perm_middle.mem_iff.2 (.tail _ member))
    exact same ▸ member

theorem each_answers (nodup : book.waits.Nodup)
    (present : id ∈ book.waits) (each : ∀ record ∈ book.records, P record)
    (frame : ∀ record, P record → record.waiting ≠ some id → Q record)
    (here : ∀ record, record ∈ book.records → P record → record.waiting = some id →
      Q (record.answered reply outputs waiting)) :
    ∀ record ∈ (book.answers id reply outputs waiting).records, Q record := by
  obtain ⟨front, found, rest, split, waits, answered⟩ :=
    answers_found present reply outputs waiting
  rw [Book.waits, split] at nodup
  have others := waiting_ne_of_nodup nodup waits
  intro record member
  rw [answered] at member
  rcases mem_cons.1 (perm_middle.mem_iff.1 member) with rfl | member
  · have isIn : found ∈ book.records := split ▸ mem_append_right _ mem_cons_self
    exact here found isIn (each found isIn) waits
  · have isIn : record ∈ book.records := split ▸ perm_middle.mem_iff.2 (.tail _ member)
    exact frame record (each record isIn) (others record member)

end Rules

end Ledger
