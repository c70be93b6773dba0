import Mathlib.Data.List.TakeWhile
import RdpServer.Sec.Nla

/-!
# Lines as `fgets` gives them

A reader with a buffer of 512 octets sees a file as lines that end in a newline or fill the buffer;
only the last one may be open (`chunked_fgetsAll`). Lines of that kind that are written one after
the other are read back as they are (`fgetsAll_flatten`).
-/

namespace RdpServer

open List

structure Line (line : Bytes) : Prop where
  filled : line ≠ []
  fits : line.length ≤ 511
  inner : 0x0a ∉ line.dropLast

def Closed (line : Bytes) : Prop := line.getLast? = some 0x0a ∨ line.length = 511

instance (line : Bytes) : Decidable (Closed line) :=
  inferInstanceAs (Decidable (_ ∨ _))

def Chunked : List Bytes → Prop
  | [] => True
  | line :: rest => Line line ∧ (Closed line ∨ rest = []) ∧ Chunked rest

theorem chunked_append {closed rest : List Bytes}
    (lines : ∀ line ∈ closed, Line line ∧ Closed line) (chunked : Chunked rest) :
    Chunked (closed ++ rest) := by
  induction closed with
  | nil => exact chunked
  | cons line closed ih =>
    obtain ⟨whole, ends⟩ := lines line mem_cons_self
    exact ⟨whole, Or.inl ends, ih fun other member => lines other (mem_cons_of_mem _ member)⟩

variable {line : Bytes}

theorem Line.takeWhile_append (whole : Line line) (rest : Bytes) :
    (line ++ rest).takeWhile (· ≠ 0x0a) =
      line.dropLast ++ (line.getLast whole.filled :: rest).takeWhile (· ≠ 0x0a) := by
  have split : line ++ rest = line.dropLast ++ (line.getLast whole.filled :: rest) := by
    rw [← singleton_append, ← append_assoc, dropLast_append_getLast]
  rw [split, takeWhile_append_of_pos]
  intro c member
  exact decide_eq_true fun same => whole.inner (same ▸ member)

theorem Line.fgets {rest : Bytes} (whole : Line line) (ends : Closed line ∨ rest = []) :
    (line ++ rest).take (fgetsLength 512 (line ++ rest)) = line ∧
      (line ++ rest).drop (fgetsLength 512 (line ++ rest)) = rest := by
  have count : line.dropLast.length + 1 = line.length := by
    have positive := length_pos_iff.2 whole.filled
    rw [length_dropLast]
    omega
  have length : fgetsLength 512 (line ++ rest) = line.length ∨
      (rest = [] ∧ line.length ≤ fgetsLength 512 (line ++ rest)) := by
    have fits := whole.fits
    unfold fgetsLength
    rw [whole.takeWhile_append, length_append]
    rcases ends with (newline | full) | nothing
    · have last : line.getLast whole.filled = 0x0a := by
        rw [getLast?_eq_getLast_of_ne_nil whole.filled] at newline
        exact Option.some.inj newline
      rw [last, takeWhile_cons_of_neg (by decide), length_nil]
      omega
    · omega
    · right
      exact ⟨nothing, by omega⟩
  rcases length with met | ⟨rfl, enough⟩
  · rw [met]
    exact ⟨take_left, drop_left⟩
  · rw [append_nil] at enough ⊢
    exact ⟨take_of_length_le enough, drop_of_length_le enough⟩

theorem fgetsAll_flatten {lines : List Bytes} (chunked : Chunked lines) {rounds : Nat}
    (enough : lines.length ≤ rounds) : fgetsAll 512 rounds lines.flatten = lines := by
  induction lines generalizing rounds with
  | nil => cases rounds <;> rfl
  | cons line rest ih =>
    obtain ⟨whole, ends, chunked⟩ := chunked
    cases rounds with
    | zero => simp at enough
    | succ rounds =>
      have behind : Closed line ∨ rest.flatten = [] :=
        ends.imp_right fun nothing => by rw [nothing]; rfl
      obtain ⟨taken, dropped⟩ := whole.fgets behind
      have filled : ¬ (line ++ rest.flatten).isEmpty = true := by
        simp [whole.filled]
      rw [flatten_cons, fgetsAll, if_neg filled, taken, dropped, ih chunked (by simpa using enough)]

theorem length_le_flatten {lines : List Bytes} (chunked : Chunked lines) :
    lines.length ≤ lines.flatten.length := by
  induction lines with
  | nil => exact le_rfl
  | cons line rest ih =>
    obtain ⟨whole, -, chunked⟩ := chunked
    have positive := length_pos_iff.2 whole.filled
    have others := ih chunked
    rw [flatten_cons, length_append, length_cons]
    omega

theorem line_of_newline {before : Bytes} (plain : 0x0a ∉ before)
    (fits : before.length < 511) : Line (before ++ [0x0a]) ∧ Closed (before ++ [0x0a]) := by
  have count : (before ++ [0x0a]).length ≤ 511 := by
    rw [length_append, length_singleton]
    omega
  refine ⟨⟨by simp, count, ?_⟩, Or.inl getLast?_concat⟩
  rw [dropLast_concat]
  exact plain

theorem line_of_plain (filled : line ≠ []) (plain : 0x0a ∉ line) (fits : line.length ≤ 511) :
    Line line :=
  ⟨filled, fits, fun member => plain (dropLast_subset _ member)⟩

theorem line_fgets {file : Bytes} (filled : file ≠ []) :
    Line (file.take (fgetsLength 512 file)) ∧
      (Closed (file.take (fgetsLength 512 file)) ∨ file.drop (fgetsLength 512 file) = []) := by
  have split := takeWhile_append_dropWhile (p := (· ≠ (0x0a : UInt8))) (l := file)
  have plain : 0x0a ∉ file.takeWhile (· ≠ 0x0a) := fun member => by
    simpa using mem_takeWhile_imp member
  have stops : ∀ c behind, file.dropWhile (· ≠ 0x0a) = c :: behind → c = 0x0a := by
    intro c behind rest
    have head := head?_dropWhile_not (· ≠ (0x0a : UInt8)) file
    rw [rest] at head
    simpa using head
  unfold fgetsLength
  generalize file.takeWhile (· ≠ 0x0a) = before at split plain ⊢
  generalize file.dropWhile (· ≠ 0x0a) = behind at split stops
  subst split
  by_cases short : before.length < 511
  · rw [show min (before.length + 1) (512 - 1) = before.length + 1 by omega, take_append,
      drop_append, take_of_length_le (by omega), drop_of_length_le (by omega)]
    cases behind with
    | nil =>
      simp only [append_nil, take_nil, drop_nil, or_true, and_true] at filled ⊢
      exact line_of_plain filled plain (by omega)
    | cons c behind =>
      rw [stops c behind rfl, show before.length + 1 - before.length = 1 by omega]
      obtain ⟨line, closed⟩ := line_of_newline plain short
      exact ⟨line, Or.inl closed⟩
  · have count : min (before.length + 1) (512 - 1) = 511 := by omega
    rw [count, take_append_of_le_length (by omega)]
    have length : (before.take 511).length = 511 := by
      rw [length_take]
      omega
    refine ⟨line_of_plain ?_ ?_ (le_of_eq length), Or.inl (Or.inr length)⟩
    · intro nothing
      simp [nothing] at length
    · exact fun member => plain (mem_of_mem_take member)

theorem chunked_fgetsAll (rounds : Nat) (file : Bytes) :
    Chunked (fgetsAll 512 rounds file) := by
  induction rounds generalizing file with
  | zero => exact True.intro
  | succ rounds ih =>
    by_cases filled : file = []
    · subst filled
      exact True.intro
    · rw [fgetsAll, if_neg (by simpa using filled)]
      obtain ⟨line, ends⟩ := line_fgets filled
      refine ⟨line, ends.imp_right fun nothing => ?_, ih _⟩
      rw [nothing]
      cases rounds <;> rfl

end RdpServer
