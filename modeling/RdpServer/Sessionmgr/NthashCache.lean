import RdpServer.Lib.Runs
import RdpServer.Sec.FgetsLines

/-!
# The cache of NT hashes

`cache_nthash` writes the file of NT hashes anew: it copies the lines as `fgets` gives them into a
buffer of 512 octets, and puts the entry of the user in the place of the lines with that name. As
long as no copied line runs into what is written behind it and the names fit the buffer, the
file is a map from users to hashes (`lookup_after_caching`).
-/

namespace RdpServer

open Bytes List

/-- `rdp_md4`, which fails if the library does. -/
structure Md4 where
  md4 : Bytes → Option Bytes
  sized : ∀ {data hash}, md4 data = some hash → hash.length = 16

/-- A digit of the format `%02x`. -/
def lowerHexDigit (n : Nat) : UInt8 := low (if n < 10 then 0x30 + n else 0x57 + n)

def hexText (hash : Bytes) : Bytes :=
  hash.flatMap fun c => [lowerHexDigit (c.toNat / 16), lowerHexDigit (c.toNat % 16)]

def nthashEntry (user hash : Bytes) : Bytes := user ++ 0x3a :: (hexText hash ++ [0x0a])

def nthashNamed (user line : Bytes) : Bool :=
  decide (line.drop (line.takeWhile (· ≠ 0x3a)).length ≠ [] ∧ line.takeWhile (· ≠ 0x3a) = user)

def rewriteNthashes (user hash : Bytes) (lines : List Bytes) : Bytes :=
  (lines.flatMap fun line => if nthashNamed user line then nthashEntry user hash else line) ++
    if lines.any (nthashNamed user) then [] else nthashEntry user hash

structure HashCall where
  user : Bytes
  pass : Bytes
  userEnded : 0 ∉ user
  passEnded : 0 ∉ pass

/-- The hash that a call stores, if it accepts the name and can hash the password. -/
def HashCall.hash (md4 : Md4) (call : HashCall) : Option Bytes :=
  if call.user.isEmpty || call.user.any (fun c => c = 0x3a || c = 0x0d || c = 0x0a) then none
  else
    let converted := rdpUtf8ToUtf16le [] 512 call.pass
    converted.2.bind fun n => if n > 512 then none else md4.md4 (converted.1.take n)

/-- `cache_nthash`; there may be no file yet. -/
def cacheNthash (md4 : Md4) (nthashes : Option Bytes) (call : HashCall) :
    Option Bytes :=
  match call.hash md4 with
  | none => nthashes
  | some hash =>
    some (rewriteNthashes call.user hash ((nthashes.map nthashLines).getD []))

theorem hex2byte_lowerHexDigit {n : Nat} (small : n < 16) :
    hex2byte (lowerHexDigit n) = some n := by
  have all : ∀ n : Fin 16, hex2byte (lowerHexDigit n) = some n.val := by decide
  exact all ⟨n, small⟩

theorem hex2byte_of_mem_hexText {hash : Bytes} {c : UInt8} (member : c ∈ hexText hash) :
    hex2byte c ≠ none := by
  obtain ⟨octet, -, digit⟩ := mem_flatMap.1 member
  have size := octet.toNat_lt
  rcases mem_pair.1 digit with rfl | rfl
  · rw [hex2byte_lowerHexDigit (by omega)]
    exact nofun
  · rw [hex2byte_lowerHexDigit (by omega)]
    exact nofun

theorem length_hexText (hash : Bytes) : (hexText hash).length = 2 * hash.length := by
  simp [hexText, Nat.mul_comm]

theorem hexOctets_hexText (hash rest : Bytes) :
    hexOctets hash.length (hexText hash ++ rest) = some hash := by
  induction hash with
  | nil => rfl
  | cons c hash ih =>
    have size := c.toNat_lt
    have split : hexText (c :: hash) ++ rest = lowerHexDigit (c.toNat / 16) ::
      lowerHexDigit (c.toNat % 16) :: (hexText hash ++ rest) := rfl
    have joined : low ((c.toNat / 16) <<< 4 ||| c.toNat % 16) = c := by
      rw [Nat.shiftLeft_eq, Nat.mul_comm,
        ← Nat.two_pow_add_eq_or_of_lt (Nat.mod_lt _ (by omega)), Nat.div_add_mod, low_toNat]
    rw [split, length_cons, hexOctets, hex2byte_lowerHexDigit (by omega),
      hex2byte_lowerHexDigit (by omega), ih]
    simp [joined]

/-- A name that can be read back from its line, and a hash of the right size. -/
structure Storable (user hash : Bytes) : Prop where
  ended : 0 ∉ user
  colonless : 0x3a ∉ user
  plain : 0x0a ∉ user
  fits : user.length ≤ 478
  sized : hash.length = 16

/-- The lines in which the entry of a user is read: the digits of the longest names fill the
buffer without the newline. -/
def entryLines (user hash : Bytes) : List Bytes :=
  if user.length = 478 then [user ++ 0x3a :: hexText hash, [0x0a]] else [nthashEntry user hash]

theorem flatten_entryLines (user hash : Bytes) :
    (entryLines user hash).flatten = nthashEntry user hash := by
  unfold entryLines nthashEntry
  split_ifs with longest
  · simp
  · simp

theorem entryLines_eq (user hash : Bytes) :
    ∃ tail more, entryLines user hash = (user ++ 0x3a :: (hexText hash ++ tail)) :: more ∧
      (tail = [] ∨ tail = [0x0a]) ∧ ∀ line ∈ more, line = [0x0a] := by
  unfold entryLines nthashEntry
  split_ifs with longest
  · exact ⟨[], [[0x0a]], by rw [append_nil], Or.inl rfl, fun line => mem_singleton.1⟩
  · exact ⟨[0x0a], [], rfl, Or.inr rfl, fun line member => by cases member⟩

theorem lookupLines_cons (user line : Bytes) (rest : List Bytes) :
    lookupLines user (line :: rest) =
      if nthashNamed user line then
        hexOctets 16 ((line.drop (user.length + 1)).dropWhile (· = 0x20))
      else lookupLines user rest := by
  rw [lookupLines, nthashNamed]
  by_cases named : line.drop (line.takeWhile (· ≠ 0x3a)).length ≠ [] ∧
      line.takeWhile (· ≠ 0x3a) = user
  · rw [if_pos named, if_pos (decide_eq_true named), named.2]
  · rw [if_neg named, if_neg (by simpa using named)]

section Entry

variable {user hash : Bytes}

theorem hexText_plain {c : UInt8} (member : c ∈ hexText hash) :
    c ≠ 0 ∧ c ≠ 0x0a ∧ c ≠ 0x20 := by
  have digit := hex2byte_of_mem_hexText member
  refine ⟨?_, ?_, ?_⟩
  all_goals
    rintro rfl
    exact digit (by decide)

variable (storable : Storable user hash)
include storable

theorem Storable.entryLines_closed : ∀ line ∈ entryLines user hash, Line line ∧ Closed line := by
  have fits := storable.fits
  have digits := length_hexText hash
  have sized := storable.sized
  have plain : 0x0a ∉ user ++ 0x3a :: hexText hash := by
    intro member
    rcases mem_append.1 member with inside | inside
    · exact storable.plain inside
    · rcases mem_cons.1 inside with colon | inside
      · exact absurd colon (by decide)
      · exact (hexText_plain inside).2.1 rfl
  have count : (user ++ 0x3a :: hexText hash).length = user.length + 33 := by
    rw [length_append, length_cons]
    omega
  intro line member
  unfold entryLines at member
  split_ifs at member with longest
  · rcases mem_pair.1 member with rfl | rfl
    · exact ⟨line_of_plain (by simp) plain (by omega), Or.inr (by omega)⟩
    · exact line_of_newline not_mem_nil (by decide)
  · obtain rfl := mem_singleton.1 member
    have split : nthashEntry user hash = (user ++ 0x3a :: hexText hash) ++ [0x0a] := by
      simp [nthashEntry]
    rw [split]
    exact line_of_newline plain (by omega)

theorem Storable.entryLines_ended : ∀ line ∈ entryLines user hash, 0 ∉ line := by
  have whole : 0 ∉ nthashEntry user hash := by
    intro zero
    rcases mem_append.1 zero with inside | inside
    · exact storable.ended inside
    · rcases mem_cons.1 inside with colon | inside
      · exact absurd colon (by decide)
      · rcases mem_append.1 inside with digit | newline
        · exact (hexText_plain digit).1 rfl
        · exact absurd (mem_singleton.1 newline) (by decide)
  intro line member zero
  refine whole ?_
  rw [← flatten_entryLines]
  exact mem_flatten.2 ⟨line, member, zero⟩

theorem Storable.takeWhile_user (rest : Bytes) :
    (user ++ 0x3a :: rest).takeWhile (· ≠ 0x3a) = user := by
  rw [takeWhile_append_of_pos, takeWhile_cons_of_neg (by decide), append_nil]
  intro c member
  exact decide_eq_true fun same => storable.colonless (same ▸ member)

theorem Storable.nthashNamed_line (other rest : Bytes) :
    nthashNamed other (user ++ 0x3a :: rest) = decide (user = other) := by
  rw [nthashNamed, storable.takeWhile_user]
  simp

theorem Storable.lookup_self (rest : List Bytes) :
    lookupLines user (entryLines user hash ++ rest) = some hash := by
  obtain ⟨tail, more, split, -, -⟩ := entryLines_eq user hash
  have behind : (user ++ 0x3a :: (hexText hash ++ tail)).drop (user.length + 1) =
      hexText hash ++ tail := by
    rw [drop_append, drop_of_length_le (by omega), Nat.add_sub_cancel_left]
    rfl
  have digits : (hexText hash ++ tail).dropWhile (· = 0x20) = hexText hash ++ tail := by
    rcases read : hexText hash with _ | ⟨c, digits⟩
    · have count := length_hexText hash
      rw [read, storable.sized] at count
      cases count
    · have other : c ≠ 0x20 := (@hexText_plain hash c (by rw [read]; simp)).2.2
      exact dropWhile_cons_of_neg (by simpa using other)
  rw [split, cons_append, lookupLines_cons, storable.nthashNamed_line, if_pos (by simp),
    behind, digits, ← storable.sized]
  exact hexOctets_hexText hash tail

theorem Storable.lookup_other {other : Bytes} (differ : other ≠ user)
    (rest : List Bytes) :
    lookupLines other (entryLines user hash ++ rest) = lookupLines other rest := by
  obtain ⟨tail, more, split, -, newlines⟩ := entryLines_eq user hash
  have skip : lookupLines other (more ++ rest) = lookupLines other rest := by
    clear split
    induction more with
    | nil => rfl
    | cons line more ih =>
      obtain rfl := newlines line mem_cons_self
      exact ih fun line member => newlines line (mem_cons_of_mem _ member)
  rw [split, cons_append, lookupLines_cons, storable.nthashNamed_line, if_neg, skip]
  simpa using differ.symm

end Entry

/-- What is read where a line is copied or replaced; nothing, if it is the empty string. -/
def copiedLines (user hash chunk : Bytes) : List Bytes :=
  if nthashNamed user (cString chunk) then entryLines user hash
  else if cString chunk = [] then [] else [cString chunk]

/-- The lines of the new file, where a line of the user may have been found before. -/
def rewrittenLines (user hash : Bytes) (found : Bool) (chunks : List Bytes) :
    List Bytes :=
  chunks.flatMap (copiedLines user hash) ++
    if found || chunks.any (fun chunk => nthashNamed user (cString chunk)) then []
    else entryLines user hash

/-- The lines stay apart: each one is replaced, is the empty string, is copied with its end, or
nothing is written behind it. -/
def keepsLines (user : Bytes) : (found : Bool) → List Bytes → Bool
  | _, [] => true
  | found, chunk :: chunks =>
    if nthashNamed user (cString chunk) then keepsLines user true chunks
    else (decide (cString chunk = []) || decide (0 ∉ chunk ∧ Closed chunk) ||
        (found && chunks.isEmpty)) && keepsLines user found chunks

theorem zero_notMem_cString (line : Bytes) : 0 ∉ cString line := fun member => by
  simpa using mem_takeWhile_imp member

theorem cString_eq_self {line : Bytes} (ended : 0 ∉ line) : cString line = line :=
  takeWhile_eq_self_iff.2 fun _ member => decide_eq_true fun same => ended (same ▸ member)

theorem Line.front {chunk : Bytes} (line : Line chunk) (filled : cString chunk ≠ []) :
    Line (cString chunk) := by
  have front : cString chunk <+: chunk := takeWhile_prefix _
  refine ⟨filled, front.length_le.trans line.fits, fun newline => line.inner ?_⟩
  obtain ⟨rest, whole⟩ := front
  by_cases nothing : rest = []
  · rw [nothing, append_nil] at whole
    exact whole ▸ newline
  · rw [← whole, dropLast_append_of_ne_nil nothing]
    exact mem_append_left _ (dropLast_subset _ newline)

section Rewritten

variable {user hash : Bytes} {chunks : List Bytes} {found : Bool}

theorem flatten_copiedLines (user hash chunk : Bytes) :
    (copiedLines user hash chunk).flatten =
      if nthashNamed user (cString chunk) then nthashEntry user hash else cString chunk := by
  unfold copiedLines
  split_ifs with named nothing
  · exact flatten_entryLines user hash
  · rw [nothing]
    rfl
  · simp

theorem flatten_rewrittenLines (user hash : Bytes) (chunks : List Bytes) :
    (rewrittenLines user hash false chunks).flatten =
      rewriteNthashes user hash (chunks.map cString) := by
  have copies : (chunks.flatMap (copiedLines user hash)).flatten =
      (chunks.map cString).flatMap fun line =>
        if nthashNamed user line then nthashEntry user hash else line := by
    induction chunks with
    | nil => rfl
    | cons chunk chunks ih =>
      rw [flatMap_cons, flatten_append, ih, flatten_copiedLines, map_cons, flatMap_cons]
  rw [rewrittenLines, rewriteNthashes, flatten_append, any_map, Bool.false_or]
  congr 1
  simp only [Function.comp_def]
  split_ifs with listed
  · rfl
  · exact flatten_entryLines user hash

theorem mem_rewrittenLines {line : Bytes}
    (member : line ∈ rewrittenLines user hash found chunks) :
    line ∈ entryLines user hash ∨ ∃ chunk ∈ chunks, line = cString chunk := by
  rcases mem_append.1 member with copied | appended
  · obtain ⟨chunk, listed, inside⟩ := mem_flatMap.1 copied
    unfold copiedLines at inside
    split_ifs at inside
    · exact .inl inside
    · cases inside
    · exact .inr ⟨chunk, listed, mem_singleton.1 inside⟩
  · split_ifs at appended
    · cases appended
    · exact .inl appended

theorem Storable.rewrittenLines_ended (storable : Storable user hash) :
    ∀ line ∈ rewrittenLines user hash found chunks, 0 ∉ line := by
  intro line member
  rcases mem_rewrittenLines member with entry | ⟨chunk, -, rfl⟩
  · exact storable.entryLines_ended line entry
  · exact zero_notMem_cString chunk

theorem rewrittenLines_cons (user hash chunk : Bytes) (chunks : List Bytes)
    (found : Bool) :
    rewrittenLines user hash found (chunk :: chunks) =
      copiedLines user hash chunk ++
        rewrittenLines user hash (found || nthashNamed user (cString chunk)) chunks := by
  rw [rewrittenLines, rewrittenLines, flatMap_cons, append_assoc, any_cons, Bool.or_assoc]

variable (storable : Storable user hash)
include storable

theorem Storable.chunked_rewrittenLines (chunked : Chunked chunks)
    (kept : keepsLines user found chunks = true) :
    Chunked (rewrittenLines user hash found chunks) := by
  induction chunks generalizing found with
  | nil =>
    rw [rewrittenLines, flatMap_nil, nil_append]
    split_ifs
    · exact True.intro
    · rw [← append_nil (entryLines user hash)]
      exact chunked_append storable.entryLines_closed True.intro
  | cons chunk chunks ih =>
    obtain ⟨line, -, chunked⟩ := chunked
    rw [rewrittenLines_cons, copiedLines]
    rw [keepsLines] at kept
    by_cases named : nthashNamed user (cString chunk) = true
    · rw [if_pos named] at kept ⊢
      rw [named, Bool.or_true]
      exact chunked_append storable.entryLines_closed (ih chunked kept)
    · rw [if_neg named, Bool.and_eq_true] at kept
      rw [Bool.eq_false_iff.2 named, Bool.or_false]
      obtain ⟨copied, kept⟩ := kept
      by_cases nothing : cString chunk = []
      · rw [if_pos nothing]
        exact ih chunked kept
      · rw [if_neg nothing]
        simp only [nothing, decide_false, Bool.false_or, Bool.or_eq_true, decide_eq_true_eq,
          Bool.and_eq_true, List.isEmpty_iff] at copied
        refine ⟨line.front nothing, ?_, ih chunked kept⟩
        rcases copied with ⟨ended, closed⟩ | ⟨before, last⟩
        · left
          rw [cString_eq_self ended]
          exact closed
        · right
          rw [before, last]
          rfl

theorem Storable.fgetsAll_rewritten (chunked : Chunked chunks)
    (kept : keepsLines user false chunks = true) :
    let file := rewriteNthashes user hash (chunks.map cString)
    fgetsAll 512 file.length file = rewrittenLines user hash false chunks := by
  have lines := storable.chunked_rewrittenLines chunked kept
  rw [← flatten_rewrittenLines]
  exact fgetsAll_flatten lines (length_le_flatten lines)

theorem Storable.nthashLines_rewritten (chunked : Chunked chunks)
    (kept : keepsLines user false chunks = true) :
    nthashLines (rewriteNthashes user hash (chunks.map cString)) =
      rewrittenLines user hash false chunks := by
  rw [nthashLines, storable.fgetsAll_rewritten chunked kept]
  refine (map_congr_left fun line member => ?_).trans (map_id _)
  exact cString_eq_self (storable.rewrittenLines_ended line member)

theorem Storable.lookup_rewritten_self (chunks : List Bytes) :
    lookupLines user (rewrittenLines user hash false chunks) = some hash := by
  induction chunks with
  | nil =>
    have whole : rewrittenLines user hash false [] = entryLines user hash ++ [] := by
      rw [append_nil]
      rfl
    rw [whole]
    exact storable.lookup_self []
  | cons chunk chunks ih =>
    rw [rewrittenLines_cons, copiedLines]
    by_cases named : nthashNamed user (cString chunk) = true
    · rw [if_pos named]
      exact storable.lookup_self _
    · rw [if_neg named, Bool.eq_false_iff.2 named]
      split_ifs with nothing
      · exact ih
      · rw [singleton_append, lookupLines_cons, if_neg named]
        exact ih

theorem Storable.lookup_rewritten_other {other : Bytes} (differ : other ≠ user) (found : Bool)
    (chunks : List Bytes) :
    lookupLines other (rewrittenLines user hash found chunks) =
      lookupLines other (chunks.map cString) := by
  induction chunks generalizing found with
  | nil =>
    rw [rewrittenLines]
    split_ifs
    · rfl
    · rw [← append_nil (entryLines user hash)]
      exact storable.lookup_other differ []
  | cons chunk chunks ih =>
    rw [rewrittenLines_cons, copiedLines, map_cons, lookupLines_cons]
    by_cases named : nthashNamed user (cString chunk) = true
    · have unnamed : ¬ nthashNamed other (cString chunk) = true := by
        simp only [nthashNamed, decide_eq_true_eq] at named ⊢
        exact fun both => differ (both.2.symm.trans named.2)
      rw [if_pos named, storable.lookup_other differ, if_neg unnamed]
      exact ih _
    · rw [if_neg named]
      by_cases nothing : cString chunk = []
      · have unnamed : ¬ nthashNamed other (cString chunk) = true := by
          simp [nthashNamed, nothing]
        rw [if_pos nothing, if_neg unnamed]
        exact ih _
      · rw [if_neg nothing, singleton_append, lookupLines_cons, ih]

end Rewritten

/-- What `fgets` gives of the file, if there is one. -/
def nthashChunks (nthashes : Option Bytes) : List Bytes :=
  (nthashes.map fun file => fgetsAll 512 file.length file).getD []

/-- A call whose entry fits the buffer and that keeps the lines of the file apart, or one that
stores nothing. -/
def Keeps (md4 : Md4) (nthashes : Option Bytes) (call : HashCall) : Prop :=
  call.hash md4 = none ∨
    (call.user.length ≤ 478 ∧ keepsLines call.user false (nthashChunks nthashes) = true)

instance (md4 : Md4) (nthashes : Option Bytes) (call : HashCall) :
    Decidable (Keeps md4 nthashes call) :=
  inferInstanceAs (Decidable (_ ∨ _))

def lastHash (md4 : Md4) : List HashCall → Bytes → Option Bytes
  | [], _ => none
  | call :: calls, user =>
    (lastHash md4 calls user).or (if call.user = user then call.hash md4 else none)

variable {md4 : Md4} {call : HashCall}

theorem HashCall.storable {hash : Bytes} (stored : call.hash md4 = some hash)
    (fits : call.user.length ≤ 478) : Storable call.user hash := by
  unfold HashCall.hash at stored
  split_ifs at stored with rejected
  simp only [Bool.or_eq_true, any_eq_true, not_or, not_exists, not_and] at rejected
  obtain ⟨n, -, digest⟩ := Option.bind_eq_some_iff.1 stored
  split_ifs at digest
  refine ⟨call.userEnded, fun colon => ?_, fun newline => ?_, fits, md4.sized digest⟩
  · exact (rejected.2 _ colon).1.1 rfl
  · exact (rejected.2 _ newline).2 rfl

theorem map_nthashLines (nthashes : Option Bytes) :
    (nthashes.map nthashLines).getD [] = (nthashChunks nthashes).map cString := by
  cases nthashes with
  | none => rfl
  | some file => rfl

theorem lookupNthash_eq (nthashes : Option Bytes) (user : Bytes) :
    lookupNthash nthashes user = lookupLines user ((nthashChunks nthashes).map cString) := by
  cases nthashes with
  | none => rfl
  | some file => rfl

theorem chunked_nthashChunks (nthashes : Option Bytes) :
    Chunked (nthashChunks nthashes) := by
  cases nthashes with
  | none => exact True.intro
  | some file => exact chunked_fgetsAll file.length file

variable {nthashes : Option Bytes}

theorem lookup_cacheNthash (keeps : Keeps md4 nthashes call) (user : Bytes) :
    lookupNthash (cacheNthash md4 nthashes call) user =
      (if call.user = user then call.hash md4 else none).or (lookupNthash nthashes user) := by
  rcases stored : call.hash md4 with _ | hash
  · rw [cacheNthash, stored]
    simp
  · obtain ⟨fits, kept⟩ := keeps.resolve_left (by rw [stored]; exact nofun)
    have storable := HashCall.storable stored fits
    have read := storable.nthashLines_rewritten (chunked_nthashChunks nthashes) kept
    rw [cacheNthash, stored]
    rw [map_nthashLines, lookupNthash, Option.bind_eq_bind, Option.bind_some, read]
    by_cases same : call.user = user
    · rw [if_pos same, ← same]
      exact storable.lookup_rewritten_self _
    · rw [if_neg same, lookupNthash_eq]
      exact storable.lookup_rewritten_other (Ne.symm same) false _

/-- **The cache as a map.** After every sequence of calls along which the lines of the file stay
apart and the names fit, a user has the hash of the last call for that user, and every other user
has the hash that the file had. -/
theorem lookup_after_caching (md4 : Md4) (nthashes : Option Bytes) (calls : List HashCall)
    (keeps : Runs.Along (cacheNthash md4) (Keeps md4) nthashes calls) (user : Bytes) :
    lookupNthash (calls.foldl (cacheNthash md4) nthashes) user =
      (lastHash md4 calls user).or (lookupNthash nthashes user) := by
  induction calls generalizing nthashes with
  | nil => rfl
  | cons call calls ih =>
    rw [foldl_cons, ih _ keeps.2, lookup_cacheNthash keeps.1, lastHash, Option.or_assoc]

/-- A file without zeros in which every line has its end, the last one too. -/
def WholeFile (nthashes : Option Bytes) : Prop :=
  ∀ chunk ∈ nthashChunks nthashes, 0 ∉ chunk ∧ Closed chunk

theorem keepsLines_of_whole {user : Bytes} {found : Bool} {chunks : List Bytes}
    (whole : ∀ chunk ∈ chunks, 0 ∉ chunk ∧ Closed chunk) :
    keepsLines user found chunks = true := by
  induction chunks generalizing found with
  | nil => rfl
  | cons chunk chunks ih =>
    have others := fun {found} =>
      @ih found fun other member => whole other (mem_cons_of_mem _ member)
    rw [keepsLines]
    split_ifs
    · exact others
    · rw [others, Bool.and_true, decide_eq_true (whole chunk mem_cons_self), Bool.or_true,
        Bool.true_or]

theorem WholeFile.cacheNthash (whole : WholeFile nthashes) (fits : call.user.length ≤ 478) :
    WholeFile (cacheNthash md4 nthashes call) := by
  rcases stored : call.hash md4 with _ | hash
  · rw [RdpServer.cacheNthash, stored]
    exact whole
  · have storable := HashCall.storable stored fits
    have read := storable.fgetsAll_rewritten (chunked_nthashChunks nthashes)
      (keepsLines_of_whole whole)
    rw [RdpServer.cacheNthash, stored]
    rw [map_nthashLines]
    intro line member
    rw [nthashChunks, Option.map_some, read] at member
    refine ⟨storable.rewrittenLines_ended line member, ?_⟩
    rcases mem_rewrittenLines member with entry | ⟨chunk, listed, rfl⟩
    · exact (storable.entryLines_closed line entry).2
    · obtain ⟨ended, closed⟩ := whole chunk listed
      rw [cString_eq_self ended]
      exact closed

def zeroMd4 : Md4 where
  md4 := fun _ => some (List.replicate 16 0)
  sized := fun made => by rw [← Option.some.inj made]; rfl

def bobsCall : HashCall := ⟨ascii "bob", [], by decide, by decide⟩

def evesCall : HashCall := ⟨ascii "eve", ascii "a", by decide, by decide⟩

/-- Two calls on a file in which every line has its end. -/
theorem lookup_after_caching_two :
    lookupNthash ([bobsCall, evesCall].foldl (cacheNthash zeroMd4)
        (some (ascii "bob:00112233445566778899aabbccddeeff\n# end\n"))) (ascii "eve") =
      (lastHash zeroMd4 [bobsCall, evesCall] (ascii "eve")).or
        (lookupNthash (some (ascii "bob:00112233445566778899aabbccddeeff\n# end\n"))
          (ascii "eve")) :=
  lookup_after_caching zeroMd4 _ _ (by decide +kernel) _

/-- The entry of a new user is written behind a last line that has no newline, and is not
found. -/
theorem entry_lost_behind_open_line :
    evesCall.hash zeroMd4 = some (List.replicate 16 0) ∧
      lookupNthash (cacheNthash zeroMd4 (some (ascii "bob:00112233445566778899aabbccddeeff"))
        evesCall) (ascii "eve") = none := by
  decide +kernel

/-- **From whole lines on**, or without a file, the cache is a map for every sequence of calls. -/
theorem lookup_in_whole_file {calls : List HashCall} (whole : WholeFile nthashes)
    (fit : ∀ call ∈ calls, call.user.length ≤ 478) (user : Bytes) :
    lookupNthash (calls.foldl (cacheNthash md4) nthashes) user =
      (lastHash md4 calls user).or (lookupNthash nthashes user) := by
  induction calls generalizing nthashes with
  | nil => rfl
  | cons call calls ih =>
    have fits := fit call mem_cons_self
    have others := fun other member => fit other (mem_cons_of_mem _ member)
    rw [foldl_cons, ih (whole.cacheNthash fits) others,
      lookup_cacheNthash (.inr ⟨fits, keepsLines_of_whole whole⟩), lastHash, Option.or_assoc]

/-- Two users and a repeated one, on a file that knows one of them. -/
theorem lookup_in_whole_file_repeated :
    lookupNthash ([evesCall, bobsCall, evesCall].foldl (cacheNthash zeroMd4)
        (some (ascii "bob:00112233445566778899aabbccddeeff\n# end\n"))) (ascii "eve") =
      evesCall.hash zeroMd4 := by
  refine (lookup_in_whole_file ?_ ?_ _).trans ?_
  · unfold WholeFile
    decide +kernel
  · decide +kernel
  · decide +kernel

end RdpServer
