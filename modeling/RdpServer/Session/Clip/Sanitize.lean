import Mathlib.Data.List.TakeWhile
import RdpServer.Channels.Cliprdr

/-!
# Names of pasted and copied files

The client names the files of a paste, and the session creates them below a
directory of its own: `sanitizeName` refuses the components that could leave the directory
(`sanitizeName_sound_complete`). Local programs name files by `file://` URIs, one on a line; the
paths of a list come back from it as they were (`uriToPath_uriLines`).
-/

namespace RdpServer.Session.Clip

open List Option

def slash : UInt8 := 0x2F

def backslash : UInt8 := 0x5C

def dot : UInt8 := 0x2E

def isSep (c : UInt8) : Bool := c == slash || c == backslash

def emitComponent (outCap : Nat) (comp out : List UInt8) : Option (List UInt8) :=
  if comp.length = 0 then none
  else if comp = [dot] then none
  else if comp = [dot, dot] then none
  else if 0 ∈ comp then none
  else if out.length ≠ 0 ∧ out.length + 1 ≥ outCap then none
  else
    let out := if out.length ≠ 0 then out ++ [slash] else out
    if out.length + comp.length ≥ outCap then none else some (out ++ comp)

/-- The loop, with the bytes since `comp_start` in `comp`. -/
def sanitizeLoop (outCap : Nat) : List UInt8 → List UInt8 → List UInt8 → Option (List UInt8)
  | [], comp, out => emitComponent outCap comp out
  | c :: rest, comp, out =>
    if isSep c then
      (emitComponent outCap comp out).bind fun out => sanitizeLoop outCap rest [] out
    else sanitizeLoop outCap rest (comp ++ [c]) out

/-- The string that starts at `octets`. -/
def nameOf (octets : List UInt8) : List UInt8 := octets.takeWhile (· != 0)

/-- `rdp_clip_sanitize_name`: the bytes of `out` before its terminator. -/
def sanitizeName (octets : List UInt8) (outCap : Nat) : Option (List UInt8) :=
  if outCap = 0 then none
  else if (nameOf octets).length = 0 then none
  else if (nameOf octets).head?.any isSep then none
  else (sanitizeLoop outCap (nameOf octets) [] []).bind fun out =>
    if out.length = 0 ∨ out.length ≥ outCap then none else some out

def folded (name : List UInt8) : List UInt8 :=
  name.map fun c => if c = backslash then slash else c

structure SafeComponent (comp : List UInt8) : Prop where
  nonempty : comp ≠ []
  notSelf : comp ≠ [dot]
  notParent : comp ≠ [dot, dot]

/-- **Relative paths** that name something below where they start. -/
structure SafePath (path : List UInt8) : Prop where
  joined : ∃ comps, comps ≠ [] ∧ path = [slash].intercalate comps ∧
    ∀ comp ∈ comps, slash ∉ comp ∧ SafeComponent comp
  relative : path.head? ≠ some slash

variable {outCap : Nat} {comp out result : List UInt8} {comps : List (List UInt8)}
  (name : List UInt8)

theorem isSep_iff {c : UInt8} : isSep c = true ↔ c = slash ∨ c = backslash := by
  rw [isSep, Bool.or_eq_true, beq_iff_eq, beq_iff_eq]

def emitAll (outCap : Nat) (comps : List (List UInt8)) (out : List UInt8) :
    Option (List UInt8) :=
  comps.foldlM (fun out comp => emitComponent outCap comp out) out

theorem sanitizeLoop_eq (whole : ∀ c ∈ comp, isSep c = false) :
    sanitizeLoop outCap name comp out = emitAll outCap ((comp ++ name).splitOnP isSep) out := by
  induction name generalizing comp out with
  | nil =>
    rw [append_nil, splitOnP_eq_singleton whole]
    exact (bind_pure _).symm
  | cons c rest ih =>
    cases sep : isSep c with
    | true =>
      rw [splitOnP_append_cons_of_forall_mem whole _ sep, sanitizeLoop, if_pos sep]
      refine bind_congr fun written _ => ?_
      rw [ih (forall_mem_nil _)]
      rfl
    | false =>
      have longer : ∀ d ∈ comp ++ [c], isSep d = false := by
        intro d member
        rcases mem_append.1 member with before | last
        · exact whole d before
        · rw [mem_singleton.1 last]
          exact sep
      rw [sanitizeLoop, sep, ih longer, append_assoc]
      rfl

theorem splitOn_folded : (folded name).splitOn slash = name.splitOnP isSep := by
  induction name with
  | nil => rfl
  | cons c rest ih =>
    rw [folded, map_cons, splitOn_cons_eq_if_modifyHead, splitOnP_cons_eq_if_modifyHead, ← ih]
    by_cases back : c = backslash
    · rw [if_pos back, if_pos (isSep_iff.2 (.inr back))]
      rfl
    · rw [if_neg back]
      by_cases plain : c = slash
      · rw [if_pos (beq_iff_eq.2 plain), if_pos (isSep_iff.2 (.inl plain))]
        rfl
      · rw [if_neg (mt beq_iff_eq.1 plain), if_neg fun sep => (isSep_iff.1 sep).elim plain back]
        rfl

def joinTo (out comp : List UInt8) : List UInt8 :=
  if out.length ≠ 0 then out ++ [slash] ++ comp else comp

theorem length_le_joinTo : out.length ≤ (joinTo out comp).length := by
  unfold joinTo
  split_ifs with started
  · rw [append_assoc, length_append]
    exact Nat.le_add_right _ _
  · omega

theorem length_le_foldl_joinTo : out.length ≤ (comps.foldl joinTo out).length := by
  induction comps generalizing out with
  | nil => exact le_rfl
  | cons comp rest ih => exact length_le_joinTo.trans ih

theorem emitComponent_eq_some_iff (clean : 0 ∉ comp) :
    emitComponent outCap comp out = some result ↔
      SafeComponent comp ∧ result = joinTo out comp ∧ result.length < outCap := by
  unfold emitComponent
  by_cases empty : comp.length = 0
  · rw [if_pos empty]
    refine iff_of_false (fun emitted => nomatch emitted) ?_
    rintro ⟨safe, _⟩
    exact safe.nonempty (length_eq_zero_iff.1 empty)
  rw [if_neg empty]
  by_cases self : comp = [dot]
  · rw [if_pos self]
    exact iff_of_false (fun emitted => nomatch emitted) fun ⟨safe, _⟩ => safe.notSelf self
  rw [if_neg self]
  by_cases above : comp = [dot, dot]
  · rw [if_pos above]
    exact iff_of_false (fun emitted => nomatch emitted) fun ⟨safe, _⟩ => safe.notParent above
  rw [if_neg above, if_neg clean]
  have safe : SafeComponent comp :=
    ⟨fun none => empty (length_eq_zero_iff.2 none), self, above⟩
  by_cases full : out.length ≠ 0 ∧ out.length + 1 ≥ outCap
  · -- the separator alone would not fit, so neither does the component
    rw [if_pos full]
    refine iff_of_false (fun emitted => nomatch emitted) ?_
    rintro ⟨_, rfl, fits⟩
    rw [joinTo, if_pos full.1, length_append, length_append] at fits
    omega
  rw [if_neg full]
  have written : (if out.length ≠ 0 then out ++ [slash] else out) ++ comp = joinTo out comp := by
    unfold joinTo
    split_ifs with started
    · rfl
    · rw [length_eq_zero_iff.1 (not_not.1 started), nil_append]
  dsimp only
  rw [← length_append, written]
  by_cases fits : (joinTo out comp).length ≥ outCap
  · rw [if_pos fits]
    refine iff_of_false (fun emitted => nomatch emitted) ?_
    rintro ⟨_, rfl, less⟩
    omega
  · rw [if_neg fits, some_inj]
    constructor
    · rintro rfl
      exact ⟨safe, rfl, by omega⟩
    · rintro ⟨_, rfl, _⟩
      rfl

theorem emitAll_eq_some_iff (clean : ∀ comp ∈ comps, 0 ∉ comp) (room : out.length < outCap) :
    emitAll outCap comps out = some result ↔
      (∀ comp ∈ comps, SafeComponent comp) ∧ result = comps.foldl joinTo out ∧
        result.length < outCap := by
  induction comps generalizing out with
  | nil =>
    refine some_inj.trans ?_
    constructor
    · rintro rfl
      exact ⟨forall_mem_nil _, rfl, room⟩
    · rintro ⟨_, rfl, _⟩
      rfl
  | cons comp rest ih =>
    obtain ⟨cleanFirst, cleanRest⟩ := forall_mem_cons.1 clean
    rw [forall_mem_cons]
    refine bind_eq_some_iff.trans ?_
    constructor
    · rintro ⟨written, emitted, others⟩
      obtain ⟨safe, rfl, fits⟩ := (emitComponent_eq_some_iff cleanFirst).1 emitted
      obtain ⟨safeRest, joined, inside⟩ := (ih cleanRest fits).1 others
      exact ⟨⟨safe, safeRest⟩, joined, inside⟩
    · rintro ⟨⟨safe, safeRest⟩, rfl, inside⟩
      have fits : (joinTo out comp).length < outCap :=
        lt_of_le_of_lt length_le_foldl_joinTo inside
      exact ⟨_, (emitComponent_eq_some_iff cleanFirst).2 ⟨safe, rfl, fits⟩,
        (ih cleanRest fits).2 ⟨safeRest, rfl, inside⟩⟩

theorem foldl_joinTo_cons (started : out ≠ []) :
    (comp :: comps).foldl joinTo out = out ++ slash :: [slash].intercalate (comp :: comps) := by
  have first : joinTo out comp = out ++ slash :: comp := by
    rw [joinTo, if_pos (mt length_eq_zero_iff.1 started), append_assoc]
    rfl
  induction comps generalizing out comp with
  | nil => rw [foldl_cons, first, intercalate_singleton]; rfl
  | cons next rest ih =>
    have longer : joinTo out comp ≠ [] := by
      rw [first]
      exact append_ne_nil_of_right_ne_nil _ (cons_ne_nil _ _)
    have second : joinTo (joinTo out comp) next = joinTo out comp ++ slash :: next := by
      rw [joinTo, if_pos (mt length_eq_zero_iff.1 longer), append_assoc]
      rfl
    rw [foldl_cons, ih longer second, first]
    simp

theorem foldl_joinTo_nil (some : comps ≠ []) (safe : ∀ comp ∈ comps, SafeComponent comp) :
    comps.foldl joinTo [] = [slash].intercalate comps := by
  cases comps with
  | nil => exact absurd rfl some
  | cons first rest =>
    have started : first ≠ [] := (safe first mem_cons_self).nonempty
    rw [foldl_cons, joinTo, if_neg (by simp)]
    cases rest with
    | nil => exact (intercalate_singleton).symm
    | cons next others =>
      rw [foldl_joinTo_cons started]
      simp

theorem of_mem_splitOnP {name : List UInt8} {c : UInt8} (part : comp ∈ name.splitOnP isSep)
    (member : c ∈ comp) : c ∈ name ∧ isSep c = false := by
  induction name generalizing comp with
  | nil =>
    rw [splitOnP_nil, mem_singleton] at part
    rw [part] at member
    cases member
  | cons d rest ih =>
    have below (inside : c ∈ rest ∧ isSep c = false) : c ∈ d :: rest ∧ isSep c = false :=
      ⟨mem_cons_of_mem _ inside.1, inside.2⟩
    rw [splitOnP_cons_eq_if_modifyHead] at part
    cases sep : isSep d with
    | true =>
      rw [if_pos sep] at part
      rcases mem_cons.1 part with rfl | later
      · cases member
      · exact below (ih later member)
    | false =>
      rw [if_neg (by rw [sep]; exact Bool.false_ne_true)] at part
      cases parts : rest.splitOnP isSep with
      | nil => exact absurd parts (splitOnP_ne_nil _ _)
      | cons first others =>
        rw [parts] at ih part
        rcases mem_cons.1 part with rfl | later
        · rcases mem_cons.1 member with rfl | inside
          · exact ⟨mem_cons_self, sep⟩
          · exact below (ih mem_cons_self inside)
        · exact below (ih (mem_cons_of_mem _ later) member)

theorem safePath_folded_iff :
    SafePath (folded name) ↔ ∀ comp ∈ name.splitOnP isSep, SafeComponent comp := by
  constructor
  · rintro ⟨⟨comps, some, joined, safe⟩, _⟩ comp part
    rw [← splitOn_folded, joined,
      splitOn_intercalate slash (fun comp member => (safe comp member).1) some] at part
    exact (safe comp part).2
  · intro safe
    refine ⟨⟨name.splitOnP isSep, splitOnP_ne_nil _ _, ?_, ?_⟩, ?_⟩
    · rw [← splitOn_folded, intercalate_splitOn]
    · intro comp part
      refine ⟨fun member => ?_, safe comp part⟩
      exact Bool.false_ne_true ((of_mem_splitOnP part member).2.symm.trans (isSep_iff.2 (.inl rfl)))
    · -- a leading slash would make the first component empty
      rw [← splitOn_folded] at safe
      intro leads
      obtain ⟨rest, starts⟩ := head?_eq_some_iff.1 leads
      rw [starts] at safe
      exact (safe [] mem_cons_self).nonempty rfl

theorem intercalate_splitOnP : [slash].intercalate (name.splitOnP isSep) = folded name := by
  rw [← splitOn_folded, intercalate_splitOn]

theorem zero_not_mem_nameOf (octets : List UInt8) : 0 ∉ nameOf octets := by
  intro member
  exact absurd (mem_takeWhile_imp member) (by decide)

theorem sanitizeName_eq_bind {octets : List UInt8} (room : outCap ≠ 0)
    (safe : ∀ comp ∈ (nameOf octets).splitOnP isSep, SafeComponent comp) :
    sanitizeName octets outCap = (sanitizeLoop outCap (nameOf octets) [] []).bind fun out =>
      if out.length = 0 ∨ out.length ≥ outCap then none else some out := by
  unfold sanitizeName
  rw [if_neg room]
  cases name : nameOf octets with
  | nil =>
    rw [name] at safe
    exact absurd rfl (safe [] mem_cons_self).nonempty
  | cons c rest =>
    rw [length_cons, if_neg (Nat.succ_ne_zero _), if_neg]
    intro (leads : isSep c = true)
    rw [name, splitOnP_cons_eq_if_modifyHead, if_pos leads] at safe
    exact (safe [] mem_cons_self).nonempty rfl

theorem sanitizeLoop_eq_some_iff (octets : List UInt8) (room : outCap ≠ 0) :
    sanitizeLoop outCap (nameOf octets) [] [] = some result ↔
      (∀ comp ∈ (nameOf octets).splitOnP isSep, SafeComponent comp) ∧
        result = folded (nameOf octets) ∧ result.length < outCap := by
  have clean : ∀ comp ∈ (nameOf octets).splitOnP isSep, 0 ∉ comp := fun comp part member =>
    zero_not_mem_nameOf octets (of_mem_splitOnP part member).1
  rw [sanitizeLoop_eq _ (forall_mem_nil _), nil_append,
    emitAll_eq_some_iff clean (Nat.pos_of_ne_zero room)]
  refine and_congr_right fun safe => ?_
  rw [foldl_joinTo_nil (splitOnP_ne_nil _ _) safe, intercalate_splitOnP]

/-- **Pasted names stay below the directory**: a name passes exactly if, with slashes
for backslashes, it is a safe relative path that fits, and that is what it becomes. -/
theorem sanitizeName_sound_complete (octets : List UInt8) (outCap : Nat) (out : List UInt8) :
    sanitizeName octets outCap = some out ↔
      out = folded (nameOf octets) ∧ SafePath out ∧ out.length + 1 ≤ outCap := by
  constructor
  · intro passes
    unfold sanitizeName at passes
    split_ifs at passes with room
    obtain ⟨out, looped, kept⟩ := bind_eq_some_iff.1 passes
    split_ifs at kept
    cases kept
    obtain ⟨safe, rfl, fits⟩ := (sanitizeLoop_eq_some_iff octets room).1 looped
    exact ⟨rfl, (safePath_folded_iff _).2 safe, fits⟩
  · rintro ⟨rfl, path, fits⟩
    have room : outCap ≠ 0 := ne_of_gt (lt_of_lt_of_le (Nat.succ_pos _) fits)
    have safe := (safePath_folded_iff _).1 path
    have looped := (sanitizeLoop_eq_some_iff octets room).2 ⟨safe, rfl, fits⟩
    have some : (folded (nameOf octets)).length ≠ 0 := by
      intro none
      rw [← splitOn_folded, length_eq_zero_iff.1 none] at safe
      exact (safe [] mem_cons_self).nonempty rfl
    rw [sanitizeName_eq_bind room safe, looped, bind_some, if_neg (by omega)]

-- the string ends at its terminator, and four bytes hold the path and another one
example : sanitizeName [0x61, 0x5C, 0x62, 0, 0x63] 4 = some [0x61, 0x2F, 0x62] := by decide

end RdpServer.Session.Clip

namespace RdpServer.Session.Clip

open Bytes Channels Channels.Cliprdr

abbrev Path := Bytes

def percent : UInt8 := 0x25

def carriageReturn : UInt8 := 0x0D

def lineFeed : UInt8 := 0x0A

def uriMarks : Bytes := 0x27 :: literal "/-_.~!$&()*+,;=:@"

def uriPcharOk (ch : UInt8) : Bool :=
  (0x41 ≤ ch && ch ≤ 0x5A) || (0x61 ≤ ch && ch ≤ 0x7A) || (0x30 ≤ ch && ch ≤ 0x39) ||
    uriMarks.contains ch

def hexDigit (nibble : Nat) : UInt8 := low (if nibble < 10 then 0x30 + nibble else 0x37 + nibble)

def uriByte (ch : UInt8) : Bytes :=
  if uriPcharOk ch then [ch]
  else [percent, hexDigit (ch.toNat >>> 4), hexDigit (ch.toNat &&& 0x0f)]

/-- `uri_list_append`. -/
def uriListAppend (buf : Bytes) (abspath : Path) : Bytes :=
  buf ++ literal "file://localhost" ++ abspath.flatMap uriByte ++ [carriageReturn, lineFeed]

def hexval (ch : UInt8) : Option Nat :=
  if 0x30 ≤ ch ∧ ch ≤ 0x39 then some (ch.toNat - 0x30)
  else if 0x61 ≤ ch ∧ ch ≤ 0x66 then some (ch.toNat - 0x61 + 10)
  else if 0x41 ≤ ch ∧ ch ≤ 0x46 then some (ch.toNat - 0x41 + 10)
  else none

def hexByte (hi lo : UInt8) : Option UInt8 :=
  match hexval hi, hexval lo with
  | some hi, some lo => some (low (hi * 16 + lo))
  | _, _ => none

/-- The loop of `percent_decode`, with what it wrote so far. -/
def percentDecode (dstCap : Nat) : Bytes → Bytes → Option Bytes
  | [], out => if out.length ≥ dstCap then none else some out
  | c :: rest, out =>
    if out.length + 1 ≥ dstCap then none
    else if c = percent then
      match rest with
      | hi :: lo :: rest' =>
        match hexByte hi lo with
        | some octet => percentDecode dstCap rest' (out ++ [octet])
        | none => percentDecode dstCap (hi :: lo :: rest') (out ++ [c])
      | rest => percentDecode dstCap rest (out ++ [c])
    else percentDecode dstCap rest (out ++ [c])

def isBlank (c : UInt8) : Bool := c == 0x20 || c == 0x09

/-- `uri_to_path`: the C string it writes. -/
def uriToPath (src : Bytes) (outCap : Nat) : Option Path :=
  let src := src.dropWhile isBlank
  if src.isEmpty ∨ src.head? = some 0x23 then none
  else if !(literal "file://").isPrefixOf src then none
  else
    let p := (src.drop 7).dropWhile (· != slash)
    if p.isEmpty then none else (percentDecode outCap p []).map nameOf

def uriLines (uri : Bytes) : List Bytes :=
  (uri.splitOn lineFeed).map fun line =>
    if line.getLast? = some carriageReturn then line.dropLast else line

/-- What `stat` says of a file. -/
structure Stat where
  isDir : Bool
  size : Nat
  mtime : Nat
  deriving DecidableEq

def baseName (path : Path) : Bytes :=
  (path.reverse.takeWhile (· != slash)).reverse

def filetimeEpochDelta : Nat := 11644473600

def filedescOf (path : Path) (st : Stat) : Filedesc :=
  { flags := 0x64
    attrs := if st.isDir then fileAttributeDirectory else 0
    size := if st.isDir then 0 else st.size
    mtime := (st.mtime + filetimeEpochDelta) * 10000000
    name := (baseName path).take (nameSize - 1) }

def maxFiles : Nat := 64

def filesOf (stat : Path → Option Stat) (uri : Bytes) : List (Path × Filedesc) :=
  ((uriLines uri).filterMap fun line =>
    (uriToPath line 1024).bind fun path =>
      (stat path).map fun st => (path, filedescOf path st)).take maxFiles

open List

theorem all_octets {p : UInt8 → Prop} (holds : ∀ n < 256, p (low n)) (octet : UInt8) : p octet :=
  low_toNat octet ▸ holds octet.toNat octet.toNat_lt

/-- The hexadecimal digits of a byte are read as that byte. -/
theorem hexByte_digits (ch : UInt8) :
    hexByte (hexDigit (ch.toNat >>> 4)) (hexDigit (ch.toNat &&& 0x0f)) = some ch := by
  refine all_octets (p := fun ch =>
    hexByte (hexDigit (ch.toNat >>> 4)) (hexDigit (ch.toNat &&& 0x0f)) = some ch) ?_ ch
  decide +kernel

theorem lineFeed_not_mem_uriByte (ch : UInt8) : lineFeed ∉ uriByte ch := by
  refine all_octets (p := fun ch => lineFeed ∉ uriByte ch) ?_ ch
  decide +kernel

theorem percentDecode_uriByte {cap : Nat} {out : Bytes} (room : out.length + 1 < cap)
    (ch : UInt8) (rest : Bytes) :
    percentDecode cap (uriByte ch ++ rest) out = percentDecode cap rest (out ++ [ch]) := by
  unfold uriByte
  split_ifs with plain
  · have other : ch ≠ percent := by
      rintro rfl
      exact absurd plain (by decide)
    rw [singleton_append, percentDecode.eq_def]
    simp only [if_neg (Nat.not_le.2 room), if_neg other]
  · rw [cons_append, cons_append, singleton_append, percentDecode, if_neg (Nat.not_le.2 room),
      if_pos rfl]
    simp only [hexByte_digits]

theorem percentDecode_path {cap : Nat} (path : Path) {out : Bytes}
    (room : out.length + path.length < cap) :
    percentDecode cap (path.flatMap uriByte) out = some (out ++ path) := by
  induction path generalizing out with
  | nil => simpa [percentDecode] using room
  | cons ch path ih =>
    rw [length_cons] at room
    rw [flatMap_cons, percentDecode_uriByte (by omega), ih (by simp; omega)]
    simp

theorem uriToPath_uri {path : Path} (absolute : path.head? = some slash) (whole : 0 ∉ path)
    (short : path.length < 1024) :
    uriToPath (literal "file://localhost" ++ path.flatMap uriByte) 1024 = some path := by
  obtain ⟨below, rfl⟩ := head?_eq_some_iff.1 absolute
  have decodes : percentDecode 1024 ((slash :: below).flatMap uriByte) [] = some (slash :: below) :=
    percentDecode_path _ (by simpa using short)
  have named : nameOf (slash :: below) = slash :: below := by
    refine takeWhile_eq_self_iff.2 fun c member => bne_iff_ne.2 ?_
    rintro rfl
    exact whole member
  calc uriToPath (literal "file://localhost" ++ (slash :: below).flatMap uriByte) 1024
    _ = (percentDecode 1024 ((slash :: below).flatMap uriByte) []).map nameOf := rfl
    _ = some (slash :: below) := by rw [decodes, Option.map_some, named]

theorem uriLines_append (path : Path) (rest : Bytes) :
    uriLines (uriListAppend [] path ++ rest) =
      (literal "file://localhost" ++ path.flatMap uriByte) :: uriLines rest := by
  have clean : ∀ c ∈ literal "file://localhost" ++ path.flatMap uriByte ++ [carriageReturn],
      (c == lineFeed) = false := by
    refine fun c member => beq_eq_false_iff_ne.2 ?_
    rintro rfl
    rw [mem_append, mem_append, mem_flatMap] at member
    obtain (host | ⟨ch, _, inside⟩) | last := member
    · exact absurd host (by decide)
    · exact lineFeed_not_mem_uriByte ch inside
    · exact absurd last (by decide)
  have splits := splitOnP_append_cons_of_forall_mem (p := (· == lineFeed)) clean lineFeed rfl rest
  simp only [uriListAppend, nil_append, append_assoc, cons_append] at splits ⊢
  rw [uriLines, splitOn, splits, map_cons, uriLines, splitOn]
  simp [← append_assoc]

theorem uriList_eq (paths : List Path) (buf : Bytes) :
    paths.foldl uriListAppend buf = buf ++ paths.flatMap (uriListAppend []) := by
  induction paths generalizing buf with
  | nil => simp
  | cons path paths ih => simp [ih, uriListAppend]

/-- **Pasted paths are copied back as they were**, in their order. -/
theorem uriToPath_uriLines (paths : List Path) (absolute : ∀ path ∈ paths, path.head? = some slash)
    (whole : ∀ path ∈ paths, 0 ∉ path) (short : ∀ path ∈ paths, path.length < 1024) :
    (uriLines (paths.foldl uriListAppend [])).filterMap (uriToPath · 1024) = paths := by
  rw [uriList_eq, nil_append]
  induction paths with
  | nil => rfl
  | cons path paths ih =>
    rw [forall_mem_cons] at absolute whole short
    rw [flatMap_cons, uriLines_append, filterMap_cons,
      uriToPath_uri absolute.1 whole.1 short.1, ih absolute.2 whole.2 short.2]

theorem uriToPath_uriLines_escaped :
    (uriLines ([literal "/a#%\n", literal "/b c"].foldl uriListAppend [])).filterMap
      (uriToPath · 1024) = [literal "/a#%\n", literal "/b c"] :=
  uriToPath_uriLines _ (by decide) (by decide) (by decide)

end RdpServer.Session.Clip
