import RdpServer.Common.Utf16

/-!
# Clipboard PDUs

`cliprdr.c`: the PDUs of the clipboard channel and the conversions between the
client's formats and the ones that the worker passes on. A format list is read
entry by entry and comes to the few formats the server knows; the HTML envelope, the
bitmap header and the file list are taken from bytes that the client chooses. A fragment
in an envelope of the server comes back as it was (`html_envelope`).
-/

namespace RdpServer.Channels.Cliprdr

open Bytes

def literal (text : String) : Bytes := text.toList.map fun c => low c.toNat

def le16At (p : Bytes) (off : Nat) : Nat := leValue ((p.drop off).take 2)

def le32At (p : Bytes) (off : Nat) : Nat := leValue ((p.drop off).take 4)

structure Hdr where
  msgType : Nat
  msgFlags : Nat
  dataLen : Nat
  deriving DecidableEq

def hdrLen : Nat := 8

def parseHdr (p : Bytes) : Option Hdr :=
  if p.length < hdrLen then none
  else some { msgType := le16At p 0, msgFlags := le16At p 2, dataLen := le32At p 4 }

def responseFail : Nat := 0x0002

def cfText : Nat := 1

def cfDib : Nat := 8

def cfUnicodetext : Nat := 13

def cfDibv5 : Nat := 17

def fmtHtmlId : Nat := 0xC100

def fmtFilegroupId : Nat := 0xC101

def fmtNameHtml : Bytes := literal "HTML Format"

def fmtNameFilegroup : Bytes := literal "FileGroupDescriptorW"

/-- `struct rdp_cliprdr_formats`. -/
structure Formats where
  hasUnicodeText : Bool := false
  hasText : Bool := false
  hasDib : Bool := false
  dibId : Nat := 0
  hasHtml : Bool := false
  htmlId : Nat := 0
  hasFiles : Bool := false
  filesId : Nat := 0
  deriving DecidableEq

def utf16leNameEq (name a : Bytes) : Bool :=
  let wide := a.flatMap fun c => [c, 0]
  name == wide || name == wide ++ [0, 0]

def asciiNameEq (name a : Bytes) : Bool :=
  a.length < 32 && name == a ++ List.replicate (32 - a.length) 0

def classifyId (out : Formats) (fmt : Nat) : Formats :=
  if fmt = cfUnicodetext then { out with hasUnicodeText := true }
  else if fmt = cfText then { out with hasText := true }
  else if fmt = cfDib ∨ fmt = cfDibv5 then
    if !out.hasDib ∨ fmt = cfDib then { out with hasDib := true, dibId := fmt } else out
  else out

def classifyFormat (out : Formats) (fmt : Nat) (nameEq : Bytes → Bool) : Formats :=
  let out := classifyId out fmt
  let out := if nameEq fmtNameHtml then { out with hasHtml := true, htmlId := fmt } else out
  if nameEq fmtNameFilegroup then { out with hasFiles := true, filesId := fmt } else out

def takeName : Bytes → Bytes × Bytes
  | a :: b :: rest =>
    if a = 0 ∧ b = 0 then ([a, b], rest)
    else (a :: b :: (takeName rest).1, (takeName rest).2)
  | rest => ([], rest)

/-- An entry takes four bytes at least, so that a round for each byte is enough. -/
def longNames : Nat → Bytes → Formats → Formats
  | 0, _, out => out
  | rounds + 1, p, out =>
    if p.length < 4 then out
    else
      let entry := takeName (p.drop 4)
      longNames rounds entry.2 (classifyFormat out (le32At p 0) (utf16leNameEq entry.1))

def shortNames : Nat → Bytes → Formats → Formats
  | 0, _, out => out
  | rounds + 1, p, out =>
    if p.length < 36 then out
    else
      shortNames rounds (p.drop 36)
        (classifyFormat out (le32At p 0) (asciiNameEq ((p.drop 4).take 32)))

def parseFormatList (p : Bytes) (useLongNames : Bool) : Formats :=
  if useLongNames then longNames p.length p {} else shortNames p.length p {}

def findSub (needle : Bytes) : Bytes → Option Nat
  | [] => none
  | c :: rest =>
    if needle.isPrefixOf (c :: rest) then some 0 else (findSub needle rest).map (· + 1)

def htmlDigits (value : Nat) (any : Bool) : Bytes → Option Nat
  | [] => if any then some value else none
  | c :: rest =>
    if 0x30 ≤ c ∧ c ≤ 0x39 then
      let value := value * 10 + (c.toNat - 0x30)
      if value > 0x10000000000 then none else htmlDigits value true rest
    else if any then some value
    else none

def htmlOffset (p key : Bytes) : Option Nat :=
  (findSub key p).bind fun found => htmlDigits 0 false (p.drop (found + key.length))

def htmlSfrag : Bytes := literal "<!--StartFragment-->"

def htmlEfrag : Bytes := literal "<!--EndFragment-->"

def htmlMarked (cfhtml : Bytes) : Option (Nat × Nat) :=
  (findSub htmlSfrag cfhtml).bind fun smo =>
    (findSub htmlEfrag cfhtml).bind fun emo =>
      let s := smo + htmlSfrag.length
      if s ≤ emo ∧ emo ≤ cfhtml.length then some (s, emo - s) else none

/-- `rdp_cliprdr_html_unwrap`: the offset and the length of the fragment. -/
def htmlUnwrap (cfhtml : Bytes) : Nat × Nat :=
  match htmlOffset cfhtml (literal "StartFragment:"),
      htmlOffset cfhtml (literal "EndFragment:") with
  | some sf, some ef =>
    if sf ≤ ef ∧ ef ≤ cfhtml.length then (sf, ef - sf)
    else (htmlMarked cfhtml).getD (0, cfhtml.length)
  | _, _ => (htmlMarked cfhtml).getD (0, cfhtml.length)

def htmlFragment (cfhtml : Bytes) : Bytes :=
  (cfhtml.drop (htmlUnwrap cfhtml).1).take (htmlUnwrap cfhtml).2

/-- `%010zu`, of a value with at most ten digits. -/
def tenDigits (value : Nat) : Bytes :=
  (List.range 10).map fun i => low (0x30 + value / 10 ^ (9 - i) % 10)

def htmlHdr (startHtml endHtml startFrag endFrag : Nat) : Bytes :=
  literal "Version:0.9\r\nStartHTML:" ++ tenDigits startHtml ++
    literal "\r\nEndHTML:" ++ tenDigits endHtml ++
    literal "\r\nStartFragment:" ++ tenDigits startFrag ++
    literal "\r\nEndFragment:" ++ tenDigits endFrag ++ literal "\r\n"

def htmlPre : Bytes := literal "<html>\r\n<body>\r\n"

def htmlPost : Bytes := literal "\r\n</body>\r\n</html>"

/-- `rdp_cliprdr_html_wrap`. -/
def htmlWrap (cap : Nat) (html : Bytes) : Option Bytes :=
  let hlen := (htmlHdr 0 0 0 0).length
  let overhead := hlen + htmlPre.length + htmlSfrag.length + htmlEfrag.length + htmlPost.length
  if overhead > cap ∨ html.length > cap - overhead then none
  else
    let startFrag := hlen + htmlPre.length + htmlSfrag.length
    let endFrag := startFrag + html.length
    let endHtml := endFrag + htmlEfrag.length + htmlPost.length
    if endHtml ≥ 10000000000 then none
    else some (htmlHdr hlen endHtml startFrag endFrag ++ htmlPre ++ htmlSfrag ++ html ++
      htmlEfrag ++ htmlPost)

def bmpFileHdr : Nat := 14

def dibTables (dib : Bytes) : Nat :=
  let biSize := le32At dib 0
  if biSize ≥ 40 then
    let biBitCount := le16At dib 14
    let biCompression := le32At dib 16
    let biClrUsed := le32At dib 32
    let palette :=
      if biBitCount ≤ 8 then
        min (if biClrUsed ≠ 0 then biClrUsed else 1 <<< biBitCount) 256 * 4
      else 0
    let masks :=
      if biSize = 40 ∧ (biCompression = 3 ∨ biCompression = 6) then
        if biCompression = 6 then 16 else 12
      else 0
    masks + palette
  else if biSize = 12 then
    let biBitCount := le16At dib 10
    if biBitCount ≤ 8 then 1 <<< biBitCount * 3 else 0
  else 0

/-- `rdp_cliprdr_dib_to_bmp`, into a buffer that is as large as the result. -/
def dibToBmp (dib : Bytes) : Option Bytes :=
  if dib.length < 4 then none
  else
    let biSize := le32At dib 0
    if biSize < 12 ∨ biSize > dib.length then none
    else
      let wanted := bmpFileHdr + biSize + dibTables dib
      let pixoff := if wanted > bmpFileHdr + dib.length then bmpFileHdr + biSize else wanted
      if bmpFileHdr + dib.length > 0xffffffff then none
      else some (literal "BM" ++ leBytes 4 (bmpFileHdr + dib.length) ++ leBytes 4 0 ++
        leBytes 4 pixoff ++ dib)

/-- `rdp_cliprdr_bmp_to_dib`: what follows the file header. -/
def bmpToDib (bmp : Bytes) : Option Bytes :=
  if bmp.length ≤ bmpFileHdr ∨ !(literal "BM").isPrefixOf bmp then none
  else some (bmp.drop bmpFileHdr)

def fileAttributeDirectory : Nat := 0x10

/-- `struct rdp_clip_filedesc`, with the bytes of `name` before its terminator. -/
structure Filedesc where
  flags : Nat
  attrs : Nat
  size : Nat
  mtime : Nat
  name : Bytes
  deriving DecidableEq

def filedescWire : Nat := 592

def utf16leUpToNul : Bytes → Bytes
  | a :: b :: rest => if a = 0 ∧ b = 0 then [] else a :: b :: utf16leUpToNul rest
  | _ => []

/-- The size of `name` in a descriptor. -/
def nameSize : Nat := 780

def parseFiledesc (d : Bytes) : Filedesc :=
  let converted := rdpUtf16leToUtf8 (List.replicate nameSize 0) (nameSize - 1)
    (utf16leUpToNul ((d.drop 72).take 520))
  { flags := le32At d 0
    attrs := le32At d 36
    mtime := le32At d 56 + le32At d 60 * 0x100000000
    size := le32At d 64 * 0x100000000 + le32At d 68
    name := converted.1.take (min (converted.2.getD 0) (nameSize - 1)) }

/-- `rdp_cliprdr_parse_file_list` into an array of `cap` descriptors. -/
def parseFileList (p : Bytes) (cap : Nat) : Option (List Filedesc) :=
  if p.length < 4 then none
  else
    let count := min (le32At p 0) ((p.length - 4) / filedescWire)
    some ((List.range (min count cap)).map fun i =>
      parseFiledesc (p.drop (4 + i * filedescWire)))

def buildFiledesc (f : Filedesc) : Bytes :=
  leBytes 4 f.flags ++ List.replicate 32 (0 : UInt8) ++ leBytes 4 f.attrs ++
    List.replicate 16 (0 : UInt8) ++ leBytes 8 f.mtime ++ leBytes 4 (f.size >>> 32) ++
    leBytes 4 f.size ++ (rdpUtf8ToUtf16le (List.replicate 520 0) 518 f.name).1

/-- `rdp_cliprdr_build_file_list`, into a buffer that is as large as the result. -/
def buildFileList (files : List Filedesc) : Option Bytes :=
  if files.length > 0xffffff then none
  else some (leBytes 4 files.length ++ files.flatMap buildFiledesc)

def filecontentsSize : Nat := 0x1

def filecontentsRange : Nat := 0x2

/-- `struct rdp_cliprdr_filereq`, without the id of a locked clipboard. -/
structure Filereq where
  streamId : Nat
  lindex : Nat
  flags : Nat
  position : Nat
  cbRequested : Nat
  deriving DecidableEq

def parseFilecontentsRequest (p : Bytes) : Option Filereq :=
  if p.length < 24 then none
  else some
    { streamId := le32At p 0, lindex := le32At p 4, flags := le32At p 8
      position := le32At p 12 + le32At p 16 * 0x100000000, cbRequested := le32At p 20 }

def parseFilecontentsResponse (p : Bytes) : Option (Nat × Bytes) :=
  if p.length < 4 then none else some (le32At p 0, p.drop 4)

theorem length_of_dibToBmp {dib bmp : Bytes} (made : dibToBmp dib = some bmp) :
    bmp.length = bmpFileHdr + dib.length := by
  have header : (literal "BM").length = 2 := rfl
  unfold dibToBmp at made
  dsimp only at made
  split_ifs at made <;> cases made <;>
    simp only [List.length_append, length_leBytes, header, bmpFileHdr]

open List

variable {needle block rest : Bytes} {c : UInt8} {value : Nat}

theorem findSub_skip (absent : c ∉ block) :
    findSub (c :: needle) (block ++ rest) =
      (findSub (c :: needle) rest).map (· + block.length) := by
  induction block with
  | nil => simp
  | cons first block ih =>
    rw [mem_cons, not_or] at absent
    rw [cons_append, findSub, if_neg (by simp [absent.1]), ih absent.2, Option.map_map]
    rfl

/-- The number behind a text, which is found behind the first place where it might begin. -/
theorem htmlOffset_second (c : UInt8) (needle before block rest : Bytes)
    (absent : c ∉ before) (later : c ∉ block)
    (other : (c :: needle).isPrefixOf (c :: (block ++ (c :: needle ++ rest))) = false)
    (reads : htmlDigits 0 false rest = some value) :
    htmlOffset (before ++ c :: (block ++ (c :: needle ++ rest))) (c :: needle) = some value := by
  have here : findSub (c :: needle) (c :: needle ++ rest) = some 0 := by simp [findSub]
  have found : findSub (c :: needle) (before ++ c :: (block ++ (c :: needle ++ rest))) =
      some (before ++ c :: block).length := by
    rw [findSub_skip absent, findSub, if_neg (by rw [other]; decide), findSub_skip later, here]
    simp
    omega
  have split : before ++ c :: (block ++ (c :: needle ++ rest)) =
      (before ++ c :: block ++ c :: needle) ++ rest := by simp
  rw [htmlOffset, found, Option.bind_some, split, drop_left' length_append, reads]

theorem not_mem_tenDigits (letter : 0x39 < c) : c ∉ tenDigits value := by
  intro member
  obtain ⟨i, _, rfl⟩ := List.mem_map.1 member
  rw [UInt8.lt_iff_toNat_lt] at letter
  simp at letter
  omega

theorem htmlDigits_digit (small : value < 10 ^ 10) (k : Nat) (any : Bool) :
    htmlDigits (value / 10 ^ (k + 1)) any (low (0x30 + value / 10 ^ k % 10) :: rest) =
      htmlDigits (value / 10 ^ k) true rest := by
  have digit : (low (0x30 + value / 10 ^ k % 10)).toNat = 0x30 + value / 10 ^ k % 10 := by
    rw [toNat_low]
    omega
  have shifted : value / 10 ^ (k + 1) * 10 + value / 10 ^ k % 10 = value / 10 ^ k := by
    rw [Nat.pow_succ, ← Nat.div_div_eq_div_mul]
    omega
  have below : value / 10 ^ k ≤ value := Nat.div_le_self _ _
  rw [htmlDigits, if_pos]
  · rw [digit, Nat.add_sub_cancel_left, shifted, if_neg (by omega)]
  · rw [UInt8.le_iff_toNat_le, UInt8.le_iff_toNat_le]
    simp
    omega

theorem htmlDigits_tenDigits (small : value < 10 ^ 10) :
    htmlDigits 0 false (tenDigits value ++ 0x0D :: rest) = some value := by
  have digits (k : Nat) (any : Bool) : htmlDigits (value / 10 ^ (k + 1)) any
      ((range (k + 1)).map (fun i => low (0x30 + value / 10 ^ (k - i) % 10)) ++ 0x0D :: rest) =
        some value := by
    induction k generalizing any with
    | zero =>
      have last := @htmlDigits_digit (0x0D :: rest) value small 0 any
      simpa [htmlDigits] using last
    | succ k ih =>
      rw [range_succ_eq_map, map_cons, cons_append, Nat.sub_zero, htmlDigits_digit small, ← ih true]
      simp [Function.comp_def]
  have none : value / 10 ^ (9 + 1) = 0 := Nat.div_eq_of_lt small
  rw [← none]
  exact digits 9 false

theorem htmlUnwrap_htmlHdr {a b s e : Nat} (order : s ≤ e) (small : e < 10 ^ 10)
    (inside : e ≤ (htmlHdr a b s e ++ rest).length) :
    htmlUnwrap (htmlHdr a b s e ++ rest) = (s, e - s) := by
  have starts : htmlOffset (htmlHdr a b s e ++ rest) (literal "StartFragment:") = some s :=
    htmlOffset_second 0x53 (literal "tartFragment:") (literal "Version:0.9\r\n")
      (literal "tartHTML:" ++ tenDigits a ++ literal "\r\nEndHTML:" ++ tenDigits b ++
        literal "\r\n")
      (tenDigits s ++ 0x0D :: (literal "\nEndFragment:" ++ tenDigits e ++ literal "\r\n" ++ rest))
      (by decide) (by simp [not_mem_tenDigits]; decide) rfl (htmlDigits_tenDigits (by omega))
  have ends : htmlOffset (htmlHdr a b s e ++ rest) (literal "EndFragment:") = some e :=
    htmlOffset_second 0x45 (literal "ndFragment:")
      (literal "Version:0.9\r\nStartHTML:" ++ tenDigits a ++ literal "\r\n")
      (literal "ndHTML:" ++ tenDigits b ++ literal "\r\nStartFragment:" ++ tenDigits s ++
        literal "\r\n") (tenDigits e ++ 0x0D :: 0x0A :: rest)
      (by simp [not_mem_tenDigits]; decide) (by simp [not_mem_tenDigits]; decide) rfl
      (htmlDigits_tenDigits small)
  rw [htmlUnwrap, starts, ends]
  exact if_pos ⟨order, inside⟩

theorem length_htmlHdr (a b s e : Nat) : (htmlHdr a b s e).length = (htmlHdr 0 0 0 0).length := by
  have digits (value : Nat) : (tenDigits value).length = 10 := by simp [tenDigits]
  simp [htmlHdr, digits]

theorem htmlUnwrap_inside (p : Bytes) : (htmlUnwrap p).1 + (htmlUnwrap p).2 ≤ p.length := by
  have marked : ((htmlMarked p).getD (0, p.length)).1 +
      ((htmlMarked p).getD (0, p.length)).2 ≤ p.length := by
    cases found : htmlMarked p with
    | none => simp
    | some slice =>
      obtain ⟨smo, _, found⟩ := Option.bind_eq_some_iff.1 found
      obtain ⟨emo, _, found⟩ := Option.bind_eq_some_iff.1 found
      dsimp only at found
      split_ifs at found with ordered
      cases found
      dsimp only [Option.getD_some]
      omega
  unfold htmlUnwrap
  split
  · split_ifs
    · omega
    · exact marked
  · exact marked

/-- **The HTML envelope is transparent**: what is wrapped comes back as it was, and what
is taken from any bytes lies inside them. -/
theorem html_envelope :
    (∀ cap html out, htmlWrap cap html = some out → ∃ before after,
      out = before ++ html ++ after ∧ htmlUnwrap out = (before.length, html.length)) ∧
    ∀ p, (htmlUnwrap p).1 + (htmlUnwrap p).2 ≤ p.length := by
  refine ⟨fun cap html out wraps => ?_, htmlUnwrap_inside⟩
  unfold htmlWrap at wraps
  dsimp only at wraps
  split_ifs at wraps with long wide
  cases wraps
  refine ⟨_, htmlEfrag ++ htmlPost, append_assoc _ _ _, ?_⟩
  simp only [append_assoc]
  rw [htmlUnwrap_htmlHdr (Nat.le_add_right _ _) (by omega), Nat.add_sub_cancel_left]
  · simp [length_htmlHdr, Nat.add_assoc]
  · simp only [length_append, length_htmlHdr]
    omega

end RdpServer.Channels.Cliprdr
