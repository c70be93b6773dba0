import Mathlib.Data.List.GetD
import RdpServer.Wire.BitmapRle.Grammar

/-!
# The interleaved RLE decoder on any input

The decoder accepts the streams of the grammar that produce a whole image, and nothing else;
on no input does it touch memory outside its buffers (`decompress_safe`). A pixel loop either
has what it needs for every step and room for every pixel, or rejects (`Feeds`).
-/

namespace RdpServer.BitmapRle

open Bytes Predict List

/-- A computation has a result of which `P` holds, if there is `enough` for it, and rejects
otherwise. -/
structure Yields (enough : Prop) (P : Dec → Prop) (outcome : Checked Dec) : Prop where
  result : enough → ∃ next, outcome = .ok next ∧ P next
  lacking : ¬ enough → outcome = .error .reject

section Loops

variable {width total : Nat} {tail : Bytes} {pixels : List Pixel} {d : Dec}
  {enough other : Prop} {P Q : Dec → Prop} {outcome : Checked Dec}

theorem Yields.imp (yields : Yields enough P outcome) (same : enough ↔ other)
    (maps : ∀ d, P d → Q d) : Yields other Q outcome where
  result all := (yields.result (same.2 all)).imp fun next => And.imp_right (maps next)
  lacking short := yields.lacking fun all => short (same.1 all)

theorem Yields.map (yields : Yields enough P outcome) (same : enough ↔ other) (f : Dec → Dec)
    (maps : ∀ d, P d → Q (f d)) : Yields other Q (outcome >>= fun d => pure (f d)) where
  result all := by
    obtain ⟨next, rfl, held⟩ := yields.result (same.2 all)
    exact ⟨f next, rfl, maps next held⟩
  lacking short := by
    rw [yields.lacking fun all => short (same.1 all)]
    rfl

theorem Yields.rejected (short : ¬ enough) (rejected : outcome = .error .reject) :
    Yields enough P outcome :=
  ⟨fun all => absurd all short, fun _ => rejected⟩

/-- A pixel loop of `n` steps has what it needs for the first `avail` ones. -/
structure Feeds (width total n : Nat) (tail : Bytes) (step : Nat → Dec → Checked (Pixel × Dec))
    (next : Nat → List Pixel → Pixel) (posAt : Nat → Nat) (avail : Nat) : Prop where
  gives : ∀ k < n, k < avail → ∀ (pixels : List Pixel) (d : Dec), d.Holds width total tail pixels →
    d.pos = posAt k →
    step k d = .ok (next k pixels, { d with pos := posAt (k + 1) }) ∧ Is24 (next k pixels)
  lacks : ∀ k < n, avail ≤ k → ∀ d : Dec, d.pos = posAt k → step k d = .error .reject

variable {n avail : Nat} {step : Nat → Dec → Checked (Pixel × Dec)}
  {next : Nat → List Pixel → Pixel} {posAt : Nat → Nat}

/-- **A pixel loop** draws all its pixels, or rejects, by induction on the steps left. -/
theorem Feeds.run_from (feeds : Feeds width total n tail step next posAt avail) (more : Nat) :
    ∀ (k : Nat) (pixels : List Pixel) (d : Dec), k + more = n → d.Holds width total tail pixels →
      d.pos = posAt k → k ≤ avail → pixels.length ≤ total →
      Yields (n ≤ avail ∧ pixels.length + more ≤ total)
        (fun final => final.pos = posAt n ∧ final.Holds width total tail (grow next more k pixels))
        (putLoop width total step more k d) := by
  induction more with
  | zero =>
    rintro k pixels d rfl held position reached room
    exact ⟨fun _ => ⟨d, rfl, position, held⟩, fun lacking => absurd ⟨reached, room⟩ lacking⟩
  | succ more ih =>
    intro k pixels d left held position reached room
    by_cases below : k < avail
    · obtain ⟨stepped, narrow⟩ := feeds.gives k (by omega) below pixels d held position
      by_cases space : pixels.length < total
      · obtain ⟨after, stored, afterPos, afterHeld⟩ :=
          (held.setPos (posAt (k + 1))).put space narrow
        have rest := ih (k + 1) _ after (by omega) afterHeld afterPos below
          (by rw [length_append]; exact space)
        rw [length_append, length_singleton, Nat.add_assoc, Nat.add_comm 1] at rest
        simp only [putLoop, stepped, bind, Except.bind, stored]
        exact rest
      · have full : put width total { d with pos := posAt (k + 1) } (next k pixels) =
            .error .reject := if_pos (by rw [held.out]; omega)
        refine .rejected (by omega) ?_
        simp only [putLoop, stepped, bind, Except.bind, full]
    · refine .rejected (by omega) ?_
      simp only [putLoop, feeds.lacks k (by omega) (by omega) d position, bind, Except.bind]

end Loops

section Steps

variable {width total start n : Nat} {src octets tail : Bytes} {d : Dec}

theorem irPixel_at {k : Nat} (position : d.pos = start + 3 * k)
    (inside : 3 * k + 3 ≤ (src.drop start).length) :
    irPixel src d = .ok (pixelAt (src.drop start) k, { d with pos := start + 3 * (k + 1) }) := by
  have octet : ∀ i < 3, src[d.pos + i]? = some ((src.drop start).getD (3 * k + i) 0) := by
    intro i third
    rw [position, Nat.add_assoc, ← getElem?_drop, getElem?_eq_getElem (by omega),
      getD_eq_getElem _ _ (by omega)]
  have next : d.pos + 3 = start + 3 * (k + 1) := by omega
  have first : src[d.pos]? = some _ := octet 0 (by decide)
  simp only [irPixel, ir8_eq, first, octet 1 (by decide), octet 2 (by decide),
    Option.elim_some, bind, Except.bind, next]
  rfl

theorem is24_pixelAt (data : Bytes) (k : Nat) : Is24 (pixelAt data k) := is24_ldPixel _ _ _

theorem Dec.Holds.is24_pixel {pixels : List Pixel} (held : d.Holds width total tail pixels)
    (code : Code) (data : Bytes) (k : Nat) : Is24 (code.pixel data width k pixels) := by
  cases code with
  | fill => exact held.is24_aboveOf
  | mix => exact is24_mix held.is24_aboveOf
  | fom =>
    simp only [Code.pixel]
    split
    · exact is24_mix held.is24_aboveOf
    · exact held.is24_aboveOf
  | color => exact is24_pixelAt data 0
  | copy => exact is24_pixelAt data k
  | bicolor =>
    simp only [Code.pixel]
    split <;> exact is24_pixelAt _ _

theorem feeds_copy (src : Bytes) (n start : Nat) :
    Feeds width total n tail (copyPixel src) (Code.copy.pixel (src.drop start) width)
      (fun k => start + 3 * k) ((src.drop start).length / 3) where
  gives k _ below pixels d held position := by
    refine ⟨?_, held.is24_pixel .copy _ k⟩
    rw [copyPixel, irPixel_at position (by omega)]
    rfl
  lacks k _ past d position := by
    apply irPixel_end
    rw [length_drop] at past
    omega

theorem feeds_fom (positive : 0 < width) (src : Bytes) (n start : Nat) :
    Feeds width total n tail (fomPixel src width) (Code.fom.pixel (src.drop start) width)
      (fun _ => start) (8 * (src.drop start).length) where
  gives k _ below pixels d held position := by
    refine ⟨?_, held.is24_pixel .fom _ k⟩
    subst position
    have ahead : src.drop d.pos = src.drop d.pos ++ [] := (append_nil _).symm
    rw [fomPixel_ok held positive ahead (by omega)]
    rfl
  lacks k _ past d position := by
    rw [fomPixel, if_pos]
    rw [length_drop] at past
    omega

end Steps

section Orders

variable {width total : Nat} {src tail : Bytes} {pixels : List Pixel} {d : Dec}

/-- What a body of an order comes to: its pixels, if its data is there and the image has room
for them, and a rejection otherwise. -/
def Drawn (width total : Nat) (src tail : Bytes) (pixels : List Pixel) (d : Dec)
    (code : Code) (n : Nat) (outcome : Checked Dec) : Prop :=
  Yields (code.dataLength n ≤ (src.drop d.pos).length ∧ pixels.length + code.pixels n ≤ total)
    (fun next => next.pos = d.pos + code.dataLength n ∧ next.Holds width total tail
      (grow (code.pixel (src.drop d.pos) width) (code.pixels n) 0 pixels)) outcome

theorem Feeds.drawn {code : Code} {n avail start : Nat} {posAt : Nat → Nat}
    {step : Nat → Dec → Checked (Pixel × Dec)}
    (feeds : Feeds width total (code.pixels n) tail step (code.pixel (src.drop d.pos) width) posAt
      avail) (held : d.Holds width total tail pixels) (within : pixels.length ≤ total)
    (first : posAt 0 = start) (last : posAt (code.pixels n) = d.pos + code.dataLength n)
    (reads : code.pixels n ≤ avail ↔ code.dataLength n ≤ (src.drop d.pos).length) :
    Drawn width total src tail pixels d code n
      (putLoop width total step (code.pixels n) 0 { d with pos := start }) :=
  (feeds.run_from _ 0 pixels _ (Nat.zero_add _) (held.setPos start) first.symm (Nat.zero_le _)
    within).imp (and_congr_left' reads) fun _ both => ⟨both.1.trans last, both.2⟩

/-- A body that reads its data before the first pixel. -/
theorem Dec.Holds.drawn (held : d.Holds width total tail pixels) (within : pixels.length ≤ total)
    (code : Code) (n : Nat) {step : Nat → Dec → Checked (Pixel × Dec)}
    (data : code.dataLength n ≤ (src.drop d.pos).length)
    (steps : ∀ (k : Nat) (longer : List Pixel) (e : Dec), e.Holds width total tail longer →
      step k e = .ok (code.pixel (src.drop d.pos) width k longer, e)) :
    Drawn width total src tail pixels d code n (putLoop width total step (code.pixels n) 0
      { d with pos := d.pos + code.dataLength n }) := by
  have feeds : Feeds width total (code.pixels n) tail step (code.pixel (src.drop d.pos) width)
      (fun _ => d.pos + code.dataLength n) (code.pixels n) :=
    { gives := fun k _ _ longer e holds position => by
        refine ⟨?_, holds.is24_pixel code _ k⟩
        rw [steps k longer e holds, ← position]
      lacks := fun k below past => absurd below (Nat.not_lt.2 past) }
  exact feeds.drawn held within rfl rfl ⟨fun _ => data, fun _ => le_rfl⟩

/-- **The body of an order**: one case for each code. -/
theorem decBody_drawn (positive : 0 < width) (held : d.Holds width total tail pixels)
    (within : pixels.length ≤ total) (code : Code) (n : Nat) :
    Drawn width total src tail pixels d code n (decBody src width total code n d) := by
  cases code with
  | fill =>
    refine held.drawn within .fill n (Nat.zero_le _) fun k longer e holds => ?_
    rw [fillPixel, holds.above positive]
    rfl
  | mix =>
    refine held.drawn within .mix n (Nat.zero_le _) fun k longer e holds => ?_
    rw [mixPixel, holds.above positive]
    rfl
  | fom =>
    have reads : n ≤ 8 * (src.drop d.pos).length ↔ (n + 7) / 8 ≤ (src.drop d.pos).length := by
      omega
    have run := (feeds_fom positive src n d.pos).run_from n 0 pixels d (Nat.zero_add _) held rfl
      (Nat.zero_le _) within
    exact run.map (and_congr_left' reads) (fun d => { d with pos := d.pos + (n + 7) / 8 })
      fun _ both => ⟨congrArg (· + (n + 7) / 8) both.1, both.2.setPos _⟩
  | color =>
    by_cases data : 3 ≤ (src.drop d.pos).length
    · have read : irPixel src d = .ok (pixelAt (src.drop d.pos) 0, { d with pos := d.pos + 3 }) :=
        irPixel_at (k := 0) rfl data
      rw [decBody, read]
      exact held.drawn within .color n data fun _ _ _ _ => rfl
    · refine .rejected (fun all => data all.1) ?_
      rw [length_drop] at data
      rw [decBody, irPixel_end (by omega)]
      rfl
  | copy =>
    have reads : n ≤ (src.drop d.pos).length / 3 ↔ 3 * n ≤ (src.drop d.pos).length := by omega
    exact (feeds_copy src n d.pos).drawn held within rfl rfl reads
  | bicolor =>
    have second : irPixel src { d with pos := d.pos + 3 } =
        if 6 ≤ (src.drop d.pos).length then
          .ok (pixelAt (src.drop d.pos) 1, { d with pos := d.pos + 6 })
        else .error .reject := by
      split_ifs with data
      · exact irPixel_at (d := { d with pos := d.pos + 3 }) (k := 1) rfl data
      · rw [length_drop] at data
        exact irPixel_end (by change src.length < d.pos + 3 + 3; omega)
    by_cases one : 3 ≤ (src.drop d.pos).length
    · have first : irPixel src d = .ok (pixelAt (src.drop d.pos) 0, { d with pos := d.pos + 3 }) :=
        irPixel_at (k := 0) rfl one
      simp only [decBody, first, bind, Except.bind, second]
      split_ifs with data
      · exact held.drawn within .bicolor n data fun _ _ _ _ => rfl
      · exact .rejected (fun all => data all.1) rfl
    · refine .rejected (fun all => one (le_trans (show 3 ≤ 6 by decide) all.1)) ?_
      rw [length_drop] at one
      rw [decBody, irPixel_end (by omega)]
      rfl

theorem Item.expand_append (item : Item) (rest : Bytes) (width : Nat) (pixels : List Pixel) :
    grow (item.code.pixel (item.data ++ rest) width) item.count 0 pixels =
      item.expand width pixels := by
  refine grow_congr fun step below longer _ => ?_
  have sized := item.sized
  have packed : ∀ k, 3 * k + 3 ≤ item.data.length →
      pixelAt (item.data ++ rest) k = pixelAt item.data k := by
    intro k inside
    rw [pixelAt, getD_append _ _ _ _ (by omega), getD_append _ _ _ _ (by omega),
      getD_append _ _ _ _ (by omega)]
    rfl
  rw [Nat.zero_add]
  rw [count] at below
  cases code : item.code with
  | fill => rfl
  | mix => rfl
  | fom =>
    rw [code] at sized below
    simp only [Code.dataLength, Code.pixels] at sized below
    have bit : maskBit (item.data ++ rest) step = maskBit item.data step := by
      rw [maskBit, getD_append _ _ _ _ (by omega)]
      rfl
    simp only [Code.pixel, bit]
  | color =>
    rw [code] at sized
    exact packed 0 (by rw [sized]; exact le_rfl)
  | copy =>
    rw [code] at sized below
    simp only [Code.dataLength, Code.pixels] at sized below
    exact packed step (by omega)
  | bicolor =>
    rw [code] at sized
    simp only [Code.dataLength] at sized
    simp only [Code.pixel]
    rw [packed 0 (by omega), packed 1 (by omega)]

/-- **An order** that is there, and that the image has room for, is drawn. -/
theorem decOrder_of_spells {item : Item} {octets rest : Bytes} (positive : 0 < width)
    (shown : d.Holds width total tail pixels) (spells : item.Spells octets)
    (ahead : src.drop d.pos = octets ++ rest) (room : pixels.length + item.count ≤ total) :
    ∃ next, decOrder src width total d = .ok next ∧ next.pos = d.pos + octets.length ∧
      next.Holds width total tail (item.expand width pixels) := by
  obtain ⟨heading, announced, rfl⟩ := spells
  rw [append_assoc] at ahead
  have follows : src.drop (d.pos + heading.length) = item.data ++ rest := drop_pos_add ahead
  have drawn : Drawn width total src tail pixels { d with pos := d.pos + heading.length }
      item.code item.n _ := decBody_drawn positive (shown.setPos _) (by omega) item.code item.n
  obtain ⟨next, ran, position, nextShown⟩ := drawn.result
    ⟨by rw [follows, length_append, item.sized]; exact Nat.le_add_right _ _, room⟩
  refine ⟨next, ?_, ?_, ?_⟩
  · rw [decOrder_eq, decHead_of_heading announced ahead]
    exact ran
  · rw [position, length_append, item.sized, Nat.add_assoc]
  · rw [← item.expand_append rest, ← follows]
    exact nextShown

/-- Anything else is rejected. -/
theorem decOrder_cases (positive : 0 < width) (shown : d.Holds width total tail pixels)
    (within : pixels.length ≤ total) :
    (∃ (item : Item) (octets rest : Bytes), item.Spells octets ∧
      src.drop d.pos = octets ++ rest ∧ pixels.length + item.count ≤ total) ∨
    decOrder src width total d = .error .reject := by
  rw [decOrder_eq]
  rcases decHead_cases src d with ⟨code, n, heading, behind, announced, ahead, read⟩ | rejected
  · have drawn : Drawn width total src tail pixels { d with pos := d.pos + heading.length } code n
        _ := decBody_drawn positive (shown.setPos _) within code n
    have follows : src.drop (d.pos + heading.length) = behind := drop_pos_add ahead
    by_cases enough : code.dataLength n ≤ behind.length ∧ pixels.length + code.pixels n ≤ total
    · refine .inl ⟨⟨code, n, _, length_take_of_le enough.1⟩, _,
        behind.drop (code.dataLength n), ⟨heading, announced, rfl⟩, ?_, enough.2⟩
      rw [append_assoc, take_append_drop, ahead]
    · rw [read]
      exact .inr (drawn.lacking (follows ▸ enough))
  · rw [rejected]
    exact .inr rfl

end Orders

section Streams

variable {width total : Nat} {src tail : Bytes}

theorem Item.Spells.length_pos {item : Item} {octets : Bytes} (spells : item.Spells octets) :
    0 < octets.length := by
  obtain ⟨heading, announced, rfl⟩ := spells
  have positive := announced.length_pos
  rw [length_append]
  omega

theorem Item.total_cons (item : Item) (items : List Item) :
    Item.total (item :: items) = item.count + Item.total items := by
  rfl

/-- **A stream of orders that fit** is drawn, by induction on the orders, in any number of
rounds that reaches its end. -/
theorem decLoop_of_parses {octets : Bytes} {items : List Item} (positive : 0 < width)
    (parses : Parses octets items) :
    ∀ (pixels : List Pixel) (d : Dec), src.drop d.pos = octets →
      d.Holds width total tail pixels → pixels.length + Item.total items ≤ total →
      ∃ final, final.Holds width total tail (Item.expandAll width items pixels) ∧
        ∀ rounds, src.length ≤ d.pos + rounds → decLoop src width total rounds d = .ok final := by
  induction parses with
  | nil =>
    intro pixels d ended shown _
    have past := drop_eq_nil_iff.1 ended
    refine ⟨d, shown, fun rounds _ => ?_⟩
    cases rounds with
    | zero => rfl
    | succ rounds => rw [decLoop, if_neg (Nat.not_lt.2 past)]
  | @cons item items octets rest spells _ ih =>
    intro pixels d ahead shown room
    rw [Item.total_cons, ← Nat.add_assoc] at room
    have advances := spells.length_pos
    have length := congrArg length ahead
    rw [length_drop, length_append] at length
    obtain ⟨next, ran, position, nextShown⟩ :=
      decOrder_of_spells positive shown spells ahead (by omega)
    obtain ⟨final, finalShown, loops⟩ := ih _ next (by rw [position]; exact drop_pos_add ahead)
      nextShown (by rw [item.length_expand]; exact room)
    refine ⟨final, finalShown, fun rounds enough => ?_⟩
    cases rounds with
    | zero => omega
    | succ rounds =>
      rw [decLoop, if_pos (by omega), ran]
      exact loops rounds (by omega)

/-- **Any stream** is one of orders that fit, or is rejected, by induction on a bound of the
octets left. -/
theorem decLoop_cases (positive : 0 < width) (left : Nat) :
    ∀ (pixels : List Pixel) (d : Dec), src.length ≤ d.pos + left →
      d.Holds width total tail pixels → pixels.length ≤ total →
      (∃ items, Parses (src.drop d.pos) items ∧ pixels.length + Item.total items ≤ total) ∨
        ∀ rounds, src.length ≤ d.pos + rounds →
          decLoop src width total rounds d = .error .reject := by
  induction left with
  | zero =>
    intro pixels d enough shown within
    refine .inl ⟨[], ?_, within⟩
    rw [Nat.add_zero] at enough
    rw [drop_eq_nil_of_le enough]
    exact .nil
  | succ left ih =>
    intro pixels d enough shown within
    by_cases more : d.pos < src.length
    · rcases @decOrder_cases width total src tail pixels d positive shown within with
        ⟨item, octets, rest, spells, ahead, room⟩ | rejected
      · have advances := spells.length_pos
        obtain ⟨next, ran, position, nextShown⟩ :=
          decOrder_of_spells positive shown spells ahead room
        have follows : src.drop next.pos = rest := by
          rw [position]
          exact drop_pos_add ahead
        rcases ih _ next (by omega) nextShown (by rw [item.length_expand]; exact room) with
          ⟨items, parsed, fits⟩ | rejects
        · rw [item.length_expand, Nat.add_assoc] at fits
          refine .inl ⟨item :: items, ?_, fits⟩
          rw [ahead, ← follows]
          exact .cons spells parsed
        · refine .inr fun rounds reaches => ?_
          cases rounds with
          | zero => omega
          | succ rounds =>
            rw [decLoop, if_pos more, ran]
            exact rejects rounds (by omega)
      · refine .inr fun rounds reaches => ?_
        cases rounds with
        | zero => omega
        | succ rounds =>
          rw [decLoop, if_pos more, rejected]
          rfl
    · refine .inl ⟨[], ?_, within⟩
      rw [drop_eq_nil_of_le (Nat.not_lt.1 more)]
      exact .nil

end Streams

section Image

variable {width height : Nat} {dst src : Bytes}

theorem shows_start (positive : 0 < width) (room : 3 * (width * height) ≤ dst.length) :
    Dec.Holds width (width * height) (dst.drop (3 * (width * height))) [] { dst := dst } :=
  ⟨rfl, (decide_eq_true positive).symm, rfl, room, nofun, rfl⟩

def Denotes (width height : Nat) (src tail out : Bytes) : Prop :=
  ∃ items, Parses src items ∧ Item.total items = width * height ∧
    out = (Item.expandAll width items []).flatMap pixelBytes ++ tail

theorem decompress_of_parses {items : List Item} (positive : 0 < width ∧ 0 < height)
    (room : 3 * (width * height) ≤ dst.length) (size : 3 * (width * height) ≤ sizeMax)
    (parsed : Parses src items) (fits : Item.total items ≤ width * height) :
    rdpBitmapRleDecompress24 dst src width height =
      if Item.total items = width * height then
        .ok ((Item.expandAll width items []).flatMap pixelBytes ++ dst.drop (3 * (width * height)))
      else .error .reject := by
  have guard : ¬ (width = 0 ∨ height = 0 ∨ width * height > sizeMax / 3 ∨
      dst.length < width * height * 3) := by omega
  obtain ⟨final, shown, loops⟩ := decLoop_of_parses positive.1 parsed [] { dst := dst } rfl
    (shows_start positive.1 room) (by rw [length_nil, Nat.zero_add]; exact fits)
  have length := Item.length_expandAll width items []
  rw [length_nil, Nat.zero_add] at length
  rw [rdpBitmapRleDecompress24, if_neg guard, loops src.length (Nat.le_add_left _ _)]
  change (if final.out = width * height then pure final.dst else _) = _
  rw [shown.out, length]
  split_ifs with whole
  · have first := shown.dst
    rw [length, whole] at first
    rw [← first, ← shown.tail_eq, take_append_drop]
    rfl
  · rfl

/-- **The decoder is safe on any input** and accepts exactly the streams of orders that
produce the whole image, if the destination has room for it: it never accesses memory outside
its buffers, ends by itself, and leaves the octets behind the image as they were. -/
theorem decompress_safe (positive : 0 < width ∧ 0 < height) (dst src : Bytes) :
    rdpBitmapRleDecompress24 dst src width height ≠ .error .fault ∧
    (3 * (width * height) ≤ dst.length → ∀ rounds, src.length ≤ rounds →
      decLoop src width (width * height) rounds { dst := dst } =
        decLoop src width (width * height) src.length { dst := dst }) ∧
    ∀ out, rdpBitmapRleDecompress24 dst src width height = .ok out ↔
      (3 * (width * height) ≤ dst.length ∧ 3 * (width * height) ≤ sizeMax) ∧
        Denotes width height src (dst.drop (3 * (width * height))) out := by
  refine and_left_comm.1 ⟨fun room rounds enough => ?_, ?_⟩
  · have shown := shows_start positive.1 room
    have reach : src.length ≤ 0 + src.length := Nat.le_add_left _ _
    have further : src.length ≤ 0 + rounds := by omega
    rcases decLoop_cases positive.1 src.length [] _ reach shown (Nat.zero_le _) with
      ⟨items, parsed, fits⟩ | rejects
    · obtain ⟨final, -, loops⟩ := decLoop_of_parses positive.1 parsed [] _ rfl shown fits
      rw [loops rounds further, loops src.length reach]
    · rw [rejects rounds further, rejects src.length reach]
  have rejects : ∀ {out}, rdpBitmapRleDecompress24 dst src width height = .error .reject →
      rdpBitmapRleDecompress24 dst src width height ≠ .ok out := by
    intro out rejected same
    rw [rejected] at same
    cases same
  by_cases fits : 3 * (width * height) ≤ dst.length ∧ 3 * (width * height) ≤ sizeMax
  · have decodes : ∀ out, Denotes width height src (dst.drop (3 * (width * height))) out →
        rdpBitmapRleDecompress24 dst src width height = .ok out := by
      rintro out ⟨items, parsed, whole, rfl⟩
      rw [decompress_of_parses positive fits.1 fits.2 parsed (Nat.le_of_eq whole), if_pos whole]
    rcases decLoop_cases positive.1 src.length [] { dst := dst } (Nat.le_add_left _ _)
        (shows_start positive.1 fits.1) (Nat.zero_le _) with ⟨items, parsed, small⟩ | rejected
    · rw [drop_zero] at parsed
      rw [length_nil, Nat.zero_add] at small
      have decoded := decompress_of_parses positive fits.1 fits.2 parsed small
      refine ⟨?_, fun out => ⟨fun same => ⟨fits, ?_⟩, fun both => decodes out both.2⟩⟩
      · rw [decoded]
        split_ifs <;> exact nofun
      · rw [decoded] at same
        split_ifs at same with whole
        cases same
        exact ⟨items, parsed, whole, rfl⟩
    · have guard : ¬ (width = 0 ∨ height = 0 ∨ width * height > sizeMax / 3 ∨
          dst.length < width * height * 3) := by omega
      have refused : rdpBitmapRleDecompress24 dst src width height = .error .reject := by
        rw [rdpBitmapRleDecompress24, if_neg guard, rejected src.length (Nat.le_add_left _ _)]
        rfl
      exact ⟨by rw [refused]; exact nofun, fun out =>
        ⟨fun same => absurd same (rejects refused), fun both => decodes out both.2⟩⟩
  · have guard : width = 0 ∨ height = 0 ∨ width * height > sizeMax / 3 ∨
        dst.length < width * height * 3 := by omega
    have refused : rdpBitmapRleDecompress24 dst src width height = .error .reject := by
      rw [rdpBitmapRleDecompress24, if_pos guard]
    exact ⟨by rw [refused]; exact nofun, fun out =>
      ⟨fun same => absurd same (rejects refused), fun both => absurd both.1 fits⟩⟩

theorem decompress_safe_black :
    rdpBitmapRleDecompress24 (List.replicate 24 7) [4, 4] 4 2 ≠ .error .fault ∧
    (3 * (4 * 2) ≤ (List.replicate 24 (7 : UInt8)).length → ∀ rounds, [4, 4].length ≤ rounds →
      decLoop [4, 4] 4 (4 * 2) rounds { dst := List.replicate 24 7 } =
        decLoop [4, 4] 4 (4 * 2) [4, 4].length { dst := replicate 24 7 }) ∧
    ∀ out, rdpBitmapRleDecompress24 (replicate 24 7) [4, 4] 4 2 = .ok out ↔
      (3 * (4 * 2) ≤ (replicate 24 (7 : UInt8)).length ∧ 3 * (4 * 2) ≤ sizeMax) ∧
        Denotes 4 2 [4, 4] ((replicate 24 7).drop (3 * (4 * 2))) out :=
  decompress_safe (by decide) _ _

/-- **A destination that is too small**: one order denotes the one pixel of the image, but the
decoder refuses. -/
theorem small_destination_rejected :
    (∃ items, Parses [1] items ∧ Item.total items = 1 * 1) ∧
      rdpBitmapRleDecompress24 [] [1] 1 1 = .error .reject := by
  have spells : Item.Spells ⟨.fill, 1, [], rfl⟩ [1] :=
    ⟨[1], @Heading.short .fill 1 (by decide) (by decide), rfl⟩
  exact ⟨⟨_, .cons spells .nil, rfl⟩, by decide⟩

end Image

end RdpServer.BitmapRle
