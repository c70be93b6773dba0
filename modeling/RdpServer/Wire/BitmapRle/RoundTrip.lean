import RdpServer.Wire.BitmapRle.Placement
import RdpServer.Wire.BitmapRle.Safety

/-!
# The interleaved RLE round trip

The orders of the encoder are orders of the grammar, with the same pixels
(`Order.WF.spells`). The stream that the encoder leaves denotes all pixels, from
the last row to the first, and so decodes to the rows in that order.
-/

namespace RdpServer.BitmapRle

open Bytes Predict List BitmapRle.Order

theorem pixelAt_flatMap {literal : List Pixel} (narrow : ∀ pixel ∈ literal, Is24 pixel) {k : Nat}
    (inside : k < literal.length) : pixelAt (literal.flatMap pixelBytes) k = literal.getD k 0 := by
  have present : literal[k]? = some literal[k] := getElem?_eq_getElem inside
  have octet : ∀ i < 3, (literal.flatMap pixelBytes).getD (3 * k + i) 0 =
      (pixelBytes literal[k]).getD i 0 := by
    intro i third
    rw [getD_eq_getElem?_getD, getElem?_flatMap_pixelBytes _ _ _ third, present]
    rfl
  have first := octet 0 (by decide)
  rw [Nat.add_zero] at first
  rw [pixelAt, first, octet 1 (by decide), octet 2 (by decide), getD_eq_getElem _ _ inside]
  exact ldPixel_of_pixelBytes (narrow _ (getElem_mem inside)) rfl

/-- **An order of the encoder** is an order of the grammar. -/
theorem Order.WF.spells {order : Order} (wf : order.WF) :
    ∃ item : Item, item.Spells order.wire ∧
      ∀ width pixels, item.expand width pixels = order.expand width pixels := by
  obtain ⟨some, bound, wf⟩ := wf
  cases order with
  | fill n =>
    exact ⟨⟨.fill, n, [], rfl⟩, ⟨_, heading_header _ _ rfl some bound, (append_nil _).symm⟩,
      fun _ _ => rfl⟩
  | mix n =>
    exact ⟨⟨.mix, n, [], rfl⟩, ⟨_, heading_header _ _ rfl some bound, (append_nil _).symm⟩,
      fun _ _ => rfl⟩
  | fom n mask =>
    exact ⟨⟨.fom, n, mask, wf⟩, ⟨_, heading_fomHeader some bound, rfl⟩, fun _ _ => rfl⟩
  | color n hue =>
    refine ⟨⟨.color, n, pixelBytes hue, rfl⟩, ⟨_, heading_header _ _ rfl some bound, rfl⟩,
      fun width pixels => grow_congr fun _ _ _ _ => ?_⟩
    exact ldPixel_of_pixelBytes wf rfl
  | copy literal =>
    refine ⟨⟨.copy, literal.length, literal.flatMap pixelBytes, length_flatMap_pixelBytes _⟩,
      ⟨_, heading_header _ _ rfl some bound, rfl⟩,
      fun width pixels => grow_congr fun step below _ _ => ?_⟩
    rw [Nat.zero_add]
    exact pixelAt_flatMap wf below

variable {orders : List Order}

section

variable (wf : ∀ order ∈ orders, order.WF)
include wf

theorem parses_wireAll :
    ∃ items, Parses (wireAll orders) items ∧
      ∀ width pixels, Item.expandAll width items pixels = expandAll width orders pixels := by
  induction orders with
  | nil => exact ⟨[], .nil, fun _ _ => rfl⟩
  | cons order orders ih =>
    obtain ⟨item, spells, drawn⟩ := (wf order mem_cons_self).spells
    obtain ⟨items, parsed, allDrawn⟩ := ih fun other member => wf other (.tail _ member)
    refine ⟨item :: items, .cons spells parsed, fun width pixels => ?_⟩
    change Item.expandAll width items (item.expand width pixels) = _
    rw [drawn, allDrawn]
    rfl

/-- **Decoding orders.** Orders that denote a whole image decode to its pixels,
whatever the destination held before. -/
theorem decompress_wireAll {width height : Nat} {pixels : List Pixel} {dst : Bytes}
    (positive : 0 < width ∧ 0 < height) (small : 3 * (width * height) ≤ sizeMax)
    (denoted : expandAll width orders [] = pixels) (complete : pixels.length = width * height)
    (room : 3 * (width * height) ≤ dst.length) :
    ∃ final, rdpBitmapRleDecompress24 dst (wireAll orders) width height = .ok final ∧
      final.take (3 * (width * height)) = pixels.flatMap pixelBytes := by
  obtain ⟨items, parsed, drawn⟩ := parses_wireAll wf
  have whole : Item.total items = width * height := by
    have length := Item.length_expandAll width items []
    rw [drawn, denoted, complete, length_nil, Nat.zero_add] at length
    exact length.symm
  refine ⟨_, (decompress_of_parses positive room small parsed (le_of_eq whole)).trans
    (if_pos whole), ?_⟩
  rw [drawn, denoted, take_left']
  rw [length_flatMap_pixelBytes, complete]

theorem decompress_image {width height : Nat} {src dst : Bytes}
    (widthIn : 1 ≤ width ∧ width ≤ 64) (heightIn : 1 ≤ height ∧ height ≤ 64)
    (size : src.length = 3 * width * height)
    (denoted : expandAll width orders [] = imagePixels src width height)
    (large : 3 * width * height ≤ dst.length) :
    ∃ final, rdpBitmapRleDecompress24 dst (wireAll orders) width height = .ok final ∧
      bottomUp final width height = src := by
  have area : width * height ≤ 64 * 64 := Nat.mul_le_mul widthIn.2 heightIn.2
  have area3 : 3 * width * height = 3 * (width * height) := Nat.mul_assoc _ _ _
  have limit : 3 * (64 * 64) ≤ sizeMax := by decide
  obtain ⟨final, decoded, pixels⟩ := decompress_wireAll wf ⟨by omega, by omega⟩ (by omega) denoted
    (length_imagePixels height) (by omega : 3 * (width * height) ≤ dst.length)
  refine ⟨final, decoded, ?_⟩
  rw [← area3, imagePixels_bytes height (le_of_eq size.symm)] at pixels
  rw [← bottomUp_take height (le_rfl), pixels, bottomUp_bottomUp height size]

end

/-- **Interleaved RLE is lossless**: an image of up to 64 by 64 pixels always
compresses, to at most three octets more than its pixels take, and the output
decodes, in any buffer the pixels fit, to the rows of the image bottom-up. -/
theorem decompress_compress {width height cap : Nat} {src : Bytes}
    (widthIn : 1 ≤ width ∧ width ≤ 64) (heightIn : 1 ≤ height ∧ height ≤ 64)
    (size : src.length = 3 * width * height) (room : 3 * width * height + 3 ≤ cap) :
    ∃ out, rdpBitmapRleCompress24 cap src width height = some out ∧
      out.length ≤ 3 * width * height + 3 ∧
      ∀ dst : Bytes, 3 * width * height ≤ dst.length →
        ∃ final, rdpBitmapRleDecompress24 dst out width height = .ok final ∧
          bottomUp final width height = src := by
  obtain ⟨orders, wf, -, compressed, denoted, cost⟩ := orders_placed widthIn heightIn room
  exact ⟨_, compressed, cost, fun dst large =>
    decompress_image wf widthIn heightIn size denoted large⟩

/-- The round trip on an image of three columns and two rows. -/
theorem decompress_compress_three_by_two :
    ∃ out, rdpBitmapRleCompress24 21 ((List.range 18).map Bytes.low) 3 2 = some out ∧
      out.length ≤ 21 ∧
      ∀ dst : Bytes, 18 ≤ dst.length →
        ∃ final, rdpBitmapRleDecompress24 dst out 3 2 = .ok final ∧
          bottomUp final 3 2 = (List.range 18).map Bytes.low :=
  decompress_compress (by decide) (by decide) (by decide) (by decide)

end RdpServer.BitmapRle
