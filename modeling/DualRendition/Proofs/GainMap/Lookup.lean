import DualRendition.GainMap.Render
import DualRendition.Proofs.Float.Single
import DualRendition.Proofs.Raster.Colors
import DualRendition.Proofs.Stop

/-!
# Reading tables

Light and gains are read from tables with an entry for each code of a depth, and the gains of a
pixel from four places of a map. None of these reads is checked: where there is nothing, the program
ends. This module says what a read gives, `Raster.lightAt` for light, and exactly when there is
something to read: `Raster.RowInRange` for the light of a row, and `Raster.RowReadable` for light
and gains.

Structure: one lemma about a single read of each table (`LightTable.lookup_eq_ok_iff`,
`GainTable.lookup_eq`, `GainTable.exists_lookup_iff`), and from there to pixels and rows. Pictures
and maps that keep to their depths can be read (`Raster.rowReadable_of_inRange`), because the taps
of a map of up to 2^24 samples a side are samples of the map.
-/

namespace DualRendition

open Outcome (OnlyAborts onlyAborts_readAt)

/-- Reading an entry of a tabulated function. -/
theorem readAt_ofFn_eq_ok_iff {α : Type} {n i : Nat} {f : Fin n → α} {entry : α} :
    readAt (Array.ofFn f) i = .ok entry ↔ ∃ h : i < n, entry = f ⟨i, h⟩ := by
  rw [Outcome.readAt_eq_ok_iff, Array.getElem?_ofFn]
  by_cases h : i < n
  · rw [dif_pos h, Option.some_inj]
    exact ⟨fun heq => ⟨h, heq.symm⟩, fun heq => heq.2.symm⟩
  · rw [dif_neg h]
    exact ⟨fun heq => (nomatch heq), fun heq => absurd heq.1 h⟩

/-! ## Light -/

/-- Linear light of the pixel at `(x, y)` in the primaries `gamut`. A gray sample stands for all
three channels. -/
def Raster.lightAt (r : Raster) (gamut : Gamut) (x y : Nat) : Rgb Float32 :=
  (r.primaries.conversion gamut).transform <| .ofFn fun c =>
    r.transfer.toLinear (Code.normalize (r.colorSample c x y) r.maxValue)

namespace LightTable

/-- The matrix and the layout of a table are those of its image. -/
theorem ofRendition_eq_ok {r : Rendition} {target : Gamut} {role : String} {table : LightTable}
    (h : ofRendition r target role = .ok table) :
    table.matrix = r.primaries.conversion target ∧ table.layout = r.layout := by
  unfold ofRendition at h
  obtain ⟨-, h⟩ := Outcome.check_bind_eq_ok.mp h
  obtain rfl := Outcome.pure_eq_ok.mp h
  exact ⟨rfl, rfl⟩

/-- Looking up a code evaluates the curve, and only the codes of the depth can be looked up. -/
theorem lookup_eq_ok_iff {r : Rendition} {target : Gamut} {role : String} {table : LightTable}
    (h : ofRendition r target role = .ok table) {code : UInt16} {light : Float32} :
    table.lookup code = .ok light ↔
      code ≤ r.maxValue ∧ light = r.transfer.toLinear (Code.normalize code r.maxValue) := by
  unfold ofRendition at h
  obtain ⟨-, h⟩ := Outcome.check_bind_eq_ok.mp h
  obtain rfl := Outcome.pure_eq_ok.mp h
  unfold lookup
  simp only [readAt_ofFn_eq_ok_iff, UInt16.ofNat_toNat, exists_prop, UInt16.le_iff_toNat_le,
    Nat.lt_succ_iff]

/-- The light of a pixel comes from its colour samples. -/
theorem pixelLight_eq_colors {t : LightTable} {r : Raster} (h : t.layout = r.layout) (x y : Nat) :
    t.pixelLight (r.sample x y) = (do
      let red ← t.lookup (r.colorSample 0 x y)
      let green ← t.lookup (r.colorSample 1 x y)
      let blue ← t.lookup (r.colorSample 2 x y)
      return t.matrix.transform ⟨red, green, blue⟩) := by
  unfold pixelLight Raster.colorSample
  rw [h]
  cases r.layout with
  | gray =>
    simp only [if_true]
    cases t.lookup (r.sample x y 0) with
    | error failure => rfl
    | ok light =>
      simp only [Outcome.ok_bind]
      exact congrArg (fun triple => pure (t.matrix.transform triple))
        (rfl : Rgb.replicate light = ⟨light, light, light⟩)
  | rgb => simp only [reduceCtorEq, if_false, Fin.val_zero, Fin.val_one, Fin.val_two]
  | rgba => simp only [reduceCtorEq, if_false, Fin.val_zero, Fin.val_one, Fin.val_two]

variable {r : Raster} {target : Gamut} {role : String} {table : LightTable}
  (h : ofRendition r.toRendition target role = .ok table)

include h

theorem pixelLight_eq_ok_iff {x y : Nat} {light : Rgb Float32} :
    table.pixelLight (r.sample x y) = .ok light ↔
      (∀ c, r.colorSample c x y ≤ r.maxValue) ∧ light = r.lightAt target x y := by
  obtain ⟨hmatrix, hlayout⟩ := ofRendition_eq_ok h
  rw [pixelLight_eq_colors hlayout, hmatrix]
  simp only [Outcome.bind_eq_ok, lookup_eq_ok_iff h, Outcome.pure_eq_ok]
  constructor
  · intro hlight
    obtain ⟨red, ⟨hred, rfl⟩, green, ⟨hgreen, rfl⟩, blue, ⟨hblue, rfl⟩, rfl⟩ := hlight
    refine ⟨?_, rfl⟩
    intro c
    match c with
    | 0 => exact hred
    | 1 => exact hgreen
    | 2 => exact hblue
  · intro hlight
    obtain ⟨hcolors, rfl⟩ := hlight
    exact ⟨_, ⟨hcolors 0, rfl⟩, _, ⟨hcolors 1, rfl⟩, _, ⟨hcolors 2, rfl⟩, rfl⟩

/-- A row can be decoded when its colours keep to the depth, ... -/
theorem exists_rowLight_iff {y : Nat} :
    (∃ row, table.rowLight r y = .ok row) ↔ r.RowInRange y := by
  unfold rowLight
  rw [exists_layOut_iff]
  refine forall_congr' fun x => forall_congr' fun hx => ?_
  simp only [Outcome.bind_eq_ok, Outcome.pure_eq_ok, pixelLight_eq_ok_iff h]
  constructor
  · intro hrow
    obtain ⟨row, light, ⟨hcolors, -⟩, -⟩ := hrow
    exact hcolors
  · intro hcolors
    exact ⟨_, _, ⟨hcolors, rfl⟩, rfl⟩

/-- ... and rows up to one of the raster when the colours of all of them do. -/
theorem exists_rows_iff {rows : Nat} (hrows : rows ≤ r.height.toNat) :
    (∃ light, layOut rows (table.rowLight r) = .ok light) ↔ r.RowsInRange rows := by
  rw [exists_layOut_iff]
  refine forall_congr' fun y => forall_congr' fun hy => ?_
  rw [exists_rowLight_iff h]
  exact ⟨fun hrow _ => hrow, fun hrow => hrow (Nat.lt_of_lt_of_le hy hrows)⟩

omit h

/-- Decoding does not fail otherwise. -/
theorem pixelLight_onlyAborts (t : LightTable) (sample : Nat → UInt16) :
    OnlyAborts (t.pixelLight sample) := by
  unfold pixelLight
  split
  · exact .bind (onlyAborts_readAt _ _) fun _ => .ok _
  all_goals
    exact .bind (onlyAborts_readAt _ _) fun _ => .bind (onlyAborts_readAt _ _) fun _ =>
      .bind (onlyAborts_readAt _ _) fun _ => .ok _

theorem rows_onlyAborts (t : LightTable) (r : Raster) (rows : Nat) :
    OnlyAborts (layOut rows (t.rowLight r)) :=
  layOut_onlyAborts fun _ _ => layOut_onlyAborts fun _ _ =>
    .bind (t.pixelLight_onlyAborts _) fun _ => .ok _

end LightTable

/-! ## Gains -/

/-- Reading the pieces of the three channels where they are laid end to end. -/
theorem Rgb.getElem?_flatMap {α β : Type} {piece : α → Array β} {length : Nat}
    (h : ∀ a, (piece a).size = length) (t : Rgb α) (c : Fin 3) {i : Nat} (hi : i < length) :
    (t.toList.toArray.flatMap piece)[c * length + i]? = (piece (t.get c))[i]? := by
  have hpieces : t.toList.toArray.flatMap piece =
      piece t.red ++ (piece t.green ++ piece t.blue) := by
    simp [toList]
  rw [hpieces]
  match c with
  | 0 =>
    show (piece t.red ++ (piece t.green ++ piece t.blue))[0 * length + i]? = (piece t.red)[i]?
    rw [Nat.zero_mul, Nat.zero_add, Array.getElem?_append_left (by rwa [h])]
  | 1 =>
    show (piece t.red ++ (piece t.green ++ piece t.blue))[1 * length + i]? = (piece t.green)[i]?
    rw [Nat.one_mul, Array.getElem?_append_right (by rw [h]; omega), h, Nat.add_sub_cancel_left,
      Array.getElem?_append_left (by rwa [h])]
  | 2 =>
    show (piece t.red ++ (piece t.green ++ piece t.blue))[2 * length + i]? = (piece t.blue)[i]?
    rw [Nat.two_mul, Nat.add_assoc, Array.getElem?_append_right (by rw [h]; omega), h,
      Nat.add_sub_cancel_left, Array.getElem?_append_right (by rw [h]; omega), h,
      Nat.add_sub_cancel_left]

namespace Raster

variable {base map : Raster}

/-- The gains of the pixel of a map at `(x, y)` can be read: the pixel is in the buffer, and no code
of it reads behind the end of the table. -/
def GainsReadable (map : Raster) (x y : Nat) : Prop :=
  map.pixelStart x y + map.channels ≤ map.samples.size ∧
  ∀ c : Fin 3, c * ((maxCode map.depth).toNat + 1) + (map.colorSample c x y).toNat <
    3 * ((maxCode map.depth).toNat + 1)

instance (map : Raster) (x y : Nat) : Decidable (map.GainsReadable x y) :=
  inferInstanceAs (Decidable (_ ∧ ∀ _ : Fin 3, _))

/-- Light and gains of the pixel of a base at `(x, y)` can be read. The gains come from the four
places of the map around it. -/
def PixelReadable (base map : Raster) (x y : Nat) : Prop :=
  (∀ c, base.colorSample c x y ≤ base.maxValue) ∧
  map.GainsReadable (Tap.centered map.width base.width x).first
    (Tap.centered map.height base.height y).first ∧
  map.GainsReadable (Tap.centered map.width base.width x).second
    (Tap.centered map.height base.height y).first ∧
  map.GainsReadable (Tap.centered map.width base.width x).first
    (Tap.centered map.height base.height y).second ∧
  map.GainsReadable (Tap.centered map.width base.width x).second
    (Tap.centered map.height base.height y).second

instance (base map : Raster) (x y : Nat) : Decidable (base.PixelReadable map x y) :=
  inferInstanceAs (Decidable ((∀ _ : Fin 3, _) ∧ _ ∧ _ ∧ _ ∧ _))

/-- Light and gains of all pixels in row `y` of a base can be read. -/
def RowReadable (base map : Raster) (y : Nat) : Prop :=
  ∀ x < base.width.toNat, base.PixelReadable map x y

instance (base map : Raster) (y : Nat) : Decidable (base.RowReadable map y) :=
  inferInstanceAs (Decidable (∀ x < base.width.toNat, _))

theorem RowReadable.rowInRange {y : Nat} (h : base.RowReadable map y) : base.RowInRange y :=
  fun x hx => (h x hx).1

/-- The pixels of a complete raster are in the buffer, ... -/
theorem pixelStart_add_channels_le (h : map.hasPixels = true) {x y : Nat} (hx : x < map.width.toNat)
    (hy : y < map.height.toNat) : map.pixelStart x y + map.channels ≤ map.samples.size := by
  obtain ⟨-, hsize, -⟩ := hasPixels_iff.mp h
  rw [hsize, Nat.mul_comm map.width.toNat]
  exact piece_le (place_lt hx hy) map.channels

/-- ... and their gains can be read where the raster keeps to its depth. -/
theorem gainsReadable_of_inRange (h : map.hasPixels = true) (hrange : map.InRange) {x y : Nat}
    (hx : x < map.width.toNat) (hy : y < map.height.toNat) : map.GainsReadable x y := by
  refine ⟨pixelStart_add_channels_le h hx hy, fun c => ?_⟩
  have hcode := UInt16.le_iff_toNat_le.mp (hrange.colorSample_le c x y)
  unfold Rendition.maxValue at hcode
  rw [UInt32.toNat_toUInt16] at hcode
  have hmod := Nat.mod_le (maxCode map.depth).toNat (2 ^ 16)
  have hchannel :
      (c : Nat) * ((maxCode map.depth).toNat + 1) ≤ 2 * ((maxCode map.depth).toNat + 1) :=
    Nat.mul_le_mul_right _ (Nat.le_of_lt_succ c.isLt)
  omega

/-- **Pictures and maps that keep to their depths can be read**, unless the map is larger than any
that can be made. -/
theorem rowReadable_of_inRange {y : Nat} (hrow : base.RowInRange y) (h : map.hasPixels = true)
    (hrange : map.InRange) (hwidth : map.width.toNat ≤ 2 ^ 24)
    (hheight : map.height.toNat ≤ 2 ^ 24) : base.RowReadable map y := by
  obtain ⟨hwidthPos, hheightPos⟩ := dimensions_pos h
  intro x hx
  obtain ⟨hleft, hright⟩ := Tap.centered_inside hwidthPos hwidth base.width x
  obtain ⟨htop, hbottom⟩ := Tap.centered_inside hheightPos hheight base.height y
  exact ⟨hrow x hx, gainsReadable_of_inRange h hrange hleft htop,
    gainsReadable_of_inRange h hrange hright htop,
    gainsReadable_of_inRange h hrange hleft hbottom,
    gainsReadable_of_inRange h hrange hright hbottom⟩

end Raster

namespace GainTable

variable {v : GainValues} {weight : Float} {depth : UInt8} {map : Raster}

theorem size_factors (v : GainValues) (weight : Float) (depth : UInt8) :
    (ofValues v weight depth).factors.size = 3 * (ofValues v weight depth).entries :=
  size_flatMap_pieces (fun _ => Array.size_ofFn) _

/-- Within the codes of a depth, no channel reads from the part of another. -/
theorem toNat_lt_entries {code : UInt16} (h : code ≤ (maxCode depth).toUInt16) :
    code.toNat < (ofValues v weight depth).entries := by
  have hle := UInt16.le_iff_toNat_le.mp h
  rw [UInt32.toNat_toUInt16] at hle
  have hmod := Nat.mod_le (maxCode depth).toNat (2 ^ 16)
  exact Nat.lt_succ_of_le (Nat.le_trans hle hmod)

/-- Something is read for every code that does not lead behind the last channel. -/
theorem exists_lookup_iff {c : Fin 3} {code : UInt16} :
    (∃ factor, (ofValues v weight depth).lookup c code = .ok factor) ↔
      c * ((maxCode depth).toNat + 1) + code.toNat < 3 * ((maxCode depth).toNat + 1) := by
  have hsize : (ofValues v weight depth).factors.size = 3 * ((maxCode depth).toNat + 1) :=
    size_factors v weight depth
  unfold lookup
  rw [Outcome.exists_readAt_iff, hsize]
  rfl

/-- The gains of the pixel of a map at `(x, y)`. -/
def factorsAt (t : GainTable) (map : Raster) (x y : Nat) : Outcome (Rgb Float32) :=
  map.gainCodes x y >>= t.factorsOf

theorem between_eq (t : GainTable) (map : Raster) (tx ty : Tap) :
    t.between map tx ty = (do
      let topLeft ← t.factorsAt map tx.first ty.first
      let topRight ← t.factorsAt map tx.second ty.first
      let bottomLeft ← t.factorsAt map tx.first ty.second
      let bottomRight ← t.factorsAt map tx.second ty.second
      return .ofFn fun c => tx.bilinear ty (topLeft.get c) (topRight.get c) (bottomLeft.get c)
        (bottomRight.get c)) := by
  unfold between factorsAt
  simp only [bind_assoc]

theorem factorsAt_eq_ok_iff {t : GainTable} {x y : Nat} {factors : Rgb Float32} :
    t.factorsAt map x y = .ok factors ↔
      map.pixelStart x y + map.channels ≤ map.samples.size ∧
      ∀ c, t.lookup c (map.colorSample c x y) = .ok (factors.get c) := by
  unfold factorsAt Raster.gainCodes factorsOf
  split
  next hinside =>
    simp only [Outcome.ok_bind, Outcome.bind_eq_ok, Outcome.pure_eq_ok]
    constructor
    · intro h
      obtain ⟨red, hred, green, hgreen, blue, hblue, rfl⟩ := h
      refine ⟨hinside, fun c => ?_⟩
      match c with
      | 0 => exact hred
      | 1 => exact hgreen
      | 2 => exact hblue
    · intro h
      exact ⟨_, h.2 0, _, h.2 1, _, h.2 2, rfl⟩
  next houtside =>
    rw [Outcome.error_bind]
    exact ⟨fun h => (nomatch h), fun h => absurd h.1 houtside⟩

/-- The gains of a pixel can be read exactly from the places that have some. -/
theorem exists_factorsAt_iff {x y : Nat} :
    (∃ factors, (ofValues v weight map.depth).factorsAt map x y = .ok factors) ↔
      map.GainsReadable x y := by
  simp only [factorsAt_eq_ok_iff]
  unfold Raster.GainsReadable
  simp only [← @exists_lookup_iff v weight]
  constructor
  · intro h
    obtain ⟨factors, hinside, hfactors⟩ := h
    exact ⟨hinside, fun c => ⟨_, hfactors c⟩⟩
  · intro h
    obtain ⟨hinside, hfactors⟩ := h
    obtain ⟨red, hred⟩ := hfactors 0
    obtain ⟨green, hgreen⟩ := hfactors 1
    obtain ⟨blue, hblue⟩ := hfactors 2
    refine ⟨⟨red, green, blue⟩, hinside, fun c => ?_⟩
    match c with
    | 0 => exact hred
    | 1 => exact hgreen
    | 2 => exact hblue

theorem exists_between_iff {tx ty : Tap} :
    (∃ gain, (ofValues v weight map.depth).between map tx ty = .ok gain) ↔
      map.GainsReadable tx.first ty.first ∧ map.GainsReadable tx.second ty.first ∧
      map.GainsReadable tx.first ty.second ∧ map.GainsReadable tx.second ty.second := by
  rw [between_eq]
  simp only [← @exists_factorsAt_iff v weight, Outcome.bind_eq_ok, Outcome.pure_eq_ok]
  constructor
  · intro h
    obtain ⟨-, topLeft, h₁, topRight, h₂, bottomLeft, h₃, bottomRight, h₄, -⟩ := h
    exact ⟨⟨_, h₁⟩, ⟨_, h₂⟩, ⟨_, h₃⟩, ⟨_, h₄⟩⟩
  · intro h
    obtain ⟨⟨topLeft, h₁⟩, ⟨topRight, h₂⟩, ⟨bottomLeft, h₃⟩, bottomRight, h₄⟩ := h
    exact ⟨_, topLeft, h₁, topRight, h₂, bottomLeft, h₃, bottomRight, h₄, rfl⟩

/-- Reading gains does not fail otherwise. -/
theorem between_onlyAborts (t : GainTable) (map : Raster) (tx ty : Tap) :
    OnlyAborts (t.between map tx ty) := by
  have hfactors : ∀ x y, OnlyAborts (t.factorsAt map x y) := by
    intro x y
    unfold factorsAt Raster.gainCodes factorsOf
    split
    · exact .bind (.ok _) fun _ => .bind (onlyAborts_readAt _ _) fun _ =>
        .bind (onlyAborts_readAt _ _) fun _ => .bind (onlyAborts_readAt _ _) fun _ => .ok _
    · exact .bind .absent fun _ => .bind (onlyAborts_readAt _ _) fun _ =>
        .bind (onlyAborts_readAt _ _) fun _ => .bind (onlyAborts_readAt _ _) fun _ => .ok _
  rw [between_eq]
  exact .bind (hfactors _ _) fun _ => .bind (hfactors _ _) fun _ => .bind (hfactors _ _) fun _ =>
    .bind (hfactors _ _) fun _ => .ok _

end GainTable

end DualRendition
