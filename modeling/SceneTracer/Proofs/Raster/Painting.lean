import SceneTracer.Raster
import Mathlib.Data.List.Nodup

namespace SceneTracer.Raster

/-!
# Painting rasters

A picture on which pixels are set one after another shows at each of them the colour that it was
given, and it does not matter in which order they were set.

* `pixel?` — the colour in a column and a row.
* `paint` — sets the pixels at a list of places.
* `count_places`, `getElem?_places` — each pixel comes once, row by row.
* `pixel?_paint`, `paint_perm` — what a painted picture shows, in whatever order it was painted.
-/

variable {γ : Type}

/-- The colour in column `x` and row `y`. -/
def pixel? (image : Raster γ) (x y : Nat) : Option γ :=
  if x < image.width then image.pixels[y * image.width + x]? else none

/-- Sets the pixels at `places`, one after another, to their colours. -/
def paint (colors : Nat × Nat → γ) (places : List (Nat × Nat)) (image : Raster γ) : Raster γ :=
  places.foldl (fun painted place => painted.set place.1 place.2 (colors place)) image

@[simp] theorem paint_nil (colors : Nat × Nat → γ) (image : Raster γ) :
    image.paint colors [] = image := rfl

@[simp] theorem paint_cons (colors : Nat × Nat → γ) (place : Nat × Nat) (places : List (Nat × Nat))
    (image : Raster γ) :
    image.paint colors (place :: places)
      = (image.set place.1 place.2 (colors place)).paint colors places := rfl

@[simp] theorem width_paint (colors : Nat × Nat → γ) (places : List (Nat × Nat))
    (image : Raster γ) : (image.paint colors places).width = image.width := by
  induction places generalizing image with
  | nil => rfl
  | cons place places ih => rw [paint_cons, ih, width_set]

@[simp] theorem size_paint (colors : Nat × Nat → γ) (places : List (Nat × Nat)) (image : Raster γ) :
    (image.paint colors places).pixels.size = image.pixels.size := by
  induction places generalizing image with
  | nil => rfl
  | cons place places ih => rw [paint_cons, ih, size_set]

/-- The places of a picture are those within its sizes. -/
theorem mem_places {width height x y : Nat} :
    (x, y) ∈ places width height ↔ x < width ∧ y < height := by
  simp only [places, List.mem_flatMap, List.mem_map, List.mem_range, Prod.mk.injEq]
  constructor
  · rintro ⟨y', hy, x', hx, rfl, rfl⟩
    exact ⟨hx, hy⟩
  · rintro ⟨hx, hy⟩
    exact ⟨y, hy, x, hx, rfl, rfl⟩

/-- Pixels in different places have different indices. -/
theorem index_inj {width x y x' y' : Nat} (hx : x < width) (hx' : x' < width)
    (h : y * width + x = y' * width + x') : x = x' ∧ y = y' := by
  have hmod := congrArg (· % width) h
  have hdiv := congrArg (· / width) h
  simp only [Nat.mul_add_mod_self_right, Nat.mod_eq_of_lt hx, Nat.mod_eq_of_lt hx'] at hmod
  have hwidth : 0 < width := Nat.zero_lt_of_lt hx
  simp only [Nat.add_comm (_ * _), Nat.add_mul_div_right _ _ hwidth, Nat.div_eq_of_lt hx,
    Nat.div_eq_of_lt hx', Nat.zero_add] at hdiv
  exact ⟨hmod, hdiv⟩

/-- Each place has an index within the picture. -/
theorem index_lt {width height x y : Nat} (hx : x < width) (hy : y < height) :
    y * width + x < width * height := by
  calc y * width + x < y * width + width := by omega
    _ = (y + 1) * width := by rw [Nat.succ_mul]
    _ ≤ height * width := Nat.mul_le_mul_right width hy
    _ = width * height := Nat.mul_comm height width

/-- The places are in the order of their indices. -/
theorem map_index_places (width height : Nat) :
    (places width height).map (fun place => place.2 * width + place.1)
      = List.range (width * height) := by
  induction height with
  | zero => simp [places]
  | succ height ih =>
    have hrow : places width (height + 1)
        = places width height ++ (List.range width).map fun x => (x, height) := by
      simp [places, List.range_succ]
    rw [hrow, List.map_append, ih, List.map_map, Nat.mul_succ, List.range_add]
    simp [Function.comp_def, Nat.mul_comm]

/-- Each place is listed once. -/
theorem nodup_places (width height : Nat) : (places width height).Nodup := by
  refine List.Nodup.of_map (fun place => place.2 * width + place.1) ?_
  rw [map_index_places]
  exact List.nodup_range

/-- Each pixel comes once. -/
theorem count_places (width height x y : Nat) :
    (places width height).count (x, y) = if x < width ∧ y < height then 1 else 0 := by
  split
  · rename_i hmem
    exact List.count_eq_one_of_mem (nodup_places width height) (mem_places.mpr hmem)
  · rename_i hmem
    exact List.count_eq_zero_of_not_mem fun h => hmem (mem_places.mp h)

/-- The places are in rows. -/
theorem getElem?_places {width height x y : Nat} (hx : x < width) (hy : y < height) :
    (places width height)[y * width + x]? = some (x, y) := by
  have hat := congrArg (·[y * width + x]?) (map_index_places width height)
  simp only [List.getElem?_map, List.getElem?_range (index_lt hx hy), Option.map_eq_some_iff] at hat
  obtain ⟨⟨x', y'⟩, hplace, hindex⟩ := hat
  obtain ⟨rfl, rfl⟩ := index_inj (mem_places.mp (List.mem_of_getElem? hplace)).1 hx hindex
  exact hplace

/-! ### One pixel -/

/-- A pixel that has been set has its colour. -/
theorem pixel?_set_self {image : Raster γ} {x y : Nat} (color : γ) (hx : x < image.width)
    (hindex : y * image.width + x < image.pixels.size) :
    (image.set x y color).pixel? x y = some color := by
  rw [pixel?, width_set, if_pos hx, set, Array.getElem?_setIfInBounds_self_of_lt hindex]

/-- Setting a pixel does not change the others. -/
theorem pixel?_set_of_ne {image : Raster γ} {x y x' y' : Nat} (color : γ) (hx' : x' < image.width)
    (hne : (x', y') ≠ (x, y)) : (image.set x' y' color).pixel? x y = image.pixel? x y := by
  unfold pixel?
  rw [width_set]
  split
  · rename_i hx
    refine Array.getElem?_setIfInBounds_ne fun hindex => hne ?_
    obtain ⟨rfl, rfl⟩ := index_inj hx' hx hindex
    rfl
  · rfl

/-- Pixels at different places can be set in any order. -/
theorem set_comm {image : Raster γ} {x y x' y' : Nat} (color color' : γ) (hx : x < image.width)
    (hx' : x' < image.width) (hne : (x, y) ≠ (x', y')) :
    (image.set x y color).set x' y' color' = (image.set x' y' color').set x y color := by
  have hindex : y * image.width + x ≠ y' * image.width + x' := by
    intro hindex
    obtain ⟨rfl, rfl⟩ := index_inj hx hx' hindex
    exact hne rfl
  simp only [set, Array.setIfInBounds_comm color color' hindex]

/-! ### Whole pictures -/

/-- A painted picture shows at each place the colour given there, and elsewhere what it showed
before. -/
theorem pixel?_paint {colors : Nat × Nat → γ} {places : List (Nat × Nat)} {image : Raster γ}
    (hplaces : ∀ place ∈ places, place.1 < image.width) {x y : Nat} (hx : x < image.width)
    (hindex : y * image.width + x < image.pixels.size) :
    (image.paint colors places).pixel? x y =
      if (x, y) ∈ places then some (colors (x, y)) else image.pixel? x y := by
  induction places generalizing image with
  | nil => simp
  | cons place places ih =>
    obtain ⟨hplace, hrest⟩ := List.forall_mem_cons.mp hplaces
    rw [paint_cons, ih (by simpa using hrest) (by simpa using hx) (by simpa using hindex)]
    -- If the place is painted again later, that is the colour that stays. Both are the same here.
    by_cases hmem : (x, y) ∈ places
    · rw [if_pos hmem, if_pos (List.mem_cons_of_mem _ hmem)]
    · rw [if_neg hmem]
      by_cases heq : place = (x, y)
      · subst heq
        rw [if_pos List.mem_cons_self, pixel?_set_self _ hx hindex]
      · rw [pixel?_set_of_ne _ hplace heq, if_neg]
        exact fun h => (List.mem_cons.mp h).elim (fun h => heq h.symm) hmem

/-- The order in which pixels are set does not matter. -/
theorem paint_perm {colors : Nat × Nat → γ} {places places' : List (Nat × Nat)}
    (hperm : places.Perm places') {image : Raster γ}
    (hplaces : ∀ place ∈ places, place.1 < image.width) :
    image.paint colors places = image.paint colors places' := by
  induction hperm generalizing image with
  | nil => rfl
  | cons place _ ih =>
    obtain ⟨-, hrest⟩ := List.forall_mem_cons.mp hplaces
    exact ih (by simpa using hrest)
  | swap place place' rest =>
    obtain ⟨hplace', hrest⟩ := List.forall_mem_cons.mp hplaces
    obtain ⟨hplace, -⟩ := List.forall_mem_cons.mp hrest
    -- The same place twice is no exchange, and different places do not disturb each other.
    by_cases heq : place = place'
    · rw [heq]
    · simp only [paint_cons, set_comm _ _ hplace' hplace (Ne.symm heq)]
  | trans hfirst _ ih ih' =>
    exact (ih hplaces).trans (ih' fun place hplace => hplaces place (hfirst.mem_iff.mpr hplace))

end SceneTracer.Raster
