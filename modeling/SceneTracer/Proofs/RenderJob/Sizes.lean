import Mathlib
import SceneTracer.Proofs.Evaluation.Rendering
import SceneTracer.Proofs.Raster.Painting

namespace SceneTracer

/-!
# Sizes of pictures

Sizes are integers of 64 bits, and so are the numbers with which pixels are counted and found in
memory. A job is made only of sizes for which none of these numbers is cut off at 64 bits.

* `SizesFit` — the sizes of which a job is made; `sizeFault` says what is wrong with others.
* `RenderJob.ofOperands_typed` — the job of eight operands of the right sorts.
* `checkedMul`, `fitsInWords` — the size of a picture as it is computed in words of 64 bits.
* `Raster.setInWords?` — a pixel is set at an index that is computed in words.
* `RenderJob.FitsWords` — computing in words comes to the same, with all pixels inside the picture.
* `render_hands_over_sizes_that_fit` — rendering, for all sizes.
-/

/-! ### What is handed over -/

/-- The sizes of which a job is made. -/
def SizesFit (depth width height : ℤ) : Prop :=
  (0 ≤ depth ∧ depth ≤ 2 ^ 32 - 1) ∧ 0 ≤ width ∧ 0 ≤ height ∧
    width * height * 24 ≤ 2 ^ 63 - 1

instance (depth width height : ℤ) : Decidable (SizesFit depth width height) :=
  inferInstanceAs (Decidable (_ ∧ _))

/-- What is wrong with sizes that do not fit: the first that is no count, or the size of the whole. -/
def sizeFault (depth width height : Int64) : DomainFault :=
  if ¬ (0 ≤ depth.toInt ∧ depth.toInt ≤ 2 ^ 32 - 1) then .badCount .depth depth
  else if ¬ 0 ≤ width.toInt then .badCount .width width
  else if ¬ 0 ≤ height.toInt then .badCount .height height
  else .imageTooLarge width.toInt.toNat height.toInt.toNat

namespace RenderJob

/-- Lights in an array are read as they are. -/
theorem lightsOf_map_light (lights : List (Light Float)) :
    lightsOf (lights.map .light) = .ok lights := by
  induction lights with
  | nil => rfl
  | cons l lights ih =>
    rw [List.map_cons, lightsOf, ih]
    rfl

/-- A count within its range is read as it is. -/
theorem countOf_eq_ok {which : Count} {limit : ℕ} {n : Int64}
    (h : 0 ≤ n.toInt ∧ n.toInt ≤ limit) :
    countOf which limit (.integer n) = .ok n.toInt.toNat := if_pos h

/-- A count out of its range is refused. -/
theorem countOf_eq_error {which : Count} {limit : ℕ} {n : Int64}
    (h : ¬ (0 ≤ n.toInt ∧ n.toInt ≤ limit)) :
    countOf which limit (.integer n) = .error (.domain (.badCount which n)) := if_neg h

/-- Integers of 64 bits are not above the limit of widths and heights. -/
theorem toInt_le_maxImageBytes (n : Int64) : n.toInt ≤ maxImageBytes := by
  have hlt := n.toInt_lt
  rw [maxImageBytes]
  omega

/-- The limit for the bytes of a picture, in integers. -/
theorem bytes_le_iff {w h : ℤ} (hw : 0 ≤ w) (hh : 0 ≤ h) :
    w.toNat * h.toNat * bytesPerPixel ≤ maxImageBytes ↔ w * h * 24 ≤ 2 ^ 63 - 1 := by
  lift w to ℕ using hw
  lift h to ℕ using hh
  simp only [Int.toNat_natCast, bytesPerPixel, maxImageBytes]
  norm_num
  norm_cast

variable (ambient : Vec3 Float) (lights : List (Light Float)) (scene : Scene Float Closure)
  (depth : Int64) (fieldOfView : Float) (width height : Int64) (output : String)

/-- Eight operands of the right sorts, in the order in which they are pushed. -/
def typedOperands : List Value :=
  [.point ambient, .array (lights.map .light), .object scene, .integer depth, .real fieldOfView,
    .integer width, .integer height, .string output]

/-- The job that they describe. -/
def ofTyped : RenderJob :=
  { ambient, lights, scene, fieldOfView, output
    depth := depth.toInt.toNat
    width := width.toInt.toNat
    height := height.toInt.toNat }

/-- **A job is made just of sizes that fit.** -/
theorem ofOperands_typed :
    ofOperands (typedOperands ambient lights scene depth fieldOfView width height output) =
      if SizesFit depth.toInt width.toInt height.toInt then
        .ok (ofTyped ambient lights scene depth fieldOfView width height output)
      else .error (.domain (sizeFault depth width height)) := by
  rw [typedOperands, ofOperands, lightsOperand, lightsOf_map_light]
  show ((do
    let depth ← countOf .depth maxDepth (.integer depth)
    let width ← countOf .width maxImageBytes (.integer width)
    let height ← countOf .height maxImageBytes (.integer height)
    if width * height * bytesPerPixel ≤ maxImageBytes then
      return { ambient, lights, scene, depth, fieldOfView, width, height, output }
    else throw (.domain (.imageTooLarge width height))) : Except Fault RenderJob) = _
  unfold sizeFault
  -- The four conditions are checked in this order, and the first that fails is reported.
  by_cases hdepth : 0 ≤ depth.toInt ∧ depth.toInt ≤ 2 ^ 32 - 1
  · have hcount : 0 ≤ depth.toInt ∧ depth.toInt ≤ maxDepth := hdepth
    rw [countOf_eq_ok hcount, if_neg (not_not.mpr hdepth)]
    by_cases hwidth : 0 ≤ width.toInt
    · rw [countOf_eq_ok ⟨hwidth, toInt_le_maxImageBytes width⟩, if_neg (not_not.mpr hwidth)]
      by_cases hheight : 0 ≤ height.toInt
      · rw [countOf_eq_ok ⟨hheight, toInt_le_maxImageBytes height⟩,
          if_neg (not_not.mpr hheight)]
        by_cases hsize : width.toInt * height.toInt * 24 ≤ 2 ^ 63 - 1
        · rw [if_pos ⟨hdepth, hwidth, hheight, hsize⟩]
          exact if_pos ((bytes_le_iff hwidth hheight).mpr hsize)
        · rw [if_neg fun h => hsize h.2.2.2]
          exact if_neg fun h => hsize ((bytes_le_iff hwidth hheight).mp h)
      · rw [countOf_eq_error fun h => hheight h.1, if_neg fun h => hheight h.2.2.1, if_pos hheight]
        rfl
    · rw [countOf_eq_error fun h => hwidth h.1, if_neg fun h => hwidth h.2.1, if_pos hwidth]
      rfl
  · have hcount : ¬ (0 ≤ depth.toInt ∧ depth.toInt ≤ maxDepth) := hdepth
    rw [countOf_eq_error hcount, if_neg fun h => hdepth h.1, if_pos hdepth]
    rfl

end RenderJob

/-! ### Words -/

/-- The product of two words, if it needs no more than 64 bits. -/
def checkedMul (a b : UInt64) : Option UInt64 :=
  if a.toNat * b.toNat < UInt64.size then some (a * b) else none

/-- The product in words is the exact one, where there is one. -/
theorem checkedMul_eq_some_iff {a b c : UInt64} :
    checkedMul a b = some c ↔ a.toNat * b.toNat = c.toNat := by
  unfold checkedMul
  split
  · rename_i hlt
    rw [Option.some.injEq, ← UInt64.toNat_inj, UInt64.toNat_mul, Nat.mod_eq_of_lt hlt]
  · rename_i hge
    simp only [reduceCtorEq, false_iff]
    exact fun h => hge (h ▸ c.toNat_lt_size)

/-- Whether a picture fits into memory, computed in words: neither product needs more than 64 bits,
and the last one is not above the limit. -/
def fitsInWords (width height : UInt64) : Bool :=
  ((checkedMul width height).bind fun pixels =>
    checkedMul pixels (.ofNat RenderJob.bytesPerPixel)).any (· ≤ .ofNat RenderJob.maxImageBytes)

/-- **The size of a picture is checked exactly**, for all words. -/
theorem fitsInWords_iff (width height : UInt64) :
    fitsInWords width height = true ↔ width.toNat * height.toNat * 24 ≤ 2 ^ 63 - 1 := by
  have hpixel : (UInt64.ofNat RenderJob.bytesPerPixel).toNat = 24 := rfl
  have hlimit : (UInt64.ofNat RenderJob.maxImageBytes).toNat = 2 ^ 63 - 1 := rfl
  have hsize : UInt64.size = 2 ^ 64 := rfl
  unfold fitsInWords
  simp only [Option.any_eq_true, Option.bind_eq_some_iff, checkedMul_eq_some_iff, hpixel,
    decide_eq_true_eq, UInt64.le_iff_toNat_le, hlimit]
  constructor
  · rintro ⟨bytes, ⟨pixels, hpixels, hbytes⟩, hle⟩
    rwa [hpixels, hbytes]
  · intro hle
    -- The number of bytes fits a word, so neither product has wrapped around.
    have hpixels : width.toNat * height.toNat < UInt64.size := by omega
    have hbytes : width.toNat * height.toNat * 24 < UInt64.size := by omega
    have hexact : (UInt64.ofNat (width.toNat * height.toNat)).toNat = width.toNat * height.toNat :=
      UInt64.toNat_ofNat_of_lt' hpixels
    have hexact' : (UInt64.ofNat (width.toNat * height.toNat * 24)).toNat
        = width.toNat * height.toNat * 24 := UInt64.toNat_ofNat_of_lt' hbytes
    exact ⟨_, ⟨_, hexact.symm, (congrArg (· * 24) hexact).trans hexact'.symm⟩, hexact'.trans_le hle⟩

namespace Raster

variable {γ : Type}

/-- The picture with the pixel in column `x` and row `y` changed, which is found at an index that is
computed in words. There is none if no pixel has this index. -/
def setInWords? (image : Raster γ) (x y : UInt64) (color : γ) : Option (Raster γ) :=
  let index := (y * .ofNat image.width + x).toNat
  if h : index < image.pixels.size then
    some { image with pixels := image.pixels.set index color h }
  else none

/-- A pixel is found in words where it is, if no more words than there are are needed. -/
theorem setInWords?_eq_some {image : Raster γ} {x y : ℕ} (color : γ)
    (hindex : y * image.width + x < image.pixels.size) (hsize : image.pixels.size ≤ UInt64.size) :
    image.setInWords? (.ofNat x) (.ofNat y) color = some (image.set x y color) := by
  have hwords : (UInt64.ofNat y * .ofNat image.width + .ofNat x).toNat = y * image.width + x := by
    rw [← UInt64.ofNat_mul, ← UInt64.ofNat_add]
    exact UInt64.toNat_ofNat_of_lt' (hindex.trans_le hsize)
  unfold setInWords? set
  simp only [hwords, dif_pos hindex, Array.setIfInBounds]

end Raster

namespace RenderJob

/-- What is computed in words for the picture of the job is exact, and every pixel that is set is one
of the picture. -/
structure FitsWords (job : RenderJob) : Prop where
  depth : job.depth ≤ 2 ^ 32 - 1
  bytes : job.width * job.height * 24 ≤ 2 ^ 63 - 1
  /-- The product of width and height is the number of pixels. -/
  size : (UInt64.ofNat job.width * UInt64.ofNat job.height).toNat
    = (Raster.blank job.width job.height (Vec3.zero : Vec3 Float)).pixels.size
  /-- A pixel that is set after those before it has an index below the number of pixels, also in
  words. -/
  sets : ∀ (colors : ℕ × ℕ → Vec3 Float) (before after : List (ℕ × ℕ)) (x y : ℕ),
    Raster.places job.width job.height = before ++ (x, y) :: after →
      let image := (Raster.blank job.width job.height Vec3.zero).paint colors before
      y * image.width + x < image.pixels.size ∧
      ∀ color, image.setInWords? (.ofNat x) (.ofNat y) color = some (image.set x y color)

/-- **Sizes within the limits never wrap around**, neither in the number of pixels nor in an
index. -/
theorem fitsWords_of_le {job : RenderJob} (hdepth : job.depth ≤ 2 ^ 32 - 1)
    (hbytes : job.width * job.height * 24 ≤ 2 ^ 63 - 1) : job.FitsWords := by
  have hpixels : job.width * job.height < UInt64.size := by
    have hsize : UInt64.size = 2 ^ 64 := rfl
    omega
  refine ⟨hdepth, hbytes, ?_, ?_⟩
  · rw [← UInt64.ofNat_mul, Raster.size_blank]
    exact UInt64.toNat_ofNat_of_lt' hpixels
  · intro colors before after x y hplaces image
    have hmem : (x, y) ∈ Raster.places job.width job.height := by
      rw [hplaces]
      exact List.mem_append_right _ List.mem_cons_self
    obtain ⟨hx, hy⟩ := Raster.mem_places.mp hmem
    have hsize : image.pixels.size = job.width * job.height := by
      rw [Raster.size_paint, Raster.size_blank]
    have hindex : y * image.width + x < image.pixels.size := by
      rw [Raster.width_paint, hsize]
      exact Raster.index_lt hx hy
    refine ⟨hindex, fun color => Raster.setInWords?_eq_some color hindex ?_⟩
    rw [hsize]
    exact hpixels.le

end RenderJob

/-! ### Rendering -/

/-- **Rendering hands over sizes that fit, and no others.** The check of the size, computed in words,
is exact. From eight operands of the right sorts a job is handed to the backend just if its depth
has 32 bits, no size is negative and the picture fits into memory; it has the sizes of the operands,
and words are enough for all that is computed with them. With any other sizes rendering fails before
it looks for a backend. -/
theorem render_hands_over_sizes_that_fit (ambient : Vec3 Float) (lights : List (Light Float))
    (scene : Scene Float Closure) (depth : Int64) (fieldOfView : Float) (width height : Int64)
    (output : String) :
    let operands :=
      RenderJob.typedOperands ambient lights scene depth fieldOfView width height output
    let job := RenderJob.ofTyped ambient lights scene depth fieldOfView width height output
    (∀ w h : UInt64, fitsInWords w h = true ↔ w.toNat * h.toNat * 24 ≤ 2 ^ 63 - 1) ∧
    if SizesFit depth.toInt width.toInt height.toInt then
      job.depth = depth.toInt ∧ job.width = width.toInt ∧ job.height = height.toInt ∧
      job.FitsWords ∧
      ∀ (ω : Type) (backend : Backend ω) (callClosure : Closure → Run ω Unit)
        (base : List Value) (world : ω),
        operatorStep (some backend) callClosure .render ⟨operands.reverse ++ base, world⟩
          = ((backend job).conduct (shadeWith callClosure) Run.changeWorld >>= Run.ofExcept)
            ⟨base, world⟩
    else
      ∀ (ω : Type) (backend : Option (Backend ω)) (callClosure : Closure → Run ω Unit)
        (base : List Value) (world : ω),
        operatorStep backend callClosure .render ⟨operands.reverse ++ base, world⟩
          = .error (.fault (.domain (sizeFault depth width height))) ⟨base, world⟩ := by
  intro operands job
  refine ⟨fitsInWords_iff, ?_⟩
  have hjob := RenderJob.ofOperands_typed ambient lights scene depth fieldOfView width height output
  have hlength : operands.reverse.length = 8 := rfl
  split
  · rename_i h
    rw [if_pos h] at hjob
    obtain ⟨hdepth, hwidth, hheight, hsize⟩ := h
    -- What was checked in integers holds of the numbers in the job.
    have hbytes : job.width * job.height * 24 ≤ 2 ^ 63 - 1 :=
      (RenderJob.bytes_le_iff hwidth hheight).mpr hsize
    have hdepth' : depth.toInt.toNat ≤ 2 ^ 32 - 1 := by omega
    refine ⟨Int.toNat_of_nonneg hdepth.1, Int.toNat_of_nonneg hwidth, Int.toNat_of_nonneg hheight,
      RenderJob.fitsWords_of_le hdepth' hbytes, ?_⟩
    intro ω backend callClosure base world
    rw [operatorStep_render hlength, List.reverse_reverse, renderOperands, hjob]
    rfl
  · rename_i h
    rw [if_neg h] at hjob
    intro ω backend callClosure base world
    rw [operatorStep_render hlength, List.reverse_reverse, renderOperands, hjob]
    rfl

end SceneTracer
