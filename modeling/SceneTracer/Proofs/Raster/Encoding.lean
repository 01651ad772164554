import SceneTracer.Proofs.Raster.Painting
import SceneTracer.Proofs.Scalar.Rounding
import SceneTracer.Proofs.Token.Encoding
import SceneTracer.Raster.Reading

namespace SceneTracer

/-!
# Picture files are read back

The numbers of the first line are written in decimal digits, and a blank, which is no digit, ends
each of them. So the line is read back whatever bytes follow it. Behind it each pixel takes three
bytes, which tell the colour that was set there last.

* `channelByte_whole_part` — a channel is the whole part of a product from 0 to 255.
* `Raster.readHeader?_append` — the first line in front of any bytes is read back.
* `Raster.pixel?_setAll` — a picture whose pixels are set one after another shows the last colours.
* `Raster.encode_sets_decodes` — the file of such a picture can be read in one way.
-/

/-! ### Channels -/

/-- What is not a number unpacks to that. -/
theorem unpack_of_isNaN {c : Float} (h : c.isNaN = true) : c.toModel.unpack = .notANumber := by
  change c.toModel.unpack.isNaN = true at h
  revert h
  cases c.toModel.unpack <;> simp [Float.Model.UnpackedFloat.isNaN]

/-- What is not a number is kept by the cut and by the product, and is zero as a byte. -/
theorem channelByte_of_isNaN {c : Float} (h : c.isNaN = true) : channelByte c = 0 := by
  have hclamp : (Scalar.clampToUnit c).isNaN = true := by
    rw [← value?_eq_none_iff] at h ⊢
    rw [value?_clampToUnit, h, Option.map_none]
  have hproduct : (255.0 * Scalar.clampToUnit c).toModel
      = .pack (.mul .binary64 (255.0 : Float).toModel.unpack
          (Scalar.clampToUnit c).toModel.unpack) := rfl
  change UInt8.ofNatClamp ((255.0 * Scalar.clampToUnit c).toModel.unpack.toInt 0 255).toNat = 0
  rw [hproduct, unpack_of_isNaN hclamp]
  rfl

/-- A channel that is a number is cut off, multiplied and rounded down. -/
theorem channelByte_whole_part {c : Float} {v : EReal} (h : value? c = some v) :
    value? (Scalar.clampToUnit c) = some (max 0 (min 1 v))
      ∧ ∃ q : ℝ, value? (255.0 * Scalar.clampToUnit c) = some (q : EReal) ∧ 0 ≤ q ∧ q ≤ 255
        ∧ (channelByte c).toNat = ⌊q⌋₊ := by
  have hclamp : value? (Scalar.clampToUnit c) = some (max 0 (min 1 v)) := by
    rw [value?_clampToUnit, h, Option.map_some]
  have hunit : IsWithin 1 (Scalar.clampToUnit c).toModel.unpack :=
    isWithin_one_of_value (isCanonical_unpack _) hclamp (le_max_left 0 _)
      (max_le zero_le_one (min_le_left 1 v))
  exact ⟨hclamp, (isWithin_mul hunit).toNat_toUInt8⟩

namespace Raster

/-! ### The first line -/

/-- The bytes of the line that gives the format, the size and the largest channel. -/
def headerBytes (width height : ℕ) : List UInt8 := (header width height).toUTF8.data.toList

/-- The header, character by character. -/
theorem toList_header (width height : ℕ) :
    (header width height).toList
      = 'P' :: '6' :: ' ' :: (Nat.toDigits 10 width
          ++ ' ' :: (Nat.toDigits 10 height ++ [' ', '2', '5', '5', '\n'])) := by
  simp [header, Nat.toList_repr, toString]

/-- Each character of the first line is one byte. -/
theorem map_headerBytes (width height : ℕ) :
    (headerBytes width height).map (fun b => Char.ofNat b.toNat) = (header width height).toList := by
  have hdigits : ∀ n, ∀ c ∈ Nat.toDigits 10 n, c.toNat < 128 := fun n c hc =>
    toNat_lt_of_isDigit (Nat.isDigit_of_mem_toDigits (by decide) (by decide) hc)
  have hascii : ∀ c ∈ (header width height).toList, c.toNat < 128 := by
    rw [toList_header]
    simpa [or_imp, forall_and] using ⟨hdigits width, hdigits height⟩
  have hbytes : headerBytes width height = Utf8.encode (header width height).toList :=
    (Utf8.encode_toList _).symm
  rw [hbytes]
  exact Utf8.map_ofByte_encode hascii

/-- Decimal digits are read back, up to the blank behind them. -/
theorem readNumber?_toDigits (n : ℕ) (text : List Char) :
    readNumber? ' ' (Nat.toDigits 10 n ++ ' ' :: text) = some (n, text) := by
  have hdigits : ∀ c ∈ Nat.toDigits 10 n, c.isDigit = true := fun c hc =>
    Nat.isDigit_of_mem_toDigits (by decide) (by decide) hc
  have hempty : (Nat.toDigits 10 n).isEmpty = false := by
    simp [Nat.toDigits_ne_nil]
  unfold readNumber?
  rw [List.takeWhile_append_of_pos hdigits, List.dropWhile_append_of_pos hdigits]
  simp [Decimal.natOfDigits_toDigits, hempty, List.takeWhile, List.dropWhile]

/-- **The first line is read back, whatever follows it.** -/
theorem readHeader?_append (width height : ℕ) (rest : List UInt8) :
    readHeader? (headerBytes width height ++ rest) = some (width, height, rest) := by
  have htext : (headerBytes width height ++ rest).map (fun b => Char.ofNat b.toNat)
      = 'P' :: '6' :: ' ' :: (Nat.toDigits 10 width
          ++ ' ' :: (Nat.toDigits 10 height ++ ' ' :: '2' :: '5' :: '5' :: '\n'
            :: rest.map fun b => Char.ofNat b.toNat)) := by
    simp [map_headerBytes, toList_header]
  unfold readHeader?
  rw [htext]
  simp [readNumber?_toDigits]

/-- The first line and the bytes behind it can be told apart. -/
theorem headerBytes_append_inj {width height width' height' : ℕ} {rest rest' : List UInt8} :
    headerBytes width height ++ rest = headerBytes width' height' ++ rest'
      ↔ width = width' ∧ height = height' ∧ rest = rest' := by
  constructor
  · intro heq
    have hread := congrArg readHeader? heq
    rw [readHeader?_append, readHeader?_append] at hread
    simpa using hread
  · rintro ⟨rfl, rfl, rfl⟩
    rfl

/-! ### The pixels -/

@[simp] theorem length_pixelBytes (color : Vec3 Float) : (pixelBytes color).length = 3 := rfl

/-- Bytes are pushed in their order. -/
theorem toList_foldl_push (bytes : List UInt8) (front : ByteArray) :
    (bytes.foldl ByteArray.push front).data.toList = front.data.toList ++ bytes := by
  induction bytes generalizing front with
  | nil => simp
  | cons b bytes ih =>
    rw [List.foldl_cons, ih]
    simp [ByteArray.push]

/-- Pixels are pushed in their order. -/
theorem toList_foldl_pixelBytes (pixels : List (Vec3 Float)) (front : ByteArray) :
    (pixels.foldl (fun bytes color => (pixelBytes color).foldl ByteArray.push bytes)
      front).data.toList = front.data.toList ++ pixels.flatMap pixelBytes := by
  induction pixels generalizing front with
  | nil => simp
  | cons color pixels ih =>
    rw [List.foldl_cons, ih, toList_foldl_push, List.flatMap_cons, List.append_assoc]

/-- The file of a picture is the first line and then the bytes of the pixels. -/
theorem toList_encode (image : Raster (Vec3 Float)) :
    image.encode.data.toList
      = headerBytes image.width image.height ++ image.pixels.toList.flatMap pixelBytes := by
  rw [encode, ← Array.foldl_toList, toList_foldl_pixelBytes]
  rfl

/-- Three bytes for each pixel. -/
theorem length_flatMap_pixelBytes (pixels : List (Vec3 Float)) :
    (pixels.flatMap pixelBytes).length = 3 * pixels.length := by
  simp [List.length_flatMap, mul_comm]

/-- The bytes of a pixel are found by its index. -/
theorem drop_flatMap_pixelBytes {pixels : List (Vec3 Float)} {i : ℕ} {color : Vec3 Float}
    (h : pixels[i]? = some color) :
    ((pixels.flatMap pixelBytes).drop (3 * i)).take 3 = pixelBytes color := by
  induction pixels generalizing i with
  | nil => simp at h
  | cons first pixels ih =>
    cases i with
    | zero =>
      obtain rfl : first = color := by simpa using h
      rfl
    | succ i => exact ih (by simpa using h)

section

variable {γ : Type} {width height : ℕ}

/-- The picture after the pixels in a list of places are set to the colours given there, one after
another. -/
def setAll (image : Raster γ) (sets : List ((Fin width × Fin height) × γ)) : Raster γ :=
  sets.foldl (fun image entry => image.set entry.1.1 entry.1.2 entry.2) image

/-- The colour that is given to a place last. -/
def lastSet? (sets : List ((Fin width × Fin height) × γ)) (place : Fin width × Fin height) :
    Option γ :=
  sets.reverse.lookup place

/-- The last set comes last. -/
theorem setAll_append_singleton (image : Raster γ) (sets : List ((Fin width × Fin height) × γ))
    (entry : (Fin width × Fin height) × γ) :
    image.setAll (sets ++ [entry]) = (image.setAll sets).set entry.1.1 entry.1.2 entry.2 := by
  simp [setAll]

/-- Setting pixels changes neither the sizes nor the number of pixels. -/
theorem shape_setAll (color : γ) (sets : List ((Fin width × Fin height) × γ)) :
    ((blank width height color).setAll sets).width = width
      ∧ ((blank width height color).setAll sets).height = height
      ∧ ((blank width height color).setAll sets).pixels.size = width * height := by
  induction sets using List.reverseRecOn with
  | nil => exact ⟨rfl, rfl, size_blank width height color⟩
  | append_singleton sets entry ih =>
    rw [setAll_append_singleton]
    simpa using ih

/-- Each pixel shows the colour that was set last. -/
theorem pixel?_setAll (color : γ) (sets : List ((Fin width × Fin height) × γ)) (x : Fin width)
    (y : Fin height) :
    ((blank width height color).setAll sets).pixel? x y
      = some ((lastSet? sets (x, y)).getD color) := by
  -- The induction is on the last pixel that is set, for it decides.
  induction sets using List.reverseRecOn with
  | nil =>
    have hindex := index_lt x.isLt y.isLt
    simp [setAll, lastSet?, pixel?, blank, hindex]
  | append_singleton sets entry ih =>
    obtain ⟨⟨x', y'⟩, color'⟩ := entry
    obtain ⟨hwidth, -, hsize⟩ := shape_setAll color sets
    rw [setAll_append_singleton]
    by_cases hplace : (x, y) = (x', y')
    · cases hplace
      rw [pixel?_set_self color' (by rw [hwidth]; exact x.isLt)
        (by rw [hwidth, hsize]; exact index_lt x.isLt y.isLt)]
      simp [lastSet?]
    · have hbeq : ((x, y) == (x', y')) = false := by simpa using hplace
      have hne : ((x' : ℕ), (y' : ℕ)) ≠ ((x : ℕ), (y : ℕ)) := by
        intro h
        simp only [Prod.mk.injEq, Fin.val_inj] at h
        exact hplace (by rw [h.1, h.2])
      rw [pixel?_set_of_ne color' (by rw [hwidth]; exact x'.isLt) hne, ih]
      simp [lastSet?, List.lookup_cons, hbeq]

end

/-- **The file of a picture has one reading, and it is the picture.** It is the first line and then
three bytes for each pixel, those of the colour that was set there last, or zeros if none was. A
channel is the whole part of a product from 0 to 255, and zero if it is not a number. -/
theorem encode_sets_decodes (width height : ℕ)
    (sets : List ((Fin width × Fin height) × Vec3 Float)) :
    let content := ((blank width height Vec3.zero).setAll sets).encode.data.toList
    ∃ body : List UInt8,
      (∀ w h rest, content = headerBytes w h ++ rest ↔ w = width ∧ h = height ∧ rest = body)
      ∧ readHeader? content = some (width, height, body)
      ∧ body.length = 3 * width * height
      ∧ (∀ (x : Fin width) (y : Fin height), (body.drop (3 * (y * width + x))).take 3
          = match lastSet? sets (x, y) with
            | some color => [channelByte color.x, channelByte color.y, channelByte color.z]
            | none => [0, 0, 0])
      ∧ ∀ c : Float, match value? c with
          | some v => value? (Scalar.clampToUnit c) = some (max 0 (min 1 v))
              ∧ ∃ q : ℝ, value? (255.0 * Scalar.clampToUnit c) = some (q : EReal) ∧ 0 ≤ q ∧ q ≤ 255
                ∧ (channelByte c).toNat = ⌊q⌋₊
          | none => c.isNaN = true ∧ channelByte c = 0 := by
  intro content
  obtain ⟨hwidth, hheight, hsize⟩ := shape_setAll (Vec3.zero : Vec3 Float) sets
  have hcontent : content = headerBytes width height
      ++ ((blank width height Vec3.zero).setAll sets).pixels.toList.flatMap pixelBytes := by
    change (encode _).data.toList = _
    rw [toList_encode, hwidth, hheight]
  refine ⟨((blank width height Vec3.zero).setAll sets).pixels.toList.flatMap pixelBytes,
    fun w h rest => ?_, ?_, ?_, fun x y => ?_, fun c => ?_⟩
  · -- Headers are read in one way, however the body begins.
    rw [hcontent, headerBytes_append_inj]
    simp only [eq_comm]
  · rw [hcontent, readHeader?_append]
  · rw [length_flatMap_pixelBytes, Array.length_toList, hsize, mul_assoc]
  · -- The bytes of a pixel are those of the color that it was set to last.
    have hpixel := pixel?_setAll (Vec3.zero : Vec3 Float) sets x y
    rw [pixel?, hwidth, ← Array.getElem?_toList] at hpixel
    rw [drop_flatMap_pixelBytes (Option.ite_none_right_eq_some.mp hpixel).2]
    cases lastSet? sets (x, y) with
    | none => rfl
    | some color => rfl
  · cases hvalue : value? c with
    | none =>
      have hnan := value?_eq_none_iff.mp hvalue
      exact ⟨hnan, channelByte_of_isNaN hnan⟩
    | some v => exact channelByte_whole_part hvalue

end Raster

end SceneTracer
