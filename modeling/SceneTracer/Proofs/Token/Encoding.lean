import Mathlib
import SceneTracer.Token.Lexer
import SceneTracer.Utf8

namespace SceneTracer

/-!
# Characters by their bytes

Of the bytes of a character beyond ASCII none is that of an ASCII character. Who looks at single bytes
for ASCII characters finds them where they are, and nowhere else.

* `Utf8.encode_append`, `Utf8.utf8EncodeChar_ascii` — the bytes of a text.
* `seen` — what a character looks like to a reader of bytes.
* `AsciiClass`, `AsciiClass.takeWhile_encode` — classes of characters that single bytes tell apart.
* `Utf8.decodeLossy_encode`, `Utf8.textLossy_encode` — nothing is replaced in the bytes of a text.
-/

namespace Utf8

/-! ### The bytes of a text -/

@[simp] theorem encode_nil : encode [] = [] := rfl

@[simp] theorem encode_cons (c : Char) (cs : List Char) :
    encode (c :: cs) = String.utf8EncodeChar c ++ encode cs := List.flatMap_cons

@[simp] theorem encode_append (cs ds : List Char) : encode (cs ++ ds) = encode cs ++ encode ds :=
  List.flatMap_append

/-- The bytes of a string are those of its characters. -/
theorem encode_toList (text : String) : encode text.toList = bytes text := by
  rw [bytes, String.toUTF8, ← String.utf8Encode_toList, List.utf8Encode, List.toList_data_toByteArray]
  rfl

/-- A byte and the character that it is looked at as have the same number. -/
@[simp] theorem toNat_ofByte (b : UInt8) : (ofByte b).toNat = b.toNat := by
  have hb : b.toNat < 256 := b.toNat_lt
  have hvalid : b.toNat.isValidChar := Or.inl (by omega)
  rw [ofByte, Char.ofNat, dif_pos hvalid]
  rfl

/-- An ASCII character is one byte. -/
theorem utf8EncodeChar_ascii {c : Char} (hc : c.toNat < 128) :
    String.utf8EncodeChar c = [c.toNat.toUInt8] := by
  rw [String.utf8EncodeChar_eq_singleton]
  · rfl
  · rw [Char.utf8Size_eq_one_iff]
    exact Nat.le_of_lt_succ hc

/-- That byte is looked at as the character itself. -/
theorem ofByte_ascii {c : Char} (hc : c.toNat < 128) : ofByte c.toNat.toUInt8 = c := by
  have hbyte : c.toNat.toUInt8.toNat = c.toNat := Nat.mod_eq_of_lt (by omega)
  rw [ofByte, hbyte, Char.ofNat_toNat]

/-- ASCII text is what its bytes look like. -/
theorem map_ofByte_encode {cs : List Char} (h : ∀ c ∈ cs, c.toNat < 128) :
    (encode cs).map ofByte = cs := by
  induction cs with
  | nil => rfl
  | cons c cs ih =>
    obtain ⟨hc, hcs⟩ := List.forall_mem_cons.mp h
    rw [encode_cons, utf8EncodeChar_ascii hc, List.map_append, ih hcs, List.map_singleton,
      ofByte_ascii hc, List.singleton_append]

/-- A character beyond ASCII has only bytes that are none of an ASCII character. -/
theorem le_of_mem_utf8EncodeChar {c : Char} {b : UInt8} (hc : 128 ≤ c.toNat)
    (hb : b ∈ String.utf8EncodeChar c) : 128 ≤ (ofByte b).toNat := by
  have hvalue : 128 ≤ c.val.toNat := hc
  rw [toNat_ofByte]
  rw [String.utf8EncodeChar] at hb
  -- A single byte stands for ASCII only. In the longer forms each byte has its high bit set.
  split_ifs at hb <;> simp only [List.mem_cons, List.not_mem_nil, or_false] at hb
  · omega
  all_goals rcases hb with rfl | rfl | rfl | rfl <;> simp only [UInt8.toNat_ofNat'] <;> omega

/-- Every character has a first byte. -/
theorem utf8EncodeChar_eq_cons (c : Char) :
    ∃ behind, String.utf8EncodeChar c = leadByte c :: behind := by
  unfold leadByte
  cases hbytes : String.utf8EncodeChar c with
  | nil => exact absurd hbytes String.utf8EncodeChar_ne_nil
  | cons b behind => exact ⟨behind, rfl⟩

/-- A text that is not empty has bytes. -/
theorem encode_ne_nil {cs : List Char} (h : cs ≠ []) : encode cs ≠ [] := by
  obtain ⟨c, cs, rfl⟩ := List.exists_cons_of_ne_nil h
  rw [encode_cons]
  exact List.append_ne_nil_of_left_ne_nil String.utf8EncodeChar_ne_nil _

/-! ### Decoding -/

/-- The bytes of a text stand for its characters, and none of them is replaced. -/
theorem decodeLossy_encode (cs : List Char) : decodeLossy (encode cs) = cs.map some := by
  induction cs with
  | nil => rw [encode_nil, decodeLossy, List.map_nil]
  | cons c cs ih =>
    obtain ⟨behind, hbytes⟩ := utf8EncodeChar_eq_cons c
    -- The bytes of a whole character are decoded, whatever follows.
    have hdecode : (leadByte c :: (behind ++ encode cs)).toByteArray.utf8DecodeChar? 0 = some c := by
      rw [← List.cons_append, ← hbytes, List.toByteArray_append]
      exact ByteArray.utf8DecodeChar?_utf8EncodeChar_append
    have hsize : c.utf8Size - 1 = behind.length := by
      rw [← String.length_utf8EncodeChar, hbytes, List.length_cons, Nat.add_sub_cancel]
    rw [encode_cons, hbytes, List.cons_append, decodeLossy, hdecode]
    dsimp only
    rw [hsize, List.drop_left, ih, List.map_cons]

/-- What has been encoded is decoded with nothing lost. -/
theorem textLossy_encode (cs : List Char) : textLossy (encode cs) = .ofList cs := by
  rw [textLossy, decodeLossy_encode, List.map_map]
  congr 1
  exact List.map_id cs

end Utf8

/-! ### Single bytes -/

/-- What a reader of bytes sees where the character starts. -/
def seen (c : Char) : Char := Utf8.ofByte (leadByte c)

/-- The first byte of a character is one of its bytes. -/
theorem leadByte_mem (c : Char) : leadByte c ∈ String.utf8EncodeChar c := by
  obtain ⟨behind, hbytes⟩ := Utf8.utf8EncodeChar_eq_cons c
  rw [hbytes]
  exact List.mem_cons_self

/-- The scanner sees an ASCII character as it is. -/
theorem seen_ascii {c : Char} (hc : c.toNat < 128) : seen c = c := by
  rw [seen, leadByte, Utf8.utf8EncodeChar_ascii hc]
  exact Utf8.ofByte_ascii hc

/-- The scanner sees a character beyond ASCII as something beyond ASCII. -/
theorem le_toNat_seen {c : Char} (hc : 128 ≤ c.toNat) : 128 ≤ (seen c).toNat :=
  Utf8.le_of_mem_utf8EncodeChar hc (leadByte_mem c)

/-- ASCII characters are seen where they are, and nowhere else. -/
theorem seen_eq_iff {c d : Char} (hd : d.toNat < 128) : seen c = d ↔ c = d := by
  rcases Nat.lt_or_ge c.toNat 128 with hc | hc
  · rw [seen_ascii hc]
  · have hseen := le_toNat_seen hc
    constructor
    · rintro rfl
      omega
    · rintro rfl
      omega

/-- Single bytes tell whether a character is in the class: all beyond ASCII are, or none. -/
def AsciiClass (p : Char → Bool) : Prop := ∃ b, ∀ c, 128 ≤ c.toNat → p c = b

/-- A class of ASCII characters. -/
theorem asciiClass_of {p : Char → Bool} (h : ∀ c, p c = true → c.toNat < 128) : AsciiClass p :=
  ⟨false, fun c hc => by
    rw [Bool.eq_false_iff]
    intro hp
    have := h c hp
    omega⟩

/-- All characters but an ASCII one. -/
theorem asciiClass_ne {c : Char} (hc : c.toNat < 128) : AsciiClass (· != c) :=
  ⟨true, fun d hd => by
    rw [bne_iff_ne]
    rintro rfl
    omega⟩

/-- The characters of words are ASCII. -/
theorem toNat_lt_of_isWordChar {c : Char} (h : isWordChar c = true) : c.toNat < 128 := by
  have hz : 'z'.val.toNat = 122 := rfl
  have hZ : 'Z'.val.toNat = 90 := rfl
  have hnine : '9'.val.toNat = 57 := rfl
  have hunderscore : '_'.toNat = 95 := rfl
  have hhyphen : '-'.toNat = 45 := rfl
  have hvalue : c.toNat = c.val.toNat := rfl
  simp only [isWordChar, Char.isAlphanum, Char.isAlpha, Char.isUpper, Char.isLower, Char.isDigit,
    Bool.or_eq_true, Bool.and_eq_true, decide_eq_true_eq, ge_iff_le, UInt32.le_iff_toNat_le] at h
  rcases h with (((⟨-, h⟩ | ⟨-, h⟩) | ⟨-, h⟩) | rfl) | rfl <;> omega

theorem toNat_lt_of_isDigit {c : Char} (h : c.isDigit = true) : c.toNat < 128 :=
  toNat_lt_of_isWordChar (by simp [isWordChar, Char.isAlphanum, h])

theorem toNat_lt_of_isBlank {c : Char} (h : isBlank c = true) : c.toNat < 128 := by
  simp only [isBlank, Bool.or_eq_true, decide_eq_true_eq] at h
  rcases h with ((((rfl | rfl) | rfl) | rfl) | rfl) | rfl <;> decide

namespace AsciiClass

variable {p : Char → Bool}

/-- Each byte of a character is in the class just if the character is. -/
theorem of_mem (h : AsciiClass p) {c : Char} {b : UInt8} (hb : b ∈ String.utf8EncodeChar c) :
    p (Utf8.ofByte b) = p c := by
  obtain ⟨beyond, hbeyond⟩ := h
  rcases Nat.lt_or_ge c.toNat 128 with hc | hc
  · rw [Utf8.utf8EncodeChar_ascii hc, List.mem_singleton] at hb
    rw [hb, Utf8.ofByte_ascii hc]
  · rw [hbeyond _ (Utf8.le_of_mem_utf8EncodeChar hc hb), hbeyond _ hc]

/-- What the scanner sees of a character is in the class just if the character is. -/
theorem seen (h : AsciiClass p) (c : Char) : p (seen c) = p c := h.of_mem (leadByte_mem c)

/-- Looking at bytes finds the same front of a text as looking at characters. -/
theorem takeWhile_encode (h : AsciiClass p) (cs : List Char) :
    (Utf8.encode cs).takeWhile (fun b => p (Utf8.ofByte b)) = Utf8.encode (cs.takeWhile p) := by
  induction cs with
  | nil => rfl
  | cons c cs ih =>
    cases hp : p c with
    | true =>
      -- All bytes of the character are in the class with it.
      have hbytes : ∀ b ∈ String.utf8EncodeChar c, p (Utf8.ofByte b) = true := fun b hb => by
        rw [h.of_mem hb, hp]
      rw [Utf8.encode_cons, List.takeWhile_append_of_pos hbytes, ih,
        List.takeWhile_cons_of_pos hp, Utf8.encode_cons]
    | false =>
      -- The first of its bytes ends the front already.
      have hlead : p (Utf8.ofByte (leadByte c)) = false := by rw [h.of_mem (leadByte_mem c), hp]
      obtain ⟨behind, hbytes⟩ := Utf8.utf8EncodeChar_eq_cons c
      rw [Utf8.encode_cons, hbytes, List.cons_append, List.takeWhile_cons, List.takeWhile_cons,
        hlead, hp]
      rfl

/-- Two classes have a common part. -/
theorem and {q : Char → Bool} (hp : AsciiClass p) (hq : AsciiClass q) :
    AsciiClass fun c => p c && q c := by
  obtain ⟨b, hb⟩ := hp
  obtain ⟨d, hd⟩ := hq
  exact ⟨b && d, fun c hc => congrArg₂ (· && ·) (hb c hc) (hd c hc)⟩

end AsciiClass

/-- The byte of an ASCII character is in no other character. -/
theorem not_mem_utf8EncodeChar {c d : Char} (hd : d.toNat < 128) (hc : c ≠ d) :
    d.toNat.toUInt8 ∉ String.utf8EncodeChar c := by
  intro hmem
  have hbyte := (asciiClass_ne hd).of_mem hmem
  rw [Utf8.ofByte_ascii hd] at hbyte
  simp [hc] at hbyte

/-- An ASCII byte is in a text only if its character is. -/
theorem not_mem_encode {cs : List Char} {d : Char} (hd : d.toNat < 128) (hcs : ∀ c ∈ cs, c ≠ d) :
    d.toNat.toUInt8 ∉ Utf8.encode cs := by
  intro hmem
  obtain ⟨c, hc, hbyte⟩ := List.mem_flatMap.mp hmem
  exact not_mem_utf8EncodeChar hd (hcs c hc) hbyte

end SceneTracer
