namespace SceneTracer.Utf8

/-!
# Characters as bytes

A text is stored in UTF-8, in which a character takes one to four bytes. Bytes need not be UTF-8, and
what is not can be replaced.

* `encode`, `bytes` — the bytes of a text.
* `ofByte` — the character with the number of a byte.
* `decodeLossy`, `textLossy` — the characters that bytes stand for, with replacements.
-/

/-- The bytes of a text. -/
def encode (cs : List Char) : List UInt8 := cs.flatMap String.utf8EncodeChar

/-- The bytes that a string is stored in. -/
def bytes (text : String) : List UInt8 := text.toUTF8.data.toList

/-- The character whose number is that of the byte. Characters below 128 are written with this byte
alone; the bytes of all others are 128 or more. -/
def ofByte (b : UInt8) : Char := Char.ofNat b.toNat

/-! ### Bytes that need not be UTF-8 -/

/-- The byte continues a character that another began. -/
def isContinuation (b : UInt8) : Bool := 0x80 ≤ b && b ≤ 0xBF

/-- How many bytes follow the first byte of a character, none if no character starts so. -/
def followers (lead : UInt8) : Nat :=
  if 0xC2 ≤ lead && lead ≤ 0xDF then 1
  else if 0xE0 ≤ lead && lead ≤ 0xEF then 2
  else if 0xF0 ≤ lead && lead ≤ 0xF4 then 3
  else 0

/-- The byte may be the second one of a character that starts with `lead`. Some leads leave out
characters that are written with fewer bytes, surrogates, and numbers above those of characters. -/
def fitsSecond (lead b : UInt8) : Bool :=
  if lead = 0xE0 then 0xA0 ≤ b && b ≤ 0xBF
  else if lead = 0xED then 0x80 ≤ b && b ≤ 0x9F
  else if lead = 0xF0 then 0x90 ≤ b && b ≤ 0xBF
  else if lead = 0xF4 then 0x80 ≤ b && b ≤ 0x8F
  else isContinuation b

/-- How many of the bytes behind `lead` are replaced with it, where no character is: those that could
go on a character that starts so. -/
def replacedBehind (lead : UInt8) : List UInt8 → Nat
  | [] => 0
  | b :: rest =>
    if 0 < followers lead && fitsSecond lead b then
      1 + ((rest.take (followers lead - 1)).takeWhile isContinuation).length
    else 0

/-- The characters that the bytes stand for, in order. Where no character is, bytes are skipped, and
`none` stands for them. -/
def decodeLossy : List UInt8 → List (Option Char)
  | [] => []
  | lead :: rest =>
    match (lead :: rest).toByteArray.utf8DecodeChar? 0 with
    | some c => some c :: decodeLossy (rest.drop (c.utf8Size - 1))
    | none => none :: decodeLossy (rest.drop (replacedBehind lead rest))
termination_by bytes => bytes.length
decreasing_by
  all_goals
    rw [List.length_cons, List.length_drop]
    omega

/-- The text that the bytes stand for, with U+FFFD where no character is. -/
def textLossy (bytes : List UInt8) : String :=
  .ofList ((decodeLossy bytes).map fun c => c.getD '\uFFFD')

end SceneTracer.Utf8
