namespace SceneTracer.Decimal

/-!
# Reading decimal digits

* `natOfDigits` — the number written by a list of digits.
* `toReal` — the binary64 number nearest to a signed decimal.
* `readReal?` — the number that a text of its own writes.
-/

/-- The number that the decimal digits `digits` write, most significant first. -/
def natOfDigits (digits : List Char) : Nat :=
  digits.foldl (fun n d => 10 * n + (d.toNat - '0'.toNat)) 0

/-- The decimal form of a number writes it. -/
theorem natOfDigits_toDigits (n : Nat) : natOfDigits (Nat.toDigits 10 n) = n :=
  Nat.ofDigitChars_toDigits (by decide) (by decide)

/-- The binary64 number nearest to `±digits · 10^exponent`; a zero keeps its sign, and what is too
large becomes an infinity. -/
def toReal (negative : Bool) (digits : Nat) (exponent : Int) : Float :=
  let magnitude := Float.ofScientific digits (decide (exponent < 0)) exponent.natAbs
  if negative then -magnitude else magnitude

/-- Takes a sign off the front of a text, and tells whether it is negative. -/
def readSign : List Char → Bool × List Char
  | '-' :: cs => (true, cs)
  | '+' :: cs => (false, cs)
  | cs => (false, cs)

/-- The power of ten that the text `cs` behind the digits of a number writes: none at all, or an `e`
or `E` and a whole number. -/
def readExponent? : List Char → Option Int
  | [] => some 0
  | e :: cs =>
    let (negative, digits) := readSign cs
    if (e = 'e' || e = 'E') && !digits.isEmpty && digits.all Char.isDigit then
      some (if negative then -(natOfDigits digits : Int) else natOfDigits digits)
    else none

/-- The number that a whole text writes: an infinity, no number, or digits with a point or without and
a power of ten or none. There is a digit before the point or behind it. -/
def readReal? (text : String) : Option Float :=
  let (negative, body) := readSign text.toList
  let word := body.map Char.toLower
  if word = ['i', 'n', 'f'] || word = ['i', 'n', 'f', 'i', 'n', 'i', 't', 'y'] then
    some (if negative then -1.0 / 0.0 else 1.0 / 0.0)
  else if word = ['n', 'a', 'n'] then some (0.0 / 0.0)
  else
    let whole := body.takeWhile Char.isDigit
    let afterWhole := body.dropWhile Char.isDigit
    let behindPoint := if afterWhole.head? = some '.' then afterWhole.drop 1 else []
    let places := behindPoint.takeWhile Char.isDigit
    let rest := if afterWhole.head? = some '.' then behindPoint.dropWhile Char.isDigit else afterWhole
    if whole.isEmpty && places.isEmpty then none
    else (readExponent? rest).map fun exponent =>
      toReal negative (natOfDigits (whole ++ places)) (exponent - places.length)

end SceneTracer.Decimal
