namespace SceneTracer.Decimal

/-!
# The shortest decimal text of a floating point number

A finite number is written with the fewest significant digits that read back as the same number, and
of those with the digits nearest to it.

* `Dyadic` — a number as a whole multiple of a power of two.
* `gridPoint?` — the multiple of a power of ten that reads back as a given number.
* `shortest` — the coarsest such grid point.
* `text` — the number in positional notation.
-/

/-- The number `mantissa · 2^exponent`. Its lower neighbour among the floating point numbers is half
as far away as its upper one if `lowerIsHalf`. -/
structure Dyadic where
  mantissa : Nat
  exponent : Int
  lowerIsHalf : Bool

/-- The magnitude of a finite floating point number. -/
def Dyadic.ofFloat (x : Float) : Dyadic :=
  let bits : Nat := x.toBits.toNat
  let fraction : Nat := bits % Nat.pow 2 52
  let biased : Nat := bits / Nat.pow 2 52 % Nat.pow 2 11
  if biased = 0 then ⟨fraction, -1074, false⟩
  else ⟨Nat.pow 2 52 + fraction, (biased : Int) - 1075, fraction = 0 && 1 < biased⟩

/-- The whole number `d` for which `d · 10^k` lies among the reals that are rounded to `x`, if there
is one: the one nearest to `x`, and the larger of two equally near ones. The ends of that range
belong to it when the mantissa is even. -/
def gridPoint? (x : Dyadic) (k : Int) : Option Nat :=
  -- `d · 10^k` compares with `n · 2^(exponent - 2)` as `d · a` does with `n · b`
  let a := Nat.pow 10 k.toNat * Nat.pow 2 (2 - x.exponent).toNat
  let b := Nat.pow 10 (-k).toNat * Nat.pow 2 (x.exponent - 2).toNat
  let low := (4 * x.mantissa - if x.lowerIsHalf then 1 else 2) * b
  let middle := 4 * x.mantissa * b
  let high := (4 * x.mantissa + 2) * b
  let closed := x.mantissa % 2 = 0
  let inside (d : Nat) : Bool :=
    (low < d * a && d * a < high) || (closed && (d * a = low || d * a = high))
  let below := middle / a
  match inside below, inside (below + 1) with
  | false, false => none
  | true, false => some below
  | false, true => some (below + 1)
  | true, true => some (if 2 * middle < (2 * below + 1) * a then below else below + 1)

/-- The grid point of the largest power of ten, searched from `10^k` down for at most `steps` steps,
with its exponent. -/
def searchGrid (x : Dyadic) : Nat → Int → Nat × Int
  | 0, k => (0, k)
  | steps + 1, k =>
    match gridPoint? x k with
    | some d => (d, k)
    | none => searchGrid x steps (k - 1)

/-- The decimal `d · 10^k` with the fewest digits that reads back as `x`. Every finite number has a
power of ten between `10^309` and `10^-343` as such a grid. -/
def shortest (x : Dyadic) : Nat × Int := searchGrid x 653 309

/-- The digits of `d · 10^k` in positional notation, with a point only before a fraction. -/
def positional (d : Nat) (k : Int) : String :=
  let digits := Nat.toDigits 10 d
  let places := (-k).toNat
  if 0 ≤ k then .ofList (digits ++ List.replicate k.toNat '0')
  else
    let padded := List.replicate (places + 1 - digits.length) '0' ++ digits
    let whole := padded.length - places
    .ofList (padded.take whole ++ '.' :: padded.drop whole)

/-- A floating point number in positional notation, with the fewest digits that read back. -/
def text (x : Float) : String :=
  let sign := if x.toBits.toNat / Nat.pow 2 63 = 1 then "-" else ""
  if x.isNaN then "NaN"
  else if x.isInf then sign ++ "inf"
  else if x == 0.0 then sign ++ "0"
  else
    let (d, k) := shortest (.ofFloat x)
    sign ++ positional d k

end SceneTracer.Decimal
