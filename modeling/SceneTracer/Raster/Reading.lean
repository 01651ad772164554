import SceneTracer.Decimal.Numeral
import SceneTracer.Raster.Pixmap

namespace SceneTracer.Raster

/-!
# Reading picture files

The first line of a picture file gives the size of the picture. It is read from the bytes without any
knowledge of how it was written.

* `readNumber?` — a number at the front of a text.
* `readHeader?` — the size, and the bytes behind the first line.
-/

/-- A number at the front of a text, which the character `stop` ends, and what follows. -/
def readNumber? (stop : Char) (text : List Char) : Option (Nat × List Char) :=
  let digits := text.takeWhile Char.isDigit
  match text.dropWhile Char.isDigit with
  | c :: rest => if c = stop && !digits.isEmpty then some (Decimal.natOfDigits digits, rest) else none
  | [] => none

/-- Width and height, and what follows the first line. Bytes are read as characters. -/
def readHeader? (content : List UInt8) : Option (Nat × Nat × List UInt8) :=
  match content.map fun b => Char.ofNat b.toNat with
  | 'P' :: '6' :: ' ' :: text => do
    let (width, text) ← readNumber? ' ' text
    let (height, text) ← readNumber? ' ' text
    match text with
    | '2' :: '5' :: '5' :: '\n' :: rest =>
      some (width, height, content.drop (content.length - rest.length))
    | _ => none
  | _ => none

end SceneTracer.Raster
