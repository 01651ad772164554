import SceneTracer.Raster
import SceneTracer.Scalar.Binary64

namespace SceneTracer

/-!
# Picture files

A picture file is a binary pixmap: a line with the format's mark, the width, the height and the
largest channel value, and then three bytes for each pixel, row by row.

* `channelByte` — a colour channel as a byte.
* `Raster.header`, `Raster.encode` — the first line, and the whole file.
-/

/-- A colour channel as a byte: the whole part of 255 times the channel, which is cut off at zero and
at one. A channel that is not a number is zero. -/
def channelByte (c : Float) : UInt8 :=
  (255.0 * Scalar.clampToUnit c).toUInt8

/-- The three bytes of a pixel. -/
def pixelBytes (color : Vec3 Float) : List UInt8 :=
  [channelByte color.x, channelByte color.y, channelByte color.z]

namespace Raster

/-- The first line of a picture file. -/
def header (width height : Nat) : String :=
  "P6 " ++ toString width ++ " " ++ toString height ++ " 255\n"

/-- The content of the file of a picture. -/
def encode (image : Raster (Vec3 Float)) : ByteArray :=
  image.pixels.foldl (fun bytes color => (pixelBytes color).foldl ByteArray.push bytes)
    (header image.width image.height).toUTF8

end Raster

end SceneTracer
