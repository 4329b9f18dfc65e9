/-!
# The compressing library

Text files may be compressed by the Zstandard library. All that is known of it here is a `Codec`: what
it writes for some octets, and what it reads from some, which may fail. The theorems about files that
are read hold of every codec; where a text has to read back as it was written, the codec is a
`LawfulCodec`.
-/

namespace RenderTrace.Zstd

/-- The octets that every frame starts with. -/
def magic : List UInt8 := [0x28, 0xb5, 0x2f, 0xfd]

def isFrame (bytes : List UInt8) : Bool := magic.isPrefixOf bytes

/-- Why octets cannot be read, in the library's words. -/
structure Error where
  message : String
  deriving DecidableEq, Repr

/-- What the library writes and reads. -/
class Codec where
  compress : List UInt8 → List UInt8
  decompress : List UInt8 → Except Error (List UInt8)

export Codec (compress decompress)

/-- The library as it is documented: what it writes starts like a frame and reads back. -/
class LawfulCodec [Codec] : Prop where
  isFrame_compress : ∀ bytes, isFrame (compress bytes) = true
  decompress_compress : ∀ bytes, decompress (compress bytes) = .ok bytes

export LawfulCodec (isFrame_compress decompress_compress)

end RenderTrace.Zstd
