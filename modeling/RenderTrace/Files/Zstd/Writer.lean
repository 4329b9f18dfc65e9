import RenderTrace.Files.Zstd.Basic

/-!
# Writing compressed frames

`Blocks.compress` writes octets as one frame of raw blocks, which is how the library stores what does
not get smaller. A few octets are one segment whose size the frame gives. A frame for more of them
gives a window of one block and no size, so that octets of any number fit.
-/

namespace RenderTrace.Zstd.Blocks

/-- The descriptor of a frame that is one segment and gives its size in one octet. -/
def segmentDescriptor : UInt8 := 0x20

/-- The descriptor of a frame that gives a window and no size. -/
def windowedDescriptor : UInt8 := 0x00

/-- The octet that describes a window of `maxBlock`. -/
def blockWindow : UInt8 := 0x38

def rawHeader (last : Bool) (size : Nat) : List UInt8 :=
  toLittleEndian 3 (size * 8 + if last then 1 else 0)

/-- Raw blocks, the last of them marked. The number bounds how many are needed. -/
def rawBlocks : Nat → List UInt8 → List UInt8
  | 0, bytes => rawHeader true bytes.length ++ bytes
  | bound + 1, bytes =>
    if bytes.length ≤ maxBlock then rawHeader true bytes.length ++ bytes
    else rawHeader false maxBlock ++ bytes.take maxBlock ++ rawBlocks bound (bytes.drop maxBlock)

/-- One frame of raw blocks. -/
def compress (bytes : List UInt8) : List UInt8 :=
  if bytes.length < 256 then
    magic ++ segmentDescriptor :: UInt8.ofNat bytes.length ::
      (rawHeader true bytes.length ++ bytes)
  else magic ++ windowedDescriptor :: blockWindow :: rawBlocks (bytes.length / maxBlock) bytes

end RenderTrace.Zstd.Blocks
