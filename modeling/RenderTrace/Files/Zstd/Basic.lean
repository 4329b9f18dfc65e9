import RenderTrace.Files.Zstd.Codec

/-!
# Compressed frames

The frames of the Zstandard format that hold raw and repeated blocks. A frame is a magic number, a
header and blocks, the last of them marked; `Header` and `Block` say what stands in it and
`readHeader?` and `readBlock?` read one at the front of some octets.
-/

namespace RenderTrace.Zstd.Blocks

/-- Why octets are no frames. -/
inductive Fault where
  | unknownFrame
  | unsupportedParameter
  | tooMuchMemory
  | noRoom
  | corrupted
  deriving DecidableEq, Repr

def Fault.message : Fault → String
  | unknownFrame => "zstd decompress error: Unknown frame descriptor"
  | unsupportedParameter => "zstd decompress error: Unsupported frame parameter"
  | tooMuchMemory => "zstd decompress error: Frame requires too much memory for decoding"
  | noRoom => "zstd decompress error: Destination buffer is too small"
  | corrupted => "zstd decompress error: Data corruption detected"

/-- A number written in octets, the least significant first. -/
def ofLittleEndian (bytes : List UInt8) : Nat := bytes.foldr (fun b n => b.toNat + 256 * n) 0

/-- The octets of a number, the least significant first. -/
def toLittleEndian : Nat → Nat → List UInt8
  | 0, _ => []
  | width + 1, n => UInt8.ofNat (n % 256) :: toLittleEndian width (n / 256)

/-! ## Headers -/

def maxBlock : Nat := 128 * 1024

structure Header where
  /-- Octets of the content, if given. -/
  size : Option Nat
  /-- Octets of the content that a decoder has to keep. -/
  window : Nat
  hasChecksum : Bool

/-- The most octets of content in a block of the frame. -/
def Header.blockLimit (h : Header) : Nat := min h.window maxBlock

/-- The window that an octet describes: a power of two and some eighths of it. -/
def windowOf (n : Nat) : Nat :=
  let base := Nat.pow 2 (10 + n / 8)
  base + base / 8 * (n % 8)

/-- Octets of the size field for the two highest bits of a descriptor. -/
def sizeWidth (flag : Nat) (single : Bool) : Nat :=
  match flag with
  | 0 => if single then 1 else 0
  | 1 => 2
  | 2 => 4
  | _ => 8

/-- Octets of the dictionary field for the two lowest bits of a descriptor. -/
def dictionaryWidth (flag : Nat) : Nat :=
  match flag with
  | 0 => 0
  | 1 => 1
  | 2 => 2
  | _ => 4

/-- Reads a frame's header after its magic; none when it is cut off. The window of a frame that is a
single segment is its content. -/
def readHeader? : List UInt8 → Option (Except Fault (Header × List UInt8))
  | [] => none
  | descriptor :: rest =>
    let d := descriptor.toNat
    let single := d / 32 % 2 = 1
    let windowWidth := if single then 0 else 1
    let width := sizeWidth (d / 64) single
    let skipped := windowWidth + dictionaryWidth (d % 4)
    if rest.length < skipped + width then none
    else if d / 8 % 2 = 1 then some (.error .unsupportedParameter)
    else
      let n := ofLittleEndian ((rest.drop skipped).take width)
      let size := if width = 2 then n + 256 else n
      let window := if single then size else windowOf (ofLittleEndian (rest.take 1))
      some (.ok (⟨if width = 0 then none else some size, window, d / 4 % 2 = 1⟩,
        rest.drop (skipped + width)))

/-! ## Blocks -/

inductive BlockKind where
  /-- As it is. -/
  | raw
  /-- As one octet that stands for many. -/
  | repeated
  /-- In a way that is not read here. -/
  | reserved
  deriving DecidableEq, Repr

/-- The way to store a block that two bits of its header name. -/
def BlockKind.ofBits : Nat → BlockKind
  | 0 => raw
  | 1 => repeated
  | _ => reserved

structure Block where
  kind : BlockKind
  last : Bool
  /-- Octets of content. -/
  size : Nat
  /-- What is there of the octets that the block is stored in. -/
  stored : List UInt8

/-- How many octets a block of some size is stored in. -/
def BlockKind.width (size : Nat) : BlockKind → Nat
  | raw => size
  | repeated => 1
  | reserved => 0

namespace Block

/-- How many octets the block is stored in. -/
def width (b : Block) : Nat := b.kind.width b.size

/-- Nothing of the block is cut off. -/
def isWhole (b : Block) : Bool := b.stored.length = b.width

def content (b : Block) : List UInt8 :=
  match b.kind with
  | .raw => b.stored
  | .repeated => b.stored.flatMap (List.replicate b.size)
  | .reserved => []

end Block

/-- Octets of a block's header. -/
def blockHeaderWidth : Nat := 3

/-- Reads a block; none when its header is cut off. -/
def readBlock? : List UInt8 → Option (Block × List UInt8)
  | a :: b :: c :: rest =>
    let n := ofLittleEndian [a, b, c]
    let kind := BlockKind.ofBits (n / 2 % 4)
    let width := kind.width (n / 8)
    some (⟨kind, n % 2 = 1, n / 8, rest.take width⟩, rest.drop width)
  | _ => none

end RenderTrace.Zstd.Blocks
