import RenderTrace.Files.Zstd.Piece
import RenderTrace.Files.Zstd.Writer

/-!
# Reading compressed frames

`Blocks.decompress` reads frames one after the other. A frame that is cut off gives what it holds up
to there, less what waits to be given out (`Piece.givenAtEnd`); octets that start no frame are a
fault.

A frame that says how large it is, is there as a whole and fits into one portion of output is read
at once (`readAtOnce`): only its whole size is checked. Any other frame is read block by block
(`readBlocks`) through memory set aside for it (`Room`): the window, two blocks and a margin. No
block of it may be larger than its header allows.

With `Blocks.compress` this makes a codec that can run (`Blocks.codec`). It is not the library: blocks
that are compressed are refused and checksums are passed over.
-/

namespace RenderTrace.Zstd.Blocks

/-- The fewest octets in which a frame can be recognised. -/
def minHeader : Nat := 5

/-- The largest window that is accepted. -/
def maxWindow : Nat := 128 * 1024 * 1024 + 1

/-- The smallest window that memory is set aside for. -/
def minWindow : Nat := 1024

/-- Octets set aside beyond the window and two blocks. -/
def margin : Nat := 64

/-! ## Frames read at once -/

/-- The blocks of a frame and the octets after them; none when a block is cut off or of a kind that
is not read. The number bounds the blocks. -/
def wholeBlocks? : Nat → List UInt8 → Option (List Block × List UInt8)
  | 0, _ => none
  | bound + 1, bytes =>
    match readBlock? bytes with
    | none => none
    | some (b, rest) =>
      if b.kind = .reserved ∨ !b.isWhole then none
      else if b.last then some ([b], rest)
      else (wholeBlocks? bound rest).map fun (bs, rest) => (b :: bs, rest)

def checksumWidth : Nat := 4

/-- The octets after a frame's checksum, if it has one; none when the checksum is cut off. -/
def afterChecksum? (h : Header) (bytes : List UInt8) : Option (List UInt8) :=
  if !h.hasChecksum then some bytes
  else if bytes.length < checksumWidth then none
  else some (bytes.drop checksumWidth)

/-- The size, the blocks and the octets after a frame that can be read at once, none for any other
frame. So many octets of its blocks are available. -/
def atOnce? (h : Header) (available : Nat) (bytes : List UInt8) :
    Option (Nat × List Block × List UInt8) := do
  let size ← h.size
  let (blocks, rest) ← wholeBlocks? bytes.length bytes
  let rest ← afterChecksum? h rest
  if size ≤ outputPortion ∧ bytes.length - rest.length ≤ available then some (size, blocks, rest)
  else none

/-- The content of some blocks, in so much free room. -/
def joinBlocks : Nat → List Block → Except Fault (List UInt8)
  | _, [] => .ok []
  | free, b :: bs =>
    let n := b.content.length
    if free < n then .error .noRoom else (joinBlocks (free - n) bs).map (b.content ++ ·)

/-- The content of a frame that is read at once. -/
def readAtOnce (size : Nat) (blocks : List Block) : Except Fault (List UInt8) := do
  let content ← joinBlocks outputPortion blocks
  if content.length = size then return content else throw .corrupted

/-! ## Frames read block by block -/

/-- Memory set aside for frames. -/
structure Room where
  /-- Octets for what a block is stored in. -/
  stored : Nat
  /-- Octets for content. -/
  content : Nat
  /-- Frames one after the other for which it was much too large. -/
  idle : Nat

namespace Room

def empty : Room := ⟨0, 0, 0⟩

def size (r : Room) : Nat := r.stored + r.content

/-- How many times the room needed is much too large. -/
def excess : Nat := 3

/-- After so many frames a room that is much too large is given up. -/
def patience : Nat := 128

end Room

/-- The room that a frame needs. -/
def Header.room (h : Header) : Room :=
  let kept := max h.window minWindow + 2 * h.blockLimit + margin
  ⟨max h.blockLimit checksumWidth, h.size.elim kept (min kept), 0⟩

/-- The room for a frame: what was there before, unless it is too small or has long been much too
large. -/
def Room.provide (r : Room) (h : Header) : Room :=
  let idle := if excess * h.room.size ≤ r.size then r.idle + 1 else 0
  if r.stored < h.room.stored ∨ r.content < h.room.content ∨ patience ≤ idle then
    { h.room with idle }
  else { r with idle }

/-- Where the content after some piece goes: back to the front when another block would not fit,
unless there is room for the whole content. -/
def Header.advance (h : Header) (room place : Nat) : Nat :=
  if h.size.all (room < ·) ∧ room < place + h.blockLimit then 0 else place

/-- Puts pieces into the room, the first of them at a place, and gives the place after them. -/
def Header.place (h : Header) (room : Nat) : Nat → List Piece → Except Fault Nat
  | place, [] => .ok place
  | place, p :: ps =>
    let n := p.content.length
    if room < place + n then .error .noRoom
    else if h.blockLimit < n then .error .corrupted
    else h.place room (h.advance room (place + n)) ps

/-- The content of a frame's blocks, and the octets after the frame, none of a frame that is cut
off. An empty raw block at the end leaves the size unchecked. The first number after the room bounds
the blocks, `start` is the place of the octets in the input, `place` is where the next content goes,
and `count` is how much came before. -/
def readBlocks (h : Header) (room : Nat) : Nat → Nat → Nat → Nat → List UInt8 →
    Except Fault (List Piece × Option (List UInt8))
  | 0, _, _, _, _ => .ok ([], none)
  | bound + 1, start, place, count, bytes =>
    match readBlock? bytes with
    | none => .ok ([], none)
    | some (b, rest) =>
      if b.kind = .reserved ∨ h.blockLimit < b.width then .error .corrupted
      else do
        let start := start + blockHeaderWidth
        let pieces := Piece.ofBlock start b
        let place ← h.place room place pieces
        let count := count + b.content.length
        if !b.isWhole then return (pieces, none)
        else if b.last then
          if b.width ≠ 0 ∧ h.size.any (· ≠ count) then throw .corrupted
          else return (pieces, afterChecksum? h rest)
        else
          let (more, rest) ← readBlocks h room bound (start + b.stored.length) place count rest
          return (pieces ++ more, rest)

/-! ## Frames one after the other -/

/-- The content of a frame after its header, the room that is set aside after it, and the octets
that follow it, at the end of `total` octets. -/
def readFrame (h : Header) (total available : Nat) (room : Room) (bytes : List UInt8) :
    Except Fault (List UInt8 × Room × List UInt8) :=
  match atOnce? h available bytes with
  | some (size, blocks, rest) => (readAtOnce size blocks).map fun content => (content, room, rest)
  | none =>
    if maxWindow < h.window then .error .tooMuchMemory
    else do
      let room := room.provide h
      let (pieces, rest) ← readBlocks h room.content bytes.length (total - bytes.length) 0 0 bytes
      return match rest with
        | some rest => (pieces.flatMap Piece.content, room, rest)
        | none => (Piece.givenAtEnd total pieces, room, [])

/-- The octets are the same, as far as both go. -/
def agree (xs ys : List UInt8) : Bool := xs.isPrefixOf ys || ys.isPrefixOf xs

/-- The octets that follow the first of a frame that is to be skipped. -/
def skippedMagic : List UInt8 := [0x2a, 0x4d, 0x18]

/-- Octets of the size of a frame that is to be skipped. -/
def skippedWidth : Nat := 4

/-- The octets start a frame that is to be skipped, as far as they go. -/
def startsSkipped : List UInt8 → Bool
  | a :: rest => a.toNat / 16 = 5 && agree rest skippedMagic
  | [] => true

/-- The octets start a frame of content, as far as they go. -/
def startsFrame (bytes : List UInt8) : Bool := agree bytes magic

/-- How many octets of a frame that is skipped stand after its magic number and this size. -/
def skippedSize (bytes : List UInt8) : Nat :=
  ofLittleEndian ((bytes.drop magic.length).take skippedWidth)

def skipFrame (bytes : List UInt8) : List UInt8 :=
  bytes.drop (magic.length + skippedWidth + skippedSize bytes)

/-- What room is set aside by: a frame that is skipped is one of its size with nothing to keep. -/
def skippedHeader (bytes : List UInt8) : Header := ⟨some (skippedSize bytes), 0, false⟩

/-- The content of frames one after the other, at the end of `total` octets. The start of a frame
that is too short to be recognised is ignored. The first number bounds the frames. -/
def readFrames (total : Nat) : Nat → Room → List UInt8 → Except Fault (List UInt8)
  | 0, _, _ => .ok []
  | bound + 1, room, bytes =>
    if !(startsFrame bytes || startsSkipped bytes) then .error .unknownFrame
    else if bytes.length < minHeader then .ok []
    else if startsSkipped bytes then
      readFrames total bound (room.provide (skippedHeader bytes)) (skipFrame bytes)
    else
      match readHeader? (bytes.drop magic.length) with
      | none => .ok []
      | some (.error f) => .error f
      | some (.ok (h, rest)) => do
        let portion := inputPortion - (total - bytes.length) % inputPortion
        let available := portion - (bytes.length - rest.length)
        let (content, room, rest) ← readFrame h total available room rest
        return content ++ (← readFrames total bound room rest)

/-- The content of compressed octets. -/
def decompress (bytes : List UInt8) : Except Fault (List UInt8) :=
  readFrames bytes.length bytes.length .empty bytes

/-- The codec of raw and repeated blocks. -/
@[reducible] def codec : Codec where
  compress := compress
  decompress bytes := (decompress bytes).mapError fun f => ⟨f.message⟩

end RenderTrace.Zstd.Blocks
