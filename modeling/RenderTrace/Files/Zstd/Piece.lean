import RenderTrace.Files.Zstd.Basic

/-!
# Content in portions

Octets are read in portions, and content is given out in portions of another size. A `Piece` is
content that becomes known at one time: that of a repeated block, or as much of a raw block as one
portion of input holds. What does not fit into the portion that is being filled waits for the next
one (`Filling.add`), and that one is filled only while there is input left. So what waits when the
input ends within a frame is lost (`Piece.givenAtEnd`).
-/

namespace RenderTrace.Zstd.Blocks

/-- Octets that are read at a time. -/
def inputPortion : Nat := maxBlock + 3

/-- Octets that are given out at a time. -/
def outputPortion : Nat := 1024 * 1024

/-- Content that becomes known at one time. -/
structure Piece where
  content : List UInt8
  /-- The place in the input behind the octets that it is stored in. -/
  stop : Nat

/-- The portion of input that the octets before a place end in. -/
def portionBefore (place : Nat) : Nat := (place - 1) / inputPortion

namespace Piece

/-- The pieces of a block whose octets start at a place of the input. A raw block is shorter than a
portion, so it lies in two portions at most. -/
def ofBlock (place : Nat) (b : Block) : List Piece :=
  let stop := place + b.stored.length
  let here := inputPortion - place % inputPortion
  let pieces : List Piece := match b.kind with
    | .raw => [⟨b.stored.take here, min stop (place + here)⟩, ⟨b.stored.drop here, stop⟩]
    | _ => [⟨b.content, stop⟩]
  pieces.filter fun p => !p.content.isEmpty

theorem flatMap_filter_isEmpty (ps : List Piece) :
    (ps.filter fun p => !p.content.isEmpty).flatMap content = ps.flatMap content := by
  induction ps with
  | nil => rfl
  | cons p ps ih => cases h : p.content <;> simp [h, ih]

/-- The pieces of a block hold its content. -/
theorem flatMap_ofBlock (place : Nat) (b : Block) :
    (ofBlock place b).flatMap content = b.content := by
  unfold ofBlock
  rw [flatMap_filter_isEmpty]
  cases h : b.kind <;> simp [Block.content, h]

end Piece

/-- How far content has been given out. -/
structure Filling where
  /-- Octets in the portion that is being filled. -/
  filled : Nat
  /-- Octets of the last piece that wait for the next portion. -/
  waiting : Nat
  /-- The place in the input behind the last piece. -/
  stop : Nat

namespace Filling

def empty : Filling := ⟨0, 0, 0⟩

/-- The octets in the portion when another piece comes: those that waited; none when the portion was
full and its input used up. -/
def before (f : Filling) (p : Piece) : Nat :=
  if 0 < f.waiting then f.waiting
  else if f.filled = outputPortion ∧ portionBefore f.stop < portionBefore p.stop then 0
  else f.filled

/-- Takes in a piece; what does not fit waits. -/
def add (f : Filling) (p : Piece) : Filling :=
  let count := f.before p + p.content.length
  ⟨min count outputPortion, count - outputPortion, p.stop⟩

end Filling

/-- The content of some pieces as far as it is given out when the input ends at a place, within
their frame: what waits is lost if nothing comes behind the last piece. -/
def Piece.givenAtEnd (total : Nat) (pieces : List Piece) : List UInt8 :=
  let content := pieces.flatMap Piece.content
  let f := pieces.foldl Filling.add .empty
  if f.stop = total then content.take (content.length - f.waiting) else content

end RenderTrace.Zstd.Blocks
