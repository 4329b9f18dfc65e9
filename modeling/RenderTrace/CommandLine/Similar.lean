/-!
# Similar names

How alike two names are: twice the number of characters they share, divided by the number of
characters they have (`likeness`). Shared characters are those of the longest common run, the first
of several, and in turn those of the parts before it and after it. `similarTo` picks the names that
may have been meant.

`click` proposes close matches for an unknown name: at most three, of a ratio of 0.6 or more. The ratio
is the documented one of twice the matches by the characters. That characters which are frequent in a
name of two hundred or more do not count is not taken over: such a name is close to none of those that
there are.
-/

namespace RenderTrace.CommandLine

/-- The length of the common start of two texts. -/
def commonStart : List Char → List Char → Nat
  | a :: as, b :: bs => if a = b then commonStart as bs + 1 else 0
  | _, _ => 0

/-- A run of characters in two texts: its places and its length. -/
structure CommonRun where
  left : Nat
  right : Nat
  length : Nat

/-- The longest common run of two texts, the first of several. -/
def longestRun (as bs : List Char) : CommonRun :=
  (List.range as.length).foldl (fun best i =>
    (List.range bs.length).foldl (fun best j =>
      let n := commonStart (as.drop i) (bs.drop j)
      if best.length < n then ⟨i, j, n⟩ else best) best) ⟨0, 0, 0⟩

/-- The number of characters that two texts share. The bound is on the number of runs. -/
def sharedWithin : Nat → List Char → List Char → Nat
  | 0, _, _ => 0
  | bound + 1, as, bs =>
    let run := longestRun as bs
    if run.length = 0 then 0
    else
      sharedWithin bound (as.take run.left) (bs.take run.right) + run.length
        + sharedWithin bound (as.drop (run.left + run.length)) (bs.drop (run.right + run.length))

def shared (as bs : List Char) : Nat := sharedWithin (as.length + 1) as bs

/-- How alike two names are, from zero to one. -/
def likeness (a b : String) : Rat :=
  mkRat (2 * shared a.toList b.toList) (a.length + b.length)

/-- How alike a name must be to be proposed. -/
def leastLikeness : Rat := 3 / 5

/-- How many names are proposed at most. -/
def mostProposals : Nat := 3

/-- The more alike of two names first, the later name of two that are as alike. -/
def moreAlike (a b : Rat × String) : Bool := b.1 < a.1 || (a.1 = b.1 && b.2 ≤ a.2)

/-- The names most like a word, in the order of their characters. -/
def similarTo (word : String) (names : List String) : List String :=
  let alike := (names.map fun n => (likeness n word, n)).filter fun x => leastLikeness ≤ x.1
  (((alike.mergeSort moreAlike).take mostProposals).map (·.2)).mergeSort (· ≤ ·)

end RenderTrace.CommandLine
