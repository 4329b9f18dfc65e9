import RenderTrace.Text.Blank

/-!
# Paths

A `Path` is a root and the names below it. Empty names and names of a single dot do not count, so
`./a//b` is `a/b`; two dots are kept, since what they lead to depends on the files.
-/

namespace RenderTrace

/-- A path, relative when its root is empty. -/
structure Path where
  root : String
  names : List String
  deriving DecidableEq, Repr

namespace Path

def splitSlashes : List Char → List (List Char)
  | [] => [[]]
  | c :: cs =>
    match splitSlashes cs with
    | [] => [[]]
    | p :: ps => if c = '/' then [] :: p :: ps else (c :: p) :: ps

/-- The root of a path: one slash, or two if it starts with exactly two. -/
def rootOf : List Char → String
  | '/' :: '/' :: '/' :: _ => "/"
  | '/' :: '/' :: _ => "//"
  | '/' :: _ => "/"
  | _ => ""

def ofString (s : String) : Path :=
  let names := (splitSlashes s.toList).map String.ofList
  ⟨rootOf s.toList, names.filter fun n => n ≠ "" ∧ n ≠ "."⟩

/-- The text of a path; a dot for the path without root and names. -/
def text (p : Path) : String :=
  if p.root = "" ∧ p.names = [] then "." else p.root ++ "/".intercalate p.names

def name (p : Path) : String := p.names.getLast?.getD ""

def parent (p : Path) : Path := { p with names := p.names.dropLast }

end Path
end RenderTrace
