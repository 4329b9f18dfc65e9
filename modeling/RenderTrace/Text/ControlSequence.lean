/-!
# Control sequences

A terminal is directed by sequences that stand among the text: an escape character and an opening
bracket, parameters, intermediate characters and one final character. `dropControlSequences` leaves
the text between them; an escape character that begins no whole sequence is text.
-/

namespace RenderTrace.Text

def isParameter (c : Char) : Bool := '0' ≤ c && c ≤ '?'

/-- The characters between the parameters of a control sequence and its end. -/
def isIntermediate (c : Char) : Bool := ' ' ≤ c && c ≤ '/'

/-- The characters that end a control sequence. -/
def isFinal (c : Char) : Bool := '@' ≤ c && c ≤ '~'

/-- The characters after a control sequence of which the opening is read; none when it has no
end. -/
def afterSequence? (cs : List Char) : Option (List Char) :=
  match (cs.dropWhile isParameter).dropWhile isIntermediate with
  | c :: rest => if isFinal c then some rest else none
  | [] => none

/-- What follows a control sequence is shorter than what follows its opening. -/
theorem length_lt_of_afterSequence? {cs rest : List Char} (h : afterSequence? cs = some rest) :
    rest.length < cs.length := by
  have shorter : ((cs.dropWhile isParameter).dropWhile isIntermediate).length ≤ cs.length :=
    Nat.le_trans (List.dropWhile_suffix _).length_le (List.dropWhile_suffix _).length_le
  unfold afterSequence? at h
  split at h
  case h_1 c tail e =>
    split at h
    case isTrue =>
      cases h
      rw [e, List.length_cons] at shorter
      omega
    case isFalse => cases h
  case h_2 => cases h

/-- The characters outside control sequences after some that are read already, newest first. -/
def outsideControls (read : List Char) : List Char → List Char
  | '\x1b' :: '[' :: cs =>
    match _h : afterSequence? cs with
    | some rest => outsideControls read rest
    | none => outsideControls ('\x1b' :: read) ('[' :: cs)
  | c :: cs => outsideControls (c :: read) cs
  | [] => read.reverse
termination_by cs => cs.length
decreasing_by
  all_goals simp only [List.length_cons]
  · have := length_lt_of_afterSequence? _h
    omega
  all_goals omega

def dropControlSequences (s : String) : String := String.ofList (outsideControls [] s.toList)

end RenderTrace.Text
