/-!
# Line feeds

A text is read with line feeds only: a carriage return with the line feed after it becomes one line
feed, and so does a carriage return alone.
-/

namespace RenderTrace.Text

/-- Takes in the character before those of `tail`, which are already translated; the flag says that
they began with a line feed. -/
def unifyStep (c : Char) (tail : List Char × Bool) : List Char × Bool :=
  if c = '\r' then (if tail.2 then tail.1 else '\n' :: tail.1, false)
  else (c :: tail.1, c = '\n')

/-- Turns every line end written with a carriage return into a line feed. -/
def unifyNewlines (cs : List Char) : List Char := (cs.foldr unifyStep ([], false)).1

end RenderTrace.Text
