/-!
# Lines of a text

A line ends at a line feed, and a carriage return directly before it is part of the line break. The
last line needs no line break, and nothing at all is no line.
-/

namespace SqlScript.Text

/-- The lines of a text; `current` holds the line being read, newest character first. -/
def linesFrom (current : List Char) : List Char → List (List Char)
  | [] => if current.isEmpty then [] else [current.reverse]
  | c :: rest =>
    if c = '\n' then
      (if current.head? = some '\r' then current.tail else current).reverse :: linesFrom [] rest
    else linesFrom (c :: current) rest

/-- The lines of a text without their line breaks. -/
def lines (cs : List Char) : List (List Char) :=
  linesFrom [] cs

end SqlScript.Text
