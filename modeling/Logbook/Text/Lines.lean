/-!
# Lines of a text

A line ends at a line feed, and one carriage return before the line feed is not part of the line. Text
after the last line feed is a line of its own; no line stands behind a final line feed.
-/

namespace Logbook.Text

/-- A line that ended at a line feed, given by its characters in reverse. -/
def closedLine : List Char → String
  | '\r' :: rest => String.ofList rest.reverse
  | line => String.ofList line.reverse

/-- The lines of the characters still to come, after the lines `done` and the start `line` of the current
one, both in reverse. -/
def linesOnto (done : List String) (line : List Char) : List Char → List String
  | [] => if line.isEmpty then done else String.ofList line.reverse :: done
  | c :: rest =>
    if c = '\n' then linesOnto (closedLine line :: done) [] rest
    else linesOnto done (c :: line) rest

/-- The lines of a text, without their ends. -/
def lines (s : String) : List String := (linesOnto [] [] s.toList).reverse

end Logbook.Text
