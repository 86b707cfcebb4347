import DemandPaging.Notice

/-!
# The console

Two streams of text. What was printed is read back as lines: a line ends with a line feed, to which
one carriage return right before it belongs, and text after the last line feed counts as a line too.
A line of the standard output that begins with the mark of the trace belongs to the trace, and to
nothing else.
-/

set_option autoImplicit false

namespace DemandPaging

/-- The text printed so far. -/
structure Console where
  /-- Standard output. -/
  out : String := ""
  /-- Error output. -/
  err : String := ""
  deriving DecidableEq, Repr, Inhabited

namespace Console

/-- How a line of the trace begins. -/
def traceMark : String := "[vm] "

/-- Print to the standard output. -/
def print (console : Console) (text : String) : Console :=
  { console with out := console.out ++ text }

/-- Print to the error output. -/
def printError (console : Console) (text : String) : Console :=
  { console with err := console.err ++ text }

/-- Print a notice, as a line of its own. -/
def notify (console : Console) (notice : Notice) : Console :=
  match notice.channel with
  | .out => console.print (notice.text ++ "\n")
  | .trace => console.print (traceMark ++ notice.text ++ "\n")
  | .err => console.printError (notice.text ++ "\n")

/-- What the console shows after some notices. -/
def ofNotices (notices : List Notice) : Console := notices.foldl notify {}

/-- Put a character in front of the first line. -/
def consLine (c : Char) : List (List Char) → List (List Char)
  | [] => [[c]]
  | line :: rest => (c :: line) :: rest

/-- The lines of a text, without their ends. -/
def splitLines : List Char → List (List Char)
  | [] => []
  | '\r' :: '\n' :: rest => [] :: splitLines rest
  | '\n' :: rest => [] :: splitLines rest
  | c :: rest => consLine c (splitLines rest)

/-- The lines of a stream. -/
def lines (text : String) : List String := (splitLines text.toList).map String.ofList

/-- The lines of the standard output that do not belong to the trace. -/
def plainLines (console : Console) : List String :=
  (lines console.out).filter fun line => !line.startsWith traceMark

/-- The lines of the trace. -/
def traceLines (console : Console) : List String :=
  (lines console.out).filter (·.startsWith traceMark)

/-- The lines of the error output. -/
def errorLines (console : Console) : List String := lines console.err

example : lines "x\n\ny" = ["x", "", "y"] := by decide
example : lines "\n" = [""] := by decide
example : lines "x\r\r\n\ry\r" = ["x\r", "\ry\r"] := by decide

end Console

end DemandPaging
