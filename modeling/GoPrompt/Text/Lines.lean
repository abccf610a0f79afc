/-! A text as its lines. Every newline ends a line, with a carriage return in front of it if there is
one, and what follows the last newline is a line only if there is something. Texts are lists of
characters, or of bytes that are still to be decoded. -/

namespace GoPrompt.Text

section

variable {α : Type} [DecidableEq α] (newline carriageReturn : α)

/-- The line that `seen`, in reverse, is when a newline follows it. -/
def endedLine (seen : List α) : List α :=
  (if seen.head? = some carriageReturn then seen.tail else seen).reverse

/-- The lines of a text, behind the already read beginning `seen` of the first one (in reverse), and
after the already read lines `done` (in reverse). -/
def linesAfter (done : List (List α)) (seen : List α) : List α → List (List α)
  | [] => (if seen.isEmpty then done else seen.reverse :: done).reverse
  | c :: rest =>
    if c = newline then linesAfter (endedLine carriageReturn seen :: done) [] rest
    else linesAfter done (c :: seen) rest

end

def lines (text : List Char) : List (List Char) := linesAfter '\n' '\r' [] [] text

/-- The lines of a text in an encoding that agrees with ASCII on both marks. -/
def byteLines (text : List UInt8) : List (List UInt8) := linesAfter 10 13 [] [] text

/-- The pieces between the newlines: there is always one more of them than newlines. -/
def splitNewlines (text : List Char) : List (List Char) := text.splitOn '\n'

end GoPrompt.Text
