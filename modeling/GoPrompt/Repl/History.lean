import GoPrompt.Repl.HistoryRange
import GoPrompt.Text.Lines

/-! The history holds the lines of the accepted statements, the oldest first. A bounded history drops
its oldest entries. -/

namespace GoPrompt

structure History where
  entries : List String := []
  limit : Option Nat := none
  deriving DecidableEq, Repr

namespace History

def length (history : History) : Nat := history.entries.length

/-- The entry of the given number, counted from one. -/
def get? (history : History) (index : Nat) : Option String :=
  if index = 0 then none else history.entries[index - 1]?

/-- The lines of a statement that are worth an entry: all but a blank one at the end of several. -/
def recordedLines (source : String) : List String :=
  let lines := Text.splitNewlines source.toList
  let lines :=
    if 1 < lines.length ∧ (lines.getLast?.any fun line => (Text.trim line).isEmpty) then lines.dropLast else lines
  lines.map String.ofList

/-- The last entries, as many as the limit allows. -/
def trim (history : History) : History :=
  match history.limit with
  | some limit => { history with entries := history.entries.drop (history.length - limit) }
  | none => history

def record (history : History) (source : String) : History :=
  trim { history with entries := history.entries ++ recordedLines source }

/-- The selected entries as one text. -/
def replay (history : History) (range : HistoryRange) : Except HistoryError String := do
  let (start, stop) ← range.resolve history.length
  return String.intercalate "\n" ((history.entries.take stop).drop (start - 1))

/-- Removes the selected entries, and answers their first and last number. -/
def remove (history : History) (range : HistoryRange) : Except HistoryError ((Nat × Nat) × History) := do
  let (start, stop) ← range.resolve history.length
  return ((start, stop),
    { history with entries := history.entries.take (start - 1) ++ history.entries.drop stop })

def clear (history : History) : History := { history with entries := [] }

/-- The listing of the entries with their numbers. -/
def render (history : History) : String :=
  if history.entries.isEmpty then "history: empty"
  else
    let lines := history.entries.zipIdx.map fun (entry, index) => "\n" ++ Text.threeDigits (index + 1) ++ ": " ++ entry
    "history:" ++ String.join lines

end History

end GoPrompt
