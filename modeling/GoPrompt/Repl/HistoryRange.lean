import GoPrompt.Text.Numeral
import GoPrompt.Text.Trim

/-! Selections of history entries, which are numbered from one: `3`, `3-5`, `-4` or `2-`. An open start
is the first entry, and an open end the last one. -/

namespace GoPrompt

inductive HistoryError where
  | notANumber (text : String)
  | severalDashes
  | outOfRange (index length : Nat)
  | endBeforeBeginning
  deriving DecidableEq, Repr

namespace HistoryError

def message : HistoryError → String
  | .notANumber text => "could not convert '" ++ text ++ "' to an entry number"
  | .severalDashes => "more than one '-' in history range"
  | .outOfRange index length => s!"entry {index} out of range (history has {length})"
  | .endBeforeBeginning => "end before beginning"

end HistoryError

structure HistoryRange where
  start : Option Nat
  stop : Option Nat
  isRange : Bool
  deriving DecidableEq, Repr

namespace HistoryRange

def single (index : Nat) : HistoryRange := ⟨some index, some index, false⟩

def span (start stop : Option Nat) : HistoryRange := ⟨start, stop, true⟩

def parseIndex (text : List Char) : Except HistoryError Nat :=
  match Text.count? (Text.trim text) with
  | some index => .ok index
  | none => .error (.notANumber (String.ofList (Text.trim text)))

def parseBound (text : List Char) : Except HistoryError (Option Nat) :=
  if (Text.trim text).isEmpty then .ok none else some <$> parseIndex text

def parse (text : List Char) : Except HistoryError HistoryRange :=
  match (Text.trim text).splitOn '-' with
  | [index] => single <$> parseIndex index
  | [start, stop] => do return span (← parseBound start) (← parseBound stop)
  | _ => .error .severalDashes

/-- The first and last number of the selected entries in a history of the given length. -/
def resolve (range : HistoryRange) (length : Nat) : Except HistoryError (Nat × Nat) :=
  let start := range.start.getD 1
  let stop := range.stop.getD length
  if start < 1 ∨ length < start then .error (.outOfRange start length)
  else if stop < 1 ∨ length < stop then .error (.outOfRange stop length)
  else if stop < start then .error .endBeforeBeginning
  else .ok (start, stop)

end HistoryRange

end GoPrompt
