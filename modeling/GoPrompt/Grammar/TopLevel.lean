import GoPrompt.Grammar.Statement

/-! A text at the prompt is one statement with an optional semicolon behind it. After a rejected
statement the parser can skip to the next separator and try again there. -/

namespace GoPrompt.Grammar

open Parse

/-- A single statement and the end of the text. -/
def wholeText (limit : Nat) : Parse Statement := do
  match ← peek 0 with
  | none => endOfInput ["statement"]
  | some first =>
    if isSemicolon first.kind then unexpected first ["statement"]
    else
      let statement ← topLevelStatement limit
      if ← atSemicolon then bump
      match ← peek 0 with
      | none => return statement
      | some token => unexpected token ["end of statement"]

/-- Where the skipping of tokens stops. -/
inductive SyncStop where
  /-- Behind a semicolon outside all brackets. -/
  | separator
  | endOfInput
  deriving DecidableEq, Repr

/-- The bracket depth behind a token; closing brackets without an opening one do not count. -/
def depthAfter (kind : TokenKind) (depth : Nat) : Nat :=
  match kind with
  | .operator operator =>
    if operator.isOpener then depth + 1
    else if operator.isCloser then depth - 1
    else depth
  | _ => depth

/-- Skips tokens up to the next separator, with brackets counted from here on. -/
def synchronize : Parse SyncStop :=
  iterate (fun (depth : Nat) => do
    match ← onStream TokenStream.next with
    | none => return .done .endOfInput
    | some token =>
      match token.kind with
      | .semicolon .endOfInput => return .done .endOfInput
      | .semicolon _ => return if depth = 0 then .done .separator else .again depth
      | kind => return .again (depthAfter kind depth)) 0

end GoPrompt.Grammar
