import GoPrompt.Lexical.Lexer

/-! A source file starts with a package clause, which has no meaning at the prompt. -/

namespace GoPrompt

/-- The span of the package clause at the start of a text, with a written semicolon behind it. -/
def packageClause? (text : List Char) : Option (Nat × Nat) :=
  let (first, lexer) := (Lexer.ofText 0 text).next
  let (second, lexer) := lexer.next
  match first, second with
  | .ok (.token keyword), .ok (.token name) =>
    if keyword.kind = .keyword .package ∧ name.kind = .identifier then
      match lexer.next.1 with
      | .ok (.token semicolon) =>
        if semicolon.kind = .semicolon .explicit then some (keyword.span.start, semicolon.span.stop)
        else some (keyword.span.start, name.span.stop)
      | _ => some (keyword.span.start, name.span.stop)
    else none
  | _, _ => none

/-- A text without its package clause. Comments in front of the clause stay. -/
def stripPackageClause (text : List Char) : List Char :=
  match packageClause? text with
  | some (start, stop) => takeBytes start text ++ dropBytes stop text
  | none => text

end GoPrompt
