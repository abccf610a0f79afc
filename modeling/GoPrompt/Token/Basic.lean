import GoPrompt.Source.Span
import GoPrompt.Token.Kind

/-! A token is a piece of the source with its kind and place. The lexeme is the text under the span,
except for inserted semicolons: a newline stands for one inserted at a newline, and nothing for one
inserted at the end of the input. -/

namespace GoPrompt

structure Token where
  kind : TokenKind
  lexeme : String
  span : Span
  deriving DecidableEq, Repr

namespace Token

def operator? (token : Token) : Option Operator := token.kind.operator?

/-- How messages name the token. -/
def describe (token : Token) : String :=
  match token.kind with
  | .semicolon .newline => "newline"
  | .semicolon .endOfInput => "EOF"
  | .literal _ => "literal " ++ token.lexeme
  | .keyword _ => "keyword " ++ token.lexeme
  | .identifier => "name " ++ token.lexeme
  | .semicolon .explicit | .operator _ | .illegal => token.lexeme

end Token

end GoPrompt
