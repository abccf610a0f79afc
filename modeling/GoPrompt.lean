import GoPrompt.Main
import GoPrompt.Proofs.Classification.Blame
import GoPrompt.Proofs.Classification.Boundary
import GoPrompt.Proofs.Classification.Budgets
import GoPrompt.Proofs.Classification.Clauses
import GoPrompt.Proofs.Classification.Completion
import GoPrompt.Proofs.Classification.Emptiness
import GoPrompt.Proofs.Classification.Explanations
import GoPrompt.Proofs.Classification.Kinds
import GoPrompt.Proofs.Classification.Returns
import GoPrompt.Proofs.Classification.Suffixes
import GoPrompt.Proofs.Delimiters.Texts
import GoPrompt.Proofs.Session.Blanks
import GoPrompt.Proofs.Session.Blocks
import GoPrompt.Proofs.Session.Failure
import GoPrompt.Proofs.Session.History
import GoPrompt.Proofs.Session.Selections
import GoPrompt.Proofs.Session.Sourcing
import GoPrompt.Proofs.Lexical.Layout
import GoPrompt.Proofs.Lexical.Literals
import GoPrompt.Proofs.Lexical.Lossless
import GoPrompt.Proofs.Lexical.NumericTokens
import GoPrompt.Proofs.Lexical.Repairs
import GoPrompt.Proofs.Lexical.Semicolons
import GoPrompt.Proofs.Lexical.Stability
import GoPrompt.Proofs.Calls.Parsers
import GoPrompt.Proofs.Runs.Covered
import GoPrompt.Proofs.Runs.Nesting
import GoPrompt.Proofs.Runs.Operands
import GoPrompt.Proofs.Stream.Failures
import GoPrompt.Proofs.Lexical.Loops
