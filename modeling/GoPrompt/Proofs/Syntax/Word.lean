import GoPrompt.Proofs.Lexical.Encoding
import GoPrompt.Proofs.Lexical.Lexes
import GoPrompt.Proofs.Syntax.Tree

/-! Words: texts that the lexer reads as one whole token. Written with single spaces between them, words come back
from the lexer as the tokens that they are, with at most a semicolon inserted behind the last one.

Trees and the words that they are spelled with. Every tree can be spelled, since it is written with kinds of tokens
that have a text of their own. -/

namespace GoPrompt

instance (text : List Char) : Decidable (Clean text) :=
  List.decidableBAll (fun c => c ≠ '\x00' ∧ c ≠ byteOrderMark) text

/-- The token at the very start of a text. -/
def scanStart : List Char → Option TokenScan
  | [] => none
  | first :: rest => some (scanToken first rest)

/-- A text that is one token of the given kind. -/
structure Word where
  kind : TokenKind
  lexeme : List Char
  whole : scanStart lexeme = some ⟨lexeme.length, .whole kind⟩
  clean : Clean lexeme

namespace Word

def keyword (keyword : Keyword) : Word where
  kind := .keyword keyword
  lexeme := keyword.lexeme.toList
  whole := by cases keyword <;> decide +kernel
  clean := by cases keyword <;> decide

def operator (operator : Operator) : Word where
  kind := .operator operator
  lexeme := operator.spelling
  whole := by cases operator <;> decide +kernel
  clean := by cases operator <;> decide

def semicolon : Word where
  kind := .semicolon .explicit
  lexeme := [';']
  whole := by decide +kernel
  clean := by decide

def shortest : LiteralKind → List Char
  | .int => ['0']
  | .float => ['0', '.']
  | .imaginary => ['0', 'i']
  | .rune => ['\'', '0', '\'']
  | .string => ['"', '"']

private theorem exists_kind {kind : TokenKind} (written : kind.isWritten = true) : ∃ word : Word, word.kind = kind := by
  cases kind with
  | identifier => exact ⟨⟨.identifier, ['x'], by decide +kernel, by decide⟩, rfl⟩
  | keyword word => exact ⟨keyword word, rfl⟩
  | literal literal =>
    refine ⟨⟨.literal literal, shortest literal, ?_, ?_⟩, rfl⟩
    · cases literal <;> decide +kernel
    · cases literal <;> decide
  | operator symbol => exact ⟨operator symbol, rfl⟩
  | semicolon origin =>
    cases origin with
    | explicit => exact ⟨semicolon, rfl⟩
    | newline | endOfInput => cases written
  | illegal => cases written

/-- The words of a text, each behind a space. -/
def behind : List Word → List Char
  | [] => []
  | word :: later => ' ' :: (word.lexeme ++ behind later)

def text : List Word → List Char
  | [] => []
  | word :: later => word.lexeme ++ behind later

section

variable {word : Word} {more : List Char}

theorem starts (word : Word) : ∃ first rest, word.lexeme = first :: rest ∧
    scanToken first rest = ⟨word.lexeme.length, .whole word.kind⟩ := by
  have whole := word.whole
  cases lexeme : word.lexeme with
  | nil =>
    rw [lexeme] at whole
    cases whole
  | cons first rest =>
    rw [lexeme] at whole
    exact ⟨first, rest, rfl, Option.some.inj whole⟩

private theorem scanToken_behind (blank : StartsBlank more) {first : Char} {rest : List Char}
    (lexeme : word.lexeme = first :: rest) :
    scanToken first (rest ++ more) = ⟨word.lexeme.length, .whole word.kind⟩ := by
  obtain ⟨first', rest', same, scanned⟩ := word.starts
  obtain ⟨rfl, rfl⟩ := List.cons.inj (lexeme.symm.trans same)
  rcases scanToken_append_of_blank blank with kept | ⟨_, _, cutOff, _, _⟩
  · exact kept.trans scanned
  · rw [scanned] at cutOff
    cases cutOff

private theorem not_blank_of_whole {first : Char} {rest : List Char} {length : Nat} {kind : TokenKind}
    (scanned : scanToken first rest = ⟨length, .whole kind⟩) : isBlank first = false := by
  rw [Bool.eq_false_iff]
  intro blank
  have none : operator? (first :: rest) = none := by
    rw [operator?, List.find?_eq_none]
    intro operator _ isThere
    obtain ⟨later, same⟩ := List.isPrefixOf_iff_prefix.mp isThere
    cases spelling : operator.spelling with
    | nil => cases operator <;> cases spelling
    | cons c tail =>
      rw [spelling] at same
      obtain ⟨rfl, -⟩ := List.cons.inj same
      have apart := not_isBlank_of_mem_spelling (show c ∈ operator.spelling by simp [spelling])
      rw [blank] at apart
      cases apart
  have invalid : scanToken first rest = ⟨1, .invalid ⟨0, 1, .character first⟩⟩ := by
    unfold scanToken
    dsimp only
    rw [none]
    rcases isBlank_iff.mp blank with rfl | rfl | rfl | rfl <;> rfl
  rw [invalid] at scanned
  cases scanned

private theorem gap_eq (armed : Bool) (length : Nat) (blank : StartsBlank more) {first : Char} {rest : List Char}
    (lexeme : word.lexeme = first :: rest) : gap armed 0 length (word.lexeme ++ more) = (length, .token first) := by
  apply gap_append_of_blank blank
  · obtain ⟨first', rest', same, scanned⟩ := word.starts
    obtain ⟨rfl, rfl⟩ := List.cons.inj (lexeme.symm.trans same)
    have notBlank := not_blank_of_whole scanned
    have notHorizontal : isHorizontalBlank first = false := by
      rw [isBlank, Bool.or_eq_false_iff] at notBlank
      exact notBlank.1
    have notNewline : first ≠ '\n' := by
      rintro rfl
      cases notBlank
    -- A comment would start with a token shorter than the word.
    have noComment : ∀ mark, mark = '/' ∨ mark = '*' → ¬ (first = '/' ∧ rest.head? = some mark) := by
      rintro mark marks ⟨rfl, follows⟩
      obtain ⟨tail, rfl⟩ := List.head?_eq_some_iff.mp follows
      have short : (scanToken '/' (mark :: tail)).length = 1 := by
        rcases marks with rfl | rfl <;> rfl
      rw [scanned, lexeme] at short
      simp at short
    rw [lexeme]
    exact (Gap.Halts.token notHorizontal notNewline noComment).gap length
  · rfl

theorem reads_behind (word : Word) {lexer : Lexer} {front : List Char} (blank : StartsBlank more)
    (here : lexer.rest = front ++ (word.lexeme ++ more))
    (skips : gap lexer.armed 0 0 lexer.rest = gap lexer.armed 0 front.length (word.lexeme ++ more)) :
    ∃ token after, lexer.Reads (.token token) after ∧ token.kind = word.kind ∧ after.rest = more ∧
      after.armed = word.kind.terminatesLine := by
  obtain ⟨first, rest, lexeme, _⟩ := word.starts
  have there : lexer.rest.drop front.length = first :: (rest ++ more) := by
    rw [here, List.drop_left, lexeme, List.cons_append]
  refine ⟨_, _, .whole (skips.trans (word.gap_eq lexer.armed front.length blank lexeme)) there
    (word.scanToken_behind blank lexeme), rfl, ?_, rfl⟩
  simp only [Lexer.arm, Lexer.skip, here, List.drop_left]

theorem reads (word : Word) {lexer : Lexer} {front : List Char} (fronts : front = [] ∨ front = [' '])
    (blank : StartsBlank more) (here : lexer.rest = front ++ (word.lexeme ++ more)) :
    ∃ token after, lexer.Reads (.token token) after ∧
      token.kind = word.kind ∧ after.rest = more ∧ after.armed = word.kind.terminatesLine := by
  refine word.reads_behind blank here ?_
  rcases fronts with rfl | rfl <;> rw [here] <;> rfl

/-- What may follow the last word: nothing, or the inserted semicolon. -/
def IsEnding (ending : List TokenKind) : Prop := ending = [] ∨ ending = [.semicolon .endOfInput]

/-- The lexer reads the words, and what may follow them. -/
def ReadBy (words : List Word) (lexer : Lexer) : Prop :=
  ∃ (tokens : List Token) (ending : List TokenKind), lexer.Lexes (tokens.map LexStep.token) ∧
    tokens.map (·.kind) = words.map (·.kind) ++ ending ∧ IsEnding ending

theorem startsBlank_behind (words : List Word) : StartsBlank (behind words) := by
  cases words with
  | nil => rfl
  | cons word later =>
    show isBlank ' ' = true
    decide

theorem readBy_nil {lexer : Lexer} {stop : Nat} (ended : gap lexer.armed 0 0 lexer.rest = (stop, .endOfInput)) :
    ReadBy [] lexer := by
  cases armed : lexer.armed with
  | false => exact ⟨[], [], .ended (.ended ended armed), rfl, .inl rfl⟩
  | true =>
    have reads := Lexer.Reads.inserted ended armed
    obtain ⟨empty, unarmed⟩ := reads.inserted_ends rfl
    exact ⟨[_], _, .more reads rfl (Lexer.lexes_nil empty unarmed), rfl, .inr rfl⟩

theorem behind_readBy (words : List Word) {lexer : Lexer} (here : lexer.rest = behind words) : ReadBy words lexer := by
  induction words generalizing lexer with
  | nil => exact readBy_nil (by rw [here]; rfl)
  | cons word later ih =>
    obtain ⟨token, after, reads, kind, rest, _⟩ := word.reads (.inr rfl) (startsBlank_behind later) here
    obtain ⟨tokens, ending, lexes, kinds, isEnding⟩ := ih rest
    refine ⟨token :: tokens, ending, .more reads rfl lexes, ?_, isEnding⟩
    rw [List.map_cons, List.map_cons, List.cons_append, kind, kinds]

/-- Words with single spaces between them are read as the tokens that they are. -/
theorem text_readBy (words : List Word) {lexer : Lexer} (here : lexer.rest = text words) : ReadBy words lexer := by
  cases words with
  | nil => exact behind_readBy [] here
  | cons word later =>
    obtain ⟨token, after, reads, kind, rest, _⟩ := word.reads (.inl rfl) (startsBlank_behind later) here
    obtain ⟨tokens, ending, lexes, kinds, isEnding⟩ := behind_readBy later rest
    refine ⟨token :: tokens, ending, .more reads rfl lexes, ?_, isEnding⟩
    rw [List.map_cons, List.map_cons, List.cons_append, kind, kinds]

theorem clean_behind (words : List Word) : Clean (behind words) := by
  induction words with
  | nil => nofun
  | cons word later ih =>
    intro c mem
    rcases List.mem_cons.mp mem with rfl | mem
    · decide
    · rcases List.mem_append.mp mem with inside | after
      · exact word.clean c inside
      · exact ih c after

private theorem clean_text (words : List Word) : Clean (text words) := by
  cases words with
  | nil => nofun
  | cons word later =>
    intro c mem
    rcases List.mem_append.mp mem with inside | after
    · exact word.clean c inside
    · exact clean_behind later c after

theorem encoded_text (words : List Word) : Encoded (text words) :=
  encoded_iff.mpr
    ⟨fun mem => (clean_text words _ mem).1 rfl, fun mem => (clean_text words _ (List.mem_of_mem_tail mem)).2 rfl⟩

theorem ofText_text (words : List Word) : (Lexer.ofText 0 (text words)).rest = text words := by
  cases there : text words with
  | nil => rfl
  | cons c rest =>
    have clean := clean_text words c (there ▸ List.mem_cons_self)
    simp only [Lexer.ofText, clean.2, ↓reduceIte]

end

end Word

namespace Syntax

variable {kinds : List TokenKind}

/-- Kinds of tokens that have a text of their own. -/
def Written (kinds : List TokenKind) : Prop := ∀ kind ∈ kinds, kind.isWritten = true

namespace Written

theorem nil : Written [] := nofun

theorem cons {kind : TokenKind} (one : kind.isWritten = true) (later : Written kinds) : Written (kind :: kinds) :=
  List.forall_mem_cons.mpr ⟨one, later⟩

theorem append {later : List TokenKind} (front : Written kinds) (back : Written later) : Written (kinds ++ later) :=
  List.forall_mem_append.mpr ⟨front, back⟩

theorem kindsIf (present : Bool) (written : Written kinds) : Written (kindsIf present kinds) := by
  cases present with
  | true => exact written
  | false => exact nil

theorem nameKinds (more : Nat) : Written (nameKinds more) := by
  induction more with
  | zero => exact cons rfl nil
  | succ more ih => exact cons rfl (cons rfl ih)

theorem direction (direction : Direction) : Written direction.kinds := by
  cases direction with
  | both => exact cons rfl nil
  | send | receive => exact cons rfl (cons rfl nil)

end Written

private theorem Category.separator_written (category : Category) : category.separator.isWritten = true := by
  unfold Category.separator
  split <;> rfl

theorem Tree.written {category : Category} (tree : Tree category) : Written tree.kinds := by
  induction tree
  -- Each tree is written with the kinds of its parts and with kinds of its own, one after the other.
  all_goals
    repeat' first
      | assumption
      | exact Written.nil
      | exact Written.nameKinds _
      | exact Written.direction _
      | refine Written.kindsIf _ ?_
      | refine Written.append ?_ ?_
      | refine Written.cons rfl ?_
      | refine Written.cons (Category.separator_written _) ?_

/-- The words are a way to spell the tree. -/
def Tree.SpelledBy {category : Category} (tree : Tree category) (words : List Word) : Prop :=
  words.map (·.kind) = tree.kinds

theorem Written.exists_words (written : Written kinds) : ∃ words : List Word, words.map (·.kind) = kinds := by
  induction kinds with
  | nil => exact ⟨[], rfl⟩
  | cons kind later ih =>
    obtain ⟨one, rest⟩ := List.forall_mem_cons.mp written
    obtain ⟨word, rfl⟩ := Word.exists_kind one
    obtain ⟨words, rfl⟩ := ih rest
    exact ⟨word :: words, rfl⟩

end Syntax

end GoPrompt
