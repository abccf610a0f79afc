import GoPrompt.Proofs.Lexical.Collected
import GoPrompt.Proofs.Lexical.Encoding

/-! The layout of a text that has been scanned: pieces that are skipped and texts that are read, one behind the other. A
semicolon is inserted at a piece, or at the end of the text, and takes no text away from either. -/

namespace GoPrompt

/-- A token that is the text `chars` behind the text `before`. -/
structure Token.Spells (source : Nat) (before chars : List Char) (token : Token) : Prop where
  nonempty : chars ≠ []
  span : token.span = Span.ofLength source (byteSize before) (byteSize chars)
  lexeme : token.lexeme = String.ofList chars
  notNewline : token.kind ≠ .semicolon .newline
  notEnd : token.kind ≠ .semicolon .endOfInput

/-- The semicolon inserted at the piece of text `chars` behind the text `before`. -/
def Token.insertedAt (source : Nat) (before chars : List Char) : Token :=
  ⟨.semicolon .newline, "\n", Span.ofLength source (byteSize before) (byteSize chars)⟩

/-- The semicolon inserted at the end of the text `before`. -/
def Token.insertedBehind (source : Nat) (before : List Char) : Token :=
  ⟨.semicolon .endOfInput, "", Span.point source (byteSize before)⟩

/-- Whether a step is what stands between the texts `before` and `behind`. What is cut off has nothing behind it. -/
def LexStep.Stands (source : Nat) (before chars behind : List Char) : LexStep → Prop
  | .token read => read.Spells source before chars ∧ read.kind ≠ .illegal
  | .truncated read _ => read.Spells source before chars ∧ (∃ kind, read.kind = .literal kind) ∧ behind = []
  | .invalid read _ => read.Spells source before chars ∧ read.kind = .illegal
  | .incomplete cutoff => (∃ body, chars = '/' :: '*' :: body ∧ ¬ ['*', '/'] <:+: body) ∧
      cutoff.diagnostic.span = Span.ofLength source (byteSize before) (byteSize chars) ∧ behind = []
  | .endOfInput => False

/-- A part of a text: a piece that is skipped, perhaps with a semicolon inserted at it, or what one step reads. -/
inductive Item where
  | skipped (filler : Filler) (semicolon : Option Token)
  | read (step : LexStep) (chars : List Char)

namespace Item

def chars : Item → List Char
  | skipped filler _ => filler.chars
  | read _ chars => chars

def steps : Item → List LexStep
  | skipped _ semicolon => semicolon.toList.map .token
  | read step _ => [step]

/-- Whether the item is what stands between the texts `before` and `behind`. -/
def Stands (source : Nat) (before behind : List Char) : Item → Prop
  | skipped filler semicolon =>
    filler.IsComplete behind ∧ ∀ token, semicolon = some token → token = .insertedAt source before filler.chars
  | read step chars => step.Stands source before chars behind

/-- Whether a lexer is armed behind the item if it is armed in front of it. -/
def arms (armed : Bool) : Item → Bool
  | skipped filler _ => armed && !filler.breaksLine
  | read (.token token) _ => token.kind.terminatesLine
  | read (.invalid _ _) _ => armed
  | read _ _ => false

/-- Whether a semicolon is inserted at the item just if it breaks the line of an armed lexer. -/
def Inserts (armed : Bool) : Item → Prop
  | skipped filler semicolon => semicolon.isSome = (armed && filler.breaksLine)
  | read _ _ => True

end Item

/-- Items that a lexer, armed or not, finds behind the text `before`. -/
inductive Lays (source : Nat) : List Char → Bool → List Item → Prop
  | nil {before : List Char} {armed : Bool} : Lays source before armed []
  | cons {before : List Char} {armed : Bool} {item : Item} {items : List Item}
      (stands : item.Stands source before (items.flatMap Item.chars)) (inserts : item.Inserts armed)
      (later : Lays source (before ++ item.chars) (item.arms armed) items) : Lays source before armed (item :: items)

/-- The semicolon that an armed lexer inserts at the end of the text. -/
def ending (source : Nat) (text : List Char) (armed : Bool) : List LexStep :=
  if armed then [.token (.insertedBehind source text)] else []

/-- Whether the lexer, behind the text `before`, finds items that account for these steps. -/
def Lexer.LaysOut (lexer : Lexer) (before : List Char) (steps : List LexStep) : Prop :=
  ∃ items, lexer.rest = items.flatMap Item.chars ∧ Lays lexer.source before lexer.armed items ∧
    steps = items.flatMap Item.steps ++ ending lexer.source (before ++ lexer.rest) (items.foldl Item.arms lexer.armed)

section

variable {source : Nat} {before : List Char} {armed : Bool} {items : List Item} {fillers : List Filler}

/-- The pieces that are skipped without a semicolon. -/
def skippedItems (fillers : List Filler) : List Item := fillers.map fun filler => .skipped filler none

private theorem skippedItems_chars (fillers : List Filler) :
    (skippedItems fillers).flatMap Item.chars = fillers.flatMap Filler.chars := by
  rw [skippedItems, List.flatMap_map]
  rfl

private theorem skippedItems_steps (fillers : List Filler) : (skippedItems fillers).flatMap Item.steps = [] := by
  rw [skippedItems, List.flatMap_map]
  exact List.flatMap_eq_nil_iff.mpr fun _ _ => rfl

private theorem arms_kept {filler : Filler} (keeps : armed = true → filler.breaksLine = false) :
    (armed && filler.breaksLine) = false ∧ (armed && !filler.breaksLine) = armed := by
  cases armed with
  | false => exact ⟨rfl, rfl⟩
  | true => simp [keeps rfl]

private theorem foldl_arms_skipped (keeps : armed = true → ∀ filler ∈ fillers, filler.breaksLine = false) :
    (skippedItems fillers).foldl Item.arms armed = armed := by
  induction fillers with
  | nil => rfl
  | cons filler fillers ih =>
    show (skippedItems fillers).foldl Item.arms (armed && !filler.breaksLine) = armed
    rw [(arms_kept fun isArmed => keeps isArmed filler List.mem_cons_self).2]
    exact ih fun isArmed other mem => keeps isArmed other (List.mem_cons_of_mem _ mem)

theorem Lays.skip (complete : AreComplete (items.flatMap Item.chars) fillers)
    (keeps : armed = true → ∀ filler ∈ fillers, filler.breaksLine = false)
    (later : Lays source (before ++ fillers.flatMap Filler.chars) armed items) :
    Lays source before armed (skippedItems fillers ++ items) := by
  induction fillers generalizing before with
  | nil => simpa [skippedItems] using later
  | cons filler fillers ih =>
    obtain ⟨quiet, still⟩ := arms_kept fun isArmed => keeps isArmed filler List.mem_cons_self
    rw [List.flatMap_cons, ← List.append_assoc] at later
    show Lays source before armed (.skipped filler none :: (skippedItems fillers ++ items))
    refine .cons ⟨?_, nofun⟩ quiet.symm ?_
    · rw [List.flatMap_append, skippedItems_chars]
      exact complete.1
    · rw [Item.arms, still]
      exact ih complete.2 (fun isArmed other mem => keeps isArmed other (List.mem_cons_of_mem _ mem)) later

theorem Lays.at (lays : Lays source before armed items) {front later : List Item} {item : Item}
    (splits : items = front ++ item :: later) :
    item.Stands source (before ++ front.flatMap Item.chars) (later.flatMap Item.chars) ∧
      item.Inserts (front.foldl Item.arms armed) := by
  induction lays generalizing front with
  | nil => simp at splits
  | cons stands inserts _ ih =>
    cases front with
    | nil =>
      obtain ⟨rfl, rfl⟩ := List.cons.inj splits
      exact ⟨by simpa using stands, inserts⟩
    | cons first front =>
      obtain ⟨rfl, rfl⟩ := List.cons.inj splits
      simpa using ih rfl

end

/-- A text that consists of the items, behind its byte-order mark. -/
structure Layout (source : Nat) (text : List Char) (items : List Item) : Prop where
  whole : text = leadingMark text ++ items.flatMap Item.chars
  stands : ∀ {front later : List Item} {item : Item}, items = front ++ item :: later →
    item.Stands source (leadingMark text ++ front.flatMap Item.chars) (later.flatMap Item.chars)

theorem isWritten_apart {kind : TokenKind} (written : kind.isWritten = true) :
    kind ≠ .semicolon .newline ∧ kind ≠ .semicolon .endOfInput ∧ kind ≠ .illegal := by
  refine ⟨?_, ?_, ?_⟩ <;> rintro rfl <;> cases written

namespace Lexer

variable {lexer after : Lexer} {before : List Char} {step : LexStep} {steps : List LexStep}

theorem LaysOut.behind {stop : Nat} {landmark : Landmark} (skipped : gap lexer.armed 0 0 lexer.rest = (stop, landmark))
    (place : byteSize before = lexer.offset)
    (later : ∀ before, byteSize before = (lexer.skip stop).offset → landmark.Begins lexer.armed (lexer.skip stop).rest →
      (lexer.skip stop).LaysOut before steps) : lexer.LaysOut before steps := by
  obtain ⟨fillers, behind, parts, size, complete, keeps, begins⟩ := gap_skips skipped
  rw [Nat.sub_zero] at size
  have left : (lexer.skip stop).rest = behind := by
    show lexer.rest.drop stop = behind
    rw [parts, size, List.drop_left]
  have moved : byteSize (before ++ fillers.flatMap Filler.chars) = (lexer.skip stop).offset := by
    show _ = lexer.offset + byteSize (lexer.rest.take stop)
    rw [byteSize_append, place, parts, size, List.take_left]
  obtain ⟨items, rest, lays, same⟩ := later _ moved (left ▸ begins)
  rw [left] at rest same
  refine ⟨skippedItems fillers ++ items, ?_, .skip (rest ▸ complete) keeps lays, ?_⟩
  · rw [List.flatMap_append, skippedItems_chars, parts, rest]
  · rw [List.flatMap_append, skippedItems_steps, List.nil_append, List.foldl_append, foldl_arms_skipped keeps, parts,
      ← List.append_assoc]
    exact same

theorem LaysOut.read {length : Nat} {armed : Bool}
    (stands : step.Stands lexer.source before (lexer.rest.take length) (lexer.rest.drop length))
    (arms : Item.arms lexer.armed (.read step (lexer.rest.take length)) = armed)
    (later : ((lexer.skip length).arm armed).LaysOut (before ++ lexer.rest.take length) steps) :
    lexer.LaysOut before (step :: steps) := by
  obtain ⟨items, rest, lays, same⟩ := later
  have rest : lexer.rest.drop length = items.flatMap Item.chars := rest
  refine ⟨.read step (lexer.rest.take length) :: items, ?_, .cons ?_ trivial (arms ▸ lays), ?_⟩
  · exact ((List.take_append_drop length _).symm.trans (by rw [rest]; rfl))
  · rw [← rest]
    exact stands
  · have whole : before ++ lexer.rest = before ++ lexer.rest.take length ++ lexer.rest.drop length := by
      rw [List.append_assoc, List.take_append_drop]
    rw [whole, List.foldl_cons, arms]
    exact congrArg (step :: ·) same

private theorem LaysOut.insert {filler : Filler} {rest : List Char} (parts : lexer.rest = filler.chars ++ rest)
    (place : byteSize before = lexer.offset) (complete : filler.IsComplete rest) (isArmed : lexer.armed = true)
    (breaks : filler.breaksLine = true)
    (later : ((lexer.skip filler.chars.length).arm false).LaysOut (before ++ filler.chars) steps) :
    lexer.LaysOut before (.token (lexer.token (.semicolon .newline) filler.chars.length) :: steps) := by
  have ahead : lexer.rest.take filler.chars.length = filler.chars := by rw [parts, List.take_left]
  have left : lexer.rest.drop filler.chars.length = rest := by rw [parts, List.drop_left]
  obtain ⟨items, behind, lays, same⟩ := later
  have behind : lexer.rest.drop filler.chars.length = items.flatMap Item.chars := behind
  rw [left] at behind
  have token : lexer.token (.semicolon .newline) filler.chars.length =
      .insertedAt lexer.source before filler.chars := by
    simp only [Lexer.token, Lexer.span, ahead, ← place, Token.insertedAt]
  refine ⟨.skipped filler (some (.insertedAt lexer.source before filler.chars)) :: items, ?_,
    .cons ⟨behind ▸ complete, ?_⟩ ?_ ?_, ?_⟩
  · rw [parts, behind]
    rfl
  · rintro token ⟨⟩
    rfl
  · rw [Item.Inserts, isArmed, breaks]
    rfl
  · rw [Item.arms, isArmed, breaks]
    exact lays
  · rw [token, List.foldl_cons, Item.arms, isArmed, breaks, parts, ← List.append_assoc, ← left]
    exact congrArg (_ :: ·) same

private theorem laysOut_ended (before : List Char) (empty : lexer.rest = []) :
    lexer.LaysOut before (ending lexer.source before lexer.armed) :=
  ⟨[], empty, .nil, by rw [empty, List.append_nil]; rfl⟩

private theorem token_spells {kind : TokenKind} {length : Nat} {first : Char} (place : byteSize before = lexer.offset)
    (begins : lexer.rest.head? = some first) (positive : 1 ≤ length) (notNewline : kind ≠ .semicolon .newline)
    (notEnd : kind ≠ .semicolon .endOfInput) :
    (lexer.token kind length).Spells lexer.source before (lexer.rest.take length) where
  nonempty := by
    obtain ⟨rest, here⟩ := List.head?_eq_some_iff.mp begins
    obtain ⟨length, rfl⟩ := Nat.exists_eq_add_of_le' positive
    rw [here, List.take_succ_cons]
    exact List.cons_ne_nil _ _
  span := place ▸ rfl
  lexeme := by
    cases kind with
    | semicolon origin =>
      cases origin with
      | explicit => rfl
      | newline => exact absurd rfl notNewline
      | endOfInput => exact absurd rfl notEnd
    | identifier | keyword | literal | operator | illegal => rfl
  notNewline := notNewline
  notEnd := notEnd

private theorem skip_offset (place : byteSize before = lexer.offset) (length : Nat) :
    byteSize (before ++ lexer.rest.take length) = (lexer.skip length).offset := by
  rw [byteSize_append, place]
  rfl

/-- The steps of the lexer account for the whole text. -/
private theorem Lexes.laysOut (lexes : lexer.Lexes steps) (place : byteSize before = lexer.offset) :
    lexer.LaysOut before steps := by
  induction lexes generalizing before with
  | ended reads =>
    generalize isStep : LexStep.endOfInput = step at reads
    cases reads with
    | ended skipped unarmed =>
      refine .behind skipped place fun before place empty => ?_
      have ended := laysOut_ended before empty
      rwa [show (skip _ _).armed = false from unarmed] at ended
    | whole | cutOff | invalid | lineEnd | openComment | inserted => cases isStep
  | @comment lexer after cutoff reads =>
    generalize isStep : LexStep.incomplete cutoff = step at reads
    cases reads with
    | @openComment stop length skipped =>
      cases isStep
      refine .behind skipped place fun before place ⟨whole, unclosed⟩ => ?_
      have all : (lexer.skip stop).rest.take length = (lexer.skip stop).rest := by rw [whole, List.take_length]
      have nothing : (lexer.skip stop).rest.drop length = [] := by rw [whole, List.drop_length]
      refine .read ⟨by rwa [all], place ▸ rfl, nothing⟩ rfl (laysOut_ended _ nothing)
    | whole | cutOff | invalid | lineEnd | inserted | ended => cases isStep
  | @more lexer after step steps reads goesOn later ih =>
    cases reads with
    | @whole stop first rest length kind skipped here scanned =>
      refine .behind skipped place fun before place begins => ?_
      have positive := one_le_scanToken_length first rest
      rw [scanned] at positive
      obtain ⟨notNewline, notEnd, legal⟩ := isWritten_apart (scanToken_isWritten (congrArg TokenScan.shape scanned))
      have spells := token_spells place begins positive notNewline notEnd
      exact .read ⟨spells, legal⟩ rfl (ih (skip_offset place length))
    | @cutOff stop first rest length kind cause skipped here scanned =>
      refine .behind skipped place fun before place begins => ?_
      have positive := one_le_scanToken_length first rest
      rw [scanned] at positive
      have nothing := (Reads.truncated_ends (.cutOff skipped here scanned)).1
      have spells := token_spells place begins positive
        (show TokenKind.literal kind ≠ .semicolon .newline from nofun) nofun
      exact .read ⟨spells, ⟨kind, rfl⟩, nothing⟩ rfl (ih (skip_offset place length))
    | @invalid stop first rest length flaw skipped here scanned =>
      refine .behind skipped place fun before place begins => ?_
      have positive := one_le_scanToken_length first rest
      rw [scanned] at positive
      have spells := token_spells place begins positive
        (show TokenKind.illegal ≠ .semicolon .newline from nofun) nofun
      exact .read ⟨spells, rfl⟩ rfl (ih (skip_offset place length))
    | @lineEnd stop length skipped =>
      refine .behind skipped place fun before place ⟨isArmed, filler, rest, parts, complete, breaks, size⟩ => ?_
      have ahead : (lexer.skip stop).rest.take length = filler.chars := by rw [parts, size, List.take_left]
      have moved := skip_offset place length
      rw [ahead] at moved
      rw [size] at ih moved ⊢
      exact .insert parts place complete isArmed breaks (ih moved)
    | @inserted stop skipped armed =>
      refine .behind skipped place fun before place empty => ?_
      have ended := laysOut_ended before empty
      have inserts : ending (lexer.skip stop).source before (lexer.skip stop).armed =
          [.token ((lexer.skip stop).token (.semicolon .endOfInput) 0)] := by
        rw [show (lexer.skip stop).armed = true from armed, ending, if_pos rfl, Token.insertedBehind, place]
        rfl
      rw [later.eq_nil empty rfl]
      rwa [inserts] at ended
    | openComment | ended => cases goesOn

end Lexer

theorem layout_of_steps {source : Nat} {text : List Char} {steps : List LexStep} {last : Lexer}
    (collected : (Lexer.ofText source text).steps = (.ok steps, last)) :
    ∃ items, Layout source text items ∧
      (∀ {front later item}, items = front ++ item :: later → item.Inserts (front.foldl Item.arms false)) ∧
      steps = items.flatMap Item.steps ++ ending source text (items.foldl Item.arms false) := by
  obtain ⟨rest, whole, start⟩ := Lexer.ofText_eq source text
  obtain ⟨items, parts, lays, same⟩ := (Lexer.Collects.of_steps collected).lexes.laysOut (by rw [start])
  rw [start] at parts lays same
  have parts : rest = items.flatMap Item.chars := parts
  refine ⟨items, ⟨parts ▸ whole, fun splits => (lays.at splits).1⟩, fun splits => (lays.at splits).2, ?_⟩
  rwa [← whole] at same

end GoPrompt
