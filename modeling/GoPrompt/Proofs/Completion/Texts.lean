import GoPrompt.Proofs.Classification.Acceptance
import GoPrompt.Proofs.Completion.Statements

/-! What can become of a text whose tokens are whole: the grammar rejects one of them whatever follows, or a few more
tokens make the text complete, or a clause of it cannot become an expression any more. -/

namespace GoPrompt

open Parse Grammar

/-- With levels enough, a text that starts with the kinds is rejected, whatever follows them. -/
def TextRefuses (kinds : List TokenKind) (cause : ParseError → Prop) : Prop :=
  ∃ level, ∀ (supply : Supply) (rest : List TokenKind) (state : ParseState), level ≤ supply.nesting → state.depth = 0 →
    supply.Ahead (kinds ++ rest) state →
    ∃ error after, wholeText supply.nesting state = .error (.rejected error) after ∧ cause error

/-- With levels enough, a text of the kinds is a statement, perhaps in front of an inserted semicolon. -/
def TextPasses (kinds : List TokenKind) (mayEnd : List TokenKind → Prop) : Prop :=
  ∃ level, ∀ (supply : Supply) (ending : List TokenKind) (state : ParseState),
    level ≤ supply.nesting → state.depth = 0 →
    mayEnd ending → supply.Ahead (kinds ++ ending) state →
    ∃ statement after, wholeText supply.nesting state = .ok statement after ∧ supply.Ahead [] after

/-- A semicolon is inserted behind some kinds only. -/
def MayEnd (kinds ending : List TokenKind) : Prop :=
  ending = [] ∨ (ending = [.semicolon .endOfInput] ∧ kinds.getLast?.any TokenKind.terminatesLine = true)

inductive Outlook (kinds : List TokenKind) : Prop
  | refused (refuses : TextRefuses kinds fun _ => True)
  | passes (passes : TextPasses kinds (MayEnd kinds))
  | finishes (more : List TokenKind) (plain : more ⊆ finishing) (short : more.length ≤ share * kinds.length + 8)
      (passes : TextPasses (kinds ++ more) Word.IsEnding)
  | doomed (decided : Decided kinds) (more : List TokenKind) (plain : more ⊆ finishing)
      (short : more.length ≤ share * kinds.length + 8) (refuses : TextRefuses (kinds ++ more) ParseError.IsClauseCheck)

section

variable {kinds : List TokenKind} {first : TokenKind} {cause : ParseError → Prop}

private theorem TextRefuses.of_refuses (noSemicolon : ¬ isSemicolon first = true)
    (refuses : Refuses (fun deeper (_ : Unit) => deeper.statement .topLevel >>= behindStatement) (first :: kinds) cause) :
    TextRefuses (first :: kinds) cause := by
  obtain ⟨level, refuses⟩ := refuses
  refine ⟨level, fun supply rest state enough outermost ahead => ?_⟩
  obtain ⟨looking, ahead, begins⟩ := wholeText_starts ahead outermost noSemicolon
  rw [begins]
  exact refuses supply supply.nesting () enough rest looking ahead

private theorem TextPasses.of_passes {rest : List TokenKind} {stops : Option TokenKind → Bool} {value : Statement}
    {mayEnd : List TokenKind → Prop} (noSemicolon : ¬ isSemicolon first = true)
    (joins : ∀ ending : List TokenKind, mayEnd ending → stops ending.head? = true ∧ EndsText (rest ++ ending))
    (passes : Passes (fun deeper (_ : Unit) => deeper.statement .topLevel) (first :: kinds) rest stops value) :
    TextPasses (first :: kinds) mayEnd := by
  obtain ⟨level, passes⟩ := passes
  refine ⟨level, fun supply ending state enough outermost ends ahead => ?_⟩
  obtain ⟨stopped, endsText⟩ := joins ending ends
  obtain ⟨looking, ahead, begins⟩ := wholeText_starts ahead outermost noSemicolon
  obtain ⟨statement, reached, _, ran, behind, rfl, -⟩ :=
    passes supply supply.nesting () enough ending stopped looking ahead
  obtain ⟨found, after, _, finished, nothing, rfl, -⟩ := ending_runs endsText statement reached behind
  exact ⟨found, after, begins.trans ((bind_ok ran).trans finished), nothing⟩

end

private theorem textEnd_refuses {kind : TokenKind} {kinds : List TokenKind} (written : kind ≠ .semicolon .endOfInput) :
    Refuses (fun _ (statement : Statement) => do
      match ← Parse.peek 0 with
      | none => return statement
      | some token => unexpected token ["end of statement"]) (kind :: kinds) fun _ => True :=
  Leads.peek.refuses (.unexpected (fun pair => pair.2.2) written)

private theorem behindStatement_refuses {next : TokenKind} {later : List TokenKind}
    (written : .semicolon .endOfInput ∉ next :: later) (behind : isSemicolon next = true → later ≠ []) :
    Refuses (fun _ (statement : Statement) => behindStatement statement) (next :: later) fun _ => True := by
  obtain ⟨isWritten, laterWritten⟩ := not_or.mp (mt List.mem_cons.mpr written)
  refine Leads.atSemicolon.refuses ?_
  cases semicolon : isSemicolon next with
  | false =>
    simp only [Bool.false_eq_true, ↓reduceIte]
    exact textEnd_refuses (Ne.symm isWritten)
  | true =>
    simp only [↓reduceIte]
    obtain ⟨last, later, rfl⟩ := List.exists_cons_of_ne_nil (behind semicolon)
    exact Leads.bump.refuses (textEnd_refuses fun same => laterWritten (same ▸ List.mem_cons_self))

private theorem semicolon_refused {origin : SemicolonKind} {kinds : List TokenKind} (written : origin ≠ .endOfInput) :
    TextRefuses (.semicolon origin :: kinds) fun _ => True := by
  refine ⟨0, fun supply rest state _ _ ahead => ?_⟩
  obtain ⟨found, looking, looked, _, same⟩ := ahead.peek (Nat.zero_le _)
  obtain ⟨token, rfl, isKind⟩ := Option.map_eq_some_iff.mp same
  have isSemicolon : isSemicolon token.kind = true := by rw [isKind]; rfl
  have isWritten : token.kind ≠ .semicolon .endOfInput := by
    rw [isKind]
    exact fun same => written (TokenKind.semicolon.inj same)
  obtain ⟨error, after, failed, -⟩ := unexpected_rejected (α := Statement) isWritten ["statement"] looking
  refine ⟨error, after, ?_, trivial⟩
  rw [wholeText, bind_ok looked]
  simp only [isSemicolon, ↓reduceIte]
  exact failed

/-- A statement may be all of a text, or it leaves a semicolon, or too much. -/
private theorem outlook_of_passes {value : Statement} {first : TokenKind} {kinds rest : List TokenKind}
    (noSemicolon : ¬ isSemicolon first = true) (written : .semicolon .endOfInput ∉ first :: kinds)
    (suffix : rest <:+ first :: kinds)
    (passes : Passes (fun deeper (_ : Unit) => deeper.statement .topLevel) (first :: kinds) rest anything value) :
    Outlook (first :: kinds) := by
  cases rest with
  | nil =>
    have endsText : ∀ ending, MayEnd (first :: kinds) ending → EndsText ([] ++ ending) := fun ending mayEnd =>
      mayEnd.imp_right fun ends => ⟨_, ends.1⟩
    exact .passes (.of_passes noSemicolon (fun ending mayEnd => ⟨rfl, endsText ending mayEnd⟩) passes)
  | cons next behind =>
    by_cases lone : isSemicolon next = true → behind ≠ []
    · have refuses := behindStatement_refuses (fun inserted => written (suffix.mem inserted)) lone
      have refused : Refuses
        (fun deeper (_ : Unit) => deeper.statement .topLevel >>= behindStatement) ((first :: kinds) ++ [])
          fun _ => True :=
        passes.refuses (fun _ => rfl) (by
          rw [List.append_nil]
          exact (Leads.of_eq fun _ (pair : Following Unit value) => ⟨pair.1.2, rfl⟩).refuses refuses)
      rw [List.append_nil] at refused
      exact .refused (.of_refuses noSemicolon refused)
    · obtain ⟨semicolon, nothing⟩ := Classical.not_imp.mp lone
      obtain rfl := Classical.not_not.mp nothing
      obtain ⟨used, parts⟩ := suffix
      cases next with
      | semicolon origin =>
        refine .passes (.of_passes noSemicolon (fun ending mayEnd => ⟨rfl, ?_⟩) passes)
        -- No semicolon is inserted behind another one.
        rcases mayEnd with rfl | ⟨-, inserted⟩
        · exact .inr ⟨origin, rfl⟩
        · rw [← parts, List.getLast?_concat] at inserted
          cases inserted
      | _ => cases semicolon

private theorem endsStatement_of_isEnding {ending : List TokenKind} (isEnding : Word.IsEnding ending) :
    endsStatement ending.head? = true ∧ EndsText ([] ++ ending) := by
  refine ⟨?_, endsText_of_isEnding isEnding⟩
  rcases isEnding with rfl | rfl <;> rfl

theorem outlook {kinds : List TokenKind} (written : .semicolon .endOfInput ∉ kinds) : Outlook kinds := by
  have known := known_all (kinds.length + 1)
  cases kinds with
  | nil =>
    obtain ⟨value, closes⟩ := (known.statement Unit .topLevel).closes
    exact .finishes [.identifier] (by decide) (by decide)
      (.of_passes Bool.false_ne_true (fun _ => endsStatement_of_isEnding) closes)
  | cons first later =>
    cases semicolon : isSemicolon first with
    | true =>
      cases first with
      | semicolon origin => exact .refused (semicolon_refused fun same => written (same ▸ List.mem_cons_self))
      | _ => cases semicolon
    | false =>
      have noSemicolon := Bool.eq_false_iff.mp semicolon
      cases (known.statement Unit .topLevel).prospect _ (Nat.lt_succ_self _) with
      | unwritten inserted => exact absurd inserted written
      | refuses refuses => exact .refused (.of_refuses noSemicolon refuses.bind)
      | finishes value _ more plain short passes =>
        exact .finishes more plain short (.of_passes noSemicolon (fun _ => endsStatement_of_isEnding) passes)
      | doomed decided more plain short refuses =>
        exact .doomed decided more plain short (.of_refuses noSemicolon refuses.bind)
      | passes value rest suffix _ passes => exact outlook_of_passes noSemicolon written suffix passes

end GoPrompt
