import GoPrompt.Proofs.Acceptance.Control
import GoPrompt.Proofs.Completion.Simple

/-! The headers of control statements. A header checks a clause when the clause is read, and where the clause has turned
out to be no expression by then, the statement is doomed, although the text has not ended with an error yet. -/

namespace GoPrompt

open Parse Grammar

/-- What stands behind a control keyword. -/
def Controls (front : List TokenKind) : Prop := ∃ control ∈ front, isControl control = true

theorem Controls.append {front : List TokenKind} (controls : Controls front) (used : List TokenKind) :
    Controls (front ++ used) := by
  obtain ⟨control, member, isControl⟩ := controls
  exact ⟨control, List.mem_append_left used member, isControl⟩

theorem EndsClause.isDecided {decided : Prop} {statement : SimpleStatement}
    (ended : EndsClause .clause decided statement) (noExpression : statement.kind ≠ .expression) : decided := by
  rcases ended with ended | ended | ⟨ended, -⟩ | ended
  · cases ended
  · exact absurd ended noExpression
  · cases ended
  · exact ended

section checks

variable {κ β : Type} [Alike β] {good : Prop} [Decidable good] {next : Programs κ β} {ends : Bool → β → Prop}
  {before stops : Option TokenKind → Bool} {expected : List String} {cost : Nat}

omit [Alike β] in
private theorem Refuses.clauseCheck (isCheck : expected ∈ clauseChecks) {closer : TokenKind}
    (plain : closer ∈ finishing) :
    Refuses (fun _ (_ : κ) => (Parse.rejectNext expected : Parse β)) [closer] ParseError.IsClauseCheck := by
  have written : closer ≠ .semicolon .endOfInput ∧ closer ≠ .illegal := by
    constructor <;> exact fun same => absurd (same ▸ plain) (by decide)
  exact (Refuses.rejectNext written.1 written.2).weaken fun _ ⟨isKind, same⟩ => ⟨isKind, same ▸ isCheck⟩

/-- A clause that is bad has to be one that can be told to be bad, and is rejected with the next token. -/
theorem Sequel.checked {decided : Prop} (isCheck : expected ∈ clauseChecks) (decides : ¬ good → decided)
    {closer : TokenKind} (plain : closer ∈ finishing) (joins : before (some closer) = true) (short : 1 ≤ cost)
    (continues : good → Sequel decided before next ends stops cost) :
    Sequel decided before (fun deeper index => if good then next deeper index
      else rejectNext expected) ends stops cost := by
  by_cases isGood : good
  · simp only [if_pos isGood]
    exact continues isGood
  · simp only [if_neg isGood]
    exact .doomed (decides isGood) [closer] (List.cons_subset.mpr ⟨plain, List.nil_subset _⟩) short (fun _ => joins)
      (.clauseCheck isCheck plain)

theorem Prospect.checked {front kinds : List TokenKind} {kind : TokenKind}
    (continues : good → Prospect front next ends stops cost (kind :: kinds)) :
    Prospect front (fun deeper index => if good then next deeper index
      else Parse.rejectNext expected) ends stops cost (kind :: kinds) := by
  by_cases isGood : good
  · exact .ite_pos isGood (continues isGood)
  · exact .ite_neg isGood .rejectNext

/-- What is done in front of one kind. -/
theorem Sequel.lead {ι : Type} {decided : Prop} {programs : Programs ι β} {closer : TokenKind}
    (sequel : Sequel decided (· == some closer) next ends stops cost) (leads : Leads programs [closer] next [closer])
    (joins : before (some closer) = true) : Sequel decided before programs ends stops cost := by
  have starts : ∀ kinds : List TokenKind, (kinds.head? == some closer) = true →
      ∃ later, kinds = closer :: later := fun kinds same =>
    List.head?_eq_some_iff.mp (beq_iff_eq.mp same)
  have begins : ∀ kinds : List TokenKind, (kinds.head? == some closer) = true →
      before kinds.head? = true := fun kinds same => by
    obtain ⟨later, rfl⟩ := starts kinds same
    exact joins
  cases sequel with
  | finishes value isEnd more plain short near passes =>
    refine .finishes value isEnd more plain short (fun rest ends => begins _ (near rest ends)) ?_
    obtain ⟨level, leads⟩ := leads
    obtain ⟨level', passes⟩ := passes
    refine ⟨level + level', fun supply left index enough rest ends state ahead => ?_⟩
    obtain ⟨later, parts⟩ := starts _ (near rest ends)
    rw [parts] at ahead
    obtain ⟨below, other, reached, close, same, ahead⟩ := leads supply left index (by omega) later state ahead
    rw [same]
    exact passes supply below other (by omega) rest ends reached (parts ▸ ahead)
  | doomed isDecided more plain short near refuses =>
    have first := near []
    rw [List.append_nil] at first
    obtain ⟨later, rfl⟩ := starts more first
    exact .doomed isDecided _ plain short (fun rest => begins _ (near rest)) ((leads.more later).refuses refuses)

end checks

section

variable {ι β : Type} [Alike β] {bound : Nat} (known : Known bound)
include known

/-- What is left to do behind a clause of each kind decides what becomes of the whole. -/
private theorem clause_prospect {place : Place} {mode : SimpleMode} (standing : mode = .statement → place = .free)
    {front kinds : List TokenKind} (controls : Controls front) (inside : kinds.length < bound + 1)
    {check : Deeper → SimpleStatement → Parse β} {ends : Bool → β → Prop} {stops : Option TokenKind → Bool} {cost second : Nat}
    (ending : ∀ (κ : Type) (statement : SimpleStatement) (decided : Prop), EndsClause mode decided statement →
      Sequel decided (endsSimple place mode) (fun deeper (_ : κ) => check deeper statement) ends stops second)
    (later : ∀ (κ : Type) (statement : SimpleStatement) (used : List TokenKind) (kind : TokenKind) (rest : List TokenKind),
      rest.length < bound →
      Prospect (front ++ used) (fun deeper (_ : κ) => check deeper statement) ends stops cost (kind :: rest))
    (within : 5 + second ≤ cost) :
    Prospect front (fun deeper (_ : ι) => do check deeper (← simpleStatement deeper place mode)) ends stops cost kinds := by
  have decides : ∀ statement, EndsClause mode (SomeDecisive kinds) statement →
      EndsClause mode (Decided (front ++ kinds)) statement :=
    fun _ ends => ends.imp_right fun ends => ends.imp_right fun ends => ends.imp_right (Decided.intro controls)
  refine (simpleStatement_prospect known standing inside).behind.bind (fun statement used rest parts ended => ?_)
    (fun statement ended => ?_) within
  all_goals
    have same : ∀ pair : Following ι statement, pair.1.2 = statement := fun pair => pair.2.symm
    simp only [same]
  · cases rest with
    | nil =>
      rw [List.append_nil] at parts
      subst parts
      exact ((ending _ statement _ (decides statement (ended rfl))).nil).weaken (fun _ _ => id) (fun _ => id) (by omega)
    | cons kind rest =>
      have fewer := congrArg List.length parts
      simp only [List.length_append, List.length_cons] at fewer
      exact later _ statement used kind rest (by omega)
  · exact ending _ statement _ (decides statement ended)

end

section conditions

def conditionCheck (condition : Option SimpleStatement) : Parse Unit := do
  if condition.any (·.kind = .expression) then return else rejectNext ["condition expression"]

/-- The condition of an `if` statement behind the semicolon. -/
def secondCondition (deeper : Deeper) : Parse Unit := do
  if ← atOperator .leftBrace then
    let condition ← rejectNext ["condition"]
    conditionCheck condition
  else conditionCheck (some (← simpleStatement deeper .header .clause))

/-- What is left of the header of an `if` statement behind its first clause. -/
def conditionFrom (deeper : Deeper) (first : Option SimpleStatement) : Parse Unit := do
  if ← atSemicolon then
    bump
    secondCondition deeper
  else conditionCheck first

theorem ifHeader_eq (deeper : Deeper) : ifHeader deeper = (do
    if ← atOperator .leftBrace then rejectNext ["condition"]
    else if ← atSemicolon then conditionFrom deeper none
    else conditionFrom deeper (some (← simpleStatement deeper .header .clause))) := by
  simp only [ifHeader, conditionFrom, secondCondition, conditionCheck, bind_map_left, pure_bind]

variable {ι : Type} {bound : Nat}

private theorem conditionCheck_sequel (κ : Type) (statement : SimpleStatement) (decided : Prop)
    (ended : EndsClause .clause decided statement) :
    Sequel decided (· == some (.operator .leftBrace))
      (fun _ (_ : κ) => conditionCheck (some statement)) (fun _ _ => True)
      (· == some (.operator .leftBrace)) 1 := by
  have decides : ¬ (some statement).any (·.kind = .expression) = true → decided := fun noExpression =>
    ended.isDecided fun isExpression => noExpression (decide_eq_true isExpression)
  refine .checked (by decide) decides (by decide) (beq_self_eq_true (some (TokenKind.operator .leftBrace)))
    (Nat.le_refl _) fun _ => ?_
  exact .finishes () trivial [] (List.nil_subset _) (Nat.zero_le _) (fun _ => id) ⟨0,
    fun _ _ _ _ _ _ => Runs.pure ⟨rfl, rfl⟩⟩

variable (known : Known bound)
include known

private theorem secondCondition_prospect {front kinds : List TokenKind} (controls : Controls front)
    (inside : kinds.length < bound + 1) :
    Prospect front (fun deeper (_ : ι) => secondCondition deeper) (fun _ _ => True)
      (· == some (.operator .leftBrace)) 6 kinds := by
  have clause : Prospect front (fun deeper (_ : ι) =>
    do conditionCheck (some (← simpleStatement deeper .header .clause)))
      (fun _ _ => True) (· == some (.operator .leftBrace)) 6 kinds :=
    clause_prospect known (by simp) controls inside
      (fun _ _ _ ended => (conditionCheck_sequel _ _ _ ended).lead (.of_eq fun _ index => ⟨index, rfl⟩) rfl)
      (fun _ statement used kind rest _ => .checked fun _ => .pure fun _ => rfl) (Nat.le_refl _)
  cases kinds with
  | nil =>
    have named : Passes (fun deeper (_ : ι) => secondCondition deeper) [.identifier] []
        (· == some (.operator .leftBrace)) () := by
      obtain ⟨level, passes⟩ := simpleName_passes (ι := ι) .header .clause
      refine ⟨level, fun supply left index enough rest ends => ?_⟩
      obtain ⟨later, rfl⟩ := List.head?_eq_some_iff.mp (beq_iff_eq.mp ends)
      apply Runs.bind
      apply Runs.atOperator_no (by simp)
      apply Runs.ite_neg Bool.false_ne_true
      apply Runs.bind
      apply (passes supply left index enough _ rfl).weaken
      rintro statement _ ⟨rfl, rfl⟩
      exact Runs.ite_pos rfl (Runs.pure ⟨rfl, rfl⟩)
    exact .nil trivial (by decide) (by decide) named
  | cons kind kinds =>
    exact .atOperator (fun _ => .ite_pos rfl .rejectNext_bind) fun _ => .ite_neg Bool.false_ne_true clause

private theorem conditionFrom_prospect {front kinds : List TokenKind} {kind : TokenKind} (controls : Controls front)
    (inside : kinds.length < bound) (first : Option SimpleStatement) :
    Prospect front (fun deeper (_ : ι) => conditionFrom deeper first) (fun _ _ => True)
      (· == some (.operator .leftBrace)) 6
      (kind :: kinds) := by
  refine .atSemicolon ?_
  by_cases semicolon : isSemicolon kind = true
  · refine .ite_pos semicolon (.bump ?_)
    exact (secondCondition_prospect known controls (Nat.lt_succ_of_lt inside)).weaken (fun _ _ => id)
      (fun _ => id) (by decide)
  · exact .ite_neg semicolon (.checked fun _ => .pure fun _ => rfl)

theorem ifHeader_prospect {front kinds : List TokenKind} (controls : Controls front) (inside : kinds.length < bound) :
    Prospect front (fun deeper (_ : ι) => ifHeader deeper) (fun _ _ => True)
      (· == some (.operator .leftBrace)) 6 kinds := by
  have isName : ∀ supply, IsExpression supply .header 2 [.identifier] :=
    fun _ => .ofUnary (.ofPrimary (.ofOperand .name (by decide)))
  cases kinds with
  | nil =>
    refine .finishes () trivial [.identifier] (by decide) (by decide) ⟨max 0 2,
      fun supply left _ enough rest ends => ?_⟩
    obtain ⟨later, rfl⟩ := List.head?_eq_some_iff.mp (beq_iff_eq.mp ends)
    exact ifHeader_runs (.inl rfl) (isName supply) enough ⟨rfl, rfl⟩
  | cons kind kinds =>
    have first : Prospect front (fun deeper (_ : ι) =>
      do conditionFrom deeper (some (← simpleStatement deeper .header .clause)))
        (fun _ _ => True) (· == some (.operator .leftBrace)) 6 (kind :: kinds) := by
      refine clause_prospect known (by simp) controls (Nat.lt_succ_of_lt inside) (fun κ statement decided ended => ?_)
        (fun κ statement used kind rest fewer => ?_) (by decide : 5 + 1 ≤ 6)
      · -- where the text ends behind the first clause, that clause is the condition
        exact (conditionCheck_sequel κ statement decided ended).lead
          (Leads.atSemicolon.trans (.of_eq fun _ index => ⟨index, rfl⟩)) rfl
      · exact conditionFrom_prospect known (controls.append used) fewer (some statement)
    simp only [ifHeader_eq]
    refine .atOperator (fun _ => .ite_pos rfl .rejectNext) fun _ => .ite_neg Bool.false_ne_true (.atSemicolon ?_)
    by_cases semicolon : isSemicolon kind = true
    · exact .ite_pos semicolon (conditionFrom_prospect known controls (Nat.lt_of_succ_lt inside) none)
    · exact .ite_neg semicolon first

end conditions

section loops

/-- The last clause of a `for` header, with the semicolon in front of it. -/
def lastClause (deeper : Deeper) : Parse Unit := do
  expectSemicolon [";"]
  if !(← atOperator .leftBrace) then discard (simpleStatement deeper .header .clause)

def loopCondition (deeper : Deeper) (condition : SimpleStatement) : Parse Unit := do
  if condition.kind ≠ .expression then rejectNext ["for loop condition"]
  lastClause deeper

/-- What is left of a `for` header behind its first semicolon. -/
def laterClauses (deeper : Deeper) : Parse Unit := do
  if !(← atSemicolon) then loopCondition deeper (← simpleStatement deeper .header .clause)
  else lastClause deeper

variable {ι : Type} {bound : Nat} (known : Known bound)
include known

private theorem lastClause_completable :
    Completable (fun deeper (_ : ι) => lastClause deeper) (· == some (.operator .leftBrace)) 1
    (bound + 1) [.semicolon .explicit] := by
  have last : Completable (fun deeper (_ : ι) => do
      if !(← atOperator .leftBrace) then discard (simpleStatement deeper .header .clause))
      (· == some (.operator .leftBrace)) 5 bound [] := by
    refine .intro () (List.nil_subset _) (Nat.zero_le _) ⟨0, fun supply left _ _ rest ends => ?_⟩
      fun kind kinds inside => ?_
    · obtain ⟨later, rfl⟩ := List.head?_eq_some_iff.mp (beq_iff_eq.mp ends)
      apply Runs.bind
      apply Runs.atOperator_yes
      exact Runs.ite_neg Bool.false_ne_true (Runs.pure ⟨rfl, rfl⟩)
    · refine .atOperator (fun _ => .ite_neg Bool.false_ne_true (.pure fun _ => rfl)) fun _ => .ite_pos rfl ?_
      refine (simpleStatement_completable known (by simp)).discard.on (Nat.lt_succ_of_lt inside)
        (fun _ ends => ?_) (Nat.le_refl _)
      rw [beq_iff_eq.mp ends]
      rfl
  exact .expecting rfl (by decide) last (Nat.le_refl _) (by decide)

omit known in
private theorem loopCondition_pos (deeper : Deeper) {condition : SimpleStatement}
    (isExpression : condition.kind = .expression) :
    loopCondition deeper condition = lastClause deeper := by
  simp only [loopCondition, isExpression, ne_eq, not_true_eq_false, ↓reduceIte]

omit known in
private theorem loopCondition_neg (deeper : Deeper) {condition : SimpleStatement}
    (noExpression : condition.kind ≠ .expression) :
    loopCondition deeper condition = (do
      rejectNext ["for loop condition"]
      lastClause deeper) := by
  simp only [loopCondition, noExpression, ne_eq, not_false_eq_true, ↓reduceIte]

private theorem loopCondition_sequel (κ : Type) (statement : SimpleStatement) (decided : Prop)
    (ended : EndsClause .clause decided statement) :
    Sequel decided (endsSimple .header .clause) (fun deeper (_ : κ) => loopCondition deeper statement) (fun _ _ => True)
      (· == some (.operator .leftBrace)) 1 := by
  by_cases isExpression : statement.kind = .expression
  · obtain ⟨value, closes⟩ := (lastClause_completable known (ι := κ)).closes
    simp only [fun deeper => loopCondition_pos deeper isExpression]
    exact .finishes value trivial _ (by decide) (Nat.le_refl _) (fun _ _ => rfl) closes
  · simp only [fun deeper => loopCondition_neg deeper isExpression]
    exact .doomed (ended.isDecided isExpression) [.semicolon .explicit] (by decide) (Nat.le_refl _) (fun _ => rfl)
      (Refuses.bind (.clauseCheck (by decide) (by decide)))

omit known in
private theorem laterClauses_closed :
    Passes (fun deeper (_ : ι) => laterClauses deeper) [.semicolon .explicit] []
      (· == some (.operator .leftBrace)) () := by
  refine ⟨0, fun supply left _ _ rest ends => ?_⟩
  obtain ⟨later, rfl⟩ := List.head?_eq_some_iff.mp (beq_iff_eq.mp ends)
  apply Runs.bind
  apply Runs.atSemicolon
  apply Runs.ite_neg (by simp [isSemicolon])
  apply Runs.bind
  apply Runs.expect rfl
  apply Runs.bind
  apply Runs.atOperator_yes
  exact Runs.ite_neg Bool.false_ne_true (Runs.pure ⟨rfl, rfl⟩)

private theorem laterClauses_prospect {front kinds : List TokenKind} (controls : Controls front)
    (inside : kinds.length < bound + 1) :
    Prospect front (fun deeper (_ : ι) => laterClauses deeper) (fun _ _ => True)
      (· == some (.operator .leftBrace)) 6 kinds := by
  cases kinds with
  | nil => exact .nil trivial (by decide) (by decide) laterClauses_closed
  | cons kind kinds =>
    have last : ∀ {κ : Type} {front : List TokenKind} {kind : TokenKind} {rest : List TokenKind}, rest.length < bound →
        Prospect front (fun deeper (_ : κ) => lastClause deeper) (fun _ _ => True) (· == some (.operator .leftBrace)) 6
          (kind :: rest) := fun inside =>
      (lastClause_completable known).on (Nat.succ_lt_succ inside) (fun _ => id) (by decide)
    refine .atSemicolon ?_
    by_cases semicolon : isSemicolon kind = true
    · exact .ite_neg (by simp [semicolon]) (last (Nat.lt_of_succ_lt_succ inside))
    · refine .ite_pos (by simp [semicolon]) ?_
      refine clause_prospect known (by simp) controls inside (loopCondition_sequel known)
        (fun κ statement used kind rest fewer => ?_) (by decide : 5 + 1 ≤ 6)
      by_cases isExpression : statement.kind = .expression
      · simp only [fun deeper => loopCondition_pos deeper isExpression]
        exact last fewer
      · simp only [fun deeper => loopCondition_neg deeper isExpression]
        exact .rejectNext_bind

/-- What is left of a `for` header behind a clause that may be its condition. -/
def loopFrom (deeper : Deeper) (first : SimpleStatement) : Parse Unit := do
  if first.isRange then return
  else if ← atSemicolon then forClauses deeper
  else if first.kind = .expression then return
  else rejectNext [Operator.leftBrace.lexeme]

omit known in
private theorem loopFrom_sequel (κ : Type) (statement : SimpleStatement) (decided : Prop) :
    Sequel decided (endsSimple .header .forClause) (fun deeper (_ : κ) => loopFrom deeper statement) (fun _ _ => True)
      (· == some (.operator .leftBrace)) 2 := by
  by_cases ranges : statement.isRange = true
  · simp only [loopFrom, ranges, ↓reduceIte]
    refine .finishes () trivial [] (List.nil_subset _) (Nat.zero_le _) (fun rest ends => ?_) ⟨0,
      fun _ _ _ _ _ _ => Runs.pure ⟨rfl, rfl⟩⟩
    rw [List.nil_append, beq_iff_eq.mp ends]
    rfl
  by_cases isExpression : statement.kind = .expression
  · refine .finishes () trivial [] (List.nil_subset _) (Nat.zero_le _) (fun rest ends => ?_) ⟨0,
      fun supply left _ _ rest ends => ?_⟩
    · rw [List.nil_append, beq_iff_eq.mp ends]
      rfl
    · obtain ⟨later, rfl⟩ := List.head?_eq_some_iff.mp (beq_iff_eq.mp ends)
      apply Runs.ite_neg ranges
      apply Runs.bind
      apply Runs.atSemicolon
      apply Runs.ite_neg (by simp [isSemicolon])
      exact Runs.ite_pos isExpression (Runs.pure ⟨rfl, rfl⟩)
  · obtain ⟨level, passes⟩ := laterClauses_closed (ι := κ)
    refine .finishes () trivial [.semicolon .explicit, .semicolon .explicit] (by decide)
      (Nat.le_refl _) (fun _ _ => rfl)
      ⟨level, fun supply left index enough rest ends => ?_⟩
    apply Runs.ite_neg ranges
    apply Runs.bind
    apply Runs.atSemicolon
    apply Runs.ite_pos rfl
    apply Runs.bind
    apply Runs.bump
    exact passes supply left index enough rest ends

theorem forHeader_prospect {front kinds : List TokenKind} (controls : Controls front) (inside : kinds.length < bound) :
    Prospect front (fun deeper (_ : ι) => forHeader deeper) (fun _ _ => True)
      (· == some (.operator .leftBrace)) 7 kinds := by
  have clauses : ∀ {κ : Type} {front : List TokenKind} {kind : TokenKind} {rest : List TokenKind}, Controls front →
      rest.length < bound → Prospect front (fun deeper (_ : κ) => forClauses deeper) (fun _ _ => True)
        (· == some (.operator .leftBrace)) 7 (kind :: rest) := fun controls fewer =>
    .bump ((laterClauses_prospect known controls (Nat.lt_succ_of_lt fewer)).weaken (fun _ _ => id)
      (fun _ => id) (by decide))
  cases kinds with
  | nil =>
    refine .finishes () trivial [] (List.nil_subset _) (Nat.zero_le _) ⟨0, fun supply left _ _ rest ends => ?_⟩
    obtain ⟨later, rfl⟩ := List.head?_eq_some_iff.mp (beq_iff_eq.mp ends)
    apply Runs.bind
    apply Runs.atOperator_yes
    exact Runs.ite_pos rfl (Runs.pure ⟨rfl, rfl⟩)
  | cons kind kinds =>
    have first : Prospect front (fun deeper (_ : ι) => do loopFrom deeper (← simpleStatement deeper .header .forClause))
        (fun _ _ => True) (· == some (.operator .leftBrace)) 7 (kind :: kinds) := by
      refine clause_prospect known (by simp) controls (Nat.lt_succ_of_lt inside) (fun κ statement decided _ =>
        loopFrom_sequel κ statement decided) (fun κ statement used kind rest fewer => ?_) (by decide : 5 + 2 ≤ 7)
      by_cases ranges : statement.isRange = true
      · exact .ite_pos ranges (.pure fun _ => rfl)
      · refine .ite_neg ranges (.atSemicolon ?_)
        by_cases semicolon : isSemicolon kind = true
        · exact .ite_pos semicolon (clauses (controls.append used) fewer)
        · exact .ite_neg semicolon (.checked fun _ => .pure fun _ => rfl)
    refine .atOperator (fun _ => .ite_pos rfl (.pure fun _ => rfl)) fun _ =>
      .ite_neg Bool.false_ne_true (.atSemicolon ?_)
    by_cases semicolon : isSemicolon kind = true
    · exact .ite_pos semicolon (clauses controls (Nat.lt_of_succ_lt inside))
    · exact .ite_neg semicolon first

end loops

section tags

def tagCheck (tag : Option SimpleStatement) : Parse Bool :=
  match tag with
  | none => return false
  | some tag =>
    if tag.isTypeSwitchGuard then return true
    else if tag.kind = .expression then return false
    else rejectNext ["switch expression"]

/-- The tag of a `switch` statement behind the semicolon. -/
def secondTag (deeper : Deeper) : Parse Bool := do
  if ← atOperator .leftBrace then return false
  else tagCheck (some (← simpleStatement deeper .header .clause))

/-- What is left of the header of a `switch` statement behind its first clause. -/
def tagFrom (deeper : Deeper) (first : Option SimpleStatement) : Parse Bool := do
  if ← atSemicolon then
    bump
    secondTag deeper
  else tagCheck first

private theorem ite_bind {α β : Type} {condition : Prop} [Decidable condition] (first second : Parse α)
    (next : α → Parse β) :
    ((if condition then first else second) >>= next) = if condition then first >>= next else second >>= next := by
  split <;> rfl

private theorem switchHeader_eq (deeper : Deeper) : switchHeader deeper = (do
    if ← atOperator .leftBrace then return false
    else if ← atSemicolon then tagFrom deeper none
    else tagFrom deeper (some (← simpleStatement deeper .header .clause))) := by
  simp only [switchHeader, switchTag, tagFrom, secondTag, bind_map_left, pure_bind, bind_assoc, ite_bind]
  rfl

variable {ι : Type} {bound : Nat}

private theorem tagCheck_sequel (κ : Type) (statement : SimpleStatement) (decided : Prop)
    (ended : EndsClause .clause decided statement) :
    Sequel decided (· == some (.operator .leftBrace)) (fun _ (_ : κ) => tagCheck (some statement)) (fun _ _ => True)
      (· == some (.operator .leftBrace)) 1 := by
  have answers : ∀ onType : Bool, Sequel decided (· == some (.operator .leftBrace)) (fun _ (_ : κ) =>
    (pure onType : Parse Bool))
      (fun _ _ => True) (· == some (.operator .leftBrace)) 1 := fun onType =>
    .finishes onType trivial [] (List.nil_subset _) (Nat.zero_le _) (fun _ => id) ⟨0,
      fun _ _ _ _ _ _ => Runs.pure ⟨rfl, rfl⟩⟩
  by_cases guard : statement.isTypeSwitchGuard = true
  · simp only [tagCheck, guard, ↓reduceIte]
    exact answers true
  · have decides : ¬ statement.kind = .expression → decided := fun noExpression => by
      rcases ended with ended | ended | ⟨ended, -⟩ | ended
      · cases ended
      · exact absurd ended noExpression
      · cases ended
      · exact ended
    simp only [tagCheck, guard, Bool.false_eq_true, ↓reduceIte]
    exact .checked (by decide) ended.isDecided (by decide)
      (beq_self_eq_true (some (TokenKind.operator .leftBrace))) (Nat.le_refl _)
      fun _ => answers false

private theorem tagCheck_prospect {front kinds : List TokenKind} {kind : TokenKind} (tag : Option SimpleStatement) :
    Prospect front (fun _ (_ : ι) => tagCheck tag) (fun _ _ => True)
      (· == some (.operator .leftBrace)) 6 (kind :: kinds) := by
  cases tag with
  | none => exact .pure fun _ => rfl
  | some tag =>
    by_cases guard : tag.isTypeSwitchGuard = true
    · exact .ite_pos guard (.pure fun _ => rfl)
    · exact .ite_neg guard (.checked fun _ => .pure fun _ => rfl)

variable (known : Known bound)
include known

private theorem secondTag_prospect {front kinds : List TokenKind} (controls : Controls front)
    (inside : kinds.length < bound + 1) :
    Prospect front (fun deeper (_ : ι) => secondTag deeper) (fun _ _ => True)
      (· == some (.operator .leftBrace)) 6 kinds := by
  cases kinds with
  | nil =>
    refine .finishes false trivial [] (List.nil_subset _) (Nat.zero_le _) ⟨0, fun supply left _ _ rest ends => ?_⟩
    obtain ⟨later, rfl⟩ := List.head?_eq_some_iff.mp (beq_iff_eq.mp ends)
    apply Runs.bind
    apply Runs.atOperator_yes
    exact Runs.ite_pos rfl (Runs.pure ⟨rfl, rfl⟩)
  | cons kind kinds =>
    have clause : Prospect front (fun deeper (_ : ι) => do tagCheck (some (← simpleStatement deeper .header .clause)))
        (fun _ _ => True) (· == some (.operator .leftBrace)) 6 (kind :: kinds) :=
      clause_prospect known (by simp) controls inside
        (fun _ _ _ ended => (tagCheck_sequel _ _ _ ended).lead (.of_eq fun _ index => ⟨index, rfl⟩) rfl)
        (fun _ statement used kind rest _ => tagCheck_prospect _) (Nat.le_refl _)
    exact .atOperator (fun _ => .ite_pos rfl (.pure fun _ => rfl)) fun _ => .ite_neg Bool.false_ne_true clause

private theorem tagFrom_prospect {front kinds : List TokenKind} {kind : TokenKind} (controls : Controls front)
    (inside : kinds.length < bound) (first : Option SimpleStatement) :
    Prospect front (fun deeper (_ : ι) => tagFrom deeper first) (fun _ _ => True) (· == some (.operator .leftBrace)) 6
      (kind :: kinds) := by
  refine .atSemicolon ?_
  by_cases semicolon : isSemicolon kind = true
  · refine .ite_pos semicolon (.bump ?_)
    exact (secondTag_prospect known controls (Nat.lt_succ_of_lt inside)).weaken (fun _ _ => id)
      (fun _ => id) (by decide)
  · exact .ite_neg semicolon (tagCheck_prospect first)

theorem switchHeader_prospect {front kinds : List TokenKind} (controls : Controls front) (inside : kinds.length < bound) :
    Prospect front (fun deeper (_ : ι) => switchHeader deeper) (fun _ _ => True) (· == some (.operator .leftBrace)) 6 kinds := by
  cases kinds with
  | nil =>
    refine .finishes false trivial [] (List.nil_subset _) (Nat.zero_le _) ⟨0, fun supply left _ _ rest ends => ?_⟩
    obtain ⟨later, rfl⟩ := List.head?_eq_some_iff.mp (beq_iff_eq.mp ends)
    apply Runs.bind
    apply Runs.atOperator_yes
    exact Runs.ite_pos rfl (Runs.pure ⟨rfl, rfl⟩)
  | cons kind kinds =>
    have first : Prospect front (fun deeper (_ : ι) =>
      do tagFrom deeper (some (← simpleStatement deeper .header .clause)))
        (fun _ _ => True) (· == some (.operator .leftBrace)) 6 (kind :: kinds) := by
      refine clause_prospect known (by simp) controls (Nat.lt_succ_of_lt inside) (fun κ statement decided ended => ?_)
        (fun κ statement used kind rest fewer => ?_) (by decide : 5 + 1 ≤ 6)
      · -- where the text ends behind the first clause, that clause is the tag
        exact (tagCheck_sequel κ statement decided ended).lead
          (Leads.atSemicolon.trans (.of_eq fun _ index => ⟨index, rfl⟩)) rfl
      · exact tagFrom_prospect known (controls.append used) fewer (some statement)
    simp only [switchHeader_eq]
    refine .atOperator (fun _ => .ite_pos rfl (.pure fun _ => rfl)) fun _ =>
      .ite_neg Bool.false_ne_true (.atSemicolon ?_)
    by_cases semicolon : isSemicolon kind = true
    · exact .ite_pos semicolon (tagFrom_prospect known controls (Nat.lt_of_succ_lt inside) none)
    · exact .ite_neg semicolon first

theorem communication_prospect {front kinds : List TokenKind} (controls : Controls front)
    (inside : kinds.length < bound) :
    Prospect front (fun deeper (_ : ι) => communication deeper) (fun _ _ => True)
      (· == some (.operator .colon)) 6 kinds := by
  refine clause_prospect known (by simp) controls (Nat.lt_succ_of_lt inside) (fun κ statement decided ended => ?_)
    (fun κ statement used kind rest fewer => .checked fun _ => .pure fun _ => rfl) (by decide : 5 + 1 ≤ 6)
  have decides : ¬ [StatementKind.send, .expression, .shortVarDecl, .assignment].contains statement.kind = true →
      decided :=
    fun noCommunication => ended.isDecided fun isExpression => noCommunication (by rw [isExpression]; rfl)
  have joins : endsSimple .free .clause (some (.operator .colon)) = true := rfl
  refine .checked (by decide) decides (by decide) joins (Nat.le_refl _) fun _ => ?_
  refine .finishes () trivial [] (List.nil_subset _) (Nat.zero_le _) (fun rest ends => ?_) ⟨0,
    fun _ _ _ _ _ _ => Runs.pure ⟨rfl, rfl⟩⟩
  rw [List.nil_append, beq_iff_eq.mp ends]
  rfl

end tags

end GoPrompt
