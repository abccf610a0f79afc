import GoPrompt.Grammar.Declaration
import GoPrompt.Proofs.Acceptance.Runs

/-! Readers that take a piece of the text as long as something follows that ends the piece, and lists of such
pieces with separators between them. -/

namespace GoPrompt

open Parse Grammar

variable {α : Type} {supply : Supply} {program : Parse α} {kinds rest : List TokenKind}
  {stops : Option TokenKind → Bool} {post : α → Prop}

/-- The program reads exactly these kinds in front of whatever ends them. -/
def Takes (supply : Supply) (program : Parse α) (kinds : List TokenKind) (stops : Option TokenKind → Bool)
    (post : α → Prop) : Prop :=
  ∀ rest, stops rest.head? = true → Runs supply (kinds ++ rest) program fun value left => left = rest ∧ post value

theorem Takes.run {result : α → List TokenKind → Prop} (takes : Takes supply program kinds stops post)
    (ends : stops rest.head? = true) (next : ∀ value, post value → result value rest) :
    Runs supply (kinds ++ rest) program result := by
  apply (takes rest ends).weaken
  rintro value _ ⟨rfl, holds⟩
  exact next value holds

/-- The program of a grammar reads exactly these kinds wherever enough levels are left. -/
def Reads (supply : Supply) (level : Nat) (program : Deeper → Parse α) (kinds : List TokenKind)
    (stops : Option TokenKind → Bool) (post : α → Prop) : Prop :=
  ∀ left, level ≤ left → Takes supply (program (levels supply.nesting left)) kinds stops post

theorem Reads.mono {program : Deeper → Parse α} {level higher : Nat}
    (reads : Reads supply level program kinds stops post) (le : level ≤ higher) :
    Reads supply higher program kinds stops post :=
  fun left enough => reads left (Nat.le_trans le enough)

section lists

variable {separates : TokenKind → Prop} {item : List TokenKind → Prop}

/-- Items, each behind a separator. -/
inductive Trailing (separates : TokenKind → Prop) (item : List TokenKind → Prop) : List TokenKind → Prop
  | nil : Trailing separates item []
  | cons {separator : TokenKind} {kinds later : List TokenKind} (separated : separates separator) (isItem : item kinds)
      (trailing : Trailing separates item later) : Trailing separates item (separator :: (kinds ++ later))

/-- One or more items with separators between them. -/
def Separated (separates : TokenKind → Prop) (item : List TokenKind → Prop) (kinds : List TokenKind) : Prop :=
  ∃ first later, kinds = first ++ later ∧ item first ∧ Trailing separates item later

def Optionally (item : List TokenKind → Prop) (kinds : List TokenKind) : Prop := kinds = [] ∨ item kinds

theorem Trailing.append {later : List TokenKind} (front : Trailing separates item kinds)
    (back : Trailing separates item later) :
    Trailing separates item (kinds ++ later) := by
  induction front with
  | nil => exact back
  | cons separated isItem _ ih =>
    rw [List.cons_append, List.append_assoc]
    exact .cons separated isItem ih

theorem Trailing.imp {other : List TokenKind → Prop} (trailing : Trailing separates item kinds)
    (implies : ∀ kinds, item kinds → other kinds) : Trailing separates other kinds := by
  induction trailing with
  | nil => exact .nil
  | cons separated isItem _ ih => exact .cons separated (implies _ isItem) ih

theorem Separated.imp {other : List TokenKind → Prop} (separated : Separated separates item kinds)
    (implies : ∀ kinds, item kinds → other kinds) : Separated separates other kinds := by
  obtain ⟨first, later, rfl, isItem, trailing⟩ := separated
  exact ⟨first, later, rfl, implies first isItem, trailing.imp implies⟩

theorem Separated.one (isItem : item kinds) : Separated separates item kinds :=
  ⟨kinds, [], (List.append_nil _).symm, isItem, .nil⟩

theorem Separated.join {separator : TokenKind} {later : List TokenKind} (front : Separated separates item kinds)
    (separated : separates separator) (back : Separated separates item later) :
    Separated separates item (kinds ++ separator :: later) := by
  obtain ⟨first, middle, rfl, isItem, trailing⟩ := front
  obtain ⟨second, last, rfl, isItem', trailing'⟩ := back
  refine ⟨first, middle ++ separator :: (second ++ last), List.append_assoc .., isItem, ?_⟩
  exact trailing.append (.cons separated isItem' trailing')

end lists

section readers

variable {reader : Parse Unit} {item : List TokenKind → Prop} {closer : Operator} (stops)

/-- A closing bracket and a comma are not the same. -/
theorem commaList_runs (differs : closer ≠ .comma) (beforeComma : stops (some (.operator .comma)) = true)
    (beforeCloser : stops (some (.operator closer)) = true)
    (takes : ∀ kinds, item kinds → Takes supply reader kinds stops fun _ => True)
    (starts : ∀ kinds, item kinds → ∀ rest, (kinds ++ rest).head? ≠ some (.operator closer))
    (items : Optionally (Separated (· = .operator .comma) item) kinds) {post : Unit → List TokenKind → Prop}
    (holds : post () (.operator closer :: rest)) :
    Runs supply (kinds ++ .operator closer :: rest) (commaList closer reader) post := by
  rcases items with rfl | ⟨first, later, rfl, isItem, trailing⟩
  · apply Runs.repeatUntil_done
    apply Runs.bind
    apply Runs.atOperator_yes
    apply Runs.ite_pos rfl
    exact Runs.pure ⟨rfl, holds⟩
  · induction trailing generalizing first with
    | nil =>
      rw [List.append_nil]
      apply Runs.repeatUntil_done
      apply Runs.bind
      apply Runs.atOperator_no (starts _ isItem _)
      apply Runs.ite_neg Bool.false_ne_true
      apply Runs.bind
      apply (takes _ isItem).run (by exact beforeCloser)
      intro _ _
      apply Runs.bind
      apply Runs.peekOperator_cons
      split
      next same => exact absurd (Option.some.inj same) differs
      next =>
        apply Runs.ite_pos rfl
        exact Runs.pure ⟨rfl, holds⟩
    | @cons separator kinds later separated isItem' _ ih =>
      obtain rfl := separated
      rw [List.append_assoc, List.cons_append]
      apply Runs.repeatUntil_again
      apply Runs.bind
      apply Runs.atOperator_no (starts _ isItem _)
      apply Runs.ite_neg Bool.false_ne_true
      apply Runs.bind
      apply (takes _ isItem).run (by exact beforeComma)
      intro _ _
      apply Runs.bind
      apply Runs.peekOperator_cons
      apply Runs.bind
      apply Runs.bump
      apply Runs.pure
      refine ⟨rfl, ?_, ih kinds isItem'⟩
      simp only [List.length_append, List.length_cons]
      omega

theorem semicolonList_runs (beforeSemicolon : stops (some (.semicolon .explicit)) = true)
    (beforeCloser : stops (some (.operator closer)) = true)
    (takes : ∀ kinds, item kinds → Takes supply reader kinds stops fun _ => True)
    (starts : ∀ kinds, item kinds → ∀ rest, (kinds ++ rest).head? ≠ some (.operator closer) ∧
      ∀ origin, (kinds ++ rest).head? ≠ some (.semicolon origin))
    (items : Optionally (Separated (· = .semicolon .explicit) item) kinds) {post : Unit → List TokenKind → Prop}
    (holds : post () (.operator closer :: rest)) :
    Runs supply (kinds ++ .operator closer :: rest) (semicolonList closer reader) post := by
  rcases items with rfl | ⟨first, later, rfl, isItem, trailing⟩
  · apply Runs.repeatUntil_done
    apply Runs.bind
    apply Runs.peekKind_cons
    apply Runs.ite_pos rfl
    exact Runs.pure ⟨rfl, holds⟩
  · induction trailing generalizing first with
    | nil =>
      rw [List.append_nil]
      apply Runs.repeatUntil_done
      apply Runs.bind
      apply Runs.peekKind_head
      split
      next origin isNext => exact absurd isNext ((starts _ isItem _).2 origin)
      next =>
        apply Runs.ite_neg (starts _ isItem _).1
        apply Runs.bind
        apply (takes _ isItem).run (by exact beforeCloser)
        intro _ _
        apply Runs.bind
        apply Runs.peekKind_cons
        apply Runs.ite_pos rfl
        exact Runs.pure ⟨rfl, holds⟩
    | @cons separator kinds later separated isItem' _ ih =>
      obtain rfl := separated
      rw [List.append_assoc, List.cons_append]
      apply Runs.repeatUntil_again
      apply Runs.bind
      apply Runs.peekKind_head
      split
      next origin isNext => exact absurd isNext ((starts _ isItem _).2 origin)
      next =>
        apply Runs.ite_neg (starts _ isItem _).1
        apply Runs.bind
        apply (takes _ isItem).run (by exact beforeSemicolon)
        intro _ _
        apply Runs.bind
        apply Runs.peekKind_cons
        apply Runs.bind
        apply Runs.bump
        apply Runs.pure
        refine ⟨rfl, ?_, ih kinds isItem'⟩
        simp only [List.length_append, List.length_cons]
        omega

/-- What comes behind the first item of a list without brackets. -/
theorem trailing_runs (beforeComma : stops (some (.operator .comma)) = true)
    (takes : ∀ kinds, item kinds → Takes supply reader kinds stops fun _ => True)
    (trailing : Trailing (· = .operator .comma) item kinds) (ends : stops rest.head? = true)
    (noComma : rest.head? ≠ some (.operator .comma)) {post : Unit → List TokenKind → Prop} (holds : post () rest) :
    Runs supply (kinds ++ rest)
      (repeatUntil do
        if ← eatOperator .comma then
          reader
          return false
        else return true) post := by
  induction trailing with
  | nil =>
    apply Runs.repeatUntil_done
    apply Runs.bind
    apply Runs.eatOperator_no noComma
    apply Runs.ite_neg Bool.false_ne_true
    exact Runs.pure ⟨rfl, holds⟩
  | @cons separator kinds later separated isItem trailing ih =>
    obtain rfl := separated
    have next : stops (later ++ rest).head? = true := by
      cases trailing with
      | nil => exact ends
      | cons separated =>
        obtain rfl := separated
        exact beforeComma
    rw [List.cons_append, List.append_assoc]
    apply Runs.repeatUntil_again
    apply Runs.bind
    apply Runs.eatOperator_yes
    apply Runs.ite_pos rfl
    apply Runs.bind
    apply (takes _ isItem).run next
    intro _ _
    apply Runs.pure
    refine ⟨rfl, ?_, ih⟩
    simp only [List.length_append, List.length_cons]
    omega

end readers

end GoPrompt
