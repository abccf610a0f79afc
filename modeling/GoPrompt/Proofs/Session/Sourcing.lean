import GoPrompt.Proofs.Classification.Answers
import GoPrompt.Proofs.Lexical.Moved
import GoPrompt.Repl.PackageClause

/-! A sourced file without its package clause. The clause is cut out of the text, and what is left in front of it and
behind it comes together: no token is lost there, and none is made. Only a byte-order mark would not be the same at the
start of a text. -/

namespace GoPrompt

namespace Lexer

private theorem ofText_instead {source : Nat} {text front more : List Char}
    (splits : text = leadingMark text ++ (front ++ more)) (tail : List Char)
    (apart : leadingMark text ++ front = [] → tail.head? ≠ some byteOrderMark) :
    ofText source (leadingMark text ++ front ++ tail) = { ofText source text with rest := front ++ tail } := by
  have cut : ofText source (leadingMark text ++ front) = { ofText source text with rest := front } := ofText_cut splits
  by_cases empty : leadingMark text ++ front = []
  · obtain ⟨_, rfl⟩ := List.append_eq_nil_iff.mp empty
    have fresh : { ofText source text with rest := tail } = (⟨source, tail, 0, false⟩ : Lexer) := by
      rw [empty] at cut
      exact congrArg (fun lexer : Lexer => { lexer with rest := tail }) cut.symm
    rw [empty, List.nil_append]
    refine Eq.trans ?_ fresh.symm
    cases tail with
    | nil => rfl
    | cons c rest => exact if_neg fun isMark => apart empty (congrArg some isMark)
  · rw [ofText_append empty, cut]
    rfl

/-- The place of a lexer divides its text into what it has read and what it has ahead. -/
theorem Passes.splits {source : Nat} {text : List Char} {last : Lexer} (passes : (ofText source text).Passes last) :
    ∃ before, text = before ++ last.rest ∧ last.offset = byteSize before := by
  obtain ⟨rest, splits, start⟩ := ofText_eq source text
  obtain ⟨taken, ahead, place⟩ := passes.takes
  rw [start] at ahead place
  refine ⟨leadingMark text ++ taken, ?_, by rw [place, byteSize_append]⟩
  rw [List.append_assoc]
  exact ahead ▸ splits

end Lexer

/-- A text that starts with the keyword `package` and a name, with the lexer behind them. -/
structure PackageClause (text : List Char) (keyword name : Token) (behind : Lexer) : Prop where
  isPackage : keyword.kind = .keyword .package
  isName : name.kind = .identifier
  reads : ∃ between, (Lexer.ofText 0 text).next = (.ok (.token keyword), between) ∧
    between.next = (.ok (.token name), behind)

section

variable {text : List Char} {keyword name semicolon : Token} {behind after : Lexer}

private theorem stripPackageClause_eq_self (without : ∀ keyword name behind, ¬ PackageClause text keyword name behind) :
    stripPackageClause text = text := by
  have noClause : packageClause? text = none := by
    rcases first : (Lexer.ofText 0 text).next with ⟨answer, between⟩
    rcases second : between.next with ⟨answer', behind⟩
    simp only [packageClause?, first, second]
    split
    next keyword name =>
      exact if_neg fun kinds => without keyword name behind ⟨kinds.1, kinds.2, between, first, second⟩
    next => rfl
  rw [stripPackageClause, noClause]

namespace PackageClause

private theorem packageClause?_eq (clause : PackageClause text keyword name behind)
    (ends : behind.next = (.ok (.token semicolon), after)) :
    packageClause? text = some (keyword.span.start,
      if semicolon.kind = .semicolon .explicit then semicolon.span.stop else name.span.stop) := by
  obtain ⟨between, first, second⟩ := clause.reads
  simp only [packageClause?, first, second, ends, clause.isPackage, clause.isName, and_self, ↓reduceIte]
  split <;> rfl

/-- The keyword stands behind text that is skipped, whatever follows. -/
theorem begins (clause : PackageClause text keyword name behind) :
    ∃ front ahead, (Lexer.ofText 0 text).rest = front ++ ahead ∧
    keyword.span.start = (Lexer.ofText 0 text).offset + byteSize front ∧
    ∀ tail, gap false 0 0 (front ++ tail) = gap false 0 front.length tail := by
  obtain ⟨between, answered, -⟩ := clause.reads
  have isPackage := clause.isPackage
  have reads := Lexer.Reads.of_next answered
  generalize isStep : LexStep.token keyword = step at reads
  cases reads with
  | @whole stop first rest length kind skipped here scanned =>
    cases isStep
    have unarmed : (Lexer.ofText 0 text).armed = false := by
      obtain ⟨_, -, start⟩ := Lexer.ofText_eq 0 text
      rw [start]
    have size : ((Lexer.ofText 0 text).rest.take stop).length = stop := by
      refine List.length_take_of_le (Nat.le_of_lt (Decidable.byContradiction fun beyond => ?_))
      rw [List.drop_eq_nil_of_le (Nat.not_lt.mp beyond)] at here
      cases here
    have parts := List.take_append_drop stop (Lexer.ofText 0 text).rest
    rw [here] at parts
    refine ⟨(Lexer.ofText 0 text).rest.take stop, _, parts.symm, rfl, fun tail => ?_⟩
    rw [unarmed, ← parts] at skipped
    have here' : gap false 0 0 ((Lexer.ofText 0 text).rest.take stop ++ first :: rest) =
        (0 + ((Lexer.ofText 0 text).rest.take stop).length, .token first) := by rw [size, Nat.zero_add, skipped]
    have instead := gap_instead here' tail
    rwa [Nat.zero_add] at instead
  | lineEnd | inserted =>
    cases isStep
    cases isPackage
  | cutOff | invalid | openComment | ended => cases isStep

/-- Behind the place where the clause ends, a lexer that inserts no semicolon comes to where the third step has led. -/
theorem ends (clause : PackageClause text keyword name behind) {which : SemicolonKind}
    (answered : behind.next = (.ok (.token semicolon), after)) (isSemicolon : semicolon.kind = .semicolon which) :
    ∃ last, packageClause? text = some (keyword.span.start, last.offset) ∧ (Lexer.ofText 0 text).Passes last ∧
      keyword.span.start ≤ last.offset ∧ Lexer.Approaches 0 after (last.arm false) ∧
        (last.rest.head? = some byteOrderMark → which = .explicit ∧ after.rest.head? = some byteOrderMark) := by
  obtain ⟨between, first, second⟩ := clause.reads
  have reads := Lexer.Reads.of_next answered
  have passes : ∀ {last}, behind.Passes last → (Lexer.ofText 0 text).Passes last := fun passes =>
    .next (by rw [first]; exact .next (by rwa [second]))
  have keywordSpan := (Lexer.Reads.of_next first).span rfl
  have nameSpan := (Lexer.Reads.of_next second).span rfl
  have semicolonSpan := reads.span rfl
  have inOrder := keyword.span.ordered
  have inOrder' := name.span.ordered
  have inOrder'' := semicolon.span.ordered
  have found := clause.packageClause?_eq answered
  by_cases explicit : which = .explicit
  · subst explicit
    rw [if_pos isSemicolon, ← semicolonSpan.2] at found
    have unarmed := reads.armed
    rw [isSemicolon] at unarmed
    have same : after.arm false = after := by rw [Lexer.arm, ← show after.armed = false from unarmed]
    refine ⟨after, found, passes (.next (by rw [answered]; exact .here _)), by omega, ?_, fun mark => ⟨rfl, mark⟩⟩
    rw [same]
    exact Lexer.approaches_moved 0 after
  · have written : ¬ semicolon.kind = .semicolon .explicit := by
      rw [isSemicolon]
      exact fun same => explicit (TokenKind.semicolon.inj same)
    rw [if_neg written, ← nameSpan.2] at found
    refine ⟨behind, found, passes (.here _), by omega, reads.approaches ?_, fun mark => ?_⟩
    · rw [isSemicolon]
      cases which with
      | explicit => exact absurd rfl explicit
      | newline => exact .inl rfl
      | endOfInput => exact .inr rfl
    · -- In front of a mark, the third step would have failed.
      obtain ⟨rest, isRest⟩ := List.head?_eq_some_iff.mp mark
      have stands : gap behind.armed 0 0 behind.rest = (0, .token byteOrderMark) := by
        rw [isRest]
        exact (Gap.Halts.of_ne_slash (by decide) (by decide) (by decide) rest).gap 0
      exact absurd rfl (Lexer.beginsAllowed_of_next answered stands).2

/-- The text without its clause has the same ahead, as far in front of it as the clause is long. -/
theorem approaches (clause : PackageClause text keyword name behind) {which : SemicolonKind}
    (answered : behind.next = (.ok (.token semicolon), after)) (isSemicolon : semicolon.kind = .semicolon which)
    (apart : keyword.span.start = 0 → which = .explicit → after.rest.head? ≠ some byteOrderMark) :
    ∃ cut, byteSize (stripPackageClause text) + cut = byteSize text ∧
      Lexer.Approaches cut after (Lexer.ofText 0 (stripPackageClause text)) := by
  obtain ⟨last, found, passes, inOrder, onward, marked⟩ := clause.ends answered isSemicolon
  obtain ⟨front, ahead, rest, start, skips⟩ := clause.begins
  obtain ⟨before, splits, stop⟩ := passes.splits
  obtain ⟨rest', splits', isLexer⟩ := Lexer.ofText_eq 0 text
  rw [isLexer] at rest start
  obtain rfl : rest' = front ++ ahead := rest
  have start : keyword.span.start = byteSize (leadingMark text ++ front) := by rw [start, byteSize_append]
  have stripped : stripPackageClause text = leadingMark text ++ front ++ last.rest := by
    have left : takeBytes keyword.span.start text = leadingMark text ++ front := by
      rw [start]
      exact (congrArg (takeBytes _) (splits'.trans (List.append_assoc ..).symm)).trans (takeBytes_byteSize _ _)
    have right : dropBytes last.offset text = last.rest := by
      rw [stop]
      exact (congrArg (dropBytes _) splits).trans (dropBytes_byteSize _ _)
    simp only [stripPackageClause, found, left, right]
  have noMark : leadingMark text ++ front = [] → last.rest.head? ≠ some byteOrderMark := by
    intro empty mark
    rw [empty] at start
    exact apart start (marked mark).1 (marked mark).2
  refine ⟨last.offset - keyword.span.start, ?_, ?_⟩
  · have size := congrArg byteSize splits
    rw [byteSize_append] at size
    rw [stripped, byteSize_append]
    omega
  · have seam : Lexer.Approaches (last.offset - keyword.span.start) (last.arm false)
        (Lexer.ofText 0 (stripPackageClause text)) := by
      rw [stripped, Lexer.ofText_instead splits' last.rest noMark, isLexer]
      refine ⟨?_, rfl, front, rfl, skips last.rest, ?_⟩
      · obtain ⟨between, first, second⟩ := clause.reads
        have source := onward.source
        rw [(Lexer.Reads.of_next answered).source, (Lexer.Reads.of_next second).source,
          (Lexer.Reads.of_next first).source, isLexer] at source
        exact source.symm
      · rw [byteSize_append] at start
        show last.offset = byteSize (leadingMark text) + byteSize front + (last.offset - keyword.span.start)
        omega
    have approaches := onward.trans seam
    rwa [Nat.zero_add] at approaches

end PackageClause

end

/-- Sourcing drops exactly the package clause. Behind a package clause with its semicolon, the text without the clause
has the answers of the text with it, faults included, with their spans moved by as much as is cut out. The exception is
a byte-order mark behind a clause at the very start of the text. Without a package clause, the text stays as it is. -/
theorem stripPackageClause_steps (text : List Char) :
    (∀ {keyword name semicolon : Token} {behind after : Lexer} {which : SemicolonKind},
      PackageClause text keyword name behind → behind.next = (.ok (.token semicolon), after) →
      semicolon.kind = .semicolon which →
      (keyword.span.start = 0 → which = .explicit → after.rest.head? ≠ some byteOrderMark) →
      ∃ cut, byteSize (stripPackageClause text) + cut = byteSize text ∧
        ∀ number, (∀ earlier ≤ number, ¬ Stalls (after.answerAt earlier)) →
          after.answerAt number = movedAnswer cut ((Lexer.ofText 0 (stripPackageClause text)).answerAt number)) ∧
    ((∀ keyword name behind, ¬ PackageClause text keyword name behind) → stripPackageClause text = text) := by
  refine ⟨fun clause answered isSemicolon apart => ?_, stripPackageClause_eq_self⟩
  obtain ⟨cut, size, approaches⟩ := clause.approaches answered isSemicolon apart
  exact ⟨cut, size, approaches.answerAt⟩

/-- A comment in front of the clause stays, and so does the end of the line behind it. -/
theorem stripPackageClause_steps_comment : ∃ cut,
    byteSize (stripPackageClause "// p\npackage p\nx".toList) + cut = byteSize "// p\npackage p\nx".toList ∧
      ∀ number, (⟨0, ['x'], 15, false⟩ : Lexer).answerAt number =
        movedAnswer cut ((Lexer.ofText 0 (stripPackageClause "// p\npackage p\nx".toList)).answerAt number) := by
  have clause : PackageClause "// p\npackage p\nx".toList ⟨.keyword .package, "package", Span.ofLength 0 5 7⟩
      ⟨.identifier, "p", Span.ofLength 0 13 1⟩ ⟨0, ['\n', 'x'], 14, true⟩ := ⟨rfl, rfl, _, rfl, rfl⟩
  have answered : (⟨0, ['\n', 'x'], 14, true⟩ : Lexer).next =
      (.ok (.token ⟨.semicolon .newline, "\n", Span.ofLength 0 14 1⟩), ⟨0, ['x'], 15, false⟩) := rfl
  obtain ⟨cut, size, same⟩ := (stripPackageClause_steps _).1 clause answered rfl fun first => absurd first (by decide)
  exact ⟨cut, size, fun number => same number fun earlier _ => Lexer.not_stalls (by decide) earlier⟩

/-- A byte-order mark inside a text is malformed input, but where the clause in front of it is cut out it becomes the
mark at the start of a text, and is skipped. -/
theorem stripPackageClause_mark :
    PackageClause "package p;\uFEFFx".toList ⟨.keyword .package, "package", Span.ofLength 0 0 7⟩
      ⟨.identifier, "p", Span.ofLength 0 8 1⟩ ⟨0, [';', '\uFEFF', 'x'], 9, true⟩ ∧
    (⟨0, [';', '\uFEFF', 'x'], 9, true⟩ : Lexer).next =
      (.ok (.token ⟨.semicolon .explicit, ";", Span.ofLength 0 9 1⟩), ⟨0, ['\uFEFF', 'x'], 10, false⟩) ∧
    (⟨0, ['\uFEFF', 'x'], 10, false⟩ : Lexer).answerAt 0 =
      .error (.malformed (LexCause.byteOrderMark.diagnostic [] (Span.ofLength 0 10 3))) ∧
    (Lexer.ofText 0 (stripPackageClause "package p;\uFEFFx".toList)).answerAt 0 =
      .ok (.token ⟨.identifier, "x", Span.ofLength 0 3 1⟩) :=
  ⟨⟨rfl, rfl, _, rfl, rfl⟩, rfl, rfl, rfl⟩

end GoPrompt
