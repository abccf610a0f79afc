import GoPrompt.Proofs.Lexical.InStep
import GoPrompt.Proofs.Lexical.Places
import GoPrompt.Proofs.Lexical.Reaches
import GoPrompt.Proofs.Lexical.Returns

/-! The same text at another place. What a lexer answers depends on the text ahead, and on the place of this text only
for the spans, which move along with it. -/

namespace GoPrompt

variable {distance : Nat}

def Span.moved (distance : Nat) (span : Span) : Span where
  source := span.source
  start := span.start + distance
  stop := span.stop + distance
  ordered := Nat.add_le_add_right span.ordered distance

private theorem Span.moved_ofLength (source start length : Nat) :
    (Span.ofLength source start length).moved distance = .ofLength source (start + distance) length := by
  simp only [moved, ofLength, mk.injEq, true_and]
  omega

def LexDiagnostic.moved (distance : Nat) (diagnostic : LexDiagnostic) : LexDiagnostic :=
  { diagnostic with span := diagnostic.span.moved distance }

def Cutoff.moved (distance : Nat) (cutoff : Cutoff) : Cutoff :=
  { cutoff with diagnostic := cutoff.diagnostic.moved distance }

def Token.moved (distance : Nat) (token : Token) : Token := { token with span := token.span.moved distance }

def LexStep.moved (distance : Nat) : LexStep → LexStep
  | .token read => .token (read.moved distance)
  | .truncated read cutoff => .truncated (read.moved distance) (cutoff.moved distance)
  | .invalid read diagnostic => .invalid (read.moved distance) (diagnostic.moved distance)
  | .incomplete cutoff => .incomplete (cutoff.moved distance)
  | .endOfInput => .endOfInput

def LexFault.moved (distance : Nat) : LexFault → LexFault
  | .malformed diagnostic => .malformed (diagnostic.moved distance)
  | .invariant diagnostic => .invariant (diagnostic.moved distance)
  | .stalled diagnostic => .stalled (diagnostic.moved distance)

/-- An answer of a lexer with its spans at another place, and with everything else as it is. -/
def movedAnswer (distance : Nat) : Except LexFault LexStep → Except LexFault LexStep
  | .ok step => .ok (step.moved distance)
  | .error fault => .error (fault.moved distance)

/-- The answer of a lexer that scans beyond the last offset. -/
def Stalls (answer : Except LexFault LexStep) : Prop := ∃ diagnostic, answer = .error (.stalled diagnostic)

namespace Lexer

def moved (distance : Nat) (lexer : Lexer) : Lexer := { lexer with offset := lexer.offset + distance }

section

variable (lexer : Lexer) (length : Nat)

private theorem moved_skip : (lexer.moved distance).skip length = (lexer.skip length).moved distance := by
  simp only [moved, skip, mk.injEq, true_and, and_true]
  omega

private theorem moved_span : (lexer.moved distance).span length = (lexer.span length).moved distance :=
  (Span.moved_ofLength ..).symm

private theorem moved_token (kind : TokenKind) :
    (lexer.moved distance).token kind length = (lexer.token kind length).moved distance := by
  simp only [token, moved_span]
  rfl

private theorem moved_malformed (cause : LexCause) :
    (lexer.moved distance).malformed cause = (lexer.malformed cause).moved distance := by
  rw [malformed, moved_span]
  rfl

private theorem moved_flawDiagnostic (flaw : Flaw) :
    (lexer.moved distance).flawDiagnostic flaw = (lexer.flawDiagnostic flaw).moved distance := by
  simp only [flawDiagnostic, moved_skip, moved_span]
  rfl

private theorem moved_accept (scan : TokenScan) : (lexer.moved distance).accept scan =
    (movedAnswer distance (lexer.accept scan).1, (lexer.accept scan).2.moved distance) := by
  unfold accept
  simp only [moved_skip, moved_token, moved_flawDiagnostic, moved_span]
  split
  next => rfl
  next =>
    by_cases ended : (lexer.skip scan.length).rest.isEmpty = true
    · rw [if_pos ended, if_pos (show ((lexer.skip scan.length).moved distance).rest.isEmpty = true from ended)]
      rfl
    · rw [if_neg ended, if_neg (show ¬ ((lexer.skip scan.length).moved distance).rest.isEmpty = true from ended)]
      rw [invariant, moved_span]
      rfl
  next => rfl

private theorem moved_stepAt (landmark : Landmark) : (lexer.moved distance).stepAt landmark =
    (movedAnswer distance (lexer.stepAt landmark).1, (lexer.stepAt landmark).2.moved distance) := by
  cases landmark with
  | token first =>
    simp only [stepAt, moved_malformed, moved_accept]
    split
    · rfl
    · split
      · rfl
      · rfl
  | lineEnd length =>
    simp only [stepAt, moved_skip, moved_token]
    rfl
  | openComment length =>
    simp only [stepAt, moved_skip, moved_span]
    rfl
  | nulInComment length =>
    simp only [stepAt, moved_skip, moved_malformed]
    rfl
  | endOfInput =>
    simp only [stepAt, moved_token]
    split
    next armed => rw [if_pos (show lexer.armed = true from armed)]; rfl
    next unarmed => rw [if_neg (show ¬ lexer.armed = true from unarmed)]; rfl

end

theorem not_stalls {lexer : Lexer} (fits : lexer.offset + byteSize lexer.rest ≤ maxOffset) (number : Nat) :
    ¬ Stalls (lexer.answerAt number) := by
  induction number generalizing lexer with
  | zero =>
    rintro ⟨diagnostic, failed⟩
    obtain ⟨_, same⟩ := next_fault fits failed
    cases same
  | succ number ih => exact ih (lexer.next_place.symm ▸ fits)

/-- A lexer that comes, by skipping, to the same text as the other one, which is at a distance from it. -/
structure Approaches (distance : Nat) (lexer lexer' : Lexer) : Prop where
  source : lexer'.source = lexer.source
  armed : lexer'.armed = lexer.armed
  ahead : ∃ skipped, lexer'.rest = skipped ++ lexer.rest ∧
    gap lexer.armed 0 0 lexer'.rest = gap lexer.armed 0 skipped.length lexer.rest ∧
    lexer.offset = lexer'.offset + byteSize skipped + distance

section

variable {lexer lexer' : Lexer}

theorem approaches_moved (distance : Nat) (lexer : Lexer) : Approaches distance (lexer.moved distance) lexer :=
  ⟨rfl, rfl, [], rfl, rfl, rfl⟩

theorem Approaches.trans {distance' : Nat} {lexer'' : Lexer} (approaches : Approaches distance lexer lexer')
    (approaches' : Approaches distance' lexer' lexer'') : Approaches (distance + distance') lexer lexer'' := by
  obtain ⟨skipped, rest, same, place⟩ := approaches.ahead
  obtain ⟨skipped', rest', same', place'⟩ := approaches'.ahead
  refine ⟨approaches'.source.trans approaches.source, approaches'.armed.trans approaches.armed,
    skipped' ++ skipped, ?_, ?_, ?_⟩
  · rw [rest', rest, List.append_assoc]
  · have shifted := gap_shift lexer.armed 0 0 skipped'.length lexer'.rest
    have shifted' := gap_shift lexer.armed 0 skipped.length skipped'.length lexer.rest
    rw [approaches.armed] at same'
    rw [same', List.length_append, Nat.add_comm skipped'.length, shifted', ← same, ← shifted, Nat.zero_add]
  · rw [byteSize_append]
    omega

/-- Where a semicolon is inserted, a lexer that inserts none goes on to the text behind it. -/
theorem Reads.approaches {token : Token} {after : Lexer} (reads : lexer.Reads (.token token) after)
    (inserted : token.kind = .semicolon .newline ∨ token.kind = .semicolon .endOfInput) :
    Approaches 0 after (lexer.arm false) := by
  have source := reads.source.symm
  -- What is skipped up to the semicolon, and what the semicolon takes, is one gap.
  have goesOn : ∀ {stop : Nat} {landmark : Landmark}, gap lexer.armed 0 0 lexer.rest =
    (stop, landmark) → lexer.armed = true →
      stop + landmark.lineLength ≤ lexer.rest.length → after.armed = false →
      after.rest = lexer.rest.drop (stop + landmark.lineLength) →
      after.offset = lexer.offset + byteSize (lexer.rest.take (stop + landmark.lineLength)) →
        Approaches 0 after (lexer.arm false) := by
    intro stop landmark skipped armed within unarmed rest place
    rw [armed] at skipped
    have onward := gap_unarmed skipped
    refine ⟨source, unarmed.symm, lexer.rest.take (stop + landmark.lineLength), ?_, ?_, place⟩
    · rw [rest, List.take_append_drop]
      rfl
    · rw [unarmed, rest, List.length_take_of_le within]
      exact onward
  generalize isStep : LexStep.token token = step at reads
  cases reads with
  | @whole stop first rest length kind skipped here scanned =>
    cases isStep
    have written := scanToken_isWritten (congrArg TokenScan.shape scanned)
    rcases inserted with same | same
    all_goals
      rw [show kind = _ from same] at written
      cases written
  | @lineEnd stop length skipped =>
    obtain ⟨_, _, _, _, _, _, armed, _⟩ := gap_skips skipped
    have within := gap_lineEnd_le skipped
    rw [Nat.zero_add] at within
    refine goesOn skipped armed within rfl (List.drop_drop ..) ?_
    simp only [Lexer.skip, Lexer.arm, Landmark.lineLength, List.take_add, byteSize_append, Nat.add_assoc]
  | @inserted stop skipped armed =>
    obtain ⟨fillers, behind, parts, size, -, -, -⟩ := gap_skips skipped
    refine goesOn skipped armed ?_ rfl rfl rfl
    rw [Nat.sub_zero] at size
    rw [parts, List.length_append, ← size]
    exact Nat.le_add_right _ _
  | cutOff | invalid | openComment | ended => cases isStep

theorem Approaches.advance (approaches : Approaches distance lexer lexer') :
    lexer.advance = (movedAnswer distance lexer'.advance.1, lexer'.advance.2.moved distance) := by
  obtain ⟨skipped, rest, same, place⟩ := approaches.ahead
  rcases found : gap lexer.armed 0 0 lexer.rest with ⟨stop, landmark⟩
  have found' : gap lexer'.armed 0 0 lexer'.rest = (skipped.length + stop, landmark) := by
    have shifted := gap_shift lexer.armed 0 0 skipped.length lexer.rest
    rw [Nat.zero_add, found] at shifted
    rw [approaches.armed, same, shifted, Nat.add_comm]
  have reached : lexer.skip stop = (lexer'.skip (skipped.length + stop)).moved distance := by
    simp only [Lexer.skip, Lexer.moved, approaches.source, approaches.armed, rest, place, List.drop_length_add_append,
      List.take_length_add_append, byteSize_append, mk.injEq, true_and, and_true]
    omega
  simp only [Lexer.advance, found, found', reached, moved_stepAt]

/-- Unless the lexer that is further on runs out of offsets, both answer alike. -/
theorem Approaches.next (approaches : Approaches distance lexer lexer') (goesOn : ¬ Stalls lexer.next.1) :
    lexer.next = (movedAnswer distance lexer'.next.1, lexer'.next.2.moved distance) := by
  have advanced := approaches.advance
  have fits : lexer.advance.2.offset ≤ maxOffset := by
    refine Decidable.byContradiction fun beyond => goesOn ?_
    rw [next_of_stalled beyond]
    exact ⟨_, rfl⟩
  have fits' : lexer'.advance.2.offset ≤ maxOffset := by
    rw [advanced] at fits
    exact Nat.le_trans (Nat.le_add_right _ distance) fits
  rw [next_of_fits fits, next_of_fits fits', advanced]

theorem Approaches.answerAt (approaches : Approaches distance lexer lexer') (number : Nat)
    (goesOn : ∀ earlier ≤ number, ¬ Stalls (lexer.answerAt earlier)) :
    lexer.answerAt number = movedAnswer distance (lexer'.answerAt number) := by
  induction number generalizing lexer lexer' with
  | zero => exact congrArg Prod.fst (approaches.next (goesOn 0 (Nat.le_refl 0)))
  | succ number ih =>
    have stepped := approaches.next (goesOn 0 (Nat.zero_le _))
    show lexer.next.2.answerAt number = movedAnswer distance (lexer'.next.2.answerAt number)
    refine ih ?_ fun earlier before => goesOn (earlier + 1) (Nat.succ_le_succ before)
    rw [stepped]
    exact approaches_moved distance _

end

end Lexer

end GoPrompt
