import GoPrompt.Lexical.Progress

/-! What becomes of a number when the text goes on behind it. Either the longer text is read as the shorter
one is, or the number covers the shorter one and reaches into what was added, which then starts with a character of
numbers. -/

namespace GoPrompt

/-- What is true of all codes below a bound is true of a character with such a code. -/
theorem char_of_code {bound : Nat} {p : Char → Prop} (all : ∀ code < bound, p (Char.ofNat code)) {c : Char}
    (small : c.toNat < bound) : p c := by
  have holds := all c.toNat small
  rwa [Char.ofNat_toNat] at holds

theorem takeWhile_append_or (p : Char → Bool) (text more : List Char) :
    (text ++ more).takeWhile p = text.takeWhile p ∨
      (text.length < ((text ++ more).takeWhile p).length ∧ more.head?.any p = true) := by
  rw [List.takeWhile_append]
  split
  next whole =>
    have all : text = text.takeWhile p := ((List.takeWhile_prefix p).eq_of_length whole).symm
    cases more with
    | nil =>
      left
      rw [List.takeWhile_nil, List.append_nil]
      exact all
    | cons c rest =>
      by_cases passes : p c = true
      · right
        simp [passes]
      · left
        rw [List.takeWhile_cons, if_neg passes, List.append_nil]
        exact all
  next => exact .inl rfl

namespace Number

/-- The characters at which the reading of a number looks. -/
def isOfNumber (c : Char) : Bool :=
  isHexDigit c || ['_', '.', 'x', 'X', 'o', 'O', 'p', 'P', '+', '-', 'i'].contains c

private theorem isOfNumber_of_continues {radix : Radix} {c : Char} (continued : continues radix c = true) :
    isOfNumber c = true := by
  unfold continues at continued
  simp only [isOfNumber, Bool.or_eq_true]
  split at continued
  · rcases Bool.or_eq_true _ _ ▸ continued with separator | digit
    · right
      simp [eq_of_beq separator]
    · left
      simp [isHexDigit, digit]
  · rcases Bool.or_eq_true _ _ ▸ continued with separator | digit
    · right
      simp [eq_of_beq separator]
    · exact .inl digit

section

variable {α β : Type} {size : Nat} {more : List Char}

/-- The reading of a longer text is that of the shorter one, which has `size` characters, or it covers the shorter one
and goes beyond it. -/
def Stays (length : α → Nat) (size : Nat) (more : List Char) (longer shorter : Except Fault α) : Prop :=
  longer = shorter ∨ (size < covered length longer ∧ size ≤ covered length shorter ∧ more.head?.any isOfNumber = true)

theorem Stays.bind {first : α → Nat} {second : β → Nat} {longer shorter : Except Fault α}
    {next later : α → Except Fault β} (stays : Stays first size more longer shorter)
    (within : covered first shorter ≤ size) (grows : ∀ value, first value ≤ covered second (next value))
    (grew : ∀ value, first value ≤ covered second (later value))
    (rest : ∀ value, first value ≤ size → Stays second size more (next value) (later value)) :
    Stays second size more (longer >>= next) (shorter >>= later) := by
  rcases stays with rfl | ⟨beyond, covers, starts⟩
  · cases longer with
    | error fault => exact .inl rfl
    | ok value => exact rest value within
  · refine .inr ⟨?_, ?_, starts⟩
    · cases longer with
      | error fault => exact beyond
      | ok value => exact Nat.lt_of_lt_of_le beyond (grows value)
    · cases shorter with
      | error fault => exact covers
      | ok value => exact Nat.le_trans covers (grew value)

end

section

variable (radix : Radix) (text more : List Char)

private theorem run_append : run radix (text ++ more) = run radix text ∨
    (text.length < (run radix (text ++ more)).length ∧ (run radix text).length = text.length ∧
      more.head?.any isOfNumber = true) := by
  refine (takeWhile_append_or (continues radix) text more).imp_right fun ⟨beyond, next⟩ => ⟨beyond, ?_, ?_⟩
  · rw [List.takeWhile_append] at beyond
    split at beyond
    next whole => exact whole
    next => exact absurd beyond (Nat.not_lt.mpr (List.takeWhile_sublist _).length_le)
  · obtain ⟨c, starts, continued⟩ := (Option.any_eq_true _ _).mp next
    exact (Option.any_eq_true _ _).mpr ⟨c, starts, isOfNumber_of_continues continued⟩

private theorem run_length_le : (run radix text).length ≤ text.length := (List.takeWhile_sublist _).length_le

omit radix text more in
private theorem announced_two (c d : Char) (rest : List Char) : announced (c :: d :: rest) = announced [c, d] := by
  by_cases zero : c = '0'
  · subst zero
    by_cases mark : d ∈ ['x', 'X', 'o', 'O', 'b', 'B']
    · simp only [List.mem_cons, List.not_mem_nil, or_false] at mark
      rcases mark with rfl | rfl | rfl | rfl | rfl | rfl <;> rfl
    · simp only [List.mem_cons, List.not_mem_nil, or_false, not_or] at mark
      simp [announced, mark]
  · simp [announced, zero]

omit radix text in
private theorem announced_append {text : List Char} (nonempty : text ≠ []) :
    announced (text ++ more) = announced text ∨
      (text = ['0'] ∧ text.length < (announced (text ++ more)).2 ∧ more.head?.any isOfNumber = true) := by
  match text with
  | c :: d :: rest => exact .inl ((announced_two c d _).trans (announced_two c d rest).symm)
  | [c] =>
    simp only [List.cons_append, List.nil_append]
    unfold announced
    split <;> simp_all <;> decide

private theorem announced_le : (announced text).2 ≤ text.length := by
  unfold announced
  split <;> simp

end

/-- A mantissa whose whole part is read, in front of the rest of the text. -/
def mantissaBehind (radix : Radix) (whole : List Char) (length : Nat) (rest : List Char) : Except Fault Mantissa :=
  let checked (read : Mantissa) : Except Fault Mantissa :=
    if hasDigits read.digits then .ok read else .error ⟨read.length, read.kind, .noDigits radix, true⟩
  match rest with
  | '.' :: rest =>
    if radix = .octal ∨ radix = .binary then .error ⟨length + 1, .float, .radixPoint radix, false⟩
    else checked ⟨radix, whole ++ run radix rest, true, length + 1 + (run radix rest).length⟩
  | _ => checked ⟨radix, whole, false, length⟩

theorem mantissaBehind_of_ne {radix : Radix} {whole rest : List Char} {length : Nat}
    (other : ∀ tail, rest ≠ '.' :: tail) :
    mantissaBehind radix whole length rest =
      if hasDigits whole then .ok ⟨radix, whole, false, length⟩
      else .error ⟨length, (⟨radix, whole, false, length⟩ : Mantissa).kind, .noDigits radix, true⟩ := by
  unfold mantissaBehind
  split
  next => exact absurd rfl (other _)
  next => rfl

theorem mantissa_eq (text : List Char) :
    mantissa text =
      let whole := run (announced text).1 (text.drop (announced text).2)
      let length := (announced text).2 + whole.length
      mantissaBehind (announced text).1 whole length (text.drop length) := by
  unfold mantissa
  dsimp only
  generalize text.drop ((announced text).2 + (run (announced text).1 (text.drop (announced text).2)).length) = behind
  by_cases point : ∃ tail, behind = '.' :: tail
  · obtain ⟨tail, rfl⟩ := point
    unfold mantissaBehind
    by_cases pointless : (announced text).1 = .octal ∨ (announced text).1 = .binary
    · simp only [pointless, ↓reduceIte]
      rfl
    · simp only [pointless, ↓reduceIte]
      rfl
  · have other : ∀ tail, behind ≠ '.' :: tail := fun tail same => point ⟨tail, same⟩
    rw [mantissaBehind_of_ne other]
    split
    next => exact absurd rfl (other _)
    next => rfl

section

variable {radix : Radix} {whole text more : List Char} {length : Nat}

private theorem le_covered_behind : length ≤ covered Mantissa.length (mantissaBehind radix whole length text) := by
  unfold mantissaBehind
  dsimp only
  split
  · split
    · simp [covered]
    · split <;> simp only [covered] <;> omega
  · split <;> simp [covered]

private theorem covered_behind_le :
    covered Mantissa.length (mantissaBehind radix whole length text) ≤ length + text.length := by
  unfold mantissaBehind
  dsimp only
  split
  next rest =>
    have := run_length_le radix rest
    split
    · simp only [covered, List.length_cons]
      omega
    · split <;> simp only [covered, List.length_cons] <;> omega
  · split <;> simp [covered]

/-- What stands behind the whole part is read alike in the longer text. -/
private theorem mantissaBehind_append : Stays Mantissa.length (length + text.length) more
    (mantissaBehind radix whole length (text ++ more)) (mantissaBehind radix whole length text) := by
  have pointed : ∀ rest : List Char,
      length < covered Mantissa.length (mantissaBehind radix whole length ('.' :: rest)) := by
    intro rest
    simp only [mantissaBehind]
    split
    · simp [covered]
    · split <;> simp only [covered] <;> omega
  have pointless : ∀ {text : List Char}, text.head? ≠ some '.' →
      mantissaBehind radix whole length text = mantissaBehind radix whole length [] := by
    intro text other
    unfold mantissaBehind
    dsimp only
    split
    · simp at other
    · rfl
  by_cases point : (text ++ more).head? = some '.'
  · cases text with
    | nil =>
      cases more with
      | nil => cases point
      | cons c rest =>
        obtain rfl : c = '.' := by simpa using point
        exact .inr ⟨pointed rest, le_covered_behind, rfl⟩
    | cons c rest =>
      obtain rfl : c = '.' := by simpa using point
      rcases run_append radix rest more with same | ⟨beyond, whole, starts⟩
      · left
        simp only [mantissaBehind, List.cons_append, same]
      · by_cases refused : radix = .octal ∨ radix = .binary
        · left
          simp only [mantissaBehind, List.cons_append, refused, ↓reduceIte]
        · refine .inr ⟨?_, ?_, starts⟩
          · simp only [mantissaBehind, List.cons_append, refused, ↓reduceIte, List.length_cons]
            split <;> simp only [covered] <;> omega
          · simp only [mantissaBehind, refused, ↓reduceIte, List.length_cons, whole]
            split <;> simp only [covered] <;> omega
  · left
    rw [pointless point]
    cases text with
    | nil => rfl
    | cons c rest => exact (pointless (by simpa using point)).symm

private theorem covered_mantissa_le (text : List Char) : covered Mantissa.length (mantissa text) ≤ text.length := by
  have announced := announced_le text
  have whole := run_length_le (Number.announced text).1 (text.drop (Number.announced text).2)
  rw [mantissa_eq]
  refine Nat.le_trans covered_behind_le ?_
  simp only [List.length_drop] at whole ⊢
  omega

private theorem mantissa_append (nonempty : text ≠ []) :
    Stays Mantissa.length text.length more (mantissa (text ++ more)) (mantissa text) := by
  rw [mantissa_eq, mantissa_eq text]
  dsimp only
  rcases announced_append more nonempty with same | ⟨isZero, beyond, starts⟩
  · have announcedWithin := announced_le text
    rw [same, List.drop_append_of_le_length announcedWithin]
    have wholeWithin := run_length_le (announced text).1 (text.drop (announced text).2)
    rw [List.length_drop] at wholeWithin
    rcases run_append (announced text).1 (text.drop (announced text).2) more with same | ⟨beyond, whole, starts⟩
    · rw [same, List.drop_append_of_le_length (by omega)]
      have behind := @mantissaBehind_append (announced text).1 (run (announced text).1 (text.drop (announced text).2))
        (text.drop ((announced text).2 + (run (announced text).1 (text.drop (announced text).2)).length)) more
        ((announced text).2 + (run (announced text).1 (text.drop (announced text).2)).length)
      rwa [List.length_drop, Nat.add_sub_cancel' (by omega)] at behind
    · rw [List.length_drop] at beyond whole
      exact .inr ⟨Nat.lt_of_lt_of_le (by omega) le_covered_behind, Nat.le_trans (by omega) le_covered_behind, starts⟩
  · refine .inr ⟨Nat.lt_of_lt_of_le ?_ le_covered_behind, ?_, starts⟩
    · omega
    · rw [isZero]
      decide

private theorem signLength_append (text more : List Char) : signLength (text ++ more) = signLength text ∨
    (text = [] ∧ text.length < signLength (text ++ more) ∧ more.head?.any isOfNumber = true) := by
  cases text with
  | cons c rest =>
    left
    unfold signLength
    split <;> split <;> simp_all
  | nil =>
    unfold signLength
    rw [List.nil_append]
    split
    · exact .inr ⟨rfl, Nat.one_pos, rfl⟩
    · exact .inr ⟨rfl, Nat.one_pos, rfl⟩
    · exact .inl rfl

private theorem signLength_le (text : List Char) : signLength text ≤ text.length := by
  unfold signLength
  split <;> simp

private theorem le_covered_exponentDigits : length + signLength (text.drop length) +
    (run .decimal (text.drop (length + signLength (text.drop length)))).length ≤
      covered Prod.snd (exponentDigits text length) := by
  unfold exponentDigits
  dsimp only
  split <;> exact Nat.le_refl _

private theorem covered_exponentDigits_le (within : length ≤ text.length) :
    covered Prod.snd (exponentDigits text length) ≤ text.length := by
  have sign := signLength_le (text.drop length)
  have digits := run_length_le .decimal (text.drop (length + signLength (text.drop length)))
  rw [List.length_drop] at sign digits
  unfold exponentDigits
  dsimp only
  split <;> simp only [covered] <;> omega

private theorem exponentDigits_append (within : length ≤ text.length) : Stays Prod.snd text.length more
    (exponentDigits (text ++ more) length) (exponentDigits text length) := by
  have reached := @le_covered_exponentDigits (text ++ more) length
  have signWithin := signLength_le (text.drop length)
  rw [List.length_drop] at signWithin
  rw [List.drop_append_of_le_length within] at reached
  rcases signLength_append (text.drop length) more with same | ⟨ended, beyond, starts⟩
  · rw [same, List.drop_append_of_le_length (by omega)] at reached
    rcases run_append .decimal (text.drop (length + signLength (text.drop length))) more with
      digits | ⟨beyond, whole, starts⟩
    · left
      simp only [exponentDigits, List.drop_append_of_le_length within, same,
        List.drop_append_of_le_length (show length + signLength (text.drop length) ≤ text.length by omega), digits]
    · have reachedWithin := @le_covered_exponentDigits text length
      rw [List.length_drop] at beyond whole
      exact .inr ⟨Nat.lt_of_lt_of_le (by omega) reached, Nat.le_trans (by omega) reachedWithin, starts⟩
  · refine .inr ⟨Nat.lt_of_lt_of_le ?_ reached, ?_, starts⟩
    · rw [List.length_drop] at beyond
      omega
    · exact Nat.le_trans (List.drop_eq_nil_iff.mp ended) (length_le_covered_exponentDigits text length)

end

def announcesExponent (c : Char) : Bool := ['e', 'E', 'p', 'P'].contains c

/-- What follows a mantissa, by the character behind it and the reading of the digits behind that. -/
def exponentAt (read : Mantissa) (digits : Except Fault (LiteralKind × Nat)) (mark : Option Char) :
    Except Fault (LiteralKind × Nat) :=
  match mark with
  | some 'e' | some 'E' =>
    if read.radix = .decimal ∨ read.radix = .legacyOctal then digits
    else .error ⟨read.length + 1, read.kind, .decimalExponent, false⟩
  | some 'p' | some 'P' =>
    if read.radix = .hexadecimal then digits else .error ⟨read.length + 1, read.kind, .binaryExponent, false⟩
  | _ =>
    if read.radix = .hexadecimal ∧ read.hasPoint then .error ⟨read.length, .float, .noBinaryExponent, true⟩
    else .ok (read.kind, read.length)

section

variable {text more : List Char} {read : Mantissa}

theorem exponent_eq : exponent text read =
    exponentAt read (exponentDigits text (read.length + 1)) (text.drop read.length).head? := by
  unfold exponent exponentAt
  cases text.drop read.length with
  | nil => rfl
  | cons c rest =>
    split <;> simp_all

private theorem lt_covered_exponent (announced : (text.drop read.length).head?.any announcesExponent = true) :
    read.length < covered Prod.snd (exponent text read) := by
  have digits := length_le_covered_exponentDigits text (read.length + 1)
  obtain ⟨c, starts, announces⟩ := (Option.any_eq_true _ _).mp announced
  simp only [announcesExponent, List.contains_cons, List.contains_nil, Bool.or_false,
    Bool.or_eq_true, beq_iff_eq] at announces
  rw [exponent_eq, starts]
  rcases announces with rfl | rfl | rfl | rfl
  all_goals
    simp only [exponentAt]
    split
    · omega
    · simp [covered]

theorem exponent_eq_of_none (plain : (text.drop read.length).head?.any announcesExponent = false) :
    exponent text read = exponentAt read (exponentDigits text (read.length + 1)) none := by
  rw [exponent_eq]
  unfold exponentAt
  split
  all_goals first | rfl | simp_all [announcesExponent]

private theorem covered_exponent_le (within : read.length ≤ text.length) :
    covered Prod.snd (exponent text read) ≤ text.length := by
  cases announced : (text.drop read.length).head?.any announcesExponent with
  | false =>
    rw [exponent_eq_of_none announced]
    simp only [exponentAt]
    split <;> exact within
  | true =>
    have inside : read.length + 1 ≤ text.length := by
      cases rest : text.drop read.length with
      | nil => simp [rest] at announced
      | cons c tail =>
        have := congrArg List.length rest
        simp only [List.length_drop, List.length_cons] at this
        omega
    have digits := covered_exponentDigits_le inside
    rw [exponent_eq]
    unfold exponentAt
    split <;> split <;> first | exact digits | (simp only [covered]; omega)

private theorem exponent_append (within : read.length ≤ text.length) :
    Stays Prod.snd text.length more (exponent (text ++ more) read) (exponent text read) := by
  cases rest : text.drop read.length with
  | nil =>
    have ended : text.length = read.length := by
      have := List.drop_eq_nil_iff.mp rest
      omega
    cases announced : more.head?.any announcesExponent with
    | true =>
      refine .inr ⟨ended ▸ lt_covered_exponent (by rwa [List.drop_append_of_le_length within, rest]),
        ended ▸ length_le_covered_exponent text read, ?_⟩
      obtain ⟨c, starts, announces⟩ := (Option.any_eq_true _ _).mp announced
      refine (Option.any_eq_true _ _).mpr ⟨c, starts, ?_⟩
      simp only [announcesExponent, List.contains_cons, List.contains_nil, Bool.or_false,
        Bool.or_eq_true, beq_iff_eq] at announces
      rcases announces with rfl | rfl | rfl | rfl <;> decide
    | false =>
      left
      rw [exponent_eq_of_none (by rwa [List.drop_append_of_le_length within, rest]),
        exponent_eq_of_none (by simp [rest])]
      rfl
  | cons c tail =>
    have inside : read.length + 1 ≤ text.length := by
      have := congrArg List.length rest
      simp only [List.length_drop, List.length_cons] at this
      omega
    have digits := @exponentDigits_append text more (read.length + 1) inside
    have stay : ∀ result : Except Fault (LiteralKind × Nat), Stays Prod.snd text.length more result result :=
      fun _ => .inl rfl
    rw [exponent_eq, exponent_eq, List.drop_append_of_le_length within, rest]
    simp only [List.cons_append, List.head?_cons]
    unfold exponentAt
    split <;> split <;> first | exact digits | exact stay _

end

/-- The end of a number, by the character behind it. -/
def endAt (kind : LiteralKind) (length : Nat) (behind : Option Char) : LiteralKind × Nat :=
  if behind = some 'i' then (.imaginary, length + 1) else (kind, length)

/-- The judgement over a number that is read to its end. -/
def judged (text : List Char) (mark : Nat) (read : Mantissa) (kind : LiteralKind) (length : Nat) :
    Except Fault (LiteralKind × Nat) :=
  let separated : Except Fault (LiteralKind × Nat) :=
    match misplacedSeparator? mark (text.take length) with
    | some index => .error ⟨length, kind, .separator, index + 1 == length⟩
    | none => .ok (kind, length)
  match wrongDigit? read.radix read.digits with
  | some digit =>
    if read.radix ≠ .legacyOctal then .error ⟨length, kind, .digit digit read.radix, false⟩
    else if kind = .int then .error ⟨length, kind, .digit digit read.radix, true⟩
    else separated
  | none => separated

/-- Behind the exponent, the number is read to its end and judged. -/
def finish (text : List Char) (mark : Nat) (read : Mantissa) (value : LiteralKind × Nat) :
    Except Fault (LiteralKind × Nat) :=
  let ended := endAt value.1 value.2 (text.drop value.2).head?
  judged text mark read ended.1 ended.2

theorem read_eq (text : List Char) : Number.read text =
    (mantissa text >>= fun read => exponent text read >>= finish text (announced text).2 read) := by
  unfold Number.read
  refine congrArg (mantissa text >>= ·) (funext fun read =>
    congrArg (exponent text read >>= ·) (funext fun value => ?_))
  obtain ⟨kind, length⟩ := value
  have judgement : ∀ (kind : LiteralKind) (length : Nat), (do
      match wrongDigit? read.radix read.digits with
      | some digit =>
        if read.radix ≠ .legacyOctal then .error ⟨length, kind, .digit digit read.radix, false⟩
        else if kind = .int then .error ⟨length, kind, .digit digit read.radix, true⟩
      | none => pure ()
      match misplacedSeparator? (announced text).2 (text.take length) with
      | some index => .error ⟨length, kind, .separator, index + 1 == length⟩
      | none => .ok (kind, length)) = judged text (announced text).2 read kind length := by
    intro kind length
    unfold judged
    cases wrongDigit? read.radix read.digits with
    | none => rfl
    | some digit =>
      dsimp only
      split
      · rfl
      · split <;> rfl
  unfold finish endAt
  dsimp only
  cases text.drop length with
  | nil => exact judgement kind length
  | cons c rest =>
    by_cases imaginary : c = 'i'
    · subst imaginary
      exact judgement .imaginary (length + 1)
    · simp only [List.cons.injEq, imaginary, false_and, imp_false, not_false_eq_true, implies_true, List.head?_cons,
        Option.some.injEq, ↓reduceIte]
      exact judgement kind length

section

variable {text more : List Char} {read : Mantissa} {mark : Nat} {kind : LiteralKind} {length : Nat}

private theorem covered_judged : covered Prod.snd (judged text mark read kind length) = length := by
  unfold judged
  dsimp only
  split
  · split
    · rfl
    · split
      · rfl
      · split <;> rfl
  · split <;> rfl

private theorem endAt_bounds (behind : Option Char) : length ≤ (endAt kind length behind).2 ∧
    (endAt kind length behind).2 ≤ length + behind.toList.length := by
  unfold endAt
  split
  next mark => simp [mark]
  next => simp

private theorem le_covered_finish (value : LiteralKind × Nat) :
    value.2 ≤ covered Prod.snd (finish text mark read value) := by
  simp only [finish, covered_judged]
  exact (endAt_bounds _).1

private theorem covered_finish_le {value : LiteralKind × Nat} (within : value.2 ≤ text.length) :
    covered Prod.snd (finish text mark read value) ≤ text.length := by
  simp only [finish, covered_judged]
  refine Nat.le_trans (endAt_bounds _).2 ?_
  have : (text.drop value.2).head?.toList.length ≤ (text.drop value.2).length := by
    cases text.drop value.2 <;> simp
  rw [List.length_drop] at this
  omega

private theorem finish_append {value : LiteralKind × Nat} (within : value.2 ≤ text.length) :
    Stays Prod.snd text.length more (finish (text ++ more) mark read value) (finish text mark read value) := by
  have same : ∀ {kind length}, length ≤ text.length →
      judged (text ++ more) mark read kind length = judged text mark read kind length := by
    intro kind length within
    unfold judged
    rw [List.take_append_of_le_length within]
  unfold finish
  rw [List.drop_append_of_le_length within]
  cases rest : text.drop value.2 with
  | cons c tail =>
    have inside : value.2 + 1 ≤ text.length := by
      have := congrArg List.length rest
      simp only [List.length_drop, List.length_cons] at this
      omega
    left
    refine same (Nat.le_trans (endAt_bounds _).2 ?_)
    simpa using inside
  | nil =>
    by_cases imaginary : more.head? = some 'i'
    · right
      have ended := List.drop_eq_nil_iff.mp rest
      rw [covered_judged, covered_judged]
      simp only [List.nil_append, imaginary, endAt, ↓reduceIte, List.head?_nil, reduceCtorEq]
      exact ⟨by omega, ended, rfl⟩
    · left
      simp only [List.nil_append, endAt, imaginary, ↓reduceIte, List.head?_nil, reduceCtorEq]
      exact same within

end

private theorem bind_covered_le {α β : Type} {first : α → Nat} {second : β → Nat} {size : Nat}
    {reading : Except Fault α} {next : α → Except Fault β} (within : covered first reading ≤ size)
    (rest : ∀ value, first value ≤ size → covered second (next value) ≤ size) :
    covered second (reading >>= next) ≤ size := by
  cases reading with
  | error fault => exact within
  | ok value => exact rest value within

theorem covered_read_le (text : List Char) : covered Prod.snd (Number.read text) ≤ text.length := by
  rw [read_eq]
  refine bind_covered_le (covered_mantissa_le text) fun read within => ?_
  exact bind_covered_le (covered_exponent_le within) fun value within => covered_finish_le within

private theorem le_covered_rest (text : List Char) (mark : Nat) (read : Mantissa) :
    read.length ≤ covered Prod.snd (exponent text read >>= finish text mark read) := by
  refine Nat.le_trans (length_le_covered_exponent text read) ?_
  cases exponent text read with
  | error fault => exact Nat.le_refl _
  | ok value => exact le_covered_finish value

theorem covered_mantissa_le_read (text : List Char) :
    covered Mantissa.length (mantissa text) ≤ covered Prod.snd (Number.read text) := by
  rw [read_eq]
  cases mantissa text with
  | error fault => exact Nat.le_refl _
  | ok read => exact le_covered_rest text _ read

/-- A number in a longer text is the number in the shorter one, or it goes beyond it. A number in front of the end of
the shorter text does not. -/
theorem read_append {text : List Char} (nonempty : text ≠ []) (more : List Char) :
    Stays Prod.snd text.length more (Number.read (text ++ more)) (Number.read text) := by
  rcases announced_append more nonempty with same | ⟨isZero, beyond, starts⟩
  · rw [read_eq, read_eq text, same]
    refine (mantissa_append nonempty).bind (covered_mantissa_le text) (le_covered_rest _ _) (le_covered_rest _ _)
      fun read within => ?_
    exact (exponent_append within).bind (covered_exponent_le within) le_covered_finish le_covered_finish
      fun value => finish_append
  · refine .inr ⟨Nat.lt_of_lt_of_le beyond ?_, ?_, starts⟩
    · refine Nat.le_trans ?_ (covered_mantissa_le_read (text ++ more))
      rw [mantissa_eq]
      exact Nat.le_trans (Nat.le_add_right _ _) le_covered_behind
    · rw [isZero]
      decide

theorem read_append_of_plain {text more : List Char} (nonempty : text ≠ []) (plain : more.head?.any isOfNumber = false) :
    Number.read (text ++ more) = Number.read text := by
  refine (read_append nonempty more).resolve_right ?_
  rintro ⟨-, -, starts⟩
  rw [plain] at starts
  cases starts

end Number

end GoPrompt
