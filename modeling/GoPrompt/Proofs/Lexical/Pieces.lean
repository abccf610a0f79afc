import GoPrompt.Proofs.Lexical.Numbers

/-! The pieces that a number is read in: the mark of its base, its digits, its exponent and its suffix. A number is read
exactly if its pieces fit together, whatever stands behind it that could not belong to it. -/

namespace GoPrompt

/-- What announces a base, in front of the whole part of a number. -/
def Radix.Marks (mark whole : List Char) : Radix → Prop
  | .decimal => mark = [] ∧ whole.head? ≠ some '0'
  | .legacyOctal => mark = [] ∧ whole.head? = some '0'
  | .hexadecimal => mark = ['0', 'x'] ∨ mark = ['0', 'X']
  | .octal => mark = ['0', 'o'] ∨ mark = ['0', 'O']
  | .binary => mark = ['0', 'b'] ∨ mark = ['0', 'B']

namespace Number

/-- A number up to its exponent. -/
structure Front where
  radix : Radix
  mark : List Char
  whole : List Char
  fraction : Option (List Char)

namespace Front

def point (front : Front) : List Char := front.fraction.elim [] ('.' :: ·)

def chars (front : Front) : List Char := front.mark ++ (front.whole ++ front.point)

def digits (front : Front) : List Char := front.whole ++ front.fraction.getD []

/-- What the reader knows of the pieces. -/
def mantissa (front : Front) : Mantissa := ⟨front.radix, front.digits, front.fraction.isSome, front.chars.length⟩

structure Fits (front : Front) : Prop where
  marks : front.radix.Marks front.mark front.whole
  whole : ∀ c ∈ front.whole, continues front.radix c = true
  fraction : ∀ digits ∈ front.fraction, ∀ c ∈ digits, continues front.radix c = true
  hasDigits : Number.hasDigits front.digits = true
  point : front.fraction.isSome = true → ¬ (front.radix = .octal ∨ front.radix = .binary)

/-- The pieces as they are while the number is written, perhaps without a digit. -/
structure Begun (front : Front) : Prop where
  marks : front.radix.Marks front.mark front.whole
  whole : ∀ c ∈ front.whole, continues front.radix c = true
  fraction : ∀ digits ∈ front.fraction, ∀ c ∈ digits, continues front.radix c = true
  point : front.fraction.isSome = true → ¬ (front.radix = .octal ∨ front.radix = .binary)

theorem Fits.begun {front : Front} (fits : front.Fits) : front.Begun :=
  ⟨fits.marks, fits.whole, fits.fraction, fits.point⟩

theorem Begun.fits {front : Front} (begun : front.Begun) (hasDigits : Number.hasDigits front.digits = true) :
    front.Fits :=
  ⟨begun.marks, begun.whole, begun.fraction, hasDigits, begun.point⟩

/-- What the reader makes of the pieces: they may lack digits. -/
def read (front : Front) : Except Fault Mantissa :=
  if Number.hasDigits front.digits then .ok front.mantissa
  else .error ⟨front.chars.length, front.mantissa.kind, .noDigits front.radix, true⟩

end Front

/-- Whether the text does not go on with a character of the given sort. -/
def Stops (p : Char → Bool) (text : List Char) : Prop := text.head?.any p = false

private theorem run_stops {radix : Radix} {digits behind : List Char}
    (continued : ∀ c ∈ digits, continues radix c = true) (stops : Stops (continues radix) behind) :
    run radix (digits ++ behind) = digits := by
  have nothing : behind.takeWhile (continues radix) = [] := by
    cases behind with
    | nil => rfl
    | cons c rest => exact List.takeWhile_cons_of_neg (Bool.eq_false_iff.mp stops)
  rw [run, List.takeWhile_append_of_pos continued, nothing, List.append_nil]

private theorem mem_run {radix : Radix} {text : List Char} {c : Char} (mem : c ∈ run radix text) :
    continues radix c = true :=
  List.all_eq_true.mp List.all_takeWhile c mem

private theorem run_append_drop (radix : Radix) (text : List Char) :
    text = run radix text ++ text.drop (run radix text).length :=
  (List.prefix_iff_eq_append.mp (List.takeWhile_prefix _)).symm

private theorem announced_sound (text : List Char) :
    ∃ mark behind, text = mark ++ behind ∧ (announced text).2 = mark.length ∧
    (announced text).1.Marks mark (run (announced text).1 behind) := by
  unfold announced
  split
  next rest => exact ⟨['0', 'x'], rest, rfl, rfl, .inl rfl⟩
  next rest => exact ⟨['0', 'X'], rest, rfl, rfl, .inr rfl⟩
  next rest => exact ⟨['0', 'o'], rest, rfl, rfl, .inl rfl⟩
  next rest => exact ⟨['0', 'O'], rest, rfl, rfl, .inr rfl⟩
  next rest => exact ⟨['0', 'b'], rest, rfl, rfl, .inl rfl⟩
  next rest => exact ⟨['0', 'B'], rest, rfl, rfl, .inr rfl⟩
  next rest _ _ _ _ _ _ => exact ⟨[], '0' :: rest, rfl, rfl, rfl, rfl⟩
  next notZero =>
    refine ⟨[], text, rfl, rfl, rfl, fun starts => ?_⟩
    cases text with
    | nil => cases starts
    | cons c rest =>
      rw [run, List.takeWhile_cons] at starts
      split at starts
      · obtain rfl := Option.some.inj starts
        exact notZero rest rfl
      · cases starts

/-- What is read as a mantissa are pieces of a number, unless there is a point that no digit behind it can mend. -/
theorem mantissa_cases (text : List Char) : (∃ fault, Number.mantissa text = .error fault ∧ fault.reparable = false) ∨
    ∃ front behind, text = Front.chars front ++ behind ∧ (announced text).2 = front.mark.length ∧ front.Begun ∧
      Number.mantissa text = front.read := by
  obtain ⟨mark, behind, rfl, size, marks⟩ := announced_sound text
  rw [mantissa_eq]
  dsimp only
  generalize (announced (mark ++ behind)).1 = radix at marks
  rw [size, List.drop_left, List.drop_append, List.drop_eq_nil_of_le (Nat.le_add_right _ _), List.nil_append,
    Nat.add_sub_cancel_left]
  have parts := run_append_drop radix behind
  have continued : ∀ c ∈ run radix behind, continues radix c = true := fun _ => mem_run
  generalize behind.drop (run radix behind).length = rest at parts
  generalize run radix behind = whole at parts marks continued
  subst parts
  by_cases point : ∃ tail, rest = '.' :: tail
  · obtain ⟨tail, rfl⟩ := point
    simp only [mantissaBehind]
    split
    next => exact .inl ⟨_, rfl, rfl⟩
    next pointed =>
      refine .inr ⟨⟨radix, mark, whole, some (run radix tail)⟩, tail.drop (run radix tail).length, ?_, rfl,
        ⟨marks, continued, ?_, fun _ => pointed⟩, ?_⟩
      · simp only [Front.chars, Front.point, Option.elim_some, List.append_assoc, List.cons_append]
        rw [← run_append_drop]
      · rintro digits ⟨⟩ c mem
        exact mem_run mem
      · simp only [Front.read, Front.mantissa, Front.digits, Front.chars, Front.point,
          Option.getD_some, Option.isSome_some, Option.elim_some, List.length_append, List.length_cons]
        rw [show mark.length + whole.length + 1 + (run radix tail).length =
          mark.length + (whole.length + ((run radix tail).length + 1)) by omega]
  · refine .inr ⟨⟨radix, mark, whole, none⟩, rest, ?_, rfl,
        ⟨marks, continued, fun _ isSome => (by cases isSome), fun isSome =>
      (by cases isSome)⟩, ?_⟩
    · simp only [Front.chars, Front.point, Option.elim_none, List.append_nil, List.append_assoc]
    · rw [mantissaBehind_of_ne fun tail same => point ⟨tail, same⟩]
      simp only [Front.read, Front.mantissa, Front.digits, Front.chars, Front.point,
        Option.getD_none, Option.isSome_none, Option.elim_none, List.append_nil, List.length_append]

private theorem mantissa_sound {text : List Char} {mantissa : Mantissa} (read : Number.mantissa text = .ok mantissa) :
    ∃ front behind, text = Front.chars front ++ behind ∧ (announced text).2 = front.mark.length ∧ front.Fits ∧
      mantissa = front.mantissa := by
  rcases mantissa_cases text with ⟨fault, failed, -⟩ | ⟨front, behind, parts, size, begun, same⟩
  · rw [failed] at read
    cases read
  · rw [same, Front.read] at read
    split at read
    next hasDigits => exact ⟨front, behind, parts, size, begun.fits hasDigits, (Except.ok.inj read).symm⟩
    next => cases read

/-- The characters that could make another base of the beginning of a number. -/
def announces (c : Char) : Bool := c.isDigit || ['x', 'X', 'o', 'O', 'b', 'B'].contains c

private theorem announced_complete {radix : Radix} {mark whole behind : List Char} (marks : radix.Marks mark whole)
    (continued : ∀ c ∈ whole, continues radix c = true) (stops : Stops announces behind) :
    announced (mark ++ (whole ++ behind)) = (radix, mark.length) := by
  cases radix with
  | decimal =>
    obtain ⟨rfl, notZero⟩ := marks
    have other : ∀ rest, whole ++ behind ≠ '0' :: rest := by
      intro rest same
      cases whole with
      | nil =>
        obtain rfl : behind = '0' :: rest := same
        cases stops
      | cons c whole =>
        obtain ⟨rfl, -⟩ := List.cons.inj same
        exact notZero rfl
    rw [List.nil_append]
    generalize whole ++ behind = text at other
    unfold announced
    split <;> first | exact absurd rfl (other _) | rfl
  | legacyOctal =>
    obtain ⟨rfl, zero⟩ := marks
    obtain ⟨whole, rfl⟩ := List.head?_eq_some_iff.mp zero
    have next : (whole ++ behind).head?.any (['x', 'X', 'o', 'O', 'b', 'B'].contains ·) = false := by
      cases whole with
      | nil =>
        cases behind with
        | nil => rfl
        | cons c behind => exact (Bool.or_eq_false_iff.mp stops).2
      | cons c whole =>
        have digit := continued c (List.mem_cons_of_mem _ List.mem_cons_self)
        simp only [continues, Radix.base, Bool.or_eq_true, beq_iff_eq, Nat.reduceLeDiff, ↓reduceIte] at digit
        simp only [List.cons_append, List.head?_cons, Option.any_some]
        refine Bool.eq_false_iff.mpr fun mark => ?_
        simp only [List.contains_cons, List.contains_nil, Bool.or_false, Bool.or_eq_true, beq_iff_eq] at mark
        rcases mark with rfl | rfl | rfl | rfl | rfl | rfl <;> revert digit <;> decide
    rw [List.nil_append, List.cons_append]
    generalize whole ++ behind = text at next
    cases text with
    | nil => rfl
    | cons c text =>
      simp only [List.head?_cons, Option.any_some, List.contains_cons, List.contains_nil, Bool.or_false,
        Bool.or_eq_false_iff, beq_eq_false_iff_ne] at next
      simp [announced, next]
  | hexadecimal | octal | binary => rcases marks with rfl | rfl <;> rfl

private theorem not_continues_point (radix : Radix) : continues radix '.' = false := by cases radix <;> decide

theorem announced_front {front : Front} {behind : List Char} (begun : front.Begun) (notMark : Stops announces behind) :
    announced (front.chars ++ behind) = (front.radix, front.mark.length) := by
  have ahead : Stops announces (front.point ++ behind) := by
    obtain ⟨radix, mark, whole, fraction⟩ := front
    cases fraction with
    | none => exact notMark
    | some digits => rfl
  rw [Front.chars, List.append_assoc, List.append_assoc]
  exact announced_complete begun.marks begun.whole ahead

theorem mantissa_begun {front : Front} {behind : List Char} (begun : front.Begun)
    (stops : Stops (continues front.radix) behind) (notPoint : front.fraction = none → behind.head? ≠ some '.')
    (notMark : Stops announces behind) :
    mantissa (front.chars ++ behind) = front.read := by
  have announces := announced_front begun notMark
  obtain ⟨radix, mark, whole, fraction⟩ := front
  have apart : Stops (continues radix) ((⟨radix, mark, whole, fraction⟩ : Front).point ++ behind) := by
    cases fraction with
    | none => exact stops
    | some digits => exact not_continues_point radix
  rw [mantissa_eq, announces, Front.chars, List.append_assoc, List.append_assoc]
  dsimp only
  rw [List.drop_left, run_stops begun.whole apart, List.drop_append, List.drop_eq_nil_of_le (Nat.le_add_right _ _),
    List.nil_append, Nat.add_sub_cancel_left, List.drop_left]
  cases fraction with
  | none =>
    simp only [Front.point, Option.elim_none, List.nil_append, Front.read, Front.mantissa, Front.digits, Front.chars,
      Option.getD_none, List.append_nil, Option.isSome_none, List.length_append]
    rw [mantissaBehind_of_ne fun tail same => notPoint rfl (congrArg List.head? same)]
  | some digits =>
    simp only [Front.point, Option.elim_some, List.cons_append, mantissaBehind, begun.point rfl, ↓reduceIte, Front.read,
      Front.mantissa, Front.digits, Front.chars, Option.getD_some, Option.isSome_some,
      List.length_append, List.length_cons, run_stops (begun.fraction digits rfl) stops]
    rw [show mark.length + whole.length + 1 + digits.length =
      mark.length + (whole.length + (digits.length + 1)) by omega]

/-- An exponent: its mark, its sign and its digits. -/
structure Exponent where
  mark : Char
  sign : List Char
  digits : List Char

namespace Exponent

def chars (exponent : Exponent) : List Char := exponent.mark :: (exponent.sign ++ exponent.digits)

/-- Whether the exponent is one of a number of this base. -/
structure Fits (radix : Radix) (exponent : Exponent) : Prop where
  mark : (radix = .decimal ∨ radix = .legacyOctal) ∧ (exponent.mark = 'e' ∨ exponent.mark = 'E') ∨
    radix = .hexadecimal ∧ (exponent.mark = 'p' ∨ exponent.mark = 'P')
  sign : exponent.sign = [] ∨ exponent.sign = ['+'] ∨ exponent.sign = ['-']
  digits : ∀ c ∈ exponent.digits, continues .decimal c = true
  hasDigits : Number.hasDigits exponent.digits = true

end Exponent

theorem drop_two (first second rest : List Char) :
    (first ++ (second ++ rest)).drop (first.length + second.length) = rest := by
  rw [← List.append_assoc, ← List.length_append, List.drop_left]

private theorem signLength_sound (text : List Char) :
    ∃ sign behind, text = sign ++ behind ∧ signLength text = sign.length ∧
    (sign = [] ∨ sign = ['+'] ∨ sign = ['-']) := by
  unfold signLength
  split
  next rest => exact ⟨['+'], rest, rfl, rfl, .inr (.inl rfl)⟩
  next rest => exact ⟨['-'], rest, rfl, rfl, .inr (.inr rfl)⟩
  next => exact ⟨[], text, rfl, rfl, .inl rfl⟩

/-- What is read behind the mark of an exponent are a sign and digits, which may be missing. -/
theorem exponentDigits_cases (front behind : List Char) : ∃ sign digits rest, behind = sign ++ (digits ++ rest) ∧
    (sign = [] ∨ sign = ['+'] ∨ sign = ['-']) ∧ (∀ c ∈ digits, continues .decimal c = true) ∧
      exponentDigits (front ++ behind) front.length =
        if hasDigits digits then .ok (.float, front.length + (sign ++ digits).length)
        else .error ⟨front.length + (sign ++ digits).length, .float, .noExponentDigits, true⟩ := by
  obtain ⟨sign, rest, rfl, size, isSign⟩ := signLength_sound behind
  refine ⟨sign, run .decimal rest, rest.drop (run .decimal rest).length, ?_, isSign, fun _ => mem_run, ?_⟩
  · rw [← run_append_drop]
  · simp only [exponentDigits, List.drop_left, size, drop_two, List.length_append, Nat.add_assoc]

private theorem exponentDigits_sound {front behind : List Char} {kind : LiteralKind} {length : Nat}
    (read : exponentDigits (front ++ behind) front.length = .ok (kind, length)) :
    ∃ sign digits rest, behind = sign ++ (digits ++ rest) ∧ (sign = [] ∨ sign = ['+'] ∨ sign = ['-']) ∧
      (∀ c ∈ digits, continues .decimal c = true) ∧ hasDigits digits = true ∧ kind = .float ∧
      length = front.length + (sign ++ digits).length := by
  obtain ⟨sign, digits, rest, rfl, isSign, continued, same⟩ := exponentDigits_cases front behind
  rw [same] at read
  split at read
  next hasDigits =>
    cases read
    exact ⟨sign, digits, rest, rfl, isSign, continued, hasDigits, rfl, rfl⟩
  next => cases read

theorem exponentDigits_begun {front sign digits behind : List Char} (isSign : sign = [] ∨ sign = ['+'] ∨ sign = ['-'])
    (continued : ∀ c ∈ digits, continues .decimal c = true) (stops : Stops (continues .decimal) behind)
    (ends : digits = [] → behind = []) : exponentDigits (front ++ (sign ++ (digits ++ behind))) front.length =
      if hasDigits digits then .ok (.float, front.length + (sign ++ digits).length)
      else .error ⟨front.length + (sign ++ digits).length, .float, .noExponentDigits, true⟩ := by
  have size : signLength (sign ++ (digits ++ behind)) = sign.length := by
    rcases isSign with rfl | rfl | rfl
    · cases digits with
      | nil =>
        rw [ends rfl]
        rfl
      | cons d digits =>
        have digit := continued d List.mem_cons_self
        simp only [List.nil_append, List.cons_append, List.length_nil]
        unfold signLength
        split
        next same => cases same; cases digit
        next same => cases same; cases digit
        next => rfl
    · rfl
    · rfl
  simp only [exponentDigits, List.drop_left, size, drop_two, run_stops continued stops,
    List.length_append, Nat.add_assoc]

private theorem exponentDigits_complete {front sign digits behind : List Char}
    (isSign : sign = [] ∨ sign = ['+'] ∨ sign = ['-']) (continued : ∀ c ∈ digits, continues .decimal c = true)
    (hasDigits : Number.hasDigits digits = true) (stops : Stops (continues .decimal) behind) :
    exponentDigits (front ++ (sign ++ (digits ++ behind))) front.length =
      .ok (.float, front.length + (sign ++ digits).length) := by
  rw [exponentDigits_begun isSign continued stops, if_pos hasDigits]
  rintro rfl
  cases hasDigits

/-- The characters of an exponent, if there is one. -/
def power (exponent : Option Exponent) : List Char := exponent.elim [] Exponent.chars

namespace Front

/-- Whether the exponent, if there is one, is one that the number may have, and one that it must have. -/
structure Raises (front : Front) (exponent : Option Exponent) : Prop where
  fits : ∀ found ∈ exponent, found.Fits front.radix
  needed : front.radix = .hexadecimal → front.fraction.isSome = true → exponent.isSome = true

/-- The kind of the number with this exponent. -/
def kind (front : Front) (exponent : Option Exponent) : LiteralKind :=
  if front.fraction.isSome || exponent.isSome then .float else .int

/-- What is read behind the number, up to the end of its exponent. -/
structure Raised (front : Front) (behind : List Char) (kind : LiteralKind) (length : Nat) (exponent : Option Exponent)
    (rest : List Char) : Prop where
  parts : behind = power exponent ++ rest
  raises : front.Raises exponent
  kind : kind = front.kind exponent
  length : length = front.chars.length + (power exponent).length

end Front

theorem raises_none {front : Front} (needless : ¬ (front.radix = .hexadecimal ∧ front.fraction.isSome = true)) :
    front.Raises none :=
  ⟨fun _ isSome => (by cases isSome), fun hexadecimal pointed => absurd ⟨hexadecimal, pointed⟩ needless⟩

theorem Front.mantissa_kind (front : Front) : front.mantissa.kind = front.kind none := by
  rw [Mantissa.kind, kind, Option.isSome_none, Bool.or_false]
  rfl

private theorem exponentDigits_raised {front : Front} {c : Char} {behind : List Char} {kind : LiteralKind} {length : Nat}
    (read : exponentDigits (front.chars ++ c :: behind) (front.chars.length + 1) = .ok (kind, length))
    (marked : (front.radix = .decimal ∨ front.radix = .legacyOctal) ∧ (c = 'e' ∨ c = 'E') ∨
      front.radix = .hexadecimal ∧ (c = 'p' ∨ c = 'P')) :
    ∃ exponent rest, front.Raised (c :: behind) kind length exponent rest := by
  have parts : front.chars ++ c :: behind = (front.chars ++ [c]) ++ behind := by simp
  have size : front.chars.length + 1 = (front.chars ++ [c]).length := by simp
  rw [parts, size] at read
  obtain ⟨sign, digits, rest, rfl, isSign, continued, hasDigits, rfl, rfl⟩ := exponentDigits_sound read
  refine ⟨some ⟨c, sign, digits⟩, rest, ?_, ⟨?_, fun _ _ => rfl⟩, ?_, ?_⟩
  · simp [power, Exponent.chars]
  · rintro found ⟨⟩
    exact ⟨marked, isSign, continued, hasDigits⟩
  · simp [Front.kind]
  · simp only [power, Exponent.chars, Option.elim_some, List.length_append, List.length_cons, List.length_nil]
    omega

theorem exponent_sound {front : Front} {behind : List Char} {kind : LiteralKind} {length : Nat}
    (read : exponent (front.chars ++ behind) front.mantissa = .ok (kind, length)) :
    ∃ exponent rest, front.Raised behind kind length exponent rest := by
  rw [exponent_eq, show front.mantissa.length = front.chars.length from rfl, List.drop_left] at read
  cases behind with
  | nil =>
    simp only [List.head?_nil, exponentAt] at read
    split at read
    next => cases read
    next needless =>
      cases read
      exact ⟨none, [], rfl, raises_none needless, front.mantissa_kind, rfl⟩
  | cons c behind =>
    simp only [List.head?_cons] at read
    unfold exponentAt at read
    split at read
    next starts =>
      split at read
      next decimal => exact exponentDigits_raised read (.inl ⟨decimal, .inl (Option.some.inj starts)⟩)
      next => cases read
    next starts =>
      split at read
      next decimal => exact exponentDigits_raised read (.inl ⟨decimal, .inr (Option.some.inj starts)⟩)
      next => cases read
    next starts =>
      split at read
      next binary => exact exponentDigits_raised read (.inr ⟨binary, .inl (Option.some.inj starts)⟩)
      next => cases read
    next starts =>
      split at read
      next binary => exact exponentDigits_raised read (.inr ⟨binary, .inr (Option.some.inj starts)⟩)
      next => cases read
    next =>
      split at read
      next => cases read
      next needless =>
        cases read
        exact ⟨none, c :: behind, rfl, raises_none needless, front.mantissa_kind, rfl⟩

private theorem exponent_complete {front : Front} {found : Option Exponent} {behind : List Char}
    (raises : front.Raises found) (stops : Stops (continues .decimal) behind) (plain : Stops announcesExponent behind) :
    exponent (front.chars ++ (power found ++ behind)) front.mantissa =
      .ok (front.kind found, front.chars.length + (power found).length) := by
  cases found with
  | none =>
    have needless : ¬ (front.mantissa.radix = .hexadecimal ∧ front.mantissa.hasPoint = true) := by
      rintro ⟨hexadecimal, pointed⟩
      cases raises.needed hexadecimal pointed
    rw [exponent_eq_of_none (by rwa [Front.mantissa, List.drop_left]), ← front.mantissa_kind]
    exact if_neg needless
  | some found =>
    obtain ⟨c, sign, digits⟩ := found
    obtain ⟨marked, isSign, continued, hasDigits⟩ := raises.fits _ rfl
    have parts : front.chars ++ (power (some ⟨c, sign, digits⟩) ++ behind) =
        (front.chars ++ [c]) ++ (sign ++ (digits ++ behind)) := by simp [power, Exponent.chars]
    have size : front.mantissa.length + 1 = (front.chars ++ [c]).length := by simp [Front.mantissa]
    have starts : ((front.chars ++ [c]) ++ (sign ++ (digits ++ behind))).drop front.mantissa.length =
        c :: (sign ++ (digits ++ behind)) := by
      rw [Front.mantissa, List.append_assoc, List.drop_left]
      rfl
    have kind : front.kind (some ⟨c, sign, digits⟩) = .float := by simp [Front.kind]
    rw [exponent_eq, parts, size, exponentDigits_complete isSign continued hasDigits stops,
      starts, List.head?_cons, kind, show (front.chars ++ [c]).length + (sign ++ digits).length =
        front.chars.length + (power (some ⟨c, sign, digits⟩)).length by
          simp only [power, Exponent.chars, Option.elim_some, List.length_append,
            List.length_cons, List.length_nil]; omega]
    rcases marked with ⟨decimal, rfl | rfl⟩ | ⟨binary, rfl | rfl⟩
    · exact if_pos decimal
    · exact if_pos decimal
    · exact if_pos binary
    · exact if_pos binary

/-- A number that is read to its end. -/
structure Pieces where
  front : Front
  exponent : Option Exponent
  imaginary : Bool

namespace Pieces

def suffix (pieces : Pieces) : List Char := if pieces.imaginary then ['i'] else []

/-- The number behind the mark of its base. -/
def digits (pieces : Pieces) : List Char :=
  pieces.front.whole ++ (pieces.front.point ++ (power pieces.exponent ++ pieces.suffix))

def chars (pieces : Pieces) : List Char := pieces.front.mark ++ pieces.digits

def kind (pieces : Pieces) : LiteralKind := if pieces.imaginary then .imaginary else pieces.front.kind pieces.exponent

structure Fits (pieces : Pieces) : Prop where
  front : pieces.front.Fits
  raises : pieces.front.Raises pieces.exponent
  /-- Digits that are too large are allowed behind a leading zero, but not in an integer. -/
  digits : wrongDigit? pieces.front.radix pieces.front.digits = none ∨
    pieces.front.radix = .legacyOctal ∧ pieces.kind ≠ .int
  separators : misplacedSeparator? pieces.front.mark.length pieces.chars = none

theorem chars_eq (pieces : Pieces) : pieces.chars = pieces.front.chars ++ (power pieces.exponent ++ pieces.suffix) := by
  simp only [chars, digits, Front.chars, List.append_assoc]

end Pieces

private theorem judged_ok_iff {text : List Char} {mark length length' : Nat} {read : Mantissa}
    {kind kind' : LiteralKind} :
    judged text mark read kind length = .ok (kind', length') ↔
      (wrongDigit? read.radix read.digits = none ∨ read.radix = .legacyOctal ∧ kind ≠ .int) ∧
        misplacedSeparator? mark (text.take length) = none ∧ kind' = kind ∧ length' = length := by
  unfold judged
  cases misplacedSeparator? mark (text.take length) with
  | some index =>
    cases wrongDigit? read.radix read.digits with
    | none => simp
    | some digit =>
      dsimp only
      split
      · simp
      · split <;> simp
  | none =>
    cases wrongDigit? read.radix read.digits with
    | none => simp [eq_comm]
    | some digit =>
      by_cases legacy : read.radix = .legacyOctal
      · by_cases isInt : kind = .int
        · simp [legacy, isInt]
        · simp [legacy, isInt, eq_comm]
      · simp [legacy]

theorem read_sound {text : List Char} {kind : LiteralKind} {length : Nat} (read : Number.read text = .ok (kind, length)) :
    ∃ pieces rest, text = Pieces.chars pieces ++ rest ∧ pieces.Fits ∧ kind = pieces.kind ∧ length = pieces.chars.length := by
  rw [read_eq] at read
  cases upTo : mantissa text with
  | error fault =>
    rw [upTo] at read
    cases read
  | ok mantissa =>
    obtain ⟨front, behind, rfl, announces, fits, rfl⟩ := mantissa_sound upTo
    rw [upTo] at read
    cases raised : Number.exponent (front.chars ++ behind) front.mantissa with
    | error fault =>
      simp only [bind, Except.bind, raised] at read
      cases read
    | ok value =>
      obtain ⟨kind', length'⟩ := value
      obtain ⟨exponent, rest, rfl, raises, rfl, rfl⟩ := exponent_sound raised
      simp only [bind, Except.bind, raised] at read
      rw [finish, drop_two, announces, judged_ok_iff] at read
      dsimp only at read
      obtain ⟨digits, separators, rfl, rfl⟩ := read
      by_cases suffix : rest.head? = some 'i'
      · obtain ⟨rest, rfl⟩ := List.head?_eq_some_iff.mp suffix
        have parts : front.chars ++ (power exponent ++ 'i' :: rest) = Pieces.chars ⟨front, exponent, true⟩ ++ rest := by
          simp [Pieces.chars_eq, Pieces.suffix]
        have size : front.chars.length + (power exponent).length + 1 =
            (Pieces.chars ⟨front, exponent, true⟩).length := by
          simp [Pieces.chars_eq, Pieces.suffix, Nat.add_assoc]
        simp only [endAt, suffix, ↓reduceIte, size, parts, List.take_left] at digits separators ⊢
        exact ⟨⟨front, exponent, true⟩, rest, rfl, ⟨fits, raises, digits, separators⟩, rfl, rfl⟩
      · have parts : front.chars ++ (power exponent ++ rest) = Pieces.chars ⟨front, exponent, false⟩ ++ rest := by
          simp [Pieces.chars_eq, Pieces.suffix]
        have size : front.chars.length + (power exponent).length = (Pieces.chars ⟨front, exponent, false⟩).length := by
          simp [Pieces.chars_eq, Pieces.suffix]
        simp only [endAt, suffix, ↓reduceIte, size, parts, List.take_left] at digits separators ⊢
        exact ⟨⟨front, exponent, false⟩, rest, rfl, ⟨fits, raises, digits, separators⟩, rfl, rfl⟩

theorem le_iff_toNat {first last : Char} : first ≤ last ↔ first.toNat ≤ last.toNat := by
  rw [Char.le_def, UInt32.le_iff_toNat_le]
  rfl

theorem isDigit_iff_toNat {c : Char} : c.isDigit = true ↔ 48 ≤ c.toNat ∧ c.toNat ≤ 57 := by
  simp only [Char.isDigit, Bool.and_eq_true, decide_eq_true_eq, ge_iff_le, UInt32.le_iff_toNat_le]
  rfl

/-- Whether no letter, digit, separator or point follows. -/
def Ends (text : List Char) : Prop := ∀ c ∈ text.head?, c.isAlphanum = false ∧ c ≠ '_' ∧ c ≠ '.'

section

variable {text : List Char}

theorem Ends.stops (ends : Ends text) {p : Char → Bool}
    (belongs : ∀ c, p c = true → c.isAlphanum = true ∨ c = '_' ∨ c = '.') :
    Stops p text := by
  cases text with
  | nil => rfl
  | cons c rest =>
    obtain ⟨notAlphanum, notSeparator, notPoint⟩ := ends c rfl
    refine Bool.eq_false_iff.mpr fun there => ?_
    rcases belongs c there with alphanum | separator | point
    · rw [notAlphanum] at alphanum
      cases alphanum
    · exact notSeparator separator
    · exact notPoint point

theorem isAlphanum_of_isHexDigit {c : Char} (digit : isHexDigit c = true) : c.isAlphanum = true := by
  have small : c.toNat < 103 := by
    simp only [isHexDigit, Bool.or_eq_true, Bool.and_eq_true, decide_eq_true_eq] at digit
    rcases digit with (digit | lower) | upper
    · have := (isDigit_iff_toNat.mp digit).2
      omega
    · exact Nat.lt_succ_of_le (le_iff_toNat.mp lower.2)
    · exact Nat.lt_of_le_of_lt (le_iff_toNat.mp upper.2) (by decide)
  exact @char_of_code 103 (fun c => isHexDigit c = true → c.isAlphanum = true) (by decide) c small digit

private theorem continues_belongs {radix : Radix} (c : Char) (continued : continues radix c = true) :
    c.isAlphanum = true ∨ c = '_' ∨ c = '.' := by
  unfold continues at continued
  rcases Bool.or_eq_true_iff.mp continued with separator | digit
  · exact .inr (.inl (eq_of_beq separator))
  · split at digit
    · exact .inl (by simp [Char.isAlphanum, digit])
    · exact .inl (isAlphanum_of_isHexDigit digit)

private theorem contains_belongs {marks : List Char} (letters : marks.all Char.isAlphanum = true) (c : Char)
    (mark : marks.contains c = true) : c.isAlphanum = true ∨ c = '_' ∨ c = '.' :=
  .inl (List.all_eq_true.mp letters c (List.contains_iff_mem.mp mark))

private theorem announces_belongs (c : Char) (announced : announces c = true) :
    c.isAlphanum = true ∨ c = '_' ∨ c = '.' := by
  rcases Bool.or_eq_true_iff.mp announced with digit | mark
  · exact .inl (by simp [Char.isAlphanum, digit])
  · exact contains_belongs (by decide) c mark

end

private theorem Pieces.stops_suffix (pieces : Pieces) {rest : List Char} (ends : Ends rest) {p : Char → Bool}
    (belongs : ∀ c, p c = true → c.isAlphanum = true ∨ c = '_' ∨ c = '.') (notSuffix : p 'i' = false) :
    Stops p (pieces.suffix ++ rest) := by
  obtain ⟨front, exponent, imaginary⟩ := pieces
  cases imaginary with
  | true => exact notSuffix
  | false => exact ends.stops belongs

private theorem Pieces.stops_behind {pieces : Pieces} {rest : List Char} (raises : pieces.front.Raises pieces.exponent)
    (ends : Ends rest) {p : Char → Bool} (belongs : ∀ c, p c = true → c.isAlphanum = true ∨ c = '_' ∨ c = '.')
    (notSuffix : p 'i' = false) (notMark : ∀ found, Exponent.Fits pieces.front.radix found → p found.mark = false) :
    Stops p (power pieces.exponent ++ (pieces.suffix ++ rest)) := by
  have behind := pieces.stops_suffix ends belongs notSuffix
  obtain ⟨front, exponent, imaginary⟩ := pieces
  cases exponent with
  | some found => exact notMark found (raises.fits found rfl)
  | none => exact behind

theorem read_complete {pieces : Pieces} {rest : List Char} (fits : pieces.Fits) (ends : Ends rest) :
    Number.read (pieces.chars ++ rest) = .ok (pieces.kind, pieces.chars.length) := by
  have parts : pieces.chars ++ rest = pieces.front.chars ++ (power pieces.exponent ++ (pieces.suffix ++ rest)) := by
    simp only [Pieces.chars_eq, List.append_assoc]
  have stops : Stops (continues pieces.front.radix) (power pieces.exponent ++ (pieces.suffix ++ rest)) := by
    refine Pieces.stops_behind fits.raises ends continues_belongs (by cases pieces.front.radix <;> decide)
      fun found ok => ?_
    rcases ok.mark with ⟨decimal | legacy, isMark⟩ | ⟨hexadecimal, isMark⟩
    · rcases isMark with isMark | isMark <;> rw [decimal, isMark] <;> decide
    · rcases isMark with isMark | isMark <;> rw [legacy, isMark] <;> decide
    · rcases isMark with isMark | isMark <;> rw [hexadecimal, isMark] <;> decide
  have notMark : Stops announces (power pieces.exponent ++ (pieces.suffix ++ rest)) := by
    refine Pieces.stops_behind fits.raises ends announces_belongs (by decide) fun found ok => ?_
    rcases ok.mark with ⟨-, isMark | isMark⟩ | ⟨-, isMark | isMark⟩ <;> rw [isMark] <;> decide
  have notPoint : Stops (· == '.') (power pieces.exponent ++ (pieces.suffix ++ rest)) := by
    refine Pieces.stops_behind fits.raises ends (fun c point => .inr (.inr (eq_of_beq point)))
      (by decide) fun found ok => ?_
    rcases ok.mark with ⟨-, isMark | isMark⟩ | ⟨-, isMark | isMark⟩ <;> rw [isMark] <;> decide
  have upTo := mantissa_begun fits.front.begun stops
    (fun _ starts => by rw [Stops, starts] at notPoint; cases notPoint) notMark
  have raised := exponent_complete fits.raises
    (show Stops (continues .decimal) (pieces.suffix ++ rest) from
      pieces.stops_suffix ends continues_belongs (by decide))
    (pieces.stops_suffix ends (contains_belongs (by decide)) (by decide))
  have announces := announced_front fits.front.begun notMark
  rw [Front.read, if_pos fits.front.hasDigits] at upTo
  rw [← parts] at upTo raised announces
  rw [read_eq, upTo, announces]
  show (exponent (pieces.chars ++ rest) pieces.front.mantissa >>= _) = _
  rw [raised]
  show finish _ _ _ _ = _
  have ended : endAt (pieces.front.kind pieces.exponent) (pieces.front.chars.length + (power pieces.exponent).length)
      (pieces.suffix ++ rest).head? = (pieces.kind, pieces.chars.length) := by
    rw [Pieces.chars_eq]
    obtain ⟨front, exponent, imaginary⟩ := pieces
    cases imaginary with
    | true => simp [endAt, Pieces.suffix, Pieces.kind, Nat.add_assoc]
    | false =>
      have notSuffix : rest.head? ≠ some 'i' := fun suffix => by cases (ends 'i' suffix).1
      simp [endAt, Pieces.suffix, Pieces.kind, notSuffix]
  have left : (pieces.chars ++ rest).drop (pieces.front.chars.length + (power pieces.exponent).length) =
      pieces.suffix ++ rest := by rw [parts, drop_two]
  simp only [finish, left, ended]
  exact judged_ok_iff.mpr ⟨fits.digits, by rw [List.take_left]; exact fits.separators, rfl, rfl⟩

end Number

end GoPrompt
