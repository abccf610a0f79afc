import GoPrompt.Lexical.Scan
import GoPrompt.Proofs.Lexical.Strings

/-! The sorts of tokens. Its first characters settle how a token is read, so that what holds of every way to read a
token holds of the token that is read.

A flaw concerns a part of the text that is read with it, and of no other. -/

namespace GoPrompt

/-- The literals, by how they are read. -/
inductive LiteralSort where
  | number | interpreted | raw | rune

def LiteralSort.scan : LiteralSort → List Char → LiteralScan
  | .number => Number.scan
  | .interpreted => Quoted.scanString
  | .raw => Quoted.scanRawString
  | .rune => Quoted.scanRune

/-- The tokens, by how they are read. -/
inductive TokenSort where
  | name
  | literal (sort : LiteralSort)
  | semicolon
  | operator

namespace TokenSort

def scan (first : Char) (rest : List Char) : TokenSort → TokenScan
  | .name =>
    let name := first :: rest.takeWhile continuesName
    ⟨name.length, .whole (nameKind name)⟩
  | .literal sort => (sort.scan (first :: rest)).toTokenScan
  | .semicolon => ⟨1, .whole (.semicolon .explicit)⟩
  | .operator =>
    match operator? (first :: rest) with
    | some found => ⟨found.spelling.length, .whole (.operator found)⟩
    | none => ⟨1, .invalid ⟨0, 1, .character first⟩⟩

/-- What the sort of a token says of its first character, or of whether a number starts there. -/
def Starts (first : Char) (isNumber : Bool) : TokenSort → Prop
  | .name => isNameStart first = true
  | .literal .number => isNumber = true
  | .literal .interpreted => first = Quoted.doubleQuote
  | .literal .raw => first = Quoted.backquote
  | .literal .rune => first = Quoted.singleQuote
  | .semicolon => first = ';'
  | .operator => True

end TokenSort

/-- The sort of the token that starts with a character where a number may start. -/
def tokenSort (first : Char) (isNumber : Bool) : TokenSort :=
  if isNameStart first then .name
  else if isNumber then .literal .number
  else if first = Quoted.doubleQuote then .literal .interpreted
  else if first = Quoted.backquote then .literal .raw
  else if first = Quoted.singleQuote then .literal .rune
  else if first = ';' then .semicolon
  else .operator

theorem tokenSort_starts (first : Char) (isNumber : Bool) : (tokenSort first isNumber).Starts first isNumber := by
  unfold tokenSort
  split
  next isName => exact isName
  next =>
    split
    next isNumber => exact isNumber
    next =>
      split
      next isQuote => exact isQuote
      next =>
        split
        next isQuote => exact isQuote
        next =>
          split
          next isQuote => exact isQuote
          next =>
            split
            next isSemicolon => exact isSemicolon
            next => trivial

theorem scanToken_eq (first : Char) (rest : List Char) :
    scanToken first rest = (tokenSort first (startsNumber first rest)).scan first rest := by
  simp only [tokenSort, apply_ite (TokenSort.scan first rest)]
  rfl

/-- Whether the flaw concerns a part of the first `length` characters. -/
def Flaw.Within (length : Nat) (flaw : Flaw) : Prop := flaw.first ≤ flaw.last ∧ flaw.last ≤ length

theorem Flaw.Within.mono {flaw : Flaw} {length longer : Nat} (within : flaw.Within length) (less : length ≤ longer) :
    flaw.Within longer := ⟨within.1, Nat.le_trans within.2 less⟩

private theorem Flaw.within_whole (length : Nat) (cause : LexCause) : (⟨0, length, cause⟩ : Flaw).Within length :=
  ⟨Nat.zero_le _, Nat.le_refl _⟩

namespace Quoted

private theorem body_flaw_within (quote : Char) {skip length units : Nat} {flaw : Option Flaw} {text : List Char}
    (known : ∀ found ∈ flaw, found.Within length) :
    ∀ found ∈ (body quote skip length units flaw text).flaw,
    found.Within (body quote skip length units flaw text).length := by
  have longer : ∀ {flaw : Option Flaw} {length size : Nat}, (∀ found ∈ flaw, found.Within length) → length ≤ size →
      ∀ found ∈ flaw, found.Within size := fun known less found isFlaw => (known found isFlaw).mono less
  fun_induction body quote skip length units flaw text with
  | case1 | case4 => exact known
  | case2 _ _ _ _ _ _ further => exact further known
  | case3 => exact longer known (Nat.le_succ _)
  | case5 _ _ _ _ _ _ _ _ further => exact further (longer known (by omega))
  | case6 _ _ flaw _ _ _ _ _ _ _ further =>
    refine further fun found isFlaw => ?_
    cases flaw with
    | some first => exact longer known (by omega) found isFlaw
    | none =>
      obtain rfl := Option.some.inj isFlaw
      exact ⟨by dsimp only; omega, Nat.le_refl _⟩
  | case7 => exact longer known (by dsimp only; omega)
  | case8 _ _ _ _ _ _ _ _ further => exact further (longer known (Nat.le_succ _))

private theorem interpreted_flaw_within (quote : Char) (text : List Char) :
    ∀ found ∈ (interpreted quote text).flaw, found.Within (interpreted quote text).length :=
  body_flaw_within quote nofun

end Quoted

/-- Whether the scan is no flaw, or one within its length. -/
def LiteralScan.FlawWithin (scan : LiteralScan) : Prop :=
  ∀ flaw, scan.outcome = .invalid flaw → flaw.Within scan.length

private theorem Number.scan_flawWithin (text : List Char) : (Number.scan text).FlawWithin := by
  unfold Number.scan
  split
  · nofun
  · split
    · nofun
    · rintro _ ⟨⟩
      exact Flaw.within_whole _ _

namespace Quoted

private theorem Reader.scan_flawWithin (reader : Reader) (text : List Char) : (reader.scan text).FlawWithin := by
  intro flaw invalid
  have judges := reader.judges (interpreted reader.quote text)
  rw [show reader.outcome _ = _ from invalid] at judges
  cases judges with
  | invalid _ known =>
    rcases known with known | ⟨first, last⟩
    · exact interpreted_flaw_within reader.quote text flaw known
    · exact ⟨first ▸ Nat.zero_le _, Nat.le_of_eq last⟩

private theorem scanRawString_flawWithin (text : List Char) : (scanRawString text).FlawWithin := by
  unfold scanRawString
  dsimp only
  split <;> nofun

end Quoted

theorem LiteralScan.FlawWithin.toTokenScan {scan : LiteralScan} (within : scan.FlawWithin) {flaw : Flaw}
    (invalid : scan.toTokenScan.shape = .invalid flaw) : flaw.Within scan.toTokenScan.length := by
  unfold LiteralScan.toTokenScan at invalid
  cases outcome : scan.outcome with
  | invalid found =>
    simp only [outcome] at invalid
    cases invalid
    exact within flaw outcome
  | complete | cutOff =>
    simp only [outcome] at invalid
    cases invalid

private theorem LiteralSort.scan_flawWithin (sort : LiteralSort) (text : List Char) : (sort.scan text).FlawWithin := by
  cases sort with
  | number => exact Number.scan_flawWithin text
  | interpreted =>
    rw [scan, Quoted.scanString_eq]
    exact Quoted.Reader.string.scan_flawWithin text
  | raw => exact Quoted.scanRawString_flawWithin text
  | rune => exact Quoted.Reader.rune.scan_flawWithin text

theorem scanToken_flaw_within {first : Char} {rest : List Char} {flaw : Flaw}
    (invalid : (scanToken first rest).shape = .invalid flaw) : flaw.Within (scanToken first rest).length := by
  rw [scanToken_eq] at invalid ⊢
  generalize tokenSort first (startsNumber first rest) = sort at invalid ⊢
  cases sort with
  | name | semicolon => cases invalid
  | literal sort => exact (sort.scan_flawWithin _).toTokenScan invalid
  | operator =>
    simp only [TokenSort.scan] at invalid ⊢
    split at invalid
    next => cases invalid
    next =>
      cases invalid
      exact Flaw.within_whole _ _

end GoPrompt
