/-! A text is worked on as its list of characters, while offsets count the bytes of its UTF-8 form.
These functions go between the two measures. -/

namespace GoPrompt

/-- The number of bytes that the characters take in UTF-8. -/
def byteSize (text : List Char) : Nat := text.foldl (fun size c => size + c.utf8Size) 0

theorem foldl_utf8Size (text : List Char) (size : Nat) :
    text.foldl (fun size c => size + c.utf8Size) size = size + byteSize text := by
  induction text generalizing size with
  | nil => rfl
  | cons c rest ih =>
    simp only [byteSize, List.foldl_cons]
    rw [ih, ih (0 + c.utf8Size)]
    omega

@[simp] theorem byteSize_nil : byteSize [] = 0 := rfl

@[simp] theorem byteSize_cons (c : Char) (rest : List Char) : byteSize (c :: rest) = c.utf8Size + byteSize rest := by
  simp only [byteSize, List.foldl_cons]
  rw [foldl_utf8Size]
  simp [byteSize]

@[simp] theorem byteSize_append (first second : List Char) :
    byteSize (first ++ second) = byteSize first + byteSize second := by
  induction first with
  | nil => simp
  | cons c rest ih => simp [ih, Nat.add_assoc]

/-- What is left after the first `size` bytes; a character that the cut would split is dropped whole. -/
def dropBytes : Nat → List Char → List Char
  | _, [] => []
  | 0, text => text
  | size + 1, c :: rest => dropBytes (size + 1 - c.utf8Size) rest

/-- The longest beginning of the text that takes at most `size` bytes. -/
def takeBytes (size : Nat) (text : List Char) : List Char :=
  match text with
  | [] => []
  | c :: rest => if c.utf8Size ≤ size then c :: takeBytes (size - c.utf8Size) rest else []

theorem dropBytes_byteSize (first second : List Char) : dropBytes (byteSize first) (first ++ second) = second := by
  induction first with
  | nil => cases second <;> rfl
  | cons c rest ih =>
    have positive := c.utf8Size_pos
    obtain ⟨size, same⟩ : ∃ size, byteSize (c :: rest) = size + 1 := ⟨byteSize (c :: rest) - 1, by simp; omega⟩
    rw [same, List.cons_append, dropBytes, show size + 1 - c.utf8Size = byteSize rest by rw [← same]; simp, ih]

theorem takeBytes_byteSize (first second : List Char) : takeBytes (byteSize first) (first ++ second) = first := by
  induction first with
  | nil =>
    cases second with
    | nil => rfl
    | cons c rest =>
      have positive := c.utf8Size_pos
      simp only [List.nil_append, takeBytes, byteSize_nil, show ¬ c.utf8Size ≤ 0 by omega, ↓reduceIte]
  | cons c rest ih =>
    simp only [List.cons_append, takeBytes, byteSize_cons, Nat.le_add_right, ↓reduceIte, Nat.add_sub_cancel_left, ih]

end GoPrompt
