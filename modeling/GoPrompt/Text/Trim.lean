import GoPrompt.Unicode.Blanks

/-! Removing the white space around a text. -/

namespace GoPrompt.Text

open Unicode (isBlank)

def trimStart (text : List Char) : List Char := text.dropWhile isBlank

def trimEnd (text : List Char) : List Char := (text.reverse.dropWhile isBlank).reverse

def trim (text : List Char) : List Char := trimEnd (trimStart text)

end GoPrompt.Text
