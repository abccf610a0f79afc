import GoPrompt.Text.Numeral

/-! Documents for other programs, in JSON. A list or an object is written with one member a line, each
level indented by two spaces, and an empty one as its two brackets. -/

namespace GoPrompt

inductive Json where
  | null
  | bool (value : Bool)
  | number (value : Nat)
  | string (value : String)
  | list (members : List Json)
  | object (members : List (String × Json))

namespace Json

/-- A character inside a quoted string. Only quotes, backslashes and control characters are escaped, and
of the latter only those of the first block. -/
def escaped (c : Char) : String :=
  if c = '\x22' then "\\\""
  else if c = '\\' then "\\\\"
  else if c = '\x08' then "\\b"
  else if c = '\t' then "\\t"
  else if c = '\n' then "\\n"
  else if c = '\x0c' then "\\f"
  else if c = '\r' then "\\r"
  else if c < ' ' then "\\u" ++ Text.hexadecimal 4 c.toNat
  else c.toString

def quoted (text : String) : String := "\"" ++ String.join (text.toList.map escaped) ++ "\""

/-- The line break in front of a member `level` levels deep. -/
def lineBreak (level : Nat) : String := "\n" ++ String.ofList (List.replicate (2 * level) ' ')

/-- The written members between their brackets. -/
def enclosed (opener closer : String) (level : Nat) (members : List String) : String :=
  if members.isEmpty then opener ++ closer
  else
    let lines := members.map fun member => lineBreak (level + 1) ++ member
    opener ++ String.intercalate "," lines ++ lineBreak level ++ closer

mutual

/-- The text of a document that stands `level` levels deep. -/
def renderAt (level : Nat) : Json → String
  | null => "null"
  | bool value => if value then "true" else "false"
  | number value => toString value
  | string value => quoted value
  | list members => enclosed "[" "]" level (renderList (level + 1) members)
  | object members => enclosed "\x7b" "\x7d" level (renderMembers (level + 1) members)

def renderList (level : Nat) : List Json → List String
  | [] => []
  | member :: rest => renderAt level member :: renderList level rest

def renderMembers (level : Nat) : List (String × Json) → List String
  | [] => []
  | (name, member) :: rest => (quoted name ++ ": " ++ renderAt level member) :: renderMembers level rest

end

def render (document : Json) : String := renderAt 0 document

def ofOption {α : Type} (encode : α → Json) : Option α → Json
  | some value => encode value
  | none => null

end Json

end GoPrompt
