import GoPrompt.Source.Utf8

/-! Reading files by path. A path is a list of names between slashes, resolved one by one from the
current directory: `.` stays, `..` goes up, and only a directory can be left or entered. -/

namespace GoPrompt

inductive ReadError where
  | notFound
  | notADirectory
  | isADirectory
  | nulInPath
  | notUtf8
  | other (message : String)
  deriving DecidableEq, Repr

namespace ReadError

def message : ReadError → String
  | .notFound => "No such file or directory (os error 2)"
  | .notADirectory => "Not a directory (os error 20)"
  | .isADirectory => "Is a directory (os error 21)"
  | .nulInPath => "file name contained an unexpected NUL byte"
  | .notUtf8 => "stream did not contain valid UTF-8"
  | .other message => message

end ReadError

/-- What a path leads to. -/
abbrev FileReader := String → Except ReadError (List UInt8)

/-- Reads a file as text. -/
def FileReader.readText (files : FileReader) (path : String) : Except ReadError (List Char) := do
  match Utf8.decode (← files path) with
  | .ok text => return text
  | .error _ => throw .notUtf8

/-- The files below the current directory, each with the names on the path to it. Every such path makes
its directories; there is nothing else in them, and nothing above them but directories. -/
structure FileTree where
  files : List (List String × List UInt8)
  deriving DecidableEq, Repr

namespace FileTree

/-- A place that a path can lead to. -/
inductive Spot where
  | directory (path : List String)
  | file (content : List UInt8)
  /-- A directory above the current one. -/
  | above
  deriving DecidableEq, Repr

def hasDirectory (tree : FileTree) (path : List String) : Bool :=
  tree.files.any fun entry => path.isPrefixOf entry.1 && decide (path.length < entry.1.length)

def enter (tree : FileTree) (spot : Spot) (name : String) : Except ReadError Spot :=
  match spot with
  | .file _ => .error .notADirectory
  | .above => if name == "." || name == ".." then .ok .above else .error .notFound
  | .directory path =>
    if name == "." then .ok spot
    else if name == ".." then .ok (if path.isEmpty then .above else .directory path.dropLast)
    else
      let below := path ++ [name]
      match tree.files.lookup below with
      | some content => .ok (.file content)
      | none => if tree.hasDirectory below then .ok (.directory below) else .error .notFound

/-- The names of a path. A slash at its end asks for a directory, as a final `.` does. -/
def names (path : List Char) : List String :=
  let names := ((path.splitOn '/').filter (!·.isEmpty)).map String.ofList
  if path.getLast? = some '/' then names ++ ["."] else names

def read (tree : FileTree) : FileReader := fun path =>
  let path := path.toList
  if path.contains '\x00' then .error .nulInPath
  else if path.isEmpty then .error .notFound
  else do
    let start := if path.head? = some '/' then Spot.above else .directory []
    match ← (names path).foldlM tree.enter start with
    | .file content => return content
    | .directory _ | .above => throw .isADirectory

end FileTree

/-- A path relative to a directory. There is one slash between the two, unless the directory is empty
or ends in one; a path that starts with a slash stands for itself. -/
def joinPath (directory relative : List Char) : List Char :=
  if relative.head? = some '/' then relative
  else if directory.isEmpty || directory.getLast? == some '/' then directory ++ relative
  else directory ++ '/' :: relative

end GoPrompt
