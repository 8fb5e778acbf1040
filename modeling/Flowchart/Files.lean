import Flowchart.Text.Utf8

/-!
# Files

A folder as a value: the files in it, each under the list of names that leads to it.  Reading and
writing take a path as it was typed and follow it name by name from the folder: `.` stays, `..` goes
up, and every name but the last has to be a folder.  Outside the folder nothing is known and nothing
is found.

What can go wrong is reported in the words of the operating system.
-/

namespace Flowchart
namespace Files

/-! ### Errors -/

/-- An error of the operating system about a path. -/
structure SystemError where
  code : Nat
  reason : String
  path : String
deriving DecidableEq, Repr

/-- What is reported for an error of the operating system. -/
def SystemError.message (e : SystemError) : String :=
  s!"[Errno {e.code}] {e.reason}: {Text.quote e.path}"

/-- There is no file under a path. -/
def missing (path : String) : SystemError := ⟨2, "No such file or directory", path⟩

/-- A path leads through a file. -/
def notFolder (path : String) : SystemError := ⟨20, "Not a directory", path⟩

/-- A path leads to a folder. -/
def isFolder (path : String) : SystemError := ⟨21, "Is a directory", path⟩

/-- A path or a name in it is too long. -/
def tooLong (path : String) : SystemError := ⟨36, "File name too long", path⟩

/-- Why a file is not read or not written. -/
inductive Error where
  | system (e : SystemError)
  /-- The path has a character that no path can have. -/
  | nul
deriving DecidableEq, Repr

/-- What is reported for an error. -/
def Error.message : Error → String
  | system e => e.message
  | nul => "embedded null byte"

/-! ### Paths -/

/-- The parts of a text between the marks `mark`. -/
def split (mark : Char) : List Char → List (List Char)
  | [] => [[]]
  | c :: s =>
    if c = mark then [] :: split mark s
    else
      match split mark s with
      | [] => [[c]]
      | part :: parts => (c :: part) :: parts

/-- The names in a path; two slashes in a row count as one. -/
def names (path : String) : List String :=
  ((split '/' path.toList).filter (· ≠ [])).map String.ofList

/-- Whether a path starts at the root. -/
def isAbsolute (path : String) : Bool := path.toList.head? = some '/'

/-- Whether a path ends with a slash. -/
def endsWithSlash (path : String) : Bool := path.toList.getLast? = some '/'

/-- A path without needless parts: no `.`, no empty name, no slash at the end.  Two slashes at the
start, and no more, stay two. -/
def tidy (path : String) : String :=
  let slashes := (path.toList.takeWhile (· = '/')).length
  let root := if slashes = 2 then "//" else if 0 < slashes then "/" else ""
  let body := "/".intercalate ((names path).filter (· ≠ "."))
  if root = "" ∧ body = "" then "." else root ++ body

/-- The most bytes of a name. -/
def maxName : Nat := 255

/-- The most bytes of a path. -/
def maxPath : Nat := 4095

/-! ### Folders -/

/-- The files of a folder, each under the names that lead to it. -/
structure Folder where
  files : List (List String × Text.Bytes) := []
deriving DecidableEq, Repr

namespace Folder

/-- The folder with files under the given paths. -/
def ofPaths (files : List (String × Text.Bytes)) : Folder :=
  ⟨files.map fun (path, bytes) => (names path, bytes)⟩

/-- The contents of a file. -/
def get? (f : Folder) (place : List String) : Option Text.Bytes :=
  f.files.lookup place

/-- Put a file into a folder, or replace it. -/
def put (f : Folder) (place : List String) (bytes : Text.Bytes) : Folder :=
  if (f.get? place).isSome then
    ⟨f.files.map fun (p, b) => if p = place then (p, bytes) else (p, b)⟩
  else ⟨f.files ++ [(place, bytes)]⟩

/-- Whether a folder is at a place: it is the folder itself, or some file lies below the place. -/
def hasFolder (f : Folder) (place : List String) : Bool :=
  place.isEmpty || f.files.any fun (p, _) => place.isPrefixOf p && p ≠ place

/-- Where a path has led so far: a place in the folder, or outside. -/
abbrev Position := Option (List String)

/-- Go from a position into the folder with a name. -/
def enter (f : Folder) (path : String) (here : Position) (name : String) :
    Except SystemError Position :=
  if name = "." then .ok here
  else if name = ".." then
    .ok (match here with
      | some (x :: xs) => some (x :: xs).dropLast
      | _ => none)
  else if maxName < name.utf8ByteSize then .error (tooLong path)
  else
    match here with
    | none => .error (missing path)
    | some place =>
      let next := place ++ [name]
      if f.hasFolder next then .ok (some next)
      else if (f.get? next).isSome then .error (notFolder path)
      else .error (missing path)

/-- The position of a path without its last name, and that name. -/
def locate (f : Folder) (path : String) : Except Error (Position × Option String) :=
  if path.toList.contains '\x00' then .error .nul
  else if maxPath < path.utf8ByteSize then .error (.system (tooLong path))
  else if path = "" then .error (.system (missing path))
  else
    let start : Position := if isAbsolute path then none else some []
    match (names path).dropLast.foldlM (f.enter path) start with
    | .ok position => .ok (position, (names path).getLast?)
    | .error e => .error (.system e)

/-- The place in the folder that a path leads to, where a file may be.  A path that ends with a
slash, with `.` or with `..` leads to a folder if to anything. -/
def resolve (f : Folder) (path : String) (toWrite : Bool) : Except Error (List String) :=
  let fail {α : Type} (e : SystemError) : Except Error α := .error (.system e)
  match f.locate path with
  | .error e => .error e
  | .ok (_, none) => fail (isFolder path)
  | .ok (position, some name) =>
    if name = "." ∨ name = ".." ∨ (toWrite ∧ endsWithSlash path) then fail (isFolder path)
    else if maxName < name.utf8ByteSize then fail (tooLong path)
    else
      match position with
      | none => fail (missing path)
      | some place =>
        let place := place ++ [name]
        if f.hasFolder place then fail (isFolder path)
        else if endsWithSlash path then
          fail (if (f.get? place).isSome then notFolder path else missing path)
        else .ok place

/-- The contents of the file under a path. -/
def read (f : Folder) (path : String) : Except Error Text.Bytes :=
  match f.resolve path false with
  | .error e => .error e
  | .ok place =>
    match f.get? place with
    | some bytes => .ok bytes
    | none => .error (.system (missing path))

/-- Write a file under a path. -/
def write (f : Folder) (path : String) (bytes : Text.Bytes) : Except Error Folder :=
  (f.resolve path true).map fun place => f.put place bytes

/-- The files that are new or different in the folder `f` after it was `old`, under their paths. -/
def changesSince (f old : Folder) : List (String × Text.Bytes) :=
  (f.files.filter fun (place, bytes) => old.get? place ≠ some bytes).map fun (place, bytes) =>
    ("/".intercalate place, bytes)

end Folder
end Files
end Flowchart
