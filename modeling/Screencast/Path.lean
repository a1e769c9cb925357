/-!
# File paths

A path is text whose slashes separate names. Its file name is the last part that is neither empty
nor a single dot; a path that ends in two dots, or has no such part, has no file name.

* `Path.pieces`: the parts between slashes, empty ones included.
* `Path.named?`: the file name with the text before and after it.
* `Path.withExtension`: the path with another extension.
-/

namespace Screencast

/-- The name of a file in the file system. -/
structure Path where
  text : String
  deriving DecidableEq, Repr

/-- The parts of a list around a separator. -/
def splitAround (separator : Char) : List Char → List (List Char)
  | [] => [[]]
  | c :: cs =>
    if c = separator then [] :: splitAround separator cs
    else
      match splitAround separator cs with
      | [] => [[c]]
      | piece :: rest => (c :: piece) :: rest

namespace Path

/-- The parts between slashes. -/
def pieces (p : Path) : List (List Char) := splitAround '/' p.text.toList

/-- A part that names nothing: one between two slashes, or a single dot. -/
def isEmptyPiece (piece : List Char) : Bool := piece == [] || piece == ['.']

/-- Two dots, which name what holds a directory. -/
def parent : List Char := ['.', '.']

/-- A path taken apart around its file name. -/
structure Named where
  before : List Char
  name : List Char
  /-- Slashes and single dots that follow the name. -/
  after : List Char
  deriving DecidableEq

/-- The path around its file name, if it has one. -/
def named? (p : Path) : Option Named :=
  match p.pieces.reverse.dropWhile isEmptyPiece with
  | [] => none
  | name :: earlier =>
    if name == parent then none
    else
      let later := (p.pieces.reverse.takeWhile isEmptyPiece).reverse
      some ⟨earlier.reverse.flatMap (· ++ ['/']), name, later.flatMap ('/' :: ·)⟩

/-- A file name before and after its last dot. A dot at the very start separates nothing. -/
def splitName (name : List Char) : List Char × Option (List Char) :=
  match name.reverse.dropWhile (· != '.') with
  | _ :: c :: stem => ((c :: stem).reverse, some (name.reverse.takeWhile (· != '.')).reverse)
  | _ => (name, none)

/-- The path with its extension replaced, or with one appended where it has none; what follows the
file name is dropped. A path without a file name stays as it is. A name that starts with two dots
and has no third loses its extension and is the parent directory, which takes none. -/
def withExtension (p : Path) (extension : String) : Path :=
  match p.named? with
  | none => p
  | some n =>
    let (stem, old) := splitName n.name
    if stem = ['.'] ∧ old.isSome ∧ n.after = [] then ⟨String.ofList (n.before ++ parent)⟩
    else ⟨String.ofList (n.before ++ stem ++ '.' :: extension.toList)⟩

end Path

end Screencast
