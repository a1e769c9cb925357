import Screencast.Path
import Screencast.Sample

/-!
# A file system

A tree of directories and files without links. Paths are followed from the root, whether or not they
begin with a slash. A name has at most 255 bytes and a path at most 4095.

* `Disk.resolve`: where a path leads, and why it leads nowhere.
* `Disk.read`, `Disk.create`, `Disk.append`, `Disk.remove`: the operations on files.
* `find?_put`: an operation changes the one entry that it names.
-/

namespace Screencast

/-- A place in the tree: the names that lead to it from the root. -/
abbrev Location := List String

inductive Disk.Entry
  | file (content : Bytes)
  | directory
  deriving DecidableEq

/-- The entries of a tree, each place once. The root is a directory and has no entry. -/
structure Disk where
  entries : List (Location × Disk.Entry)

/-- Why an operation on a file was refused. -/
inductive Disk.Refusal
  | notFound
  | notDirectory
  | isDirectory
  /-- A name in the path, or the whole path, has too many bytes. -/
  | nameTooLong
  /-- The path holds the character that the system takes for its end. -/
  | hasNul
  /-- Any other refusal of a system, such as one for want of a permission or of room. A tree of
  plain values has none of them. -/
  | other (text : String)
  deriving DecidableEq, Repr

namespace Disk

/-- The system's text for a refusal. -/
def Refusal.text : Refusal → String
  | notFound => "No such file or directory (os error 2)"
  | notDirectory => "Not a directory (os error 20)"
  | isDirectory => "Is a directory (os error 21)"
  | nameTooLong => "File name too long (os error 36)"
  | hasNul => "file name contained an unexpected NUL byte"
  | other text => text

/-- The bytes that a name can have. -/
def longestName : Nat := 255

/-- The bytes that a path can have. -/
def longestPath : Nat := 4095

def empty : Disk := ⟨[]⟩

def find? (d : Disk) (l : Location) : Option Entry :=
  if l = [] then some .directory else d.entries.lookup l

def erase (d : Disk) (l : Location) : Disk := ⟨d.entries.filter (·.1 != l)⟩

def put (d : Disk) (l : Location) (e : Entry) : Disk := ⟨(l, e) :: (d.erase l).entries⟩

theorem lookup_filter_ne {l l' : Location} (h : l' ≠ l) (es : List (Location × Entry)) :
    (es.filter (·.1 != l)).lookup l' = es.lookup l' := by
  induction es with
  | nil => rfl
  | cons e es ih =>
    by_cases he : e.1 = l
    · have : (l' == e.1) = false := by simp [he, h]
      rw [List.filter_cons_of_neg (by simp [he]), ih, List.lookup_cons, this]
    · rw [List.filter_cons_of_pos (by simp [he]), List.lookup_cons, List.lookup_cons, ih]

/-- **One entry changes.** -/
theorem find?_put (d : Disk) {l : Location} (l' : Location) (e : Entry) (h : l ≠ []) :
    (d.put l e).find? l' = if l' = l then some e else d.find? l' := by
  unfold find? put
  split
  · rename_i hn; subst hn; simp [Ne.symm h]
  · split
    · rename_i hl; subst hl; simp
    · rename_i hl
      have : (l' == l) = false := by simp [hl]
      simp only [List.lookup_cons, this, erase]
      exact lookup_filter_ne hl _

/-- Where a path leads: a name in a directory, perhaps with a slash after it, or a directory that
is reached by dots. -/
inductive Target
  | name (place : Location) (slash : Bool)
  | dots (place : Location)
  deriving DecidableEq

/-- Looks a place up by its name in a directory that is there. -/
def look (d : Disk) (l : Location) : Except Refusal (Option Entry) :=
  if longestName < (l.getLastD "").utf8ByteSize then .error .nameTooLong else .ok (d.find? l)

/-- One step into what must be a directory. -/
def enter (d : Disk) (l : Location) (piece : List Char) : Except Refusal Location :=
  if Path.isEmptyPiece piece then .ok l
  else if piece == Path.parent then .ok l.dropLast
  else
    let next := l ++ [String.ofList piece]
    match d.look next with
    | .error r => .error r
    | .ok (some .directory) => .ok next
    | .ok (some (.file _)) => .error .notDirectory
    | .ok none => .error .notFound

/-- Follows all parts but the last. -/
def walk (d : Disk) (l : Location) : List (List Char) → Except Refusal Target
  | [] => .ok (.dots l)
  | [last] =>
    if Path.isEmptyPiece last then .ok (.dots l)
    else if last == Path.parent then .ok (.dots l.dropLast)
    else .ok (.name (l ++ [String.ofList last]) false)
  | piece :: rest => do
    let next ← d.enter l piece
    d.walk next rest

/-- Where a path leads. Only the last part may be missing from the tree; the empty path leads
nowhere. -/
def resolve (d : Disk) (p : Path) : Except Refusal Target :=
  if '\x00' ∈ p.text.toList then .error .hasNul
  else if p.text.isEmpty then .error .notFound
  else if longestPath < p.text.utf8ByteSize then .error .nameTooLong
  else
    let names := p.pieces.filter (· != [])
    let slash := p.pieces.getLast? == some []
    match d.walk [] names with
    | .ok (.name place _) => .ok (.name place slash)
    | r => r

/-- The content of a file. -/
def read (d : Disk) (p : Path) : Except Refusal Bytes := do
  match ← d.resolve p with
  | .dots _ => throw .isDirectory
  | .name place slash =>
    match ← d.look place with
    | none => throw .notFound
    | some .directory => throw .isDirectory
    | some (.file content) => if slash then throw .notDirectory else return content

/-- Where a file can be created. -/
def newPlace (d : Disk) (p : Path) : Except Refusal Location := do
  match ← d.resolve p with
  | .dots _ => throw .isDirectory
  | .name place slash =>
    if slash then throw .isDirectory
    if (← d.look place) == some .directory then throw .isDirectory
    return place

/-- Makes an empty file; one that is there is emptied. -/
def create (d : Disk) (p : Path) : Except Refusal Disk := do
  return d.put (← d.newPlace p) (.file [])

/-- Makes a file with the given content in place of what is there. -/
def write (d : Disk) (p : Path) (content : Bytes) : Except Refusal Disk := do
  return d.put (← d.newPlace p) (.file content)

/-- Adds bytes at the end of a file. -/
def append (d : Disk) (p : Path) (bytes : Bytes) : Except Refusal Disk := do
  let content ← d.read p
  return d.put (← d.newPlace p) (.file (content ++ bytes))

/-- Removes a file. -/
def remove (d : Disk) (p : Path) : Except Refusal Disk := do
  match ← d.resolve p with
  | .dots _ => throw .isDirectory
  | .name place slash =>
    match ← d.look place with
    | none => throw .notFound
    | some .directory => throw .isDirectory
    | some (.file _) => if slash then throw .notDirectory else return d.erase place

/-- Makes a directory and those above it, as far as they are missing. -/
def makeDirectory (d : Disk) (p : Path) : Disk :=
  let names := (p.pieces.filter (!Path.isEmptyPiece ·)).map String.ofList
  (List.range names.length).foldl (fun d i =>
    let place := names.take (i + 1)
    if (d.find? place).isSome then d else d.put place .directory) d

/-- What lies below a place: the names that lead there from it, and the entry. -/
def below (d : Disk) (l : Location) : List (Location × Entry) :=
  d.entries.filterMap fun (place, e) =>
    if l.isPrefixOf place && place != l then some (place.drop l.length, e) else none

end Disk

end Screencast
