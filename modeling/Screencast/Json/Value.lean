import Screencast.Decimal.Numeral

/-!
# JSON values

A value keeps what its text says: a number is its numeral, an object its members in order with
repetitions, and a string that cannot be text (one with half of a surrogate pair) is told apart
from those that can.

* `Json.fields?`: the fields of a record, written as an object or as an array.
* `Fields.get`, `Json.option?`, `Json.word?`: the readers of single fields.
-/

namespace Screencast

/-- A JSON value. A string or a key is `none` if its escapes leave a surrogate without its
partner. -/
inductive Json
  | null
  | bool (b : Bool)
  | number (n : Numeral)
  | string (s : Option String)
  | array (items : List Json)
  | object (members : List (Option String × Json))

/-- The fields of a record as they were written. -/
structure Fields where
  /-- The value of a field, if the record has one for it. -/
  find : String → Option Json
  /-- Whether the record is an array, so that its fields have no names. -/
  positional : Bool

namespace Json

def bool? : Json → Option Bool
  | .bool b => some b
  | _ => none

def string? : Json → Option String
  | .string s => s
  | _ => none

/-- A plain numeral of at most `bound`. -/
def nat? (bound : Nat) : Json → Option Nat
  | .number n => n.toNat?.filter (· ≤ bound)
  | _ => none

def word? (j : Json) : Option UInt32 := (j.nat? (2 ^ 32 - 1)).map UInt32.ofNat

def longWord? (j : Json) : Option UInt64 := (j.nat? (2 ^ 64 - 1)).map UInt64.ofNat

/-- `null` for nothing. -/
def option? {α : Type} (read : Json → Option α) : Json → Option (Option α)
  | .null => some none
  | j => (read j).map some

/-- The value of one of a few names: the name itself, or an object with the name as its only key
and `null` as its value. -/
def name? {α : Type} (names : List (String × α)) : Json → Option α
  | .string (some s) => names.lookup s
  | .object [(some s, .null)] => names.lookup s
  | _ => none

/-- The members with one of the given names, if no name stands twice and every key is text. -/
def named? (names : List String) : List (Option String × Json) → Option (List (String × Json))
  | [] => some []
  | (none, _) :: _ => none
  | (some key, value) :: rest => do
    let others ← named? names rest
    if !names.contains key then return others
    if others.any (·.1 == key) then none
    return (key, value) :: others

/-- The fields of a record: the members of an object, where unknown names are passed over, or the
items of an array in the order of the fields. -/
def fields? (names : List String) : Json → Option Fields
  | .object members => do
    let known ← named? names members
    return ⟨fun name => known.lookup name, false⟩
  | .array items =>
    if items.length ≤ names.length then
      some ⟨fun name => (names.zip items).lookup name, true⟩
    else none
  | _ => none

end Json

/-- A field's value, or what stands for a field that was not written. -/
def Fields.get {α : Type} (r : Fields) (name : String) (absent : Option α)
    (read : Json → Option α) : Option α :=
  match r.find name with
  | none => absent
  | some j => read j

/-- A field that must be written. -/
def Fields.required {α : Type} (r : Fields) (name : String) (read : Json → Option α) : Option α :=
  r.get name none read

/-- A field that may be left out where fields have names. -/
def Fields.optional {α : Type} (r : Fields) (name : String) (read : Json → Option α) :
    Option (Option α) :=
  r.get name (if r.positional then none else some none) (Json.option? read)

end Screencast
