import Screencast.Json.Value

/-!
# Writing JSON text

Two forms: the compact one without blanks, and the indented one with each member on a line of its
own, two blanks deeper than what holds it. Only a quote, a backslash and the control characters are
escaped in a string.

* `Json.compact`, `Json.indented`: the two texts of a value.
-/

namespace Screencast.Json

namespace Writer

def hexChar (n : Nat) : Char := if n < 10 then Char.ofNat (48 + n) else Char.ofNat (87 + n)

/-- A character as it stands in a string literal. -/
def escape (c : Char) : List Char :=
  match c with
  | '"' => ['\\', '"']
  | '\\' => ['\\', '\\']
  | '\x08' => ['\\', 'b']
  | '\t' => ['\\', 't']
  | '\n' => ['\\', 'n']
  | '\x0c' => ['\\', 'f']
  | '\r' => ['\\', 'r']
  | c =>
    if c.toNat < 32 then ['\\', 'u', '0', '0', hexChar (c.toNat / 16), hexChar (c.toNat % 16)]
    else [c]

/-- A string literal. -/
def quote (s : Option String) : List Char :=
  '"' :: (s.getD "").toList.flatMap escape ++ ['"']

mutual

def compact : Json → List Char
  | .null => ['n', 'u', 'l', 'l']
  | .bool true => ['t', 'r', 'u', 'e']
  | .bool false => ['f', 'a', 'l', 's', 'e']
  | .number n => n.chars
  | .string s => quote s
  | .array items => '[' :: compactItems items ++ [']']
  | .object members => '{' :: compactMembers members ++ ['}']

def compactItems : List Json → List Char
  | [] => []
  | [v] => compact v
  | v :: vs => compact v ++ ',' :: compactItems vs

def compactMembers : List (Option String × Json) → List Char
  | [] => []
  | [(key, v)] => quote key ++ ':' :: compact v
  | (key, v) :: ms => quote key ++ ':' :: compact v ++ ',' :: compactMembers ms

end

/-- A new line at a depth. -/
def newLine (depth : Nat) : List Char := '\n' :: List.replicate (2 * depth) ' '

mutual

def indented (depth : Nat) : Json → List Char
  | .array [] => ['[', ']']
  | .array items => '[' :: indentedItems (depth + 1) items ++ newLine depth ++ [']']
  | .object [] => ['{', '}']
  | .object members => '{' :: indentedMembers (depth + 1) members ++ newLine depth ++ ['}']
  | v => compact v

def indentedItems (depth : Nat) : List Json → List Char
  | [] => []
  | [v] => newLine depth ++ indented depth v
  | v :: vs => newLine depth ++ indented depth v ++ ',' :: indentedItems depth vs

def indentedMembers (depth : Nat) : List (Option String × Json) → List Char
  | [] => []
  | [(key, v)] => newLine depth ++ quote key ++ [':', ' '] ++ indented depth v
  | (key, v) :: ms =>
    newLine depth ++ quote key ++ [':', ' '] ++ indented depth v ++ ',' :: indentedMembers depth ms

end

end Writer

/-- The text without blanks. -/
def compact (v : Json) : String := String.ofList (Writer.compact v)

/-- The text with each member on its own line. -/
def indented (v : Json) : String := String.ofList (Writer.indented 0 v)

/-- An object of named values. -/
def record (members : List (String × Json)) : Json :=
  .object (members.map fun (name, v) => (some name, v))

def text (s : String) : Json := .string (some s)

def ofNat (n : Nat) : Json := .number (.ofNat n)

/-- A word. -/
def ofWord (n : UInt32) : Json := .ofNat n.toNat

def ofOption {α : Type} (write : α → Json) : Option α → Json
  | none => .null
  | some a => write a

end Screencast.Json
