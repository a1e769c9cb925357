import Screencast.Json.Value

/-!
# Reading JSON text

Strict JSON: blanks between tokens only, no comma at the end, no leading zero or plus, no bare
control character in a string.

* `Json.Reader.numeral?`: the longest numeral at the start of the text.
* `Json.Reader.literal?`: the rest of a string literal as code units.
* `Json.Reader.value?`: a value and the text after it; a bound on the nesting makes it total.
* `Json.read?`: a whole text, the bound taken from its length.
-/

namespace Screencast.Json

namespace Reader

/-- What may stand between tokens. -/
def isBlank (c : Char) : Bool := c == ' ' || c == '\n' || c == '\t' || c == '\r'

def skipBlanks (cs : List Char) : List Char := cs.dropWhile isBlank

/-- The digits at the start of the text. -/
def leadingDigits : List Char → List Digit × List Char
  | [] => ([], [])
  | c :: cs =>
    match Digit.ofChar? c with
    | some d => ((d :: (leadingDigits cs).1), (leadingDigits cs).2)
    | none => ([], c :: cs)

/-- At least one digit. -/
def someDigits? (cs : List Char) : Option (List Digit × List Char) :=
  match leadingDigits cs with
  | ([], _) => none
  | r => some r

/-- The whole part: no zero before another digit. -/
def whole? (cs : List Char) : Option (List Digit × List Char) :=
  match leadingDigits cs with
  | ([], _) => none
  | (0 :: _ :: _, _) => none
  | r => some r

def fraction? : List Char → Option (List Digit × List Char)
  | '.' :: cs => someDigits? cs
  | cs => some ([], cs)

/-- The digits of an exponent after its sign. -/
def exponentDigits? (negative : Bool) (cs : List Char) : Option (Option Int × List Char) := do
  let (ds, rest) ← someDigits? cs
  return (some (if negative then -(toNat ds : Int) else toNat ds), rest)

def exponent? : List Char → Option (Option Int × List Char)
  | c :: cs =>
    if c == 'e' || c == 'E' then
      match cs with
      | '+' :: r => exponentDigits? false r
      | '-' :: r => exponentDigits? true r
      | r => exponentDigits? false r
    else some (none, c :: cs)
  | [] => some (none, [])

/-- A sign at the start of the text. -/
def sign : List Char → Bool × List Char
  | '-' :: cs => (true, cs)
  | cs => (false, cs)

def numeral? (cs : List Char) : Option (Numeral × List Char) := do
  let (negative, cs) := sign cs
  let (whole, cs) ← whole? cs
  let (fraction, cs) ← fraction? cs
  let (exponent, cs) ← exponent? cs
  return (⟨negative, whole, fraction, exponent⟩, cs)

/-- A part of a string literal: a character, or half of a surrogate pair. -/
inductive CodeUnit
  | char (c : Char)
  | half (n : Nat)
  deriving DecidableEq

/-- The value of a hexadecimal digit of either case. -/
def hexDigit? (c : Char) : Option Nat :=
  if '0' ≤ c && c ≤ '9' then some (c.toNat - 48)
  else if 'a' ≤ c && c ≤ 'f' then some (c.toNat - 87)
  else if 'A' ≤ c && c ≤ 'F' then some (c.toNat - 55)
  else none

/-- The code unit with this number. -/
def CodeUnit.ofNat (n : Nat) : CodeUnit :=
  if 0xD800 ≤ n && n < 0xE000 then .half n else .char (Char.ofNat n)

def unit? (a b c d : Char) : Option CodeUnit := do
  let a ← hexDigit? a
  let b ← hexDigit? b
  let c ← hexDigit? c
  let d ← hexDigit? d
  return .ofNat (((a * 16 + b) * 16 + c) * 16 + d)

/-- The character that a one-letter escape stands for. -/
def escaped? : Char → Option Char
  | '"' => some '"'
  | '\\' => some '\\'
  | '/' => some '/'
  | 'b' => some '\x08'
  | 'f' => some '\x0c'
  | 'n' => some '\n'
  | 'r' => some '\r'
  | 't' => some '\t'
  | _ => none

/-- The rest of a string literal after its opening quote, and the text after its closing one. -/
def literal? : List Char → Option (List CodeUnit × List Char)
  | [] => none
  | '"' :: rest => some ([], rest)
  | '\\' :: 'u' :: a :: b :: c :: d :: rest => do
    let unit ← unit? a b c d
    let (units, rest) ← literal? rest
    return (unit :: units, rest)
  | '\\' :: e :: rest => do
    let c ← escaped? e
    let (units, rest) ← literal? rest
    return (.char c :: units, rest)
  | c :: rest =>
    if c.toNat < 32 || c == '\\' then none
    else do
      let (units, rest) ← literal? rest
      return (.char c :: units, rest)

/-- The characters of a literal: a high half must be followed by a low one. -/
def join? : List CodeUnit → Option (List Char)
  | [] => some []
  | .char c :: rest => (join? rest).map (c :: ·)
  | .half high :: .half low :: rest =>
    if high < 0xDC00 && 0xDC00 ≤ low then
      (join? rest).map (Char.ofNat (0x10000 + (high - 0xD800) * 0x400 + (low - 0xDC00)) :: ·)
    else none
  | .half _ :: _ => none

/-- A string literal after its opening quote. -/
def text? (cs : List Char) : Option (Option String × List Char) := do
  let (units, rest) ← literal? cs
  return ((join? units).map String.ofList, rest)

/-- A key and its colon. -/
def key? (cs : List Char) : Option (Option String × List Char) := do
  match skipBlanks cs with
  | '"' :: rest =>
    let (key, rest) ← text? rest
    match skipBlanks rest with
    | ':' :: rest => return (key, rest)
    | _ => none
  | _ => none

mutual

/-- A value, blanks before it passed over. The number bounds the nesting and the length. -/
def value? : Nat → List Char → Option (Json × List Char)
  | 0, _ => none
  | n + 1, cs =>
    match skipBlanks cs with
    | '{' :: rest =>
      match skipBlanks rest with
      | '}' :: rest => some (.object [], rest)
      | rest => (members? n rest).map fun (ms, rest) => (.object ms, rest)
    | '[' :: rest =>
      match skipBlanks rest with
      | ']' :: rest => some (.array [], rest)
      | rest => (items? n rest).map fun (vs, rest) => (.array vs, rest)
    | '"' :: rest => (text? rest).map fun (s, rest) => (.string s, rest)
    | 't' :: 'r' :: 'u' :: 'e' :: rest => some (.bool true, rest)
    | 'f' :: 'a' :: 'l' :: 's' :: 'e' :: rest => some (.bool false, rest)
    | 'n' :: 'u' :: 'l' :: 'l' :: rest => some (.null, rest)
    | rest => (numeral? rest).map fun (v, rest) => (.number v, rest)

/-- The items of an array up to its end. -/
def items? : Nat → List Char → Option (List Json × List Char)
  | 0, _ => none
  | n + 1, cs => do
    let (v, rest) ← value? n cs
    match skipBlanks rest with
    | ',' :: rest =>
      let (vs, rest) ← items? n rest
      return (v :: vs, rest)
    | ']' :: rest => return ([v], rest)
    | _ => none

/-- The members of an object up to its end. -/
def members? : Nat → List Char → Option (List (Option String × Json) × List Char)
  | 0, _ => none
  | n + 1, cs => do
    let (key, rest) ← key? cs
    let (v, rest) ← value? n rest
    match skipBlanks rest with
    | ',' :: rest =>
      let (ms, rest) ← members? n rest
      return ((key, v) :: ms, rest)
    | '}' :: rest => return ([(key, v)], rest)
    | _ => none

end

end Reader

/-- The value that a whole text stands for. Each nested value and each further item takes a
character at least, so twice the length bounds the reader. -/
def read? (text : String) : Option Json := do
  let cs := text.toList
  let (v, rest) ← Reader.value? (2 * cs.length + 2) cs
  if (Reader.skipBlanks rest).isEmpty then some v else none

end Screencast.Json
