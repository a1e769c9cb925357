import Screencast.Text.Unseen

/-!
# Quoted text

Text between quotes, in which every character can be seen: quotes, backslashes and the usual
controls have a letter, and what cannot be seen by itself is written as its number.

* `Quoted.ofChar`: a character as it stands between quotes.
* `Quoted.ofText`: a text with its quotes.
-/

namespace Screencast.Quoted

/-- The letter after a backslash that stands for a character. -/
def letter? : Char → Option Char
  | '"' => some '"'
  | '\\' => some '\\'
  | '\n' => some 'n'
  | '\r' => some 'r'
  | '\t' => some 't'
  | '\x00' => some '0'
  | _ => none

/-- A character by its number, in hexadecimal digits. -/
def number (c : Char) : List Char := ['\\', 'u', '{'] ++ Nat.toDigits 16 c.toNat ++ ['}']

def ofChar (c : Char) : List Char :=
  match letter? c with
  | some l => ['\\', l]
  | none => if Unseen.isMark c || Unseen.isBlank c then number c else [c]

def ofText (s : String) : String := String.ofList ('"' :: s.toList.flatMap ofChar ++ ['"'])

end Screencast.Quoted
