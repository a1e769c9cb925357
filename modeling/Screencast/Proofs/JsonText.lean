import Screencast.Json.Reader
import Screencast.Json.Writer
import Mathlib.Data.List.DropRight
import Mathlib.Tactic.Common

/-!
# Reading back what was written

The reader gives a value back from either of its texts. The compact and the indented text differ in
where blanks stand; both are the text of one writer with a spacing.

* `Numeral.Proper`, `Json.Proper`: the values that have a text of their own.
* `Writer.spelled`: a text with a spacing; `spelled_tight`, `spelled_lines`: the two texts.
* `numeral?_chars`, `text?_quote`: what a value's leaves are read as.
* `value?_spelled`: the reader with enough fuel; the text's length is enough.
* `read?_indented`, `read?_compact`: the main results.
-/

namespace Screencast

/-! ## Values with a text -/

/-- The whole part has a digit, and a zero at its start stands alone. -/
def Numeral.Proper (n : Numeral) : Prop := ∃ d ds, n.whole = d :: ds ∧ (d = 0 → ds = [])

namespace Json

mutual

/-- Numbers are written as the reader allows, and strings and keys are text. -/
def Proper : Json → Prop
  | .number n => n.Proper
  | .string s => s.isSome
  | .array items => ProperItems items
  | .object members => ProperMembers members
  | _ => True

def ProperItems : List Json → Prop
  | [] => True
  | v :: vs => v.Proper ∧ ProperItems vs

def ProperMembers : List (Option String × Json) → Prop
  | [] => True
  | (key, v) :: ms => key.isSome ∧ v.Proper ∧ ProperMembers ms

end

/-! ## Blanks -/

namespace Writer

/-- Where blanks stand in a text. -/
structure Spacing where
  /-- Before an item, a member or the end of a list of them, at a depth. -/
  line : ℕ → List Char
  /-- After the colon of a key. -/
  colon : List Char
  line_blank : ∀ depth, ∀ c ∈ line depth, Reader.isBlank c
  colon_blank : ∀ c ∈ colon, Reader.isBlank c

/-- No blanks. -/
def Spacing.tight : Spacing := ⟨fun _ => [], [], by simp, by simp⟩

/-- A line for each item and member. -/
def Spacing.lines : Spacing where
  line := newLine
  colon := [' ']
  line_blank depth c hc := by
    rcases List.mem_cons.1 hc with rfl | hc
    · rfl
    · rw [List.eq_of_mem_replicate hc]
      rfl
  colon_blank c hc := by
    rw [List.mem_singleton.1 hc]
    rfl

section Spelled

variable (s : Spacing)

mutual

/-- The text of a value with a spacing. -/
def spelled (depth : ℕ) : Json → List Char
  | .array [] => ['[', ']']
  | .array items => '[' :: spelledItems (depth + 1) items ++ s.line depth ++ [']']
  | .object [] => ['{', '}']
  | .object members => '{' :: spelledMembers (depth + 1) members ++ s.line depth ++ ['}']
  | v => compact v

def spelledItems (depth : ℕ) : List Json → List Char
  | [] => []
  | [v] => s.line depth ++ spelled depth v
  | v :: vs => s.line depth ++ spelled depth v ++ ',' :: spelledItems depth vs

def spelledMembers (depth : ℕ) : List (Option String × Json) → List Char
  | [] => []
  | [(key, v)] => s.line depth ++ quote key ++ ':' :: s.colon ++ spelled depth v
  | (key, v) :: ms =>
    s.line depth ++ quote key ++ ':' :: s.colon ++ spelled depth v ++ ',' :: spelledMembers depth ms

end

end Spelled

mutual

/-- The indented text has a line for each item and member. -/
theorem spelled_lines (depth : ℕ) : ∀ v, spelled .lines depth v = indented depth v
  | .null | .bool true | .bool false | .number _ | .string _ | .array [] | .object [] => rfl
  | .array (v :: vs) => by
    simp only [spelled, indented, spelledItems_lines]
    rfl
  | .object (m :: ms) => by
    simp only [spelled, indented, spelledMembers_lines]
    rfl

theorem spelledItems_lines (depth : ℕ) : ∀ vs, spelledItems .lines depth vs = indentedItems depth vs
  | [] => rfl
  | [v] => by
    simp only [spelledItems, indentedItems, spelled_lines]
    rfl
  | v :: w :: vs => by
    simp only [spelledItems, indentedItems, spelled_lines, spelledItems_lines depth (w :: vs)]
    rfl

theorem spelledMembers_lines (depth : ℕ) :
    ∀ ms, spelledMembers .lines depth ms = indentedMembers depth ms
  | [] => rfl
  | [(key, v)] => by
    simp only [spelledMembers, indentedMembers, spelled_lines]
    rfl
  | (key, v) :: m :: ms => by
    simp only [spelledMembers, indentedMembers, spelled_lines, spelledMembers_lines depth (m :: ms)]
    rfl

end

mutual

/-- The compact text has no blanks. -/
theorem spelled_tight (depth : ℕ) : ∀ v, spelled .tight depth v = compact v
  | .null | .bool true | .bool false | .number _ | .string _ | .array [] | .object [] => rfl
  | .array (v :: vs) => by
    simp only [spelled, compact, spelledItems_tight]
    simp [Spacing.tight]
  | .object (m :: ms) => by
    simp only [spelled, compact, spelledMembers_tight]
    simp [Spacing.tight]

theorem spelledItems_tight (depth : ℕ) : ∀ vs, spelledItems .tight depth vs = compactItems vs
  | [] => rfl
  | [v] => by
    simp only [spelledItems, compactItems, spelled_tight]
    rfl
  | v :: w :: vs => by
    simp only [spelledItems, compactItems, spelled_tight, spelledItems_tight depth (w :: vs)]
    rfl

theorem spelledMembers_tight (depth : ℕ) :
    ∀ ms, spelledMembers .tight depth ms = compactMembers ms
  | [] => rfl
  | [(key, v)] => by
    simp only [spelledMembers, compactMembers, spelled_tight]
    simp [Spacing.tight]
  | (key, v) :: m :: ms => by
    simp only [spelledMembers, compactMembers, spelled_tight, spelledMembers_tight depth (m :: ms)]
    simp [Spacing.tight]

end

end Writer

namespace Reader

variable {cs rest : List Char}

theorem skipBlanks_append {blanks : List Char} (hb : ∀ c ∈ blanks, isBlank c) (cs : List Char) :
    skipBlanks (blanks ++ cs) = skipBlanks cs := List.dropWhile_append_of_pos hb

theorem skipBlanks_of_head {c : Char} (hc : ¬isBlank c) : skipBlanks (c :: cs) = c :: cs :=
  List.dropWhile_cons_of_neg hc

/-! ## Numbers -/

/-- The characters that may follow a value. -/
def ends : List Char := [' ', '\n', '\t', '\r', ',', ']', '}']

/-- A text after a value. -/
def Ends (cs : List Char) : Prop := ∀ c ∈ cs.head?, c ∈ ends

/-- Digits are taken up to what is none. -/
theorem leadingDigits_map (ds : List Digit) (hr : leadingDigits rest = ([], rest)) :
    leadingDigits (ds.map Digit.toChar ++ rest) = (ds, rest) := by
  induction ds with
  | nil => exact hr
  | cons d ds ih =>
    rw [List.map_cons, List.cons_append, leadingDigits, Digit.ofChar?_toChar]
    simp only [ih]

/-- A number is not carried on by what follows a value. -/
theorem Ends.stop (hr : Ends rest) : leadingDigits rest = ([], rest) ∧
    fraction? rest = some ([], rest) ∧ exponent? rest = some (none, rest) := by
  cases rest with
  | nil => exact ⟨rfl, rfl, rfl⟩
  | cons c cs =>
    have hc := hr c rfl
    simp only [ends, List.mem_cons, List.not_mem_nil, or_false] at hc
    rcases hc with rfl | rfl | rfl | rfl | rfl | rfl | rfl <;> exact ⟨rfl, rfl, rfl⟩

theorem someDigits?_map {ds : List Digit} (hne : ds ≠ []) (hr : leadingDigits rest = ([], rest)) :
    someDigits? (ds.map Digit.toChar ++ rest) = some (ds, rest) := by
  obtain ⟨d, ds, rfl⟩ := List.exists_cons_of_ne_nil hne
  rw [someDigits?, leadingDigits_map _ hr]

theorem whole?_map {ds : List Digit} (hd : ∃ d es, ds = d :: es ∧ (d = 0 → es = []))
    (hr : leadingDigits rest = ([], rest)) :
    whole? (ds.map Digit.toChar ++ rest) = some (ds, rest) := by
  obtain ⟨d, es, rfl, hzero⟩ := hd
  rw [whole?, leadingDigits_map _ hr]
  split
  · next h => cases h
  · next h =>
    simp only [Prod.mk.injEq, List.cons.injEq] at h
    rw [hzero h.1.1] at h
    exact absurd h.1.2 (by simp)
  · rfl

/-- An exponent is read back. -/
theorem exponent?_elim (e : Option ℤ) (hr : Ends rest) :
    exponent? (e.elim [] Numeral.exponentText ++ rest) = some (e, rest) := by
  cases e with
  | none => exact hr.stop.2.2
  | some e =>
    have hne : digits e.natAbs ≠ [] := by
      rw [digits]
      split <;> simp
    have hread : ∀ negative, exponentDigits? negative ((digits e.natAbs).map Digit.toChar ++ rest) =
        some (some (if negative then -(e.natAbs : ℤ) else e.natAbs), rest) := fun negative => by
      rw [exponentDigits?, someDigits?_map hne hr.stop.1]
      simp [toNat_digits]
    rw [Option.elim_some, Numeral.exponentText]
    by_cases he : e < 0
    · simp only [he, if_true, List.cons_append, exponent?]
      refine (hread true).trans ?_
      rw [if_pos rfl, Int.ofNat_natAbs_of_nonpos (by omega), Int.neg_neg]
    · simp only [he, if_false, List.cons_append, exponent?]
      refine (hread false).trans ?_
      rw [if_neg (by simp), Int.natAbs_of_nonneg (by omega)]

theorem fraction?_map (ds : List Digit) (hr : leadingDigits rest = ([], rest))
    (hpoint : fraction? rest = some ([], rest)) :
    fraction? ((if ds.isEmpty then [] else '.' :: ds.map Digit.toChar) ++ rest) =
      some (ds, rest) := by
  cases ds with
  | nil => exact hpoint
  | cons d ds => exact someDigits?_map (List.cons_ne_nil d ds) hr

theorem leadingDigits_fraction (ds : List Digit) (hr : leadingDigits rest = ([], rest)) :
    leadingDigits ((if ds.isEmpty then [] else '.' :: ds.map Digit.toChar) ++ rest) =
      ([], (if ds.isEmpty then [] else '.' :: ds.map Digit.toChar) ++ rest) := by
  cases ds with
  | nil => exact hr
  | cons d ds => rfl

theorem sign_map {negative : Bool} {ds : List Digit} (hne : ds ≠ []) :
    sign ((if negative then ['-'] else []) ++ (ds.map Digit.toChar ++ rest)) =
      (negative, ds.map Digit.toChar ++ rest) := by
  obtain ⟨d, ds, rfl⟩ := List.exists_cons_of_ne_nil hne
  cases negative with
  | true => rfl
  | false =>
    have hminus : ∀ d : Digit, d.toChar ≠ '-' := by decide
    rw [if_neg (by simp), List.nil_append, sign]
    rintro cs h
    exact hminus d (List.cons.inj h).1

/-- **A number is read back.** -/
theorem numeral?_chars {n : Numeral} (hn : n.Proper) (hr : Ends rest) :
    numeral? (n.chars ++ rest) = some (n, rest) := by
  obtain ⟨negative, whole, fraction, exponent⟩ := n
  have hne : whole ≠ [] := by
    obtain ⟨d, ds, rfl, -⟩ := hn
    exact List.cons_ne_nil d ds
  have hafter : leadingDigits (exponent.elim [] Numeral.exponentText ++ rest) =
        ([], exponent.elim [] Numeral.exponentText ++ rest) ∧
      fraction? (exponent.elim [] Numeral.exponentText ++ rest) =
        some ([], exponent.elim [] Numeral.exponentText ++ rest) := by
    cases exponent with
    | none => exact ⟨hr.stop.1, hr.stop.2.1⟩
    | some e => exact ⟨rfl, rfl⟩
  have hfraction := fraction?_map fraction hafter.1 hafter.2
  have hpoint := leadingDigits_fraction fraction hafter.1
  simp only [Numeral.chars, List.append_assoc, numeral?, sign_map hne, whole?_map hn hpoint,
    hfraction, exponent?_elim exponent hr, Option.bind_eq_bind, Option.bind_some, Option.pure_def]

/-! ## Strings -/

theorem unit?_control : ∀ n < 32,
    unit? '0' '0' (Writer.hexChar (n / 16)) (Writer.hexChar (n % 16)) =
      some (.char (Char.ofNat n)) := by decide

theorem literal?_escaped {c e : Char} (he : escaped? e = some c) (rest : List Char) :
    literal? ('\\' :: e :: rest) =
      (literal? rest).map fun (units, rest) => (.char c :: units, rest) := by
  rw [literal?, he]
  · cases literal? rest <;> rfl
  · rintro _ _ _ _ _ rfl
    cases he

theorem literal?_plain {c : Char} (hquote : c ≠ '"') (hbackslash : c ≠ '\\') (hc : 32 ≤ c.toNat)
    (rest : List Char) :
    literal? (c :: rest) = (literal? rest).map fun (units, rest) => (.char c :: units, rest) := by
  rw [literal?]
  · rw [if_neg (by simpa [hbackslash] using hc)]
    cases literal? rest <;> rfl
  · exact hquote
  · rintro _ _ _ _ _ rfl
    exact absurd rfl hbackslash
  · rintro _ _ rfl
    exact absurd rfl hbackslash

/-- A character is read back as it is escaped. -/
theorem literal?_escape (c : Char) (rest : List Char) :
    literal? (Writer.escape c ++ rest) =
      (literal? rest).map fun (units, rest) => (.char c :: units, rest) := by
  unfold Writer.escape
  split
  case h_8 hquote hbackslash _ _ _ _ _ =>
    split
    · next hlt =>
      have hunit := unit?_control c.toNat hlt
      rw [Char.ofNat_toNat] at hunit
      simp only [List.cons_append, List.nil_append, literal?, hunit]
      cases literal? rest <;> rfl
    · next hge => exact literal?_plain hquote hbackslash (by omega) rest
  all_goals exact literal?_escaped rfl rest

/-- **A string is read back.** -/
theorem text?_quote {s : Option String} (hs : s.isSome) (rest : List Char) :
    ∃ cs, Writer.quote s ++ rest = '"' :: cs ∧ text? cs = some (s, rest) := by
  obtain ⟨s, rfl⟩ := Option.isSome_iff_exists.1 hs
  refine ⟨s.toList.flatMap Writer.escape ++ '"' :: rest, by simp [Writer.quote], ?_⟩
  have hliteral : ∀ cs : List Char, literal? (cs.flatMap Writer.escape ++ '"' :: rest) =
      some (cs.map .char, rest) := by
    intro cs
    induction cs with
    | nil => rfl
    | cons c cs ih =>
      rw [List.flatMap_cons, List.append_assoc, literal?_escape, ih]
      rfl
  have hjoin : ∀ cs : List Char, join? (cs.map .char) = some cs := by
    intro cs
    induction cs with
    | nil => rfl
    | cons c cs ih =>
      rw [List.map_cons, join?, ih]
      rfl
  simp [text?, hliteral, hjoin]

/-! ## Values -/

theorem key?_skipBlanks (cs : List Char) : key? (skipBlanks cs) = key? cs := by
  rw [key?, key?, skipBlanks, skipBlanks, List.dropWhile_idempotent]

theorem value?_skipBlanks (n : ℕ) (cs : List Char) : value? n (skipBlanks cs) = value? n cs := by
  cases n with
  | zero => rfl
  | succ n => rw [value?, value?, skipBlanks, skipBlanks, List.dropWhile_idempotent]

theorem items?_skipBlanks (n : ℕ) (cs : List Char) : items? n (skipBlanks cs) = items? n cs := by
  cases n with
  | zero => rfl
  | succ n => rw [items?, items?, value?_skipBlanks]

theorem members?_skipBlanks (n : ℕ) (cs : List Char) :
    members? n (skipBlanks cs) = members? n cs := by
  cases n with
  | zero => rfl
  | succ n => rw [members?, members?, key?_skipBlanks]

/-- An array with items. -/
theorem value?_array {n : ℕ} (hcs : ∀ r, skipBlanks cs ≠ ']' :: r) :
    value? (n + 1) ('[' :: cs) = (items? n cs).map fun (vs, rest) => (.array vs, rest) := by
  rw [value?, skipBlanks_of_head (by decide)]
  simp only
  rw [items?_skipBlanks]

/-- An object with members. -/
theorem value?_object {n : ℕ} (hcs : ∀ r, skipBlanks cs ≠ '}' :: r) :
    value? (n + 1) ('{' :: cs) = (members? n cs).map fun (ms, rest) => (.object ms, rest) := by
  rw [value?, skipBlanks_of_head (by decide)]
  simp only
  rw [members?_skipBlanks]

/-- The characters that a number starts with. -/
theorem chars_head {n : Numeral} (hn : n.Proper) :
    ∃ c cs, n.chars = c :: cs ∧ (c = '-' ∨ ∃ d : Digit, c = d.toChar) := by
  obtain ⟨negative, whole, fraction, exponent⟩ := n
  obtain ⟨d, ds, rfl, -⟩ := hn
  cases negative
  · exact ⟨_, _, rfl, .inr ⟨d, rfl⟩⟩
  · exact ⟨_, _, rfl, .inl rfl⟩

theorem value?_numeral {m : Numeral} (hm : m.Proper) (hr : Ends rest) (n : ℕ) :
    value? (n + 1) (m.chars ++ rest) = some (.number m, rest) := by
  obtain ⟨c, cs, hchars, hc⟩ := chars_head hm
  have hread := numeral?_chars hm hr
  rw [hchars, List.cons_append] at hread ⊢
  have hc' : ¬isBlank c ∧ c ∉ ['{', '[', '"', 't', 'f', 'n'] := by
    rcases hc with rfl | ⟨d, rfl⟩
    · decide
    · have : ∀ d : Digit, ¬isBlank d.toChar ∧ d.toChar ∉ ['{', '[', '"', 't', 'f', 'n'] := by decide
      exact this d
  simp only [List.mem_cons, List.not_mem_nil, or_false, not_or] at hc'
  obtain ⟨hblank, h₁, h₂, h₃, h₄, h₅, h₆⟩ := hc'
  rw [value?, skipBlanks_of_head hblank]
  split
  all_goals first | (rw [hread]; rfl) | (next h => exact absurd (List.cons.inj h).1 ‹_›)

/-- A text starts with no blank and does not end an array. -/
theorem spelled_head (s : Writer.Spacing) (depth : ℕ) {v : Json} (hv : v.Proper) :
    ∃ c cs, Writer.spelled s depth v = c :: cs ∧ ¬isBlank c ∧ c ≠ ']' := by
  match v with
  | .null | .bool true | .bool false | .string _ | .array [] | .object [] =>
    exact ⟨_, _, rfl, by decide, by decide⟩
  | .array (_ :: _) => exact ⟨_, _, rfl, by decide, by decide⟩
  | .object (_ :: _) => exact ⟨_, _, rfl, by decide, by decide⟩
  | .number n =>
    obtain ⟨c, cs, hchars, hc⟩ := chars_head hv
    refine ⟨c, cs, hchars, ?_⟩
    rcases hc with rfl | ⟨d, rfl⟩
    · decide
    · have : ∀ d : Digit, ¬isBlank d.toChar ∧ d.toChar ≠ ']' := by decide
      exact this d

/-! ## Whole values -/

section Spelled

variable (s : Writer.Spacing)

theorem ends_line (depth : ℕ) {c : Char} (hc : c ∈ ends) (cs : List Char) :
    Ends (s.line depth ++ c :: cs) := by
  intro b hb
  cases hline : s.line depth with
  | nil =>
    rw [hline, List.nil_append, List.head?_cons, Option.mem_some] at hb
    exact hb ▸ hc
  | cons a as =>
    rw [hline, List.cons_append, List.head?_cons, Option.mem_some] at hb
    have hblank := s.line_blank depth b (by simp [hline, hb])
    simp only [isBlank, Bool.or_eq_true, beq_iff_eq] at hblank
    simp only [ends, List.mem_cons]
    tauto

theorem skipBlanks_line (depth : ℕ) (cs : List Char) :
    skipBlanks (s.line depth ++ cs) = skipBlanks cs :=
  skipBlanks_append (s.line_blank depth) cs

/-- Blanks before a value are passed over. -/
theorem value?_append {blanks : List Char} (hb : ∀ c ∈ blanks, isBlank c) (n : ℕ) (cs : List Char) :
    value? n (blanks ++ cs) = value? n cs := by
  rw [← value?_skipBlanks, skipBlanks_append hb, value?_skipBlanks]

/-- The key of a member. -/
theorem key?_quote {key : Option String} (hkey : key.isSome) (depth : ℕ) (rest : List Char) :
    key? (s.line depth ++ (Writer.quote key ++ ':' :: rest)) = some (key, rest) := by
  obtain ⟨cs, htext, hread⟩ := text?_quote hkey (':' :: rest)
  rw [key?, skipBlanks_line, htext, skipBlanks_of_head (by decide)]
  simp only [hread, Option.bind_eq_bind, Option.bind_some]
  rw [skipBlanks_of_head (by decide)]
  rfl

/-- What follows the opening of an array with items is no end of it. -/
theorem skipBlanks_spelledItems (depth : ℕ) {v : Json} (hv : v.Proper) (vs : List Json)
    (rest r : List Char) :
    skipBlanks (Writer.spelledItems s depth (v :: vs) ++ rest) ≠ ']' :: r := by
  obtain ⟨t, hitems⟩ : ∃ t, Writer.spelledItems s depth (v :: vs) =
      s.line depth ++ (Writer.spelled s depth v ++ t) := by
    cases vs with
    | nil => exact ⟨[], by simp [Writer.spelledItems]⟩
    | cons w vs => exact ⟨_, by rw [Writer.spelledItems, List.append_assoc]; simp⟩
  obtain ⟨c, cs, hhead, hblank, hclose⟩ := spelled_head s depth hv
  rw [hitems, List.append_assoc, skipBlanks_line, hhead, List.cons_append, List.cons_append,
    skipBlanks_of_head hblank]
  exact fun h => hclose (List.cons.inj h).1

/-- What follows the opening of an object with members is no end of it. -/
theorem skipBlanks_spelledMembers (depth : ℕ) (key : Option String) (v : Json)
    (ms : List (Option String × Json)) (rest r : List Char) :
    skipBlanks (Writer.spelledMembers s depth ((key, v) :: ms) ++ rest) ≠ '}' :: r := by
  obtain ⟨t, hmembers⟩ : ∃ t, Writer.spelledMembers s depth ((key, v) :: ms) =
      s.line depth ++ '"' :: t := by
    obtain ⟨q, hquote⟩ : ∃ q, Writer.quote key = '"' :: q := ⟨_, rfl⟩
    cases ms with
    | nil => exact ⟨q ++ ':' :: s.colon ++ Writer.spelled s depth v, by
        simp [Writer.spelledMembers, hquote]⟩
    | cons m ms => exact ⟨q ++ ':' :: s.colon ++ Writer.spelled s depth v ++
        ',' :: Writer.spelledMembers s depth (m :: ms), by simp [Writer.spelledMembers, hquote]⟩
  rw [hmembers, List.append_assoc, skipBlanks_line, List.cons_append,
    skipBlanks_of_head (by decide)]
  exact fun h => absurd (List.cons.inj h).1 (by decide)

mutual

/-- **A value is read back** with as much fuel as twice the length of its text. -/
theorem value?_spelled (depth : ℕ) : ∀ (v : Json) (n : ℕ) (rest : List Char), v.Proper → Ends rest →
    2 * (Writer.spelled s depth v).length ≤ n →
    value? n (Writer.spelled s depth v ++ rest) = some (v, rest)
  | .null, n + 1, rest, _, _, _ => rfl
  | .bool true, n + 1, rest, _, _, _ => rfl
  | .bool false, n + 1, rest, _, _, _ => rfl
  | .number m, n + 1, rest, hv, hr, _ => value?_numeral hv hr n
  | .string t, n + 1, rest, hv, _, _ => by
    obtain ⟨cs, htext, hread⟩ := text?_quote hv rest
    change value? (n + 1) (Writer.quote t ++ rest) = _
    rw [htext, value?, skipBlanks_of_head (by decide)]
    simp only [hread, Option.map_some]
  | .array [], n + 1, rest, _, _, _ => rfl
  | .object [], n + 1, rest, _, _, _ => rfl
  | .array (v :: vs), n + 1, rest, hv, _, hn => by
    have htext : Writer.spelled s depth (.array (v :: vs)) ++ rest =
        '[' :: (Writer.spelledItems s (depth + 1) (v :: vs) ++ (s.line depth ++ ']' :: rest)) := by
      simp [Writer.spelled]
    have hfuel : 2 * (Writer.spelledItems s (depth + 1) (v :: vs)).length + 1 ≤ n := by
      simp only [Writer.spelled, List.cons_append, List.length_cons, List.length_append] at hn
      omega
    rw [htext, value?_array (skipBlanks_spelledItems s (depth + 1) hv.1 vs _),
      items?_spelled (depth + 1) v vs n depth rest hv hfuel]
    rfl
  | .object ((key, v) :: ms), n + 1, rest, hv, _, hn => by
    have htext : Writer.spelled s depth (.object ((key, v) :: ms)) ++ rest =
        '{' :: (Writer.spelledMembers s (depth + 1) ((key, v) :: ms) ++
          (s.line depth ++ '}' :: rest)) := by
      simp [Writer.spelled]
    have hfuel : 2 * (Writer.spelledMembers s (depth + 1) ((key, v) :: ms)).length + 1 ≤ n := by
      simp only [Writer.spelled, List.cons_append, List.length_cons, List.length_append] at hn
      omega
    rw [htext, value?_object (skipBlanks_spelledMembers s (depth + 1) key v ms _),
      members?_spelled (depth + 1) key v ms n depth rest hv hfuel]
    rfl
  | v, 0, rest, hv, _, hn => by
    obtain ⟨c, cs, h, -⟩ := spelled_head s depth hv
    rw [h, List.length_cons] at hn
    omega
termination_by structural _ n => n

theorem items?_spelled (depth : ℕ) : ∀ (v : Json) (vs : List Json) (n k : ℕ) (rest : List Char),
    ProperItems (v :: vs) → 2 * (Writer.spelledItems s depth (v :: vs)).length + 1 ≤ n →
    items? n (Writer.spelledItems s depth (v :: vs) ++ (s.line k ++ ']' :: rest)) =
      some (v :: vs, rest)
  | v, [], n + 1, k, rest, ⟨hv, _⟩, hn => by
    simp only [Writer.spelledItems, List.length_append] at hn
    rw [items?, Writer.spelledItems, List.append_assoc, value?_append (s.line_blank depth),
      value?_spelled depth v n _ hv (ends_line s k (by decide) rest) (by omega)]
    simp only [Option.bind_eq_bind, Option.bind_some]
    rw [skipBlanks_line, skipBlanks_of_head (by decide)]
    rfl
  | v, w :: vs, n + 1, k, rest, ⟨hv, hvs⟩, hn => by
    simp only [Writer.spelledItems, List.length_append, List.length_cons] at hn
    rw [items?, Writer.spelledItems, List.append_assoc, List.append_assoc, List.cons_append,
      value?_append (s.line_blank depth),
      value?_spelled depth v n _ hv (by rintro _ ⟨⟩; decide) (by omega)]
    · simp only [Option.bind_eq_bind, Option.bind_some]
      rw [skipBlanks_of_head (by decide)]
      simp only
      rw [items?_spelled depth w vs n k rest hvs (by omega)]
      rfl
    · simp
termination_by structural _ _ n => n

theorem members?_spelled (depth : ℕ) : ∀ (key : Option String) (v : Json)
    (ms : List (Option String × Json)) (n k : ℕ) (rest : List Char),
    ProperMembers ((key, v) :: ms) →
    2 * (Writer.spelledMembers s depth ((key, v) :: ms)).length + 1 ≤ n →
    members? n (Writer.spelledMembers s depth ((key, v) :: ms) ++ (s.line k ++ '}' :: rest)) =
      some ((key, v) :: ms, rest)
  | key, v, [], n + 1, k, rest, ⟨hkey, hv, _⟩, hn => by
    simp only [Writer.spelledMembers, List.length_append, List.length_cons] at hn
    rw [members?, Writer.spelledMembers]
    simp only [List.append_assoc, List.cons_append, key?_quote s hkey, Option.bind_eq_bind,
      Option.bind_some, value?_append s.colon_blank]
    rw [value?_spelled depth v n _ hv (ends_line s k (by decide) rest) (by omega)]
    simp only [Option.bind_some]
    rw [skipBlanks_line, skipBlanks_of_head (by decide)]
    rfl
  | key, v, (key', w) :: ms, n + 1, k, rest, ⟨hkey, hv, hms⟩, hn => by
    simp only [Writer.spelledMembers, List.length_append, List.length_cons] at hn
    rw [members?, Writer.spelledMembers]
    · simp only [List.append_assoc, List.cons_append, key?_quote s hkey, Option.bind_eq_bind,
        Option.bind_some, value?_append s.colon_blank]
      rw [value?_spelled depth v n _ hv (by rintro _ ⟨⟩; decide) (by omega)]
      simp only [Option.bind_some]
      rw [skipBlanks_of_head (by decide)]
      simp only
      rw [members?_spelled depth key' w ms n k rest hms (by omega)]
      rfl
    · simp
termination_by structural _ _ _ n => n

end

end Spelled

end Reader

/-! ## The two texts -/

theorem read?_spelled (s : Writer.Spacing) {v : Json} (hv : v.Proper) :
    read? (String.ofList (Writer.spelled s 0 v)) = some v := by
  have hread := Reader.value?_spelled s 0 v (2 * (Writer.spelled s 0 v).length + 2) [] hv
    (by rintro _ ⟨⟩) (by omega)
  rw [List.append_nil] at hread
  simp only [read?, String.toList_ofList, hread]
  rfl

/-- **The indented text is read back.** -/
theorem read?_indented {v : Json} (hv : v.Proper) : read? v.indented = some v := by
  rw [indented, ← Writer.spelled_lines]
  exact read?_spelled .lines hv

/-- **The compact text is read back.** -/
theorem read?_compact {v : Json} (hv : v.Proper) : read? v.compact = some v := by
  rw [compact, ← Writer.spelled_tight 0]
  exact read?_spelled .tight hv

end Json

end Screencast
