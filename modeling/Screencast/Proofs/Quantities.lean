import Mathlib.Data.List.Induction
import Mathlib.Data.Nat.Digits.Defs
import Screencast.Settings.Quantity

/-!
# The form of a quantity

A quantity is a plus sign or none, some digits, and the letter for millions or none. Every text of
this form whose number fits in a word is read as that number, and no other text is read at all, so
the 64 bits in which the number is formed never decide.

* `Quantity.Written`: the texts of this form, and the numbers that they stand for.
* `Quantity.digits?_dropPlus`, `Quantity.exists_splitUnit`: the parts of a text.
* `Quantity.scaled_eq_some_iff`: the number in 64 and in 32 bits.
* `Quantity.parse_written`: the main result.
-/

namespace Screencast

/-! ## Digits -/

theorem Digit.ofChar?_eq_some_iff {c : Char} {d : Digit} : ofChar? c = some d ↔ c = d.toChar := by
  constructor
  · intro h
    unfold ofChar? at h
    split at h
    · rename_i hc
      cases h
      have hplace : 48 + (c.toNat - 48) = c.toNat := by omega
      rw [toChar, hplace, Char.ofNat_toNat]
    · cases h
  · rintro rfl
    exact ofChar?_toChar d

theorem Digit.isDigit_toChar (d : Digit) : d.toChar.isDigit = true := by revert d; decide

theorem Digit.toNat_toChar (d : Digit) : d.toChar.toNat - '0'.toNat = d.val := by revert d; decide

/-- The digits among the characters are those that stand for a digit. -/
theorem Digit.exists_toChar {c : Char} (hc : c.isDigit = true) : ∃ d : Digit, c = d.toChar := by
  have hbounds : 48 ≤ c.toNat ∧ c.toNat ≤ 57 := by
    simpa [Char.isDigit, UInt32.le_iff_toNat_le] using hc
  exact ⟨⟨c.toNat - 48, by omega⟩, Digit.ofChar?_eq_some_iff.1 (dif_pos (by omega))⟩

theorem toNat_eq_ofDigits (ds : List Digit) : toNat ds = Nat.ofDigits 10 (ds.reverse.map Fin.val) := by
  induction ds using List.reverseRecOn with
  | nil => rfl
  | append_singleton ds d ih =>
    rw [toNat, List.foldl_append, ← toNat, ih, List.reverse_append]
    simp [Nat.ofDigits_cons, Nat.add_comm]

namespace Quantity

/-! ## The form -/

/-- The number that digits stand for in decimal. -/
def value (digits : List Char) : ℕ :=
  Nat.ofDigits 10 (digits.reverse.map fun c => c.toNat - '0'.toNat)

/-- What a letter at the end multiplies by, where there is one. -/
inductive Scales : List Char → ℕ → Prop
  | plain : Scales [] 1
  | lower : Scales ['m'] 1000000
  | upper : Scales ['M'] 1000000

/-- **The form of a quantity**, and the number that it stands for. -/
inductive Written : List Char → ℕ → Prop
  | mk {plus digits unit : List Char} {factor : ℕ} (hp : plus = [] ∨ plus = ['+'])
      (hne : digits ≠ []) (hd : ∀ c ∈ digits, c.isDigit = true) (hu : Scales unit factor) :
      Written (plus ++ digits ++ unit) (value digits * factor)

variable {cs : List Char} {ds : List Digit}

theorem value_map (ds : List Digit) : value (ds.map Digit.toChar) = toNat ds := by
  rw [value, toNat_eq_ofDigits, ← List.map_reverse, List.map_map]
  exact congrArg _ (List.map_congr_left fun d _ => d.toNat_toChar)

theorem exists_map_toChar (hd : ∀ c ∈ cs, c.isDigit = true) :
    ∃ ds : List Digit, cs = ds.map Digit.toChar := by
  induction cs with
  | nil => exact ⟨[], rfl⟩
  | cons c cs ih =>
    obtain ⟨hc, hcs⟩ := List.forall_mem_cons.1 hd
    obtain ⟨d, rfl⟩ := Digit.exists_toChar hc
    obtain ⟨ds, rfl⟩ := ih hcs
    exact ⟨d :: ds, rfl⟩

/-! ## The parts of a text -/

theorem digits?_eq_some_iff : digits? cs = some ds ↔ ds ≠ [] ∧ cs = ds.map Digit.toChar := by
  have hmap : ∀ {cs : List Char} {ds : List Digit},
      cs.mapM Digit.ofChar? = some ds ↔ cs = ds.map Digit.toChar := by
    intro cs
    induction cs with
    | nil => intro ds; cases ds <;> simp
    | cons c cs ih =>
      intro ds
      rw [List.mapM_cons]
      cases ds with
      | nil => simp [Option.bind_eq_some_iff]
      | cons d ds => simp [Option.bind_eq_some_iff, Digit.ofChar?_eq_some_iff, ih]
  cases cs with
  | nil => cases ds <;> simp [digits?]
  | cons c cs =>
    rw [digits?, hmap]
    · cases ds <;> simp
    · simp

/-- A plus sign may be dropped, since no digit is one. -/
theorem digits?_dropPlus : digits? (dropPlus cs) = some ds ↔
    ds ≠ [] ∧ ∃ plus, (plus = [] ∨ plus = ['+']) ∧ cs = plus ++ ds.map Digit.toChar := by
  have hplus : ∀ d : Digit, d.toChar ≠ '+' := by decide
  rw [digits?_eq_some_iff]
  refine and_congr_right fun hne => ?_
  obtain ⟨d, ds, rfl⟩ := List.exists_cons_of_ne_nil hne
  unfold dropPlus
  split
  · constructor
    · rintro rfl
      exact ⟨['+'], .inr rfl, rfl⟩
    · rintro ⟨plus, rfl | rfl, h⟩
      · exact absurd (List.cons.inj h).1.symm (hplus d)
      · exact (List.cons.inj h).2
  · rename_i hcs
    constructor
    · rintro rfl
      exact ⟨[], .inl rfl, rfl⟩
    · rintro ⟨plus, rfl | rfl, h⟩
      · exact h
      · exact absurd h (hcs _)

/-- A letter for millions at the end is taken off. -/
theorem exists_splitUnit (cs : List Char) : ∃ front unit factor, cs = front ++ unit ∧
    Scales unit factor ∧ splitUnit cs = (front, UInt64.ofNat factor) := by
  unfold splitUnit
  split
  · rename_i hlast
    obtain ⟨front, rfl⟩ := List.getLast?_eq_some_iff.1 hlast
    exact ⟨front, ['m'], 1000000, rfl, .lower, by rw [List.dropLast_concat]; rfl⟩
  · rename_i hlast
    obtain ⟨front, rfl⟩ := List.getLast?_eq_some_iff.1 hlast
    exact ⟨front, ['M'], 1000000, rfl, .upper, by rw [List.dropLast_concat]; rfl⟩
  · exact ⟨cs, [], 1, (List.append_nil cs).symm, .plain, rfl⟩

/-- Nothing else is taken off: a digit at the end is left there. -/
theorem splitUnit_append {front unit : List Char} {factor : ℕ} (hu : Scales unit factor)
    (hf : ∀ c ∈ front.getLast?, c.isDigit = true) :
    splitUnit (front ++ unit) = (front, UInt64.ofNat factor) := by
  cases hu with
  | plain =>
    rw [List.append_nil]
    unfold splitUnit
    split
    · rename_i hlast
      cases hf _ hlast
    · rename_i hlast
      cases hf _ hlast
    · rfl
  | lower => simp [splitUnit]
  | upper => simp [splitUnit]

/-! ## The number -/

/-- **The number is formed in 64 bits and given in 32.** It is what it should be whenever it fits in
a word: a factor only makes it larger, so what fits in the end has fitted before. -/
theorem scaled_eq_some_iff {unit : List Char} {factor : ℕ} (hu : Scales unit factor) {v : UInt32} :
    (longWord? ds).bind (fun n => (times? n (UInt64.ofNat factor)).bind narrow?) = some v ↔
      v.toNat = toNat ds * factor := by
  obtain ⟨hfactor, hpos⟩ : (UInt64.ofNat factor).toNat = factor ∧ 0 < factor := by
    cases hu <;> exact ⟨rfl, by decide⟩
  have hle : toNat ds ≤ toNat ds * factor := Nat.le_mul_of_pos_right _ hpos
  have hword : toNat ds < 2 ^ 64 → (UInt64.ofNat (toNat ds)).toNat = toNat ds :=
    UInt64.toNat_ofNat_of_lt'
  have hproduct : toNat ds * factor < 2 ^ 64 →
      (UInt64.ofNat (toNat ds) * UInt64.ofNat factor).toNat = toNat ds * factor := fun h => by
    rw [UInt64.toNat_mul, hfactor, hword (by omega), Nat.mod_eq_of_lt h]
  simp only [Option.bind_eq_some_iff, longWord?, times?, narrow?, Option.ite_none_right_eq_some,
    Option.some.injEq]
  constructor
  · rintro ⟨n, ⟨hn, rfl⟩, _, ⟨hscaled, rfl⟩, hnarrow, rfl⟩
    rw [hfactor, hword hn] at hscaled
    rw [hproduct hscaled] at hnarrow
    rw [UInt64.toNat_toUInt32, hproduct hscaled, Nat.mod_eq_of_lt hnarrow]
  · intro h
    have hnarrow : toNat ds * factor < 2 ^ 32 := h ▸ v.toNat_lt
    have hscaled : toNat ds * factor < 2 ^ 64 := by omega
    have hn : toNat ds < 2 ^ 64 := by omega
    refine ⟨_, ⟨hn, rfl⟩, _, ⟨?_, rfl⟩, ?_, ?_⟩
    · rwa [hfactor, hword hn]
    · rwa [hproduct hscaled]
    · rw [← UInt32.toNat_inj, UInt64.toNat_toUInt32, hproduct hscaled, Nat.mod_eq_of_lt hnarrow, h]

/-! ## Reading -/

theorem parse?_eq_some_iff {s : String} {v : UInt32} :
    parse? s = some v ↔ Written s.toList v.toNat := by
  have hparse : ∀ {front unit : List Char} {factor : ℕ}, Scales unit factor →
      splitUnit s.toList = (front, UInt64.ofNat factor) →
      (parse? s = some v ↔ ∃ ds, digits? (dropPlus front) = some ds ∧
        v.toNat = toNat ds * factor) := by
    intro front unit factor hu hsplit
    simp only [parse?, hsplit, Option.bind_eq_bind, Option.bind_eq_some_iff (x := digits? _),
      scaled_eq_some_iff hu]
  constructor
  -- what is read has the form: its parts are those that it was cut into
  · intro h
    obtain ⟨front, unit, factor, htext, hu, hsplit⟩ := exists_splitUnit s.toList
    obtain ⟨ds, hds, hv⟩ := (hparse hu hsplit).1 h
    obtain ⟨hne, plus, hplus, rfl⟩ := digits?_dropPlus.1 hds
    rw [htext, hv, ← value_map]
    refine .mk hplus (by simpa using hne) ?_ hu
    simp only [List.forall_mem_map]
    exact fun d _ => d.isDigit_toChar
  · intro h
    generalize htext : s.toList = cs at h
    generalize hv : v.toNat = n at h
    obtain @⟨plus, digits, unit, factor, hplus, hne, hd, hu⟩ := h
    -- the cut finds the parts of the form, since what stands before the unit ends in a digit
    obtain ⟨ds, rfl⟩ := exists_map_toChar hd
    have hlast : ∀ c ∈ (plus ++ ds.map Digit.toChar).getLast?, c.isDigit = true := by
      intro c hc
      rw [List.getLast?_append, List.getLast?_eq_some_getLast hne, Option.some_or] at hc
      cases hc
      exact hd _ (List.getLast_mem hne)
    rw [hparse hu (htext ▸ splitUnit_append hu hlast)]
    refine ⟨ds, digits?_dropPlus.2 ⟨by simpa using hne, plus, hplus, rfl⟩, ?_⟩
    rw [hv, value_map]

/-- **A quantity is read exactly if it has the form and fits in a word.** For every text: it is read
as a number if it is a plus sign or none, digits, and an `m` or `M` or none, and the number of the
digits, in millions if the letter is there, is at most 4294967295; then it is read as that number.
Every other text is refused as one that is not recognized. -/
theorem parse_written (s : String) :
    (∀ v : UInt32, parse s = .ok v ↔
      ∃ n, Written s.toList n ∧ n ≤ 4294967295 ∧ v = UInt32.ofNat n) ∧
    ((¬∃ n, Written s.toList n ∧ n ≤ 4294967295) →
      parse s = .error ⟨.settings, s!"unrecognized value: {s}"⟩) := by
  have hiff : ∀ v : UInt32, parse? s = some v ↔
      ∃ n, Written s.toList n ∧ n ≤ 4294967295 ∧ v = UInt32.ofNat n := by
    intro v
    rw [parse?_eq_some_iff]
    constructor
    · intro h
      exact ⟨v.toNat, h, by have := v.toNat_lt; omega, by simp⟩
    · rintro ⟨n, hn, hle, rfl⟩
      rwa [UInt32.toNat_ofNat_of_lt' (by rw [UInt32.size]; omega)]
  refine ⟨fun v => ?_, fun hnone => ?_⟩
  · rw [← hiff, parse]
    cases parse? s <;> simp
  · have hparse : parse? s = none := by
      refine Option.eq_none_iff_forall_ne_some.2 fun v hv => hnone ?_
      obtain ⟨n, hn, hle, -⟩ := (hiff v).1 hv
      exact ⟨n, hn, hle⟩
    rw [parse, hparse]

end Quantity

end Screencast
