import Screencast.Request

/-!
# Stop signals

A stop signal is a view of a flag, and signals that were made from one another share one. Raising
any of them is seen by all that share its flag and by no other. A session holds one of them, and its
requests to the signal are put to that one.

* `Signals.signals`: what every signal shows.
* `Signals.Shares`: whether two signals show one flag.
* `Signals.answer`: what a session is answered that asks about its signal or raises it.
* `isRaised_store`: who sees that a flag is set.
-/

namespace Screencast

/-- Flags, and for each signal the flag that it shows. -/
structure Signals where
  flags : List Bool
  shown : List Nat
  shown_lt : ∀ flag ∈ shown, flag < flags.length
  deriving DecidableEq

namespace Signals

/-- One signal, not raised. -/
def initial : Signals := ⟨[false], [0], by decide⟩

variable (s : Signals)

/-- Another signal with a flag of its own. -/
def make : Signals where
  flags := s.flags ++ [false]
  shown := s.shown ++ [s.flags.length]
  shown_lt flag hf := by
    rw [List.length_append, List.length_singleton]
    rcases List.mem_append.1 hf with hf | hf
    · exact Nat.lt_succ_of_lt (s.shown_lt flag hf)
    · rw [List.mem_singleton.1 hf]
      exact Nat.lt_succ_self _

/-- Another signal that shares the flag of an earlier one. -/
def share (signal : Nat) : Signals :=
  match hs : s.shown[signal]? with
  | none => s
  | some flag =>
    { s with
      shown := s.shown ++ [flag]
      shown_lt := List.forall_mem_append.2
        ⟨s.shown_lt, List.forall_mem_singleton.2 (s.shown_lt flag (List.mem_of_getElem? hs))⟩ }

/-- Sets the flag of a signal. -/
def store (signal : Nat) (raised : Bool) : Signals :=
  match s.shown[signal]? with
  | none => s
  | some flag =>
    { s with
      flags := s.flags.set flag raised
      shown_lt := by simpa using s.shown_lt }

/-- Raises a signal. -/
def raise (signal : Nat) : Signals := s.store signal true

/-- Whether a signal is raised. -/
def isRaised (signal : Nat) : Bool := ((s.shown[signal]?).bind (s.flags[·]?)).getD false

/-- What each signal shows. -/
def signals : List Bool := (List.range s.shown.length).map s.isRaised

/-- What a session is answered that holds a signal. -/
def answer (signal : Nat) : (r : SignalRequest) → r.Answer × Signals
  | .isRaised => (s.isRaised signal, s)
  | .raise => ((), s.raise signal)

/-- Whether two signals show one flag. -/
def Shares (a b : Nat) : Prop := (s.shown[a]?).isSome ∧ s.shown[a]? = s.shown[b]?

instance (a b : Nat) : Decidable (s.Shares a b) := inferInstanceAs (Decidable (_ ∧ _))

variable {s} {a b signal flag : Nat} {raised : Bool}

theorem flag_lt (ha : s.shown[a]? = some flag) : flag < s.flags.length :=
  s.shown_lt flag (List.mem_of_getElem? ha)

theorem shares_iff (ha : s.shown[a]? = some flag) : s.Shares a b ↔ s.shown[b]? = some flag := by
  rw [Shares, ha]
  exact ⟨fun h => h.2.symm, fun h => ⟨rfl, h.symm⟩⟩

/-- Signals of one flag show the same. -/
theorem Shares.isRaised_eq (hs : s.Shares a b) : s.isRaised a = s.isRaised b := by
  rw [isRaised, isRaised, hs.2]

/-! ## Who sees what is done to a signal -/

theorem shown_store : (s.store signal raised).shown = s.shown := by
  unfold store
  split <;> rfl

theorem shares_store : (s.store signal raised).Shares a b ↔ s.Shares a b := by
  rw [Shares, Shares, shown_store]

/-- **A flag that is set** is seen by the signals that share it, and by no other. -/
theorem isRaised_store :
    (s.store signal raised).isRaised b = if s.Shares signal b then raised else s.isRaised b := by
  unfold store
  split
  · rename_i hs
    rw [if_neg fun hb => by simpa [hs] using hb.1]
  rename_i flag hs
  by_cases hb : s.shown[b]? = some flag
  · rw [if_pos ((shares_iff hs).2 hb)]
    simp [isRaised, hb, flag_lt hb]
  · rw [if_neg fun h => hb ((shares_iff hs).1 h)]
    cases ho : s.shown[b]? with
    | none => simp [isRaised, ho]
    | some other =>
      have hne : flag ≠ other := fun h => hb (h ▸ ho)
      simp [isRaised, ho, hne]

theorem isRaised_raise :
    (s.raise signal).isRaised b = true ↔ s.Shares signal b ∨ s.isRaised b = true := by
  rw [raise, isRaised_store]
  split <;> simp_all

theorem getElem?_concat (shown : List Nat) (flag b : Nat) :
    (shown ++ [flag])[b]? = if b = shown.length then some flag else shown[b]? := by
  split
  · rename_i hb
    rw [hb, List.getElem?_concat_length]
  · rename_i hb
    rw [List.getElem?_append]
    split
    · rfl
    · rw [List.getElem?_eq_none (by simp; omega), List.getElem?_eq_none (by omega)]

/-- **A new signal** is not raised, and whatever is shown already stays as it is. -/
theorem isRaised_make : s.make.isRaised b = s.isRaised b := by
  rw [isRaised, isRaised, make, getElem?_concat]
  split
  · rename_i hb
    simp [hb]
  · cases hb : s.shown[b]? with
    | none => rfl
    | some flag => simp [List.getElem?_append_left (flag_lt hb)]

/-- A new signal shares its flag with no other. -/
theorem shares_make :
    s.make.Shares a b ↔ s.Shares a b ∨ (a = s.shown.length ∧ b = s.shown.length) := by
  have hfresh : ∀ c, s.shown[c]? ≠ some s.flags.length := fun c hc => Nat.lt_irrefl _ (flag_lt hc)
  rw [Shares, Shares, make, getElem?_concat, getElem?_concat]
  by_cases ha : a = s.shown.length <;> by_cases hb : b = s.shown.length
  · simp [ha, hb]
  · simp [ha, hb, (hfresh b).symm]
  · cases ho : s.shown[a]? with
    | none => simp [ha, hb]
    | some flag => simp [ha, hb, ho ▸ hfresh a]
  · simp [ha, hb]

/-- The signal of which a signal is a copy, where one is shared, or else that signal itself. -/
def origin (s : Signals) (signal b : Nat) : Nat := if b = s.shown.length then signal else b

theorem origin_eq (hb : (s.shown[b]?).isSome) : s.origin signal b = b := by
  rw [origin, if_neg]
  rintro rfl
  simp at hb

theorem shown_share : (s.share signal).shown[b]? = s.shown[s.origin signal b]? := by
  unfold share origin
  split
  · rename_i hs
    split
    · rename_i hb
      rw [hs, hb, List.getElem?_eq_none (Nat.le_refl _)]
    · rfl
  · rename_i flag hs
    rw [getElem?_concat]
    split
    · exact hs.symm
    · rfl

/-- **A copy** shows what the signal shows of which it is one. -/
theorem isRaised_share : (s.share signal).isRaised b = s.isRaised (s.origin signal b) := by
  have hflags : (s.share signal).flags = s.flags := by
    unfold share
    split <;> rfl
  rw [isRaised, isRaised, shown_share, hflags]

theorem shares_share :
    (s.share signal).Shares a b ↔ s.Shares (s.origin signal a) (s.origin signal b) := by
  rw [Shares, Shares, shown_share, shown_share]

example : ((initial.share 0).make.raise 1).signals = [true, true, false] := by decide

end Signals

end Screencast
