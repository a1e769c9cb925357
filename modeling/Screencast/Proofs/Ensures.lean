import Screencast.Action
import Screencast.Proofs.History

/-!
# What every run of a program ensures

A statement about a program is a statement about all its runs: the calls that it makes, the lines of
the event report left out, and its result, which is missing while the budget of a loop is spent. The
rules below take such a statement through a program from its first call to its last, so that a proof
about an operation opens the operation once and goes on with what its runs can look like.

* `Program.Ensures`: every run has calls and a result of some kind.
* `ensures_bind`, `Action.ensures_bind`: two programs, or two actions, in a row.
* `Program.Ends`: every run ends, with calls and a result of some kind.
* `Program.Shows`: some run has these calls and this result.
* `Action.runs_bind_ok`: a run that succeeds, taken apart.
-/

namespace Screencast

/-- An answer is a failure or a result. -/
theorem forall_outcome {ε α : Type} {p : Except ε α → Prop} :
    (∀ answer, p answer) ↔ (∀ e, p (.error e)) ∧ ∀ x, p (.ok x) := by
  constructor
  · exact fun h => ⟨fun e => h _, fun x => h _⟩
  · rintro ⟨he, hx⟩ (e | x)
    · exact he e
    · exact hx x

namespace Program

variable {α β : Type}

/-- Every run of the program, finished or not, has such calls and such a result. -/
def Ensures (p : Program α) (Q : History → Option α → Prop) : Prop :=
  ∀ h r, p.Runs h r → Q h.calls r

variable {p : Program α} {Q Q' : History → Option α → Prop}

/-- Some run of the program has these calls and this result. -/
def Shows (p : Program α) (h : History) (r : Option α) : Prop := ∃ k, p.Runs k r ∧ k.calls = h

/-- What every run of a program ensures holds of the calls and the result of one. -/
theorem Shows.ensured {h : History} {r : Option α} (hs : p.Shows h r) (hp : p.Ensures Q) :
    Q h r := by
  obtain ⟨k, hr, rfl⟩ := hs
  exact hp k r hr

theorem Ensures.mono (h : p.Ensures Q) (hq : ∀ h r, Q h r → Q' h r) : p.Ensures Q' :=
  fun k r hr => hq _ _ (h k r hr)

@[simp] theorem ensures_done {a : α} : (done a).Ensures Q ↔ Q [] (some a) := by
  constructor
  · exact fun h => h _ _ (.done a)
  · rintro h _ _ ⟨⟩; exact h

@[simp] theorem ensures_unfinished : (unfinished : Program α).Ensures Q ↔ Q [] none := by
  constructor
  · exact fun h => h _ _ .unfinished
  · rintro h _ _ ⟨⟩; exact h

/-- A request is made, and any answer may come. -/
@[simp] theorem ensures_ask {r : Request} {next : r.Answer → Program α} :
    (ask r next).Ensures Q ↔
      ∀ answer, (next answer).Ensures fun h => Q (Exchange.call ⟨r, answer⟩ ++ h) := by
  constructor
  · intro h answer k result hk
    rw [← History.calls_cons]
    exact h _ result (.ask r next answer hk)
  · intro h k result hk
    obtain ⟨answer, rest, rfl, hnext⟩ := runs_ask_iff.1 hk
    rw [History.calls_cons]
    exact h answer _ result hnext

/-- **Two programs in a row.** The calls of the second follow those of the first. -/
theorem ensures_bind {f : α → Program β} {Q : History → Option β → Prop} :
    (p >>= f).Ensures Q ↔
      p.Ensures fun h r =>
        match r with
        | none => Q h none
        | some a => (f a).Ensures fun k => Q (h ++ k) := by
  constructor
  · intro h k r hr
    cases r with
    | none => exact h k none (runs_bind_iff.2 (.inl ⟨hr, rfl⟩))
    | some a =>
      intro k' r' hr'
      rw [← History.calls_append]
      exact h _ _ (runs_bind_iff.2 (.inr ⟨k, k', a, rfl, hr, hr'⟩))
  · intro h k r hr
    rcases runs_bind_iff.1 hr with ⟨hn, rfl⟩ | ⟨k₁, k₂, a, rfl, h1, h2⟩
    · exact h _ _ hn
    · rw [History.calls_append]
      exact h _ _ h1 _ _ h2

/-- What a run that has ended comes to; a run whose budget was spent comes to nothing. -/
def Finished (R : History → α → Prop) : History → Option α → Prop
  | _, none => False
  | h, some a => R h a

@[simp] theorem finished_some {R : History → α → Prop} {h : History} {a : α} :
    Finished R h (some a) ↔ R h a := Iff.rfl

/-- Every run of the program ends, with such calls and such a result. -/
abbrev Ends (p : Program α) (R : History → α → Prop) : Prop := p.Ensures (Finished R)

/-- A statement about a program that ends is used where the program is. -/
theorem Ends.ensures {R : History → α → Prop} (h : p.Ends R)
    (hq : ∀ h a, R h a → Q h (some a)) : p.Ensures Q := by
  refine Ensures.mono h fun k r hr => ?_
  cases r with
  | none => exact hr.elim
  | some a => exact hq k a hr

/-- Under a handler a program that ends has a result of its kind. -/
theorem Ends.run {σ : Type} {R : History → α → Prop} (h : p.Ends R) (answer : Handler σ) (s : σ) :
    ∃ a, (p.run answer s).1 = some a ∧ R (p.history answer s).calls a := by
  have hr := h _ _ (runs_run answer p s)
  cases hresult : (p.run answer s).1 with
  | none =>
    rw [hresult] at hr
    exact hr.elim
  | some a =>
    rw [hresult] at hr
    exact ⟨a, rfl, hr⟩

end Program

open Program

namespace Action

variable {σ τ α β : Type} {s : σ} {Q : History → Option (Outcome β × σ) → Prop}

/-- What an action has to come to so that `f`, which goes on with its result, comes to `Q`. -/
def After (f : α → Action σ β) (Q : History → Option (Outcome β × σ) → Prop) :
    History → Option (Outcome α × σ) → Prop
  | h, none => Q h none
  | h, some (.error e, s) => Q h (some (.error e, s))
  | h, some (.ok x, s) => (f x s).Ensures fun k => Q (h ++ k)

variable {f : α → Action σ β}

@[simp] theorem after_none {h : History} : After f Q h none ↔ Q h none := Iff.rfl

@[simp] theorem after_error {h : History} {e : Failure} :
    After f Q h (some (.error e, s)) ↔ Q h (some (.error e, s)) := Iff.rfl

@[simp] theorem after_ok {h : History} {x : α} :
    After f Q h (some (.ok x, s)) ↔ (f x s).Ensures fun k => Q (h ++ k) := Iff.rfl

/-- **Two actions in a row.** A failure of the first is the failure of both. -/
@[simp] theorem ensures_bind {a : Action σ α} :
    ((a >>= f) s).Ensures Q ↔ (a s).Ensures (After f Q) := by
  rw [bind_apply, Program.ensures_bind]
  constructor <;> refine fun h => h.mono fun k r => ?_ <;>
    rcases r with _ | ⟨_ | x, s⟩ <;> simp [continue?]

variable {Q : History → Option (Outcome α × σ) → Prop}

@[simp] theorem ensures_pure {x : α} :
    ((pure x : Action σ α) s).Ensures Q ↔ Q [] (some (.ok x, s)) := ensures_done

@[simp] theorem ensures_fail {e : Failure} :
    ((fail e : Action σ α) s).Ensures Q ↔ Q [] (some (.error e, s)) := ensures_done

@[simp] theorem ensures_get {Q : History → Option (Outcome σ × σ) → Prop} :
    ((get : Action σ σ) s).Ensures Q ↔ Q [] (some (.ok s, s)) := ensures_done

@[simp] theorem ensures_set {t : σ} {Q : History → Option (Outcome PUnit × σ) → Prop} :
    ((set t : Action σ PUnit) s).Ensures Q ↔ Q [] (some (.ok ⟨⟩, t)) := ensures_done

@[simp] theorem ensures_modify {g : σ → σ} {Q : History → Option (Outcome PUnit × σ) → Prop} :
    ((modify g : Action σ PUnit) s).Ensures Q ↔ Q [] (some (.ok ⟨⟩, g s)) := ensures_done

@[simp] theorem ensures_lift {p : Program α} :
    ((liftM p : Action σ α) s).Ensures Q ↔
      p.Ensures fun h r => Q h (r.map fun x => (.ok x, s)) := by
  rw [lift_apply, Program.ensures_bind]
  constructor <;> refine fun h => h.mono fun k r => ?_ <;> cases r <;> simp

@[simp] theorem ensures_attempt {p : Program (Outcome α)} :
    ((attempt p : Action σ α) s).Ensures Q ↔
      p.Ensures fun h r => Q h (r.map fun x => (x, s)) := by
  rw [attempt_apply, Program.ensures_bind]
  constructor <;> refine fun h => h.mono fun k r => ?_ <;> cases r <;> simp

@[simp] theorem ensures_outcome {a : Action σ α}
    {Q : History → Option (Outcome (Outcome α) × σ) → Prop} :
    (a.outcome s).Ensures Q ↔
      (a s).Ensures fun h r => Q h (r.map fun x => (.ok x.1, x.2)) := by
  rw [outcome_apply, Program.ensures_bind]
  constructor <;> refine fun h => h.mono fun k r => ?_ <;> cases r <;> simp

@[simp] theorem ensures_mapFailure {a : Action σ α} {g : Failure → Failure} :
    (a.mapFailure g s).Ensures Q ↔
      (a s).Ensures fun h r => Q h (r.map fun x => (x.1.mapError g, x.2)) := by
  rw [mapFailure_apply, Program.ensures_bind]
  constructor <;> refine fun h => h.mono fun k r => ?_ <;> cases r <;> simp

@[simp] theorem ensures_during {a : Action σ α} {stage : Stage} {doing : String} :
    (a.during stage doing s).Ensures Q ↔
      (a s).Ensures fun h r => Q h (r.map fun x => (x.1.mapError (·.asStage stage doing), x.2)) :=
  ensures_mapFailure

@[simp] theorem ensures_on {part : σ → τ} {put : τ → σ → σ} {a : Action τ α} :
    (a.on part put s).Ensures Q ↔
      (a (part s)).Ensures fun h r => Q h (r.map fun x => (x.1, put x.2 s)) := by
  rw [on_apply, Program.ensures_bind]
  constructor <;> refine fun h => h.mono fun k r => ?_ <;> cases r <;> simp

/-! ## Runs that succeed -/

variable {γ : Type} {a : Action σ α} {s' : σ} {h : History}

/-- A run of two actions in a row that succeeds is a run of each that does. -/
theorem runs_bind_ok {f : α → Action σ γ} {y : γ}
    (hr : ((a >>= f) s).Runs h (some (.ok y, s'))) :
    ∃ h₁ h₂ x t, h = h₁ ++ h₂ ∧ (a s).Runs h₁ (some (.ok x, t)) ∧
      (f x t).Runs h₂ (some (.ok y, s')) := by
  rcases runs_bind_iff.1 hr with ⟨-, hnone⟩ | ⟨h₁, h₂, ⟨f | x, t⟩, rfl, h₁r, h₂r⟩
  · cases hnone
  · obtain ⟨-, hfail⟩ := runs_done_iff.1 h₂r
    cases hfail
  · exact ⟨h₁, h₂, x, t, rfl, h₁r, h₂r⟩

/-- A run whose outcome is handed on is a run that has this outcome. -/
theorem runs_outcome_ok {r : Outcome α} (hr : (a.outcome s).Runs h (some (.ok r, s'))) :
    (a s).Runs h (some (r, s')) := by
  rw [outcome_apply] at hr
  rcases runs_bind_iff.1 hr with ⟨-, hnone⟩ | ⟨h₁, h₂, x, rfl, h₁r, h₂r⟩
  · cases hnone
  · obtain ⟨rfl, hx⟩ := runs_done_iff.1 h₂r
    cases hx
    rw [List.append_nil]
    exact h₁r

end Action

namespace Program

@[simp] theorem ensures_report {level : Level} {text : String}
    {Q : History → Option Unit → Prop} :
    (report level text).Ensures Q ↔ Q [] (some ()) := by
  simp only [report, request, ensures_ask, ensures_done, Exchange.call, List.append_nil]
  exact ⟨fun h => h (), fun h _ => h⟩

end Program

end Screencast
