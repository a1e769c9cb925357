import Screencast.Request

/-!
# Programs over requests

A program asks requests and goes on with their answers until it is done. A program whose loop has a
budget may instead be left unfinished when the budget is spent.

A program can be followed in two ways: by a relation that allows every answer, for statements about
all behaviours of the surroundings, and by a handler that answers from a state of its own.

* `Program.Runs`: the histories of exchanges that a program can have, and its result.
* `Program.run`: the run under a handler.
* `runs_bind_iff`: a run of two programs in a row is a run of each.
* `runs_run`: the run under a handler is one of the possible ones.
-/

namespace Screencast

inductive Program (α : Type) : Type
  | done (a : α)
  | ask (r : Request) (next : r.Answer → Program α)
  /-- The budget is spent. -/
  | unfinished

/-- A request and the answer that it got. -/
structure Exchange where
  request : Request
  answer : request.Answer

/-- The exchanges of a run, in order. -/
abbrev History := List Exchange

namespace Program

variable {α β : Type}

/-- Goes on with another program. -/
protected def bind : Program α → (α → Program β) → Program β
  | done a, f => f a
  | ask r next, f => ask r fun answer => (next answer).bind f
  | unfinished, _ => unfinished

instance : Monad Program where
  pure := done
  bind := Program.bind

@[simp] theorem pure_eq (a : α) : (pure a : Program α) = done a := rfl

@[simp] theorem done_bind (a : α) (f : α → Program β) : done a >>= f = f a := rfl

@[simp] theorem ask_bind (r : Request) (next : r.Answer → Program α) (f : α → Program β) :
    ask r next >>= f = ask r fun answer => next answer >>= f := rfl

@[simp] theorem unfinished_bind (f : α → Program β) :
    (unfinished : Program α) >>= f = unfinished := rfl

instance : LawfulMonad Program := LawfulMonad.mk' Program
  (fun p => by
    induction p with
    | done a => rfl
    | ask r next ih => exact congrArg (ask r) (funext ih)
    | unfinished => rfl)
  (fun _ _ => rfl)
  (fun p f g => by
    induction p with
    | done a => rfl
    | ask r next ih => exact congrArg (ask r) (funext ih)
    | unfinished => rfl)

/-- The program of one request. -/
def request (r : Request) : Program r.Answer := ask r done

/-- **The possible runs.** Every answer is allowed; an unfinished run has no result. -/
inductive Runs : Program α → History → Option α → Prop
  | done (a : α) : Runs (.done a) [] (some a)
  | ask (r : Request) (next : r.Answer → Program α) (answer : r.Answer) {h : History}
      {result : Option α} :
      Runs (next answer) h result → Runs (.ask r next) (⟨r, answer⟩ :: h) result
  | unfinished : Runs .unfinished [] none

@[simp] theorem runs_done_iff {a : α} {h : History} {result : Option α} :
    Runs (done a) h result ↔ h = [] ∧ result = some a := by
  constructor
  · rintro ⟨⟩; exact ⟨rfl, rfl⟩
  · rintro ⟨rfl, rfl⟩; exact .done a

@[simp] theorem runs_unfinished_iff {h : History} {result : Option α} :
    Runs (unfinished : Program α) h result ↔ h = [] ∧ result = none := by
  constructor
  · rintro ⟨⟩; exact ⟨rfl, rfl⟩
  · rintro ⟨rfl, rfl⟩; exact .unfinished

theorem runs_ask_iff {r : Request} {next : r.Answer → Program α} {h : History}
    {result : Option α} :
    Runs (ask r next) h result ↔
      ∃ answer rest, h = ⟨r, answer⟩ :: rest ∧ Runs (next answer) rest result := by
  constructor
  · intro hr
    cases hr with
    | ask _ _ answer hr => exact ⟨answer, _, rfl, hr⟩
  · rintro ⟨answer, rest, rfl, hr⟩
    exact .ask r next answer hr

/-- **Runs of two programs in a row.** Either the first is left unfinished, or it has a result and
the second goes on from it. -/
theorem runs_bind_iff {p : Program α} {f : α → Program β} {h : History} {result : Option β} :
    Runs (p >>= f) h result ↔
      (Runs p h none ∧ result = none) ∨
        ∃ h₁ h₂ a, h = h₁ ++ h₂ ∧ Runs p h₁ (some a) ∧ Runs (f a) h₂ result := by
  induction p generalizing h with
  | done a =>
    simp only [done_bind, runs_done_iff, reduceCtorEq, and_false, false_and, false_or]
    constructor
    · exact fun hr => ⟨[], h, a, rfl, ⟨rfl, rfl⟩, hr⟩
    · rintro ⟨h₁, h₂, x, rfl, ⟨rfl, hx⟩, hr⟩
      cases hx; exact hr
  | unfinished => simp
  | ask r next ih =>
    rw [ask_bind, runs_ask_iff]
    constructor
    · rintro ⟨answer, rest, rfl, hr⟩
      rcases (ih answer).1 hr with ⟨hn, rfl⟩ | ⟨h₁, h₂, a, rfl, h1, h2⟩
      · exact .inl ⟨.ask r next answer hn, rfl⟩
      · exact .inr ⟨⟨r, answer⟩ :: h₁, h₂, a, rfl, .ask r next answer h1, h2⟩
    · rintro (⟨hn, rfl⟩ | ⟨h₁, h₂, a, rfl, h1, h2⟩)
      · obtain ⟨answer, rest, rfl, hr⟩ := runs_ask_iff.1 hn
        exact ⟨answer, rest, rfl, (ih answer).2 (.inl ⟨hr, rfl⟩)⟩
      · obtain ⟨answer, rest, rfl, hr⟩ := runs_ask_iff.1 h1
        exact ⟨answer, rest ++ h₂, rfl, (ih answer).2 (.inr ⟨rest, h₂, a, rfl, hr, h2⟩)⟩

/-- A way to answer requests from a state. -/
abbrev Handler (σ : Type) := (r : Request) → σ → r.Answer × σ

variable {σ : Type}

/-- The run under a handler: the result, if there is one, and the last state. -/
def run (answer : Handler σ) : Program α → σ → Option α × σ
  | done a, s => (some a, s)
  | ask r next, s => (next (answer r s).1).run answer (answer r s).2
  | unfinished, s => (none, s)

/-- The exchanges of the run under a handler. -/
def history (answer : Handler σ) : Program α → σ → History
  | done _, _ => []
  | ask r next, s => ⟨r, (answer r s).1⟩ :: (next (answer r s).1).history answer (answer r s).2
  | unfinished, _ => []

/-- **A handler's run is a possible one.** -/
theorem runs_run (answer : Handler σ) (p : Program α) (s : σ) :
    Runs p (p.history answer s) (p.run answer s).1 := by
  induction p generalizing s with
  | done a => exact .done a
  | ask r next ih => exact .ask r next _ (ih _ _)
  | unfinished => exact .unfinished

end Program

/-- A line of the event report. -/
def report (level : Level) (text : String) : Program Unit := .request (.report level text)

end Screencast
