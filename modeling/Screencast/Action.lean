import Screencast.Program

/-!
# Operations that change a part of a session

An action is a program that works on a state and may fail. What it has changed by then stays changed
when it fails, so that what it had acquired can be given back.

* `Action.attempt`: a program whose result may be a failure.
* `Action.during`: the same action, its failures told as those of a stage.
* `Action.outcome`: the same action, its failure handed on as a value.
* `Action.on`: an action on one part of a larger state.
* `bind_apply` and its neighbours: each operation as a program.
-/

namespace Screencast

/-- A program on a state that may fail. -/
def Action (σ α : Type) : Type := σ → Program (Outcome α × σ)

namespace Action

variable {σ τ α β : Type}

/-- Goes on with a result, and passes a failure on. -/
def continue? (f : α → Action σ β) : Outcome α × σ → Program (Outcome β × σ)
  | (.ok x, s) => f x s
  | (.error e, s) => .done (.error e, s)

instance : Monad (Action σ) where
  pure x := fun s => .done (.ok x, s)
  bind a f := fun s => a s >>= continue? f

instance : MonadStateOf σ (Action σ) where
  get := fun s => .done (.ok s, s)
  set s := fun _ => .done (.ok (), s)
  modifyGet f := fun s => .done (.ok (f s).1, (f s).2)

/-- Fails. -/
def fail (e : Failure) : Action σ α := fun s => .done (.error e, s)

/-- Runs a program beside the state. -/
def lift (p : Program α) : Action σ α := fun s => p >>= fun x => .done (.ok x, s)

instance : MonadLift Program (Action σ) := ⟨lift⟩

/-- Runs a program whose result may be a failure. -/
def attempt (p : Program (Outcome α)) : Action σ α := fun s => p >>= fun r => .done (r, s)

/-- The result or failure of an action as a value. -/
def outcome (a : Action σ α) : Action σ (Outcome α) := fun s =>
  a s >>= fun (r, s) => .done (.ok r, s)

/-- The action with its failure told in other words. -/
def mapFailure (f : Failure → Failure) (a : Action σ α) : Action σ α := fun s =>
  a s >>= fun (r, s) => .done (r.mapError f, s)

/-- The action with its failure told as one of a stage, met while doing something. -/
def during (stage : Stage) (doing : String) (a : Action σ α) : Action σ α :=
  a.mapFailure (·.asStage stage doing)

/-- An action on a part of the state. -/
def on (part : σ → τ) (put : τ → σ → σ) (a : Action τ α) : Action σ α := fun s =>
  a (part s) >>= fun (r, t) => .done (r, put t s)

@[simp] theorem continue?_ok (f : α → Action σ β) (x : α) (s : σ) :
    continue? f (.ok x, s) = f x s := rfl

@[simp] theorem continue?_error (f : α → Action σ β) (e : Failure) (s : σ) :
    continue? f (.error e, s) = .done (.error e, s) := rfl

theorem pure_apply (x : α) (s : σ) : (pure x : Action σ α) s = .done (.ok x, s) := rfl

theorem bind_apply (a : Action σ α) (f : α → Action σ β) (s : σ) :
    (a >>= f) s = a s >>= continue? f := rfl

theorem get_apply (s : σ) : (get : Action σ σ) s = .done (.ok s, s) := rfl

theorem set_apply (t s : σ) : (set t : Action σ PUnit) s = .done (.ok ⟨⟩, t) := rfl

theorem modify_apply (f : σ → σ) (s : σ) :
    (modify f : Action σ PUnit) s = .done (.ok ⟨⟩, f s) := rfl

theorem fail_apply (e : Failure) (s : σ) : (fail e : Action σ α) s = .done (.error e, s) := rfl

theorem lift_apply (p : Program α) (s : σ) :
    (liftM p : Action σ α) s = p >>= fun x => .done (.ok x, s) := rfl

theorem attempt_apply (p : Program (Outcome α)) (s : σ) :
    (attempt p : Action σ α) s = p >>= fun r => .done (r, s) := rfl

theorem outcome_apply (a : Action σ α) (s : σ) :
    a.outcome s = a s >>= fun r => .done (.ok r.1, r.2) := rfl

theorem mapFailure_apply (f : Failure → Failure) (a : Action σ α) (s : σ) :
    a.mapFailure f s = a s >>= fun r => .done (r.1.mapError f, r.2) := rfl

theorem on_apply (part : σ → τ) (put : τ → σ → σ) (a : Action τ α) (s : σ) :
    a.on part put s = a (part s) >>= fun r => .done (r.1, put r.2 s) := rfl

instance : LawfulMonad (Action σ) := LawfulMonad.mk' (Action σ)
  (fun a => funext fun s => by
    change (a s >>= continue? pure) = a s
    conv => rhs; rw [← bind_pure (a s)]
    congr 1
    funext r
    rcases r with ⟨_ | _, _⟩ <;> rfl)
  (fun _ _ => rfl)
  (fun a f g => funext fun s => by
    change (a s >>= continue? f) >>= continue? g = a s >>= continue? fun x => f x >>= g
    rw [bind_assoc]
    congr 1
    funext r
    rcases r with ⟨_ | _, _⟩ <;> rfl)

end Action

end Screencast
