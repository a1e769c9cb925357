import Screencast.Proofs.Conduct.Encoder

/-!
# The use of an encoder

What an encoder's owner can do to it, in any order and any number of times, and what that comes to:
each operation is one of a few moves, or two or three of them in a row.

* `Encoder.Operation`, `Encoder.operate`: the operations, and a number of them one after another.
* `Encoder.Move`: what an encoder is asked at once, and what it is afterwards.
* `Encoder.ends_operate`: operations are moves.
-/

namespace Screencast

namespace Exchange

/-- A call that an encoder takes whatever its state is. -/
def isAside (e : Exchange) : Bool :=
  match e.request with
  | .encoder .bufferTable | .encoder (.releaseBuffer _) | .encoder (.readSlot _) => true
  | _ => false

/-- A call by which an encoder's output is asked for. -/
def asksOutput (e : Exchange) : Bool :=
  match e.request with
  | .encoder (.dequeue _) | .encoder .currentFormat => true
  | _ => false

end Exchange

namespace Encoder

/-- What can be done to an encoder. -/
inductive Operation
  | configure (s : Settings) (size : FrameSize) (frameRate : Single)
  | configureOrShrink (s : Settings) (size : FrameSize) (frameRate : Single)
  | poll (milliseconds : Nat)
  | refresh
  | releaseBuffer (index : Nat)
  | stop
  | release

/-- The encoder after an action, whatever came of the action. -/
def left {α : Type} (a : Action Encoder α) (e : Encoder) : Program Encoder := do
  let (_, e) ← a e
  return e

/-- The encoder after an operation. -/
def Operation.perform : Operation → Encoder → Program Encoder
  | configure s size frameRate => left (Encoder.configure s size frameRate)
  | configureOrShrink s size frameRate => left (Encoder.configureOrShrink s size frameRate)
  | poll milliseconds => left (Encoder.poll milliseconds)
  | refresh => left Encoder.refresh
  | releaseBuffer index => left (Encoder.releaseBuffer index)
  | stop => left Encoder.stop
  | release => left Encoder.release

/-- The encoder after a number of operations. -/
def operate : List Operation → Encoder → Program Encoder
  | [], e => return e
  | o :: rest, e => do operate rest (← o.perform e)

/-! ## Moves -/

/-- **What an encoder is asked at once**, and what it is afterwards. A set-up is asked for as a
whole: it is granted at every step, or refused at one of them and made good by a release. -/
inductive Move : Encoder → History → Encoder → Prop
  | granted {e : Encoder} (params : EncoderSettings) (persistent : Bool) (surface : Surface)
      (table : List Slot) (he : e.state = .unconfigured) :
      Move e (Encoder.granted params persistent surface table)
        ⟨.running, table, some params, some surface⟩
  | refused {e : Encoder} {params : EncoderSettings} {persistent : Bool} {h : History}
      {f : Failure} (he : e.state = .unconfigured) (hr : Refused params persistent h f) :
      Move e (h ++ [⟨.encoder .release, ()⟩]) { e with table := [], state := .unconfigured }
  | asked {e : Encoder} (x : Exchange) (he : e.state = .running) (hx : x.asksOutput) : Move e [x] e
  | aside {e : Encoder} (x : Exchange) (table : List Slot) (hx : x.isAside) :
      Move e [x] { e with table }
  | stopped {e : Encoder} (answer : Outcome Unit) (he : e.state = .running) :
      Move e [⟨.encoder .stop, answer⟩] { e with state := .stopped }
  | released {e : Encoder} (he : e.state ≠ .unconfigured) :
      Move e [⟨.encoder .release, ()⟩] { e with table := [], surface := none, state := .unconfigured }

/-- Moves in a row. -/
inductive Moves : Encoder → History → Encoder → Prop
  | none (e : Encoder) : Moves e [] e
  | more {e e' e'' : Encoder} {h k : History} (hm : Move e h e') (hr : Moves e' k e'') :
      Moves e (h ++ k) e''

variable {e e' e'' : Encoder} {h k : History}

theorem Move.single (hm : Move e h e') : Moves e h e' := by
  simpa using Moves.more hm (.none e')

theorem Moves.append (hh : Moves e h e') (hk : Moves e' k e'') : Moves e (h ++ k) e'' := by
  induction hh with
  | none => exact hk
  | more hm _ ih =>
    rw [List.append_assoc]
    exact .more hm (ih hk)

theorem Move.followed (hm : Move e h e') (hk : Move e' k e'') : Moves e (h ++ k) e'' :=
  hm.single.append hk.single

/-! ## Operations as moves -/

variable {s : Settings} {size : FrameSize} {frameRate : Single}

theorem Configured.moves {x : Outcome Surface} (hc : Configured s size frameRate e h (x, e')) :
    Moves e h e' := by
  cases hc with
  | busy => exact .none e
  | granted surface table he => exact (Move.granted _ _ surface table he).single
  | refused he hr => exact (Move.refused he hr).single

theorem Shrunk.moves {x : Outcome (Surface × FrameSize)}
    (hs : Shrunk s size frameRate e h (x, e')) : Moves e h e' := by
  cases hs with
  | first h₁ => exact h₁.moves
  | final _ h₁ => exact h₁.moves
  | second _ h₁ h₂ => exact h₁.moves.append h₂.moves
  | twice _ h₁ h₂ => exact h₁.moves.append h₂.moves

/-- A running encoder is asked for its output, and a buffer that ends it is handed back. -/
theorem Polled.moves {milliseconds : Nat} {x : Outcome Event}
    (hp : Polled milliseconds e h (x, e)) (he : e.state = .running) : Moves e h e := by
  have hasked : ∀ answer : Dequeued, Move e [⟨.encoder (.dequeue milliseconds), answer⟩] e :=
    fun answer => .asked _ he rfl
  have haside : ∀ y : Exchange, y.isAside → Move e [y] e := fun y hy => .aside y e.table hy
  have hformat : ∀ answer : Outcome TrackFormat, Move e [⟨.encoder .currentFormat, answer⟩] e :=
    fun answer => .asked _ he rfl
  cases hp with
  | idle => exact .none e
  | last b => exact (hasked (.buffer b)).followed (haside _ rfl)
  | lastKept b => exact (hasked (.buffer b)).followed (haside _ rfl)
  | unknown b => exact (hasked (.buffer b)).single
  | short b => exact (hasked (.buffer b)).followed (haside _ rfl)
  | data b => exact (hasked (.buffer b)).followed (haside _ rfl)
  | retry => exact (hasked .tryAgain).single
  | format => exact (hasked .formatChanged).followed (hformat _)
  | noFormat => exact (hasked .formatChanged).followed (hformat _)
  | buffers => exact (hasked .buffersChanged).single
  | error code => exact (hasked (.error code)).single

theorem ends_poll_moves (milliseconds : Nat) (e : Encoder) :
    (poll milliseconds e).Ends fun h r => Moves e h r.2 := by
  by_cases he : e.state = .running
  · refine (ends_poll milliseconds e).ensures fun h r hp => ?_
    obtain ⟨x, e'⟩ := r
    obtain rfl : e' = e := by cases hp <;> rfl
    exact hp.moves he
  -- an encoder that does not run is asked nothing
  · unfold poll
    simp only [Action.ensures_bind, Action.ensures_get, Action.after_ok]
    rw [if_pos he]
    exact Action.ensures_fail.2 (.none e)

theorem Halted.moves {x : Outcome Unit} (hh : Halted e h (x, e')) : Moves e h e' := by
  cases hh with
  | stopped answer he => exact (Move.stopped x he).single
  | unneeded => exact .none e

theorem freeing_moves (e : Encoder) : Moves e e.freeing e.freed := by
  unfold freeing freed
  split
  · exact .none e
  · rename_i he
    exact (Move.released he).single

theorem ends_left {α : Type} {a : Action Encoder α} {R : History → Encoder → Prop}
    (ha : (a e).Ends fun h r => R h r.2) : (left a e).Ends R := by
  refine Program.ensures_bind.2 (ha.ensures fun h r hr => ?_)
  simpa only [Program.pure_eq, Program.ensures_done, Program.finished_some, List.append_nil]
    using hr

/-- **An operation is a few moves.** -/
theorem ends_perform (o : Operation) (e : Encoder) : (o.perform e).Ends (Moves e) := by
  cases o with
  | configure s size frameRate =>
    exact ends_left ((ends_configure s size frameRate e).ensures fun h r hr => hr.moves)
  | configureOrShrink s size frameRate =>
    exact ends_left ((ends_configureOrShrink s size frameRate e).ensures fun h r hr => hr.moves)
  | poll milliseconds => exact ends_left (ends_poll_moves milliseconds e)
  | refresh =>
    refine ends_left (ensures_refresh.2 ⟨fun f => ?_, fun table => ?_⟩)
    · exact (Move.aside _ e.table rfl).single
    · exact (Move.aside _ table rfl).single
  | releaseBuffer index =>
    refine ends_left (ensures_releaseBuffer.2 ⟨fun f => ?_, ?_⟩)
    · exact (Move.aside _ e.table rfl).single
    · exact (Move.aside _ e.table rfl).single
  | stop => exact ends_left ((ends_stop e).ensures fun h r hr => hr.moves)
  | release => exact ends_left (ensures_release.2 (freeing_moves e))

/-- **Operations are moves.** -/
theorem ends_operate (operations : List Operation) (e : Encoder) :
    (operate operations e).Ends (Moves e) := by
  induction operations generalizing e with
  | nil => exact Program.ensures_done.2 (.none e)
  | cons o rest ih =>
    refine Program.ensures_bind.2 ((ends_perform o e).ensures fun h e' hm => ?_)
    exact (ih e').ensures fun k e'' hk => hm.append hk

end Encoder

end Screencast
