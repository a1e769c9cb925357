import Screencast.Proofs.Holding
import Screencast.Rehearsal.Obliging

/-!
# Started encoders

An encoder that was started is stopped once before it is released, with one exception: where it
refuses its buffer table right after the start, it is released as it runs.

* `History.launches`: what follows each start of the encoder.
* `History.HaltedOnce`: the encoder is stopped once before it is released.
* `Encoder.Launched`: the two ways in which a start is followed.
* `Session.encoder_halted_once`: the main result, and `Session.encoder_released_running` for the
  exception.
-/

namespace Screencast

/-- The encoder is started. -/
def Exchange.launches : Exchange → Bool
  | ⟨.encoder .start, .ok ()⟩ => true
  | _ => false

namespace History

/-- The calls that follow each start of the encoder. -/
def launches : History → List History
  | [] => []
  | e :: h => if e.launches then h :: launches h else launches h

/-- The calls until the encoder is released. -/
def untilFreed (h : History) : History := h.takeWhile fun e => !e.frees

/-- The encoder is stopped once before it is released, and it is released. -/
structure HaltedOnce (h : History) : Prop where
  once : h.untilFreed.halts = 1
  freed : 0 < h.frees

instance (h : History) : Decidable h.HaltedOnce :=
  decidable_of_iff (h.untilFreed.halts = 1 ∧ 0 < h.frees)
    ⟨fun hh => ⟨hh.1, hh.2⟩, fun hh => ⟨hh.once, hh.freed⟩⟩

variable {h k : History} {parties : List Party}

/-- What follows a start goes on into further calls. -/
theorem launches_append : launches (h ++ k) = h.launches.map (· ++ k) ++ k.launches := by
  induction h with
  | nil => rfl
  | cons e h ih =>
    rw [List.cons_append, launches, launches, ih]
    split <;> rfl

theorem launches_of_none (hn : ∀ e ∈ h, e.launches = false) : h.launches = [] := by
  induction h with
  | nil => rfl
  | cons e h ih =>
    obtain ⟨he, hh⟩ := List.forall_mem_cons.1 hn
    rw [launches, he]
    exact ih hh

theorem Serving.launches (hs : h.Serving) : h.launches = [] := by
  refine launches_of_none fun e he => ?_
  have hserves := serving_iff.1 hs e he
  rcases e with ⟨_ | _ | _ | _ | _ | _, answer⟩
  case encoder r =>
    cases r with
    | start => cases hserves
    | _ => rfl
  all_goals rfl

theorem Within.launches (hw : h.Within parties) (hp : Party.encoder ∉ parties) :
    h.launches = [] := (hw.serving hp).launches

theorem launches_append_nil (hh : h.launches = []) (hk : k.launches = []) :
    launches (h ++ k) = [] := by
  rw [launches_append, hh, hk]
  rfl

/-- Nothing that leaves the encoder as it is counts. -/
theorem HaltedOnce.after (hh : h.HaltedOnce) (hk : k.Calm) : HaltedOnce (k ++ h) where
  once := by
    rw [untilFreed, List.takeWhile_append_of_pos, halts_append, hk.halts, Nat.zero_add]
    · exact hh.once
    · intro e he
      rw [(calm_iff.1 hk e he).2.2]
      rfl
  freed := by
    rw [frees_append, hk.frees, Nat.zero_add]
    exact hh.freed

/-- A stop, and a release before anything else is done to the encoder. -/
theorem haltedOnce_of_stop (answer : Outcome Unit) (hk : k.Calm) (later : History) :
    HaltedOnce (⟨.encoder .stop, answer⟩ :: (k ++ ⟨.encoder .release, ()⟩ :: later)) where
  once := by
    have huntil : untilFreed (k ++ ⟨.encoder .release, ()⟩ :: later) = k := by
      have hkept : ∀ e ∈ k, (!e.frees) = true := by
        intro e he
        rw [(calm_iff.1 hk e he).2.2]
        rfl
      rw [untilFreed, List.takeWhile_append_of_pos hkept]
      simp [Exchange.frees]
    have hcount : halts ([⟨.encoder .stop, answer⟩] ++
        untilFreed (k ++ ⟨.encoder .release, ()⟩ :: later)) = 1 := by
      rw [huntil, halts_append, hk.halts]
      rfl
    exact hcount
  freed := List.countP_pos_iff.2 ⟨⟨.encoder .release, ()⟩, by simp, rfl⟩

end History

open History

variable {h k l : History}

namespace Encoder

/-- **What follows a start of the encoder**: a buffer table, and then one stop before the release;
or the refusal of a buffer table, and the release at once. -/
inductive Launched : History → Prop
  | served {h : History} (table : List Slot) (hh : h.HaltedOnce) :
      Launched (⟨.encoder .bufferTable, .ok table⟩ :: h)
  | unserved (f : Failure) (h : History) :
      Launched (⟨.encoder .bufferTable, .error f⟩ :: ⟨.encoder .release, ()⟩ :: h)

variable {e e' : Encoder} {s : Settings} {size : FrameSize} {frameRate : Single}

/-- In a set-up that was refused, the encoder is released as soon as its buffer table is. -/
theorem Refused.launched {params : EncoderSettings} {persistent : Bool} {f : Failure}
    (hr : Refused params persistent k f) :
    ∀ rest ∈ launches (k ++ [⟨.encoder .release, ()⟩]), Launched (rest ++ l) := by
  intro rest hrest
  cases hr with
  | configure => cases hrest
  | surface => cases hrest
  | start => cases hrest
  | table _ f =>
    obtain rfl := List.mem_singleton.1 hrest
    exact .unserved f l

/-- What follows a start in a set-up at one size, if the calls after it stop the encoder once. -/
theorem Configured.launched {x : Outcome Surface} (hc : Configured s size frameRate e k (x, e'))
    (ht : (∃ surface, x = .ok surface) → l.HaltedOnce) :
    ∀ rest ∈ k.launches, Launched (rest ++ l) := by
  cases hc with
  | busy => exact fun rest hrest => absurd hrest List.not_mem_nil
  | granted surface table =>
    intro rest hrest
    obtain rfl := List.mem_singleton.1 hrest
    exact .served table (ht ⟨surface, rfl⟩)
  | refused _ hr => exact hr.launched

theorem Shrunk.launched {x : Outcome (Surface × FrameSize)}
    (hs : Shrunk s size frameRate e k (x, e')) (ht : (∃ y, x = .ok y) → l.HaltedOnce) :
    ∀ rest ∈ k.launches, Launched (rest ++ l) := by
  have hfailed : ∀ {f : Failure} {m : History},
      (∃ surface : Surface, Except.error f = .ok surface) → m.HaltedOnce := by
    rintro f m ⟨_, h⟩
    cases h
  -- what follows a start in the first attempt goes on through the second one
  have htwice : ∀ {m n : History} {f y e₁ e₂ size'},
      Configured s size frameRate e m (.error f, e₁) →
      Configured s size' frameRate e₁ n (y, e₂) →
      ((∃ surface, y = .ok surface) → l.HaltedOnce) →
      ∀ rest ∈ launches (m ++ n), Launched (rest ++ l) := by
    intro m n f y e₁ e₂ size' h₁ h₂ hy rest hrest
    rw [launches_append] at hrest
    rcases List.mem_append.1 hrest with hrest | hrest
    · obtain ⟨first, hfirst, rfl⟩ := List.mem_map.1 hrest
      rw [List.append_assoc]
      exact h₁.launched (fun h => hfailed h) first hfirst
    · exact h₂.launched hy rest hrest
  cases hs with
  | first h₁ => exact h₁.launched fun _ => ht ⟨_, rfl⟩
  | final _ h₁ => exact h₁.launched fun h => hfailed h
  | second _ h₁ h₂ => exact htwice h₁ h₂ fun _ => ht ⟨_, rfl⟩
  | twice _ h₁ h₂ => exact htwice h₁ h₂ fun h => hfailed h

end Encoder

namespace Session

variable {s s' : Session}

/-- A running encoder that is given back, alone or around the end of an output. -/
theorem closing_haltedOnce (c : Capture) (answer : Outcome Unit) (hk : k.Serving) :
    HaltedOnce (c.closing ++ ⟨.encoder .stop, answer⟩ :: (k ++ [⟨.encoder .release, ()⟩]) ++ l) ∧
      launches (c.closing ++ ⟨.encoder .stop, answer⟩ :: (k ++ [⟨.encoder .release, ()⟩])) =
        [] := by
  constructor
  · have hstop := (haltedOnce_of_stop answer hk.calm l).after
      (Capture.closing_within (c := c).calm (by simp))
    simpa using hstop
  · refine launches_append_nil (Capture.closing_within.launches (by simp)) ?_
    exact launches_append_nil (h := [_]) rfl (launches_append_nil hk.launches rfl)

theorem Abandoned.haltedOnce (ha : Abandoned s k s') (he : s.encoder.state = .running) :
    HaltedOnce (k ++ l) ∧ k.launches = [] := by
  obtain ⟨answer, rfl⟩ := ha.of_running he
  exact closing_haltedOnce s.capture answer (k := []) rfl

theorem GivenBack.haltedOnce {sink : Sink} {x : Outcome Unit} (hb : GivenBack s sink k (x, s'))
    (he : s.encoder.state = .running) : HaltedOnce (k ++ l) ∧ k.launches = [] := by
  obtain ⟨answer, close, sink', hc, rfl⟩ := hb.of_running he
  exact closing_haltedOnce s.capture answer (hc.within.serving (by simp))

/-- What follows a start during the set-up, if the calls after a set-up that succeeds stop the
encoder once. -/
theorem Prepared.launched {x : Outcome Ready} (hp : Prepared s h (x, s'))
    (hn : l.launches = []) (ht : (∃ r, x = .ok r) → l.HaltedOnce) :
    ∀ rest ∈ launches (h ++ l), Encoder.Launched rest := by
  -- all starts are in the set-up of the encoder
  have hset : ∀ {look setUp m : History} {y size rate z e}, Inspected s.settings look y →
      Encoder.Shrunk s.settings size rate s.encoder setUp (z, e) → m.launches = [] →
      ((∃ x, z = .ok x) → m.HaltedOnce) →
      ∀ rest ∈ launches (look ++ (setUp ++ m)), Encoder.Launched rest := by
    intro look setUp m y size rate z e hl he hnone ht rest hrest
    rw [launches_append, launches_append, hl.within.launches (by simp), hnone, List.append_nil,
      List.map_nil, List.nil_append] at hrest
    obtain ⟨first, hfirst, rfl⟩ := List.mem_map.1 hrest
    exact he.launched ht first hfirst
  cases hp with
  | invalid => exact fun rest hrest => absurd (hn ▸ hrest) List.not_mem_nil
  | unseen _ hl =>
    intro rest hrest
    rw [launches_append, hl.within.launches (by simp), hn] at hrest
    exact absurd hrest List.not_mem_nil
  | noEncoder _ hl he =>
    rw [List.append_assoc]
    exact hset hl he hn fun ⟨_, h⟩ => nomatch h
  | noCapture _ hl he hc ha =>
    obtain ⟨honce, hnone⟩ := ha.haltedOnce (l := l) he.running
    have hbound := hc.within.serving (by simp)
    simp only [List.append_assoc]
    exact hset hl he (launches_append_nil hbound.launches (launches_append_nil hnone hn))
      fun _ => honce.after hbound.calm
  | noOutput _ hl he hc ho ha =>
    obtain ⟨honce, hnone⟩ := ha.haltedOnce (l := l) (ho.encoder_eq ▸ he.running)
    have hbound := hc.within.serving (by simp)
    have hopened := ho.within.serving (by simp)
    simp only [List.append_assoc]
    exact hset hl he (launches_append_nil hbound.launches
        (launches_append_nil hopened.launches (launches_append_nil hnone hn)))
      fun _ => (honce.after hopened.calm).after hbound.calm
  | ready _ hl he hc ho =>
    have hbound := hc.within.serving (by simp)
    have hopened := ho.within.serving (by simp)
    simp only [List.append_assoc]
    exact hset hl he (launches_append_nil hbound.launches (launches_append_nil hopened.launches hn))
      fun _ => ((ht ⟨_, rfl⟩).after hopened.calm).after hbound.calm

/-- What follows a start in a run that has ended. -/
theorem Ran.launched {x : Outcome Recording} (hr : Ran s h (some (x, s'))) :
    ∀ rest ∈ h.launches, Encoder.Launched rest := by
  generalize hresult : some (x, s') = result at hr
  cases hr.course with
  | unlooped hu =>
    cases hu with
    | again => exact fun rest hrest => absurd hrest List.not_mem_nil
    | unprepared _ hp =>
      rename_i f _ _ _
      have hlaunched := hp.launched (l := [entered .stopped, ⟨.notify (.failed f), ()⟩]) rfl
        fun ⟨_, h⟩ => nomatch h
      exact hlaunched
  | unfinished => cases hresult
  | @drained setUp loop times back rest last r s' s'' t sink looped timed closed x started nanos
      hp hl ht hb hs hlast =>
    have hrunning : (s'.drained t).encoder.state = .running :=
      hl.holding.state.trans hp.encoder_running
    obtain ⟨honce, hnone⟩ := hb.haltedOnce (l := rest ++ last) hrunning
    -- between the set-up and the stop the encoder only serves the loop
    have hserving : Serving (entered .capturing :: Take.clocked started ::
        (loop ++ Take.clocked nanos :: entered .draining :: times)) := by
      simp only [serving_cons, serving_append]
      exact ⟨rfl, rfl, hl.serving, rfl, rfl, ht.within.serving (by simp)⟩
    have hrest : launches (rest ++ last) = [] := launches_append_nil
      (hs.within.launches (by simp)) (hlast.launches (by simp))
    have hlaunched := hp.launched (launches_append_nil hserving.launches
      (launches_append_nil hnone hrest)) fun _ => honce.after hserving.calm
    have hfirst : ∀ k, launches (entered .configuring :: k) = launches k := fun _ => rfl
    simpa [lead, hfirst] using hlaunched

/-- **A started encoder is stopped before it is released.** In any run that ends, whichever calls
are refused, a start of the encoder that was granted is followed by the request for its buffer
table. Where the table comes, the encoder is stopped exactly once before it is released next, and it
is released. Where the table is refused, the encoder is released at once. -/
theorem encoder_halted_once {settings : Settings} {hasMuxer : Bool} {output : Option Raw}
    {passes : Nat} {result : Outcome Recording × Session}
    (hr : (run passes (ofSettings settings hasMuxer output)).Runs h (some result)) :
    ∀ rest ∈ h.calls.launches, Encoder.Launched rest :=
  (ensures_run passes _ h (some result) hr).launched

open Rehearsal in
/-- A run whose container cannot be opened. -/
theorem encoder_halted_once_obliging :
    let p := run 9 (ofSettings .standard false none)
    let h := (p.history Obliging.answer (.ofEvents [])).calls
    h.launches.map (fun rest => (rest.untilFreed.halts, rest.frees)) = [(1, 1)] ∧
      ∀ rest ∈ h.launches, Encoder.Launched rest := by
  intro p h
  have hresult : (p.run Obliging.answer (.ofEvents [])).1.isSome := by decide +kernel
  obtain ⟨result, hr⟩ := Option.isSome_iff_exists.1 hresult
  exact ⟨by decide +kernel, encoder_halted_once (hr ▸ Program.runs_run _ _ _)⟩

open Rehearsal in
/-- **An encoder that refuses its buffer table is released as it runs**: it was started, and it is
not stopped before the release. -/
theorem encoder_released_running :
    let p := run 9 (ofSettings .standard true none)
    let h := (p.history Obliging.answerTableless (.ofEvents [])).calls
    (p.run Obliging.answerTableless (.ofEvents [])).1.isSome ∧
      h.launches.map (fun rest => (rest.untilFreed.halts, rest.frees)) = [(0, 1)] ∧
      ∃ rest ∈ h.launches, ¬rest.HaltedOnce := by
  refine ⟨by decide +kernel, by decide +kernel, ?_⟩
  exact ⟨_, List.mem_singleton_self _, by decide +kernel⟩

end Session

end Screencast
