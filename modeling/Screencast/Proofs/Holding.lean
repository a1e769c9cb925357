import Screencast.Proofs.Course
import Screencast.Proofs.Displays
import Screencast.Proofs.Tenures

/-!
# What a session holds during its loop

A set-up that succeeds leaves the encoder running and a virtual display made. The loop keeps both as
they are, so they are there to be given back after it, however it has ended.

* `Session.Prepared.encoder_running`, `Session.Prepared.bound`: what the loop begins with.
* `Take.Holding`: the same encoder runs and the same virtual display is there.
* `History.Serving`: the encoder is neither set up nor stopped nor released.
* `Take.Looped.holding`, `Take.Looped.serving`: the loop by induction on its passes.
* `Session.GivenBack.of_running`: what is given back after the loop.
-/

namespace Screencast

/-- A call other than those that set the encoder up, stop it or release it. -/
def Exchange.serves (e : Exchange) : Bool :=
  match e.request with
  | .encoder r =>
    match r with
    | .configure _ | .createSurface _ | .start | .stop | .release => false
    | .dequeue _ | .bufferTable | .currentFormat | .releaseBuffer _ | .readSlot _ => true
  | _ => true

namespace History

variable {h k : History} {parties : List Party}

/-- The encoder is neither set up nor stopped nor released. -/
def Serving (h : History) : Prop := h.all Exchange.serves = true

theorem serving_iff : h.Serving ↔ ∀ e ∈ h, e.serves = true := List.all_eq_true

@[simp] theorem serving_cons {e : Exchange} :
    Serving (e :: h) ↔ e.serves = true ∧ h.Serving := by
  simp only [serving_iff, List.forall_mem_cons]

@[simp] theorem serving_append : Serving (h ++ k) ↔ h.Serving ∧ k.Serving := by
  simp only [serving_iff, List.forall_mem_append]

theorem Within.serving (hw : h.Within parties) (hp : Party.encoder ∉ parties) : h.Serving := by
  refine serving_iff.2 fun e he => ?_
  have hparty : e.party ≠ .encoder := fun h => hp (h ▸ hw e he)
  rcases e with ⟨_ | _ | _ | _ | _ | _, answer⟩
  case encoder => exact absurd rfl hparty
  all_goals rfl

theorem Serving.calm (hs : h.Serving) : h.Calm := by
  refine calm_iff.2 fun e he => ?_
  have hserves := serving_iff.1 hs e he
  rcases e with ⟨_ | _ | _ | _ | _ | _, answer⟩
  case encoder r =>
    cases r <;> first | exact ⟨rfl, rfl, rfl⟩ | cases hserves
  all_goals exact ⟨rfl, rfl, rfl⟩

end History

open History

variable {h k : History}

/-- A set-up that was granted, at once or in a second attempt, leaves the encoder running. -/
theorem Encoder.Shrunk.running {e e' : Encoder} {s : Settings} {size : FrameSize}
    {frameRate : Single} {x : Surface × FrameSize}
    (hs : Encoder.Shrunk s size frameRate e h (.ok x, e')) : e'.state = .running := by
  have hfirst : ∀ {e size k surface},
      Encoder.Configured s size frameRate e k (.ok surface, e') → e'.state = .running := by
    intro e size k surface hc
    cases hc
    rfl
  cases hs with
  | first h₁ => exact hfirst h₁
  | second _ _ h₂ => exact hfirst h₂

/-- A virtual display that is started is the one that was made. -/
theorem Capture.Started.bound {surface : Surface} {geometry : Geometry} {size : FrameSize}
    {rotate : Bool} {projection : Projection} {c c' : Capture}
    (hs : Capture.Started surface geometry size rotate c h (.ok projection, c')) :
    ∃ handle, c'.handle? = some handle ∧ h.made = [handle] := by
  cases hs with
  | started handle => exact ⟨handle, rfl, rfl⟩

/-- Calls to others than the compositor make no virtual display. -/
theorem History.Within.made {parties : List Party} (hw : h.Within parties)
    (hc : Party.capture ∉ parties) : h.made = [] :=
  hw.filterMap_eq_nil fun _ he => (Exchange.unhandled fun hp => hc (hp ▸ he)).1

@[simp] theorem History.made_append : made (h ++ k) = h.made ++ k.made := List.filterMap_append ..

/-! ## The loop -/

namespace Take

variable {t t' t'' : Take}

/-- The same encoder runs, and the same virtual display is there. -/
structure Holding (t t' : Take) : Prop where
  state : t'.encoder.state = t.encoder.state
  handle : t'.capture.handle? = t.capture.handle?

theorem Holding.refl (t : Take) : Holding t t := ⟨rfl, rfl⟩

theorem Holding.trans (hh : Holding t t') (hk : Holding t' t'') : Holding t t'' where
  state := hk.state.trans hh.state
  handle := hk.handle.trans hh.handle

theorem Looked.handle_eq {c c' : Capture} (hl : Looked c h c') : c'.handle? = c.handle? := by
  cases hl with
  | unseen => rfl
  | seen _ hu =>
    cases hu with
    | still => rfl
    | refused => rfl
    | projected d hc => simp only [Capture.handle?, hc, Option.map_some]

theorem Handled.holding {s : Sample} {x : Outcome Unit} (hh : Handled s t h (x, t')) :
    Holding t t' := by
  refine ⟨by rw [hh.encoder_eq], ?_⟩
  cases hh with
  | skipped => rfl
  | refused _ hl => exact hl.handle_eq
  | written _ hl =>
    unfold after
    split <;> exact hl.handle_eq

theorem Passed.holding {x : Outcome Bool} (hp : Passed t h (x, t')) : Holding t t' := by
  cases hp with
  | unwritten _ hh => exact hh.holding
  | kept _ _ hh => exact hh.holding
  | last _ hh => exact hh.holding
  | moved _ hh => exact hh.holding
  | _ => exact ⟨rfl, rfl⟩

/-- **The loop** holds what it was given, for as many passes as it makes. -/
theorem Looped.holding {deadline : Int64} {x : Outcome Ending}
    (hl : Looped deadline t h (some (x, t'))) : Holding t t' := by
  generalize hr : some (x, t') = r at hl
  induction hl with
  | spent => cases hr
  | stopped => cases hr; exact .refl _
  | late => cases hr; exact .refl _
  | failed _ _ hp => cases hr; exact hp.holding
  | ended _ _ hp => cases hr; exact hp.holding
  | next _ _ hp _ ih => exact hp.holding.trans (ih hr)

theorem Handled.serving {s : Sample} {x : Outcome Unit × Take} (hh : Handled s t h x) :
    h.Serving :=
  hh.within.serving (by simp)

theorem Passed.serving {x : Outcome Bool × Take} (hp : Passed t h x) : h.Serving := by
  have hpolled : ∀ {k y}, Encoder.Polled longestWait t.encoder k y → k.Serving := by
    intro k y hp
    cases hp <;> rfl
  have hformat : ∀ {format k y}, Sink.Reformatted format t.sink k y →
      Serving (dequeued .formatChanged :: ⟨.encoder .currentFormat, .ok format⟩ :: k) :=
    fun hr => serving_cons.2 ⟨rfl, serving_cons.2 ⟨rfl, hr.within.serving (by simp)⟩⟩
  cases hp with
  | unpolled hp => exact hpolled hp
  | reformatted _ hr => exact hformat hr
  | unformatted _ hr => exact hformat hr
  | unwritten hp hh => exact serving_append.2 ⟨hpolled hp, hh.serving⟩
  | kept _ hp hh => exact serving_append.2 ⟨serving_append.2 ⟨hpolled hp, hh.serving⟩, rfl⟩
  | last hp hh => exact serving_append.2 ⟨serving_append.2 ⟨hpolled hp, hh.serving⟩, rfl⟩
  | moved hp hh => exact serving_append.2 ⟨serving_append.2 ⟨hpolled hp, hh.serving⟩, rfl⟩
  | _ => rfl

/-- **The loop** neither sets the encoder up nor stops nor releases it. -/
theorem Looped.serving {deadline : Int64} {r : Option (Outcome Ending × Take)}
    (hl : Looped deadline t h r) : h.Serving := by
  have hturn : ∀ {k : History} {nanos}, k.Serving →
      Serving (asked false :: clocked nanos :: k) :=
    fun hk => serving_cons.2 ⟨rfl, serving_cons.2 ⟨rfl, hk⟩⟩
  induction hl with
  | spent => rfl
  | stopped => rfl
  | late => rfl
  | failed _ _ hp => exact hturn hp.serving
  | ended _ _ hp => exact hturn hp.serving
  | next _ _ hp _ ih => exact hturn (serving_append.2 ⟨hp.serving, ih⟩)

end Take

/-! ## Before and after the loop -/

namespace Session

variable {s s' : Session} {r : Ready}

theorem Opened.capture_eq {x : Outcome Sink} (ho : Opened s h (x, s')) :
    s'.capture = s.capture := by
  cases ho <;> rfl

/-- The encoder runs when the set-up has succeeded. -/
theorem Prepared.encoder_running (hp : Prepared s h (.ok r, s')) : s'.encoder.state = .running := by
  cases hp with
  | ready _ _ he _ ho =>
    rw [ho.encoder_eq]
    exact he.running

/-- One virtual display has been made when the set-up has succeeded, and it is there. -/
theorem Prepared.bound (hp : Prepared s h (.ok r, s')) :
    ∃ handle, s'.capture.handle? = some handle ∧ h.made = [handle] := by
  cases hp with
  | ready _ hl he hc ho =>
    obtain ⟨handle, hhandle, hmade⟩ := hc.bound
    refine ⟨handle, by rw [ho.capture_eq]; exact hhandle, ?_⟩
    rw [made_append, made_append, made_append, hl.within.made (by simp),
      he.within.made (by simp), hmade, ho.within.made (by simp)]
    rfl

end Session

namespace Encoder

variable {e e' : Encoder} {x : Outcome Unit}

/-- A running encoder is stopped, and then it is there to be released. -/
theorem Halted.of_running (hh : Halted e h (x, e')) (he : e.state = .running) :
    h = [⟨.encoder .stop, x⟩] ∧ e'.freeing = [⟨.encoder .release, ()⟩] := by
  cases hh with
  | stopped => exact ⟨rfl, rfl⟩
  | unneeded hn => exact absurd he hn

end Encoder

namespace Session

variable {s s' : Session} {sink : Sink}

theorem Abandoned.of_running (ha : Abandoned s h s') (he : s.encoder.state = .running) :
    ∃ answer, h = s.capture.closing ++ [⟨.encoder .stop, answer⟩, ⟨.encoder .release, ()⟩] := by
  obtain @⟨_, answer, _, hs⟩ := ha
  obtain ⟨rfl, hfreeing⟩ := hs.of_running he
  exact ⟨answer, by rw [hfreeing, List.append_assoc]; rfl⟩

theorem GivenBack.of_running {x : Outcome Unit} (hb : GivenBack s sink h (x, s'))
    (he : s.encoder.state = .running) :
    ∃ answer close sink', sink.Closed close (x, sink') ∧
      h = s.capture.closing ++
        ⟨.encoder .stop, answer⟩ :: (close ++ [⟨.encoder .release, ()⟩]) := by
  obtain @⟨_, close, answer, _, _, sink', hs, hc⟩ := hb
  obtain ⟨rfl, hfreeing⟩ := hs.of_running he
  exact ⟨answer, close, sink', hc, by rw [hfreeing]; simp⟩

end Session

end Screencast
