import Screencast.Proofs.BareOutput
import Screencast.Proofs.Belongings
import Screencast.Proofs.FrameTrack
import Screencast.Proofs.Holding
import Screencast.Rehearsal.Obliging

/-!
# The order of the teardown

When its loop is over, or when its set-up has failed with the encoder running, a session gives back
what it holds in one order, whatever is refused on the way. After that it asks nothing more of those
it has worked through.

* `History.backend`: what is asked of the encoder, the display, the compositor and the outputs.
* `TornDown`: the end of a run that has reached its loop.
* `Undone`: the end of a run whose set-up has failed at one call.
* `Session.Prepared.undone`, `Session.tornDown_of_drained`: the two ends.
* `Session.teardown_in_order`: the main result.
-/

namespace Screencast

namespace History

/-- The encoder, the display, the compositor and the outputs. -/
def backendParties : List Party := [.encoder, .display, .capture, .muxer, .stream]

/-- What is asked of the encoder, the display, the compositor and the outputs. -/
def backend (h : History) : List Request :=
  (h.filter fun e => e.party ∈ backendParties).map Exchange.request

/-- No buffer table is fetched. -/
def Tableless (h : History) : Prop := ∀ e ∈ h, e.table? = none

instance (h : History) : Decidable h.Tableless := List.decidableBAll _ h

variable {h k : History} {parties : List Party}

@[simp] theorem backend_append : backend (h ++ k) = h.backend ++ k.backend := by
  rw [backend, List.filter_append, List.map_append]
  rfl

theorem Within.backend (hw : h.Within parties) (hp : ∀ p ∈ parties, p ∉ backendParties) :
    h.backend = [] := by
  have hnone : (h.filter fun e => e.party ∈ backendParties) = [] :=
    List.filter_eq_nil_iff.2 fun e he hparty => hp _ (hw e he) (of_decide_eq_true hparty)
  rw [History.backend, hnone]
  rfl

@[simp] theorem tableless_append : Tableless (h ++ k) ↔ h.Tableless ∧ k.Tableless :=
  List.forall_mem_append

theorem Within.tableless (hw : h.Within parties) (hp : Party.encoder ∉ parties) : h.Tableless :=
  fun e he => Exchange.table?_of_party fun h => hp (h ▸ hw e he)

end History

open History Session

/-- The release of a virtual display. -/
def releasing (handle : Handle) : Request := .capture (.release handle)

/-- The record of the frame times is due in an mp4 whose loop has written pictures: on the track
that was added for it, at the time of the first picture. -/
inductive TimesDue (format : Format) (loop : History) : List Request → Prop
  | nothing (hn : format ≠ .mp4 ∨ loop.writtenTimes = []) : TimesDue format loop []
  | record {first : Int} {rest : List Int} {track : Track} (data : Bytes) (hf : format = .mp4)
      (hw : loop.writtenTimes = first :: rest) (ht : loop.timeTrack? = some track) :
      TimesDue format loop [.muxer (.write track data first .empty)]

/-- What an output is asked in the end. A container is told to finish if it was started in the loop,
and a stream is flushed. -/
def finishing (settings : Settings) (supply : Option Supply) (loop : History) : List Request :=
  match settings.format.container? with
  | some _ => if 0 < loop.starts then [.muxer .stop] else []
  | none =>
    match Raw.Target.of supply settings.destination with
    | .stream stream => [.stream (.flush stream)]
    | .callback => []

/-- **The end of a run that has reached its loop.** Once the loop is over the record of the frame
times is written where it is due, the virtual display is released, the encoder is stopped, the
output is finished and the encoder is released. Nothing else is asked. -/
inductive TornDown (settings : Settings) (supply : Option Supply) (h : History) : Prop
  | mk {setUp loop after : History} {t t' : Take} {deadline started ended : Int64}
      {looped : Outcome Ending} {handle : Handle} {times : List Request}
      (hh : h = setUp ++ entered .capturing :: Take.clocked started ::
        (loop ++ Take.clocked ended :: entered .draining :: after))
      (hl : t.Looped deadline loop (some (looped, t'))) (hm : setUp.made = [handle])
      (ht : TimesDue settings.format loop times)
      (ha : after.backend = times ++ [releasing handle, .encoder .stop] ++
        finishing settings supply loop ++ [.encoder .release])

/-- The call at which a set-up with a running encoder has failed. Where the output has no place, no
call is refused, and it is the last one before. -/
inductive FailedAt : Exchange → Failure → Prop
  | bind (surface : Surface) (layerStack : UInt32) (f : Failure) :
      FailedAt ⟨.capture (.bind surface layerStack), .error f⟩
        (f.asStage .capture "create virtual display")
  | project (handle : Handle) (projection : Projection) (f : Failure) :
      FailedAt ⟨.capture (.project handle projection), .error f⟩
        (f.asStage .capture "set display projection")
  | homeless (handle : Handle) (projection : Projection) {f : Failure} (hf : f.stage = .settings) :
      FailedAt ⟨.capture (.project handle projection), .ok ()⟩ f
  | clear (path : Path) (r : Disk.Refusal) {f : Failure} (hr : r ≠ .notFound)
      (hf : f.stage = .storage) : FailedAt ⟨.disk (.remove path), .error r⟩ f
  | container (path : Path) (container : Container) (f : Failure) :
      FailedAt ⟨.muxer (.create path container), .error f⟩ f
  | turn (degrees : Nat) (f : Failure) : FailedAt ⟨.muxer (.orientationHint degrees), .error f⟩ f
  | file (path : Path) (r : Disk.Refusal) {f : Failure} (hf : f.stage = .storage) :
      FailedAt ⟨.disk (.create path), .error r⟩ f

/-- **The end of a run whose set-up has failed at one call.** After that call the virtual display is
released if one was made, the encoder is stopped and released. Nothing else is asked. -/
inductive Undone (h : History) (f : Failure) : Prop
  | mk {before after : History} {e : Exchange} (hh : h = before ++ e :: after) (he : FailedAt e f)
      (ha : after.backend =
        (made (before ++ [e])).map releasing ++ [.encoder .stop, .encoder .release])

variable {h k : History} {f : Failure}

/-- Calls that make no virtual display may come before. -/
theorem Undone.later (hu : Undone h f) (hk : k.made = []) : Undone (k ++ h) f := by
  obtain @⟨before, after, e, rfl, he, ha⟩ := hu
  refine .mk (List.append_assoc ..).symm he ?_
  rw [ha, List.append_assoc, made_append (h := k), hk]
  rfl

/-- Calls that ask for nothing may come after. -/
theorem Undone.followed (hu : Undone h f) (hk : k.backend = []) : Undone (h ++ k) f := by
  obtain @⟨before, after, e, rfl, he, ha⟩ := hu
  have hh : before ++ e :: after ++ k = before ++ e :: (after ++ k) := List.append_assoc ..
  refine .mk hh he ?_
  rw [backend_append, ha, hk, List.append_nil]

/-! ## A set-up that fails -/

namespace Encoder

variable {e e' : Encoder} {s : Settings} {size : FrameSize} {frameRate : Single}

/-- An encoder that could not be set up has not told its buffer table. -/
theorem Configured.tableless (hc : Configured s size frameRate e h (.error f, e')) :
    h.Tableless := by
  cases hc with
  | busy => exact fun e he => absurd he List.not_mem_nil
  | refused _ hr => cases hr <;> simp [Tableless, Exchange.table?]

theorem Shrunk.tableless (hs : Shrunk s size frameRate e h (.error f, e')) : h.Tableless := by
  cases hs with
  | final _ h₁ => exact h₁.tableless
  | twice _ h₁ h₂ => exact tableless_append.2 ⟨h₁.tableless, h₂.tableless⟩

theorem freeing_tableless : e.freeing.Tableless := by
  unfold freeing
  split <;> simp [Tableless, Exchange.table?]

end Encoder

namespace Session

variable {s s' s'' : Session} {supply : Option Supply}

theorem closing_backend (c : Capture) : c.closing.backend = c.handle?.toList.map releasing := by
  rcases c with ⟨_ | d⟩ <;> rfl

theorem Abandoned.backend (ha : Abandoned s h s') (he : s.encoder.state = .running) :
    h.backend = s.capture.handle?.toList.map releasing ++ [.encoder .stop, .encoder .release] := by
  obtain ⟨answer, rfl⟩ := ha.of_running he
  rw [backend_append, closing_backend]
  rfl

theorem GivenBack.backend {sink : Sink} {x : Outcome Unit} (hb : GivenBack s sink h (x, s'))
    (he : s.encoder.state = .running) :
    ∃ close sink', sink.Closed close (x, sink') ∧
      h.backend = s.capture.handle?.toList.map releasing ++ [.encoder .stop] ++ close.backend ++
        [.encoder .release] := by
  obtain ⟨answer, close, sink', hc, rfl⟩ := hb.of_running he
  refine ⟨close, sink', hc, ?_⟩
  rw [backend_append, closing_backend, ← List.singleton_append, backend_append, backend_append]
  simp only [List.append_assoc]
  rfl

theorem cleared_discarding (s : Session) (e : Encoder) :
    (s.cleared e).encoder.freeing ++ (s.cleared e).capture.closing = [] := by
  have hfreed : (s.cleared e).encoder.freeing = [] := if_pos (Encoder.freed_state e)
  rw [hfreed]
  rfl

/-- Nothing is left where all was given back after a set-up that failed. -/
theorem Abandoned.discarding (ha : Abandoned s h s') :
    s'.encoder.freeing ++ s'.capture.closing = [] := by
  cases ha
  exact cleared_discarding s _

/-- An output that cannot be opened has no place, or is refused at one call. -/
theorem Opened.failedAt (ho : Opened s h (.error f, s')) :
    (h = [] ∧ f.stage = .settings) ∨ ∃ k e, h = k ++ [e] ∧ FailedAt e f := by
  generalize hr : ((.error f, s') : Outcome Sink × Session) = r at ho
  cases ho with
  | homeless _ _ hf =>
    cases hr
    exact .inl ⟨rfl, hf⟩
  | container _ _ _ _ hm =>
    refine .inr ?_
    cases hm with
    | kept refusal _ hf hn => cases hr; exact ⟨[], _, rfl, .clear _ refusal hn hf⟩
    | refused _ hc => cases hr; exact ⟨_, _, rfl, .container _ _ _⟩
    | unturned _ _ hc =>
      cases hr
      exact ⟨_, _, (List.append_assoc _ [_] [_]).symm, .turn 90 _⟩
    | turned => cases hr
    | made => cases hr
  | supplied => cases hr
  | destination _ _ ho =>
    generalize s.settings.destination = d at ho
    cases ho with
    | refused path refusal _ hf => cases hr; exact .inr ⟨[], _, rfl, .file path refusal hf⟩
    | file => cases hr
    | standard => cases hr

/-- **A set-up that fails** does so before the encoder is set up, or what it has acquired is given
back in order, and nothing is left to be given back. -/
theorem Prepared.undone (hp : Prepared s h (.error f, s')) (hc : s.capture.active = none) :
    h.Tableless ∨ Undone h f ∧ s'.encoder.freeing ++ s'.capture.closing = [] := by
  have hset : ∀ {look setUp : History} {y size rate z e}, Inspected s.settings look y →
      Encoder.Shrunk s.settings size rate s.encoder setUp (z, e) → made (look ++ setUp) = [] := by
    intro look setUp y size rate z e hl he
    rw [made_append, hl.within.made (by simp), he.within.made (by simp)]
    rfl
  have hhandle : s.capture.handle? = none := by
    rw [Capture.handle?, hc]
    rfl
  cases hp with
  | invalid => exact .inl fun e he => absurd he List.not_mem_nil
  | unseen _ hl => exact .inl (hl.within.tableless (by simp))
  | noEncoder _ hl he =>
    exact .inl (tableless_append.2 ⟨hl.within.tableless (by simp), he.tableless⟩)
  | @noCapture look setUp bound undone _ _ surface _ _ e c _ _ hl he hs ha =>
    refine .inr ⟨?_, ha.discarding⟩
    have hnone := hset hl he
    have hundone := ha.backend he.running
    cases hs with
    | busy _ _ hactive =>
      rw [Capture.isActive, hc] at hactive
      cases hactive
    | refused g =>
      rw [List.append_assoc]
      refine .later (.mk (rfl : _ = [] ++ _ :: undone) (.bind _ _ g) ?_) hnone
      rw [hundone, hhandle]
      rfl
    | unprojected handle g =>
      rw [List.append_assoc]
      refine .later (.mk (rfl : _ = [_] ++ _ :: (_ :: undone)) (.project handle _ g) ?_) hnone
      rw [← List.singleton_append, backend_append, hundone, hhandle]
      rfl
  | @noOutput look setUp bound opened undone _ _ _ _ _ _ e c _ _ _ hl he hs ho ha =>
    refine .inr ⟨?_, ha.discarding⟩
    have hnone := hset hl he
    have hundone : undone.backend =
        c.handle?.toList.map releasing ++ [.encoder .stop, .encoder .release] := by
      rw [ha.backend (ho.encoder_eq ▸ he.running), ho.capture_eq]
    rw [List.append_assoc, List.append_assoc]
    rcases ho.failedAt with ⟨rfl, hf⟩ | ⟨k, e, rfl, he⟩
    · cases hs with
      | started handle =>
        refine .later (.mk (rfl : _ = [_] ++ _ :: undone) (.homeless handle _ hf) ?_) hnone
        rw [hundone]
        rfl
    · obtain ⟨handle, hhandle, hmade⟩ := hs.bound
      have hopened : made (k ++ [e]) = [] := ho.within.made (by simp)
      have hh : bound ++ (k ++ [e] ++ undone) = bound ++ k ++ e :: undone := by simp
      refine .later (.mk hh he ?_) hnone
      rw [hundone, hhandle, List.append_assoc, made_append, hopened, hmade]
      rfl

/-! ## After the loop -/

section Drained

variable {setUp loop times back rest last close : History} {r : Ready} {t : Take}
  {sink sink' : Sink} {looped : Outcome Ending} {timed closed : Outcome Unit} {started : Int64}

/-- What is written after the loop is the record of the frame times, where it is due. -/
theorem timesDue_of_drained (hp : Prepared s.begun setUp (.ok r, s'))
    (hl : (s'.taking r).Looped (s'.deadline started) loop (some (looped, t)))
    (ht : Stamped t.times t.sink times (timed, sink)) :
    TimesDue s.settings.format loop times.backend := by
  by_cases hf : s.settings.format = .mp4
  · obtain ⟨m, rfl, hkeeps, hlog, hstamped, htracks⟩ := timestamped_of_drained hf hp hl ht
    cases hstamped with
    | nothing _ _ hnone => exact .nothing (.inr (hlog ▸ hnone))
    | record _ _ _ hfirst _ htrack =>
      have hwritten : t.times.entries ≠ [] := by
        rw [hfirst]
        exact List.cons_ne_nil _ _
      -- the track of the container is the one that was added in the loop
      obtain ⟨track, htime, hadded⟩ := (htracks hwritten).times hkeeps
      obtain rfl := Option.some.inj (htrack.symm.trans htime)
      exact .record _ hf (hlog ▸ hfirst) hadded
  · obtain ⟨rfl, -⟩ := stamped_unkept hf hp hl ht
    exact .nothing (.inl hf)

/-- A container is told to finish if it was started in the loop, and a stream is flushed. -/
theorem closed_of_drained (ho : s.output = supply.map Supply.raw)
    (hp : Prepared s setUp (.ok r, s'))
    (hl : (s'.taking r).Looped (s'.deadline started) loop (some (looped, t)))
    (ht : Stamped t.times t.sink times (timed, sink)) (hc : sink.Closed close (closed, sink')) :
    close.backend = finishing s.settings supply loop := by
  have hface : sink.face = r.sink.face := ht.face_eq.trans hl.face_eq
  cases hcontainer : s.settings.format.container? with
  | some container =>
    obtain ⟨path, hsink⟩ := hp.muxed hcontainer
    -- a container runs after the loop if one was started in it
    have hrunning : sink.running = loop.starts := by
      rw [ht.still.2, (hl.going.2.2 looped t rfl).starts, taking, hp.running, Nat.zero_add]
    rw [hsink] at hface
    rw [finishing, hcontainer]
    cases hc with
    | stopped m _ hs =>
      rw [Sink.running, if_pos hs] at hrunning
      rw [if_pos (by omega)]
      rfl
    | unstarted m hs =>
      rw [Sink.running, if_neg hs] at hrunning
      rw [if_neg (by omega)]
      rfl
    | raw => cases hface
  | none =>
    obtain ⟨_, opened, -, -, hopened⟩ := hp.bare hcontainer ho
    obtain ⟨path, htarget⟩ := hopened.face_eq
    rw [htarget] at hface
    rw [finishing, hcontainer]
    cases hc with
    | stopped => cases hface
    | unstarted => cases hface
    | raw hc =>
      obtain ⟨htarget, -, hopen⟩ := Sink.Face.raw.inj hface
      rw [← htarget]
      cases hc with
      | again hn => rw [hopen] at hn; cases hn
      | callback _ hn => rw [hn]; rfl
      | flushed _ _ hn => rw [hn]; rfl
      | unflushed _ _ _ _ _ hn => rw [hn]; rfl

/-- **After the loop** everything is given back in order, and nothing is left to be given back. -/
theorem tornDown_of_drained (ho : s.output = supply.map Supply.raw) (nanos : Int64)
    (hp : Prepared s.begun setUp (.ok r, s'))
    (hl : (s'.taking r).Looped (s'.deadline started) loop (some (looped, t)))
    (ht : Stamped t.times t.sink times (timed, sink))
    (hb : GivenBack (s'.drained t) sink back (closed, s''))
    (hr : rest.Within [.disk, .identity]) (hlast : last.Within [.watcher]) :
    TornDown s.settings supply (lead setUp started ++ loop ++ [Take.clocked nanos] ++
        entered .draining :: (times ++ back ++ rest ++ last)) ∧
      s''.encoder.freeing ++ s''.capture.closing = [] := by
  have hrunning : (s'.drained t).encoder.state = .running :=
    hl.holding.state.trans hp.encoder_running
  obtain ⟨handle, hhandle, hmade⟩ := hp.bound
  have hheld : (s'.drained t).capture.handle? = some handle := hl.holding.handle.trans hhandle
  obtain ⟨close, sink', hc, hback⟩ := hb.backend hrunning
  have hclose := closed_of_drained (s := s.begun) ho hp hl ht hc
  have hafter : backend (times ++ back ++ rest ++ last) =
      times.backend ++ [releasing handle, .encoder .stop] ++ finishing s.settings supply loop ++
        [.encoder .release] := by
    rw [backend_append, backend_append, backend_append, hr.backend (by decide),
      hlast.backend (by decide), hback, hheld, hclose]
    simp only [List.append_nil, List.append_assoc]
    rfl
  have hh : lead setUp started ++ loop ++ [Take.clocked nanos] ++
      entered .draining :: (times ++ back ++ rest ++ last) =
        entered .configuring :: setUp ++ entered .capturing :: Take.clocked started ::
          (loop ++ Take.clocked nanos :: entered .draining :: (times ++ back ++ rest ++ last)) := by
    simp [lead]
  refine ⟨.mk hh hl hmade (timesDue_of_drained hp hl ht) hafter, ?_⟩
  cases hb
  exact cleared_discarding _ _

end Drained

/-! ## The whole run -/

/-- How a session ends, by how far its run has come: to its loop, or to a set-up that has failed
once the encoder had been set up and had told its buffer table. -/
structure TeardownOrder (settings : Settings) (supply : Option Supply) (h : History)
    (x : Outcome Recording) : Prop where
  looped : (∃ e ∈ h, e.opens .capturing = true) → TornDown settings supply h
  unlooped : (∀ e ∈ h, e.opens .capturing = false) → ¬h.Tableless →
    ∃ f, x = .error f ∧ Undone h f

/-- A run and the end of the session after it. -/
theorem Ran.teardownOrder {x : Outcome Recording} (hr : Ran s h (some (x, s')))
    (hn : s.hasRun = false) (hc : s.capture.active = none)
    (ho : s.output = supply.map Supply.raw) :
    TeardownOrder s.settings supply (h ++ (s'.encoder.freeing ++ s'.capture.closing)) x := by
  generalize hresult : some (x, s') = result at hr
  cases hr.course with
  | @unlooped h f s' hu =>
    cases hresult
    have hopened : ∀ e ∈ h ++ (s'.encoder.freeing ++ s'.capture.closing),
        e.opens .capturing = false := by
      simp only [List.forall_mem_append]
      exact ⟨hu.notOpened_of_ne nofun nofun, Encoder.freeing_within.notOpened (by simp),
        Capture.closing_within.notOpened (by simp)⟩
    refine ⟨fun ⟨e, he, hopen⟩ => ?_, fun _ htable => ?_⟩
    · rw [hopened e he] at hopen
      cases hopen
    cases hu with
    | again _ hagain => rw [hn] at hagain; cases hagain
    | @unprepared setUp _ s' _ hp =>
      have hfirst : Tableless [entered .configuring] := by simp [Tableless, Exchange.table?]
      have hlast : Tableless [entered .stopped, ⟨.notify (.failed f), ()⟩] := by
        simp [Tableless, Exchange.table?]
      rcases hp.undone hc with hnone | ⟨hundone, hleft⟩
      · -- the table is fetched in the set-up, or nowhere
        refine absurd (tableless_append.2 ⟨tableless_append.2 ⟨?_, hlast⟩, ?_⟩) htable
        · exact tableless_append.2 ⟨hfirst, hnone⟩
        · exact tableless_append.2
            ⟨Encoder.freeing_tableless, Capture.closing_within.tableless (by simp)⟩
      · have hleft : s'.ended.encoder.freeing ++ s'.ended.capture.closing = [] := hleft
        have hlater := hundone.later (k := [entered .configuring]) rfl
        have hdone := hlater.followed (k := [entered .stopped, ⟨.notify (.failed f), ()⟩]) rfl
        exact ⟨f, rfl, hdone.followed (by rw [hleft]; rfl)⟩
  | unfinished => cases hresult
  | @drained setUp loop times back rest last r s' s'' t sink looped timed closed x started nanos
      hp hl ht hb hs hlast =>
    cases hresult
    obtain ⟨htorn, hleft⟩ := tornDown_of_drained ho nanos hp hl ht hb hs.within hlast
    refine ⟨fun _ => ?_, fun hnone => ?_⟩
    · have hleft : s''.ended.encoder.freeing ++ s''.ended.capture.closing = [] := hleft
      rw [hleft, List.append_nil]
      exact htorn
    · have hcapturing := hnone (entered .capturing) (by simp [lead])
      cases hcapturing

/-- **The teardown keeps its order.** In any session's lifetime, whatever ends the loop and
whichever calls are refused, the calls after the loop are the record of the frame times where it is
due, the release of the virtual display, the stop of the encoder, the end of a container that was
started or the flush of a stream, and the release of the encoder; and no other call reaches the
encoder, the display, the compositor or the output, not at the end of the owner either. Where the
set-up fails with the encoder running, the calls after the one that was refused are the release of
the virtual display if there is one, the stop of the encoder and its release. -/
theorem teardown_in_order {settings : Settings} {hasMuxer : Bool} {supply : Option Supply}
    {passes : Nat} {result : Outcome (Outcome Recording) × Session}
    (hr : (lifetime passes (ofSettings settings hasMuxer (supply.map Supply.raw))).Runs h
      (some result)) :
    ∃ x, result.1 = .ok x ∧ TeardownOrder settings supply h.calls x := by
  obtain ⟨x, hlived, hx⟩ := ensures_lifetime passes _ h _ hr
  generalize h.calls = k at hlived
  cases hlived with
  | unfinished => cases hx
  | @ended k x s' hran =>
    exact ⟨x, Option.some.inj hx, hran.teardownOrder rfl rfl rfl⟩

open Rehearsal in
/-- A recording of two pictures, and a set-up that fails because there is nothing to make a
container with. -/
theorem teardown_in_order_obliging :
    let recorded := lifetime 9 (ofSettings .standard true ((none : Option Supply).map Supply.raw))
    let device := Obliging.ofEvents [.formatChanged, .buffer ⟨0, 1, 2, 0, .empty⟩,
      .buffer ⟨1, 0, 4, 7, .keyFrame⟩]
    let h := (recorded.history Obliging.answer device).calls
    let refused := lifetime 9 (ofSettings .standard false ((none : Option Supply).map Supply.raw))
    let k := (refused.history Obliging.answer device).calls
    (h.since .draining).backend = [.muxer (.write 1 (FrameTimes.encode [5, 7] 4) 5 .empty),
        releasing ⟨1⟩, .encoder .stop, .muxer .stop, .encoder .release] ∧
      (∃ x, TeardownOrder .standard none h x) ∧
      k.backend.drop 8 = [releasing ⟨1⟩, .encoder .stop, .encoder .release] ∧
      ¬k.Tableless ∧ (∃ x, TeardownOrder .standard none k x) := by
  intro recorded device h refused k
  have hresult : (recorded.run Obliging.answer device).1.isSome := by decide +kernel
  have hrefusal : (refused.run Obliging.answer device).1.isSome := by decide +kernel
  obtain ⟨result, hr⟩ := Option.isSome_iff_exists.1 hresult
  obtain ⟨refusal, hk⟩ := Option.isSome_iff_exists.1 hrefusal
  refine ⟨by decide +kernel, ?_, by decide +kernel, by decide +kernel, ?_⟩
  · obtain ⟨x, -, hx⟩ := teardown_in_order (hr ▸ Program.runs_run _ _ _)
    exact ⟨x, hx⟩
  · obtain ⟨x, -, hx⟩ := teardown_in_order (hk ▸ Program.runs_run _ _ _)
    exact ⟨x, hx⟩

end Session

end Screencast
