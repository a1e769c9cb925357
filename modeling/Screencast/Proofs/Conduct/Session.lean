import Screencast.Proofs.Conduct.Loop

/-!
# The conduct of a session

The set-up, the loop, and what is given back and concluded after it, with the calls of each and the
session that each leaves. Every run of a session is one of the cases of `Session.Ran`.

* `Session.Prepared`: what is acquired, or given back again where the set-up fails.
* `Session.Recorded`: the loop and what follows it.
* `Session.Ran`: a whole run with its notices.
-/

namespace Screencast

/-- A description is written by one call. -/
theorem Description.ensures_save {σ : Type} {d : Description} {recording : Path} {s : σ}
    {Q : History → Option (Outcome Unit × σ) → Prop} :
    (d.save recording s).Ensures Q ↔
      (∀ r : Disk.Refusal, Q [⟨.disk (.write (pathFor recording) (utf8 d.toText)), .error r⟩]
        (some (.error ⟨.storage, s!"failed to write metadata: {r.text}"⟩, s))) ∧
      Q [⟨.disk (.write (pathFor recording) (utf8 d.toText)), .ok ()⟩] (some (.ok (), s)) := by
  simp only [save, DiskRequest.program, Program.request, Action.ensures_bind, Action.ensures_lift,
    Program.ensures_ask, Program.ensures_done, Exchange.call, forall_outcome, Option.map_some,
    Action.after_ok, Action.ensures_fail, Action.ensures_pure, List.append_nil]
  exact and_congr_right fun _ => ⟨fun h => h (), fun h _ => h⟩

namespace Session

variable {s : Session}

/-- A look at the display before a recording. -/
inductive Inspected (settings : Settings) : History → Outcome (Geometry × Single) → Prop
  | unseen (f : Failure) (g : Failure) (hg : g.stage = .capture) :
      Inspected settings [⟨.display .geometry, .error f⟩] (.error g)
  | unrated (geometry : Geometry) (f : Failure) (g : Failure) (hg : g.stage = .capture)
      (hr : settings.frameRate = none) :
      Inspected settings
        [⟨.display .geometry, .ok geometry⟩, ⟨.display .refreshRate, .error f⟩] (.error g)
  | fixed (geometry : Geometry) (rate : Single) (hr : settings.frameRate = some rate) :
      Inspected settings [⟨.display .geometry, .ok geometry⟩] (.ok (geometry, rate))
  | rated (geometry : Geometry) (rate : Single) (hr : settings.frameRate = none) :
      Inspected settings
        [⟨.display .geometry, .ok geometry⟩, ⟨.display .refreshRate, .ok rate⟩]
        (.ok (geometry, rate))

theorem Inspected.within {settings : Settings} {h : History} {x : Outcome (Geometry × Single)}
    (hi : Inspected settings h x) : h.Within [.display] := by
  cases hi <;> simp [Exchange.party]

theorem ends_inspectDisplay (s : Session) :
    (inspectDisplay s).Ends fun h r => r.2 = s ∧ Inspected s.settings h r.1 := by
  unfold inspectDisplay
  simp only [Program.request, Action.ensures_bind, Action.ensures_get, Action.after_ok,
    Action.ensures_mapFailure, Action.ensures_attempt, Program.ensures_ask, Program.ensures_done,
    Exchange.call, forall_outcome, Option.map_some, Except.mapError, Action.after_error,
    List.nil_append, List.append_nil]
  refine ⟨fun f => ⟨rfl, .unseen f _ rfl⟩, fun geometry => ?_⟩
  cases hr : s.settings.frameRate with
  | some rate =>
    simp only [Action.ensures_pure, Action.after_ok, Action.ensures_bind, Action.ensures_lift,
      Program.ensures_report, Option.map_some, List.append_nil]
    exact ⟨rfl, .fixed geometry rate hr⟩
  | none =>
    simp only [Action.ensures_mapFailure, Action.ensures_attempt, Program.ensures_ask,
      Program.ensures_done, Exchange.call, forall_outcome, Option.map_some, Except.mapError,
      Action.after_error, Action.after_ok, Action.ensures_bind, Action.ensures_lift,
      Program.ensures_report, Action.ensures_pure, List.cons_append, List.nil_append]
    exact ⟨fun f => ⟨rfl, .unrated geometry f _ rfl hr⟩,
      fun rate => ⟨rfl, .rated geometry rate hr⟩⟩

/-- The opening of the output. -/
inductive Opened (s : Session) : History → Outcome Sink × Session → Prop
  | homeless (container : Container) (f : Failure) (hf : f.stage = .settings)
      (hc : s.settings.format.container? = some container) : Opened s [] (.error f, s)
  | container {h : History} {x : Outcome Muxed} (container : Container) (path : Path)
      (hc : s.settings.format.container? = some container)
      (hp : s.settings.destination.path? = some path)
      (hm : Muxed.Created path container s.settings.rotate h x) (hw : s.hasMuxer = true) :
      Opened s h (x.map .muxed, s)
  | supplied (raw : Raw) (hc : s.settings.format.container? = none) (ho : s.output = some raw) :
      Opened s [] (.ok (.raw raw), { s with output := none })
  | destination {h : History} {x : Outcome Raw} (hc : s.settings.format.container? = none)
      (ho : s.output = none) (hr : Raw.Opened s.settings.destination h x) :
      Opened s h (x.map .raw, s)

/-- Whom the output of a session turns to. -/
def outlet (settings : Settings) : Party :=
  match settings.format.container? with
  | some _ => .muxer
  | none => .stream

@[simp] theorem encoder_ne_outlet (settings : Settings) : Party.encoder ≠ outlet settings := by
  unfold outlet
  split <;> nofun

@[simp] theorem capture_ne_outlet (settings : Settings) : Party.capture ≠ outlet settings := by
  unfold outlet
  split <;> nofun

@[simp] theorem display_ne_outlet (settings : Settings) : Party.display ≠ outlet settings := by
  unfold outlet
  split <;> nofun

@[simp] theorem watcher_ne_outlet (settings : Settings) : Party.watcher ≠ outlet settings := by
  unfold outlet
  split <;> nofun

theorem Opened.within {h : History} {x : Outcome Sink × Session} (ho : Opened s h x) :
    h.Within [.disk, outlet s.settings] := by
  unfold outlet
  cases ho with
  | homeless => simp
  | container _ _ hc _ hm => rw [hc]; exact hm.within
  | supplied => simp
  | destination hc _ hr => rw [hc]; exact hr.within

theorem ends_openOutput (s : Session) : (openOutput s).Ends (Opened s) := by
  unfold openOutput
  simp only [Action.ensures_bind, Action.ensures_get, Action.after_ok]
  cases hc : s.settings.format.container? with
  | some container =>
    simp only
    cases hp : s.settings.destination.path? with
    | none => exact Action.ensures_fail.2 (.homeless container _ rfl hc)
    | some path =>
      simp only
      split
      · rename_i hw
        simp only [Action.ensures_bind]
        refine (Muxed.ends_create path container s.settings.rotate s).ensures fun h r hr => ?_
        obtain ⟨x, s'⟩ := r
        obtain ⟨rfl, hm⟩ := hr
        have ho := Opened.container container path hc hp hm hw
        cases x with
        | error f => exact ho
        | ok m =>
          simp only [Action.after_ok, Action.ensures_pure, List.append_nil]
          exact ho
      · exact Action.ensures_fail.2 (.homeless container _ rfl hc)
  | none =>
    simp only
    cases ho : s.output with
    | some raw =>
      simp only [Action.ensures_bind, Action.ensures_modify, Action.after_ok,
        Action.ensures_pure, List.append_nil]
      exact .supplied raw hc ho
    | none =>
      simp only [Action.ensures_bind]
      refine (Raw.ends_openFor s.settings.destination s).ensures fun h r hr => ?_
      obtain ⟨x, s'⟩ := r
      obtain ⟨rfl, hr⟩ := hr
      have ho := Opened.destination hc ho hr
      cases x with
      | error f => exact ho
      | ok raw =>
        simp only [Action.after_ok, Action.ensures_pure, List.append_nil]
        exact ho

theorem ends_stopEncoder (s : Session) :
    (stopEncoder s).Ends fun h r =>
      ∃ x e, s.encoder.Halted h (x, e) ∧ r = (.ok (), { s with encoder := e }) := by
  unfold stopEncoder
  simp only [onEncoder, Action.ensures_bind, Action.ensures_outcome, Action.ensures_on]
  refine (Encoder.ends_stop s.encoder).ensures fun h r hs => ?_
  obtain ⟨f | _, e⟩ := r
  · simp only [Option.map_some, Action.after_ok, Action.ensures_lift, Program.ensures_report,
      List.append_nil]
    exact ⟨_, e, hs, rfl⟩
  · simp only [Option.map_some, Action.after_ok, Action.ensures_pure, List.append_nil]
    exact ⟨_, e, hs, rfl⟩

/-- The session once the captured display and the encoder are given back. -/
def cleared (s : Session) (e : Encoder) : Session :=
  { s with capture := .initial, encoder := e.freed }

/-- The giving back after a set-up that failed. -/
inductive Abandoned (s : Session) : History → Session → Prop
  | mk {stop : History} {x : Outcome Unit} {e : Encoder} (hs : s.encoder.Halted stop (x, e)) :
      Abandoned s (s.capture.closing ++ stop ++ e.freeing) (s.cleared e)

theorem Abandoned.within {h : History} {s' : Session} (ha : Abandoned s h s') :
    h.Within [.capture, .encoder] := by
  obtain ⟨hs⟩ := ha
  simp [Capture.closing_within.mono, hs.within.mono, Encoder.freeing_within.mono]

theorem ends_abandon (s : Session) :
    (abandon s).Ends fun h r => ∃ s', r = (.ok (), s') ∧ Abandoned s h s' := by
  unfold abandon
  simp only [onCapture, Action.ensures_bind, Action.ensures_on, Capture.ensures_close,
    Option.map_some, Action.after_ok]
  refine (ends_stopEncoder _).ensures fun h r hr => ?_
  obtain ⟨x, e, hs, rfl⟩ := hr
  simp only [onEncoder, Action.after_ok, Action.ensures_on, Encoder.ensures_release,
    Option.map_some]
  refine ⟨_, rfl, ?_⟩
  rw [← List.append_assoc]
  exact .mk hs

variable {α : Type} {a : Action Session α}

/-- An action after whose failure all is given back. -/
theorem ends_orAbandon {R : History → Outcome α × Session → Prop} (ha : (a s).Ends R) :
    (orAbandon a s).Ends fun h r =>
      (∃ x s', r = (.ok x, s') ∧ R h (.ok x, s')) ∨
        ∃ f k l s' s'', r = (.error f, s'') ∧ h = k ++ l ∧ R k (.error f, s') ∧
          Abandoned s' l s'' := by
  unfold orAbandon
  simp only [Action.ensures_bind, Action.ensures_outcome]
  refine ha.ensures fun h r hr => ?_
  obtain ⟨f | x, s'⟩ := r
  · simp only [Option.map_some, Action.after_ok, Action.ensures_bind]
    refine (ends_abandon s').ensures fun l r hl => ?_
    obtain ⟨s'', rfl, hl⟩ := hl
    simp only [Action.after_ok, Action.ensures_fail, List.append_nil]
    exact .inr ⟨f, h, l, s', s'', rfl, rfl, hr, hl⟩
  · simp only [Option.map_some, Action.after_ok, Action.ensures_pure, List.append_nil]
    exact .inl ⟨x, s', rfl, hr⟩

/-- The size that is asked of the encoder. -/
def requested (s : Settings) (geometry : Geometry) : FrameSize :=
  s.size.getD (FrameSize.even ⟨geometry.width, geometry.height⟩)

/-- The set-up of a recording. -/
inductive Prepared (s : Session) : History → Outcome Ready × Session → Prop
  | invalid (f : Failure) (hf : s.settings.check = .error f) : Prepared s [] (.error f, s)
  | unseen {look : History} {f : Failure} (hv : s.settings.check = .ok ())
      (hl : Inspected s.settings look (.error f)) : Prepared s look (.error f, s)
  | noEncoder {look setUp : History} {geometry : Geometry} {rate : Single} {f : Failure}
      {e : Encoder} (hv : s.settings.check = .ok ())
      (hl : Inspected s.settings look (.ok (geometry, rate)))
      (he : Encoder.Shrunk s.settings (requested s.settings geometry) rate s.encoder setUp
        (.error f, e)) :
      Prepared s (look ++ setUp) (.error f, { s with encoder := e })
  | noCapture {look setUp bound undone : History} {geometry : Geometry} {rate : Single}
      {surface : Surface} {size : FrameSize} {f : Failure} {e : Encoder} {c : Capture}
      {s' : Session} (hv : s.settings.check = .ok ())
      (hl : Inspected s.settings look (.ok (geometry, rate)))
      (he : Encoder.Shrunk s.settings (requested s.settings geometry) rate s.encoder setUp
        (.ok (surface, size), e))
      (hc : Capture.Started surface geometry size s.settings.rotate s.capture bound (.error f, c))
      (ha : Abandoned { s with encoder := e, capture := c } undone s') :
      Prepared s (look ++ setUp ++ bound ++ undone) (.error f, s')
  | noOutput {look setUp bound opened undone : History} {geometry : Geometry} {rate : Single}
      {surface : Surface} {size : FrameSize} {projection : Projection} {f : Failure} {e : Encoder}
      {c : Capture} {s' s'' : Session} (hv : s.settings.check = .ok ())
      (hl : Inspected s.settings look (.ok (geometry, rate)))
      (he : Encoder.Shrunk s.settings (requested s.settings geometry) rate s.encoder setUp
        (.ok (surface, size), e))
      (hc : Capture.Started surface geometry size s.settings.rotate s.capture bound
        (.ok projection, c))
      (ho : Opened { s with encoder := e, capture := c } opened (.error f, s'))
      (ha : Abandoned s' undone s'') :
      Prepared s (look ++ setUp ++ bound ++ opened ++ undone) (.error f, s'')
  | ready {look setUp bound opened : History} {geometry : Geometry} {rate : Single}
      {surface : Surface} {size : FrameSize} {projection : Projection} {e : Encoder} {c : Capture}
      {sink : Sink} {s' : Session} (hv : s.settings.check = .ok ())
      (hl : Inspected s.settings look (.ok (geometry, rate)))
      (he : Encoder.Shrunk s.settings (requested s.settings geometry) rate s.encoder setUp
        (.ok (surface, size), e))
      (hc : Capture.Started surface geometry size s.settings.rotate s.capture bound
        (.ok projection, c))
      (ho : Opened { s with encoder := e, capture := c } opened (.ok sink, s')) :
      Prepared s (look ++ setUp ++ bound ++ opened) (.ok ⟨sink, size, rate⟩, s')

/-- The parties of a set-up. -/
def setUpParties (settings : Settings) : List Party :=
  [.encoder, .display, .capture, .disk, outlet settings]

/-- What holds of the parts of a set-up holds of the whole. -/
theorem Prepared.of_parts {h : History} {x : Outcome Ready × Session} {P : History → Prop}
    (hp : Prepared s h x) (hnil : P []) (happend : ∀ h k : History, P h → P k → P (h ++ k))
    (hlook : ∀ {k y}, Inspected s.settings k y → P k)
    (hset : ∀ {k size rate y}, Encoder.Shrunk s.settings size rate s.encoder k y → P k)
    (hbound : ∀ {k surface geometry size y},
      Capture.Started surface geometry size s.settings.rotate s.capture k y → P k)
    (hopen : ∀ {k e c y}, Opened { s with encoder := e, capture := c } k y → P k)
    (hundone : ∀ {k s' s''}, Abandoned s' k s'' → P k) : P h := by
  cases hp with
  | invalid => exact hnil
  | unseen _ hl => exact hlook hl
  | noEncoder _ hl he => exact happend _ _ (hlook hl) (hset he)
  | noCapture _ hl he hc ha =>
    have hbefore := happend _ _ (happend _ _ (hlook hl) (hset he)) (hbound hc)
    exact happend _ _ hbefore (hundone ha)
  | noOutput _ hl he hc ho ha =>
    have hbefore := happend _ _ (happend _ _ (hlook hl) (hset he)) (hbound hc)
    exact happend _ _ (happend _ _ hbefore (hopen ho)) (hundone ha)
  | ready _ hl he hc ho =>
    have hbefore := happend _ _ (happend _ _ (hlook hl) (hset he)) (hbound hc)
    exact happend _ _ hbefore (hopen ho)

theorem Prepared.within {h : History} {x : Outcome Ready × Session} (hp : Prepared s h x) :
    h.Within (setUpParties s.settings) := by
  unfold setUpParties
  refine hp.of_parts History.within_nil (fun _ _ hh hk => History.within_append.2 ⟨hh, hk⟩)
    (fun hl => hl.within.mono ?_) (fun he => he.within.mono ?_) (fun hc => hc.within.mono ?_)
    (fun ho => ho.within.mono ?_) (fun ha => ha.within.mono ?_) <;> simp

theorem ends_prepare (s : Session) : (prepare s).Ends (Prepared s) := by
  unfold prepare
  simp only [Action.ensures_bind, Action.ensures_get, Action.after_ok, Action.ensures_attempt,
    Program.pure_eq, Program.ensures_done, Option.map_some, List.nil_append]
  cases hv : s.settings.check with
  | error f => exact .invalid f hv
  | ok _ =>
  simp only [Action.after_ok, Action.ensures_bind, List.nil_append]
  refine (ends_inspectDisplay s).ensures fun look r hr => ?_
  obtain ⟨f | ⟨geometry, rate⟩, s'⟩ := r
  · obtain ⟨rfl, hl⟩ := hr
    exact .unseen hv hl
  obtain ⟨rfl, hl⟩ := hr
  simp only [Action.after_ok, onEncoder, Action.ensures_bind, Action.ensures_on]
  refine (Encoder.ends_configureOrShrink s'.settings _ rate s'.encoder).ensures
    fun setUp r he => ?_
  obtain ⟨f | ⟨surface, size⟩, e⟩ := r
  · exact .noEncoder hv hl he
  simp only [Option.map_some, Action.after_ok, onCapture, Action.ensures_bind]
  have hstart : ((Capture.start surface geometry size s'.settings.rotate).on Session.capture
      (fun c s => { s with capture := c }) { s' with encoder := e }).Ends fun h r =>
        ∃ c, r.2 = { s' with encoder := e, capture := c } ∧
          Capture.Started surface geometry size s'.settings.rotate s'.capture h (r.1, c) :=
    Action.ensures_on.2 <| (Capture.ends_start surface geometry size _ _).ensures
      fun h r hr => ⟨r.2, rfl, hr⟩
  refine (ends_orAbandon hstart).ensures fun bound r hr => ?_
  rcases hr with ⟨projection, t, rfl, c, rfl, hc⟩ |
    ⟨f, bound, undone, t, s'', rfl, rfl, ⟨c, rfl, hc⟩, ha⟩
  · simp only [Action.after_ok, Action.ensures_bind]
    refine (ends_orAbandon (ends_openOutput _)).ensures fun opened r hr => ?_
    rcases hr with ⟨sink, t, rfl, ho⟩ | ⟨f, opened, undone, t, s'', rfl, rfl, ho, ha⟩
    · simp only [Action.after_ok, Action.ensures_pure, List.append_nil, ← List.append_assoc]
      exact .ready hv hl he hc ho
    · simp only [Action.after_error, ← List.append_assoc]
      exact .noOutput hv hl he hc ho ha
  · simp only [Action.after_error, ← List.append_assoc]
    exact .noCapture hv hl he hc ha

/-! ## The recording -/

/-- The record of the frame times for an output that keeps them. -/
inductive Stamped (times : FrameTimes.Log) (sink : Sink) :
    History → Outcome Unit × Sink → Prop
  | unkept (hk : sink.keepsTimes = false) : Stamped times sink [] (.ok (), sink)
  | kept {h : History} {r : Outcome Unit × Sink} (sinceBoot monotonic : Int64)
      (hk : sink.keepsTimes = true)
      (hs : Sink.Stamped times (microseconds (sinceBoot - monotonic)) sink h r) :
      Stamped times sink
        (⟨.clock .sinceBoot, sinceBoot⟩ :: ⟨.clock .monotonic, monotonic⟩ :: h) r

theorem Stamped.within {times : FrameTimes.Log} {sink : Sink} {h : History}
    {x : Outcome Unit × Sink} (hs : Stamped times sink h x) : h.Within [.clock, sink.party] := by
  cases hs with
  | unkept => simp
  | kept _ _ _ hs => simp [hs.within.mono, Exchange.party]

theorem Stamped.face_eq {times : FrameTimes.Log} {sink sink' : Sink} {h : History}
    {x : Outcome Unit} (hs : Stamped times sink h (x, sink')) : sink'.face = sink.face := by
  cases hs with
  | unkept => rfl
  | kept _ _ _ hs => exact hs.face_eq

theorem ends_writeTimes (sink : Sink) (times : FrameTimes.Log) (s : Session) :
    (writeTimes sink times s).Ends fun h r =>
      ∃ x, r = (.ok x, s) ∧ Stamped times sink h x := by
  unfold writeTimes
  split
  · rename_i hk
    simp only [bootOffset, now, Program.request, Action.ensures_bind, Action.ensures_lift,
      Program.ensures_bind, Program.ensures_ask, Program.ensures_done, Program.pure_eq,
      Exchange.call, Option.map_some, Action.after_ok, List.append_nil]
    intro sinceBoot monotonic
    refine (Sink.ends_writeTimes times _ sink).ensures fun h r hr => ?_
    have hstamped := Stamped.kept sinceBoot monotonic hk hr
    obtain ⟨f | _, sink'⟩ := r
    · simp only [Option.map_some, Action.after_ok, Action.ensures_bind, Action.ensures_lift,
        Program.ensures_report, Action.ensures_pure, List.append_nil, List.nil_append]
      exact ⟨_, rfl, hstamped⟩
    · simp only [Option.map_some, Action.after_ok, Action.ensures_pure, List.append_nil]
      exact ⟨_, rfl, hstamped⟩
  · rename_i hk
    exact Action.ensures_pure.2 ⟨_, rfl, .unkept (by simpa using hk)⟩

/-- The giving back after the loop. -/
inductive GivenBack (s : Session) (sink : Sink) : History → Outcome Unit × Session → Prop
  | mk {stop close : History} {x y : Outcome Unit} {e : Encoder} {sink' : Sink}
      (hs : s.encoder.Halted stop (x, e)) (hc : sink.Closed close (y, sink')) :
      GivenBack s sink (s.capture.closing ++ stop ++ close ++ e.freeing) (y, s.cleared e)

theorem GivenBack.within {sink : Sink} {h : History} {x : Outcome Unit × Session}
    (hb : GivenBack s sink h x) : h.Within [.capture, .encoder, sink.party] := by
  obtain ⟨hs, hc⟩ := hb
  simp [Capture.closing_within.mono, hs.within.mono, hc.within.mono,
    Encoder.freeing_within.mono]

theorem ends_giveBack (sink : Sink) (s : Session) :
    (giveBack sink s).Ends fun h r => ∃ x s', r = (.ok x, s') ∧ GivenBack s sink h (x, s') := by
  unfold giveBack
  simp only [onCapture, Action.ensures_bind, Action.ensures_on, Capture.ensures_close,
    Option.map_some, Action.after_ok]
  refine (ends_stopEncoder _).ensures fun stop r hr => ?_
  obtain ⟨x, e, hs, rfl⟩ := hr
  simp only [Action.after_ok, Action.ensures_bind, Action.ensures_lift]
  refine (Sink.ends_close sink).ensures fun close r hc => ?_
  obtain ⟨y, sink'⟩ := r
  have hback : GivenBack s sink (s.capture.closing ++ stop ++ close ++ e.freeing)
      (y, s.cleared e) := .mk hs hc
  simp only [List.append_assoc] at hback
  obtain f | _ := y
  · simp only [onEncoder, Option.map_some, Action.after_ok, Action.ensures_bind,
      Action.ensures_lift, Program.ensures_report, Action.ensures_on, Encoder.ensures_release,
      Action.ensures_pure, List.append_nil, List.nil_append]
    exact ⟨_, _, rfl, hback⟩
  · simp only [onEncoder, Option.map_some, Action.after_ok, Action.ensures_bind,
      Action.ensures_on, Encoder.ensures_release, Action.ensures_pure, List.append_nil]
    exact ⟨_, _, rfl, hback⟩

/-- The digest of the file that was written. -/
inductive Digested (sink : Sink) : History → Outcome (Option String) → Prop
  | nothing (hp : sink.path? = none) : Digested sink [] (.ok none)
  | read (path : Path) (content : Bytes) (hp : sink.path? = some path) :
      Digested sink [⟨.disk (.read path), .ok content⟩]
        (.ok (some (hexText (Sha256.digest content))))
  | unread (path : Path) (r : Disk.Refusal) (f : Failure)
      (hf : f = ⟨.storage, s!"failed to read file for checksum: {r.text}"⟩)
      (hp : sink.path? = some path) : Digested sink [⟨.disk (.read path), .error r⟩] (.error f)

/-- The description beside the file, where it was asked for. -/
inductive Saved (settings : Settings) (sink : Sink) (d : Description) :
    History → Outcome Unit → Prop
  | nowhere (hn : settings.sidecar = false ∨ sink.path? = none) :
      Saved settings sink d [] (.ok ())
  | written (path : Path) (hs : settings.sidecar = true) (hp : sink.path? = some path) :
      Saved settings sink d
        [⟨.disk (.write (Description.pathFor path) (utf8 d.toText)), .ok ()⟩] (.ok ())
  | refused (path : Path) (r : Disk.Refusal) (f : Failure)
      (hf : f = ⟨.storage, s!"failed to write metadata: {r.text}"⟩)
      (hs : settings.sidecar = true) (hp : sink.path? = some path) :
      Saved settings sink d
        [⟨.disk (.write (Description.pathFor path) (utf8 d.toText)), .error r⟩] (.error f)

/-- What a recording came to. -/
def totals (sink : Sink) (r : Ready) (t : Take) (seconds : Double) (reason : Ending)
    (checksum : Option String) : Totals :=
  { size := r.size, frameRate := r.frameRate, frameCount := UInt64.ofNat t.frames, seconds, reason,
    checksum, hasFrameTimes := sink.keepsTimes && 0 < t.times.size }

/-- The recording with these totals. -/
def recordingOf (settings : Settings) (t : Totals) (identity : Identity) : Recording where
  destination := settings.destination
  seconds := t.seconds
  frameCount := t.frameCount
  reason := t.reason
  checksum := t.checksum
  description := .of settings t identity

/-- The conclusion of a recording whose loop ended well. -/
inductive Concluded (settings : Settings) (sink : Sink) (totals : Option String → Totals) :
    History → Outcome Recording → Prop
  | undigested {h : History} {f : Failure} (hd : Digested sink h (.error f)) :
      Concluded settings sink totals h (.error f)
  | unsaved {h k : History} {checksum : Option String} {f : Failure} (identity : Identity)
      (hd : Digested sink h (.ok checksum))
      (hs : Saved settings sink (.of settings (totals checksum) identity) k (.error f)) :
      Concluded settings sink totals (h ++ ⟨.identity, identity⟩ :: k) (.error f)
  | done {h k : History} {checksum : Option String} (identity : Identity)
      (hd : Digested sink h (.ok checksum))
      (hs : Saved settings sink (.of settings (totals checksum) identity) k (.ok ())) :
      Concluded settings sink totals (h ++ ⟨.identity, identity⟩ :: k)
        (.ok (recordingOf settings (totals checksum) identity))

theorem Concluded.within {settings : Settings} {sink : Sink} {totals : Option String → Totals}
    {h : History} {x : Outcome Recording} (hc : Concluded settings sink totals h x) :
    h.Within [.disk, .identity] := by
  have hd : ∀ {k y}, Digested sink k y → History.Within [.disk, .identity] k := by
    intro k y hd
    cases hd <;> simp [Exchange.party]
  have hs : ∀ {d k y}, Saved settings sink d k y → History.Within [.disk, .identity] k := by
    intro d k y hs
    cases hs <;> simp [Exchange.party]
  cases hc with
  | undigested h₁ => exact hd h₁
  | unsaved _ h₁ h₂ => simp [hd h₁, hs h₂, Exchange.party]
  | done _ h₁ h₂ => simp [hd h₁, hs h₂, Exchange.party]

theorem ends_digestOf (sink : Sink) (s : Session) :
    (digestOf sink s).Ends fun h x => x.2 = s ∧ Digested sink h x.1 := by
  unfold digestOf
  cases hp : sink.path? with
  | none => exact Action.ensures_pure.2 ⟨rfl, .nothing hp⟩
  | some path =>
    simp only [map_eq_pure_bind, Recording.digest, DiskRequest.program, Program.request,
      Action.ensures_bind, Action.ensures_lift, Program.ensures_ask, Program.ensures_done,
      Exchange.call, forall_outcome, Option.map_some, Action.after_ok, Action.ensures_fail,
      Action.after_error, Action.ensures_pure, List.append_nil]
    exact ⟨fun r => ⟨rfl, .unread path r _ rfl hp⟩, fun content => ⟨rfl, .read path content hp⟩⟩

theorem ends_saveBeside (sink : Sink) (d : Description) (s : Session) :
    (saveBeside sink d s).Ends fun h x => x.2 = s ∧ Saved s.settings sink d h x.1 := by
  unfold saveBeside
  simp only [Action.ensures_bind, Action.ensures_get, Action.after_ok]
  split
  · rename_i hs
    cases hp : sink.path? with
    | none =>
      simp only [Action.ensures_lift, Program.ensures_report, Option.map_some, List.append_nil]
      exact ⟨rfl, .nowhere (.inr hp)⟩
    | some path =>
      exact Description.ensures_save.2
        ⟨fun r => ⟨rfl, .refused path r _ rfl hs hp⟩, ⟨rfl, .written path hs hp⟩⟩
  · rename_i hs
    exact Action.ensures_pure.2 ⟨rfl, .nowhere (.inl (by simpa using hs))⟩

theorem ends_finish (sink : Sink) (r : Ready) (t : Take) (seconds : Double) (reason : Ending)
    (s : Session) :
    (finish sink r.size r.frameRate t seconds reason s).Ends fun h x =>
      x.2 = s ∧ Concluded s.settings sink (totals sink r t seconds reason) h x.1 := by
  unfold finish
  simp only [Action.ensures_bind, Action.ensures_get, Action.ensures_lift, Program.ensures_report,
    Option.map_some, Action.after_ok, List.nil_append]
  refine (ends_digestOf sink s).ensures fun h x hx => ?_
  obtain ⟨f | checksum, s'⟩ := x
  · exact ⟨hx.1, .undigested hx.2⟩
  obtain ⟨rfl, hd⟩ := hx
  simp only [Description.make, Program.request, Program.ensures_bind, Program.ensures_ask,
    Program.ensures_done, Program.pure_eq, Exchange.call, Option.map_some, Action.after_ok,
    Action.ensures_bind, Action.ensures_lift, List.append_nil]
  intro identity
  refine (ends_saveBeside sink _ s').ensures fun k x hx => ?_
  obtain ⟨f | _, s''⟩ := x
  · exact ⟨hx.1, .unsaved identity hd hx.2⟩
  obtain ⟨rfl, hs⟩ := hx
  simp only [Action.after_ok, Action.ensures_pure, List.append_nil]
  exact ⟨rfl, .done identity hd hs⟩

/-- How a recording has ended: the first failure of the loop, of the frame times and of the output
counts. -/
def verdict (ended : Outcome Ending) (timed closed : Outcome Unit) : Outcome Ending := do
  let reason ← ended
  timed
  closed
  return reason

theorem verdict_eq_ok {ended : Outcome Ending} {timed closed : Outcome Unit} {reason : Ending} :
    verdict ended timed closed = .ok reason ↔
      ended = .ok reason ∧ timed = .ok () ∧ closed = .ok () := by
  cases ended <;> cases timed <;> cases closed <;>
    simp [verdict, bind, Except.bind, pure, Except.pure]

/-- The failure of a recording, or its conclusion where all has gone well. -/
inductive Settled (settings : Settings) (sink : Sink)
    (totals : Ending → Option String → Totals) (verdict : Outcome Ending) :
    History → Outcome Recording → Prop
  | failed {f : Failure} (hv : verdict = .error f) :
      Settled settings sink totals verdict [] (.error f)
  | concluded {rest : History} {reason : Ending} {x : Outcome Recording}
      (hv : verdict = .ok reason) (hc : Concluded settings sink (totals reason) rest x) :
      Settled settings sink totals verdict rest x

theorem Settled.within {settings : Settings} {sink : Sink}
    {totals : Ending → Option String → Totals} {verdict : Outcome Ending} {h : History}
    {x : Outcome Recording} (hs : Settled settings sink totals verdict h x) :
    h.Within [.disk, .identity] := by
  cases hs with
  | failed => simp
  | concluded _ hc => exact hc.within

/-- A notice that a phase was entered. -/
abbrev entered (phase : Phase) : Exchange := ⟨.notify (.phase phase), ()⟩

/-- What the loop starts from. -/
def taking (s : Session) (r : Ready) : Take := ⟨s.encoder, s.capture, r.sink, 0, .empty⟩

/-- The time at which a loop ends that was started at another. -/
def deadline (s : Session) (started : Int64) : Int64 :=
  started + Int64.ofNat s.settings.timeLimit.toNat * nanosPerSecond

/-- The session after its loop. -/
def drained (s : Session) (t : Take) : Session :=
  { s with encoder := t.encoder, capture := t.capture, phase := .draining }

/-- The recording with what was acquired. -/
inductive Recorded (s : Session) (r : Ready) :
    History → Option (Outcome Recording × Session) → Prop
  | unfinished {loop : History} (started : Int64)
      (hl : (s.taking r).Looped (s.deadline started) loop none) :
      Recorded s r (entered .capturing :: Take.clocked started :: loop) none
  | finished {loop times back rest : History} {t : Take} {s' : Session} {sink : Sink}
      {looped : Outcome Ending} {timed closed : Outcome Unit} {x : Outcome Recording}
      (started ended : Int64)
      (hl : (s.taking r).Looped (s.deadline started) loop (some (looped, t)))
      (ht : Stamped t.times t.sink times (timed, sink))
      (hb : GivenBack (s.drained t) sink back (closed, s'))
      (hs : Settled s.settings sink (totals sink r t (secondsBetween started ended))
        (verdict looped timed closed) rest x) :
      Recorded s r
        (entered .capturing :: Take.clocked started :: loop ++
          Take.clocked ended :: entered .draining :: times ++ back ++ rest) (some (x, s'))

/-- What follows the loop of a recording. -/
def windUp (r : Ready) (started : Int64) (looped : Outcome Ending × Take) :
    Action Session Recording := do
  let seconds := secondsBetween started (← now)
  enter .draining
  let (timed, sink) ← writeTimes looped.2.sink looped.2.times
  let closed ← giveBack sink
  let reason ← Action.attempt (pure looped.1)
  Action.attempt (pure timed)
  Action.attempt (pure closed)
  finish sink r.size r.frameRate looped.2 seconds reason

/-- The session with what its loop has left. -/
def leaving (s : Session) (t : Take) : Session :=
  { s with encoder := t.encoder, capture := t.capture, phase := .capturing }

/-- **A recording is its loop** and what follows it. -/
theorem record_apply (passes : Nat) (r : Ready) (s : Session) :
    record passes r s = .ask (.notify (.phase .capturing)) fun _ =>
      .ask (.clock .monotonic) fun started =>
        Take.pump (s.deadline started) passes (s.taking r) >>= fun looped =>
          windUp r started looped (s.leaving looped.2) := by
  have hloop : record passes r s = .ask (.notify (.phase .capturing)) fun _ =>
      .ask (.clock .monotonic) fun started =>
        ((loop passes (s.deadline started) r.sink >>= windUp r started)
          { s with phase := .capturing }) := rfl
  rw [hloop]
  simp only [loop, Action.bind_apply, Action.get_apply, Action.lift_apply, Program.done_bind,
    Action.continue?_ok, bind_assoc]
  rfl

/-- What follows the loop, and the session and the outcome that it leaves. -/
inductive WoundUp (s : Session) (r : Ready) (started : Int64) (looped : Outcome Ending) (t : Take) :
    History → Outcome Recording × Session → Prop
  | mk {times back rest : History} {s' : Session} {sink : Sink} {timed closed : Outcome Unit}
      {x : Outcome Recording} (ended : Int64) (ht : Stamped t.times t.sink times (timed, sink))
      (hb : GivenBack (s.drained t) sink back (closed, s'))
      (hs : Settled s.settings sink (totals sink r t (secondsBetween started ended))
        (verdict looped timed closed) rest x) :
      WoundUp s r started looped t
        (Take.clocked ended :: entered .draining :: times ++ back ++ rest) (x, s')

theorem ends_windUp (r : Ready) (started : Int64) (looped : Outcome Ending) (t : Take) (s : Session) :
    (windUp r started (looped, t) (s.leaving t)).Ends (WoundUp s r started looped t) := by
  unfold windUp
  simp only [enter, notify, now, Program.request, Action.ensures_bind, Action.ensures_modify,
    Action.ensures_lift, Program.ensures_ask, Program.ensures_done, Exchange.call, Option.map_some,
    Action.after_ok, List.append_nil, List.nil_append]
  intro ended _
  refine (ends_writeTimes t.sink t.times _).ensures fun times x ht => ?_
  obtain ⟨⟨timed, sink⟩, rfl, ht⟩ := ht
  simp only [Action.after_ok, Action.ensures_bind]
  refine (ends_giveBack sink _).ensures fun back x hb => ?_
  obtain ⟨closed, s', rfl, hb⟩ := hb
  have hsettings : s'.settings = s.settings := by cases hb; rfl
  -- the output is closed and all is given back, whatever the verdict is
  have hconclude : ∀ reason, verdict looped timed closed = .ok reason →
      (finish sink r.size r.frameRate t (secondsBetween started ended) reason s').Ends
        fun rest x => WoundUp s r started looped t
          (Take.clocked ended :: entered .draining :: times ++ back ++ rest) x := by
    intro reason hv
    refine (ends_finish sink r t _ reason s').ensures fun rest x hx => ?_
    obtain ⟨x, s''⟩ := x
    obtain ⟨rfl, hc⟩ := hx
    rw [hsettings] at hc
    exact .mk ended ht hb (.concluded hv hc)
  have hfail : ∀ f, verdict looped timed closed = .error f →
      WoundUp s r started looped t
        (Take.clocked ended :: entered .draining :: times ++ back ++ []) (.error f, s') :=
    fun f hv => .mk ended ht hb (.failed hv)
  simp only [List.append_nil] at hfail
  obtain f | reason := looped
  · simp only [Action.after_ok, Action.ensures_bind, Action.ensures_attempt, Program.pure_eq,
      Program.ensures_done, Option.map_some, Action.after_error, List.append_nil]
    exact hfail f rfl
  obtain f | _ := timed
  · simp only [Action.after_ok, Action.ensures_bind, Action.ensures_attempt, Program.pure_eq,
      Program.ensures_done, Option.map_some, Action.after_error, List.append_nil]
    exact hfail f rfl
  obtain f | _ := closed
  · simp only [Action.after_ok, Action.ensures_bind, Action.ensures_attempt, Program.pure_eq,
      Program.ensures_done, Option.map_some, Action.after_error, List.append_nil]
    exact hfail f rfl
  simp only [Action.after_ok, Action.ensures_bind, Action.ensures_attempt, Program.pure_eq,
    Program.ensures_done, Option.map_some, List.nil_append]
  refine (hconclude reason rfl).ensures fun rest x hx => ?_
  simp only [List.append_assoc] at hx
  exact hx

theorem ensures_record (passes : Nat) (r : Ready) (s : Session) :
    (record passes r s).Ensures (Recorded s r) := by
  rw [record_apply]
  simp only [Program.ensures_ask, Program.ensures_bind, Exchange.call, List.cons_append,
    List.nil_append]
  intro _ started
  refine (Take.ensures_pump _ passes _).mono fun loop x hl => ?_
  obtain _ | ⟨looped, t⟩ := x
  · exact .unfinished started hl
  · refine (ends_windUp r started looped t s).ensures fun k x hw => ?_
    cases hw with
    | mk ended ht hb hs =>
      have hrecorded := Recorded.finished started ended hl ht hb hs
      simpa only [List.cons_append, List.append_assoc] using hrecorded

/-! ## The run -/

/-- The session as a run begins. -/
def begun (s : Session) : Session := { s with hasRun := true, phase := .configuring }

/-- The session as a run ends. -/
def ended (s : Session) : Session := { s with phase := .stopped }

/-- A recording from its set-up on. -/
inductive Performed (s : Session) : History → Option (Outcome Recording × Session) → Prop
  | unprepared {setUp : History} {f : Failure} {s' : Session}
      (hp : Prepared s setUp (.error f, s')) : Performed s setUp (some (.error f, s'))
  | recorded {setUp rest : History} {r : Ready} {s' : Session}
      {x : Option (Outcome Recording × Session)} (hp : Prepared s setUp (.ok r, s'))
      (hr : Recorded s' r rest x) : Performed s (setUp ++ rest) x

theorem ensures_perform (passes : Nat) (s : Session) :
    (perform passes s).Ensures (Performed s) := by
  unfold perform
  rw [Action.ensures_bind]
  refine (ends_prepare s).ensures fun setUp x hp => ?_
  obtain ⟨f | r, s'⟩ := x
  · exact .unprepared hp
  · rw [Action.after_ok]
    exact (ensures_record passes r s').mono fun rest x hr => .recorded hp hr

/-- **A run of a session.** -/
inductive Ran (s : Session) : History → Option (Outcome Recording × Session) → Prop
  | again (f : Failure) (hf : f.stage = .settings) (hs : s.hasRun = true) :
      Ran s [] (some (.error f, s))
  | unfinished {h : History} (hs : s.hasRun = false) (hp : Performed s.begun h none) :
      Ran s (entered .configuring :: h) none
  | failed {h : History} {f : Failure} {s' : Session} (hs : s.hasRun = false)
      (hp : Performed s.begun h (some (.error f, s'))) :
      Ran s (entered .configuring :: h ++ [entered .stopped, ⟨.notify (.failed f), ()⟩])
        (some (.error f, s'.ended))
  | finished {h : History} {recording : Recording} {s' : Session} (hs : s.hasRun = false)
      (hp : Performed s.begun h (some (.ok recording, s'))) :
      Ran s (entered .configuring :: h ++ [entered .stopped, ⟨.notify (.finished recording), ()⟩])
        (some (.ok recording, s'.ended))

theorem ensures_run (passes : Nat) (s : Session) : (run passes s).Ensures (Ran s) := by
  unfold run
  simp only [Action.ensures_bind, Action.ensures_get, Action.after_ok]
  split
  · rename_i hs
    exact Action.ensures_fail.2 (.again _ rfl hs)
  rename_i hs
  have hs' : s.hasRun = false := by simpa using hs
  simp only [enter, notify, Program.request, Action.ensures_bind, Action.ensures_modify,
    Action.ensures_lift, Program.ensures_ask, Program.ensures_done, Exchange.call, Option.map_some,
    Action.after_ok, Action.ensures_outcome, List.nil_append, List.append_nil]
  intro _
  refine (ensures_perform passes _).mono fun h x hp => ?_
  obtain _ | ⟨f | recording, s'⟩ := x
  · exact .unfinished hs' hp
  · simp only [Option.map_some, Action.after_ok, Action.ensures_bind, Action.ensures_modify,
      Action.ensures_lift, Program.ensures_ask, Program.ensures_done, Program.ensures_report,
      Exchange.call, Action.ensures_fail, List.nil_append, List.append_nil]
    exact fun _ _ => .failed hs' hp
  · simp only [Option.map_some, Action.after_ok, Action.ensures_bind, Action.ensures_modify,
      Action.ensures_lift, Program.ensures_ask, Program.ensures_done, Exchange.call,
      Action.ensures_pure, List.nil_append, List.append_nil]
    exact fun _ _ => .finished hs' hp

theorem ensures_discard {Q : History → Option (Outcome Unit × Session) → Prop} :
    (discard s).Ensures Q ↔
      Q (s.encoder.freeing ++ s.capture.closing) (some (.ok (), s.cleared s.encoder)) := by
  simp only [discard, onEncoder, onCapture, Action.ensures_bind, Action.ensures_on,
    Encoder.ensures_discard, Capture.ensures_close, Option.map_some, Action.after_ok]
  exact Iff.rfl

end Session

end Screencast
