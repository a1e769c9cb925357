import Screencast.Proofs.Conduct.Session
import Screencast.Proofs.Handouts

/-!
# The course of a session

A run is its set-up, its loop and what follows the loop. Buffers are asked for in the loop only,
data is handed to an output in the loop and with the frame times only, and each phase is entered
once.

* `Prepared.idle`, `Prepared.quiet`, `Prepared.table`: the set-up.
* `GivenBack.idle`, `Settled.ended`: what follows the loop.
* `Session.Course`, `Ran.course`: a run taken apart around its loop.
-/

namespace Screencast

namespace Encoder

variable {e : Encoder} {s : Settings} {size : FrameSize} {frameRate : Single} {h : History}

theorem Refused.idle {params : EncoderSettings} {persistent : Bool} {f : Failure}
    (hr : Refused params persistent h f) : h.Idle := by
  cases hr <;> simp [Exchange.dequeued?]

theorem Configured.idle {r : Outcome Surface × Encoder}
    (hc : Configured s size frameRate e h r) : h.Idle := by
  cases hc with
  | busy => simp
  | granted => simp [Encoder.granted, Exchange.dequeued?]
  | refused _ hr => simp [hr.idle, Exchange.dequeued?]

theorem Shrunk.idle {r : Outcome (Surface × FrameSize) × Encoder}
    (hs : Shrunk s size frameRate e h r) : h.Idle :=
  hs.of_attempts (fun _ _ hh hk => History.idle_append.2 ⟨hh, hk⟩) fun hc => hc.idle

/-- An encoder that is set up knows the table that was fetched last. -/
theorem Configured.table {surface : Surface} {e' : Encoder} {table : List Slot}
    (hc : Configured s size frameRate e h (.ok surface, e')) : h.tableAfter table = e'.table := by
  cases hc
  rfl

theorem Shrunk.table {x : Surface × FrameSize} {e' : Encoder} {table : List Slot}
    (hs : Shrunk s size frameRate e h (.ok x, e')) : h.tableAfter table = e'.table := by
  cases hs with
  | first h₁ => exact h₁.table
  | second _ h₁ h₂ => rw [History.tableAfter_append, h₂.table]

theorem Halted.idle {r : Outcome Unit × Encoder} (hh : Halted e h r) : h.Idle := by
  cases hh <;> simp [Exchange.dequeued?]

theorem freeing_idle : e.freeing.Idle := by
  unfold freeing
  split <;> simp [Exchange.dequeued?]

end Encoder

namespace Session

variable {s s' : Session} {h : History}

theorem Opened.quiet {x : Outcome Sink × Session} (ho : Opened s h x) : h.Quiet := by
  cases ho with
  | homeless => simp
  | container _ _ _ _ hm => exact hm.quiet
  | supplied => simp
  | destination _ _ hr => exact hr.quiet

theorem Opened.encoder_eq {x : Outcome Sink} (ho : Opened s h (x, s')) :
    s'.encoder = s.encoder := by
  cases ho <;> rfl

/-- The output that is opened for a container is one without tracks. -/
theorem Opened.muxed {container : Container} {sink : Sink}
    (hc : s.settings.format.container? = some container) (ho : Opened s h (.ok sink, s')) :
    ∃ path, sink = .muxed ⟨path, container, .idle, none, none⟩ := by
  generalize hr : ((.ok sink, s') : Outcome Sink × Session) = r at ho
  cases ho with
  | homeless => cases hr
  | container container' path hc' hp hm =>
    obtain rfl : container = container' := Option.some.inj (hc.symm.trans hc')
    cases hm with
    | turned => cases hr; exact ⟨path, rfl⟩
    | made => cases hr; exact ⟨path, rfl⟩
    | _ => cases hr
  | supplied _ hn => rw [hc] at hn; cases hn
  | destination hn => rw [hc] at hn; cases hn

theorem Abandoned.idle (ha : Abandoned s h s') : h.Idle := by
  obtain ⟨hs⟩ := ha
  simp [Capture.closing_within.idle, hs.idle, Encoder.freeing_idle]

theorem Abandoned.quiet (ha : Abandoned s h s') : h.Quiet := ha.within.quiet (by simp) (by simp)

/-- No buffer is asked for during the set-up. -/
theorem Prepared.idle {x : Outcome Ready × Session} (hp : Prepared s h x) : h.Idle :=
  hp.of_parts History.idle_nil (fun _ _ hh hk => History.idle_append.2 ⟨hh, hk⟩)
    (fun hl => hl.within.idle (by simp)) (fun he => he.idle) (fun hc => hc.within.idle (by simp))
    (fun ho => ho.within.idle (by simp)) fun ha => ha.idle

/-- No data is handed to an output during the set-up. -/
theorem Prepared.quiet {x : Outcome Ready × Session} (hp : Prepared s h x) : h.Quiet :=
  hp.of_parts History.quiet_nil (fun _ _ hh hk => History.quiet_append.2 ⟨hh, hk⟩)
    (fun hl => hl.within.quiet (by simp) (by simp)) (fun he => he.within.quiet (by simp) (by simp))
    (fun hc => hc.within.quiet (by simp) (by simp)) (fun ho => ho.quiet) fun ha => ha.quiet

/-- After the set-up the encoder knows the table that was fetched last. -/
theorem Prepared.table {r : Ready} {table : List Slot} (hp : Prepared s h (.ok r, s')) :
    h.tableAfter table = s'.encoder.table := by
  cases hp with
  | ready _ hl he hc ho =>
    rw [History.tableAfter_append, ho.within.tableAfter_eq (by simp), History.tableAfter_append,
      hc.within.tableAfter_eq (by simp), History.tableAfter_append, he.table, ho.encoder_eq]

theorem Prepared.muxed {container : Container} {r : Ready}
    (hc : s.settings.format.container? = some container) (hp : Prepared s h (.ok r, s')) :
    ∃ path, r.sink = .muxed ⟨path, container, .idle, none, none⟩ := by
  cases hp with
  | @ready _ _ _ _ _ _ _ _ _ e c _ _ _ _ _ _ ho =>
    exact Opened.muxed (s := { s with encoder := e, capture := c }) hc ho

/-- The output of a session is of the kind that its format says. -/
theorem Opened.party {sink : Sink} (ho : Opened s h (.ok sink, s')) :
    sink.party = outlet s.settings := by
  generalize hr : ((.ok sink, s') : Outcome Sink × Session) = r at ho
  cases ho with
  | homeless => cases hr
  | @container _ x _ _ hc =>
    obtain _ | m := x
    · cases hr
    · cases hr
      rw [outlet, hc]
      rfl
  | supplied _ hc =>
    cases hr
    rw [outlet, hc]
    rfl
  | @destination _ x hc =>
    obtain _ | raw := x
    · cases hr
    · cases hr
      rw [outlet, hc]
      rfl

theorem Prepared.party {r : Ready} (hp : Prepared s h (.ok r, s')) :
    r.sink.party = outlet s.settings := by
  cases hp with
  | ready _ _ _ _ ho => exact ho.party

theorem Stamped.idle {times : FrameTimes.Log} {sink : Sink} {x : Outcome Unit × Sink}
    (hs : Stamped times sink h x) : h.Idle := hs.within.idle (by simp)

theorem GivenBack.idle {sink : Sink} {x : Outcome Unit × Session} (hb : GivenBack s sink h x) :
    h.Idle := by
  obtain ⟨hs, hc⟩ := hb
  simp [Capture.closing_within.idle, hs.idle, hc.within.idle, Encoder.freeing_idle]

theorem GivenBack.quiet {sink : Sink} {x : Outcome Unit × Session} (hb : GivenBack s sink h x) :
    h.Quiet := by
  obtain ⟨hs, hc⟩ := hb
  simp [Capture.closing_within.quiet, hs.within.quiet, hc.quiet, Encoder.freeing_within.quiet]

theorem Settled.idle {settings : Settings} {sink : Sink}
    {totals : Ending → Option String → Totals} {verdict : Outcome Ending} {x : Outcome Recording}
    (hs : Settled settings sink totals verdict h x) : h.Idle := hs.within.idle (by simp)

/-- A recording ends well if its loop, its frame times and its output have. -/
theorem Settled.ended {settings : Settings} {sink : Sink}
    {totals : Ending → Option String → Totals} {recording : Recording} {looped : Outcome Ending}
    {timed closed : Outcome Unit}
    (hs : Settled settings sink totals (verdict looped timed closed) h (.ok recording)) :
    (∃ reason, looped = .ok reason) ∧ timed = .ok () ∧ closed = .ok () := by
  cases hs with
  | @concluded _ reason _ hv =>
    obtain ⟨hlooped, htimed, hclosed⟩ := verdict_eq_ok.1 hv
    exact ⟨⟨reason, hlooped⟩, htimed, hclosed⟩

/-- A recording tells the reason for which its loop has ended. -/
theorem Concluded.reason {settings : Settings} {sink : Sink} {r : Ready} {t : Take}
    {seconds : Double} {reason : Ending} {recording : Recording}
    (hc : Concluded settings sink (totals sink r t seconds reason) h (.ok recording)) :
    recording.reason = reason := by
  cases hc
  rfl

/-- What a recording that has ended well tells of its frames. -/
theorem Settled.frames {settings : Settings} {sink : Sink} {r : Ready} {t : Take}
    {seconds : Double} {verdict : Outcome Ending} {recording : Recording}
    (hs : Settled settings sink (totals sink r t seconds) verdict h (.ok recording)) :
    recording.frameCount = UInt64.ofNat t.frames ∧
      recording.description.hasFrameTimes =
        (sink.keepsTimes && decide (0 < t.times.size)) := by
  cases hs with
  | concluded _ hc =>
    cases hc
    exact ⟨rfl, rfl⟩

/-! ## The course of a run -/

/-- The calls of a run up to its loop. -/
def lead (setUp : History) (started : Int64) : History :=
  entered .configuring :: setUp ++ [entered .capturing, Take.clocked started]

/-- A run that fails before its loop. -/
inductive Unlooped (s : Session) : History → Failure → Session → Prop
  | again (f : Failure) (hs : s.hasRun = true) : Unlooped s [] f s
  | unprepared {setUp : History} {f : Failure} {s' : Session} (hs : s.hasRun = false)
      (hp : Prepared s.begun setUp (.error f, s')) :
      Unlooped s (entered .configuring :: setUp ++ [entered .stopped, ⟨.notify (.failed f), ()⟩]) f
        s'.ended

theorem Unlooped.idle {f : Failure} (hu : Unlooped s h f s') : h.Idle := by
  cases hu with
  | again => simp
  | unprepared _ hp => simp [hp.idle, Exchange.dequeued?]

theorem Unlooped.quiet {f : Failure} (hu : Unlooped s h f s') : h.Quiet := by
  cases hu with
  | again => simp
  | unprepared _ hp => simp [hp.quiet, Exchange.carries]

/-- A run that fails before its loop enters no phase but the first and the last. -/
theorem Unlooped.notOpened_of_ne {f : Failure} {phase : Phase} (hu : Unlooped s h f s')
    (hc : phase ≠ .configuring) (hs : phase ≠ .stopped) : ∀ e ∈ h, e.opens phase = false := by
  cases hu with
  | again => exact fun e he => absurd he List.not_mem_nil
  | @unprepared setUp _ _ _ hp =>
    have hset : ∀ e ∈ setUp, e.opens phase = false :=
      hp.within.notOpened (by simp [setUpParties])
    simp only [List.forall_mem_append, List.forall_mem_cons]
    exact ⟨⟨by simp [Exchange.opens, hc.symm], hset⟩, by simp [Exchange.opens, hs.symm],
      by simp [Exchange.opens], fun _ he => absurd he List.not_mem_nil⟩

theorem Unlooped.notOpened {f : Failure} (hu : Unlooped s h f s') :
    ∀ e ∈ h, e.opens .draining = false := hu.notOpened_of_ne nofun nofun

/-- **The course of a run.** It fails before its loop, it is left unfinished in the loop, or it
drains after the loop and settles how it has ended. -/
inductive Course (s : Session) : History → Option (Outcome Recording × Session) → Prop
  | unlooped {h : History} {f : Failure} {s' : Session} (hu : Unlooped s h f s') :
      Course s h (some (.error f, s'))
  | unfinished {setUp loop : History} {r : Ready} {s' : Session} {started : Int64}
      (hp : Prepared s.begun setUp (.ok r, s'))
      (hl : (s'.taking r).Looped (s'.deadline started) loop none) :
      Course s (lead setUp started ++ loop) none
  | drained {setUp loop times back rest last : History} {r : Ready} {s' s'' : Session} {t : Take}
      {sink : Sink} {looped : Outcome Ending} {timed closed : Outcome Unit}
      {x : Outcome Recording} (started nanos : Int64) (hp : Prepared s.begun setUp (.ok r, s'))
      (hl : (s'.taking r).Looped (s'.deadline started) loop (some (looped, t)))
      (ht : Stamped t.times t.sink times (timed, sink))
      (hb : GivenBack (s'.drained t) sink back (closed, s''))
      (hs : Settled s'.settings sink (totals sink r t (secondsBetween started nanos))
        (verdict looped timed closed) rest x)
      (hlast : last.Within [.watcher]) :
      Course s (lead setUp started ++ loop ++ [Take.clocked nanos] ++
        entered .draining :: (times ++ back ++ rest ++ last)) (some (x, s''.ended))

theorem Ran.course {result : Option (Outcome Recording × Session)} (hr : Ran s h result) :
    Course s h result := by
  have hrecorded : ∀ {setUp rest last : History} {r : Ready} {s' s'' : Session}
      {x : Outcome Recording}, Prepared s.begun setUp (.ok r, s') →
      Recorded s' r rest (some (x, s'')) → last.Within [.watcher] →
      Course s (entered .configuring :: (setUp ++ rest) ++ last) (some (x, s''.ended)) := by
    intro setUp rest last r s' s'' x hp hr hlast
    cases hr with
    | finished started nanos hl ht hb hs =>
      have hcourse := Course.drained started nanos hp hl ht hb hs hlast
      simpa [lead] using hcourse
  cases hr with
  | again f _ hs => exact .unlooped (.again f hs)
  | unfinished hs hp =>
    cases hp with
    | recorded hp hr =>
      cases hr with
      | unfinished started hl =>
        have hcourse := Course.unfinished hp hl
        simpa [lead] using hcourse
  | failed hs hp =>
    cases hp with
    | unprepared hp => exact .unlooped (.unprepared hs hp)
    | recorded hp hr => exact hrecorded hp hr (by simp [Exchange.party])
  | finished hs hp =>
    cases hp with
    | recorded hp hr => exact hrecorded hp hr (by simp [Exchange.party])

/-- A run fails before its loop, or it begins to capture. -/
theorem Ran.unlooped_or_opened {result : Option (Outcome Recording × Session)}
    (hr : Ran s h result) :
    (∃ f s', Unlooped s h f s') ∨ ∃ e ∈ h, e.opens .capturing = true := by
  cases hr.course with
  | unlooped hu => exact .inl ⟨_, _, hu⟩
  | unfinished => exact .inr ⟨entered .capturing, by simp [lead], rfl⟩
  | drained => exact .inr ⟨entered .capturing, by simp [lead], rfl⟩

variable {setUp : History} {r : Ready} {started : Int64}

theorem lead_idle (hp : Prepared s setUp (.ok r, s')) : (lead setUp started).Idle := by
  simp [lead, hp.idle, Exchange.dequeued?]

theorem lead_quiet (hp : Prepared s setUp (.ok r, s')) : (lead setUp started).Quiet := by
  simp [lead, hp.quiet, Exchange.carries]

theorem lead_table (hp : Prepared s setUp (.ok r, s')) :
    (lead setUp started).tableAfter [] = s'.encoder.table := by
  have hset : (lead setUp started).tableAfter [] =
      (setUp ++ [entered .capturing, Take.clocked started]).tableAfter [] := rfl
  rw [hset, History.tableAfter_append, hp.table]
  rfl

theorem lead_notOpened (hp : Prepared s setUp (.ok r, s')) :
    ∀ e ∈ lead setUp started, e.opens .draining = false := by
  have hset : ∀ e ∈ setUp, e.opens .draining = false :=
    hp.within.notOpened (by simp [setUpParties])
  simp only [lead, List.forall_mem_append, List.forall_mem_cons]
  exact ⟨⟨by simp [Exchange.opens], hset⟩, by simp [Exchange.opens], by simp [Exchange.opens],
    fun _ he => absurd he List.not_mem_nil⟩

variable {loop : History} {x : Option (Outcome Ending × Take)}

/-- The loop starts when the capturing begins, and not before. -/
theorem lead_append (hp : Prepared s setUp (.ok r, s')) (k : History) :
    (lead setUp started ++ k).before .capturing = entered .configuring :: setUp ∧
      (lead setUp started ++ k).since .capturing =
        entered .capturing :: Take.clocked started :: k := by
  have hset : ∀ e ∈ entered .configuring :: setUp, e.opens .capturing = false :=
    List.forall_mem_cons.2 ⟨rfl, hp.within.notOpened (by simp [setUpParties])⟩
  have hsplit : lead setUp started ++ k =
      entered .configuring :: setUp ++ entered .capturing :: Take.clocked started :: k := by
    simp [lead]
  rw [hsplit]
  exact ⟨History.before_append hset rfl, History.since_append hset rfl⟩

theorem unfinished_notOpened (hp : Prepared s setUp (.ok r, s'))
    (hl : (s'.taking r).Looped (s'.deadline started) loop x) :
    ∀ e ∈ lead setUp started ++ loop, e.opens .draining = false := by
  rw [List.forall_mem_append]
  exact ⟨lead_notOpened hp, hl.within.notOpened (by simp [Take.loopParties])⟩

theorem drained_notOpened {nanos : Int64} (hp : Prepared s setUp (.ok r, s'))
    (hl : (s'.taking r).Looped (s'.deadline started) loop x) :
    ∀ e ∈ lead setUp started ++ loop ++ [Take.clocked nanos], e.opens .draining = false := by
  rw [List.forall_mem_append, List.forall_mem_singleton]
  exact ⟨unfinished_notOpened hp hl, by simp [Exchange.opens]⟩

theorem before_of_drained (nanos : Int64) (tail : History) (hp : Prepared s setUp (.ok r, s'))
    (hl : (s'.taking r).Looped (s'.deadline started) loop x) :
    (lead setUp started ++ loop ++ [Take.clocked nanos] ++ entered .draining :: tail).before
      .draining = lead setUp started ++ loop ++ [Take.clocked nanos] :=
  History.before_append (drained_notOpened hp hl) (by simp [Exchange.opens])

theorem since_of_drained (nanos : Int64) (tail : History) (hp : Prepared s setUp (.ok r, s'))
    (hl : (s'.taking r).Looped (s'.deadline started) loop x) :
    (lead setUp started ++ loop ++ [Take.clocked nanos] ++ entered .draining :: tail).since
      .draining = entered .draining :: tail :=
  History.since_append (drained_notOpened hp hl) (by simp [Exchange.opens])

/-- The parties of a run but for its set-up and its conclusion. -/
def courseParties (settings : Settings) : List Party :=
  [.encoder, .display, .capture, outlet settings, .clock, .signal, .watcher]

/-- The parties of a run are those of its parts. -/
theorem Course.within {result : Option (Outcome Recording × Session)} {parties : List Party}
    (hc : Course s h result) (hparties : courseParties s.settings ⊆ parties)
    (hset : ∀ {setUp x}, Prepared s.begun setUp x → setUp.Within parties)
    (hrest : ∀ {setUp rest : History} {r s' sink t seconds v x},
      Prepared s.begun setUp (.ok r, s') → sink.face = r.sink.face →
        Settled s'.settings sink (totals sink r t seconds) v rest x → rest.Within parties) :
    h.Within parties := by
  have hopen : ∀ phase, (entered phase).party ∈ parties := fun _ =>
    hparties (by simp [courseParties, Exchange.party])
  have hclock : ∀ n, (Take.clocked n).party ∈ parties := fun _ =>
    hparties (by simp [courseParties, Exchange.party])
  have hloop : ∀ {setUp loop r s' x} {started : Int64}, Prepared s.begun setUp (.ok r, s') →
      (s'.taking r).Looped (s'.deadline started) loop x →
      (lead setUp started).Within parties ∧ loop.Within parties := by
    intro setUp loop r s' x started hp hl
    have hlooped := hl.within
    rw [Take.loopParties, taking, hp.party] at hlooped
    simp only [lead, History.within_append, History.within_cons]
    exact ⟨⟨⟨hopen _, hset hp⟩, hopen _, hclock _, History.within_nil⟩,
      hlooped.mono (List.Subset.trans (by simp [courseParties, begun]) hparties)⟩
  cases hc with
  | unlooped hu =>
    cases hu with
    | again => exact History.within_nil
    | unprepared _ hp =>
      simp only [History.within_append, History.within_cons]
      exact ⟨⟨hopen _, hset hp⟩, hopen _, hparties (by simp [courseParties, Exchange.party]),
        History.within_nil⟩
  | unfinished hp hl => exact History.within_append.2 (hloop hp hl)
  | @drained setUp loop times back rest last r s' s'' t sink looped timed closed x started nanos
      hp hl ht hb hs hlast =>
    -- the output is of one kind from the set-up to its end
    have hface : t.sink.party = outlet s.settings := by
      rw [Sink.party, hl.face_eq]
      exact hp.party
    have hstamp := ht.within
    have hback := hb.within
    rw [hface] at hstamp
    rw [Sink.party, ht.face_eq, ← Sink.party, hface] at hback
    simp only [History.within_append, History.within_cons]
    exact ⟨⟨hloop hp hl, hclock _, History.within_nil⟩, hopen _,
      ⟨⟨hstamp.mono (List.Subset.trans (by simp [courseParties]) hparties),
        hback.mono (List.Subset.trans (by simp [courseParties]) hparties)⟩,
        hrest hp (ht.face_eq.trans hl.face_eq) hs⟩,
      hlast.mono (List.Subset.trans (by simp [courseParties]) hparties)⟩

/-- A run turns to the container writer or to a stream, as its format says, and not to both. -/
theorem Ran.within {result : Option (Outcome Recording × Session)} (hr : Ran s h result) :
    h.Within (.disk :: .identity :: courseParties s.settings) :=
  hr.course.within (by simp)
    (fun hp => hp.within.mono (by simp [setUpParties, courseParties, begun]))
    (fun _ _ hs => hs.within.mono (by simp))

end Session

end Screencast
