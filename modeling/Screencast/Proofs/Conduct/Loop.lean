import Screencast.Proofs.Conduct.Capture
import Screencast.Proofs.Conduct.Encoder
import Screencast.Proofs.Conduct.Sink
import Screencast.Session

/-!
# The conduct of the loop

What one pass of the loop asks of the surroundings, by what the encoder has answered, and the loop
as its passes one after another. A statement about the loop is proved by induction on
`Take.Looped`, with one case for each way out and one for a pass that goes on.

* `Take.Handled`: what becomes of a sample.
* `Take.Passed`: one pass.
* `Take.Looped`: the loop, from any of its passes on.
* `Take.Pumped`: the loop as runs of the pass itself.
-/

namespace Screencast.Take

variable {t : Take}

/-- A look at the display, which may lead to another projection. -/
inductive Looked (c : Capture) : History → Capture → Prop
  | unseen (f : Failure) : Looked c [⟨.display .geometry, .error f⟩] c
  | seen {h : History} {x : Outcome Bool} {c' : Capture} (geometry : Geometry)
      (hu : Capture.Updated geometry c h (x, c')) :
      Looked c (⟨.display .geometry, .ok geometry⟩ :: h) c'

theorem Looked.within {c c' : Capture} {h : History} (hl : Looked c h c') :
    h.Within [.display, .capture] := by
  cases hl with
  | unseen => simp [Exchange.party]
  | seen _ hu =>
    have hw : History.Within [.display, .capture] _ := hu.within.mono (by simp)
    simp [hw, Exchange.party]

theorem ends_followDisplay (t : Take) :
    (followDisplay t).Ends fun h r =>
      ∃ c, r = (.ok (), { t with capture := c }) ∧ Looked t.capture h c := by
  unfold followDisplay
  simp only [Program.request, Action.ensures_bind, Action.ensures_lift, Program.ensures_ask,
    Program.ensures_done, Exchange.call, forall_outcome, Option.map_some, Action.after_ok,
    Program.ensures_report, List.append_nil, onCapture, Action.ensures_outcome, Action.ensures_on]
  refine ⟨fun f => ⟨t.capture, rfl, .unseen f⟩, fun geometry => ?_⟩
  refine (Capture.ends_update geometry t.capture).ensures fun h r hr => ?_
  obtain ⟨f | b, c⟩ := r
  · simp only [Option.map_some, Action.after_ok, Action.ensures_lift, Program.ensures_report,
      List.append_nil]
    exact ⟨c, rfl, .seen geometry hr⟩
  · simp only [Option.map_some, Action.after_ok, Action.ensures_pure, List.append_nil]
    exact ⟨c, rfl, .seen geometry hr⟩

/-- The time of a sample, which is the present one where the sample has none. -/
inductive Timed : Int → History → Int → Prop
  | given {time : Int} (ht : time ≠ 0) : Timed time [] time
  | present (nanos : Int64) : Timed 0 [⟨.clock .monotonic, nanos⟩] (microseconds nanos)

theorem Timed.within {given time : Int} {h : History} (ht : Timed given h time) :
    h.Within [.clock] := by
  cases ht <;> simp [Exchange.party]

theorem ends_timeOf (s : Sample) : (timeOf s).Ends (Timed s.time) := by
  unfold timeOf
  split
  · rename_i ht
    rw [ht]
    simp only [now, Program.request, Program.ensures_bind, Program.ensures_ask,
      Program.ensures_done, Program.pure_eq, Exchange.call, List.append_nil]
    exact fun nanos => .present nanos
  · rename_i ht
    exact Program.ensures_done.2 (.given ht)

/-- The take once a sample has been written. -/
def after (s : Sample) (time : Int) (t : Take) : Take :=
  if s.flags.isConfig then t else t.count time

/-- A sample that the output has no use for. -/
def Unwanted (s : Sample) (sink : Sink) : Prop :=
  s.flags.isConfig ∧ sink.keepsConfig = false ∨ s.payload = []

/-- What becomes of a sample. -/
inductive Handled (s : Sample) (t : Take) : History → Outcome Unit × Take → Prop
  | skipped (hs : Unwanted s t.sink) : Handled s t [] (.ok (), t)
  | refused {look clock out : History} {c : Capture} {time : Int} {sink : Sink} {f : Failure}
      (hs : ¬Unwanted s t.sink) (hl : Looked t.capture look c) (ht : Timed s.time clock time)
      (hw : Sink.Sent { s with time } t.sink out (.error f, sink)) :
      Handled s t (look ++ clock ++ out) (.error f, { t with capture := c, sink })
  | written {look clock out : History} {c : Capture} {time : Int} {sink : Sink}
      (hs : ¬Unwanted s t.sink) (hl : Looked t.capture look c) (ht : Timed s.time clock time)
      (hw : Sink.Sent { s with time } t.sink out (.ok (), sink)) :
      Handled s t (look ++ clock ++ out) (.ok (), after s time { t with capture := c, sink })

theorem Handled.within {s : Sample} {h : History} {r : Outcome Unit × Take}
    (hh : Handled s t h r) : h.Within [.display, .capture, .clock, t.sink.party] := by
  have hall : ∀ {look clock out : History} {c : Capture} {time : Int}
      {x : Outcome Unit × Sink}, Looked t.capture look c → Timed s.time clock time →
      Sink.Sent { s with time } t.sink out x →
      (look ++ clock ++ out).Within [.display, .capture, .clock, t.sink.party] := by
    intro look clock out c time x hl ht hw
    simp only [History.within_append]
    exact ⟨⟨hl.within.mono (by simp), ht.within.mono (by simp)⟩, hw.within.mono (by simp)⟩
  cases hh with
  | skipped => simp
  | refused _ hl ht hw => exact hall hl ht hw
  | written _ hl ht hw => exact hall hl ht hw

theorem Handled.encoder_eq {s : Sample} {h : History} {x : Outcome Unit} {t' : Take}
    (hh : Handled s t h (x, t')) : t'.encoder = t.encoder := by
  cases hh with
  | skipped => rfl
  | refused => rfl
  | written => unfold after; split <;> rfl

theorem Handled.face_eq {s : Sample} {h : History} {x : Outcome Unit} {t' : Take}
    (hh : Handled s t h (x, t')) : t'.sink.face = t.sink.face := by
  cases hh with
  | skipped => rfl
  | refused _ _ _ hw => exact hw.face_eq
  | written _ _ _ hw =>
    rw [← hw.face_eq]
    unfold after
    split <;> rfl

theorem ends_deliver (s : Sample) (t : Take) (hs : ¬Unwanted s t.sink) :
    (deliver s t).Ends (Handled s t) := by
  unfold deliver
  simp only [Action.ensures_bind]
  refine (ends_followDisplay t).ensures fun look r hr => ?_
  obtain ⟨c, rfl, hl⟩ := hr
  simp only [Action.after_ok, Action.ensures_bind, Action.ensures_lift]
  refine (ends_timeOf s).ensures fun clock time ht => ?_
  simp only [Option.map_some, Action.after_ok, Action.ensures_bind, onSink, Action.ensures_on]
  refine (Sink.ends_writeSample { s with time } t.sink).ensures fun out r hw => ?_
  obtain ⟨f | _, sink⟩ := r
  · simp only [Option.map_some, Action.after_error]
    rw [← List.append_assoc]
    exact .refused hs hl ht hw
  · simp only [Option.map_some, Action.after_ok]
    have hwritten := Handled.written hs hl ht hw
    rw [List.append_assoc] at hwritten
    split
    · rename_i hc
      rw [after, if_pos hc] at hwritten
      simpa only [Action.ensures_pure, List.append_nil, Program.finished_some] using hwritten
    · rename_i hc
      rw [after, if_neg hc] at hwritten
      simpa only [Action.ensures_modify, List.append_nil, Program.finished_some] using hwritten

theorem ends_writeSample (s : Sample) (t : Take) : (writeSample s t).Ends (Handled s t) := by
  have hrest : ((if s.flags.isConfig ∧ !t.sink.keepsConfig ∨ s.payload.isEmpty then pure ()
      else deliver s : Action Take Unit) t).Ends (Handled s t) := by
    split
    · rename_i hs
      exact Action.ensures_pure.2 (.skipped (by simpa [Unwanted] using hs))
    · rename_i hs
      exact ends_deliver s t (by simpa [Unwanted] using hs)
  unfold writeSample
  simp only [Action.ensures_bind, Action.ensures_get, Action.after_ok, List.nil_append]
  split
  · simp only [Action.ensures_bind, Action.ensures_lift, Program.ensures_report, Option.map_some,
      Action.after_ok, List.nil_append]
    exact hrest
  · exact hrest

/-- The encoder asked for the next event, and its answer. -/
abbrev dequeued (answer : Dequeued) : Exchange :=
  ⟨.encoder (.dequeue longestWait), answer⟩

/-- One pass of the loop. -/
inductive Passed (t : Take) : History → Outcome Bool × Take → Prop
  | unpolled {h : History} {f : Failure}
      (hp : Encoder.Polled longestWait t.encoder h (.error f, t.encoder)) :
      Passed t h (.error f, t)
  | broken (code : Int) (f : Failure) (hf : f.stage = .poll) :
      Passed t [dequeued (.error code)] (.error f, t)
  | idle : Passed t [dequeued .tryAgain] (.ok false, t)
  | ended (b : FilledBuffer) (hb : b.isLast) :
      Passed t
        [dequeued (.buffer b), ⟨.encoder (.releaseBuffer b.index), .ok ()⟩, ⟨.signal .raise, ()⟩]
        (.ok true, t)
  | refreshed (table : List Slot) :
      Passed t [dequeued .buffersChanged, ⟨.encoder .bufferTable, .ok table⟩]
        (.ok false, { t with encoder := { t.encoder with table } })
  | unrefreshed (f : Failure) :
      Passed t [dequeued .buffersChanged, ⟨.encoder .bufferTable, .error f⟩] (.error f, t)
  | reformatted {h : History} {sink : Sink} (format : TrackFormat)
      (hr : Sink.Reformatted format t.sink h (.ok (), sink)) :
      Passed t (dequeued .formatChanged :: ⟨.encoder .currentFormat, .ok format⟩ :: h)
        (.ok false, { t with sink })
  | unformatted {h : History} {sink : Sink} {f : Failure} (format : TrackFormat)
      (hr : Sink.Reformatted format t.sink h (.error f, sink)) :
      Passed t (dequeued .formatChanged :: ⟨.encoder .currentFormat, .ok format⟩ :: h)
        (.error f, { t with sink })
  | unwritten {h k : History} {s : Sample} {f : Failure} {t' : Take}
      (hp : Encoder.Polled longestWait t.encoder h (.ok (.data s), t.encoder))
      (hh : Handled s t k (.error f, t')) : Passed t (h ++ k) (.error f, t')
  | kept {h k : History} {s : Sample} {t' : Take} (f : Failure)
      (hp : Encoder.Polled longestWait t.encoder h (.ok (.data s), t.encoder))
      (hh : Handled s t k (.ok (), t')) :
      Passed t (h ++ k ++ [⟨.encoder (.releaseBuffer s.buffer), .error f⟩])
        (.error (Encoder.notHandedBack s.buffer f), t')
  | last {h k : History} {s : Sample} {t' : Take}
      (hp : Encoder.Polled longestWait t.encoder h (.ok (.data s), t.encoder))
      (hh : Handled s t k (.ok (), t')) (hs : s.flags.isEndOfStream = true) :
      Passed t
        (h ++ k ++ [⟨.encoder (.releaseBuffer s.buffer), .ok ()⟩, ⟨.signal .raise, ()⟩])
        (.ok true, t')
  | moved {h k : History} {s : Sample} {t' : Take}
      (hp : Encoder.Polled longestWait t.encoder h (.ok (.data s), t.encoder))
      (hh : Handled s t k (.ok (), t')) (hs : s.flags.isEndOfStream = false) :
      Passed t (h ++ k ++ [⟨.encoder (.releaseBuffer s.buffer), .ok ()⟩]) (.ok false, t')

/-- The parties of the loop. -/
def loopParties (sink : Sink) : List Party :=
  [.encoder, .display, .capture, .clock, sink.party, .signal]

theorem Passed.within {h : History} {r : Outcome Bool × Take} (hp : Passed t h r) :
    h.Within (loopParties t.sink) := by
  unfold loopParties
  cases hp with
  | unpolled hp => exact hp.within.mono (by simp)
  | reformatted _ hr => simp [hr.within.mono, Exchange.party]
  | unformatted _ hr => simp [hr.within.mono, Exchange.party]
  | unwritten hp hh => simp [hp.within.mono, hh.within.mono]
  | kept _ hp hh => simp [hp.within.mono, hh.within.mono, Exchange.party]
  | last hp hh => simp [hp.within.mono, hh.within.mono, Exchange.party]
  | moved hp hh => simp [hp.within.mono, hh.within.mono, Exchange.party]
  | _ => simp [Exchange.party]

theorem Passed.face_eq {h : History} {x : Outcome Bool} {t' : Take}
    (hp : Passed t h (x, t')) : t'.sink.face = t.sink.face := by
  cases hp with
  | reformatted _ hr => exact hr.face_eq
  | unformatted _ hr => exact hr.face_eq
  | unwritten _ hh => exact hh.face_eq
  | kept _ _ hh => exact hh.face_eq
  | last _ hh => exact hh.face_eq
  | moved _ hh => exact hh.face_eq
  | _ => rfl

theorem ensures_endOfStream {Q : History → Option Unit → Prop} :
    endOfStream.Ensures Q ↔ Q [⟨.signal .raise, ()⟩] (some ()) := by
  simp only [endOfStream, raiseStop, Program.request, Program.ensures_bind,
    Program.ensures_report, Program.ensures_ask, Program.ensures_done, Exchange.call,
    List.append_nil, List.nil_append]
  exact ⟨fun h => h (), fun h _ => h⟩

/-- The writing of a sample and what follows it. -/
theorem ends_moving {h : History} {s : Sample}
    (hp : Encoder.Polled longestWait t.encoder h (.ok (.data s), t.encoder)) :
    ((do
      writeSample s
      onEncoder (Encoder.releaseBuffer s.buffer)
      if s.flags.isEndOfStream then endOfStream
      return s.flags.isEndOfStream : Action Take Bool) t).Ends fun k => Passed t (h ++ k) := by
  simp only [Action.ensures_bind]
  refine (ends_writeSample s t).ensures fun k r hh => ?_
  obtain ⟨f | _, t'⟩ := r
  · exact .unwritten hp hh
  simp only [Action.after_ok, onEncoder, Action.ensures_bind, Action.ensures_on,
    Encoder.ensures_releaseBuffer, Option.map_some, Action.after_error]
  refine ⟨fun f => ?_, ?_⟩
  · rw [Program.finished_some, ← List.append_assoc]
    exact .kept f hp hh
  split
  · rename_i hs
    simp only [Action.ensures_bind, Action.ensures_lift, ensures_endOfStream, Option.map_some,
      Action.after_ok, Action.ensures_pure, Program.finished_some, List.append_nil]
    rw [← List.append_assoc, hs]
    exact .last hp hh hs
  · rename_i hs
    simp only [Action.ensures_pure, Program.finished_some, List.append_nil]
    rw [← List.append_assoc, Bool.eq_false_iff.2 hs]
    exact .moved hp hh (Bool.eq_false_iff.2 hs)

theorem ends_pass (t : Take) : (pass t).Ends (Passed t) := by
  unfold pass
  simp only [Action.ensures_bind, onEncoder, Action.ensures_on]
  refine (Encoder.ends_poll longestWait t.encoder).ensures fun h r hp => ?_
  obtain ⟨x, e⟩ := r
  -- the wait leaves the encoder as it is, so what follows starts from `t`
  have he : e = t.encoder := by cases hp <;> rfl
  subst he
  cases x with
  | error f => exact .unpolled hp
  | ok event =>
    simp only [Option.map_some, Action.after_ok]
    cases event with
    | data s => exact (ends_moving hp).ensures fun k r hr => hr
    | formatChanged format =>
      cases hp
      simp only [Action.ensures_bind, Action.ensures_lift, Program.ensures_report,
        Option.map_some, Action.after_ok, onSink, Action.ensures_on, List.nil_append]
      refine (Sink.ends_formatChanged format t.sink).ensures fun k r hr => ?_
      obtain ⟨f | _, sink⟩ := r
      · exact .unformatted format hr
      · simp only [Option.map_some, Action.after_ok, Action.ensures_pure, List.append_nil]
        exact .reformatted format hr
    | buffersChanged =>
      cases hp
      simp only [Action.ensures_bind, Action.ensures_lift, Program.ensures_report,
        Option.map_some, Action.after_ok, Action.ensures_on, Encoder.ensures_refresh,
        Action.after_error, Action.ensures_pure, List.nil_append, List.append_nil]
      exact ⟨fun f => .unrefreshed f, fun table => .refreshed table⟩
    | retry =>
      cases hp
      exact Action.ensures_pure.2 .idle
    | endOfStream =>
      cases hp with
      | last b hb =>
        simp only [Action.ensures_bind, Action.ensures_lift, ensures_endOfStream,
          Option.map_some, Action.after_ok, Action.ensures_pure, List.append_nil]
        exact .ended b hb
    | error code =>
      cases hp
      exact Action.ensures_fail.2 (.broken code _ rfl)

/-- The question whether the session was asked to stop. -/
abbrev asked (answer : Bool) : Exchange := ⟨.signal .isRaised, answer⟩

/-- A look at the clock. -/
abbrev clocked (nanos : Int64) : Exchange := ⟨.clock .monotonic, nanos⟩

/-- **The loop**, from one of its passes on. It has no result where its budget is spent. -/
inductive Looped (deadline : Int64) : Take → History → Option (Outcome Ending × Take) → Prop
  | spent (t : Take) : Looped deadline t [] none
  | stopped (t : Take) : Looped deadline t [asked true] (some (.ok .stopRequested, t))
  | late (t : Take) (nanos : Int64) (hn : deadline < nanos) :
      Looped deadline t [asked false, clocked nanos] (some (.ok .timeLimit, t))
  | failed {t t' : Take} {h : History} {f : Failure} (nanos : Int64) (hn : ¬deadline < nanos)
      (hp : Passed t h (.error f, t')) :
      Looped deadline t (asked false :: clocked nanos :: h) (some (.error f, t'))
  | ended {t t' : Take} {h : History} (nanos : Int64) (hn : ¬deadline < nanos)
      (hp : Passed t h (.ok true, t')) :
      Looped deadline t (asked false :: clocked nanos :: h) (some (.ok .endOfStream, t'))
  | next {t t' : Take} {h k : History} {r : Option (Outcome Ending × Take)} (nanos : Int64)
      (hn : ¬deadline < nanos) (hp : Passed t h (.ok false, t'))
      (hl : Looped deadline t' k r) :
      Looped deadline t (asked false :: clocked nanos :: (h ++ k)) r

theorem Looped.within {deadline : Int64} {h : History} {r : Option (Outcome Ending × Take)}
    (hl : Looped deadline t h r) : h.Within (loopParties t.sink) := by
  have hask : ∀ b sink, (asked b).party ∈ loopParties sink :=
    fun _ _ => by simp [loopParties, Exchange.party]
  have hclock : ∀ n sink, (clocked n).party ∈ loopParties sink :=
    fun _ _ => by simp [loopParties, Exchange.party]
  induction hl with
  | spent => simp
  | stopped => simp [hask]
  | late => simp [hask, hclock]
  | failed _ _ hp => simp [hask, hclock, hp.within]
  | ended _ _ hp => simp [hask, hclock, hp.within]
  | next _ _ hp _ ih =>
    -- a pass may change the output, but not whom it turns to
    rw [loopParties, Sink.party, hp.face_eq] at ih
    simp only [History.within_cons, History.within_append]
    exact ⟨hask _ _, hclock _ _, hp.within, ih⟩

theorem Looped.face_eq {deadline : Int64} {h : History} {x : Outcome Ending} {t' : Take}
    (hl : Looped deadline t h (some (x, t'))) : t'.sink.face = t.sink.face := by
  generalize hr : some (x, t') = r at hl
  induction hl with
  | spent => cases hr
  | stopped => cases hr; rfl
  | late => cases hr; rfl
  | failed _ _ hp => cases hr; exact hp.face_eq
  | ended _ _ hp => cases hr; exact hp.face_eq
  | next _ _ hp _ ih => exact (ih hr).trans hp.face_eq

/-- The loop as runs of its passes, from any of them on. -/
inductive Pumped (deadline : Int64) : Take → History → Option (Outcome Ending × Take) → Prop
  | spent (t : Take) : Pumped deadline t [] none
  | stopped (t : Take) : Pumped deadline t [asked true] (some (.ok .stopRequested, t))
  | late (t : Take) (nanos : Int64) (hn : deadline < nanos) :
      Pumped deadline t [asked false, clocked nanos] (some (.ok .timeLimit, t))
  | failed {t t' : Take} {h : History} {f : Failure} (nanos : Int64) (hn : ¬deadline < nanos)
      (hp : (pass t).Shows h (some (.error f, t'))) :
      Pumped deadline t (asked false :: clocked nanos :: h) (some (.error f, t'))
  | ended {t t' : Take} {h : History} (nanos : Int64) (hn : ¬deadline < nanos)
      (hp : (pass t).Shows h (some (.ok true, t'))) :
      Pumped deadline t (asked false :: clocked nanos :: h) (some (.ok .endOfStream, t'))
  | next {t t' : Take} {h k : History} {r : Option (Outcome Ending × Take)} (nanos : Int64)
      (hn : ¬deadline < nanos) (hp : (pass t).Shows h (some (.ok false, t')))
      (hl : Pumped deadline t' k r) :
      Pumped deadline t (asked false :: clocked nanos :: (h ++ k)) r

/-- **Every run of the loop** is a run of passes. -/
theorem ensures_pumped (deadline : Int64) (passes : Nat) (t : Take) :
    (pump deadline passes t).Ensures (Pumped deadline t) := by
  induction passes generalizing t with
  | zero =>
    simp only [pump, Action.lift, Program.unfinished_bind, Program.ensures_unfinished]
    exact .spent t
  | succ passes ih =>
    simp only [pump, Program.request, Action.ensures_bind, Action.ensures_lift,
      Program.ensures_ask, Program.ensures_done, Exchange.call, Option.map_some, Action.after_ok,
      List.append_nil]
    intro answer
    split
    · rename_i ha
      rw [Action.ensures_pure, List.append_nil, ha]
      exact .stopped t
    rename_i ha
    rw [Bool.eq_false_iff.2 ha]
    simp only [now, Program.request, Action.ensures_bind, Action.ensures_lift,
      Program.ensures_ask, Program.ensures_done, Exchange.call, Option.map_some, Action.after_ok,
      List.append_nil]
    intro nanos
    split
    · rename_i hn
      simp only [Action.ensures_bind, Action.ensures_lift, Program.ensures_report,
        Option.map_some, Action.after_ok, Action.ensures_pure, List.append_nil]
      exact .late t nanos hn
    rename_i hn
    simp only [Action.ensures_bind]
    intro h r hr
    rcases r with _ | ⟨f | _ | _, t'⟩
    · exact (ends_pass t h none hr).elim
    · exact .failed nanos hn ⟨h, hr, rfl⟩
    · simp only [Action.after_ok, Bool.false_eq_true, if_false]
      refine (ih t').mono fun k r hl => ?_
      have hnext := Pumped.next nanos hn ⟨h, hr, rfl⟩ hl
      exact hnext
    · simp only [Action.after_ok, if_true, Action.ensures_pure, List.append_nil]
      exact .ended nanos hn ⟨h, hr, rfl⟩

theorem Pumped.looped {deadline : Int64} {h : History} {r : Option (Outcome Ending × Take)}
    (hl : Pumped deadline t h r) : Looped deadline t h r := by
  induction hl with
  | spent t => exact .spent t
  | stopped t => exact .stopped t
  | late t nanos hn => exact .late t nanos hn
  | @failed t _ _ _ nanos hn hp => exact .failed nanos hn (hp.ensured (ends_pass t))
  | @ended t _ _ nanos hn hp => exact .ended nanos hn (hp.ensured (ends_pass t))
  | @next t _ _ _ _ nanos hn hp _ ih => exact .next nanos hn (hp.ensured (ends_pass t)) ih

theorem ensures_pump (deadline : Int64) (passes : Nat) (t : Take) :
    (pump deadline passes t).Ensures (Looped deadline t) :=
  (ensures_pumped deadline passes t).mono fun _ _ hl => hl.looped

end Screencast.Take
