import Screencast.Proofs.Containers
import Screencast.Proofs.Displays
import Screencast.Proofs.Tenures
import Screencast.Rehearsal.Obliging

/-!
# What a session gives back

A session acquires an encoder and a virtual display and starts a container. Whatever is refused on
the way, all of it is given back when its owner is gone, and given back once.

* `Accounted`: what is held now says what the calls so far were.
* `Take.Looped.accounted`, `Session.Prepared.accounted`, `Session.GivenBack.accounted`: the parts of
  a run.
* `Session.lifetime`: a run and the end of the session's owner.
* `Session.all_given_back`: the main result.
-/

namespace Screencast

open History

/-- The calls so far are those that lead to this encoder and this capture. -/
structure Accounted (e : Encoder) (c : Capture) (h : History) : Prop where
  encoder : Encoder.Accounted e.state h
  capture : Capture.Accounted c.handle? h

variable {e : Encoder} {c c' : Capture} {h k : History} {parties : List Party}

theorem Accounted.calm (ha : Accounted e c h) (hk : k.Calm) (ho : k.only .capture = []) :
    Accounted e c (h ++ k) := ⟨ha.encoder.calm hk, ha.capture.rest ho⟩

/-- Calls with other parties change nothing. -/
theorem Accounted.rest (ha : Accounted e c h) (hw : k.Within parties)
    (he : Party.encoder ∉ parties) (hc : Party.capture ∉ parties) : Accounted e c (h ++ k) :=
  ha.calm (hw.calm he) (hw.only_eq_nil hc)

/-! ## The loop -/

namespace Take

variable {t t' : Take}

theorem Looked.accounted (hl : Looked c k c') (ha : Accounted e c h) : Accounted e c' (h ++ k) := by
  refine ⟨ha.encoder.calm (hl.within.calm (by simp)), ?_⟩
  cases hl with
  | unseen => exact ha.capture.rest rfl
  | seen geometry hu =>
    rw [List.append_cons]
    exact hu.accounted (ha.capture.rest rfl)

theorem Handled.accounted {s : Sample} {x : Outcome Unit} (hh : Handled s t k (x, t'))
    (ha : Accounted t.encoder t.capture h) : Accounted t'.encoder t'.capture (h ++ k) := by
  have hdelivered : ∀ {look clock out c time y}, Looked t.capture look c →
      Timed s.time clock time → Sink.Sent { s with time } t.sink out y →
      Accounted t.encoder c (h ++ (look ++ clock ++ out)) := by
    intro look clock out c time y hl ht hw
    rw [← List.append_assoc, ← List.append_assoc]
    exact ((hl.accounted ha).rest ht.within (by simp) (by simp)).rest hw.within (by simp) (by simp)
  cases hh with
  | skipped =>
    rw [List.append_nil]
    exact ha
  | refused _ hl ht hw => exact hdelivered hl ht hw
  | written _ hl ht hw =>
    have haccounted := hdelivered hl ht hw
    unfold after
    split <;> exact haccounted

/-- A pass of the loop neither configures nor stops nor releases the encoder, and it projects the
virtual display at most. -/
theorem Passed.accounted {x : Outcome Bool} (hp : Passed t k (x, t'))
    (ha : Accounted t.encoder t.capture h) : Accounted t'.encoder t'.capture (h ++ k) := by
  have hpolled : ∀ {l y}, Encoder.Polled longestWait t.encoder l y →
      Accounted t.encoder t.capture (h ++ l) :=
    fun hp => ha.calm hp.calm (hp.within.only_eq_nil (by simp))
  have hformat : ∀ {format l y}, Sink.Reformatted format t.sink l y →
      Accounted t.encoder t.capture
        (h ++ dequeued .formatChanged :: ⟨.encoder .currentFormat, .ok format⟩ :: l) := by
    intro format l y hr
    have hasked : Accounted t.encoder t.capture
        (h ++ [dequeued .formatChanged, ⟨.encoder .currentFormat, .ok format⟩]) := ha.calm rfl rfl
    rw [List.append_cons, List.append_cons, List.append_assoc h]
    exact hasked.rest hr.within (by simp) (by simp)
  have hhandled : ∀ {l m s x t'},
      Encoder.Polled longestWait t.encoder l (.ok (.data s), t.encoder) →
      Handled s t m (x, t') → Accounted t'.encoder t'.capture (h ++ (l ++ m)) := by
    intro l m s x t' hp hh
    rw [← List.append_assoc]
    exact hh.accounted (hpolled hp)
  cases hp with
  | unpolled hp => exact hpolled hp
  | reformatted _ hr => exact hformat hr
  | unformatted _ hr => exact hformat hr
  | unwritten hp hh => exact hhandled hp hh
  | kept _ hp hh =>
    rw [← List.append_assoc]
    exact (hhandled hp hh).calm rfl rfl
  | last hp hh =>
    rw [← List.append_assoc]
    exact (hhandled hp hh).calm rfl rfl
  | moved hp hh =>
    rw [← List.append_assoc]
    exact (hhandled hp hh).calm rfl rfl
  | refreshed => exact ⟨ha.encoder.calm rfl, ha.capture.rest rfl⟩
  | _ => exact ha.calm rfl rfl

/-- **The loop** keeps what it was given, for as many passes as it makes. -/
theorem Looped.accounted {deadline : Int64} {x : Outcome Ending}
    (hl : Looped deadline t k (some (x, t'))) (ha : Accounted t.encoder t.capture h) :
    Accounted t'.encoder t'.capture (h ++ k) := by
  have hturn : ∀ {h : History} {t : Take} {nanos}, Accounted t.encoder t.capture h →
      Accounted t.encoder t.capture (h ++ [asked false, clocked nanos]) :=
    fun ha => ha.calm rfl rfl
  generalize hr : some (x, t') = r at hl
  -- the calls so far grow with each pass, so the induction is over all of them
  induction hl generalizing h with
  | spent => cases hr
  | stopped =>
    cases hr
    exact ha.calm rfl rfl
  | late =>
    cases hr
    exact hturn ha
  | failed nanos _ hp =>
    cases hr
    rw [List.append_cons, List.append_cons, List.append_assoc h]
    exact hp.accounted (hturn ha)
  | ended nanos _ hp =>
    cases hr
    rw [List.append_cons, List.append_cons, List.append_assoc h]
    exact hp.accounted (hturn ha)
  | next nanos _ hp _ ih =>
    rw [List.append_cons, List.append_cons, List.append_assoc h, ← List.append_assoc]
    exact ih (hp.accounted (hturn ha)) hr

end Take

/-! ## A run -/

/-- All is given back: the virtual display first and the encoder last. -/
theorem Accounted.undone {stop close : History} {x : Outcome Unit} {e' : Encoder}
    (ha : Accounted e c h) (hs : e.Halted stop (x, e')) (hw : close.Within parties)
    (he : Party.encoder ∉ parties) (hc : Party.capture ∉ parties) :
    Accounted e'.freed .initial (h ++ (c.closing ++ stop ++ close ++ e'.freeing)) := by
  simp only [← List.append_assoc]
  constructor
  · rw [Encoder.freed_state]
    have hclosing := ha.encoder.calm (Capture.closing_within (c := c).calm (by simp))
    exact ((hs.accounted hclosing).calm (hw.calm he)).freeing
  · have hclosing : Capture.Accounted none (h ++ c.closing) := ha.capture.closing
    have hstop := hclosing.rest (hs.within.only_eq_nil (by simp))
    have hclose := hstop.rest (hw.only_eq_nil hc)
    exact hclose.rest (Encoder.freeing_within.only_eq_nil (by simp))

namespace Session

variable {s s' : Session}

theorem Abandoned.accounted (hu : Abandoned s k s') (ha : Accounted s.encoder s.capture h) :
    Accounted s'.encoder s'.capture (h ++ k) := by
  obtain ⟨hs⟩ := hu
  have hnothing : Within [] [] := within_nil
  have hundone := ha.undone hs hnothing (by simp) (by simp)
  rwa [List.append_nil] at hundone

theorem GivenBack.accounted {sink : Sink} {x : Outcome Unit} (hb : GivenBack s sink k (x, s'))
    (ha : Accounted s.encoder s.capture h) : Accounted s'.encoder s'.capture (h ++ k) := by
  obtain ⟨hs, hc⟩ := hb
  exact ha.undone hs hc.within (by simp) (by simp)

theorem Opened.accounted {x : Outcome Sink} (ho : Opened s k (x, s'))
    (ha : Accounted s.encoder s.capture h) : Accounted s'.encoder s'.capture (h ++ k) := by
  have hcapture : s'.capture = s.capture := by cases ho <;> rfl
  rw [ho.encoder_eq, hcapture]
  exact ha.rest ho.within (by simp) (by simp)

/-- What the set-up acquires is held after it, or given back where it fails. -/
theorem Prepared.accounted {x : Outcome Ready} (hp : Prepared s k (x, s'))
    (ha : Encoder.Accounted s.encoder.state h) (hc : s.capture.active = none)
    (ho : h.only .capture = []) : Accounted s'.encoder s'.capture (h ++ k) := by
  -- until the virtual display is made there is no call to the compositor
  have hlook : ∀ {look y}, Inspected s.settings look y →
      Encoder.Accounted s.encoder.state (h ++ look) ∧ only .capture (h ++ look) = [] := by
    intro look y hl
    refine ⟨ha.calm (hl.within.calm (by simp)), ?_⟩
    rw [only_append, ho, hl.within.only_eq_nil (by simp)]
    rfl
  have hset : ∀ {look setUp y size rate z e}, Inspected s.settings look y →
      Encoder.Shrunk s.settings size rate s.encoder setUp (z, e) →
      Encoder.Accounted e.state (h ++ look ++ setUp) ∧
        only .capture (h ++ look ++ setUp) = [] := by
    intro look setUp y size rate z e hl he
    obtain ⟨hencoder, hnone⟩ := hlook hl
    refine ⟨he.accounted hencoder, ?_⟩
    rw [only_append, hnone, he.within.only_eq_nil (by simp)]
    rfl
  have hbound : ∀ {look setUp bound : History} {y size rate z e surface geometry size' rotate w c},
      Inspected s.settings look y →
      Encoder.Shrunk s.settings size rate s.encoder setUp (z, e) →
      Capture.Started surface geometry size' rotate s.capture bound (w, c) →
      Accounted e c (h ++ look ++ setUp ++ bound) := by
    intro look setUp bound y size rate z e surface geometry size' rotate w c hl he hs
    obtain ⟨hencoder, hnone⟩ := hset hl he
    exact ⟨hencoder.calm (hs.within.calm (by simp)), hs.accounted hc hnone⟩
  -- where the set-up fails early there is nothing to destroy
  have hfree : ∀ {k : History}, only .capture k = [] → Capture.Accounted s.capture.handle? k := by
    intro k hk
    rw [Capture.handle?, hc]
    exact .served (hk ▸ .unasked)
  cases hp with
  | invalid =>
    rw [List.append_nil]
    exact ⟨ha, hfree ho⟩
  | unseen _ hl => exact ⟨(hlook hl).1, hfree (hlook hl).2⟩
  | noEncoder _ hl he =>
    rw [← List.append_assoc]
    exact ⟨(hset hl he).1, hfree (hset hl he).2⟩
  | noCapture _ hl he hs hu =>
    simp only [← List.append_assoc]
    exact hu.accounted (hbound hl he hs)
  | noOutput _ hl he hs ho hu =>
    simp only [← List.append_assoc]
    exact hu.accounted (ho.accounted (hbound hl he hs))
  | ready _ hl he hs ho =>
    simp only [← List.append_assoc]
    exact ho.accounted (hbound hl he hs)

/-- **A run** that ends has given back what it acquired. -/
theorem Ran.accounted {x : Outcome Recording} (hr : Ran s h (some (x, s')))
    (he : s.encoder.state = .unconfigured) (hc : s.capture.active = none) :
    Accounted s'.encoder s'.capture h := by
  have hfirst : Encoder.Accounted s.encoder.state [entered .configuring] := by
    rw [he]
    exact .free (returned_nil.calm (k := [_]) rfl)
  generalize hresult : some (x, s') = result at hr
  cases hr.course with
  | unlooped hu =>
    cases hresult
    cases hu with
    | again =>
      refine ⟨he ▸ .free returned_nil, ?_⟩
      rw [Capture.handle?, hc]
      exact .served .unasked
    | unprepared _ hp => exact (hp.accounted hfirst hc rfl).calm rfl rfl
  | unfinished => cases hresult
  | drained started nanos hp hl ht hb hs hlast =>
    cases hresult
    -- from the set-up on, each part of the run takes over what the part before it holds
    have hset := hp.accounted hfirst hc rfl
    have hlead := hset.calm (k := [entered .capturing, Take.clocked started]) rfl rfl
    have hloop := hl.accounted hlead
    have hclock := hloop.calm (k := [Take.clocked nanos, entered .draining]) rfl rfl
    have htimes := hclock.rest ht.within (by simp) (by simp)
    have hback := hb.accounted htimes
    have hrest := hback.rest hs.within (by simp) (by simp)
    have hlast := hrest.rest hlast (by simp) (by simp)
    simpa [lead, ended] using hlast

/-! ## A lifetime -/

/-- A run of a session, and the end of its owner after it. -/
def lifetime (passes : Nat) : Action Session (Outcome Recording) := do
  let result ← (run passes).outcome
  discard
  return result

/-- **The lifetime of a session.** -/
inductive Lived (s : Session) : History → Option (Outcome Recording) → Prop
  | unfinished {h : History} (hr : Ran s h none) : Lived s h none
  | ended {h : History} {x : Outcome Recording} {s' : Session} (hr : Ran s h (some (x, s'))) :
      Lived s (h ++ (s'.encoder.freeing ++ s'.capture.closing)) (some x)

theorem ensures_lifetime (passes : Nat) (s : Session) :
    (lifetime passes s).Ensures fun h r => ∃ x, Lived s h x ∧ r.map Prod.fst = x.map .ok := by
  unfold lifetime
  simp only [Action.ensures_bind, Action.ensures_outcome]
  refine (ensures_run passes s).mono fun h r hr => ?_
  obtain _ | ⟨x, s'⟩ := r
  · exact ⟨none, .unfinished hr, rfl⟩
  · simp only [Option.map_some, Action.after_ok, Action.ensures_bind, ensures_discard,
      Action.ensures_pure, List.append_nil]
    exact ⟨some x, .ended hr, rfl⟩

/-- At the end of a lifetime each virtual display that was made is destroyed, the encoder is given
back in each of its tenures, and a container that was started is told to finish. -/
structure AllGivenBack (h : History) : Prop where
  displays : h.Cleared
  encoder : h.Returned
  container : h.stops = if 0 < h.starts then 1 else 0

/-- **Nothing is left behind and nothing is given back twice.** Whatever the settings are and
whichever calls are refused, at the end of a session's lifetime each virtual display that was made
has been destroyed once and was not used afterwards; the encoder has been released once after every
attempt to configure it, and stopped at most once and only where its set-up was granted; and a
container was told to finish once if one was started and never otherwise. -/
theorem all_given_back {settings : Settings} {hasMuxer : Bool} {output : Option Raw} {passes : Nat}
    {result : Outcome (Outcome Recording) × Session}
    (hr : (lifetime passes (ofSettings settings hasMuxer output)).Runs h (some result)) :
    AllGivenBack h.calls := by
  obtain ⟨x, hlived, hx⟩ := ensures_lifetime passes _ h _ hr
  generalize h.calls = k at hlived
  cases hlived with
  | unfinished => cases hx
  | @ended k _ s' hran =>
    have haccounted := hran.accounted rfl rfl
    -- whatever the run has left is given back here, the encoder before the virtual display
    rw [← List.append_assoc]
    refine ⟨?_, ?_, ?_⟩
    · have hfreed := haccounted.capture.rest
        (Encoder.freeing_within (e := s'.encoder).only_eq_nil (by simp))
      exact hfreed.closing.cleared
    · have hfreed := haccounted.encoder.freeing
      exact (hfreed.calm (Capture.closing_within.calm (by simp))).returned
    · obtain ⟨honce, -, -, hfinished⟩ := containerFinished_of_ran hran
      have hfreeing := Encoder.freeing_within (e := s'.encoder).still (by simp)
      have hclosing := Capture.closing_within (c := s'.capture).still (by simp)
      rw [stops_append, stops_append, starts_append, starts_append, hfreeing.stops,
        hfreeing.starts, hclosing.stops, hclosing.starts, hfinished nofun]
      split <;> omega

/-- A lifetime in which two pictures are recorded. -/
theorem all_given_back_obliging :
    let p := lifetime 9 (ofSettings .standard true none)
    let device := Rehearsal.Obliging.ofEvents [.formatChanged, .buffer ⟨0, 1, 2, 0, .empty⟩,
      .buffer ⟨1, 0, 4, 7, .keyFrame⟩]
    let h := (p.history Rehearsal.Obliging.answer device).calls
    h.made = [⟨1⟩] ∧ h.tenures.map History.frees = [1] ∧ h.starts = 1 ∧ AllGivenBack h := by
  intro p device h
  have hresult : (p.run Rehearsal.Obliging.answer device).1.isSome := by decide +kernel
  obtain ⟨result, hr⟩ := Option.isSome_iff_exists.1 hresult
  refine ⟨by decide +kernel, by decide +kernel, by decide +kernel, ?_⟩
  exact all_given_back (hr ▸ Program.runs_run _ _ _)

end Session

end Screencast
