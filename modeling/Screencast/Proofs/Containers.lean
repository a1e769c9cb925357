import Screencast.Proofs.Course

/-!
# The life of a container

A container is started in the loop, at most once, and told to finish its file after the loop if it
runs then, and never before.

* `History.starts`, `History.stops`: how often a container was started and told to finish.
* `Sink.running`: how many containers run.
* `Take.Looped.running`: the loop by induction on its passes.
* `Session.stops_of_drained`: what follows the loop.
-/

namespace Screencast

/-- A container was started. -/
def Exchange.starts : Exchange → Bool
  | ⟨.muxer .start, .ok ()⟩ => true
  | _ => false

/-- A container is told to finish its file. -/
def Exchange.stops (e : Exchange) : Bool := e.request == .muxer .stop

namespace History

/-- How often a container was started. -/
def starts (h : History) : Nat := h.countP Exchange.starts

/-- How often a container was told to finish its file. -/
def stops (h : History) : Nat := h.countP Exchange.stops

variable {h k : History} {parties : List Party}

@[simp] theorem starts_append : starts (h ++ k) = h.starts + k.starts := List.countP_append

@[simp] theorem stops_append : stops (h ++ k) = h.stops + k.stops := List.countP_append

/-- No container is started or told to finish. -/
structure Still (h : History) : Prop where
  starts : h.starts = 0
  stops : h.stops = 0

theorem Still.append (hh : h.Still) (hk : k.Still) : Still (h ++ k) where
  starts := by rw [starts_append, hh.starts, hk.starts]
  stops := by rw [stops_append, hh.stops, hk.stops]

theorem Within.still (hw : h.Within parties) (hm : Party.muxer ∉ parties) : h.Still := by
  have hparty : ∀ e ∈ h, e.party ≠ .muxer := fun e he hp => hm (hp ▸ hw e he)
  refine ⟨List.countP_eq_zero.2 ?_, List.countP_eq_zero.2 ?_⟩
  · intro e he hs
    rcases e with ⟨_ | _ | _ | _, answer⟩
    case muxer => exact hparty _ he rfl
    all_goals cases hs
  · intro e he hs
    have hr : e.request = .muxer .stop := by simpa [Exchange.stops] using hs
    exact hparty e he (by simp [Exchange.party, hr])

end History

/-- How many containers run. -/
def Sink.running : Sink → Nat
  | muxed m => if m.state = .started then 1 else 0
  | raw _ => 0

/-- A part of the loop between two outputs: what was started runs, and nothing was told to
finish. -/
structure Going (sink : Sink) (h : History) (sink' : Sink) : Prop where
  starts : sink'.running = sink.running + h.starts
  stops : h.stops = 0

variable {sink sink' : Sink} {h k : History} {t t' : Take}

theorem going_of_within {parties : List Party} (hw : h.Within parties)
    (hm : Party.muxer ∉ parties) (hs : sink' = sink) : Going sink h sink' := by
  have hstill := hw.still hm
  exact ⟨by rw [hs, hstill.starts, Nat.add_zero], hstill.stops⟩

theorem Going.append {sink'' : Sink} (hh : Going sink h sink') (hk : Going sink' k sink'') :
    Going sink (h ++ k) sink'' where
  starts := by rw [hk.starts, hh.starts, History.starts_append, Nat.add_assoc]
  stops := by rw [History.stops_append, hh.stops, hk.stops]

theorem Sink.Sent.going {s : Sample} {x : Outcome Unit} (hs : Sink.Sent s sink h (x, sink')) :
    Going sink h sink' := by
  cases hs with
  | muxed hs =>
    cases hs with
    | early => exact ⟨rfl, rfl⟩
    | wrote _ _ hw => cases hw <;> exact ⟨rfl, rfl⟩
  | raw hs =>
    have hstill := hs.within.still (by simp)
    exact ⟨by rw [hstill.starts]; rfl, hstill.stops⟩

/-- A format starts a container that does not run. -/
theorem Sink.Reformatted.going {format : TrackFormat} {x : Outcome Unit}
    (hr : Sink.Reformatted format sink h (x, sink')) : Going sink h sink' := by
  have htracked : ∀ {m k m'}, Muxed.Tracked format m k m' →
      m'.state = m.state ∧ History.Still k := by
    intro m k m' ht
    cases ht <;> exact ⟨rfl, rfl, rfl⟩
  cases hr with
  | muxed hr =>
    cases hr with
    | notStarted f _ _ ht =>
      obtain ⟨hstate, hstill⟩ := htracked ht
      refine ⟨?_, by rw [History.stops_append, hstill.stops]; rfl⟩
      rw [History.starts_append, hstill.starts, Sink.running, Sink.running, hstate]
      rfl
    | started _ hs ht =>
      obtain ⟨-, hstill⟩ := htracked ht
      refine ⟨?_, by rw [History.stops_append, hstill.stops]; rfl⟩
      rw [History.starts_append, hstill.starts, Sink.running, Sink.running, hs]
      rfl
    | _ => exact ⟨rfl, rfl⟩
  | raw => exact ⟨rfl, rfl⟩

theorem Take.Handled.going {s : Sample} {x : Outcome Unit} (hh : Take.Handled s t h (x, t')) :
    Going t.sink h t'.sink := by
  have hlook : ∀ {look clock d time}, Take.Looked t.capture look d →
      Take.Timed s.time clock time → Going t.sink (look ++ clock) t.sink := by
    intro look clock d time hl ht
    exact (going_of_within hl.within (by simp) rfl).append
      (going_of_within ht.within (by simp) rfl)
  cases hh with
  | skipped => exact ⟨rfl, rfl⟩
  | refused _ hl ht hw => exact (hlook hl ht).append hw.going
  | written _ hl ht hw =>
    have hgoing := (hlook hl ht).append hw.going
    unfold Take.after
    split <;> exact hgoing

theorem Take.Passed.going {x : Outcome Bool} (hp : Take.Passed t h (x, t')) :
    Going t.sink h t'.sink := by
  cases hp with
  | unpolled hp => exact going_of_within hp.within (by simp) rfl
  | reformatted _ hr =>
    have hg := hr.going
    exact ⟨hg.starts, hg.stops⟩
  | unformatted _ hr =>
    have hg := hr.going
    exact ⟨hg.starts, hg.stops⟩
  | unwritten hp hh => exact (going_of_within hp.within (by simp) rfl).append hh.going
  | kept _ hp hh =>
    exact ((going_of_within hp.within (by simp) rfl).append hh.going).append ⟨rfl, rfl⟩
  | last hp hh =>
    exact ((going_of_within hp.within (by simp) rfl).append hh.going).append ⟨rfl, rfl⟩
  | moved hp hh =>
    exact ((going_of_within hp.within (by simp) rfl).append hh.going).append ⟨rfl, rfl⟩
  | _ => exact ⟨rfl, rfl⟩

theorem Sink.running_le_one (sink : Sink) : sink.running ≤ 1 := by
  cases sink with
  | muxed m =>
    rw [running]
    split <;> omega
  | raw => exact Nat.zero_le 1

/-- **The loop** starts at most one container and finishes none. -/
theorem Take.Looped.going {deadline : Int64} {r : Option (Outcome Ending × Take)}
    (hl : Take.Looped deadline t h r) :
    h.stops = 0 ∧ t.sink.running + h.starts ≤ 1 ∧
      ∀ x t', r = some (x, t') → Going t.sink h t'.sink := by
  have hturn : ∀ {t n h x t'}, Take.Passed t h (x, t') →
      Going t.sink (asked false :: clocked n :: h) t'.sink :=
    fun hp => ⟨hp.going.starts, hp.going.stops⟩
  have hbound : ∀ {sink h sink'}, Going sink h sink' → sink.running + h.starts ≤ 1 :=
    fun hg => hg.starts ▸ Sink.running_le_one _
  -- what was started runs until the loop ends, so the output bounds how often that was
  induction hl with
  | spent => exact ⟨rfl, Sink.running_le_one _, fun _ _ h => by cases h⟩
  | stopped => exact ⟨rfl, Sink.running_le_one _, fun _ _ h => by cases h; exact ⟨rfl, rfl⟩⟩
  | late => exact ⟨rfl, Sink.running_le_one _, fun _ _ h => by cases h; exact ⟨rfl, rfl⟩⟩
  | failed _ _ hp =>
    exact ⟨(hturn hp).stops, hbound (hturn hp), fun _ _ h => by cases h; exact hturn hp⟩
  | ended _ _ hp =>
    exact ⟨(hturn hp).stops, hbound (hturn hp), fun _ _ h => by cases h; exact hturn hp⟩
  | next n _ hp _ ih =>
    obtain ⟨hstops, hstarts, hgoing⟩ := ih
    have hpass := hturn (n := n) hp
    rw [← List.cons_append, ← List.cons_append]
    refine ⟨?_, ?_, fun x t' hr => hpass.append (hgoing x t' hr)⟩
    · rw [History.stops_append, hpass.stops, hstops]
    · rw [History.starts_append, ← Nat.add_assoc, ← hpass.starts]
      exact hstarts

/-! ## The rest of a run -/

namespace Session

open History

variable {s s' : Session}

theorem Opened.still {x : Outcome Sink × Session} (ho : Opened s h x) : h.Still := by
  have hcleared : ∀ {path k}, Muxed.Cleared path k → History.Still k := by
    intro path k hk
    cases hk <;> exact ⟨rfl, rfl⟩
  cases ho with
  | homeless => exact ⟨rfl, rfl⟩
  | container _ _ _ _ hm =>
    cases hm with
    | kept => exact ⟨rfl, rfl⟩
    | refused _ hc => exact (hcleared hc).append ⟨rfl, rfl⟩
    | unturned _ _ hc => exact (hcleared hc).append ⟨rfl, rfl⟩
    | turned _ hc => exact (hcleared hc).append ⟨rfl, rfl⟩
    | made _ hc => exact (hcleared hc).append ⟨rfl, rfl⟩
  | supplied => exact ⟨rfl, rfl⟩
  | destination _ _ hr => exact hr.within.still (by simp)

/-- No container is started or told to finish during the set-up. -/
theorem Prepared.still {x : Outcome Ready × Session} (hp : Prepared s h x) : h.Still :=
  hp.of_parts ⟨rfl, rfl⟩ (fun _ _ hh hk => hh.append hk) (fun hl => hl.within.still (by simp))
    (fun he => he.within.still (by simp)) (fun hc => hc.within.still (by simp))
    (fun ho => ho.still) fun ha => ha.within.still (by simp)

/-- No container runs after the set-up. -/
theorem Prepared.running {r : Ready} (hp : Prepared s h (.ok r, s')) : r.sink.running = 0 := by
  cases hc : s.settings.format.container? with
  | some container =>
    obtain ⟨path, hsink⟩ := hp.muxed hc
    rw [hsink]
    rfl
  | none =>
    have hraw : r.sink.party = .stream := by
      rw [hp.party, outlet, hc]
    cases hsink : r.sink with
    | raw => rfl
    | muxed => rw [hsink] at hraw; cases hraw

theorem Stamped.still {times : FrameTimes.Log} {x : Outcome Unit}
    (hs : Stamped times sink h (x, sink')) : h.Still ∧ sink'.running = sink.running := by
  cases hs with
  | unkept => exact ⟨⟨rfl, rfl⟩, rfl⟩
  | kept _ _ _ hs =>
    cases hs with
    | muxed hs =>
      cases hs with
      | nothing => exact ⟨⟨rfl, rfl⟩, rfl⟩
      | wrote _ _ _ _ hw => cases hw <;> exact ⟨⟨rfl, rfl⟩, rfl⟩
    | raw => exact ⟨⟨rfl, rfl⟩, rfl⟩

/-- A container that runs is told to finish once. -/
theorem GivenBack.stops {x : Outcome Unit} (hb : GivenBack s sink h (x, s')) :
    h.starts = 0 ∧ h.stops = sink.running := by
  obtain @⟨_, _, _, _, e, _, hs, hc⟩ := hb
  have hclosing := Capture.closing_within (c := s.capture).still (by simp)
  have hstop := hs.within.still (by simp)
  have hfreeing := Encoder.freeing_within (e := e).still (by simp)
  simp only [starts_append, stops_append, hclosing.starts, hclosing.stops, hstop.starts,
    hstop.stops, hfreeing.starts, hfreeing.stops, Nat.zero_add, Nat.add_zero]
  cases hc with
  | stopped _ _ hs => exact ⟨rfl, by rw [Sink.running, if_pos hs]; rfl⟩
  | unstarted _ hs => exact ⟨rfl, by rw [Sink.running, if_neg hs]; rfl⟩
  | raw hc =>
    have hstill := hc.within.still (by simp)
    exact ⟨hstill.starts, hstill.stops⟩

/-- What a run does to a container. -/
structure ContainerFinished (h : History) (result : Option (Outcome Recording × Session)) :
    Prop where
  once : h.starts ≤ 1
  unstarted : (h.since .draining).starts = 0
  unstopped : (h.before .draining).stops = 0
  finished : result ≠ none → h.stops = h.starts

/-- **A container that was started is told to finish once**, after the loop. -/
theorem containerFinished_of_ran {result : Option (Outcome Recording × Session)}
    (hr : Ran s h result) : ContainerFinished h result := by
  have hopen : History.Still [entered .configuring] := ⟨rfl, rfl⟩
  have hclose : ∀ f, History.Still [entered .stopped, ⟨.notify (.failed f), ()⟩] :=
    fun _ => ⟨rfl, rfl⟩
  have hloop : ∀ {setUp loop r s' x} {started : Int64}, Prepared s.begun setUp (.ok r, s') →
      (s'.taking r).Looped (s'.deadline started) loop x →
      (lead setUp started ++ loop).stops = 0 ∧ (lead setUp started ++ loop).starts ≤ 1 ∧
        ∀ ended t, x = some (ended, t) →
          (lead setUp started ++ loop).starts = t.sink.running := by
    intro setUp loop r s' x started hp hl
    have hcapture : History.Still [entered .capturing, Take.clocked started] := ⟨rfl, rfl⟩
    have hlead : (lead setUp started).Still := (hopen.append hp.still).append hcapture
    obtain ⟨hstops, hstarts, hgoing⟩ := hl.going
    have hidle : (s'.taking r).sink.running = 0 := hp.running
    rw [hidle] at hstarts
    rw [stops_append, starts_append, hlead.stops, hlead.starts, hstops]
    refine ⟨rfl, hstarts, fun ended t hx => ?_⟩
    rw [(hgoing ended t hx).starts, hidle]
  cases hr.course with
  | unlooped hu =>
    have hstill : h.Still := by
      cases hu with
      | again => exact ⟨rfl, rfl⟩
      | unprepared _ hp => exact (hopen.append hp.still).append (hclose _)
    refine ⟨hstill.starts ▸ Nat.zero_le 1, ?_, ?_, fun _ => by rw [hstill.starts, hstill.stops]⟩
    · rw [since_of_notOpened hu.notOpened]
      rfl
    · rw [before_of_notOpened hu.notOpened, hstill.stops]
  | unfinished hp hl =>
    have hn := unfinished_notOpened hp hl
    obtain ⟨hstops, hstarts, -⟩ := hloop hp hl
    refine ⟨hstarts, ?_, ?_, fun h => absurd rfl h⟩
    · rw [since_of_notOpened hn]
      rfl
    · rw [before_of_notOpened hn, hstops]
  | @drained setUp loop times back rest last r s' s'' t sink looped timed closed x started nanos
      hp hl ht hb hs hlast =>
    obtain ⟨hstops, hstarts, hrun⟩ := hloop hp hl
    have hrun := hrun looped t rfl
    have hclock : History.Still [Take.clocked nanos] := ⟨rfl, rfl⟩
    have hrest := hs.within.still (by simp)
    have hwatch := hlast.still (by simp)
    obtain ⟨hbackStarts, hbackStops⟩ := hb.stops
    have hbefore : (lead setUp started ++ loop ++ [Take.clocked nanos]).starts =
        t.sink.running := by
      rw [starts_append, hrun, hclock.starts, Nat.add_zero]
    obtain ⟨htimes, hsink⟩ := ht.still
    have hafter : starts (entered .draining :: (times ++ back ++ rest ++ last)) = 0 := by
      have htail : starts (times ++ back ++ rest ++ last) = 0 := by
        simp only [starts_append, htimes.starts, hbackStarts, hrest.starts, hwatch.starts]
      exact htail
    refine ⟨?_, ?_, ?_, fun _ => ?_⟩
    · rw [starts_append, hbefore, hafter]
      exact Sink.running_le_one _
    · rw [since_of_drained nanos _ hp hl, hafter]
    · rw [before_of_drained nanos _ hp hl, stops_append, hstops, hclock.stops]
    -- what the output gives back is the one end of a container
    · have htail : stops (times ++ back ++ rest ++ last) = t.sink.running := by
        simp only [stops_append, htimes.stops, hbackStops, hrest.stops, hwatch.stops, hsink,
          Nat.zero_add, Nat.add_zero]
      rw [starts_append, hbefore, hafter, stops_append, stops_append, hstops, hclock.stops]
      exact (Nat.zero_add _).trans htail

end Session

end Screencast
