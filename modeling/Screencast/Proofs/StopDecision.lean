import Mathlib.Data.List.Chain
import Screencast.Proofs.BuffersReturned
import Screencast.Proofs.ClockReadings
import Screencast.Rehearsal.Obliging

/-!
# When a recording stops

Before each buffer that it asks for, the loop looks at the stop signal and then at the clock. It
asks for no buffer once a look has told it to end, nor behind a buffer that ends the stream, and
there alone it raises the signal itself.

* `Take.Ongoing`: calls of a loop that goes on.
* `Take.Cleared`: what comes before each buffer that is asked for, by `Looped.cleared`.
* `Take.WayOut`: the four ways in which a loop ends, by `Looped.wayOut`.
* `Session.stopped_duly`: the main result.
-/

namespace Screencast

/-- Whether the encoder hands out a buffer that ends the stream. -/
def Exchange.endsStream (e : Exchange) : Bool := e.buffer?.any fun b => b.flags.isEndOfStream

variable {h k : History}

namespace History

variable {parties : List Party}

/-- The stop signal is neither looked at nor raised. -/
def Unsignalled (h : History) : Prop := ∀ e ∈ h, e.party ≠ .signal

@[simp] theorem unsignalled_nil : Unsignalled [] := fun _ he => absurd he List.not_mem_nil

@[simp] theorem unsignalled_cons {e : Exchange} :
    Unsignalled (e :: h) ↔ e.party ≠ .signal ∧ h.Unsignalled := List.forall_mem_cons

@[simp] theorem unsignalled_append : Unsignalled (h ++ k) ↔ h.Unsignalled ∧ k.Unsignalled :=
  List.forall_mem_append

theorem Within.unsignalled (hw : h.Within parties) (hp : Party.signal ∉ parties) :
    h.Unsignalled := fun e he hs => hp (hs ▸ hw e he)

theorem Idle.endsStream (hi : h.Idle) : ∀ e ∈ h, e.endsStream = false := fun e he => by
  rw [Exchange.endsStream, Exchange.buffer?, hi e he]
  rfl

end History

open History

namespace Take

/-- The session raises the stop signal. -/
abbrev raised : Exchange := ⟨.signal .raise, ()⟩

/-- A look at the clock right behind a look at the signal comes in time. -/
def InTime (deadline : Int64) (e next : Exchange) : Prop :=
  e = asked false → ∀ nanos, next = clocked nanos → nanos ≤ deadline

/-- The calls of a loop that goes on: no buffer ends the stream, nobody is seen to have raised the
signal, and each look at the clock that decides comes in time. -/
structure Ongoing (deadline : Int64) (h : History) : Prop where
  unended : ∀ e ∈ h, e.endsStream = false
  unraised : raised ∉ h
  unstopped : asked true ∉ h
  inTime : h.IsChain (InTime deadline)

/-- What comes before a buffer is asked for: a loop that goes on, and last of all a look at the
signal, which is not raised, and one at the clock, which is not beyond the deadline. -/
structure Cleared (deadline : Int64) (h : History) : Prop where
  ongoing : Ongoing deadline h
  checked : ∃ earlier nanos, h = earlier ++ [asked false, clocked nanos] ∧ nanos ≤ deadline

/-- **How a loop ends.** The last buffer that was asked for ends the stream, and the signal is
raised behind it; the signal is found raised; the clock is found beyond the deadline; or the pass
fails that a look at both had cleared. -/
inductive WayOut (deadline : Int64) : History → Outcome Ending → Prop
  | endOfStream {earlier during : History} {nanos : Int64} {b : FilledBuffer}
      (ho : Ongoing deadline earlier) (hn : nanos ≤ deadline) (hb : b.flags.isEndOfStream = true)
      (hi : during.Idle) (hu : during.Unsignalled) :
      WayOut deadline
        (earlier ++ asked false :: clocked nanos :: dequeued (.buffer b) :: (during ++ [raised]))
        (.ok .endOfStream)
  | stopRequested {earlier : History} (ho : Ongoing deadline earlier) :
      WayOut deadline (earlier ++ [asked true]) (.ok .stopRequested)
  | timeLimit {earlier : History} {nanos : Int64} (ho : Ongoing deadline earlier)
      (hn : deadline < nanos) :
      WayOut deadline (earlier ++ [asked false, clocked nanos]) (.ok .timeLimit)
  | failed {earlier during : History} {nanos : Int64} {f : Failure} (ho : Ongoing deadline earlier)
      (hn : nanos ≤ deadline) (hi : Idle during.tail) (hu : during.Unsignalled) :
      WayOut deadline (earlier ++ asked false :: clocked nanos :: during) (.error f)

variable {deadline nanos : Int64} {t t' : Take}

/-! ## A loop that goes on -/

theorem isChain_of_unsignalled (hu : h.Unsignalled) : h.IsChain (InTime deadline) := by
  refine List.Pairwise.isChain (List.pairwise_of_forall_mem_list fun e he next _ ha => ?_)
  exact absurd (ha ▸ rfl) (hu e he)

theorem ongoing_of_unsignalled (hu : h.Unsignalled) (he : ∀ e ∈ h, e.endsStream = false) :
    Ongoing deadline h where
  unended := he
  unraised hr := hu _ hr rfl
  unstopped ha := hu _ ha rfl
  inTime := isChain_of_unsignalled hu

theorem ongoing_nil : Ongoing deadline [] :=
  ongoing_of_unsignalled unsignalled_nil fun _ he => absurd he List.not_mem_nil

/-- A look at the signal and one at the clock let the loop go on, and so do the calls behind them
that look at neither. -/
theorem Ongoing.round (ho : Ongoing deadline h) (hn : nanos ≤ deadline) (hu : k.Unsignalled)
    (he : ∀ e ∈ k, e.endsStream = false) :
    Ongoing deadline (h ++ asked false :: clocked nanos :: k) where
  unended := by
    simp only [List.forall_mem_append, List.forall_mem_cons]
    exact ⟨ho.unended, rfl, rfl, he⟩
  unraised := by
    have hk : raised ∉ k := fun hr => hu _ hr rfl
    simp [ho.unraised, hk]
  unstopped := by
    have hk : asked true ∉ k := fun ha => hu _ ha rfl
    simp [ho.unstopped, hk]
  inTime := by
    have hclock : Unsignalled (clocked nanos :: k) := by simp [Exchange.party, hu]
    refine List.isChain_append.2 ⟨ho.inTime, List.isChain_cons_cons.2 ⟨?_, ?_⟩, ?_⟩
    · rintro - _ hnext
      cases hnext
      exact hn
    · exact isChain_of_unsignalled hclock
    · rintro e - next hnext - _ rfl
      cases hnext

/-! ## One pass -/

/-- One pass, as far as the ways out of the loop go: a buffer is asked for first and no other one,
and the signal is raised last where the buffer ends the stream. -/
inductive Round : History → Outcome Bool → Prop
  | unpolled (f : Failure) : Round [] (.error f)
  | failed {k : History} (answer : Dequeued) (f : Failure) (hi : k.Idle) (hu : k.Unsignalled) :
      Round (dequeued answer :: k) (.error f)
  | moved {k : History} (answer : Dequeued) (ha : (dequeued answer).endsStream = false)
      (hi : k.Idle) (hu : k.Unsignalled) : Round (dequeued answer :: k) (.ok false)
  | ended {k : History} (b : FilledBuffer) (hb : b.flags.isEndOfStream = true) (hi : k.Idle)
      (hu : k.Unsignalled) : Round (dequeued (.buffer b) :: (k ++ [raised])) (.ok true)

/-- The calls on an output and about a sample ask for no buffer and leave the signal alone. -/
theorem Handled.aside {s : Sample} {x : Outcome Unit × Take} (hh : Handled s t h x) :
    h.Idle ∧ h.Unsignalled := by
  have hsignal : Party.signal ≠ t.sink.party := by cases t.sink <;> nofun
  exact ⟨hh.within.idle (by simp), hh.within.unsignalled (by simp [hsignal])⟩

theorem Passed.round {x : Outcome Bool} (hp : Passed t h (x, t')) : Round h x := by
  have hsink : ∀ {format k y}, Sink.Reformatted format t.sink k y → k.Idle ∧ k.Unsignalled := by
    intro format k y hr
    have hsignal : Party.signal ≠ t.sink.party := by cases t.sink <;> nofun
    exact ⟨hr.within.idle (by simp), hr.within.unsignalled (by simp [hsignal])⟩
  cases hp with
  | unpolled hp =>
    cases hp with
    | idle => exact .unpolled _
    | lastKept => exact .failed _ _ (by simp [Exchange.dequeued?]) (by simp [Exchange.party])
    | unknown => exact .failed _ _ (by simp) (by simp)
    | short => exact .failed _ _ (by simp [Exchange.dequeued?]) (by simp [Exchange.party])
    | noFormat => exact .failed _ _ (by simp [Exchange.dequeued?]) (by simp [Exchange.party])
  | broken => exact .failed _ _ (by simp) (by simp)
  | idle => exact .moved _ rfl (by simp) (by simp)
  | ended b hb =>
    exact .ended (k := [_]) b hb.2 (by simp [Exchange.dequeued?]) (by simp [Exchange.party])
  | refreshed =>
    exact .moved _ rfl (by simp [Exchange.dequeued?]) (by simp [Exchange.party])
  | unrefreshed => exact .failed _ _ (by simp [Exchange.dequeued?]) (by simp [Exchange.party])
  | reformatted _ hr =>
    obtain ⟨hi, hu⟩ := hsink hr
    exact .moved _ rfl (by simp [Exchange.dequeued?, hi]) (by simp [Exchange.party, hu])
  | unformatted _ hr =>
    obtain ⟨hi, hu⟩ := hsink hr
    exact .failed _ _ (by simp [Exchange.dequeued?, hi]) (by simp [Exchange.party, hu])
  | unwritten hp hh =>
    obtain ⟨hi, hu⟩ := hh.aside
    cases hp
    exact .failed _ _ (by simp [Exchange.dequeued?, hi]) (by simp [Exchange.party, hu])
  | kept _ hp hh =>
    obtain ⟨hi, hu⟩ := hh.aside
    cases hp
    exact .failed _ _ (by simp [Exchange.dequeued?, hi]) (by simp [Exchange.party, hu])
  | @last _ l s _ hp hh hs =>
    obtain ⟨hi, hu⟩ := hh.aside
    cases hp with
    | data b slot data payload =>
      have hended := Round.ended (k := ⟨.encoder (.readSlot slot), data⟩ :: l ++
        [⟨.encoder (.releaseBuffer b.index), .ok ()⟩]) b hs
        (by simp [Exchange.dequeued?, hi]) (by simp [Exchange.party, hu])
      simpa using hended
  | moved hp hh hs =>
    obtain ⟨hi, hu⟩ := hh.aside
    cases hp
    exact .moved _ hs (by simp [Exchange.dequeued?, hi]) (by simp [Exchange.party, hu])

/-- The one buffer of a pass is asked for right behind the looks at the signal and at the clock. -/
theorem Round.cleared {x : Outcome Bool} (ht : Round k x) (ho : Ongoing deadline h)
    (hn : nanos ≤ deadline) :
    k.OnlyAfter (·.dequeued?.isSome)
      fun earlier => Cleared deadline (h ++ [asked false, clocked nanos] ++ earlier) := by
  have hfirst : Cleared deadline (h ++ [asked false, clocked nanos] ++ []) := by
    rw [List.append_nil]
    exact ⟨ho.round hn unsignalled_nil fun _ he => absurd he List.not_mem_nil, h, nanos, rfl, hn⟩
  have hrest : ∀ {l : History} {P : History → Prop}, l.Idle →
      l.OnlyAfter (·.dequeued?.isSome) P := fun hi =>
    onlyAfter_of_none fun e he => by rw [hi e he]; rfl
  cases ht with
  | unpolled => exact hrest idle_nil
  | failed _ _ hi => exact onlyAfter_cons.2 ⟨fun _ => hfirst, hrest hi⟩
  | moved _ _ hi => exact onlyAfter_cons.2 ⟨fun _ => hfirst, hrest hi⟩
  | ended _ _ hi =>
    exact onlyAfter_cons.2 ⟨fun _ => hfirst, hrest (by simp [hi, Exchange.dequeued?])⟩

theorem Round.ongoing (ht : Round k (.ok false)) (ho : Ongoing deadline h)
    (hn : nanos ≤ deadline) : Ongoing deadline (h ++ asked false :: clocked nanos :: k) := by
  cases ht with
  | moved _ ha hi hu =>
    refine ho.round hn (by simp [Exchange.party, hu]) ?_
    exact List.forall_mem_cons.2 ⟨ha, hi.endsStream⟩

/-! ## The loop -/

/-- **Each buffer is asked for after a look** at the signal and at the clock, in a loop that goes
on. -/
theorem Looped.cleared {r : Option (Outcome Ending × Take)} (hl : Looped deadline t k r)
    (ho : Ongoing deadline h) :
    k.OnlyAfter (·.dequeued?.isSome) fun earlier => Cleared deadline (h ++ earlier) := by
  -- the looks themselves ask for no buffer, and the pass behind them asks for one at most
  have hpass : ∀ {t t' : Take} {h k : History} {x : Outcome Bool} {nanos : Int64},
      Ongoing deadline h → ¬deadline < nanos → Passed t k (x, t') →
      OnlyAfter (·.dequeued?.isSome) (fun earlier => Cleared deadline (h ++ earlier))
        (asked false :: clocked nanos :: k) := by
    intro t t' h k x nanos ho hn hp
    have hturn := hp.round.cleared ho (Int64.not_lt.1 hn)
    refine onlyAfter_cons.2 ⟨nofun, onlyAfter_cons.2 ⟨nofun, hturn.mono fun earlier hc => ?_⟩⟩
    rw [List.append_assoc] at hc
    exact hc
  induction hl generalizing h with
  | spent => exact onlyAfter_of_none (by simp)
  | stopped => exact onlyAfter_of_none (by simp [Exchange.dequeued?])
  | late => exact onlyAfter_of_none (by simp [Exchange.dequeued?])
  | failed _ hn hp => exact hpass ho hn hp
  | ended _ hn hp => exact hpass ho hn hp
  | @next _ _ k l _ nanos hn hp _ ih =>
    have hgone := hp.round.ongoing ho (Int64.not_lt.1 hn)
    rw [← List.cons_append, ← List.cons_append]
    refine onlyAfter_append.2 ⟨hpass ho hn hp, (ih hgone).mono fun earlier hc => ?_⟩
    rw [List.append_assoc] at hc
    exact hc

/-- **The ways out of the loop**, where what went before the loop had let it go on. -/
theorem Looped.wayOut {looped : Outcome Ending} (hl : Looped deadline t k (some (looped, t')))
    (ho : Ongoing deadline h) : WayOut deadline (h ++ k) looped := by
  generalize hr : some (looped, t') = r at hl
  induction hl generalizing h with
  | spent => cases hr
  | stopped =>
    cases hr
    exact .stopRequested ho
  | late _ _ hn =>
    cases hr
    exact .timeLimit ho hn
  | failed _ hn hp =>
    cases hr
    cases hp.round with
    | unpolled => exact .failed ho (Int64.not_lt.1 hn) idle_nil unsignalled_nil
    | failed _ _ hi hu =>
      exact .failed ho (Int64.not_lt.1 hn) hi (by simp [Exchange.party, hu])
  | ended _ hn hp =>
    cases hr
    cases hp.round with
    | ended b hb hi hu => exact .endOfStream ho (Int64.not_lt.1 hn) hb hi hu
  | @next _ _ k l _ nanos hn hp _ ih =>
    have hout := ih (hp.round.ongoing ho (Int64.not_lt.1 hn)) hr
    simpa using hout

end Take

namespace Session

variable {s s' : Session} {result : Option (Outcome Recording × Session)}

/-- What follows the start of a loop. A loop that has ended is followed by calls that ask for no
buffer and leave the signal alone. Its failure is that of the run, and its reason to end is the one
that the recording tells. -/
inductive Followed (deadline : Int64) : History → Option (Outcome Recording × Session) → Prop
  | unfinished (loop : History) : Followed deadline loop none
  | finished {loop after : History} {t t' : Take} {looped : Outcome Ending} {ended : Int64}
      {x : Outcome Recording} {s : Session} (hl : t.Looped deadline loop (some (looped, t')))
      (hh : Take.WayOut deadline loop looped) (hi : after.Idle) (hu : after.Unsignalled)
      (hf : ∀ f, looped = .error f → x = .error f)
      (hr : ∀ recording, x = .ok recording → looped = .ok recording.reason) :
      Followed deadline (loop ++ Take.clocked ended :: entered .draining :: after) (some (x, s))

/-- **How a run stops** that has reached its loop. Its deadline is its time limit behind the time at
which the loop has started, and never later. It is computed in the 64 bits of the clock, which hold
it unless the clock is about to go round. -/
inductive StoppedDuly (s : Session) (h : History)
    (result : Option (Outcome Recording × Session)) : Prop
  | mk {rest : History} (started : Int64)
      (hs : h.since .capturing = entered .capturing :: Take.clocked started :: rest)
      (hd : (started : Int) + s.settings.timeLimit.toNat * 10 ^ 9 < 2 ^ 63 →
        (s.deadline started : Int) = started + s.settings.timeLimit.toNat * 10 ^ 9)
      (hle : (s.deadline started : Int) ≤ started + s.settings.timeLimit.toNat * 10 ^ 9)
      (hi : (h.before .capturing).Idle) (hu : (h.before .capturing).Unsignalled)
      (hc : h.OnlyAfter (·.dequeued?.isSome) (Take.Cleared (s.deadline started)))
      (hf : Followed (s.deadline started) rest result)

theorem Opened.settings_eq {x : Outcome Sink} (ho : Opened s h (x, s')) :
    s'.settings = s.settings := by
  cases ho <;> rfl

theorem Prepared.settings_eq {r : Ready} (hp : Prepared s h (.ok r, s')) :
    s'.settings = s.settings := by
  cases hp with
  | ready _ _ _ _ ho => exact ho.settings_eq

/-- The reason of a recording is the one for which its loop has ended. -/
theorem Settled.reason {settings : Settings} {sink : Sink} {r : Ready} {t : Take}
    {seconds : Double} {looped : Outcome Ending} {timed closed : Outcome Unit}
    {recording : Recording}
    (hs : Settled settings sink (totals sink r t seconds) (verdict looped timed closed) h
      (.ok recording)) : looped = .ok recording.reason := by
  cases hs with
  | concluded hv hc =>
    rw [hc.reason]
    exact (verdict_eq_ok.1 hv).1

/-- The time limit stays as it is set. -/
theorem Prepared.deadline_eq {r : Ready} (hp : Prepared s.begun h (.ok r, s')) :
    s'.deadline = s.deadline := by
  funext started
  rw [deadline, hp.settings_eq]
  rfl

section Looped

variable {setUp loop rest : History} {r : Ready} {started : Int64}

theorem Prepared.unsignalled {x : Outcome Ready × Session} (hp : Prepared s setUp x) :
    setUp.Unsignalled := by
  have hsignal : Party.signal ≠ outlet s.settings := by
    unfold outlet
    split <;> nofun
  exact hp.within.unsignalled (by simp [setUpParties, hsignal])

theorem cleared_of_looped {deadline : Int64} {x : Option (Outcome Ending × Take)}
    (hp : Prepared s setUp (.ok r, s'))
    (hl : (s'.taking r).Looped deadline loop x) (hi : rest.Idle) :
    OnlyAfter (·.dequeued?.isSome) (Take.Cleared deadline)
      (lead setUp started ++ loop ++ rest) := by
  have hidle : ∀ {k : History} {P : History → Prop}, k.Idle →
      k.OnlyAfter (·.dequeued?.isSome) P := fun hi =>
    onlyAfter_of_none fun e he => by rw [hi e he]; rfl
  -- before the loop nothing is asked that could end it
  have hongoing : Take.Ongoing deadline (lead setUp started) :=
    Take.ongoing_of_unsignalled (by simp [lead, hp.unsignalled, Exchange.party])
      (lead_idle hp).endsStream
  exact onlyAfter_append.2
    ⟨onlyAfter_append.2 ⟨hidle (lead_idle hp), hl.cleared hongoing⟩, hidle hi⟩

theorem stoppedDuly_of_looped {x : Option (Outcome Ending × Take)}
    (hp : Prepared s.begun setUp (.ok r, s'))
    (hl : (s'.taking r).Looped (s.deadline started) loop x) (hi : rest.Idle)
    (hf : Followed (s.deadline started) (loop ++ rest) result) :
    StoppedDuly s (lead setUp started ++ (loop ++ rest)) result := by
  obtain ⟨hbefore, hsince⟩ := lead_append hp (loop ++ rest)
  refine .mk started hsince deadline_eq deadline_le ?_ ?_ ?_ hf
  · rw [hbefore]
    exact idle_cons.2 ⟨rfl, hp.idle⟩
  · rw [hbefore]
    exact unsignalled_cons.2 ⟨nofun, hp.unsignalled⟩
  · rw [← List.append_assoc]
    exact cleared_of_looped hp hl hi

end Looped

theorem Ran.stoppedDuly (hr : Ran s h result) (hc : ∃ e ∈ h, e.opens .capturing = true) :
    StoppedDuly s h result := by
  cases hr.course with
  | unlooped hu =>
    have hnot : ∀ e ∈ h, e.opens .capturing = false := hu.notOpened_of_ne nofun nofun
    obtain ⟨e, he, hopen⟩ := hc
    rw [hnot e he] at hopen
    cases hopen
  | @unfinished setUp loop r s' started hp hl =>
    rw [hp.deadline_eq] at hl
    rw [← List.append_nil loop]
    exact stoppedDuly_of_looped hp hl idle_nil (.unfinished _)
  | @drained setUp loop times back rest last r s' s'' t sink looped timed closed x started nanos
      hp hl ht hb hs hlast =>
    rw [hp.deadline_eq] at hl
    have hafter : Idle (times ++ back ++ rest ++ last) := by
      simp [ht.idle, hb.idle, hs.idle, hlast.idle]
    have hsignal : ∀ sink : Sink, Party.signal ≠ sink.party := fun sink => by cases sink <;> nofun
    have hquiet : Unsignalled (times ++ back ++ rest ++ last) := by
      simp only [unsignalled_append]
      exact ⟨⟨⟨ht.within.unsignalled (by simp [hsignal]),
        hb.within.unsignalled (by simp [hsignal])⟩, hs.within.unsignalled (by simp)⟩,
        hlast.unsignalled (by simp)⟩
    have hout := hl.wayOut Take.ongoing_nil
    have hfollowed : Followed (s.deadline started)
        (loop ++ Take.clocked nanos :: entered .draining :: (times ++ back ++ rest ++ last))
        (some (x, s''.ended)) := by
      refine .finished hl hout hafter hquiet ?_ ?_
      · rintro f rfl
        exact hs.of_error
      · rintro recording rfl
        exact hs.reason
    have hh : lead setUp started ++ loop ++ [Take.clocked nanos] ++
        entered .draining :: (times ++ back ++ rest ++ last) = lead setUp started ++
          (loop ++ Take.clocked nanos :: entered .draining :: (times ++ back ++ rest ++ last)) := by
      simp
    rw [hh]
    exact stoppedDuly_of_looped hp hl (idle_cons.2 ⟨rfl, idle_cons.2 ⟨rfl, hafter⟩⟩) hfollowed

/-- **A run stops when it is told to.** In any run that reaches its loop, whatever the clock and the
signal say, each buffer is asked for right behind a look that finds the signal unraised and one that
finds the clock not beyond the deadline, and behind no buffer that ends the stream and no look that
has found otherwise. A loop that ends well has ended at a buffer that ends the stream, behind which
the signal is raised, or at a look that finds the signal raised, whatever the clock says, or at one
that finds the clock beyond the deadline. -/
theorem stopped_duly {settings : Settings} {hasMuxer : Bool} {output : Option Raw} {passes : Nat}
    (hr : (run passes (ofSettings settings hasMuxer output)).Runs h result)
    (hc : ∃ e ∈ h.calls, e.opens .capturing = true) :
    StoppedDuly (ofSettings settings hasMuxer output) h.calls result :=
  (ensures_run passes _ h result hr).stoppedDuly hc

open Rehearsal in
/-- A recording that is told to stop behind its picture, and one whose picture ends the stream. -/
theorem stopped_duly_obliging :
    let p := run 9 (ofSettings .standard true none)
    let told := Obliging.ofEvents [.formatChanged, .buffer ⟨0, 1, 2, 0, .keyFrame⟩]
    let last := Obliging.ofEvents [.formatChanged, .buffer ⟨0, 1, 2, 0, .endOfStream⟩]
    let h := (p.history Obliging.answer told).calls
    let k := (p.history Obliging.answer last).calls
    (h.filterMap Exchange.buffer?).length = 1 ∧
      StoppedDuly (ofSettings .standard true none) h (p.run Obliging.answer told).1 ∧
      k.any Exchange.endsStream = true ∧
      StoppedDuly (ofSettings .standard true none) k (p.run Obliging.answer last).1 := by
  intro p told last h k
  have hopened : h.any (·.opens .capturing) = true := by decide +kernel
  have hopened' : k.any (·.opens .capturing) = true := by decide +kernel
  refine ⟨by decide +kernel, ?_, by decide +kernel, ?_⟩
  · exact stopped_duly (Program.runs_run _ _ _) (List.any_eq_true.1 hopened)
  · exact stopped_duly (Program.runs_run _ _ _) (List.any_eq_true.1 hopened')

end Session

end Screencast
