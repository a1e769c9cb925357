import Screencast.Proofs.Indifference
import Screencast.Proofs.Teardown

/-!
# Which failure a run reports

Once its loop is over a session gives everything back, whatever fails on the way, and then tells of
one failure: that of the loop, or else the first after it by what the call was about.

* `Matter`, `Exchange.fault?`: what a call after the loop is about, and how it has failed.
* `History.FailsAs`: calls that fail in one matter only.
* `foremost`: the end of a run by that of its loop and the calls after it.
* `Reported`: a run that ends in this way.
* `Session.Settled.outcome_eq`: what follows the loop.
* `Session.first_failure_told`: the main result.
-/

namespace Screencast

open History Session

/-- What a call after the loop is about. -/
inductive Matter
  | frameTimes
  | output
  | checksum
  | sidecar
  deriving DecidableEq, Repr

/-- The failure of an outcome. -/
def Outcome.failure? {α : Type} : Outcome α → Option Failure
  | .error f => some f
  | .ok _ => none

/-- How a call after the loop has failed in a matter. What the encoder, the display and the
compositor answer then is about none. -/
def Exchange.fault? : Matter → Exchange → Option Failure
  | .frameTimes, ⟨.muxer (.write _ _ _ _), .error f⟩ => some f
  | .output, ⟨.muxer .stop, .error f⟩ => some f
  | .output, ⟨.stream (.flush _), .error text⟩ =>
    some ⟨.storage, s!"failed to flush output: {text}"⟩
  | .checksum, ⟨.disk (.read _), .error r⟩ =>
    some ⟨.storage, s!"failed to read file for checksum: {r.text}"⟩
  | .sidecar, ⟨.disk (.write _ _), .error r⟩ =>
    some ⟨.storage, s!"failed to write metadata: {r.text}"⟩
  | _, _ => none

namespace History

/-- The first failure in a matter. -/
def fault? (m : Matter) (h : History) : Option Failure := h.findSome? (Exchange.fault? m)

/-- The first failure by what the call was about. -/
def firstFault? (h : History) : Option Failure :=
  [Matter.frameTimes, .output, .checksum, .sidecar].findSome? fun m => h.fault? m

/-- The calls fail in one matter only, and in it as the outcome says. -/
def FailsAs {α : Type} (matter : Matter) (x : Outcome α) (h : History) : Prop :=
  ∀ m, h.fault? m = if m = matter then x.failure? else none

end History

/-- How a run ends whose loop has ended in some way: with the failure of the loop, or else with the
first failure after it by what the call was about, or else as the loop has. -/
def foremost (looped : Outcome Ending) (after : History) : Outcome Ending := do
  let reason ← looped
  match after.firstFault? with
  | some f => .error f
  | none => .ok reason

/-- **A run that reaches its loop, and what it reports.** Its set-up has succeeded. It has no result
while it is in its loop; once the loop has ended in some way the run ends, by this and the calls
after it. -/
inductive Reported (s : Session) (passes : Nat) :
    History → Option (Outcome Recording × Session) → Prop
  | unfinished {setUp loop : History} {r : Ready} {s' : Session} {started : Int64}
      (hp : (prepare s.begun).Runs setUp (some (.ok r, s')))
      (hl : (Take.pump (s'.deadline started) passes (s'.taking r)).Runs loop none) :
      Reported s passes
        (entered .configuring :: setUp ++ entered .capturing :: Take.clocked started :: loop) none
  | ended {setUp loop after : History} {r : Ready} {s' s'' : Session} {t : Take}
      {looped : Outcome Ending} {x : Outcome Recording} {started : Int64} (ended : Int64)
      (hp : (prepare s.begun).Runs setUp (some (.ok r, s')))
      (hl : (Take.pump (s'.deadline started) passes (s'.taking r)).Runs loop (some (looped, t)))
      (hx : x.map Recording.reason = foremost looped after) :
      Reported s passes
        (entered .configuring :: setUp ++ entered .capturing :: Take.clocked started ::
          (loop ++ Take.clocked ended :: entered .draining :: after)) (some (x, s''))

namespace History

variable {h k l : History} {parties : List Party} {m : Matter}

@[simp] theorem fault?_append : fault? m (h ++ k) = (h.fault? m).or (k.fault? m) :=
  List.findSome?_append

/-- Calls with others fail in none of the matters. -/
theorem Within.fault? (hw : h.Within parties)
    (hp : ∀ p ∈ parties, p ∉ [Party.muxer, .stream, .disk]) : h.fault? m = none := by
  rw [History.fault?, List.findSome?_eq_none_iff]
  intro e he
  have hparty := hp _ (hw e he)
  rcases e with ⟨_ | _ | _ | _ | _ | _, answer⟩
  case muxer => exact absurd (by simp [Exchange.party]) hparty
  case stream => exact absurd (by simp [Exchange.party]) hparty
  case disk => exact absurd (by simp [Exchange.party]) hparty
  all_goals cases m <;> rfl

/-- The lines of the event report do not matter. -/
theorem fault?_calls (h : History) : h.calls.fault? m = h.fault? m := by
  induction h with
  | nil => rfl
  | cons e h ih =>
    have he : History.fault? m e.call = History.fault? m [e] := by
      rcases e with ⟨_ | _, _⟩
      case report => cases m <;> rfl
      all_goals rfl
    rw [calls_cons, fault?_append, ih, he, ← fault?_append]
    rfl

theorem firstFault?_calls (h : History) : h.calls.firstFault? = h.firstFault? := by
  simp only [firstFault?, fault?_calls]

theorem firstFault?_eq (h : History) :
    h.firstFault? = (h.fault? .frameTimes).or
      ((h.fault? .output).or ((h.fault? .checksum).or (h.fault? .sidecar))) := by
  simp only [firstFault?, List.findSome?_cons, List.findSome?_nil]
  cases h.fault? .frameTimes <;> cases h.fault? .output <;> cases h.fault? .checksum <;>
    cases h.fault? .sidecar <;> rfl

/-- What fails in none of the matters before the others does not change the first failure. -/
theorem firstFault?_append (hh : ∀ m, h.fault? m = none) :
    firstFault? (h ++ k) = k.firstFault? := by
  simp only [firstFault?, fault?_append, hh, Option.none_or]

theorem firstFault?_append_clean (hk : ∀ m, k.fault? m = none) :
    firstFault? (h ++ k) = h.firstFault? := by
  simp only [firstFault?, fault?_append, hk, Option.or_none]

/-- Where the outcome is no failure nothing has failed. -/
theorem FailsAs.clean {α : Type} {matter : Matter} {x : α}
    (hh : h.FailsAs matter (.ok x : Outcome α)) (m : Matter) : h.fault? m = none := by
  rw [hh m, Outcome.failure?, ite_self]

/-- Calls before and after that fail in none of the matters do not change what the others tell. -/
theorem FailsAs.around {α : Type} {matter : Matter} {x : Outcome α} (hh : h.FailsAs matter x)
    (hl : l.Within parties) (hk : k.Within parties)
    (hp : ∀ p ∈ parties, p ∉ [Party.muxer, .stream, .disk]) :
    (l ++ h ++ k).FailsAs matter x := by
  intro m
  rw [fault?_append, fault?_append, hl.fault? hp, hk.fault? hp, hh m, Option.none_or,
    Option.or_none]

end History

/-- The lines of the event report do not matter. -/
theorem foremost_calls (looped : Outcome Ending) (after : History) :
    foremost looped after.calls = foremost looped after := by
  unfold foremost
  rw [firstFault?_calls]

theorem foremost_ok (reason : Ending) (after : History) :
    foremost (.ok reason) after =
      match after.firstFault? with
      | some f => .error f
      | none => .ok reason := rfl

/-! ## What the calls after the loop tell -/

section After

variable {h : History} {sink sink' : Sink} {x : Outcome Unit}

/-- The record of the frame times fails at the call that writes it. -/
theorem Session.Stamped.failsAs {log : FrameTimes.Log} (hs : Session.Stamped log sink h (x, sink'))
    (ht : sink.keepsTimes = true → ∃ m, Timestamped m log h) :
    h.FailsAs .frameTimes x := by
  intro matter
  cases hs with
  | unkept => cases matter <;> rfl
  | kept _ _ hk hs =>
    cases hs with
    | raw => cases matter <;> rfl
    | muxed hs =>
      obtain ⟨_, htimes⟩ := ht hk
      cases hs with
      | nothing => cases matter <;> rfl
      | wrote track first _ hfirst hw =>
        cases hw with
        | handed => cases matter <;> cases x <;> rfl
        | refused _ _ hs =>
          -- a container with frames was started
          cases htimes with
          | nothing _ _ hnone =>
            rw [FrameTimes.Log.first?, hnone] at hfirst
            cases hfirst

/-- An output that cannot be finished fails at its one call. -/
theorem Sink.Closed.failsAs (hc : sink.Closed h (x, sink')) : h.FailsAs .output x := by
  intro matter
  cases hc with
  | stopped => cases matter <;> cases x <;> rfl
  | unstarted => cases matter <;> rfl
  | raw hc =>
    cases hc with
    | again => cases matter <;> rfl
    | callback => cases matter <;> rfl
    | flushed => cases matter <;> rfl
    | unflushed _ _ _ hf => subst hf; cases matter <;> rfl

/-- Whatever the compositor and the encoder answer, only the output tells. -/
theorem Session.GivenBack.failsAs {s s' : Session} (hb : GivenBack s sink h (x, s')) :
    h.FailsAs .output x := by
  obtain ⟨hs, hc⟩ := hb
  have hparties : ∀ p ∈ [Party.capture, .encoder], p ∉ [Party.muxer, .stream, .disk] := by decide
  have hbefore : Within [.capture, .encoder] (s.capture.closing ++ _) :=
    within_append.2 ⟨Capture.closing_within.mono (by simp), hs.within.mono (by simp)⟩
  exact hc.failsAs.around hbefore (Encoder.freeing_within.mono (by simp)) hparties

theorem Session.Digested.failsAs {x : Outcome (Option String)} (hd : Digested sink h x) :
    h.FailsAs .checksum x := by
  intro matter
  cases hd with
  | nothing => cases matter <;> rfl
  | read => cases matter <;> rfl
  | unread _ _ _ hf => subst hf; cases matter <;> rfl

theorem Session.Saved.failsAs {settings : Settings} {d : Description}
    (hs : Saved settings sink d h x) : h.FailsAs .sidecar x := by
  intro matter
  cases hs with
  | nowhere => cases matter <;> rfl
  | written => cases matter <;> rfl
  | refused _ _ _ hf => subst hf; cases matter <;> rfl

/-- The conclusion of a recording tells of the digest, or else of the description beside it. -/
theorem Session.Concluded.failure? {settings : Settings} {totals : Option String → Totals}
    {x : Outcome Recording} (hc : Concluded settings sink totals h x) :
    x.failure? = h.firstFault? := by
  have hidentity : ∀ (identity : Identity) (k : History),
      firstFault? (⟨.identity, identity⟩ :: k) = k.firstFault? := fun _ _ => rfl
  cases hc with
  | undigested hd =>
    rw [firstFault?_eq, hd.failsAs, hd.failsAs, hd.failsAs, hd.failsAs]
    rfl
  | unsaved identity hd hs =>
    rw [firstFault?_append hd.failsAs.clean, hidentity, firstFault?_eq, hs.failsAs, hs.failsAs,
      hs.failsAs, hs.failsAs]
    rfl
  | done identity hd hs =>
    rw [firstFault?_append hd.failsAs.clean, hidentity, firstFault?_eq, hs.failsAs, hs.failsAs,
      hs.failsAs, hs.failsAs]
    rfl

end After

/-- **What a session reports** once everything is given back. -/
theorem Session.Settled.outcome_eq {settings : Settings} {sink : Sink} {r : Ready} {t : Take}
    {seconds : Double} {times back rest last : History} {looped : Outcome Ending}
    {timed closed : Outcome Unit} {x : Outcome Recording} (ht : times.FailsAs .frameTimes timed)
    (hb : back.FailsAs .output closed)
    (hs : Settled settings sink (totals sink r t seconds) (verdict looped timed closed) rest x)
    (hlast : last.Within [.watcher]) :
    x.map Recording.reason = foremost looped (times ++ back ++ rest ++ last) := by
  have hlast : ∀ m, last.fault? m = none := fun m => hlast.fault? (by decide)
  cases hs with
  | @failed f hv =>
    obtain _ | reason := looped
    · cases hv
      rfl
    have hfirst : firstFault? (times ++ back ++ [] ++ last) =
        timed.failure?.or closed.failure? := by
      rw [firstFault?_append_clean hlast, List.append_nil, firstFault?_eq]
      simp only [fault?_append, ht _, hb _]
      cases timed <;> cases closed <;> rfl
    obtain f | _ := timed
    · cases hv
      rw [foremost_ok, hfirst]
      rfl
    obtain f | _ := closed
    · cases hv
      rw [foremost_ok, hfirst]
      rfl
    cases hv
  | @concluded _ reason _ hv hc =>
    obtain ⟨rfl, rfl, rfl⟩ := verdict_eq_ok.1 hv
    have hfirst : firstFault? (times ++ back ++ rest ++ last) = x.failure? := by
      rw [firstFault?_append_clean hlast, List.append_assoc, firstFault?_append ht.clean,
        firstFault?_append hb.clean, hc.failure?]
    rw [foremost_ok, hfirst]
    cases x with
    | error f => rfl
    | ok recording => exact congrArg Except.ok hc.reason

/-! ## The whole run -/

namespace Session

variable {s s' : Session} {h : History} {passes : Nat} {supply : Option Supply}

/-- The frame times are written at one call where an output keeps them. -/
theorem timestamped {setUp loop times : History} {r : Ready} {t : Take} {sink : Sink}
    {looped : Outcome Ending} {timed : Outcome Unit} {started : Int64}
    (hp : Prepared s.begun setUp (.ok r, s'))
    (hl : (s'.taking r).Looped (s'.deadline started) loop (some (looped, t)))
    (ht : Stamped t.times t.sink times (timed, sink)) (hk : t.sink.keepsTimes = true) :
    ∃ m, Timestamped m t.times times := by
  by_cases hf : s.settings.format = .mp4
  · obtain ⟨m, -, -, -, hstamped, -⟩ := timestamped_of_drained hf hp hl ht
    exact ⟨m, hstamped⟩
  · have hunkept := (stamped_unkept hf hp hl ht).2
    rw [Sink.keepsTimes_of_face ht.face_eq, hk] at hunkept
    cases hunkept

/-- **A run that reaches its loop** tells of the foremost failure, and gives everything back before
it ends. -/
theorem reported_of_runs {y : Option (Outcome Recording × Session)}
    (hr : (run passes s).Runs h y) (hn : s.hasRun = false)
    (hout : s.output = supply.map Supply.raw) (ho : ∃ e ∈ h.calls, e.opens .capturing = true) :
    Reported s passes h y ∧ (y.isSome → TornDown s.settings supply h.calls) := by
  obtain ⟨l, last, y, rfl, hl, hnone, hlast, ho, rfl⟩ := runs_run_of_opened hr hn ho
  obtain ⟨setUp, m, r, t, rfl, hset, hm, -⟩ := runs_perform hl ho
  have hp : Prepared s.begun setUp.calls (.ok r, t) := ends_prepare _ _ _ hset
  cases around_of_runs hm with
  | unfinished hloop =>
    rw [hnone rfl, List.append_nil]
    exact ⟨.unfinished hset hloop, nofun⟩
  | @ended loop after looped t' started z ended hloop hw =>
    have hlooped : (t.taking r).Looped (t.deadline started) loop.calls (some (looped, t')) :=
      Take.ensures_pump _ passes _ _ _ hloop
    generalize htail : Take.clocked ended :: entered .draining :: after.calls = tail at hw
    cases hw with
    | @mk times back rest s'' sink timed closed x nanos ht hb hs =>
      obtain ⟨-, htail⟩ := List.cons.inj htail
      obtain ⟨-, hafter⟩ := List.cons.inj htail
      have hcalls : calls (after ++ last) = times ++ back ++ rest ++ last.calls := by
        rw [calls_append, hafter]
        rfl
      have hh : entered .configuring :: (setUp ++ entered .capturing :: Take.clocked started ::
          (loop ++ Take.clocked ended :: entered .draining :: after) ++ last) =
            entered .configuring :: setUp ++ entered .capturing :: Take.clocked started ::
              (loop ++ Take.clocked ended :: entered .draining :: (after ++ last)) := by
        simp
      rw [hh]
      constructor
      · have hreport := hs.outcome_eq (ht.failsAs (timestamped hp hlooped ht)) hb.failsAs hlast
        rw [← hcalls, foremost_calls] at hreport
        exact .ended ended hset hloop hreport
      · intro _
        have htorn := (tornDown_of_drained hout ended hp hlooped ht hb hs.within hlast).1
        rw [← hcalls, ← calls_of_ended] at htorn
        exact htorn

/-- **A run reports the first cause of its failure.** A session whose run reaches its loop reports
the failure of the loop. Where the loop has ended well it reports that of the record of the frame
times, or else that of finishing the output, or else that of the digest, or else that of the
description, or else it ends well. By then everything has been given back, whatever has failed.
Any other run that answers the same is reported the same, but for the identity of the description:
what the encoder answers to its stop, and what the display and the compositor answer in the loop and
after it, makes no difference. -/
theorem first_failure_told {settings : Settings} {hasMuxer : Bool}
    {x : Option (Outcome Recording × Session)}
    (hr : (run passes (ofSettings settings hasMuxer (supply.map Supply.raw))).Runs h x)
    (ho : ∃ e ∈ h.calls, e.opens .capturing = true) :
    Reported (ofSettings settings hasMuxer (supply.map Supply.raw)) passes h x ∧
      (x.isSome → TornDown settings supply h.calls) ∧
      ∀ k y, (run passes (ofSettings settings hasMuxer (supply.map Supply.raw))).Runs k y →
        (∃ e ∈ k.calls, e.opens .capturing = true) →
        (h.calls.before .capturing).only .display = (k.calls.before .capturing).only .display →
        ¬Forked h.steering k.steering →
          Option.Rel (Action.Agreed Recording.Renamed Turned) x y := by
  obtain ⟨hreported, htorn⟩ := reported_of_runs hr rfl rfl ho
  refine ⟨hreported, htorn, fun k y hk ho' hd hn => ?_⟩
  exact ((alike_run hr hk rfl ho ho' hd).resolve_left hn).2

open Rehearsal in
/-- A device that finishes no container: its recording fails there, and so it does where the encoder
is not stopped and the display is turned and lost. -/
theorem first_failure_told_obliging :
    let s := ofSettings .standard true ((none : Option Supply).map Supply.raw)
    let device := Obliging.ofEvents [.formatChanged, .buffer ⟨0, 1, 2, 0, .empty⟩,
      .buffer ⟨1, 0, 4, 7, .keyFrame⟩]
    let h := (run 9 s).history (Obliging.unfinishing Obliging.answerUnstoppable) device
    let x := ((run 9 s).run (Obliging.unfinishing Obliging.answerUnstoppable) device).1
    let y := ((run 9 s).run (Obliging.unfinishing Obliging.answerTurning) device).1
    x.map Prod.fst = some (.error Obliging.noRoom) ∧ Reported s 9 h x ∧
      TornDown .standard none h.calls ∧
        Option.Rel (Action.Agreed Recording.Renamed Turned) x y := by
  intro s device h x y
  have hopened : ∃ e ∈ h.calls, e.opens .capturing = true := by decide +kernel
  have htold := first_failure_told (Program.runs_run _ _ _) hopened
  refine ⟨by decide +kernel, htold.1, htold.2.1 (by decide +kernel), ?_⟩
  exact htold.2.2 _ y (Program.runs_run _ _ _) (by decide +kernel) (by decide +kernel)
    (by decide +kernel)

end Session

end Screencast
