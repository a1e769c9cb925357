import Screencast.Proofs.Course

/-!
# The parts of a run

A run of a session taken apart, exchange by exchange: the runs of its set-up and of its loop, and
what comes before and after them. `Session.Course` tells what calls these parts make; here they are
runs of the parts themselves, so that two of them can be compared and their results be told.

* `Session.runs_run_of_opened`: the recording between the notices of a run.
* `Session.runs_perform`: the set-up of a recording that reaches its loop.
* `Session.runs_prepare_ok`: the look at the display, and what is acquired after it.
* `Session.Around`: the loop of a recording and what follows it.
-/

namespace Screencast.Session

open History Program

variable {s s' t : Session} {h : History} {r : Ready} {passes : Nat}

/-! ## The set-up -/

/-- An action that succeeds is followed by nothing. -/
theorem runs_orAbandon_ok {α : Type} {a : Action Session α} {x : α}
    (hr : (orAbandon a s).Runs h (some (.ok x, t))) : (a s).Runs h (some (.ok x, t)) := by
  obtain ⟨h₁, h₂, r, v, rfl, hrun, hrest⟩ := Action.runs_bind_ok hr
  cases r with
  | error f =>
    obtain ⟨_, _, _, _, -, -, hfail⟩ := Action.runs_bind_ok hrest
    obtain ⟨-, hx⟩ := runs_done_iff.1 hfail
    cases hx
  | ok y =>
    obtain ⟨rfl, hx⟩ := runs_done_iff.1 hrest
    cases hx
    rw [List.append_nil]
    exact Action.runs_outcome_ok hrun

/-- The set-up from the look at the display on. -/
def acquire (settings : Settings) (seen : Geometry × Single) : Action Session Ready := do
  let (surface, size) ←
    onEncoder (Encoder.configureOrShrink settings (requested settings seen.1) seen.2)
  let _ ← orAbandon (onCapture (Capture.start surface seen.1 size settings.rotate))
  let sink ← orAbandon openOutput
  return { sink, size, frameRate := seen.2 }

/-- A set-up that succeeds is a look at the display that does, and what is acquired for it. -/
theorem runs_prepare_ok (hr : (prepare s).Runs h (some (.ok r, t))) :
    ∃ l k seen, h = l ++ k ∧ Inspected s.settings l.calls (.ok seen) ∧
      (acquire s.settings seen s).Runs k (some (.ok r, t)) := by
  have hprepare : prepare s = (Action.attempt (pure s.settings.check) >>= fun _ =>
    inspectDisplay >>= acquire s.settings) s := rfl
  rw [hprepare] at hr
  obtain ⟨_, h, _, s', rfl, hcheck, hrest⟩ := Action.runs_bind_ok hr
  obtain ⟨rfl, hs⟩ := runs_done_iff.1 hcheck
  obtain ⟨-, rfl⟩ := Prod.mk.inj (Option.some.inj hs)
  obtain ⟨l, k, seen, s'', rfl, hlook, hacquire⟩ := Action.runs_bind_ok hrest
  obtain ⟨rfl, hl⟩ := ends_inspectDisplay _ l _ hlook
  exact ⟨l, k, seen, rfl, hl, hacquire⟩

variable {x : Option (Outcome Recording × Session)}

/-! ## The recording -/

/-- The calls of a recording before its capturing are those of its set-up. -/
theorem runs_perform (hr : (perform passes s).Runs h x)
    (ho : ∃ e ∈ h.calls, e.opens .capturing = true) :
    ∃ l k r t, h = l ++ k ∧ (prepare s).Runs l (some (.ok r, t)) ∧
      (record passes r t).Runs k x ∧ h.calls.before .capturing = l.calls := by
  have hset : ∀ {l y}, (prepare s).Runs l (some y) →
      ∀ e ∈ l.calls, e.opens .capturing = false := fun hl =>
    (ends_prepare s _ _ hl : Prepared s _ _).within.notOpened (by simp [setUpParties])
  obtain ⟨e, he, hopen⟩ := ho
  rcases runs_bind_iff.1 hr with ⟨hl, -⟩ | ⟨l, k, ⟨f | r, t⟩, rfl, hl, hk⟩
  · exact (ends_prepare s _ _ hl).elim
  · obtain ⟨rfl, -⟩ := runs_done_iff.1 hk
    rw [List.append_nil] at he
    rw [hset hl e he] at hopen
    cases hopen
  · obtain ⟨_, k, rfl, -⟩ := runs_ask_iff.1 hk
    refine ⟨l, _, r, t, rfl, hl, hk, ?_⟩
    rw [calls_append, calls_cons]
    exact before_append (hset hl) (by simp [Exchange.opens])

/-- A recording around the run of its loop. -/
inductive Around (s : Session) (passes : Nat) (r : Ready) :
    History → Option (Outcome Recording × Session) → Prop
  | unfinished {loop : History} {started : Int64}
      (hl : (Take.pump (s.deadline started) passes (s.taking r)).Runs loop none) :
      Around s passes r (entered .capturing :: Take.clocked started :: loop) none
  | ended {loop after : History} {looped : Outcome Ending} {t : Take} {started : Int64}
      {z : Outcome Recording × Session} (ended : Int64)
      (hl : (Take.pump (s.deadline started) passes (s.taking r)).Runs loop (some (looped, t)))
      (hw : WoundUp s r started looped t
        (Take.clocked ended :: entered .draining :: after.calls) z) :
      Around s passes r (entered .capturing :: Take.clocked started ::
        (loop ++ Take.clocked ended :: entered .draining :: after)) (some z)

theorem around_of_runs {r : Ready} {y : Option (Outcome Recording × Session)}
    (hr : (record passes r s).Runs h y) : Around s passes r h y := by
  rw [record_apply] at hr
  obtain ⟨_, k, rfl, hk⟩ := Program.runs_ask_iff.1 hr
  obtain ⟨started, m, rfl, hm⟩ := Program.runs_ask_iff.1 hk
  rcases Program.runs_bind_iff.1 hm with ⟨hl, rfl⟩ | ⟨loop, rest, ⟨looped, t⟩, rfl, hl, hrest⟩
  · exact .unfinished hl
  · have hw := ends_windUp r started looped t s _ _ hrest
    obtain ⟨ended, _, rfl, hentry⟩ := Program.runs_ask_iff.1 hrest
    obtain ⟨_, after, rfl, -⟩ := Program.runs_ask_iff.1 hentry
    cases y with
    | none => exact hw.elim
    | some z => exact .ended ended hl hw

/-- The calls of a run whose loop has ended. -/
theorem calls_of_ended (setUp loop after : History) (started ended : Int64) :
    calls (entered .configuring :: setUp ++ entered .capturing :: Take.clocked started ::
      (loop ++ Take.clocked ended :: entered .draining :: after)) =
        lead setUp.calls started ++ loop.calls ++ [Take.clocked ended] ++
          entered .draining :: after.calls := by
  simp [calls_cons, calls_append, Exchange.call, lead]

/-! ## The run -/

/-- The notices at the end of a run. -/
def announce (result : Outcome Recording) : Action Session Recording := do
  enter .stopped
  match result with
  | .ok recording =>
    notify (.finished recording)
    return recording
  | .error f =>
    report .error s!"recording failed: {f.message}"
    notify (.failed f)
    Action.fail f

theorem ends_announce (result : Outcome Recording) (s : Session) :
    (announce result s).Ends fun h r =>
      h.Within [.watcher] ∧ (∀ e ∈ h, e.opens .capturing = false) ∧ r = (result, s.ended) := by
  unfold announce
  cases result <;>
    simp only [enter, notify, Program.request, Action.ensures_bind, Action.ensures_modify,
      Action.ensures_lift, Program.ensures_ask, Program.ensures_done, Program.ensures_report,
      Exchange.call, Option.map_some, Action.after_ok, Action.ensures_pure, Action.ensures_fail,
      List.nil_append, List.append_nil] <;>
    simp [Exchange.party, Exchange.opens, ended]

/-- A run is a recording between notices. -/
theorem runs_run_of_new (hr : (run passes s).Runs h x) (hn : s.hasRun = false) :
    ∃ (l k : History) (y : _), h = entered .configuring :: (l ++ k) ∧
      (perform passes s.begun).Runs l y ∧ (y = none → k = []) ∧ k.calls.Within [.watcher] ∧
        (∀ e ∈ k.calls, e.opens .capturing = false) ∧ x = y.map fun r => (r.1, r.2.ended) := by
  have hrun : run passes s = .ask (.notify (.phase .configuring)) fun _ =>
      perform passes s.begun >>= fun r => announce r.1 r.2 := by
    have hcond : run passes s = (if s.hasRun then
        Action.fail ⟨.settings, "session has already run"⟩ else do
          modify ({ · with hasRun := true })
          enter .configuring
          let result ← (perform passes).outcome
          announce result) s := rfl
    have hbegun : run passes s = .ask (.notify (.phase .configuring)) fun _ =>
        (perform passes).outcome s.begun >>= Action.continue? announce := by
      rw [hcond, if_neg (by simp [hn])]
      rfl
    rw [hbegun]
    simp only [Action.outcome_apply, bind_assoc, done_bind, Action.continue?_ok]
  rw [hrun] at hr
  obtain ⟨_, m, rfl, hm⟩ := runs_ask_iff.1 hr
  rcases runs_bind_iff.1 hm with ⟨hl, rfl⟩ | ⟨l, k, r, rfl, hl, hk⟩
  · exact ⟨m, [], none, by rw [List.append_nil], hl, fun _ => rfl, within_nil,
      fun e he => absurd he List.not_mem_nil, rfl⟩
  · have hend := ends_announce r.1 r.2 k x hk
    cases x with
    | none => exact hend.elim
    | some x =>
      obtain ⟨hw, hnone, rfl⟩ := hend
      exact ⟨l, k, some r, rfl, hl, nofun, hw, hnone, rfl⟩

/-- A run that reaches its loop is a recording that does, between notices. -/
theorem runs_run_of_opened (hr : (run passes s).Runs h x) (hn : s.hasRun = false)
    (ho : ∃ e ∈ h.calls, e.opens .capturing = true) :
    ∃ (l k : History) (y : _), h = entered .configuring :: (l ++ k) ∧
      (perform passes s.begun).Runs l y ∧ (y = none → k = []) ∧ k.calls.Within [.watcher] ∧
        (∃ e ∈ l.calls, e.opens .capturing = true) ∧ x = y.map fun r => (r.1, r.2.ended) := by
  obtain ⟨l, k, y, rfl, hl, hnone, hw, hk, rfl⟩ := runs_run_of_new hr hn
  refine ⟨l, k, y, rfl, hl, hnone, hw, ?_, rfl⟩
  have hcalls : calls (entered .configuring :: (l ++ k)) =
      entered .configuring :: (l.calls ++ k.calls) := by
    rw [calls_cons, calls_append]
    rfl
  rw [hcalls] at ho
  obtain ⟨e, he, hopen⟩ := ho
  rcases List.mem_cons.1 he with rfl | he
  · cases hopen
  · rcases List.mem_append.1 he with he | he
    · exact ⟨e, he, hopen⟩
    · rw [hk e he] at hopen
      cases hopen

end Screencast.Session
