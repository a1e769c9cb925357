import Screencast.Proofs.StopDecision
import Screencast.Signals

/-!
# Who stops a recording

A session holds one of the stop signals. Others hold signals too, and between any two of its calls
they may make more of them, copy them and raise them. What the session is told of its signal is what
all of them have done by then.

* `Signals.Follows`: what becomes of the signals along a history; `follows_history` for the history
  of a program that is run beside signals.
* `Follows.grown`: what is raised stays raised.
* `Session.stop_noticed`: a session whose signal is raised by any that shares it asks for one more
  buffer at most.
* `Session.stop_shared`: a session that is not stopped by its time limit leaves its signal raised
  for all that share it.
-/

namespace Screencast

open History

namespace Signals

/-- What is done by those who hold signals. Nobody sets a flag back. -/
inductive Act
  | make
  | share (signal : Nat)
  | raise (signal : Nat)

/-- The signals after an act. -/
def act (s : Signals) : Act → Signals
  | .make => s.make
  | .share signal => s.share signal
  | .raise signal => s.raise signal

/-- The signals before and after a history of someone who holds one of them. What is asked about
that signal is answered from what all of them show then. -/
inductive Follows (held : Nat) : Signals → History → Signals → Prop
  | done (s : Signals) : Follows held s [] s
  | act {s s' : Signals} {h : History} (a : Act) (hf : Follows held (s.act a) h s') :
      Follows held s h s'
  | call {s s' : Signals} {h : History} (r : SignalRequest)
      (hf : Follows held (s.answer held r).2 h s') :
      Follows held s (⟨.signal r, (s.answer held r).1⟩ :: h) s'
  | other {s s' : Signals} {h : History} {e : Exchange} (he : e.party ≠ .signal)
      (hf : Follows held s h s') : Follows held s (e :: h) s'

/-- A handler beside signals, of which one is asked about. -/
def beside {σ : Type} (held : Nat) (answer : Program.Handler σ) : Program.Handler (Signals × σ)
  | .signal r, (s, x) => ((s.answer held r).1, (s.answer held r).2, x)
  | r, (s, x) => ((answer r x).1, s, (answer r x).2)

/-- What is raised stays raised, and what shares a flag goes on sharing it. -/
structure Grown (s s' : Signals) : Prop where
  raised : ∀ a, s.isRaised a = true → s'.isRaised a = true
  shared : ∀ a b, s.Shares a b → s'.Shares a b

variable {s s' s'' : Signals} {held a b : Nat} {h : History}

theorem Grown.refl : Grown s s := ⟨fun _ ha => ha, fun _ _ hab => hab⟩

theorem Grown.trans (h₁ : Grown s s') (h₂ : Grown s' s'') : Grown s s'' where
  raised a ha := h₂.raised a (h₁.raised a ha)
  shared a b hab := h₂.shared a b (h₁.shared a b hab)

theorem grown_raise : Grown s (s.raise a) where
  raised _ hb := isRaised_raise.2 (.inr hb)
  shared _ _ hab := shares_store.2 hab

theorem grown_make : Grown s s.make where
  raised _ hb := isRaised_make.trans hb
  shared _ _ hab := shares_make.2 (.inl hab)

theorem grown_share : Grown s (s.share a) where
  raised b hb := by
    have hshown : (s.shown[b]?).isSome := by
      cases ho : s.shown[b]? with
      | none => simp [isRaised, ho] at hb
      | some => rfl
    rwa [isRaised_share, origin_eq hshown]
  shared b c hbc := by
    rwa [shares_share, origin_eq hbc.1, origin_eq (hbc.2 ▸ hbc.1)]

theorem grown_act (a : Act) : Grown s (s.act a) := by
  cases a with
  | make => exact grown_make
  | share => exact grown_share
  | raise => exact grown_raise

theorem grown_answer (r : SignalRequest) : Grown s (s.answer held r).2 := by
  cases r with
  | isRaised => exact .refl
  | raise => exact grown_raise

/-- **What is raised stays raised**, whoever holds a signal of the flag. -/
theorem Follows.grown (hf : Follows held s h s') : Grown s s' := by
  induction hf with
  | done => exact .refl
  | act a _ ih => exact (grown_act a).trans ih
  | call r _ ih => exact (grown_answer r).trans ih
  | other _ _ ih => exact ih

/-- A signal that is raised is never found unraised. -/
theorem Follows.unasked (hf : Follows held s h s') (hs : s.isRaised held = true) :
    Take.asked false ∉ h := by
  induction hf with
  | done => exact List.not_mem_nil
  | act a _ ih => exact ih ((grown_act a).raised held hs)
  | @call s _ _ r _ ih =>
    refine List.not_mem_cons_of_ne_of_not_mem ?_ (ih ((grown_answer r).raised held hs))
    cases r with
    | isRaised =>
      rw [Signals.answer, hs]
      nofun
    | raise => nofun
  | other he _ ih =>
    refine List.not_mem_cons_of_ne_of_not_mem ?_ (ih hs)
    rintro rfl
    exact he rfl

/-- A signal that its holder finds raised, or raises, is raised in the end. -/
theorem Follows.raised (hf : Follows held s h s') (hs : s.Shares held held)
    (hr : Take.asked true ∈ h ∨ Take.raised ∈ h) : s'.isRaised held = true := by
  induction hf with
  | done => simp at hr
  | act a _ ih => exact ih ((grown_act a).shared held held hs) hr
  | @call s _ _ r hf ih =>
    cases r with
    | isRaised =>
      by_cases hnow : s.isRaised held = true
      · exact hf.grown.raised held hnow
      · refine ih hs ?_
        simpa [Signals.answer, hnow] using hr
    | raise => exact hf.grown.raised held (isRaised_raise.2 (.inl hs))
  | @other _ _ h e he _ ih =>
    have hbehind : ∀ {x : Exchange}, x.party = .signal → x ∈ e :: h → x ∈ h := fun hx hmem =>
      (List.mem_cons.1 hmem).resolve_left fun hxe => he (hxe ▸ hx)
    exact ih hs (hr.imp (hbehind rfl) (hbehind rfl))

/-- The lines of the event report leave the signals alone. -/
theorem Follows.calls (hf : Follows held s h s') : Follows held s h.calls s' := by
  induction hf with
  | done => exact .done _
  | act a _ ih => exact .act a ih
  | call r _ ih => exact .call r ih
  | other he _ ih =>
    rw [calls_cons, Exchange.call]
    split
    · exact ih
    all_goals exact .other he ih

/-- **A program that is run beside signals** has a history that they follow. -/
theorem follows_history {α σ : Type} {answer : Program.Handler σ} (p : Program α) (s : Signals)
    (x : σ) :
    Follows held s (p.history (beside held answer) (s, x))
      (p.run (beside held answer) (s, x)).2.1 := by
  induction p generalizing s x with
  | done => exact .done s
  | unfinished => exact .done s
  | ask r next ih =>
    cases r with
    | signal r => exact .call r (ih _ _ _)
    | _ => exact .other nofun (ih _ _ _)

end Signals

/-- A loop that ends well before its deadline finds the signal raised, or raises it. -/
theorem Take.WayOut.signalled {deadline : Int64} {loop : History} {reason : Ending}
    (hw : WayOut deadline loop (.ok reason)) (ht : reason ≠ .timeLimit) :
    asked true ∈ loop ∨ raised ∈ loop := by
  cases hw with
  | endOfStream => exact .inr (by simp)
  | stopRequested => exact .inl (by simp)
  | timeLimit => exact absurd rfl ht

namespace Session

variable {s s' : Session} {signals last : Signals} {held b : Nat} {h before after : History}
  {result : Option (Outcome Recording × Session)}

/-- No more than one buffer is asked for without another look at the signal. -/
theorem Ran.countP_dequeued (hr : Ran s (before ++ after) result)
    (hn : Take.asked false ∉ after) : after.countP (·.dequeued?.isSome) ≤ 1 := by
  obtain ⟨f, s', hu⟩ | hc := hr.unlooped_or_opened
  · have hidle : after.Idle := (idle_append.1 hu.idle).2
    rw [List.countP_eq_zero.2 fun e he => by simp [hidle e he]]
    exact Nat.zero_le 1
  obtain ⟨_, _, _, _, _, _, hcleared, _⟩ := hr.stoppedDuly hc
  refine OnlyAfter.countP_le_one fun earlier e later hh he => ?_
  obtain ⟨looked, nanos, hlooked, -⟩ :=
    ((onlyAfter_append.1 hcleared).2 earlier e later hh he).checked
  -- the look that has let a buffer be asked for was before `after`, but for the clock at most
  rcases List.append_eq_append_iff.1 hlooked with ⟨k, -, rfl⟩ | ⟨k, -, hk⟩
  · simp [hh] at hn
  · intro x hx
    have hmem : x ∈ [Take.asked false, Take.clocked nanos] := hk ▸ List.mem_append_right k hx
    simp only [List.mem_cons, List.not_mem_nil, or_false] at hmem
    rcases hmem with rfl | rfl <;> rfl

/-- A run that ends well before its deadline has found its signal raised, or has raised it. -/
theorem Ran.signalled {recording : Recording} (hr : Ran s h (some (.ok recording, s')))
    (ht : recording.reason ≠ .timeLimit) : Take.asked true ∈ h ∨ Take.raised ∈ h := by
  cases hr.course with
  | drained _ _ _ hl _ _ hs =>
    obtain rfl := hs.reason
    have hout := hl.wayOut Take.ongoing_nil
    rw [List.nil_append] at hout
    rcases hout.signalled ht with ha | hr
    · exact .inl (by simp [ha])
    · exact .inr (by simp [hr])

variable {passes : Nat}

/-- **A stop is noticed before the next pass.** When a signal is raised, a session that holds one of
the same flag never again finds its own unraised, and asks for no more than the buffer of the pass
that it is in. -/
theorem stop_noticed (hr : (run passes s).Runs (before ++ after) result)
    (hs : signals.Shares b held) (hf : (signals.raise b).Follows held after last) :
    Take.asked false ∉ after ∧ after.calls.countP (·.dequeued?.isSome) ≤ 1 := by
  have hraised : (signals.raise b).isRaised held = true := Signals.isRaised_raise.2 (.inl hs)
  have hran : Ran s (before ++ after).calls result := ensures_run passes s _ result hr
  rw [calls_append] at hran
  exact ⟨hf.unasked hraised, hran.countP_dequeued (hf.calls.unasked hraised)⟩

/-- **A session that ends with its stream, or is stopped,** leaves its signal raised for all that
share it. -/
theorem stop_shared {recording : Recording} (hr : (run passes s).Runs h (some (.ok recording, s')))
    (ht : recording.reason ≠ .timeLimit) (hf : signals.Follows held h last)
    (hs : signals.Shares held b) : last.isRaised b = true := by
  have hran : Ran s h.calls (some (.ok recording, s')) := ensures_run passes s _ _ hr
  have hheld : signals.Shares held held := ⟨hs.1, rfl⟩
  rw [← (hf.grown.shared held b hs).isRaised_eq]
  exact hf.calls.raised hheld (hran.signalled ht)

end Session

end Screencast
