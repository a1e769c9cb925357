import Screencast.Proofs.Channel
import Screencast.Proofs.Course

/-!
# What a run conveys

What the loop conveys to an output is all that it gets before the session drains.

* `Session.Kept`: what a channel has got in a run.
* `kept_of_ran`: what it gets in any run.
-/

namespace Screencast.Session

variable {s s' : Session} {h : History} {β : Type} {c : Channel β} {setUp loop : History}
  {r : Ready} {sent lost : List Handout} {part : List β} {started : Int64}

/-- What a channel has got in a whole run. A buffer is lost only where the run fails, and is the
last one that was asked for. -/
structure Kept (c : Channel β) (h : History) (result : Option (Outcome Recording × Session))
    (sent lost : List Handout) (part : List β) : Prop where
  conveyed : c.Conveyed [] (h.before .draining) sent lost part
  idle : (h.since .draining).Idle
  few : lost.length ≤ 1
  whole : lost = [] ∨ ∃ f s', result = some (.error f, s')
  part : part = [] ∨ ∃ o l, lost = [o] ∧ c.due o = some l ∧ part <+: l ∧ part ≠ l
  frames : ∀ recording s', result = some (.ok recording, s') →
    recording.frameCount = UInt64.ofNat (Channel.pictures sent)

theorem Kept.lost_eq_nil {recording : Recording}
    (hk : Kept c h (some (.ok recording, s)) sent lost part) : lost = [] := by
  rcases hk.whole with hl | ⟨f, s', h⟩
  · exact hl
  · cases h

/-- A lost buffer is the last one that was asked for. -/
theorem Kept.failed {β : Type} {c : Channel β} {part : List β}
    (hk : Kept c h result sent lost part) :
    lost = [] ∨ ∃ o f s, lost = [o] ∧ o.rest.Idle ∧ result = some (.error f, s) := by
  rcases hk.whole with rfl | ⟨f, s, hresult⟩
  · exact .inl rfl
  -- the run has failed, and of the buffers that could be lost there is at most one
  have hfew := hk.few
  have hlast := hk.conveyed.last
  obtain _ | ⟨o, _ | ⟨o', lost⟩⟩ := lost
  · exact .inl rfl
  · exact .inr ⟨o, f, s, rfl, hlast o (by simp), hresult⟩
  · simp at hfew

/-- A run that does not come to its loop. -/
theorem kept_of_unlooped {f : Failure} (hu : Unlooped s h f s') :
    Kept c h (some (.error f, s')) [] [] [] where
  conveyed := by
    rw [History.before_of_notOpened hu.notOpened]
    exact Channel.conveyed_nil (by rw [Channel.wantedOf, hu.idle.handouts_eq_nil]; rfl)
      (c.out_quiet hu.quiet)
  idle := by rw [History.since_of_notOpened hu.notOpened]; simp
  few := Nat.zero_le _
  whole := .inl rfl
  part := .inl rfl
  frames := fun _ _ h => by cases h

/-- What the loop conveys has been conveyed when the loop ends, and nothing else. -/
theorem conveyed_of_delivered (started : Int64) {looped : Option (Outcome Ending × Take)}
    (hp : Prepared s setUp (.ok r, s'))
    (hd : c.Delivered (s'.taking r) loop looped sent lost part) :
    c.Conveyed [] (lead setUp started ++ loop) sent lost part := by
  -- the table that the loop begins with is the one that the set-up has fetched
  have hlead : c.Conveyed [] (lead setUp started) [] [] [] :=
    Channel.conveyed_nil (by rw [Channel.wantedOf, (lead_idle hp).handouts_eq_nil]; rfl)
      (c.out_quiet (lead_quiet hp))
  have hall := hlead.append ((lead_table hp).symm ▸ hd.conveyed)
  exact hall

/-- A run whose loop is left unfinished. -/
theorem kept_of_unfinished (hp : Prepared s setUp (.ok r, s'))
    (hl : (s'.taking r).Looped (s'.deadline started) loop none)
    (hd : c.Delivered (s'.taking r) loop (none : Option (Outcome Ending × Take)) sent lost part) :
    Kept c (lead setUp started ++ loop) none sent lost part := by
  have hn := unfinished_notOpened hp hl
  have hlost : lost = [] := hd.whole.resolve_right fun ⟨f, t, h⟩ => by cases h
  refine ⟨?_, ?_, hd.few, .inl hlost, hd.part, fun _ _ h => by cases h⟩
  · rw [History.before_of_notOpened hn]
    exact conveyed_of_delivered started hp hd
  · rw [History.since_of_notOpened hn]
    simp

/-- **What a run conveys** is what its loop conveys. -/
theorem kept_of_ran {result : Option (Outcome Recording × Session)}
    (hserve : ∀ {setUp r s'}, Prepared s.begun setUp (.ok r, s') →
      ∀ sink : Sink, sink.face = r.sink.face → c.Serves sink)
    (hr : Ran s h result) : ∃ sent lost part, Kept c h result sent lost part := by
  cases hr.course with
  | unlooped hu => exact ⟨_, _, _, kept_of_unlooped hu⟩
  | unfinished hp hl =>
    obtain ⟨sent, lost, part, hd⟩ := Channel.delivered_of_looped (hserve hp) hl
    exact ⟨_, _, _, kept_of_unfinished hp hl hd⟩
  | @drained _ _ _ _ _ _ _ _ s'' _ _ _ _ _ x started nanos hp hl ht hb hs hlast =>
    obtain ⟨sent, lost, part, hd⟩ := Channel.delivered_of_looped (hserve hp) hl
    -- the clock is read once more before the phase is entered
    have hall := (conveyed_of_delivered started hp hd).followed
      (k := [Take.clocked nanos]) (by simp [Exchange.dequeued?])
      (c.out_quiet (by simp [Exchange.carries]))
    refine ⟨sent.map (·.andThen [Take.clocked nanos]), lost.map (·.andThen [Take.clocked nanos]),
      part, ?_, ?_, ?_, ?_, ?_, ?_⟩
    · rw [before_of_drained nanos _ hp hl]
      exact hall
    · rw [since_of_drained nanos _ hp hl]
      simp [ht.idle, hb.idle, hs.idle, hlast.idle, Exchange.dequeued?]
    · rw [List.length_map]
      exact hd.few
    · obtain g | recording := x
      · exact .inr ⟨g, _, rfl⟩
      · obtain ⟨⟨reason, rfl⟩, -⟩ := hs.ended
        rw [hd.lost_eq_nil]
        exact .inl rfl
    · rcases hd.part with hpart | ⟨o, l, rfl, hl, hpart⟩
      · exact .inl hpart
      · exact .inr ⟨o.andThen [Take.clocked nanos], l, rfl, c.due_andThen hl, hpart⟩
    · intro recording s₁ h
      obtain ⟨rfl, -⟩ := Prod.mk.inj (Option.some.inj h)
      obtain ⟨⟨reason, rfl⟩, -⟩ := hs.ended
      rw [hs.frames.1, hd.frames reason _ rfl, Channel.pictures_andThen]
      exact congrArg UInt64.ofNat (Nat.zero_add _)

end Screencast.Session
