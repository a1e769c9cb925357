import Screencast.Proofs.Conduct.EncoderUse
import Screencast.Proofs.Tenures

/-!
# The episodes of an encoder

An encoder lives in episodes. Each of them is opened by a configuration and closed by a release, and
only one that was set up in full is asked for output and stopped. That order is kept whatever is done
to the encoder and whatever it refuses.

* `Encoder.Opened`: the calls of an episode that is still open, by the encoder's state.
* `Encoder.Episode`: the calls of one that is over.
* `Encoder.Lifecycle`: the episodes so far; kept by a move (`Lifecycle.move`) and so by any number.
* `Encoder.lifecycle_kept`: any use of an encoder.
-/

namespace Screencast.Encoder

open History

/-- **The calls since the last release**, some of which may be asides. Before a configuration there
is no other call. A running encoder has been set up in full and asked for its output since; a stop
is the last call but for asides. -/
inductive Opened : State → History → Prop
  | waiting {asides : History} (ha : ∀ x ∈ asides, x.isAside) : Opened .unconfigured asides
  | running {asides served : History} (params : EncoderSettings) (persistent : Bool)
      (surface : Surface) (table : List Slot) (ha : ∀ x ∈ asides, x.isAside)
      (hs : ∀ x ∈ served, x.isAside ∨ x.asksOutput) :
      Opened .running (asides ++ granted params persistent surface table ++ served)
  | stopped {h rest : History} (answer : Outcome Unit) (ho : Opened .running h)
      (hr : ∀ x ∈ rest, x.isAside) : Opened .stopped (h ++ ⟨.encoder .stop, answer⟩ :: rest)

/-- **An episode that is over.** It was opened by a configuration, and its last call is the only
release. Either the set-up was refused at one of its calls, or it was granted. -/
inductive Episode : History → Prop
  | refused {asides setUp : History} {params : EncoderSettings} {persistent : Bool} {f : Failure}
      (ha : ∀ x ∈ asides, x.isAside) (hr : Refused params persistent setUp f) :
      Episode (asides ++ setUp ++ [⟨.encoder .release, ()⟩])
  | ended {h : History} {state : State} (ho : Opened state h) (hs : state ≠ .unconfigured) :
      Episode (h ++ [⟨.encoder .release, ()⟩])

/-- The episodes so far: those that are over, and what was called since. -/
inductive Lifecycle (state : State) : History → Prop
  | mk {episodes : List History} {last : History} (he : ∀ h ∈ episodes, Episode h)
      (ho : Opened state last) : Lifecycle state (episodes.flatten ++ last)

variable {e e' : Encoder} {h k : History} {state : State}

/-- An aside changes nothing. -/
theorem Opened.aside {x : Exchange} (ho : Opened state h) (hx : x.isAside) :
    Opened state (h ++ [x]) := by
  cases ho with
  | waiting ha => exact .waiting (List.forall_mem_append.2 ⟨ha, by simpa using hx⟩)
  | running params persistent surface table ha hs =>
    rw [List.append_assoc]
    exact .running params persistent surface table ha
      (List.forall_mem_append.2 ⟨hs, by simpa using .inl hx⟩)
  | stopped answer ho hr =>
    rw [List.append_assoc, List.cons_append]
    exact .stopped answer ho (List.forall_mem_append.2 ⟨hr, by simpa using hx⟩)

theorem Opened.asked {x : Exchange} (ho : Opened .running h) (hx : x.asksOutput) :
    Opened .running (h ++ [x]) := by
  cases ho with
  | running params persistent surface table ha hs =>
    rw [List.append_assoc]
    exact .running params persistent surface table ha
      (List.forall_mem_append.2 ⟨hs, by simpa using .inr hx⟩)

/-- More is called in the episode that is open. -/
theorem Lifecycle.more {state' : State} (hl : Lifecycle state h)
    (hk : ∀ {last}, Opened state last → Opened state' (last ++ k)) :
    Lifecycle state' (h ++ k) := by
  obtain ⟨he, ho⟩ := hl
  rw [List.append_assoc]
  exact .mk he (hk ho)

/-- The episode that is open is closed. -/
theorem Lifecycle.closed (hl : Lifecycle state h)
    (hk : ∀ {last}, Opened state last → Episode (last ++ k)) : Lifecycle .unconfigured (h ++ k) := by
  obtain @⟨episodes, last, he, ho⟩ := hl
  have hflat : episodes.flatten ++ last ++ k = (episodes ++ [last ++ k]).flatten ++ [] := by
    simp [List.append_assoc]
  rw [hflat]
  refine .mk (List.forall_mem_append.2 ⟨he, ?_⟩) (.waiting (by simp))
  simpa using hk ho

/-- **A move keeps the order.** -/
theorem Lifecycle.move (hl : Lifecycle e.state h) (hm : Move e k e') :
    Lifecycle e'.state (h ++ k) := by
  cases hm with
  | granted params persistent surface table he =>
    rw [he] at hl
    refine hl.more fun ho => ?_
    cases ho with
    | waiting ha =>
      have hserved : ∀ x ∈ ([] : History), x.isAside ∨ x.asksOutput := by simp
      have hopened := Opened.running params persistent surface table ha hserved
      rwa [List.append_nil] at hopened
  | refused he hr =>
    rw [he] at hl
    refine hl.closed fun ho => ?_
    cases ho with
    | waiting ha =>
      rw [← List.append_assoc]
      exact .refused ha hr
  | asked x he hx =>
    rw [he] at hl ⊢
    exact hl.more fun ho => ho.asked hx
  | aside x table hx => exact hl.more fun ho => ho.aside hx
  | stopped answer he =>
    rw [he] at hl
    exact hl.more fun ho => .stopped answer ho (by simp)
  | released he => exact hl.closed fun ho => .ended ho he

/-- An encoder is set up in full or not at all, and has a surface exactly while it is set up. -/
structure Whole (e : Encoder) : Prop where
  state : e.state ≠ .configured
  surface : e.surface.isSome ↔ e.state = .running ∨ e.state = .stopped

theorem Move.whole (hm : Move e h e') (hw : e.Whole) : e'.Whole := by
  obtain ⟨hstate, hsurface⟩ := hw
  cases hm with
  | granted => exact ⟨nofun, by simp⟩
  | refused he =>
    rw [he] at hsurface
    exact ⟨nofun, by simpa using hsurface⟩
  | asked => exact ⟨hstate, hsurface⟩
  | aside => exact ⟨hstate, hsurface⟩
  | stopped answer he =>
    rw [he] at hsurface
    exact ⟨nofun, by simpa using hsurface⟩
  | released => exact ⟨nofun, by simp⟩

/-- **Moves keep the order**, and the encoder whole. -/
theorem Moves.kept (hm : Moves e k e') (hl : Lifecycle e.state h) (hw : e.Whole) :
    Lifecycle e'.state (h ++ k) ∧ e'.Whole := by
  induction hm generalizing h with
  | none =>
    rw [List.append_nil]
    exact ⟨hl, hw⟩
  | more hm _ ih =>
    rw [← List.append_assoc]
    exact ih (hl.move hm) (hm.whole hw)

/-! ## A set-up that fails -/

variable {s : Settings} {size : FrameSize} {frameRate : Single} {f : Failure}

/-- An encoder that could not be set up is as it was, but for its buffer table. -/
theorem Configured.unchanged (hc : Configured s size frameRate e h (.error f, e'))
    (he : e.state = .unconfigured) : e' = { e with table := [] } := by
  cases hc with
  | busy _ _ hbusy => exact absurd he hbusy
  | refused => rw [← he]

theorem Shrunk.unchanged (hs : Shrunk s size frameRate e h (.error f, e'))
    (he : e.state = .unconfigured) : e' = { e with table := [] } := by
  cases hs with
  | final _ h₁ => exact h₁.unchanged he
  | @twice _ _ _ _ e₁ _ _ h₁ h₂ =>
    obtain rfl := h₁.unchanged he
    exact h₂.unchanged he

/-! ## Any use of an encoder -/

/-- The calls `h` of an encoder's use, and the encoder `e` that the use ends with. -/
structure LifecycleKept (h : History) (e : Encoder) : Prop where
  episodes : Lifecycle e.state h
  whole : e.Whole
  unconfigured : e.state = .unconfigured → ∀ s size frameRate,
    ((configure s size frameRate e).Ends fun _ r =>
      ∀ f e', r = (.error f, e') → e' = { e with table := [] }) ∧
    (configureOrShrink s size frameRate e).Ends fun _ r =>
      ∀ f e', r = (.error f, e') → e' = { e with table := [] }
  discarded : (discard e).Ends fun k r =>
    r.2.state = .unconfigured ∧ Lifecycle .unconfigured (h ++ k)

/-- **An encoder's episodes.** Whatever operations are done to an encoder and whatever it answers,
its calls come in episodes: each is opened by one configuration and closed by one release. A surface
is asked for once the configuration was granted, and a start once the surface was. Output is asked
for, and a stop, once the whole set-up was granted; after the stop, granted or not, nothing but the
release is asked. Between operations the encoder is set up in full or not at all, and has a surface
exactly if it runs or was stopped. A set-up that fails leaves it as it was, and the end of its
owner closes the last episode. -/
theorem lifecycle_kept (operations : List Operation) :
    (operate operations initial).Ends LifecycleKept := by
  refine (ends_operate operations initial).ensures fun h e hm => ?_
  have hnone : ∀ h ∈ ([] : List History), Episode h := by simp
  have hfirst : Lifecycle initial.state [] := .mk hnone (.waiting (by simp))
  obtain ⟨hepisodes, hwhole⟩ := hm.kept hfirst ⟨nofun, by simp [initial]⟩
  rw [List.nil_append] at hepisodes
  refine ⟨hepisodes, hwhole, fun he s size frameRate => ⟨?_, ?_⟩, ?_⟩
  · refine (ends_configure s size frameRate e).ensures fun k r hr => ?_
    rintro f e' rfl
    exact hr.unchanged he
  · refine (ends_configureOrShrink s size frameRate e).ensures fun k r hr => ?_
    rintro f e' rfl
    exact hr.unchanged he
  · refine ensures_discard.2 ⟨e.freed_state, ?_⟩
    have hfreed := ((freeing_moves e).kept hepisodes hwhole).1
    rwa [e.freed_state] at hfreed

end Screencast.Encoder
