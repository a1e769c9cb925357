import Screencast.Proofs.Attempts

/-!
# The parameters that an encoder keeps

An encoder keeps the parameters of the last set-up that it was granted. While it runs, and after it
was stopped, these are the parameters it is set up with. A release takes the surface and the buffer
table from it and leaves it the parameters, so that an encoder which is not set up has parameters
exactly if it ever was.

* `History.accepted`: the parameters of the set-ups that were granted.
* `Encoder.Keeps`: what an encoder has of its calls; kept by a move (`Keeps.move`) and so by any
  number.
* `Encoder.parameters_kept`: the main result.
* `Encoder.parameters_outlast_release`: parameters of an encoder that is not set up.
-/

namespace Screencast

theorem Exchange.configures_of_isAside {x : Exchange} (hx : x.isAside) : x.configures = false := by
  rcases x with ⟨request, answer⟩
  simp only [isAside] at hx
  split at hx <;> first | rfl | cases hx

theorem Exchange.configures_of_asksOutput {x : Exchange} (hx : x.asksOutput) :
    x.configures = false := by
  rcases x with ⟨request, answer⟩
  simp only [asksOutput] at hx
  split at hx <;> first | rfl | cases hx

namespace History

/-- What a tenure was configured with, if its set-up was granted at every step. -/
def grantedWith? : History → Option EncoderSettings
  | ⟨.encoder (.configure params), .ok _⟩ :: ⟨.encoder (.createSurface _), .ok _⟩ ::
      ⟨.encoder .start, .ok _⟩ :: ⟨.encoder .bufferTable, .ok _⟩ :: _ => some params
  | _ => none

/-- The parameters of the set-ups that were granted, in order. -/
def accepted (h : History) : List EncoderSettings := h.tenures.filterMap grantedWith?

theorem accepted_eq {h t : History} {ts : List History} (ht : h.tenures = ts ++ [t]) :
    h.accepted = ts.filterMap grantedWith? ++ (grantedWith? t).toList := by
  rw [accepted, ht, List.filterMap_append, List.filterMap_cons]
  cases grantedWith? t <;> rfl

end History

namespace Encoder

open History

variable {e e' : Encoder} {h k t : History} {params : EncoderSettings} {persistent : Bool}

theorem grantedWith?_granted (params : EncoderSettings) (persistent : Bool) (surface : Surface)
    (table : List Slot) (k : History) :
    grantedWith? (granted params persistent surface table ++ k) = some params := rfl

theorem Refused.grantedWith?_eq {f : Failure} (hr : Refused params persistent h f) (k : History) :
    grantedWith? (h ++ [⟨.encoder .release, ()⟩] ++ k) = none := by
  cases hr <;> rfl

/-- **What an encoder has of its calls.** Its parameters are those of the last set-up that was
granted. Whether the set-up of the last tenure was granted is settled, and it was if the encoder is
set up. -/
structure Keeps (e : Encoder) (h : History) : Prop where
  params : e.params = h.accepted.getLast?
  settled : ∀ t ∈ h.tenures.getLast?, ∀ k, grantedWith? (t ++ k) = grantedWith? t
  current : e.state ≠ .unconfigured → (h.tenures.getLast?.bind grantedWith?).isSome

/-- An encoder that is set up has the parameters of its last tenure. -/
theorem Keeps.exists_params (hk : Keeps e h) (he : e.state ≠ .unconfigured) :
    ∃ params, e.params = some params ∧ h.tenures.getLast?.bind grantedWith? = some params := by
  obtain ⟨params, hparams⟩ := Option.isSome_iff_exists.1 (hk.current he)
  obtain ⟨t, ht, hgranted⟩ := Option.bind_eq_some_iff.1 hparams
  obtain ⟨ts, hts⟩ := List.getLast?_eq_some_iff.1 ht
  refine ⟨params, ?_, hparams⟩
  rw [hk.params, accepted_eq hts, hgranted]
  exact List.getLast?_concat

/-- More is called in the last tenure. -/
theorem Keeps.more (hk : Keeps e h) (hu : k.Unclaimed) (hp : e'.params = e.params)
    (hs : e'.state ≠ .unconfigured → e.state ≠ .unconfigured) : Keeps e' (h ++ k) := by
  rcases tenures_append h hu with ⟨hnone, hnone'⟩ | ⟨ts, t, hts, htk⟩
  -- without a tenure so far the encoder was never set up
  · refine ⟨?_, ?_, fun h' => ?_⟩
    · rw [hp, hk.params, accepted, accepted, hnone, hnone']
    · simp [hnone']
    · have hcurrent := hk.current (hs h')
      rw [hnone] at hcurrent
      cases hcurrent
  · have hlast : h.tenures.getLast? = some t := by rw [hts, List.getLast?_concat]
    have hlast' : (tenures (h ++ k)).getLast? = some (t ++ k) := by rw [htk, List.getLast?_concat]
    have hsame := hk.settled t hlast
    refine ⟨?_, ?_, fun h' => ?_⟩
    · rw [hp, hk.params, accepted_eq hts, accepted_eq htk, hsame]
    · rw [hlast']
      rintro _ ⟨⟩ l
      rw [List.append_assoc, hsame, hsame]
    · have hcurrent := hk.current (hs h')
      rw [hlast] at hcurrent
      rw [hlast', Option.bind_some, hsame]
      exact hcurrent

/-- A further tenure. -/
theorem Keeps.tenure {x : Exchange} (hk : Keeps e h) (hx : x.configures = true)
    (hu : k.Unclaimed) (hp : e'.params = (grantedWith? (x :: k)).or e.params)
    (hsettled : ∀ l, grantedWith? (x :: k ++ l) = grantedWith? (x :: k))
    (hs : e'.state ≠ .unconfigured → (grantedWith? (x :: k)).isSome) :
    Keeps e' (h ++ x :: k) := by
  have htenures : tenures (h ++ x :: k) = h.tenures ++ [x :: k] := tenures_append_cons hx hu
  refine ⟨?_, ?_, ?_⟩
  · rw [hp, accepted_eq htenures, List.getLast?_append, ← accepted, ← hk.params]
    cases grantedWith? (x :: k) <;> rfl
  · rw [htenures, List.getLast?_concat]
    rintro t ⟨⟩
    exact hsettled
  · rw [htenures, List.getLast?_concat]
    exact hs

/-- **A move keeps it.** -/
theorem Keeps.move (hk : Keeps e h) (hm : Move e k e') : Keeps e' (h ++ k) := by
  cases hm with
  | granted params persistent surface table he =>
    refine hk.tenure rfl ?_ rfl (grantedWith?_granted params persistent surface table) fun _ => rfl
    simp [Exchange.configures]
  | refused he hr =>
    -- a tenure of its own, in which nothing was granted and nothing is kept
    obtain ⟨x, l, heq, hx, hl, -⟩ := hr.tenure
    have hnone : ∀ k, grantedWith? (x :: l ++ k) = none := heq ▸ hr.grantedWith?_eq
    have hself : grantedWith? (x :: l) = none := by simpa using hnone []
    rw [heq]
    refine hk.tenure hx hl ?_ (fun k => by rw [hnone, hself]) fun h => absurd rfl h
    rw [hself, Option.none_or]
  | asked x he hx =>
    exact hk.more (by simp [Exchange.configures_of_asksOutput hx]) rfl id
  | aside x table hx =>
    exact hk.more (by simp [Exchange.configures_of_isAside hx]) rfl id
  | stopped answer he =>
    exact hk.more (by simp [Exchange.configures]) rfl fun _ => by rw [he]; decide
  | released he =>
    exact hk.more (by simp [Exchange.configures]) rfl fun _ => he

/-- **Moves keep it**, and the encoder whole. -/
theorem Moves.keeps (hm : Moves e k e') (hk : Keeps e h) (hw : e.Whole) :
    Keeps e' (h ++ k) ∧ e'.Whole := by
  induction hm generalizing h with
  | none =>
    rw [List.append_nil]
    exact ⟨hk, hw⟩
  | more hm _ ih =>
    rw [← List.append_assoc]
    exact ih (hk.move hm) (hm.whole hw)

/-! ## Any use of an encoder -/

/-- The parameters of an encoder `e` after the calls `h`. -/
structure ParametersKept (h : History) (e : Encoder) : Prop where
  whole : e.state = .unconfigured ∨ e.state = .running ∨ e.state = .stopped
  params : e.params = h.accepted.getLast?
  current : e.state = .running ∨ e.state = .stopped →
    ∃ params, e.params = some params ∧ h.tenures.getLast?.bind grantedWith? = some params
  fresh : h.accepted = [] → e.state = .unconfigured ∧ e.params = none

/-- **The parameters of an encoder are those of the last set-up that was granted.** Whatever
operations are done to an encoder and whatever it answers: it has the parameters of its last set-up
that was granted at every step, and none if there was no such set-up. While it runs or is stopped,
that set-up is its last altogether, so that the parameters are those it is set up with. An encoder
that was never set up has none; one that was released, or refused another set-up after that, has
those of the time before. -/
theorem parameters_kept (operations : List Operation) :
    (operate operations initial).Ends ParametersKept := by
  refine (ends_operate operations initial).ensures fun h e hm => ?_
  have hfirst : Keeps initial [] := ⟨rfl, by simp [tenures], fun h => absurd rfl h⟩
  obtain ⟨hkeeps, hwhole⟩ := hm.keeps hfirst ⟨by decide, by decide⟩
  rw [List.nil_append] at hkeeps
  refine ⟨?_, hkeeps.params, fun he => hkeeps.exists_params ?_, fun hnone => ?_⟩
  · have hstate := hwhole.state
    cases hs : e.state with
    | configured => exact absurd hs hstate
    | _ => simp
  · rcases he with he | he <;> rw [he] <;> decide
  · have hparams : e.params = none := by rw [hkeeps.params, hnone, List.getLast?_nil]
    refine ⟨?_, hparams⟩
    by_contra he
    obtain ⟨params, hsome, -⟩ := hkeeps.exists_params he
    rw [hparams] at hsome
    cases hsome

open Rehearsal in
/-- **Parameters of no configuration.** An encoder is set up and released. It has no surface and no
buffer table then, and is not set up; but it has the parameters it was set up with. -/
theorem parameters_outlast_release :
    let set : Operation := .configure .standard ⟨1280, 720⟩ (Binary.ofInt 60)
    let left := ((operate [set, .release] initial).run Obliging.answer (.ofEvents [])).1
    left = some ⟨.unconfigured, [], some (paramsFor .standard ⟨1280, 720⟩ (Binary.ofInt 60)), none⟩ ∧
      ¬(operate [set, .release] initial).Ends fun _ e =>
        e.params.isSome ↔ e.state = .running ∨ e.state = .stopped := by
  intro set left
  have hleft : left = some ⟨.unconfigured, [],
      some (paramsFor .standard ⟨1280, 720⟩ (Binary.ofInt 60)), none⟩ := by decide +kernel
  refine ⟨hleft, fun hends => ?_⟩
  obtain ⟨e, he, hiff⟩ := hends.run Obliging.answer (.ofEvents [])
  obtain rfl := Option.some.inj (he.symm.trans hleft)
  simp at hiff

end Encoder

end Screencast
