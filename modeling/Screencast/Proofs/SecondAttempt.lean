import Screencast.Proofs.Attempts

/-!
# When a second attempt is made

A set-up that failed at the size of the display is made once more at 720p. There is no second
attempt for a size that has the width or the height of 720p in its orientation, although 720p may
still be smaller: an encoder that can do 720p is not set up for a display of 1280x800.

* `FrameSize.SharesSide`: the sizes that are not followed by a second attempt.
* `History.GrantsOnly`: an encoder that can be set up at one size only.
* `Encoder.retried_unless_side_shared`: the main result.
* `Encoder.refused_beside_720p`: a size at which there is no second attempt.
-/

namespace Screencast

/-- The size is as wide or as high as 720p, turned like the size. -/
def FrameSize.SharesSide (size : FrameSize) : Prop :=
  size.width = size.reduced.width ∨ size.height = size.reduced.height

/-- The encoder grants attempts at a size in full, and refuses all others. -/
def History.GrantsOnly (size : FrameSize) (h : History) : Prop :=
  ∀ t ∈ h.tenures, t.denials = [] ↔
    ∀ params ∈ t.parameters, (⟨params.width, params.height⟩ : FrameSize) = size

namespace Encoder

open History

variable {e e' : Encoder} {s : Settings} {size : FrameSize} {frameRate : Single} {h k : History}
  {f : Failure}

theorem final_iff (hs : s.size = none) : Final s size ↔ size.SharesSide := by
  rw [Final, FrameSize.SharesSide, smallSizeLike_eq, hs]
  simp

/-- An attempt is granted by an encoder that grants one size exactly if it is made at that size. -/
theorem Configured.denials_eq_nil_iff {small : FrameSize} {x : Outcome Surface}
    (hc : Configured s size frameRate e k (x, e')) (he : e.state = .unconfigured)
    (hg : h.GrantsOnly small) (hk : k ∈ h.tenures) : k.denials = [] ↔ size = small := by
  rw [hg k hk, hc.parameters_eq he]
  constructor
  · exact fun hall => hall _ List.mem_cons_self
  · rintro rfl params hmem
    obtain rfl := List.mem_singleton.1 hmem
    rfl

/-- What a set-up comes to where no size was asked for. -/
structure Retried (s : Settings) (size : FrameSize) (frameRate : Single) (h : History)
    (x : Outcome (Surface × FrameSize)) (e : Encoder) : Prop where
  again : (∃ first, h.tenures.head? = some first ∧ first.denials ≠ []) → ¬size.SharesSide →
    h.parameters = [paramsFor s size frameRate, paramsFor s size.reduced frameRate]
  once : size.SharesSide → h.parameters = [paramsFor s size frameRate]
  reached : h.GrantsOnly size.reduced → size = size.reduced ∨ ¬size.SharesSide →
    ∃ surface, x = .ok (surface, size.reduced) ∧ e.state = .running ∧
      e.params = some (paramsFor s size.reduced frameRate)
  missed : h.GrantsOnly size.reduced → size ≠ size.reduced → size.SharesSide →
    ∃ f, x = .error f ∧ e.state = .unconfigured

/-- **A second attempt is made unless the size shares a side with 720p.** For all settings that ask
for no size, a set-up that failed at a size is made once more at 720p, upright for an upright size,
unless the size has the width or the height of that. So an encoder that grants 720p only runs at it
in the end for 720p itself and for all sizes that differ from it on both sides; for a size that
differs on one side it is given up after one attempt. -/
theorem retried_unless_side_shared (he : e.state = .unconfigured) (hs : s.size = none) :
    (configureOrShrink s size frameRate e).Ends fun h r =>
      Retried s size frameRate h r.1 r.2 := by
  refine (ends_configureOrShrink s size frameRate e).ensures fun h r hr => ?_
  cases hr with
  | @first h surface e' h₁ =>
    have ht := h₁.tenures_eq he
    have hmem : h ∈ h.tenures := by simp [ht]
    refine ⟨?_, fun _ => h₁.parameters_eq he, ?_, ?_⟩
    · rintro ⟨first, hfirst, hdenied⟩ -
      rw [ht] at hfirst
      cases hfirst
      exact absurd h₁.denials_eq_nil hdenied
    · intro hg _
      have hsize := (h₁.denials_eq_nil_iff he hg hmem).1 h₁.denials_eq_nil
      obtain ⟨table, -, rfl⟩ := h₁.of_ok
      rw [← hsize]
      exact ⟨surface, rfl, rfl, rfl⟩
    · intro hg hne
      exact absurd ((h₁.denials_eq_nil_iff he hg hmem).1 h₁.denials_eq_nil) hne
  | @final h f e' hfinal h₁ =>
    have hshares := (final_iff hs).1 hfinal
    obtain ⟨htells, -, he'⟩ := h₁.of_error he
    have hmem : h ∈ h.tenures := by simp [h₁.tenures_eq he]
    refine ⟨fun _ hn => absurd hshares hn, fun _ => h₁.parameters_eq he, ?_, ?_⟩
    · rintro hg (hsize | hn)
      · exact absurd ((h₁.denials_eq_nil_iff he hg hmem).2 hsize) htells.denied
      · exact absurd hshares hn
    · exact fun _ _ _ => ⟨f, rfl, he'⟩
  | @second h k f surface e' e'' hfinal h₁ h₂ =>
    have hshares : ¬size.SharesSide := fun hn => hfinal ((final_iff hs).2 hn)
    refine ⟨fun _ _ => h₁.parameters_append he h₂, fun hn => absurd hn hshares, fun _ _ => ?_,
      fun _ _ hn => absurd hn hshares⟩
    obtain ⟨table, -, rfl⟩ := h₂.of_ok
    rw [smallSizeLike_eq]
    exact ⟨surface, rfl, rfl, rfl⟩
  | @twice h k f g e' e'' hfinal h₁ h₂ =>
    have hshares : ¬size.SharesSide := fun hn => hfinal ((final_iff hs).2 hn)
    obtain ⟨-, -, he'⟩ := h₁.of_error he
    refine ⟨fun _ _ => h₁.parameters_append he h₂, fun hn => absurd hn hshares, fun hg _ => ?_,
      fun _ _ hn => absurd hn hshares⟩
    -- the second attempt is made at 720p, so it is not refused
    have hmem : k ∈ tenures (h ++ k) := by simp [h₂.tenures_append he']
    have hnone := (h₂.denials_eq_nil_iff he' hg hmem).2 (smallSizeLike_eq size)
    exact absurd hnone (h₂.of_error he').1.denied

open Rehearsal in
/-- An encoder that grants 720p only is set up for a display that is wider and higher than that. -/
theorem retried_unless_side_shared_wide :
    let size : FrameSize := ⟨2400, 1080⟩
    let p := configureOrShrink .standard size (Binary.ofInt 60) initial
    let h := (p.history Obliging.answerSmall (.ofEvents [])).calls
    let result := (p.run Obliging.answerSmall (.ofEvents [])).1
    initial.state = .unconfigured ∧ Settings.standard.size = none ∧
      h.parameters.map (fun params => (params.width, params.height)) =
        [(2400, 1080), (1280, 720)] ∧
      (result.bind fun r => r.1.toOption) = some (⟨1, false⟩, ⟨1280, 720⟩) ∧
      ∃ r, result = some r ∧ Retried .standard size (Binary.ofInt 60) h r.1 r.2 :=
  ⟨rfl, rfl, by decide +kernel, by decide +kernel,
    (retried_unless_side_shared rfl rfl).run _ _⟩

open Rehearsal in
/-- **No second attempt beside 720p.** An encoder that grants 720p only is not set up for a display
of 1280x800: the first attempt fails, there is no other, and the set-up fails, although the size is
not 720p and the encoder can be set up at 720p. -/
theorem refused_beside_720p :
    let size : FrameSize := ⟨1280, 800⟩
    let set := fun p : Program (Outcome (Surface × FrameSize) × Encoder) =>
      (p.run Obliging.answerSmall (.ofEvents [])).1.bind fun r => r.1.toOption
    let p := configureOrShrink .standard size (Binary.ofInt 60) initial
    let h := (p.history Obliging.answerSmall (.ofEvents [])).calls
    initial.state = .unconfigured ∧ Settings.standard.size = none ∧ size ≠ size.reduced ∧
      size.reduced = ⟨1280, 720⟩ ∧
      h.parameters.map (fun params => (params.width, params.height)) = [(1280, 800)] ∧
      h.denials = [("configure", ⟨.encoder, "too large"⟩)] ∧ set p = none ∧
      set (configureOrShrink .standard ⟨1280, 720⟩ (Binary.ofInt 60) initial) =
        some (⟨1, false⟩, ⟨1280, 720⟩) := by
  decide +kernel

end Encoder

end Screencast
