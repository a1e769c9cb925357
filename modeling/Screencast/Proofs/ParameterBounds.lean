import Screencast.Proofs.Agreement
import Screencast.Proofs.Attempts
import Screencast.Proofs.CheckedSettings

/-!
# The parameters that the encoder is asked for

The encoder is never asked for what it cannot take. Its parameters come from the settings, which are
checked before; where these leave it open the size is that of the display, made even, and the frame
rate is that of the display. Only the second attempt brings a size of its own.

* `EncoderSettings.WithinBounds`: the parameters that an encoder takes.
* `Encoder.withinBounds_paramsFor`: one attempt; `Encoder.Shrunk.parameters_eq`: one or two.
* `Session.Attempted`: a run, cut around its attempts to set the encoder up.
* `Session.parameters_within_bounds`: the main result.
-/

namespace Screencast

namespace Exchange

variable {e : Exchange}

/-- A refresh rate that the display has reported. -/
def rate? : Exchange → Option Single
  | ⟨.display .refreshRate, .ok rate⟩ => some rate
  | _ => none

theorem rate?_of_party (hp : e.party ≠ .display) : e.rate? = none := by
  rcases e with ⟨_ | _ | _, answer⟩
  case display => exact absurd rfl hp
  all_goals rfl

theorem parameters?_of_party (hp : e.party ≠ .encoder) : e.parameters? = none := by
  rcases e with ⟨_ | _, answer⟩
  case encoder => exact absurd rfl hp
  all_goals rfl

theorem parameters?_of_setsUp (he : e.setsUp = false) : e.parameters? = none := by
  unfold parameters?
  split
  · cases he
  · rfl

end Exchange

namespace History

variable {h k : History} {parties : List Party}

/-- The refresh rates that the display has reported. -/
def rates (h : History) : List Single := h.filterMap Exchange.rate?

@[simp] theorem rates_append : rates (h ++ k) = h.rates ++ k.rates := List.filterMap_append ..

theorem Within.rates (hw : h.Within parties) (hp : Party.display ∉ parties) : h.rates = [] :=
  hw.filterMap_eq_nil fun _ he => Exchange.rate?_of_party fun h => hp (h ▸ he)

theorem Within.parameters (hw : h.Within parties) (hp : Party.encoder ∉ parties) :
    h.parameters = [] :=
  hw.filterMap_eq_nil fun _ he => Exchange.parameters?_of_party fun h => hp (h ▸ he)

theorem parameters_of_setsUp (hh : ∀ e ∈ h, e.setsUp = false) : h.parameters = [] :=
  List.filterMap_eq_nil_iff.2 fun e he => Exchange.parameters?_of_setsUp (hh e he)

end History

open History

/-! ## Sizes -/

theorem toNat_sub_mod_two (n : UInt32) : (n - n % 2).toNat = n.toNat / 2 * 2 := by
  have hle : n % 2 ≤ n := by
    rw [UInt32.le_iff_toNat_le, UInt32.toNat_mod]
    exact Nat.mod_le _ _
  rw [UInt32.toNat_sub_of_le _ _ hle, UInt32.toNat_mod]
  show n.toNat - n.toNat % 2 = _
  omega

namespace FrameSize

variable {size : FrameSize}

theorem toNat_even (size : FrameSize) : size.even.width.toNat = size.width.toNat / 2 * 2 ∧
    size.even.height.toNat = size.height.toNat / 2 * 2 :=
  ⟨toNat_sub_mod_two _, toNat_sub_mod_two _⟩

/-- Rounded down to even numbers, sides that hold two pixels are not empty. -/
theorem encodable_even (hw : 2 ≤ size.width) (hh : 2 ≤ size.height) : size.even.Encodable := by
  have hside : ∀ {n : UInt32}, 2 ≤ n → n - n % 2 ≠ 0 ∧ (n - n % 2) % 2 = 0 := by
    intro n hn
    rw [UInt32.le_iff_toNat_le] at hn
    have hn' : 2 ≤ n.toNat := hn
    rw [ne_eq, ← UInt32.toNat_inj, ← UInt32.toNat_inj, UInt32.toNat_mod, toNat_sub_mod_two]
    show ¬n.toNat / 2 * 2 = 0 ∧ n.toNat / 2 * 2 % 2 = 0
    omega
  exact ⟨⟨(hside hw).1, (hside hh).1⟩, (hside hw).2, (hside hh).2⟩

theorem encodable_reduced (size : FrameSize) : size.reduced.Encodable := by
  unfold reduced
  split <;> exact ⟨by decide, by decide⟩

end FrameSize

/-! ## One attempt -/

namespace EncoderSettings

/-- The size of the video. -/
def size (p : EncoderSettings) : FrameSize := ⟨p.width, p.height⟩

/-- **The parameters that an encoder takes.** Frames that refer to later ones are allowed for by a
profile and a level, and these are given for nothing else. -/
structure WithinBounds (p : EncoderSettings) : Prop where
  size : p.size.Encodable
  bitRate : 100000 ≤ p.bitRate ∧ p.bitRate ≤ 200000000
  frameRate : p.frameRate.isFinite ∧ p.frameRate.isPositive
  profile : p.profile.isSome ↔ 0 < p.maxBFrames
  level : p.level.isSome ↔ 0 < p.maxBFrames

end EncoderSettings

namespace Encoder

variable {s : Settings} {size : FrameSize} {rate : Single} {e e' : Encoder} {h : History}

/-- Settings that were checked make for such parameters, at a size and a rate that will do. -/
theorem withinBounds_paramsFor (hs : s.check = .ok ()) (hsize : size.Encodable)
    (hrate : rate.isFinite ∧ rate.isPositive) : (paramsFor s size rate).WithinBounds where
  size := hsize
  bitRate := (Settings.check_eq_ok_iff.1 hs).bitRate
  frameRate := hrate
  profile := by
    show (if 0 < s.maxBFrames then some mainProfile else none).isSome ↔ 0 < s.maxBFrames
    split <;> simp [*]
  level := by
    show (if 0 < s.maxBFrames then some level41 else none).isSome ↔ 0 < s.maxBFrames
    split <;> simp [*]

/-- A set-up is attempted once, or a second time at the small size if no size was asked for. -/
theorem Shrunk.parameters_eq {x : Outcome (Surface × FrameSize)}
    (hs : Shrunk s size rate e h (x, e')) (he : e.state = .unconfigured) :
    h.parameters = [paramsFor s size rate] ∨ s.size = none ∧
      h.parameters = [paramsFor s size rate, paramsFor s size.reduced rate] := by
  have hnone : ¬Final s size → s.size = none := fun hfinal =>
    Option.not_isSome_iff_eq_none.1 (not_or.1 hfinal).1
  cases hs with
  | first h₁ => exact .inl (h₁.parameters_eq he)
  | final _ h₁ => exact .inl (h₁.parameters_eq he)
  | second hfinal h₁ h₂ => exact .inr ⟨hnone hfinal, h₁.parameters_append he h₂⟩
  | twice hfinal h₁ h₂ => exact .inr ⟨hnone hfinal, h₁.parameters_append he h₂⟩

/-- Each attempt is made with the same settings and the same rate, at a size that will do. -/
theorem Shrunk.exists_size {x : Outcome (Surface × FrameSize)}
    (hs : Shrunk s size rate e h (x, e')) (he : e.state = .unconfigured)
    (hsize : size.Encodable) : ∀ p ∈ h.parameters, ∃ size : FrameSize, size.Encodable ∧
      p = paramsFor s size rate := by
  rcases hs.parameters_eq he with hone | ⟨-, htwo⟩
  · rw [hone]
    exact List.forall_mem_singleton.2 ⟨size, hsize, rfl⟩
  · rw [htwo]
    exact List.forall_mem_cons.2 ⟨⟨size, hsize, rfl⟩,
      List.forall_mem_singleton.2 ⟨size.reduced, FrameSize.encodable_reduced size, rfl⟩⟩

/-- The sizes of the attempts, in order. -/
theorem Shrunk.sizes_prefix {x : Outcome (Surface × FrameSize)}
    (hs : Shrunk s size rate e h (x, e')) (he : e.state = .unconfigured) :
    h.parameters.map EncoderSettings.size <+:
      if s.size.isSome then [size] else [size, size.reduced] := by
  rcases hs.parameters_eq he with hone | ⟨hnone, htwo⟩
  · rw [hone]
    split
    · exact List.prefix_rfl
    · exact List.prefix_append [size] [size.reduced]
  · rw [htwo, hnone]
    exact List.prefix_rfl

end Encoder

/-! ## A run -/

namespace Session

variable {s s' : Session} {h k : History} {settings : Settings}

section Inspected

variable {look : History} {geometry : Geometry} {rate : Single}

theorem Inspected.geometries_eq (hl : Inspected settings look (.ok (geometry, rate))) :
    look.geometries = [geometry] := by
  cases hl <;> rfl

theorem Inspected.rates_eq (hl : Inspected settings look (.ok (geometry, rate))) :
    settings.frameRate = some rate ∨ settings.frameRate = none ∧ look.rates = [rate] := by
  cases hl with
  | fixed _ _ hfixed => exact .inl hfixed
  | rated _ _ hnone => exact .inr ⟨hnone, rfl⟩

theorem encodable_requested (hs : settings.check = .ok ())
    (hg : 2 ≤ geometry.width ∧ 2 ≤ geometry.height) : (requested settings geometry).Encodable := by
  unfold requested
  cases hsome : settings.size with
  | some size => exact (Settings.check_eq_ok_iff.1 hs).size size hsome
  | none => exact FrameSize.encodable_even hg.1 hg.2

end Inspected

/-- **A run and its attempts to set the encoder up.** There are none; or the settings are valid, and
what the display shows first decides on them. -/
inductive Attempted (s : Session) : History → Prop
  | never {h : History} (hn : h.parameters = []) : Attempted s h
  | made {before look setUp after : History} {geometry : Geometry} {rate : Single}
      {y : Outcome (Surface × FrameSize) × Encoder} (hv : s.settings.check = .ok ())
      (hb : before.Within [.watcher]) (hl : Inspected s.settings look (.ok (geometry, rate)))
      (he : Encoder.Shrunk s.settings (requested s.settings geometry) rate s.encoder setUp y)
      (ha : after.parameters = []) : Attempted s (before ++ (look ++ setUp ++ after))

/-- Notices may come before. -/
theorem Attempted.preceded (ha : Attempted s h) (hk : k.Within [.watcher]) :
    Attempted s (k ++ h) := by
  cases ha with
  | never hn => exact .never (by simp [hk.parameters, hn])
  | made hv hb hl he ha =>
    rw [← List.append_assoc]
    exact .made hv (within_append.2 ⟨hk, hb⟩) hl he ha

/-- Calls without an attempt may follow. -/
theorem Attempted.followed (ha : Attempted s h) (hk : k.parameters = []) :
    Attempted s (h ++ k) := by
  cases ha with
  | never hn => exact .never (by simp [hn, hk])
  | made hv hb hl he ha =>
    rw [List.append_assoc, List.append_assoc]
    exact .made hv hb hl he (by simp [ha, hk])

theorem Abandoned.parameters (ha : Abandoned s h s') : h.parameters = [] := by
  obtain ⟨hs⟩ := ha
  have hfreeing : ∀ e : Encoder, e.freeing.parameters = [] := by
    intro e
    unfold Encoder.freeing
    split <;> rfl
  rw [parameters_append, parameters_append, hfreeing, Capture.closing_within.parameters (by simp)]
  cases hs <;> rfl

theorem Prepared.attempted {x : Outcome Ready × Session} (hp : Prepared s h x) :
    Attempted s h := by
  have hnil : History.parameters [] = [] := rfl
  have hmade : ∀ {look setUp : History} {geometry : Geometry} {rate : Single} {y},
      s.settings.check = .ok () → Inspected s.settings look (.ok (geometry, rate)) →
      Encoder.Shrunk s.settings (requested s.settings geometry) rate s.encoder setUp y →
      Attempted s (look ++ setUp) := by
    intro look setUp geometry rate y hv hl he
    simpa using Attempted.made hv within_nil hl he hnil
  cases hp with
  | invalid => exact .never rfl
  | unseen _ hl => exact .never (hl.within.parameters (by simp))
  | noEncoder hv hl he => exact hmade hv hl he
  | noCapture hv hl he hc ha =>
    exact ((hmade hv hl he).followed (hc.within.parameters (by simp))).followed ha.parameters
  | noOutput hv hl he hc ho ha =>
    have hbound := (hmade hv hl he).followed (hc.within.parameters (by simp))
    exact (hbound.followed (ho.within.parameters (by simp))).followed ha.parameters
  | ready hv hl he hc ho =>
    have hbound := (hmade hv hl he).followed (hc.within.parameters (by simp))
    exact hbound.followed (ho.within.parameters (by simp))

/-- Nothing is attempted once all is set up. -/
theorem Performed.attempted {x : Option (Outcome Recording × Session)}
    (hperformed : Performed s h x) : Attempted s h := by
  cases hperformed.phased with
  | refused hp => exact hp.attempted
  | underway hp hl =>
    exact hp.attempted.followed (parameters_of_setsUp (List.forall_mem_cons.2 ⟨rfl, hl.setsUp⟩))
  | drained hp hl _ _ hn =>
    refine hp.attempted.followed (parameters_of_setsUp (List.forall_mem_cons.2 ⟨rfl, ?_⟩))
    exact List.forall_mem_append.2 ⟨hl.setsUp, List.forall_mem_cons.2 ⟨rfl, hn⟩⟩

theorem Ran.attempted {x : Option (Outcome Recording × Session)} (hr : Ran s h x) :
    Attempted s.begun h := by
  have hnotice : History.Within [.watcher] [entered .configuring] := by simp [Exchange.party]
  cases hr with
  | again => exact .never rfl
  | unfinished _ hp => exact hp.attempted.preceded hnotice
  | failed _ hp => exact (hp.attempted.preceded hnotice).followed rfl
  | finished _ hp => exact (hp.attempted.preceded hnotice).followed rfl

/-- What the encoder is asked for in a run. Where no size is requested there are two attempts at
most: at the first geometry that the display reports, made even, and at 720p, turned like it. -/
structure ParametersBounded (settings : Settings) (h : History) : Prop where
  bounded : ∀ p ∈ h.parameters, p.WithinBounds
  given : ∀ p ∈ h.parameters, p.bitRate = settings.bitRate ∧ p.maxBFrames = settings.maxBFrames
  rated : ∀ p ∈ h.parameters, settings.frameRate = some p.frameRate ∨
    settings.frameRate = none ∧ h.rates.head? = some p.frameRate
  requested : ∀ size, settings.size = some size →
    h.parameters.map EncoderSettings.size <+: [size]
  shown : settings.size = none → h.parameters ≠ [] → ∃ g first, h.geometries.head? = some g ∧
    first.width.toNat = g.width.toNat / 2 * 2 ∧ first.height.toNat = g.height.toNat / 2 * 2 ∧
      h.parameters.map EncoderSettings.size <+: [first, first.reduced]

theorem Attempted.bounded (ha : Attempted s h) (hs : s.encoder.state = .unconfigured)
    (hg : ∀ g ∈ h.geometries.head?, 2 ≤ g.width ∧ 2 ≤ g.height)
    (hr : ∀ rate ∈ h.rates.head?, rate.isFinite ∧ rate.isPositive) :
    ParametersBounded s.settings h := by
  cases ha with
  | never hn => exact ⟨by simp [hn], by simp [hn], by simp [hn], by simp [hn], by simp [hn]⟩
  | @made before look setUp after geometry rate y hv hb hl he ha =>
  have hparameters : (before ++ (look ++ setUp ++ after)).parameters = setUp.parameters := by
    simp [hb.parameters, hl.within.parameters, ha]
  have hgeometry : (before ++ (look ++ setUp ++ after)).geometries.head? = some geometry := by
    simp [hb.geometries, hl.geometries_eq]
  have hrated : s.settings.frameRate = some rate ∨
      s.settings.frameRate = none ∧
        (before ++ (look ++ setUp ++ after)).rates.head? = some rate :=
    hl.rates_eq.imp_right fun ⟨hnone, hrates⟩ => ⟨hnone, by simp [hb.rates, hrates]⟩
  have hrate : rate.isFinite ∧ rate.isPositive := by
    rcases hrated with hfixed | ⟨-, hhead⟩
    · exact (Settings.check_eq_ok_iff.1 hv).frameRate rate hfixed
    · exact hr rate hhead
  -- one attempt or two, and no other in the rest of the run
  have heach := he.exists_size hs (encodable_requested hv (hg geometry hgeometry))
  have hsizes := he.sizes_prefix hs
  rw [← hparameters] at heach hsizes
  refine ⟨fun p hp => ?_, fun p hp => ?_, fun p hp => ?_, fun size hsome => ?_, fun hnone _ => ?_⟩
  · obtain ⟨size, hencodable, rfl⟩ := heach p hp
    exact Encoder.withinBounds_paramsFor hv hencodable hrate
  · obtain ⟨size, -, rfl⟩ := heach p hp
    exact ⟨rfl, rfl⟩
  · obtain ⟨size, -, rfl⟩ := heach p hp
    exact hrated
  · rw [Session.requested, hsome] at hsizes
    exact hsizes
  · rw [Session.requested, hnone] at hsizes
    obtain ⟨hwidth, hheight⟩ := FrameSize.toNat_even ⟨geometry.width, geometry.height⟩
    exact ⟨geometry, _, hgeometry, hwidth, hheight, hsizes⟩

variable {passes : Nat} {hasMuxer : Bool} {output : Option Raw}
  {result : Option (Outcome Recording × Session)}

/-- **The encoder is only asked for what it can take.** Whatever the settings are and whatever is
refused in a run: if the first geometry that the display reports has two pixels on each side at
least, and each refresh rate that it reports is finite and positive, then every attempt to configure
the encoder, granted or not, is made with an even size that is not empty, with a bit rate and a frame
rate within their bounds, and with a profile and a level exactly where frames may refer to later
ones. The frame rate is that of the settings, or else the one that the display reports. A size that
is requested is attempted once and no other is; else the first size is that of the display, made
even, and the second, if there is one, is 720p. -/
theorem parameters_within_bounds
    (hruns : (run passes (ofSettings settings hasMuxer output)).Runs h result)
    (hg : ∀ g ∈ h.calls.geometries.head?, 2 ≤ g.width ∧ 2 ≤ g.height)
    (hr : ∀ rate ∈ h.calls.rates.head?, rate.isFinite ∧ rate.isPositive) :
    ParametersBounded settings h.calls :=
  (ensures_run passes _ h _ hruns).attempted.bounded rfl hg hr

open Rehearsal in
/-- A display with odd sides, and an encoder that can do 720p only: the second of two attempts is
granted. -/
theorem parameters_within_bounds_wide :
    let p := run 9 (ofSettings .standard true none)
    let answer := Obliging.showing ⟨2401, 1081, .none, 0⟩ Obliging.answerSmall
    let device := Obliging.ofEvents []
    let h := (p.history answer device).calls
    (∀ g ∈ h.geometries.head?, 2 ≤ g.width ∧ 2 ≤ g.height) ∧
      (∀ rate ∈ h.rates.head?, rate.isFinite ∧ rate.isPositive) ∧
      h.parameters.map EncoderSettings.size = [⟨2400, 1080⟩, ⟨1280, 720⟩] ∧
      ParametersBounded .standard h := by
  intro p answer device h
  have hg : ∀ g ∈ h.geometries.head?, 2 ≤ g.width ∧ 2 ≤ g.height := by decide +kernel
  have hr : ∀ rate ∈ h.rates.head?, rate.isFinite ∧ rate.isPositive := by decide +kernel
  exact ⟨hg, hr, by decide +kernel, parameters_within_bounds (Program.runs_run _ _ _) hg hr⟩

end Session

end Screencast
