import Screencast.Settings.Basic

/-!
# Settings that were checked

Settings pass their check exactly if each of their values keeps its bounds.

* `FrameSize.Encodable`: the sizes that an encoder takes.
* `Settings.WithinBounds`: the bounds of the values.
* `Settings.check_eq_ok_iff`: the check is the check of these bounds.
-/

namespace Screencast

/-- A size that an encoder takes: no side is empty, and none is odd. -/
structure FrameSize.Encodable (size : FrameSize) : Prop where
  nonempty : size.width ≠ 0 ∧ size.height ≠ 0
  even : size.width % 2 = 0 ∧ size.height % 2 = 0

theorem FrameSize.encodable_iff {size : FrameSize} : size.Encodable ↔
    (size.width ≠ 0 ∧ size.height ≠ 0) ∧ size.width % 2 = 0 ∧ size.height % 2 = 0 :=
  ⟨fun h => ⟨h.nonempty, h.even⟩, fun h => ⟨h.1, h.2⟩⟩

namespace Settings

/-- **The bounds of the values.** Optional values are bounded where they are given. -/
structure WithinBounds (s : Settings) : Prop where
  bitRate : lowestBitRate ≤ s.bitRate ∧ s.bitRate ≤ highestBitRate
  timeLimit : s.timeLimit ≠ 0 ∧ s.timeLimit ≤ longestRecording
  size : ∀ size ∈ s.size, size.Encodable
  frameRate : ∀ rate ∈ s.frameRate, rate.isFinite ∧ rate.isPositive
  destination : s.format.isContainer → s.destination ≠ .standardOutput

variable {s : Settings}

theorem bitRateDefect?_eq_none_iff :
    s.bitRateDefect? = none ↔ lowestBitRate ≤ s.bitRate ∧ s.bitRate ≤ highestBitRate := by
  simp [bitRateDefect?]

theorem timeLimitDefect?_eq_none_iff :
    s.timeLimitDefect? = none ↔ s.timeLimit ≠ 0 ∧ s.timeLimit ≤ longestRecording := by
  simp [timeLimitDefect?]

theorem sizeDefect?_eq_none_iff : s.sizeDefect? = none ↔ ∀ size ∈ s.size, size.Encodable := by
  cases hs : s.size with
  | none => simp [sizeDefect?, hs]
  | some size =>
    simp only [sizeDefect?, hs, Option.bind_some, Option.mem_some_iff, forall_eq',
      FrameSize.encodable_iff]
    grind

theorem frameRateDefect?_eq_none_iff :
    s.frameRateDefect? = none ↔ ∀ rate ∈ s.frameRate, rate.isFinite ∧ rate.isPositive := by
  cases hr : s.frameRate <;> simp [frameRateDefect?, hr]

theorem destinationDefect?_eq_none_iff :
    s.destinationDefect? = none ↔ (s.format.isContainer → s.destination ≠ .standardOutput) := by
  simp [destinationDefect?]

/-- **Settings pass their check exactly if they are within the bounds.** -/
theorem check_eq_ok_iff : s.check = .ok () ↔ s.WithinBounds := by
  have hcheck : s.check = .ok () ↔ s.defect? = none := by
    cases hd : s.defect? <;> simp [check, hd]
  simp only [hcheck, defect?, Option.orElse_eq_orElse, Option.orElse_eq_or, Option.or_eq_none_iff,
    bitRateDefect?_eq_none_iff, timeLimitDefect?_eq_none_iff, sizeDefect?_eq_none_iff,
    frameRateDefect?_eq_none_iff, destinationDefect?_eq_none_iff]
  exact ⟨fun ⟨hbitRate, htimeLimit, hsize, hframeRate, hdestination⟩ =>
      ⟨hbitRate, htimeLimit, hsize, hframeRate, hdestination⟩,
    fun h => ⟨h.bitRate, h.timeLimit, h.size, h.frameRate, h.destination⟩⟩

end Settings

end Screencast
