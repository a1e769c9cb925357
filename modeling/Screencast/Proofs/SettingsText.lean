import Screencast.Proofs.CheckedSettings
import Screencast.Proofs.DescriptionText
import Screencast.Settings.Text

/-!
# Reading settings back

The text of settings gives them back with two exceptions. A lone dash as a destination is standard
output, so a file of that name has no text of its own. And a frame rate that is not finite is written
as one that was not given. Settings that were checked have no such rate, and those that were read
have no such file, but either may have the other.

* `Settings.kept`: what of settings is in their text; `Settings.Storable`: the settings that are.
* `Settings.ofText_toText`: settings are read from their text as what is kept.
* `Settings.destination_ne_dash`: no text gives a file of the reserved name.
* `Settings.settings_read_back`: the main result.
* `Settings.not_read_back`: settings of both kinds that are not read back.
-/

namespace Screencast

namespace FrameSize

theorem proper_toJson (size : FrameSize) : size.toJson.Proper :=
  Json.proper_record (by simp [Json.ofWord, Json.ofNat, Json.Proper, Numeral.proper_ofNat])

/-- **A size is read back.** -/
theorem ofJson?_toJson (size : FrameSize) : ofJson? size.toJson = some size := by
  obtain ⟨r, hr, hfind⟩ : ∃ r, size.toJson.fields? fieldNames = some r ∧ _ :=
    Json.fields?_record rfl (by decide)
  simp only [List.forall_mem_cons] at hfind
  obtain ⟨hwidth, hheight, -⟩ := hfind
  rw [ofJson?, hr, Option.bind_eq_bind, Option.bind_some,
    Fields.required_bind hwidth (Json.word?_ofWord _),
    Fields.required_bind hheight (Json.word?_ofWord _)]
  rfl

end FrameSize

namespace Destination

/-- The file whose name stands for standard output in a text. -/
def dash : Destination := .file ⟨"-"⟩

/-- What is read where a destination was written. -/
def kept (d : Destination) : Destination := if d = dash then .standardOutput else d

theorem ofJson?_toJson (d : Destination) : ofJson? d.toJson = some d.kept := by
  cases d with
  | standardOutput => rfl
  | file path =>
    obtain ⟨text⟩ := path
    simp [ofJson?, toJson, Json.string?_text, toText, ofText, kept, dash]

theorem kept_eq_iff {d : Destination} : d.kept = d ↔ d ≠ dash := by
  unfold kept
  split
  · rename_i hd
    simp [hd, dash]
  · rename_i hd
    simp [hd]

theorem ofText_ne_dash (s : String) : ofText s ≠ dash := by
  unfold ofText dash
  split
  · nofun
  · rename_i hs
    simpa using hs

end Destination

namespace Settings

/-- What of settings is in their text. -/
def kept (s : Settings) : Settings :=
  { s with frameRate := s.frameRate.filter Binary.isFinite, destination := s.destination.kept }

/-- Settings all of which is in their text. -/
structure Storable (s : Settings) : Prop where
  frameRate : ∀ rate ∈ s.frameRate, rate.isFinite
  destination : s.destination ≠ .dash

variable {s : Settings}

theorem proper_toJson (s : Settings) : s.toJson.Proper := by
  refine Json.proper_record ?_
  have hsize : (Json.ofOption FrameSize.toJson s.size).Proper := by
    cases s.size with
    | none => trivial
    | some size => exact size.proper_toJson
  have hframeRate : (Json.ofOption Json.ofSingle s.frameRate).Proper := by
    cases s.frameRate with
    | none => trivial
    | some rate => exact Json.proper_ofSingle rate
  have hcodecName : (Json.ofOption Json.text s.codecName).Proper := by
    cases s.codecName <;> trivial
  have hformat : s.format.toJson.Proper := rfl
  have hdestination : s.destination.toJson.Proper := rfl
  simp only [List.forall_mem_cons]
  exact ⟨hsize, Numeral.proper_ofNat _, hframeRate, Numeral.proper_ofNat _, Numeral.proper_ofNat _,
    trivial, trivial, trivial, hcodecName, hformat, hdestination, trivial, by simp⟩

theorem kept_eq_iff : s.kept = s ↔ s.Storable := by
  have hkept : s.kept = s ↔
      s.frameRate.filter Binary.isFinite = s.frameRate ∧ s.destination.kept = s.destination := by
    obtain ⟨⟩ := s
    simp [kept]
  have hframeRate : s.frameRate.filter Binary.isFinite = s.frameRate ↔
      ∀ rate ∈ s.frameRate, rate.isFinite := by
    cases s.frameRate <;> simp [Option.filter]
  rw [hkept, hframeRate, Destination.kept_eq_iff]
  exact ⟨fun h => ⟨h.1, h.2⟩, fun h => ⟨h.frameRate, h.destination⟩⟩

/-- A frame rate is read back if it is finite, and else as one that was not given. -/
theorem option?_ofSingle (rate : Option Single) :
    Json.option? Json.single? (Json.ofOption Json.ofSingle rate) =
      some (rate.filter Binary.isFinite) := by
  cases rate with
  | none => rfl
  | some rate =>
    have hread := Json.single?_ofSingle rate
    rw [Json.ofOption, Option.filter]
    split_ifs at hread ⊢ with hfinite
    · rw [Json.option?, hread, Option.map_some]
      intro hnull
      rw [hnull] at hread
      cases hread
    · rw [Json.ofSingle, if_neg hfinite]
      rfl

theorem ofJson?_toJson (s : Settings) : ofJson? s.toJson = some s.kept := by
  obtain ⟨r, hr, hfind⟩ : ∃ r, s.toJson.fields? fieldNames = some r ∧ _ :=
    Json.fields?_record rfl (by decide)
  simp only [List.forall_mem_cons] at hfind
  obtain ⟨hsize, hbitRate, hframeRate, hmaxBFrames, htimeLimit, hrotate, hmonotonicTime,
    hpersistentSurface, hcodecName, hformat, hdestination, hsidecar, -⟩ := hfind
  rw [ofJson?, hr, Option.bind_eq_bind, Option.bind_some,
    Fields.get_bind hsize (Json.option?_ofOption FrameSize.ofJson?_toJson nofun _),
    Fields.get_bind hbitRate (Json.word?_ofWord _),
    Fields.get_bind hframeRate (option?_ofSingle _),
    Fields.get_bind hmaxBFrames (Json.word?_ofWord _),
    Fields.get_bind htimeLimit (Json.word?_ofWord _),
    Fields.get_bind hrotate (Json.bool?_bool _),
    Fields.get_bind hmonotonicTime (Json.bool?_bool _),
    Fields.get_bind hpersistentSurface (Json.bool?_bool _),
    Fields.get_bind hcodecName (Json.option?_ofOption Json.string?_text nofun _),
    Fields.get_bind hformat (Format.ofJson?_toJson _),
    Fields.get_bind hdestination (Destination.ofJson?_toJson _),
    Fields.get_bind hsidecar (Json.bool?_bool _)]
  rfl

/-- **What of settings is in their text is read back from it.** -/
theorem ofText_toText (s : Settings) : ofText s.toText = .ok s.kept := by
  rw [ofText, toText, Json.read?_compact s.proper_toJson, Option.bind_some, ofJson?_toJson]

/-- **No text gives a file of the reserved name.** -/
theorem destination_ne_dash {j : Json} (hj : ofJson? j = some s) : s.destination ≠ .dash := by
  have hget : ∀ {r : Fields} {d : Destination},
      r.get "output_target" (some standard.destination) Destination.ofJson? = some d →
      d ≠ .dash := by
    intro r d hd
    unfold Fields.get at hd
    split at hd
    · cases hd
      decide
    · obtain ⟨text, -, rfl⟩ := Option.map_eq_some_iff.1 hd
      exact Destination.ofText_ne_dash text
  unfold ofJson? at hj
  -- the record and the ten fields before the destination
  iterate 11 obtain ⟨_, -, hj⟩ := Option.bind_eq_some_iff.1 hj
  obtain ⟨d, hd, hj⟩ := Option.bind_eq_some_iff.1 hj
  obtain ⟨_, -, hj⟩ := Option.bind_eq_some_iff.1 hj
  cases hj
  exact hget hd

/-! ## Settings and their text -/

/-- What comes of settings that are written and read again. -/
structure ReadBack (s : Settings) : Prop where
  kept : ofText s.toText = .ok s.kept
  whole : ofText s.toText = .ok s ↔ s.Storable
  again : s.kept.Storable
  checked : s.check = .ok () → (s.Storable ↔ s.destination ≠ .dash)
  read : ∀ text, ofText text = .ok s → (s.Storable ↔ ∀ rate ∈ s.frameRate, rate.isFinite)

/-- **Settings are read back from their text**, with two exceptions: a file named by a lone dash is
read as standard output, and a frame rate that is not finite as one that was not given. The second
does not occur in settings that pass their check, nor the first in settings that were read from some
text. What was read back once is read back whole ever after. -/
theorem settings_read_back (s : Settings) : s.ReadBack where
  kept := ofText_toText s
  whole := by
    rw [ofText_toText, Except.ok.injEq, kept_eq_iff]
  again := by
    refine ⟨fun rate hr => (Option.filter_eq_some_iff.1 hr).2, ?_⟩
    show s.destination.kept ≠ .dash
    unfold Destination.kept
    split
    · nofun
    · assumption
  checked := by
    intro hs
    refine ⟨fun h => h.destination, fun hd => ⟨fun rate hr => ?_, hd⟩⟩
    exact ((check_eq_ok_iff.1 hs).frameRate rate hr).1
  read := by
    intro text hs
    refine ⟨fun h => h.frameRate, fun hr => ⟨hr, ?_⟩⟩
    unfold ofText at hs
    split at hs
    · rename_i s' hread
      cases hs
      obtain ⟨j, -, hj⟩ := Option.bind_eq_some_iff.1 hread
      exact destination_ne_dash hj
    · cases hs

/-- **Settings that are not read back.** A file named by a lone dash passes the check and is read
back as standard output. A rate of `1e39` is read as an infinite one, and read back as none. -/
theorem not_read_back :
    let file : Settings := { standard with destination := .file ⟨"-"⟩ }
    let text := "\x7b\"frame_rate\":1e39\x7d"
    let endless : Settings := { standard with frameRate := some (Binary.infinite false) }
    (file.check = .ok () ∧ ofText file.toText = .ok { file with destination := .standardOutput } ∧
      ofText file.toText ≠ .ok file) ∧
      ofText text = .ok endless ∧ ofText endless.toText = .ok { endless with frameRate := none } ∧
        ofText endless.toText ≠ .ok endless := by
  intro file text endless
  have hfile : ofText file.toText = .ok { file with destination := .standardOutput } :=
    ofText_toText file
  have hendless : ofText endless.toText = .ok { endless with frameRate := none } :=
    ofText_toText endless
  refine ⟨⟨by decide +kernel, hfile, ?_⟩, by decide +kernel, hendless, ?_⟩
  · rw [hfile]
    decide
  · rw [hendless]
    decide

end Settings

end Screencast
