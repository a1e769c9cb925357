import Screencast.Proofs.Attempts
import Screencast.Proofs.Lifecycle

/-!
# Set-ups that fail

A recording opens its output last of all, and that is the first call that can destroy anything: a
file at the destination is removed or emptied. So a set-up that fails before leaves the disk alone,
and the container writer and the supplied output too. Whatever failure comes back from below, it is
told as one of the stage at which it arose.

* `Exchange.touches`: a call to what is recorded into.
* `Readied`: all is set up but for the output; `Prepared.onlyAfter_readied`: nothing is touched
  before.
* `stageTold`: the stage that a result tells.
* `Prepared.placed`: a set-up by its cases; `Ran.failuresPlaced`: a run around it.
* `Session.set_up_failures_placed`: the main result.
-/

namespace Screencast

namespace Exchange

/-- A call to what is recorded into: a file, the container writer, a stream or a callback. -/
def touches (e : Exchange) : Bool :=
  e.party == .disk || e.party == .muxer || e.party == .stream

/-- A look at the display, a virtual display or its projection was refused. -/
def deniesCapture : Exchange → Bool
  | ⟨.display .geometry, .error _⟩ => true
  | ⟨.display .refreshRate, .error _⟩ => true
  | ⟨.capture (.bind _ _), .error _⟩ => true
  | ⟨.capture (.project _ _), .error _⟩ => true
  | _ => false

theorem deniesCapture_of_party {e : Exchange} (hd : e.party ≠ .display) (hc : e.party ≠ .capture) :
    e.deniesCapture = false := by
  rcases e with ⟨_ | _ | _ | _, answer⟩
  case display => exact absurd rfl hd
  case capture => exact absurd rfl hc
  all_goals rfl

end Exchange

namespace History

variable {h k : History} {parties : List Party}

/-- Nothing is called that is recorded into. -/
def Untouched (h : History) : Prop := ∀ e ∈ h, e.touches = false

@[simp] theorem untouched_nil : Untouched [] := fun _ he => absurd he List.not_mem_nil

@[simp] theorem untouched_cons {e : Exchange} :
    Untouched (e :: h) ↔ e.touches = false ∧ h.Untouched := List.forall_mem_cons

@[simp] theorem untouched_append : Untouched (h ++ k) ↔ h.Untouched ∧ k.Untouched :=
  List.forall_mem_append

theorem Untouched.filter_eq_nil (hu : h.Untouched) : h.filter Exchange.touches = [] :=
  List.filter_eq_nil_iff.2 fun e he => Bool.eq_false_iff.1 (hu e he)

theorem Within.untouched (hw : h.Within parties) (hd : Party.disk ∉ parties)
    (hm : Party.muxer ∉ parties) (hs : Party.stream ∉ parties) : h.Untouched := by
  intro e he
  have hp := hw e he
  simp only [Exchange.touches, Bool.or_eq_false_iff, beq_eq_false_iff_ne]
  exact ⟨⟨fun h => hd (h ▸ hp), fun h => hm (h ▸ hp)⟩, fun h => hs (h ▸ hp)⟩

theorem Within.capturable (hw : h.Within parties) (hd : Party.display ∉ parties)
    (hc : Party.capture ∉ parties) : ∀ e ∈ h, e.deniesCapture = false := fun e he =>
  Exchange.deniesCapture_of_party (fun h => hd (h ▸ hw e he)) fun h => hc (h ▸ hw e he)

/-- The encoder was set up in full. -/
def Encoding (h : History) : Prop :=
  ∃ params persistent surface table, Encoder.granted params persistent surface table <:+: h

/-- A virtual display was projected. -/
def Capturing (h : History) : Prop :=
  ∃ handle projection, ⟨.capture (.project handle projection), .ok ()⟩ ∈ h

theorem Encoding.mono (he : h.Encoding) (hi : h <:+: k) : k.Encoding := by
  obtain ⟨params, persistent, surface, table, hg⟩ := he
  exact ⟨params, persistent, surface, table, hg.trans hi⟩

theorem Capturing.mono (hc : h.Capturing) (hs : h ⊆ k) : k.Capturing := by
  obtain ⟨handle, projection, hp⟩ := hc
  exact ⟨handle, projection, hs hp⟩

theorem Within.not_capturing (hw : h.Within parties) (hp : Party.capture ∉ parties) :
    ¬h.Capturing := by
  rintro ⟨handle, projection, hmem⟩
  exact hp (hw _ hmem)

theorem capturing_append : Capturing (h ++ k) ↔ h.Capturing ∨ k.Capturing := by
  simp only [Capturing, List.mem_append, exists_or]

end History

open History

/-- All is set up but for the output: the settings are valid, the encoder runs and the display is
captured. -/
structure Readied (settings : Settings) (h : History) : Prop where
  valid : settings.check = .ok ()
  encoding : h.Encoding
  capturing : h.Capturing

theorem Readied.mono {settings : Settings} {h k : History} (hr : Readied settings h)
    (hi : h <:+: k) : Readied settings k :=
  ⟨hr.valid, hr.encoding.mono hi, hr.capturing.mono hi.subset⟩

/-- The stage of the failure that a result is, if it is one. -/
def stageTold {α σ : Type} : Option (Outcome α × σ) → Option Stage
  | some (.error f, _) => some f.stage
  | _ => none

theorem Settings.stage_of_check {settings : Settings} {f : Failure}
    (hc : settings.check = .error f) : f.stage = .settings := by
  unfold check at hc
  split at hc
  · cases hc
  · cases hc
    rfl

/-- An encoder that could not be set up is told as a failure of the encoder. -/
theorem Encoder.Shrunk.stage_of_error {s : Settings} {size : FrameSize} {frameRate : Single}
    {e e' : Encoder} {h : History} {f : Failure}
    (hs : Encoder.Shrunk s size frameRate e h (.error f, e')) (he : e.state = .unconfigured) :
    f.stage = .encoder := by
  cases hs with
  | final _ h₁ => exact (h₁.of_error he).1.stage
  | twice _ h₁ h₂ => exact (h₂.of_error (h₁.of_error he).2.2).1.stage

theorem Encoder.Shrunk.encoding {s : Settings} {size : FrameSize} {frameRate : Single}
    {e e' : Encoder} {h : History} {x : Surface × FrameSize}
    (hs : Encoder.Shrunk s size frameRate e h (.ok x, e')) : h.Encoding := by
  obtain ⟨k, table, rfl⟩ := hs.granted
  exact ⟨_, _, _, table, (List.suffix_append _ _).isInfix⟩

namespace Session

variable {s s' : Session} {h : History}

theorem Inspected.capturable {settings : Settings} {x : Geometry × Single}
    (hi : Inspected settings h (.ok x)) : ∀ e ∈ h, e.deniesCapture = false := by
  cases hi <;> simp [Exchange.deniesCapture]

theorem Inspected.stage_of_error {settings : Settings} {f : Failure}
    (hi : Inspected settings h (.error f)) : f.stage = .capture := by
  cases hi with
  | unseen _ _ hg => exact hg
  | unrated _ _ _ hg => exact hg

/-- Without a container writer a container is refused before anything is touched. -/
theorem Opened.muxerless {x : Outcome Sink} (ho : Opened s h (x, s'))
    (hc : s.settings.format.isContainer = true) (hm : s.hasMuxer = false) :
    h = [] ∧ ∃ f, x = .error f ∧ f.stage = .settings := by
  have hsome : s.settings.format.container? ≠ none := Option.isSome_iff_ne_none.1 hc
  cases ho with
  | homeless _ f hf => exact ⟨rfl, f, rfl, hf⟩
  | container _ _ _ _ _ hw =>
    rw [hm] at hw
    cases hw
  | supplied _ hn => exact absurd hn hsome
  | destination hn => exact absurd hn hsome

/-- A file that cannot be removed is told as a failure of the storage, and nothing else is
touched. -/
theorem Opened.unremoved {x : Outcome Sink} {path : Path} {r : Disk.Refusal}
    (ho : Opened s h (x, s')) (hmem : ⟨.disk (.remove path), .error r⟩ ∈ h) (hr : r ≠ .notFound) :
    h = [⟨.disk (.remove path), .error r⟩] ∧ ∃ f, x = .error f ∧ f.stage = .storage := by
  have hcleared : ∀ {k path'}, Muxed.Cleared path' k →
      ⟨.disk (.remove path), .error r⟩ ∉ k := by
    intro k path' hk hmem
    cases hk <;> simp at hmem
    exact hr hmem.2
  cases ho with
  | homeless => exact absurd hmem List.not_mem_nil
  | container _ _ _ _ hm =>
    cases hm with
    | kept _ f hf =>
      rw [List.mem_singleton] at hmem
      exact ⟨by rw [hmem], f, rfl, hf⟩
    | refused _ hk => simp [hcleared hk] at hmem
    | unturned _ _ hk => simp [hcleared hk] at hmem
    | turned _ hk => simp [hcleared hk] at hmem
    | made _ hk => simp [hcleared hk] at hmem
  | supplied => exact absurd hmem List.not_mem_nil
  | @destination _ y _ _ hd =>
    generalize s.settings.destination = d at hd
    cases hd <;> simp at hmem

/-! ## Where a set-up fails -/

/-- **Where a set-up can fail and what it has touched by then.** The output is touched only once all
else is set up, and each refusal makes the result a failure of its stage. -/
structure FailuresPlaced {α σ : Type} (settings : Settings) (hasMuxer : Bool) (h : History)
    (result : Option (Outcome α × σ)) : Prop where
  touches : h.OnlyAfter Exchange.touches (Readied settings)
  /-- Settings that are not valid. -/
  invalid : settings.check ≠ .ok () → h.Within [.watcher] ∧ stageTold result = some .settings
  /-- A display that cannot be looked at, made or projected. -/
  uncaptured : (∃ e ∈ h.before .capturing, e.deniesCapture = true) →
    h.Untouched ∧ stageTold result = some .capture
  /-- An encoder that is configured, once or twice, but never set up in full. -/
  unencoded : (∃ e ∈ h, e.configures = true) → ¬h.Encoding →
    h.Untouched ∧ stageTold result = some .encoder
  /-- A container without a container writer. -/
  muxerless : settings.format.isContainer = true → hasMuxer = false →
    h.Untouched ∧ (h.Capturing → stageTold result = some .settings)
  /-- A file in the way that cannot be removed. -/
  unremoved : ∀ path r, ⟨.disk (.remove path), .error r⟩ ∈ h → r ≠ .notFound →
    h.filter Exchange.touches = [⟨.disk (.remove path), .error r⟩] ∧
      stageTold result = some .storage

variable {α σ : Type} {settings : Settings} {hasMuxer : Bool} {f : Failure} {t : σ}

/-- A set-up that fails before the output is opened. -/
theorem placed_of_unready (hv : settings.check = .ok ())
    (hw : h.Within [.display, .encoder, .capture])
    (hd : (∃ e ∈ h, e.deniesCapture = true) → f.stage = .capture)
    (he : (∃ e ∈ h, e.configures = true) → ¬h.Encoding → f.stage = .encoder)
    (hc : ¬h.Capturing) :
    FailuresPlaced settings hasMuxer h (some ((.error f, t) : Outcome α × σ)) := by
  have huntouched : h.Untouched := hw.untouched (by simp) (by simp) (by simp)
  refine ⟨onlyAfter_of_none huntouched, fun hn => absurd hv hn, ?_, ?_, ?_, ?_⟩
  · rw [before_of_notOpened (hw.notOpened (by simp))]
    exact fun hden => ⟨huntouched, congrArg some (hd hden)⟩
  · exact fun hconf hn => ⟨huntouched, congrArg some (he hconf hn)⟩
  · exact fun _ _ => ⟨huntouched, fun hr => absurd hr hc⟩
  · intro path r hmem
    exact absurd (hw _ hmem) (by simp [Exchange.party])

/-- A set-up that has come to the opening of its output. -/
theorem placed_of_readied {opened undone : History} {x : Outcome Sink} {y : Outcome α}
    (hr : Readied s.settings h) (hw : h.Within [.display, .encoder, .capture])
    (hd : ∀ e ∈ h, e.deniesCapture = false) (ho : Opened s opened (x, s'))
    (hu : undone.Within [.capture, .encoder]) (hn : ∀ e ∈ undone, e.deniesCapture = false)
    (hxy : ∀ f, x = .error f → y = .error f) :
    FailuresPlaced s.settings s.hasMuxer (h ++ opened ++ undone) (some (y, t)) := by
  have hbefore : h.Untouched := hw.untouched (by simp) (by simp) (by simp)
  have hafter : undone.Untouched := hu.untouched (by simp) (by simp) (by simp)
  have hready : ∀ {k}, Readied s.settings (h ++ k) := hr.mono (List.prefix_append _ _).isInfix
  have hfails : ∀ {stage}, (∃ f, x = .error f ∧ f.stage = stage) →
      stageTold (some (y, t)) = some stage := by
    rintro stage ⟨f, hx, rfl⟩
    rw [hxy f hx]
    rfl
  refine ⟨?_, fun hv => absurd hr.valid hv, ?_, ?_, ?_, ?_⟩
  · simp only [onlyAfter_append]
    refine ⟨⟨onlyAfter_of_none hbefore, fun earlier _ _ _ _ => hready⟩, onlyAfter_of_none hafter⟩
  · have hall : ∀ e ∈ h ++ opened ++ undone, e.deniesCapture = false := by
      simp only [List.forall_mem_append]
      exact ⟨⟨hd, ho.within.capturable (by simp) (by simp)⟩, hn⟩
    rintro ⟨e, he, hden⟩
    rw [hall e ((List.takeWhile_prefix _).subset he)] at hden
    cases hden
  · intro _ hnone
    rw [List.append_assoc] at hnone
    exact absurd (hready (k := opened ++ undone)).encoding hnone
  · intro hc hm
    obtain ⟨rfl, hfail⟩ := ho.muxerless hc hm
    rw [List.append_nil]
    exact ⟨untouched_append.2 ⟨hbefore, hafter⟩, fun _ => hfails hfail⟩
  · intro path r hmem hne
    have hopened : ⟨.disk (.remove path), .error r⟩ ∈ opened := by
      simp only [List.mem_append] at hmem
      rcases hmem with (hmem | hmem) | hmem
      · exact absurd (hw _ hmem) (by simp [Exchange.party])
      · exact hmem
      · exact absurd (hu _ hmem) (by simp [Exchange.party])
    obtain ⟨rfl, hfail⟩ := ho.unremoved hopened hne
    refine ⟨?_, hfails hfail⟩
    rw [List.filter_append, List.filter_append, hbefore.filter_eq_nil, hafter.filter_eq_nil]
    rfl

/-- What is there once the display is captured. -/
theorem readied_of_started {look setUp bound : History} {geometry : Geometry} {rate : Single}
    {surface : Surface} {size requested : FrameSize} {projection : Projection} {e : Encoder}
    {c : Capture} (hv : s.settings.check = .ok ())
    (hl : Inspected s.settings look (.ok (geometry, rate)))
    (he : Encoder.Shrunk s.settings requested rate s.encoder setUp (.ok (surface, size), e))
    (hc : Capture.Started surface geometry size s.settings.rotate s.capture bound
      (.ok projection, c)) :
    Readied s.settings (look ++ setUp ++ bound) ∧
      (look ++ setUp ++ bound).Within [.display, .encoder, .capture] ∧
      ∀ e ∈ look ++ setUp ++ bound, e.deniesCapture = false := by
  refine ⟨⟨hv, he.encoding.mono ⟨look, bound, rfl⟩, ?_⟩,
    by simp [hl.within.mono, he.within.mono, hc.within.mono], ?_⟩
  · cases hc with
    | started handle => exact ⟨handle, .fit geometry size s.settings.rotate, by simp⟩
  · simp only [List.forall_mem_append]
    refine ⟨⟨hl.capturable, he.within.capturable (by simp) (by simp)⟩, ?_⟩
    cases hc with
    | started => simp [Exchange.deniesCapture]

theorem Abandoned.capturable (ha : Abandoned s h s') : ∀ e ∈ h, e.deniesCapture = false := by
  obtain ⟨hs⟩ := ha
  have hclosing : ∀ e ∈ s.capture.closing, e.deniesCapture = false := by
    unfold Capture.closing
    split <;> simp [Exchange.deniesCapture]
  simp only [List.forall_mem_append]
  exact ⟨⟨hclosing, hs.within.capturable (by simp) (by simp)⟩,
    Encoder.freeing_within.capturable (by simp) (by simp)⟩

/-- **A set-up touches nothing before all else is ready**, and its failure tells its stage. -/
theorem Prepared.placed {x : Outcome Ready} (hp : Prepared s h (x, s'))
    (hidle : s.encoder.state = .unconfigured) :
    FailuresPlaced s.settings s.hasMuxer h (some (x, s')) := by
  cases hp with
  | invalid f hf =>
    have hnone : ∀ {e : Exchange}, e ∉ ([] : History) := List.not_mem_nil
    have hstage : some f.stage = some .settings := congrArg some (Settings.stage_of_check hf)
    refine ⟨onlyAfter_of_none (by simp), fun _ => ⟨within_nil, hstage⟩, ?_, ?_, ?_, ?_⟩
    · rintro ⟨e, he, -⟩
      exact absurd he hnone
    · rintro ⟨e, he, -⟩
      exact absurd he hnone
    · exact fun _ _ => ⟨untouched_nil, fun _ => hstage⟩
    · exact fun _ _ hmem => absurd hmem hnone
  | unseen hv hl =>
    refine placed_of_unready hv (hl.within.mono (by simp)) (fun _ => hl.stage_of_error) ?_ ?_
    · rintro ⟨e, he, hconf⟩
      rw [(hl.within.calm (by simp)).unclaimed e he] at hconf
      cases hconf
    · exact hl.within.not_capturing (by simp)
  | @noEncoder look setUp _ _ _ _ hv hl he =>
    have hw : (look ++ setUp).Within [.display, .encoder] := by
      simp [hl.within.mono, he.within.mono]
    refine placed_of_unready hv (hw.mono (by simp)) ?_ (fun _ _ => he.stage_of_error hidle) ?_
    · rintro ⟨e, hmem, hden⟩
      have hall := List.forall_mem_append.2
        ⟨hl.capturable, he.within.capturable (by simp) (by simp)⟩
      rw [hall e hmem] at hden
      cases hden
    · exact hw.not_capturing (by simp)
  | @noCapture look setUp bound undone geometry rate surface size _ _ _ _ hv hl he hc ha =>
    have hw : (look ++ setUp ++ bound ++ undone).Within [.display, .encoder, .capture] := by
      simp [hl.within.mono, he.within.mono, hc.within.mono, ha.within.mono]
    refine placed_of_unready hv hw (fun _ => hc.rejected.1) ?_ ?_
    · exact fun _ hnone => absurd (he.encoding.mono ⟨look, bound ++ undone, by simp⟩) hnone
    · simp only [capturing_append]
      rintro (((hcap | hcap) | hcap) | hcap)
      · exact hl.within.not_capturing (by simp) hcap
      · exact he.within.not_capturing (by simp) hcap
      · obtain ⟨handle, projection, hmem⟩ := hcap
        cases hc <;> simp at hmem
      · obtain ⟨handle, projection, hmem⟩ := hcap
        exact ha.unprojected handle projection hmem
  | @noOutput look setUp bound opened undone _ _ _ _ _ _ e c _ _ hv hl he hc ho ha =>
    obtain ⟨hr, hw, hd⟩ := readied_of_started hv hl he hc
    exact placed_of_readied (s := { s with encoder := e, capture := c }) hr hw hd ho ha.within
      ha.capturable fun g hg => by
        cases hg
        rfl
  | @ready look setUp bound opened _ rate _ size _ e c sink _ hv hl he hc ho =>
    obtain ⟨hr, hw, hd⟩ := readied_of_started hv hl he hc
    have hplaced : FailuresPlaced s.settings s.hasMuxer (look ++ setUp ++ bound ++ opened ++ [])
        (some ((.ok ⟨sink, size, rate⟩, s') : Outcome Ready × Session)) :=
      placed_of_readied (s := { s with encoder := e, capture := c }) hr hw hd ho within_nil
        (by simp) fun g hg => by cases hg
    rwa [List.append_nil] at hplaced

theorem Prepared.readied {r : Ready} (hp : Prepared s h (.ok r, s')) : Readied s.settings h := by
  cases hp with
  | ready hv hl he hc =>
    exact (readied_of_started hv hl he hc).1.mono (List.prefix_append _ _).isInfix

/-! ## The run around its set-up -/

variable {setUp rest : History} {result : Option (Outcome Recording × Session)}

theorem FailuresPlaced.behind {y : Option (Outcome α × σ)}
    (hp : FailuresPlaced settings hasMuxer setUp y) :
    OnlyAfter Exchange.touches (Readied settings) (entered .configuring :: setUp) := by
  rw [onlyAfter_cons]
  refine ⟨fun ht => ?_, hp.touches.mono fun _ hr => hr.mono (List.suffix_cons _ _).isInfix⟩
  cases ht

/-- A run whose set-up has failed is that set-up between notices. -/
theorem FailuresPlaced.refused
    (hp : FailuresPlaced settings hasMuxer setUp (some ((.error f, t) : Outcome α × σ)))
    (hs : setUp.Silent) (hr : rest.Within [.watcher])
    (hn : ∀ e ∈ rest, e.opens .capturing = false) :
    FailuresPlaced settings hasMuxer (entered .configuring :: setUp ++ rest)
      (some ((.error f, s') : Outcome Recording × Session)) := by
  have hrest : rest.Untouched := hr.untouched (by simp) (by simp) (by simp)
  have huntouched : setUp.Untouched →
      Untouched (entered .configuring :: setUp ++ rest) := fun hu =>
    untouched_append.2 ⟨untouched_cons.2 ⟨rfl, hu⟩, hrest⟩
  -- no notice is a call of the set-up
  have hmem : ∀ {e : Exchange}, e ∈ entered .configuring :: setUp ++ rest → e.party ≠ .watcher →
      e ∈ setUp := by
    intro e he hparty
    rcases List.mem_append.1 he with he | he
    · rcases List.mem_cons.1 he with rfl | he
      · simp [Exchange.party] at hparty
      · exact he
    · exact absurd (List.mem_singleton.1 (hr e he)) hparty
  have hbefore : before .capturing (entered .configuring :: setUp ++ rest) =
      entered .configuring :: setUp ++ rest := by
    refine before_of_notOpened (List.forall_mem_append.2 ⟨List.forall_mem_cons.2 ⟨rfl, ?_⟩, hn⟩)
    exact hs.notOpened
  refine ⟨?_, fun hv => ?_, ?_, ?_, fun hc hm => ?_, fun path r hmem' hne => ?_⟩
  · exact onlyAfter_append.2 ⟨hp.behind, onlyAfter_of_none hrest⟩
  · obtain ⟨hw, hfail⟩ := hp.invalid hv
    exact ⟨within_append.2 ⟨within_cons.2 ⟨by simp [Exchange.party], hw⟩, hr⟩, hfail⟩
  · rw [hbefore]
    rintro ⟨e, he, hden⟩
    have hset : e ∈ setUp := hmem he fun hw => by
      rw [Exchange.deniesCapture_of_party (by simp [hw]) (by simp [hw])] at hden
      cases hden
    obtain ⟨hu, hfail⟩ := hp.uncaptured ⟨e, by rwa [before_of_notOpened hs.notOpened], hden⟩
    exact ⟨huntouched hu, hfail⟩
  · rintro ⟨e, he, hconf⟩ hnone
    have hset : e ∈ setUp := hmem he fun hw => by
      have hleaves := Exchange.leaves_of_party (e := e) (by simp [hw])
      rw [(Exchange.leaves_iff.1 hleaves).1] at hconf
      cases hconf
    obtain ⟨hu, hfail⟩ := hp.unencoded ⟨e, hset, hconf⟩ fun henc =>
      hnone (henc.mono ⟨[entered .configuring], rest, by simp⟩)
    exact ⟨huntouched hu, hfail⟩
  · obtain ⟨hu, hfail⟩ := hp.muxerless hc hm
    refine ⟨huntouched hu, ?_⟩
    rintro ⟨handle, projection, hcap⟩
    exact hfail ⟨handle, projection, hmem hcap (by simp [Exchange.party])⟩
  · obtain ⟨htouched, hfail⟩ := hp.unremoved path r (hmem hmem' (by simp [Exchange.party])) hne
    refine ⟨?_, hfail⟩
    rw [List.filter_append, hrest.filter_eq_nil, List.append_nil]
    exact htouched

/-- In a run that has begun to capture, none of the set-up's calls was refused. -/
theorem FailuresPlaced.started {r : Ready} {t : Session}
    (hp : FailuresPlaced settings hasMuxer setUp (some ((.ok r, t) : Outcome Ready × Session)))
    (hr : Readied settings setUp) (hs : setUp.Silent) (hn : ∀ e ∈ rest, e.setsUp = false) :
    FailuresPlaced settings hasMuxer
      (entered .configuring :: setUp ++ entered .capturing :: rest) result := by
  have hinfix : setUp <:+: entered .configuring :: setUp ++ entered .capturing :: rest :=
    ⟨[entered .configuring], entered .capturing :: rest, by simp⟩
  have hbefore : before .capturing (entered .configuring :: setUp ++ entered .capturing :: rest) =
      entered .configuring :: setUp :=
    before_append (List.forall_mem_cons.2 ⟨rfl, hs.notOpened⟩) rfl
  refine ⟨?_, fun hv => absurd hr.valid hv, ?_, ?_, fun hc hm => ?_, fun path r hmem hne => ?_⟩
  · refine onlyAfter_append.2 ⟨hp.behind, fun earlier e later _ _ => ?_⟩
    exact hr.mono ⟨[entered .configuring], earlier, by simp⟩
  · rw [hbefore]
    rintro ⟨e, he, hden⟩
    rcases List.mem_cons.1 he with rfl | he
    · cases hden
    · cases (hp.uncaptured ⟨e, by rwa [before_of_notOpened hs.notOpened], hden⟩).2
  · exact fun _ hnone => absurd (hr.encoding.mono hinfix) hnone
  · cases (hp.muxerless hc hm).2 hr.capturing
  · simp only [List.cons_append, List.mem_cons, List.mem_append] at hmem
    rcases hmem with hmem | hmem | hmem | hmem
    · cases hmem
    · cases (hp.unremoved path r hmem hne).2
    · cases hmem
    · cases hn _ hmem

/-- A run is a recording, and notices after it. -/
theorem Performed.failuresPlaced {y : Option (Outcome Recording × Session)}
    (hp : Performed s h y) (hidle : s.encoder.state = .unconfigured) (hr : rest.Within [.watcher])
    (hn : ∀ e ∈ rest, e.opens .capturing = false)
    (hy : ∀ f t, y = some (.error f, t) → ∃ t', result = some (.error f, t')) :
    FailuresPlaced s.settings s.hasMuxer (entered .configuring :: h ++ rest) result := by
  have hnotices : ∀ e ∈ rest, e.setsUp = false := (Within.ordinary (hr.mono (by simp))).setsUp
  cases hp.phased with
  | @refused _ f t hset =>
    obtain ⟨t', rfl⟩ := hy f t rfl
    exact (hset.placed hidle).refused hset.silent hr hn
  | @underway setUp loop _ _ hset hl =>
    have hsetsUp : ∀ e ∈ loop ++ rest, e.setsUp = false :=
      List.forall_mem_append.2 ⟨hl.setsUp, hnotices⟩
    have hstarted : FailuresPlaced s.settings s.hasMuxer (entered .configuring :: setUp ++
        entered .capturing :: (loop ++ rest)) result :=
      (hset.placed hidle).started hset.readied hset.silent hsetsUp
    simpa using hstarted
  | @drained setUp loop tail _ _ _ hset hl _ _ ht =>
    have hsetsUp : ∀ e ∈ loop ++ entered .draining :: (tail ++ rest), e.setsUp = false :=
      List.forall_mem_append.2 ⟨hl.setsUp, List.forall_mem_cons.2 ⟨rfl,
        List.forall_mem_append.2 ⟨ht, hnotices⟩⟩⟩
    have hstarted : FailuresPlaced s.settings s.hasMuxer (entered .configuring :: setUp ++
        entered .capturing :: (loop ++ entered .draining :: (tail ++ rest))) result :=
      (hset.placed hidle).started hset.readied hset.silent hsetsUp
    simpa using hstarted

theorem Ran.failuresPlaced (hr : Ran s h result) (hn : s.hasRun = false)
    (hidle : s.encoder.state = .unconfigured) :
    FailuresPlaced s.settings s.hasMuxer h result := by
  cases hr with
  | again _ _ hs =>
    rw [hn] at hs
    cases hs
  | @unfinished k _ hp =>
    have hplaced : FailuresPlaced s.settings s.hasMuxer (entered .configuring :: k ++ [])
        (none : Option (Outcome Recording × Session)) :=
      Performed.failuresPlaced (s := s.begun) hp hidle within_nil (by simp) (by simp)
    rwa [List.append_nil] at hplaced
  | failed _ hp =>
    refine Performed.failuresPlaced (s := s.begun) hp hidle (by simp [Exchange.party])
      (by simp [Exchange.opens]) ?_
    rintro g t ⟨⟩
    exact ⟨_, rfl⟩
  | finished _ hp =>
    refine Performed.failuresPlaced (s := s.begun) hp hidle (by simp [Exchange.party])
      (by simp [Exchange.opens]) ?_
    rintro g t ⟨⟩

/-- What comes before all else is ready touches nothing. -/
theorem FailuresPlaced.untouched (hp : FailuresPlaced settings hasMuxer h result)
    (hn : ¬Readied settings h) : h.Untouched := by
  intro e he
  by_contra ht
  obtain ⟨earlier, later, rfl⟩ := List.append_of_mem he
  have hready := hp.touches earlier e later rfl (by simpa using ht)
  exact hn (hready.mono (List.prefix_append _ _).isInfix)

variable {passes : Nat} {output : Option Raw}

/-- **A set-up that fails leaves the disk alone and names its stage.** Whatever is refused, and with
whatever failure, nothing that is recorded into is touched before the settings are found valid, the
encoder is set up in full and the display is captured; so a run that ends before that touches
nothing. Settings that are not valid are refused as such, without any call but the notices; a
display that cannot be looked at, made or projected is a failure of the capture; an encoder that is
configured but never set up in full is one of the encoder, after a second attempt too; a container
without a writer is refused with the settings and nothing is touched; and a file that cannot be
removed is a failure of the storage, and the refused removal is the only call of its kind. -/
theorem set_up_failures_placed
    (hr : (run passes (ofSettings settings hasMuxer output)).Runs h result) :
    FailuresPlaced settings hasMuxer h.calls result ∧
      (¬Readied settings h.calls → h.calls.Untouched) := by
  have hplaced := (ensures_run passes _ h _ hr).failuresPlaced rfl rfl
  exact ⟨hplaced, hplaced.untouched⟩

open Rehearsal in
/-- A container without a writer, an encoder without a buffer table, and settings that are refused:
each of them touches nothing. -/
theorem set_up_failures_placed_obliging :
    let silent := run 9 (ofSettings .standard false none)
    let tableless := run 9 (ofSettings .standard true none)
    let mistaken := { Settings.standard with bitRate := 0 }
    let refused := run 9 (ofSettings mistaken true none)
    let device := Obliging.ofEvents []
    stageTold (silent.run Obliging.answer device).1 = some .settings ∧
      FailuresPlaced .standard false (silent.history Obliging.answer device).calls
        (silent.run Obliging.answer device).1 ∧
      stageTold (tableless.run Obliging.answerTableless device).1 = some .encoder ∧
      FailuresPlaced .standard true (tableless.history Obliging.answerTableless device).calls
        (tableless.run Obliging.answerTableless device).1 ∧
      (refused.history Obliging.answer device).calls.length = 3 ∧
      FailuresPlaced mistaken true (refused.history Obliging.answer device).calls
        (refused.run Obliging.answer device).1 := by
  intro silent tableless mistaken refused device
  refine ⟨by decide +kernel, ?_, by decide +kernel, ?_, by decide +kernel, ?_⟩
  · exact (set_up_failures_placed (Program.runs_run _ _ _)).1
  · exact (set_up_failures_placed (Program.runs_run _ _ _)).1
  · exact (set_up_failures_placed (Program.runs_run _ _ _)).1

end Session

end Screencast
