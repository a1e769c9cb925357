import Screencast.Proofs.BareOutput
import Screencast.Proofs.Lifecycle
import Screencast.Proofs.StopDecision
import Screencast.Rehearsal.Obliging

/-!
# One set of parameters

The size of the video, its bit rate and its frame rate reach the encoder, the projection of the
display and the description of the recording. In a recording that ends well all of them have got the
parameters that the encoder was set up with in the end.

* `History.Fitted`: each projection is of the geometry that the display has reported last.
* `Take.Looped.fitted`: the loop by induction on its passes.
* `Parameters`: what a set-up was made with, in a history.
* `Session.Prepared.parameters`: the set-up.
* `Session.parameters_agree`: the main result.
-/

namespace Screencast

namespace Exchange

/-- A geometry that the display has reported. -/
def geometry? : Exchange → Option Geometry
  | ⟨.display .geometry, .ok g⟩ => some g
  | _ => none

/-- The surface and the layer stack that a virtual display is asked for. -/
def binding? : Exchange → Option (Surface × UInt32)
  | ⟨.capture (.bind surface layerStack), _⟩ => some (surface, layerStack)
  | _ => none

/-- A projection that is asked for, granted or not. -/
def projection? : Exchange → Option Projection
  | ⟨.capture (.project _ p), _⟩ => some p
  | _ => none

/-- A file is opened for the recording: a container is made, or the file of a bare stream is
created. -/
def opensFile : Exchange → Bool
  | ⟨.muxer (.create _ _), .ok ()⟩ => true
  | ⟨.disk (.create _), .ok ()⟩ => true
  | _ => false

variable {e : Exchange}

theorem geometry?_of_party (hp : e.party ≠ .display) : e.geometry? = none := by
  rcases e with ⟨_ | _ | _, answer⟩
  case display => exact absurd rfl hp
  all_goals rfl

theorem binding?_of_party (hp : e.party ≠ .capture) : e.binding? = none := by
  rcases e with ⟨_ | _ | _ | _, answer⟩
  case capture => exact absurd rfl hp
  all_goals rfl

theorem projection?_of_party (hp : e.party ≠ .capture) : e.projection? = none := by
  rcases e with ⟨_ | _ | _ | _, answer⟩
  case capture => exact absurd rfl hp
  all_goals rfl

end Exchange

namespace History

variable {h k : History} {parties : List Party} {size : FrameSize} {rotate : Bool}

def geometries (h : History) : List Geometry := h.filterMap Exchange.geometry?

def bindings (h : History) : List (Surface × UInt32) := h.filterMap Exchange.binding?

def projections (h : History) : List Projection := h.filterMap Exchange.projection?

@[simp] theorem geometries_append : geometries (h ++ k) = h.geometries ++ k.geometries :=
  List.filterMap_append ..

@[simp] theorem bindings_append : bindings (h ++ k) = h.bindings ++ k.bindings :=
  List.filterMap_append ..

@[simp] theorem projections_append : projections (h ++ k) = h.projections ++ k.projections :=
  List.filterMap_append ..

theorem Within.geometries (hw : h.Within parties) (hp : Party.display ∉ parties) :
    h.geometries = [] :=
  hw.filterMap_eq_nil fun _ he => Exchange.geometry?_of_party fun h => hp (h ▸ he)

theorem Within.bindings (hw : h.Within parties) (hp : Party.capture ∉ parties) :
    h.bindings = [] :=
  hw.filterMap_eq_nil fun _ he => Exchange.binding?_of_party fun h => hp (h ▸ he)

theorem Within.projections (hw : h.Within parties) (hp : Party.capture ∉ parties) :
    h.projections = [] :=
  hw.filterMap_eq_nil fun _ he => Exchange.projection?_of_party fun h => hp (h ▸ he)

/-- Each projection fits the geometry that the display has reported last onto a video of this
size. -/
def Fitted (size : FrameSize) (rotate : Bool) (h : History) : Prop :=
  ∀ p, h.OnlyAfter (fun e => decide (e.projection? = some p)) fun earlier =>
    ∃ g, earlier.geometries.getLast? = some g ∧ p = .fit g size rotate

theorem fitted_of_unprojected (hn : h.projections = []) : h.Fitted size rotate := by
  intro p
  refine onlyAfter_of_none fun e he => ?_
  have hnone : e.projection? = none := List.filterMap_eq_nil_iff.1 hn e he
  simp [hnone]

/-- What is projected later is of a geometry that is reported later. -/
theorem Fitted.append (hh : h.Fitted size rotate) (hk : k.Fitted size rotate) :
    Fitted size rotate (h ++ k) := by
  intro p
  refine onlyAfter_append.2 ⟨hh p, (hk p).mono ?_⟩
  rintro earlier ⟨g, hlast, hp⟩
  refine ⟨g, ?_, hp⟩
  rw [geometries_append, List.getLast?_append, hlast]
  rfl

theorem Within.fitted (hw : h.Within parties) (hp : Party.capture ∉ parties) :
    h.Fitted size rotate := fitted_of_unprojected (hw.projections hp)

end History

open History

/-! ## The loop -/

/-- The virtual display, if there is one, is for a video of this size. -/
def Capture.For (size : FrameSize) (rotate : Bool) (c : Capture) : Prop :=
  ∀ d, c.active = some d → d.size = size ∧ d.rotate = rotate

namespace Take

variable {t t' : Take} {h : History} {size : FrameSize} {rotate : Bool}

/-- A look at the display projects what it has just seen, if anything, for the same video. -/
theorem Looked.fitted {c c' : Capture} (hl : Looked c h c') (hc : c.For size rotate) :
    h.Fitted size rotate ∧ c'.For size rotate := by
  have hseen : ∀ {g : Geometry} {d : VirtualDisplay} {answer : Outcome Unit},
      c.active = some d → Fitted size rotate [⟨.display .geometry, .ok g⟩,
        ⟨.capture (.project d.handle (.fit g d.size d.rotate)), answer⟩] := by
    intro g d answer hd p
    obtain ⟨rfl, rfl⟩ := hc d hd
    rw [onlyAfter_cons, onlyAfter_cons]
    refine ⟨by simp [Exchange.projection?], ?_, onlyAfter_of_none (by simp)⟩
    intro hp
    refine ⟨g, rfl, ?_⟩
    simpa [Exchange.projection?] using (of_decide_eq_true hp).symm
  cases hl with
  | unseen => exact ⟨fitted_of_unprojected rfl, hc⟩
  | seen g hu =>
    cases hu with
    | still => exact ⟨fitted_of_unprojected rfl, hc⟩
    | refused d _ hd => exact ⟨hseen hd, hc⟩
    | projected d hd =>
      refine ⟨hseen hd, fun d' hd' => ?_⟩
      cases hd'
      exact hc d hd

theorem Handled.fitted {s : Sample} {x : Outcome Unit} (hh : Handled s t h (x, t'))
    (hc : t.capture.For size rotate) : h.Fitted size rotate ∧ t'.capture.For size rotate := by
  have hall : ∀ {look clock out : History} {c : Capture} {time : Int} {y},
      Looked t.capture look c → Timed s.time clock time → Sink.Sent { s with time } t.sink out y →
      Fitted size rotate (look ++ clock ++ out) ∧ c.For size rotate := by
    intro look clock out c time y hl ht hw
    obtain ⟨hfitted, hfor⟩ := hl.fitted hc
    exact ⟨(hfitted.append (ht.within.fitted (by simp))).append (hw.within.fitted (by simp)), hfor⟩
  cases hh with
  | skipped => exact ⟨fitted_of_unprojected rfl, hc⟩
  | refused _ hl ht hw => exact hall hl ht hw
  | written _ hl ht hw =>
    unfold after
    split <;> exact hall hl ht hw

theorem Passed.fitted {x : Outcome Bool} (hp : Passed t h (x, t'))
    (hc : t.capture.For size rotate) : h.Fitted size rotate ∧ t'.capture.For size rotate := by
  have hpolled : ∀ {k y}, Encoder.Polled longestWait t.encoder k y → k.Fitted size rotate :=
    fun hp => hp.within.fitted (by simp)
  have hformat : ∀ {format k y}, Sink.Reformatted format t.sink k y →
      Fitted size rotate (dequeued .formatChanged :: ⟨.encoder .currentFormat, .ok format⟩ :: k) :=
    fun hr => (fitted_of_unprojected (h := [_, _]) rfl).append (hr.within.fitted (by simp))
  cases hp with
  | unpolled hp => exact ⟨hpolled hp, hc⟩
  | reformatted _ hr => exact ⟨hformat hr, hc⟩
  | unformatted _ hr => exact ⟨hformat hr, hc⟩
  | unwritten hp hh => exact ⟨(hpolled hp).append (hh.fitted hc).1, (hh.fitted hc).2⟩
  | kept _ hp hh =>
    exact ⟨((hpolled hp).append (hh.fitted hc).1).append (fitted_of_unprojected rfl),
      (hh.fitted hc).2⟩
  | last hp hh =>
    exact ⟨((hpolled hp).append (hh.fitted hc).1).append (fitted_of_unprojected rfl),
      (hh.fitted hc).2⟩
  | moved hp hh =>
    exact ⟨((hpolled hp).append (hh.fitted hc).1).append (fitted_of_unprojected rfl),
      (hh.fitted hc).2⟩
  | _ => exact ⟨fitted_of_unprojected rfl, hc⟩

/-- **The loop** projects each geometry for the video that the virtual display was made for. -/
theorem Looped.fitted {deadline : Int64} {r : Option (Outcome Ending × Take)}
    (hl : Looped deadline t h r) (hc : t.capture.For size rotate) : h.Fitted size rotate := by
  have hturn : ∀ {k : History} {nanos}, k.Fitted size rotate →
      Fitted size rotate (asked false :: clocked nanos :: k) :=
    fun hk => (fitted_of_unprojected (h := [_, _]) rfl).append hk
  induction hl with
  | spent => exact fitted_of_unprojected rfl
  | stopped => exact fitted_of_unprojected rfl
  | late => exact fitted_of_unprojected rfl
  | failed _ _ hp => exact hturn (hp.fitted hc).1
  | ended _ _ hp => exact hturn (hp.fitted hc).1
  | next _ _ hp _ ih => exact hturn ((hp.fitted hc).1.append (ih (hp.fitted hc).2))

end Take

/-! ## The parameters in a history -/

/-- The parameters of a recording in the calls that it makes: the encoder was last set up with them
and gave this surface; the one virtual display was made for this surface and for the layer stack of
the first geometry; the first projection is of that geometry, and each later one of the geometry that
was reported last before it, onto a video of the size. -/
structure Parameters (size : FrameSize) (bitRate : UInt32) (frameRate : Single) (rotate : Bool)
    (surface : Surface) (first : Geometry) (h : History) : Prop where
  encoder : ∃ earlier params persistent table later,
    h = earlier ++ Encoder.granted params persistent surface table ++ later ∧ later.Unclaimed ∧
      params.width = size.width ∧ params.height = size.height ∧ params.bitRate = bitRate ∧
        params.frameRate = frameRate
  reported : h.geometries.head? = some first
  bound : h.bindings = [(surface, first.layerStack)]
  projected : h.projections.head? = some (.fit first size rotate)
  fitted : h.Fitted size rotate

section Parameters

variable {size : FrameSize} {bitRate : UInt32} {frameRate : Single} {rotate : Bool}
  {surface : Surface} {first : Geometry} {h k : History}

/-- Notices may come before. -/
theorem Parameters.preceded (hp : Parameters size bitRate frameRate rotate surface first h)
    (hk : k.Within [.watcher]) :
    Parameters size bitRate frameRate rotate surface first (k ++ h) := by
  refine ⟨?_, ?_, ?_, ?_, (hk.fitted (by simp)).append hp.fitted⟩
  · obtain ⟨earlier, params, persistent, table, later, rfl, hparams⟩ := hp.encoder
    exact ⟨k ++ earlier, params, persistent, table, later, by simp, hparams⟩
  · rw [geometries_append, hk.geometries (by simp)]
    exact hp.reported
  · rw [bindings_append, hk.bindings (by simp)]
    exact hp.bound
  · rw [projections_append, hk.projections (by simp)]
    exact hp.projected

/-- Calls that set nothing up may follow. -/
theorem Parameters.followed (hp : Parameters size bitRate frameRate rotate surface first h)
    (hk : ∀ e ∈ k, e.setsUp = false) (hf : k.Fitted size rotate) :
    Parameters size bitRate frameRate rotate surface first (h ++ k) := by
  have hclaims : ∀ e : Exchange, e.setsUp = false → e.configures = false := by
    rintro ⟨_ | _, answer⟩ he
    case encoder r => cases r <;> first | rfl | cases he
    all_goals rfl
  have hbinds : k.bindings = [] := by
    refine List.filterMap_eq_nil_iff.2 fun e he => ?_
    have hset := hk e he
    rcases e with ⟨_ | _ | r | _, answer⟩
    case capture => cases r <;> first | rfl | cases hset
    all_goals rfl
  refine ⟨?_, ?_, ?_, ?_, hp.fitted.append hf⟩
  · obtain ⟨earlier, params, persistent, table, later, rfl, hlater, hparams⟩ := hp.encoder
    refine ⟨earlier, params, persistent, table, later ++ k, by simp, ?_, hparams⟩
    exact unclaimed_append.2 ⟨hlater, fun e he => hclaims e (hk e he)⟩
  · rw [geometries_append, List.head?_append, hp.reported]
    rfl
  · rw [bindings_append, hp.bound, hbinds]
    rfl
  · rw [projections_append, List.head?_append, hp.projected]
    rfl

end Parameters

/-! ## The set-up -/

/-- Outputs that look alike from outside write to the same file. -/
theorem Sink.path?_congr {sink sink' : Sink} (hf : sink.face = sink'.face) :
    sink.path? = sink'.path? := by
  obtain m | r := sink <;> obtain m' | r' := sink'
  · exact congrArg some (Face.muxed.inj hf).1
  · cases hf
  · cases hf
  · exact (Face.raw.inj hf).2.1

/-- The file of a recording of its own: that of a container, or of a bare stream where no output is
supplied for it. -/
def ownFile? (settings : Settings) (supply : Option Supply) : Option Path :=
  match settings.format.container?, supply with
  | none, some _ => none
  | _, _ => settings.destination.path?

/-- A file was opened for a recording. -/
def History.OpensFile (h : History) : Prop := ∃ e ∈ h, e.opensFile = true

namespace History

variable {h k : History} {parties : List Party}

theorem opensFile_append : OpensFile (h ++ k) ↔ h.OpensFile ∨ k.OpensFile := by
  simp only [OpensFile, List.mem_append, or_and_right, exists_or]

theorem Within.not_opensFile (hw : h.Within parties) (hm : Party.muxer ∉ parties)
    (hd : Party.disk ∉ parties) : ¬h.OpensFile := by
  rintro ⟨e, he, hopens⟩
  have hparty := hw e he
  rcases e with ⟨_ | _ | _ | _ | _ | _ | _, answer⟩
  case muxer => exact hm hparty
  case disk => exact hd hparty
  all_goals cases hopens

theorem not_opensFile (hk : ∀ e ∈ k, e.setsUp = false) : ¬k.OpensFile := by
  rintro ⟨e, he, hopens⟩
  have hset := hk e he
  unfold Exchange.opensFile at hopens
  split at hopens <;> first | cases hset | cases hopens

end History

/-- A virtual display that is started is bound and projected once, for the video that it is made
for. -/
theorem Capture.Started.calls {surface : Surface} {geometry : Geometry} {size : FrameSize}
    {rotate : Bool} {projection : Projection} {c c' : Capture} {h : History}
    (hs : Capture.Started surface geometry size rotate c h (.ok projection, c')) :
    (∃ handle, h = [⟨.capture (.bind surface geometry.layerStack), .ok handle⟩,
      ⟨.capture (.project handle (.fit geometry size rotate)), .ok ()⟩]) ∧ c'.For size rotate := by
  cases hs with
  | started handle =>
    refine ⟨⟨handle, rfl⟩, fun d hd => ?_⟩
    cases hd
    exact ⟨rfl, rfl⟩

namespace Session

variable {s s' : Session} {h : History} {r : Ready} {supply : Option Supply}

/-- A set-up that succeeds was made with the parameters that the recording goes on with. -/
theorem Prepared.parameters (hp : Prepared s h (.ok r, s')) :
    ∃ surface first, Parameters r.size s.settings.bitRate r.frameRate s.settings.rotate surface
      first h ∧ s'.capture.For r.size s.settings.rotate := by
  cases hp with
  | @ready look setUp bound opened first rate surface size projection e c sink _ hv hl he hc ho =>
  have hlook : look.geometries = [first] := by
    cases hl <;> rfl
  have hopened : opened.Within [.disk, outlet s.settings] := ho.within
  have hbefore : (look ++ setUp).Within [.display, .encoder] := by
    simp [hl.within.mono, he.within.mono]
  obtain ⟨⟨handle, hbound⟩, hfor⟩ := hc.calls
  have hlast : (look ++ setUp).geometries.getLast? = some first := by
    rw [geometries_append, hlook, he.within.geometries (by simp)]
    rfl
  -- the projection of the set-up is of the geometry that was reported before the encoder was set up
  have hfitted : Fitted size s.settings.rotate (look ++ setUp ++ bound) := by
    intro p
    refine onlyAfter_append.2 ⟨hbefore.fitted (by simp) p, ?_⟩
    rw [hbound, onlyAfter_cons, onlyAfter_cons]
    refine ⟨by simp [Exchange.projection?], fun hp => ⟨first, ?_, ?_⟩, onlyAfter_of_none (by simp)⟩
    · rw [geometries_append, List.getLast?_append, hlast]
      rfl
    · simpa [Exchange.projection?] using (of_decide_eq_true hp).symm
  refine ⟨surface, first, ⟨?_, ?_, ?_, ?_, hfitted.append (hopened.fitted (by simp))⟩, ?_⟩
  · obtain ⟨k, table, rfl⟩ := he.granted
    refine ⟨look ++ k, Encoder.paramsFor s.settings size rate, s.settings.persistentSurface, table,
      bound ++ opened, by simp, ?_, rfl, rfl, rfl, rfl⟩
    exact unclaimed_append.2
      ⟨(hc.within.calm (by simp)).unclaimed, (hopened.calm (by simp)).unclaimed⟩
  · rw [geometries_append, geometries_append, geometries_append, hlook]
    rfl
  · rw [bindings_append, bindings_append, hbefore.bindings (by simp),
      hopened.bindings (by simp), hbound]
    rfl
  · rw [projections_append, projections_append, hbefore.projections (by simp), hbound]
    rfl
  · rw [ho.capture_eq]
    exact hfor

/-- An output that is opened writes to the recording's own file, or to none. -/
theorem Opened.ownFile {sink : Sink} (hs : s.output = supply.map Supply.raw)
    (ho : Opened s h (.ok sink, s')) :
    sink.path? = ownFile? s.settings supply ∧ (sink.path?.isSome ↔ h.OpensFile) := by
  generalize hx : ((.ok sink, s') : Outcome Sink × Session) = x at ho
  unfold ownFile?
  cases ho with
  | homeless => cases hx
  | container container path hc hp hm =>
    rw [hc, hp]
    have hopens : ∀ {k l : History}, OpensFile
        (k ++ ⟨.muxer (.create path container), .ok ()⟩ :: l) := fun {k l} =>
      ⟨_, List.mem_append_right _ List.mem_cons_self, rfl⟩
    cases hm with
    | turned =>
      cases hx
      exact ⟨rfl, fun _ => hopens, fun _ => rfl⟩
    | made =>
      cases hx
      exact ⟨rfl, fun _ => hopens, fun _ => rfl⟩
    | _ => cases hx
  | supplied raw hc hraw =>
    rw [hc]
    cases hx
    obtain _ | supply := supply
    · rw [hs] at hraw
      cases hraw
    · obtain rfl : supply.raw = raw := Option.some.inj (hs.symm.trans hraw)
      exact ⟨rfl, by simp [OpensFile, Sink.path?, Supply.raw, Raw.ofTarget]⟩
  | @destination _ x hc hnone hopen =>
    rw [hc]
    obtain _ | supply := supply
    · generalize s.settings.destination = d at hopen ⊢
      cases hopen with
      | file path =>
        cases hx
        exact ⟨rfl, fun _ => ⟨_, List.mem_singleton_self _, rfl⟩, fun _ => rfl⟩
      | refused => cases hx
      | standard terminal =>
        cases hx
        refine ⟨rfl, nofun, ?_⟩
        rintro ⟨e, he, hopens⟩
        rw [List.mem_singleton.1 he] at hopens
        cases hopens
    · rw [hs] at hnone
      cases hnone

/-- The file of a session that is ready is its own, and was opened in the set-up. -/
theorem Prepared.ownFile (hs : s.output = supply.map Supply.raw) (hp : Prepared s h (.ok r, s')) :
    r.sink.path? = ownFile? s.settings supply ∧ (r.sink.path?.isSome ↔ h.OpensFile) := by
  cases hp with
  | @ready look setUp bound opened _ _ _ _ _ e c sink _ hv hl he hc hopen =>
  have hbefore : (look ++ setUp ++ bound).Within [.display, .encoder, .capture] := by
    simp [hl.within.mono, he.within.mono, hc.within.mono]
  have hnone : ¬(look ++ setUp ++ bound).OpensFile :=
    hbefore.not_opensFile (by simp) (by simp)
  rw [opensFile_append, or_iff_right hnone]
  have hown := Opened.ownFile (s := { s with encoder := e, capture := c }) hs hopen
  exact hown

/-- From the set-up on an output stays with the recording's own file. -/
theorem ownFile_of_drained {setUp loop times : History} {t : Take} {sink : Sink} {deadline : Int64}
    {looped : Outcome Ending} {timed : Outcome Unit} (hs : s.output = supply.map Supply.raw)
    (hp : Prepared s.begun setUp (.ok r, s'))
    (hl : (s'.taking r).Looped deadline loop (some (looped, t)))
    (ht : Stamped t.times t.sink times (timed, sink)) :
    sink.path? = ownFile? s.settings supply := by
  have hface : sink.path? = r.sink.path? := Sink.path?_congr (ht.face_eq.trans hl.face_eq)
  rw [hface]
  exact (Prepared.ownFile (s := s.begun) hs hp).1

/-! ## The run -/

/-- What the calls of a recording, its result and its description have in common. -/
structure ParametersAgree (settings : Settings) (supply : Option Supply) (h : History)
    (recording : Recording) : Prop where
  parameters : ∃ surface first,
    Parameters ⟨recording.description.width, recording.description.height⟩
      recording.description.bitRate recording.description.frameRate settings.rotate surface first h
  seconds : recording.seconds = recording.description.seconds
  frameCount : recording.frameCount = recording.description.frameCount
  reason : recording.reason = recording.description.reason
  checksum : recording.checksum = recording.description.checksum
  digested : recording.checksum.isSome ↔ h.OpensFile
  ownFile : recording.checksum.isSome = (ownFile? settings supply).isSome

variable {settings : Settings}

/-- What a recording that is concluded tells of itself. -/
theorem Settled.recorded {sink : Sink} {t : Take} {seconds : Double} {verdict : Outcome Ending}
    {recording : Recording}
    (hs : Settled settings sink (totals sink r t seconds) verdict h (.ok recording)) :
    (∃ reason checksum identity,
      recording = recordingOf settings (totals sink r t seconds reason checksum) identity) ∧
      recording.checksum.isSome = sink.path?.isSome := by
  cases hs with
  | concluded _ hc =>
    cases hc with
    | done identity hd _ =>
      refine ⟨⟨_, _, identity, rfl⟩, ?_⟩
      cases hd with
      | nothing hp =>
        rw [hp]
        rfl
      | read _ _ hp =>
        rw [hp]
        rfl

/-- What is given back is not projected. -/
theorem GivenBack.unprojected {sink : Sink} {x : Outcome Unit × Session}
    (hb : GivenBack s sink h x) : h.projections = [] := by
  obtain ⟨hs, hc⟩ := hb
  have hclosing : s.capture.closing.projections = [] := by
    unfold Capture.closing
    split <;> rfl
  rw [projections_append, projections_append, projections_append, hclosing,
    hs.within.projections (by simp), hc.within.projections (by simp),
    Encoder.freeing_within.projections (by simp)]
  rfl

/-- **The parameters of a run** that has ended well. -/
theorem Ran.parametersAgree {recording : Recording} (hr : Ran s h (some (.ok recording, s')))
    (ho : s.output = supply.map Supply.raw) :
    ParametersAgree s.settings supply h recording := by
  generalize hresult : some (Except.ok recording, s') = result at hr
  cases hr.course with
  | unlooped => cases hresult
  | unfinished => cases hresult
  | @drained setUp loop times back rest last r s' s'' t sink looped timed closed x started nanos
      hp hl ht hb hs hlast =>
    cases hresult
    obtain ⟨surface, first, hparameters, hfor⟩ := hp.parameters
    obtain ⟨hpath, hopens⟩ := Prepared.ownFile (s := s.begun) ho hp
    obtain ⟨⟨reason, checksum, identity, rfl⟩, hchecksum⟩ := hs.recorded
    -- whatever follows the set-up sets nothing up, and projects for the video of the set-up
    have hrest : ∀ e ∈ [entered .capturing, Take.clocked started] ++ loop ++
        [Take.clocked nanos, entered .draining] ++ (times ++ back ++ rest) ++ last,
        e.setsUp = false := by
      have hopening : Ordinary [entered .capturing, Take.clocked started] :=
        Within.ordinary (by simp [Exchange.party])
      have hclosing : Ordinary [Take.clocked nanos, entered .draining] :=
        Within.ordinary (by simp [Exchange.party])
      have hnotices : last.Ordinary := (hlast.mono (by simp)).ordinary
      simp only [List.forall_mem_append]
      exact ⟨⟨⟨⟨hopening.setsUp, hl.ordinary.setsUp⟩, hclosing.setsUp⟩,
        by simpa only [List.forall_mem_append] using setsUp_of_recorded ht hb hs⟩, hnotices.setsUp⟩
    have hfitted : Fitted r.size s.settings.rotate ([entered .capturing, Take.clocked started] ++
        loop ++ [Take.clocked nanos, entered .draining] ++ (times ++ back ++ rest) ++ last) := by
      have hloop : loop.Fitted r.size s.settings.rotate := hl.fitted hfor
      have hended : Fitted r.size s.settings.rotate (times ++ back ++ rest) :=
        ((ht.within.fitted (by simp)).append (fitted_of_unprojected hb.unprojected)).append
          (hs.within.fitted (by simp))
      exact (((Fitted.append (fitted_of_unprojected rfl) hloop).append
        (fitted_of_unprojected rfl)).append hended).append (hlast.fitted (by simp))
    have hsplit : lead setUp started ++ loop ++ [Take.clocked nanos] ++
        entered .draining :: (times ++ back ++ rest ++ last) =
          [entered .configuring] ++ setUp ++ ([entered .capturing, Take.clocked started] ++ loop ++
            [Take.clocked nanos, entered .draining] ++ (times ++ back ++ rest) ++ last) := by
      simp [lead]
    have hsettings : s'.settings = s.settings := hp.settings_eq
    have hfirst : History.Within [.watcher] [entered .configuring] := by simp [Exchange.party]
    -- from the set-up on the output stays with its file
    have hface : sink.path? = r.sink.path? := Sink.path?_congr (ht.face_eq.trans hl.face_eq)
    rw [hsplit]
    refine ⟨⟨surface, first, ?_⟩, rfl, rfl, rfl, rfl, ?_, ?_⟩
    · rw [hsettings]
      exact (hparameters.preceded hfirst).followed hrest hfitted
    · rw [opensFile_append, opensFile_append, or_iff_left (not_opensFile hrest),
        or_iff_right (hfirst.not_opensFile (by simp) (by simp)), hchecksum, hface]
      exact hopens
    · rw [hchecksum, hface, hpath]
      rfl

/-- **The parameters agree.** Whatever the settings and the display are, and whichever attempt to set
up the encoder was granted, in a run that records the description has the size, the bit rate and the
frame rate that the encoder was set up with last; the virtual display is of the surface which that
gave and of the first geometry, and every projection is of the geometry reported before it onto a
video of the size; the description has the seconds, the frames, the reason and the checksum of the
result; and there is a checksum exactly if a file of the recording was opened. -/
theorem parameters_agree {hasMuxer : Bool} {passes : Nat} {recording : Recording}
    (hr : (run passes (ofSettings settings hasMuxer (supply.map Supply.raw))).Runs h
      (some (.ok recording, s'))) :
    ParametersAgree settings supply h.calls recording :=
  (ensures_run passes _ h _ hr).parametersAgree rfl

open Rehearsal in
/-- A display that is turned while it is recorded is projected twice. -/
theorem parameters_agree_turning :
    let p := run 9 (ofSettings .standard true none)
    let device := Obliging.ofEvents [.formatChanged, .buffer ⟨0, 1, 2, 0, .empty⟩,
      .buffer ⟨1, 0, 4, 7, .keyFrame⟩]
    let h := (p.history Obliging.answerTurning device).calls
    h.projections.length = 2 ∧ ∃ recording s',
      (p.run Obliging.answerTurning device).1 = some (.ok recording, s') ∧
        ParametersAgree .standard none h recording := by
  intro p device h
  have hends : (p.run Obliging.answerTurning device).1.any (·.1.isOk) := by decide +kernel
  obtain ⟨⟨_ | recording, s'⟩, hr, hok⟩ := (Option.any_eq_true _ _).1 hends
  · cases hok
  · exact ⟨by decide +kernel, recording, s', hr, parameters_agree (hr ▸ Program.runs_run _ _ _)⟩

end Session

end Screencast
