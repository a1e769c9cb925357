import Screencast.Proofs.Episodes
import Screencast.Proofs.RunParts
import Screencast.Proofs.Teardown

/-!
# The life of a session, as it is told

Whoever watches a session is told of each phase that it enters and, in the end, of its result. The
phases stand where they say: no call sets a recording up once the capturing is told, no buffer is
asked for before that or after the draining is told, and nothing is taken down in between.

* `History.notices`: what is told.
* `History.Ordinary`: calls that neither set a recording up nor take it down.
* `Equipped`: the encoder, the virtual display and the output were all set up.
* `Session.runEach`: a session that is run several times.
* `Session.lifecycle_told`: the main result.
-/

namespace Screencast

namespace Exchange

/-- What the watcher is told. -/
def notice? : Exchange → Option Notice
  | ⟨.notify n, _⟩ => some n
  | _ => none

/-- A call that is made to set a recording up and for nothing else. -/
def setsUp : Exchange → Bool
  | ⟨.encoder (.configure _), _⟩ => true
  | ⟨.encoder (.createSurface _), _⟩ => true
  | ⟨.encoder .start, _⟩ => true
  | ⟨.display .refreshRate, _⟩ => true
  | ⟨.capture (.bind _ _), _⟩ => true
  | ⟨.muxer (.create _ _), _⟩ => true
  | ⟨.muxer (.orientationHint _), _⟩ => true
  | ⟨.stream .rawTerminal, _⟩ => true
  | ⟨.disk (.remove _), _⟩ => true
  | ⟨.disk (.create _), _⟩ => true
  | _ => false

/-- A call that takes down what was set up. -/
def tearsDown : Exchange → Bool
  | ⟨.encoder .stop, _⟩ => true
  | ⟨.encoder .release, _⟩ => true
  | ⟨.capture (.release _), _⟩ => true
  | ⟨.muxer .stop, _⟩ => true
  | _ => false

/-- Neither sets a recording up nor takes it down. -/
def ordinary (e : Exchange) : Bool := !e.setsUp && !e.tearsDown

theorem notice?_of_party {e : Exchange} (hp : e.party ≠ .watcher) : e.notice? = none := by
  rcases e with ⟨_ | _ | _ | _ | _ | _ | _ | _ | _ | _ | _, answer⟩
  case notify => exact absurd rfl hp
  all_goals rfl

theorem ordinary_of_party {e : Exchange} (hw : e.party ∈ [.clock, .signal, .watcher, .identity]) :
    e.ordinary = true := by
  rcases e with ⟨_ | _ | _ | _ | _ | _ | _ | _ | _ | _ | _, answer⟩
  all_goals first | rfl | simp [party] at hw

end Exchange

namespace History

variable {h k : History} {parties : List Party}

/-- What the watcher is told, in order. -/
def notices (h : History) : List Notice := h.filterMap Exchange.notice?

@[simp] theorem notices_nil : notices [] = [] := rfl

@[simp] theorem notices_cons {e : Exchange} : notices (e :: h) = e.notice?.toList ++ h.notices := by
  rw [notices, List.filterMap_cons]
  cases e.notice? <;> rfl

@[simp] theorem notices_append : notices (h ++ k) = h.notices ++ k.notices :=
  List.filterMap_append ..

/-- The watcher is told nothing. -/
def Silent (h : History) : Prop := ∀ e ∈ h, e.party ≠ .watcher

@[simp] theorem silent_append : Silent (h ++ k) ↔ h.Silent ∧ k.Silent := List.forall_mem_append

theorem Within.silent (hw : h.Within parties) (hp : Party.watcher ∉ parties) : h.Silent :=
  fun e he h => hp (h ▸ hw e he)

theorem Silent.notices (hs : h.Silent) : h.notices = [] := by
  rw [History.notices, List.filterMap_eq_nil_iff]
  exact fun e he => Exchange.notice?_of_party (hs e he)

theorem Silent.notOpened {phase : Phase} (hs : h.Silent) : ∀ e ∈ h, e.opens phase = false := by
  intro e he
  refine Bool.eq_false_iff.2 fun ho => hs e he ?_
  have hr : e.request = .notify (.phase phase) := by simpa [Exchange.opens] using ho
  simp [Exchange.party, hr]

/-- Calls that leave the encoder alone do not change how often it is released in its tenures. -/
theorem Calm.frees_tenures (hk : k.Calm) :
    (tenures (h ++ k)).map History.frees = h.tenures.map History.frees := by
  rcases tenures_append h hk.unclaimed with ⟨hnone, hnone'⟩ | ⟨ts, t, hts, htk⟩
  · rw [hnone, hnone']
  · rw [hts, htk, List.map_append, List.map_append, List.map_singleton, frees_append, hk.frees]
    rfl

/-- No call sets a recording up or takes it down. -/
def Ordinary (h : History) : Prop := ∀ e ∈ h, e.ordinary = true

@[simp] theorem ordinary_nil : Ordinary [] := fun _ he => absurd he List.not_mem_nil

@[simp] theorem ordinary_cons {e : Exchange} : Ordinary (e :: h) ↔ e.ordinary = true ∧ h.Ordinary :=
  List.forall_mem_cons

@[simp] theorem ordinary_append : Ordinary (h ++ k) ↔ h.Ordinary ∧ k.Ordinary :=
  List.forall_mem_append

theorem Ordinary.setsUp (ho : h.Ordinary) : ∀ e ∈ h, e.setsUp = false := by
  intro e he
  have hordinary := ho e he
  simp only [Exchange.ordinary, Bool.and_eq_true, Bool.not_eq_true'] at hordinary
  exact hordinary.1

theorem Ordinary.tearsDown (ho : h.Ordinary) : ∀ e ∈ h, e.tearsDown = false := by
  intro e he
  have hordinary := ho e he
  simp only [Exchange.ordinary, Bool.and_eq_true, Bool.not_eq_true'] at hordinary
  exact hordinary.2

/-- Calls with those who are not set up leave it at that. -/
theorem Within.ordinary (hw : h.Within [.clock, .signal, .watcher, .identity]) : h.Ordinary :=
  fun e he => Exchange.ordinary_of_party (hw e he)

end History

open History

/-! ## The loop -/

section Loop

variable {h : History}

theorem Encoder.Polled.ordinary {e : Encoder} {milliseconds : Nat}
    {x : Outcome Encoder.Event × Encoder} (hp : Encoder.Polled milliseconds e h x) :
    h.Ordinary := by
  cases hp <;> simp [Exchange.ordinary, Exchange.setsUp, Exchange.tearsDown]

theorem Stream.Wrote.ordinary {s : Stream} {bytes : Bytes} {x : Except String Unit}
    (hw : s.Wrote bytes h x) : h.Ordinary := by
  induction hw with
  | took _ _ _ ih => exact ordinary_cons.2 ⟨rfl, ih⟩
  | _ => simp [Exchange.ordinary, Exchange.setsUp, Exchange.tearsDown]

theorem Raw.Passed.ordinary {target : Raw.Target} {bytes : Bytes} {flush : Bool}
    {x : Except String Unit} (hp : Raw.Passed target bytes flush h x) : h.Ordinary := by
  cases hp with
  | called => simp [Exchange.ordinary, Exchange.setsUp, Exchange.tearsDown]
  | failed _ _ hw => exact hw.ordinary
  | wrote hw => exact hw.ordinary
  | flushed _ hw => simp [hw.ordinary, Exchange.ordinary, Exchange.setsUp, Exchange.tearsDown]

theorem Muxed.Wrote.ordinary {track : Track} {data : Bytes} {time : Int} {flags : Flags} {m : Muxed}
    {x : Outcome Unit × Muxed} (hw : Muxed.Wrote track data time flags m h x) : h.Ordinary := by
  cases hw <;> simp [Exchange.ordinary, Exchange.setsUp, Exchange.tearsDown]

theorem Sink.Sent.ordinary {s : Sample} {sink : Sink} {x : Outcome Unit × Sink}
    (hs : Sink.Sent s sink h x) : h.Ordinary := by
  cases hs with
  | muxed hs =>
    cases hs with
    | early => exact ordinary_nil
    | wrote _ _ hw => exact hw.ordinary
  | raw hs =>
    cases hs with
    | failed _ _ _ _ _ hp => exact hp.ordinary
    | took _ _ hp => exact hp.ordinary
    | _ => exact ordinary_nil

theorem Sink.Reformatted.ordinary {format : TrackFormat} {sink : Sink} {x : Outcome Unit × Sink}
    (hr : Sink.Reformatted format sink h x) : h.Ordinary := by
  have htracked : ∀ {k : History} {m m'}, Muxed.Tracked format m k m' → k.Ordinary := by
    intro k m m' hk
    cases hk <;> simp [Exchange.ordinary, Exchange.setsUp, Exchange.tearsDown]
  cases hr with
  | raw => exact ordinary_nil
  | muxed hr =>
    cases hr with
    | notStarted _ _ _ ht =>
      simp [htracked ht, Exchange.ordinary, Exchange.setsUp, Exchange.tearsDown]
    | started _ _ ht =>
      simp [htracked ht, Exchange.ordinary, Exchange.setsUp, Exchange.tearsDown]
    | _ => simp [Exchange.ordinary, Exchange.setsUp, Exchange.tearsDown]

namespace Take

variable {t : Take}

theorem Looked.ordinary {c c' : Capture} (hl : Looked c h c') : h.Ordinary := by
  cases hl with
  | unseen => simp [Exchange.ordinary, Exchange.setsUp, Exchange.tearsDown]
  | seen _ hu => cases hu <;> simp [Exchange.ordinary, Exchange.setsUp, Exchange.tearsDown]

theorem Handled.ordinary {s : Sample} {x : Outcome Unit × Take} (hh : Handled s t h x) :
    h.Ordinary := by
  have htimed : ∀ {given time : Int} {clock : History},
      Timed given clock time → clock.Ordinary := by
    intro given time clock ht
    cases ht <;> simp [Exchange.ordinary, Exchange.setsUp, Exchange.tearsDown]
  cases hh with
  | skipped => exact ordinary_nil
  | refused _ hl ht hw => simp [hl.ordinary, htimed ht, hw.ordinary]
  | written _ hl ht hw => simp [hl.ordinary, htimed ht, hw.ordinary]

theorem Passed.ordinary {x : Outcome Bool × Take} (hp : Passed t h x) : h.Ordinary := by
  cases hp with
  | unpolled hp => exact hp.ordinary
  | reformatted _ hr => simp [hr.ordinary, Exchange.ordinary, Exchange.setsUp, Exchange.tearsDown]
  | unformatted _ hr => simp [hr.ordinary, Exchange.ordinary, Exchange.setsUp, Exchange.tearsDown]
  | unwritten hp hh => simp [hp.ordinary, hh.ordinary]
  | kept _ hp hh =>
    simp [hp.ordinary, hh.ordinary, Exchange.ordinary, Exchange.setsUp, Exchange.tearsDown]
  | last hp hh =>
    simp [hp.ordinary, hh.ordinary, Exchange.ordinary, Exchange.setsUp, Exchange.tearsDown]
  | moved hp hh =>
    simp [hp.ordinary, hh.ordinary, Exchange.ordinary, Exchange.setsUp, Exchange.tearsDown]
  | _ => simp [Exchange.ordinary, Exchange.setsUp, Exchange.tearsDown]

/-- **The loop** neither sets anything up nor takes anything down, whatever its passes bring. -/
theorem Looped.ordinary {deadline : Int64} {x : Option (Outcome Ending × Take)}
    (hl : Looped deadline t h x) : h.Ordinary := by
  induction hl with
  | spent => exact ordinary_nil
  | stopped => simp [Exchange.ordinary, Exchange.setsUp, Exchange.tearsDown]
  | late => simp [Exchange.ordinary, Exchange.setsUp, Exchange.tearsDown]
  | failed _ _ hp => exact ordinary_cons.2 ⟨rfl, ordinary_cons.2 ⟨rfl, hp.ordinary⟩⟩
  | ended _ _ hp => exact ordinary_cons.2 ⟨rfl, ordinary_cons.2 ⟨rfl, hp.ordinary⟩⟩
  | next _ _ hp _ ih =>
    exact ordinary_cons.2 ⟨rfl, ordinary_cons.2 ⟨rfl, ordinary_append.2 ⟨hp.ordinary, ih⟩⟩⟩

end Take

end Loop

/-! ## The set-up -/

/-- The output of a session was opened, as far as this takes a call that can be refused: a container
was made and marked as turned where it is, or the file of a bare stream was created. -/
def OutputOpened (settings : Settings) (output : Option Raw) (h : History) : Prop :=
  match settings.format.container?, output with
  | some container, _ => ∃ path, settings.destination.path? = some path ∧
      ⟨.muxer (.create path container), .ok ()⟩ ∈ h ∧
        (settings.rotate = true → ⟨.muxer (.orientationHint 90), .ok ()⟩ ∈ h)
  | none, some _ => True
  | none, none => ∀ path, settings.destination = .file path → ⟨.disk (.create path), .ok ()⟩ ∈ h

/-- The encoder, the virtual display and the output of a session were all set up. -/
structure Equipped (settings : Settings) (output : Option Raw) (h : History) : Prop where
  encoder : ∃ params persistent surface table,
    Encoder.granted params persistent surface table <:+: h
  display : ∃ surface layerStack handle projection,
    [⟨.capture (.bind surface layerStack), .ok handle⟩,
      ⟨.capture (.project handle projection), .ok ()⟩] <:+: h
  output : OutputOpened settings output h

section Equipped

variable {h k : History} {settings : Settings} {output : Option Raw}

/-- Only calls to the container writer and to the disk open an output. -/
theorem OutputOpened.mono (ho : OutputOpened settings output h)
    (hs : ∀ e ∈ h, e.party = .muxer ∨ e.party = .disk → e ∈ k) :
    OutputOpened settings output k := by
  unfold OutputOpened at ho ⊢
  split at ho
  · obtain ⟨path, hpath, hcreate, hturn⟩ := ho
    exact ⟨path, hpath, hs _ hcreate (.inl rfl), fun hr => hs _ (hturn hr) (.inl rfl)⟩
  · trivial
  · exact fun path hpath => hs _ (ho path hpath) (.inr rfl)

theorem Equipped.mono (he : Equipped settings output h) (hi : h <:+: k) :
    Equipped settings output k where
  encoder := by
    obtain ⟨params, persistent, surface, table, hg⟩ := he.encoder
    exact ⟨params, persistent, surface, table, hg.trans hi⟩
  display := by
    obtain ⟨surface, layerStack, handle, projection, hp⟩ := he.display
    exact ⟨surface, layerStack, handle, projection, hp.trans hi⟩
  output := he.output.mono fun _ he _ => hi.subset he

/-- Where no table was told, no encoder was set up. -/
theorem Equipped.not_of_tableless (ht : h.Tableless) : ¬Equipped settings output h := by
  intro he
  obtain ⟨params, persistent, surface, table, hg⟩ := he.encoder
  have hmem : (⟨.encoder .bufferTable, .ok table⟩ : Exchange) ∈ h :=
    hg.subset (by simp [Encoder.granted])
  exact absurd (ht _ hmem) (by simp [Exchange.table?])

/-- Where nothing was projected, no virtual display was set up. -/
theorem Equipped.not_of_unprojected
    (hn : ∀ handle projection, ⟨.capture (.project handle projection), .ok ()⟩ ∉ h) :
    ¬Equipped settings output h := by
  intro he
  obtain ⟨surface, layerStack, handle, projection, hp⟩ := he.display
  exact hn handle projection (hp.subset (by simp))

end Equipped

/-- An encoder that was set up has granted every step of its last set-up, which was made at the size
that is answered. -/
theorem Encoder.Shrunk.granted {s : Settings} {size : FrameSize} {frameRate : Single}
    {e e' : Encoder} {h : History} {x : Surface × FrameSize}
    (hs : Encoder.Shrunk s size frameRate e h (.ok x, e')) :
    ∃ k table, h = k ++
      Encoder.granted (Encoder.paramsFor s x.2 frameRate) s.persistentSurface x.1 table := by
  have hlast : ∀ {size e e' k} {surface : Surface},
      Encoder.Configured s size frameRate e k (.ok surface, e') → ∃ table,
        k = Encoder.granted (Encoder.paramsFor s size frameRate) s.persistentSurface surface
          table := by
    intro size e e' k surface hc
    cases hc
    exact ⟨_, rfl⟩
  cases hs with
  | first h₁ =>
    obtain ⟨table, rfl⟩ := hlast h₁
    exact ⟨[], table, rfl⟩
  | second _ _ h₂ =>
    obtain ⟨table, rfl⟩ := hlast h₂
    exact ⟨_, table, rfl⟩

namespace Session

variable {s s' : Session} {h k : History} {f : Failure} {r : Ready}

theorem Opened.output (ho : Opened s h (.ok r.sink, s')) : OutputOpened s.settings s.output h := by
  generalize hx : ((.ok r.sink, s') : Outcome Sink × Session) = x at ho
  unfold OutputOpened
  cases ho with
  | homeless => cases hx
  | container container path hc hp hm =>
    rw [hc]
    refine ⟨path, hp, ?_⟩
    cases hm with
    | turned => simp
    | made hr => simp [hr]
    | _ => cases hx
  | supplied raw hc ho =>
    rw [hc, ho]
    trivial
  | destination hc ho hr =>
    rw [hc, ho]
    intro path hd
    rw [hd] at hr
    cases hr with
    | file => exact List.mem_singleton_self _
    | refused => cases hx

/-- An output that could not be opened was refused at the call that opens it, or has no place. -/
theorem Opened.unopened (ho : Opened s h (.error f, s')) :
    ¬OutputOpened s.settings s.output h := by
  generalize hx : ((.error f, s') : Outcome Sink × Session) = x at ho
  unfold OutputOpened
  cases ho with
  | homeless container _ _ hc =>
    rw [hc]
    rintro ⟨path, -, hcreate, -⟩
    exact List.not_mem_nil hcreate
  | container container path hc hp hm =>
    rw [hc]
    rintro ⟨path', hpath, hcreate, hturn⟩
    obtain rfl := Option.some.inj (hp.symm.trans hpath)
    have hcleared : ∀ {l : History} {e : Exchange}, Muxed.Cleared path l → e ∈ l →
        e.party = .disk := by
      intro l e hl he
      cases hl <;> (rw [List.mem_singleton.1 he]; rfl)
    cases hm with
    | kept => simp at hcreate
    | refused _ hl =>
      rcases List.mem_append.1 hcreate with hmem | hmem
      · cases hcleared hl hmem
      · simp at hmem
    | unturned _ hr hl =>
      rcases List.mem_append.1 (hturn hr) with hmem | hmem
      · cases hcleared hl hmem
      · simp at hmem
    | _ => cases hx
  | supplied => cases hx
  | destination hc ho hr =>
    rw [hc, ho]
    intro hcreate
    generalize s.settings.destination = d at hr hcreate
    cases hr with
    | refused path => simp at hcreate
    | file => cases hx
    | standard => cases hx

/-- **A set-up that succeeds** has set everything up. -/
theorem Prepared.equipped (hp : Prepared s h (.ok r, s')) : Equipped s.settings s.output h := by
  cases hp with
  | @ready look setUp bound opened geometry rate surface size projection e c sink _ hv hl he hc ho =>
    refine ⟨?_, ?_, ?_⟩
    · obtain ⟨k, table, rfl⟩ := he.granted
      exact ⟨Encoder.paramsFor s.settings size rate, s.settings.persistentSurface, surface, table,
        look ++ k, bound ++ opened, by simp⟩
    · cases hc with
      | started handle =>
        exact ⟨surface, geometry.layerStack, handle, .fit geometry size s.settings.rotate,
          look ++ setUp, opened, by simp⟩
    · have hopened := Opened.output (r := ⟨sink, size, rate⟩) ho
      exact hopened.mono fun e he _ => List.mem_append_right _ he

theorem Abandoned.unprojected (ha : Abandoned s h s') (handle : Handle) (projection : Projection) :
    ⟨.capture (.project handle projection), .ok ()⟩ ∉ h := by
  obtain ⟨hs⟩ := ha
  intro hmem
  simp only [List.mem_append] at hmem
  rcases hmem with (hmem | hmem) | hmem
  · unfold Capture.closing at hmem
    split at hmem <;> simp at hmem
  · exact absurd (hs.within _ hmem) (by simp [Exchange.party])
  · exact absurd (Encoder.freeing_within _ hmem) (by simp [Exchange.party])

/-- **A set-up that fails** has left one of the three out, and notices do not make up for it. -/
theorem Prepared.unequipped (hp : Prepared s h (.error f, s'))
    (hk : ∀ e ∈ k, e.party ≠ .watcher → e ∈ h) : ¬Equipped s.settings s.output k := by
  have htableless : h.Tableless → ¬Equipped s.settings s.output k := by
    refine fun ht => Equipped.not_of_tableless fun e he => ?_
    by_cases hw : e.party = .watcher
    · exact Exchange.table?_of_party (by rw [hw]; decide)
    · exact ht e (hk e he hw)
  have hunprojected : (∀ handle projection,
      (⟨.capture (.project handle projection), .ok ()⟩ : Exchange) ∉ h) →
      ¬Equipped s.settings s.output k := fun hn =>
    Equipped.not_of_unprojected fun handle projection hmem =>
      hn handle projection (hk _ hmem (by simp [Exchange.party]))
  have hearly : ∀ {look setUp : History} {y size rate z e handle projection},
      Inspected s.settings look y → Encoder.Shrunk s.settings size rate s.encoder setUp (z, e) →
      (⟨.capture (.project handle projection), .ok ()⟩ : Exchange) ∉ look ++ setUp := by
    intro look setUp y size rate z e handle projection hl he hmem
    rcases List.mem_append.1 hmem with hmem | hmem
    · exact absurd (hl.within _ hmem) (by simp [Exchange.party])
    · exact absurd (he.within _ hmem) (by simp [Exchange.party])
  cases hp with
  | invalid => exact htableless fun e he => absurd he List.not_mem_nil
  | unseen _ hl => exact htableless (hl.within.tableless (by simp))
  | noEncoder _ hl he =>
    exact htableless (tableless_append.2 ⟨hl.within.tableless (by simp), he.tableless⟩)
  | noCapture _ hl he hc ha =>
    refine hunprojected fun handle projection hmem => ?_
    rcases List.mem_append.1 hmem with hmem | hmem
    · rcases List.mem_append.1 hmem with hmem | hmem
      · exact hearly hl he hmem
      · cases hc <;> simp at hmem
    · exact ha.unprojected handle projection hmem
  | @noOutput look setUp bound opened undone _ _ _ _ _ _ e c _ _ _ hl he hc ho ha =>
    intro hequipped
    have hopened := Opened.unopened (s := { s with encoder := e, capture := c }) ho
    refine hopened (hequipped.output.mono fun e hmem hparty => ?_)
    replace hmem := hk e hmem (by rcases hparty with hp | hp <;> rw [hp] <;> decide)
    -- what opens an output is asked of others than the rest of the set-up
    have hbefore : (look ++ setUp ++ bound).Within [.display, .encoder, .capture] := by
      simp [hl.within.mono, he.within.mono, hc.within.mono]
    rcases List.mem_append.1 hmem with hmem | hmem
    · rcases List.mem_append.1 hmem with hmem | hmem
      · have hnot := hbefore e hmem
        rcases hparty with hp | hp <;> simp [hp] at hnot
      · exact hmem
    · have hnot := ha.within e hmem
      rcases hparty with hp | hp <;> simp [hp] at hnot

/-! ## The phases of a recording -/

/-- The calls of a recording, phase by phase. It is refused in its set-up, it is left unfinished in
its loop, or it drains after the loop. -/
inductive Phased (s : Session) : History → Option (Outcome Recording × Session) → Prop
  | refused {setUp : History} {f : Failure} {s' : Session} (hp : Prepared s setUp (.error f, s')) :
      Phased s setUp (some (.error f, s'))
  | underway {setUp loop : History} {r : Ready} {s' : Session} (hp : Prepared s setUp (.ok r, s'))
      (hl : loop.Ordinary) (hs : loop.Silent) :
      Phased s (setUp ++ entered .capturing :: loop) none
  | drained {setUp loop rest : History} {r : Ready} {s' : Session} {x : Outcome Recording × Session}
      (hp : Prepared s setUp (.ok r, s')) (hl : loop.Ordinary) (hs : loop.Silent)
      (hi : rest.Idle) (hn : ∀ e ∈ rest, e.setsUp = false) (hr : rest.Silent) :
      Phased s (setUp ++ entered .capturing :: (loop ++ entered .draining :: rest)) (some x)

/-- What follows the loop sets nothing up. -/
theorem setsUp_of_recorded {times back rest : History} {log : FrameTimes.Log} {sink sink' : Sink}
    {timed closed : Outcome Unit} {settings : Settings}
    {totals : Ending → Option String → Totals} {verdict : Outcome Ending} {x : Outcome Recording}
    (ht : Stamped log sink times (timed, sink')) (hb : GivenBack s sink' back (closed, s'))
    (hs : Settled settings sink' totals verdict rest x) :
    ∀ e ∈ times ++ back ++ rest, e.setsUp = false := by
  have hclosing : ∀ e ∈ s.capture.closing, e.setsUp = false := by
    unfold Capture.closing
    split <;> simp [Exchange.setsUp]
  have hfreeing : ∀ {c : Encoder}, ∀ e ∈ c.freeing, e.setsUp = false := by
    intro c
    unfold Encoder.freeing
    split <;> simp [Exchange.setsUp]
  have hdigested : ∀ {k y}, Digested sink' k y → ∀ e ∈ k, e.setsUp = false := by
    intro k y hd
    cases hd <;> simp [Exchange.setsUp]
  have hsaved : ∀ {d k y}, Saved settings sink' d k y → ∀ e ∈ k, e.setsUp = false := by
    intro d k y hd
    cases hd <;> simp [Exchange.setsUp]
  rw [List.forall_mem_append, List.forall_mem_append]
  refine ⟨⟨?_, ?_⟩, ?_⟩
  · cases ht with
    | unkept => simp
    | kept _ _ _ hstamp =>
      cases hstamp with
      | raw => simp [Exchange.setsUp]
      | muxed hstamp =>
        cases hstamp with
        | nothing => simp [Exchange.setsUp]
        | wrote _ _ _ _ hw => cases hw <;> simp [Exchange.setsUp]
  · obtain @⟨stop, close, _, _, _, _, hs, hc⟩ := hb
    have hstop : ∀ e ∈ stop, e.setsUp = false := by
      cases hs <;> simp [Exchange.setsUp]
    have hclose : ∀ e ∈ close, e.setsUp = false := by
      cases hc with
      | raw hc => cases hc <;> simp [Exchange.setsUp]
      | _ => simp [Exchange.setsUp]
    simp only [List.forall_mem_append]
    exact ⟨⟨⟨hclosing, hstop⟩, hclose⟩, hfreeing⟩
  · cases hs with
    | failed => simp
    | concluded _ hc =>
      cases hc with
      | undigested hd => exact hdigested hd
      | unsaved _ hd hk =>
        exact List.forall_mem_append.2 ⟨hdigested hd, List.forall_mem_cons.2 ⟨rfl, hsaved hk⟩⟩
      | done _ hd hk =>
        exact List.forall_mem_append.2 ⟨hdigested hd, List.forall_mem_cons.2 ⟨rfl, hsaved hk⟩⟩

theorem Performed.phased {x : Option (Outcome Recording × Session)} (hp : Performed s h x) :
    Phased s h x := by
  cases hp with
  | unprepared hp => exact .refused hp
  | @recorded setUp _ r s' _ hp hr =>
    have hloop : ∀ {loop : History} {deadline y}, (s'.taking r).Looped deadline loop y →
        loop.Silent := fun hl => hl.within.silent (by simp [Take.loopParties])
    cases hr with
    | @unfinished loop started hl =>
      have hordinary : Ordinary (Take.clocked started :: loop) :=
        ordinary_cons.2 ⟨rfl, hl.ordinary⟩
      exact .underway hp hordinary (List.forall_mem_cons.2 ⟨by simp [Exchange.party], hloop hl⟩)
    | @finished loop times back rest t s'' sink looped timed closed x started nanos hl ht hb hs =>
      have hphased : Phased s (setUp ++ entered .capturing ::
          ((Take.clocked started :: loop ++ [Take.clocked nanos]) ++
            entered .draining :: (times ++ back ++ rest))) (some (x, s'')) := by
        refine .drained hp ?_ ?_ ?_ ?_ ?_
        · exact ordinary_cons.2 ⟨rfl, ordinary_append.2 ⟨hl.ordinary, ordinary_cons.2
            ⟨rfl, ordinary_nil⟩⟩⟩
        · exact List.forall_mem_cons.2 ⟨by simp [Exchange.party], silent_append.2 ⟨hloop hl,
            List.forall_mem_singleton.2 (by simp [Exchange.party])⟩⟩
        · simp [ht.idle, hb.idle, hs.idle]
        · exact setsUp_of_recorded ht hb hs
        · simp only [silent_append]
          exact ⟨⟨ht.within.silent (by simp), hb.within.silent (by simp)⟩,
            hs.within.silent (by simp)⟩
      simpa using hphased

/-! ## The run -/

/-- How a run is told to have ended. -/
def told : Outcome Recording → Notice
  | .ok recording => .finished recording
  | .error f => .failed f

/-- Where the phases of a run stand, ended or not. The capturing is told once all is set up, before
the first buffer is asked for; nothing is set up after it. The draining is told after the last
buffer was asked for, and between the two nothing is taken down. -/
structure PhasesPlaced (settings : Settings) (output : Option Raw) (h : History) : Prop where
  equipped : (∃ e ∈ h, e.opens .capturing = true) →
    Equipped settings output (h.before .capturing)
  idle : (h.before .capturing).Idle
  setUp : ∀ e ∈ h.since .capturing, e.setsUp = false
  drained : (h.since .draining).Idle
  standing : ∀ e ∈ (h.before .draining).since .capturing, e.tearsDown = false

/-- The life of a session that has run with this result. Each phase is told once and in order, the
capturing and the draining exactly if everything was set up; the last phase is told when the encoder
is released for each time that it was configured; and then only the result is told. -/
structure LifeTold (settings : Settings) (output : Option Raw) (h : History)
    (result : Outcome Recording) : Prop where
  placed : PhasesPlaced settings output h
  recorded : Equipped settings output h → h.notices =
    [.phase .configuring, .phase .capturing, .phase .draining, .phase .stopped, told result]
  refused : ¬Equipped settings output h →
    h.notices = [.phase .configuring, .phase .stopped, told result]
  freed : ∀ t ∈ (h.before .stopped).tenures, t.frees = 1
  last : h.since .stopped = [entered .stopped, ⟨.notify (told result), ()⟩]

variable {setUp loop tail : History} {x : Outcome Recording}

theorem Prepared.silent {y : Outcome Ready × Session} (hp : Prepared s setUp y) : setUp.Silent :=
  hp.within.silent (by simp [setUpParties])

/-- The phases of a run that has reached its loop. -/
theorem phasesPlaced_of_prepared (hp : Prepared s setUp (.ok r, s')) (hl : loop.Ordinary)
    (hs : loop.Silent) (htail : tail = [] ∨ ∃ rest, tail = entered .draining :: rest)
    (hi : tail.Idle) (hn : ∀ e ∈ tail, e.setsUp = false) :
    PhasesPlaced s.settings s.output
      (entered .configuring :: setUp ++ entered .capturing :: (loop ++ tail)) := by
  have hfirst : ∀ {phase}, phase ≠ .configuring →
      ∀ e ∈ entered .configuring :: setUp, e.opens phase = false := fun hc =>
    List.forall_mem_cons.2 ⟨by simp [Exchange.opens, hc.symm], hp.silent.notOpened⟩
  have hbefore : before .capturing
      (entered .configuring :: setUp ++ entered .capturing :: (loop ++ tail)) =
        entered .configuring :: setUp := before_append (hfirst (by decide)) rfl
  have hsince : ∀ k, since .capturing
      (entered .configuring :: setUp ++ entered .capturing :: k) = entered .capturing :: k :=
    fun k => since_append (hfirst (by decide)) rfl
  -- all up to the draining, where that is told
  have hlooped : ∀ e ∈ entered .configuring :: setUp ++ entered .capturing :: loop,
      e.opens .draining = false :=
    List.forall_mem_append.2 ⟨hfirst (by decide), List.forall_mem_cons.2 ⟨rfl, hs.notOpened⟩⟩
  obtain ⟨hbeforeDraining, hsinceDraining⟩ : before .draining
      (entered .configuring :: setUp ++ entered .capturing :: (loop ++ tail)) =
        entered .configuring :: setUp ++ entered .capturing :: loop ∧
      since .draining
        (entered .configuring :: setUp ++ entered .capturing :: (loop ++ tail)) = tail := by
    have hsplit : entered .configuring :: setUp ++ entered .capturing :: (loop ++ tail) =
        (entered .configuring :: setUp ++ entered .capturing :: loop) ++ tail := by simp
    rw [hsplit]
    rcases htail with rfl | ⟨rest, rfl⟩
    · rw [List.append_nil]
      exact ⟨before_of_notOpened hlooped, since_of_notOpened hlooped⟩
    · exact ⟨before_append hlooped rfl, since_append hlooped rfl⟩
  refine ⟨fun _ => ?_, ?_, ?_, ?_, ?_⟩
  · rw [hbefore]
    exact hp.equipped.mono (List.suffix_cons _ _).isInfix
  · rw [hbefore]
    exact idle_cons.2 ⟨rfl, hp.idle⟩
  · rw [hsince, List.forall_mem_cons, List.forall_mem_append]
    exact ⟨rfl, hl.setsUp, hn⟩
  · rw [hsinceDraining]
    exact hi
  · rw [hbeforeDraining, hsince, List.forall_mem_cons]
    exact ⟨rfl, hl.tearsDown⟩

/-- The phases of a run that does not reach its loop. -/
theorem phasesPlaced_of_unlooped {settings : Settings} {output : Option Raw} (hi : h.Idle)
    (hc : ∀ e ∈ h, e.opens .capturing = false) (hd : ∀ e ∈ h, e.opens .draining = false) :
    PhasesPlaced settings output h where
  equipped := by
    rintro ⟨e, he, hopen⟩
    rw [hc e he] at hopen
    cases hopen
  idle := by rwa [before_of_notOpened hc]
  setUp := by simp [since_of_notOpened hc]
  drained := by simp [since_of_notOpened hd]
  standing := by simp [before_of_notOpened hd, since_of_notOpened hc]

/-- A run that has ended is a recording between notices. -/
theorem Ran.told (hr : Ran s h (some (x, s'))) (hn : s.hasRun = false) :
    ∃ k t, h = entered .configuring :: k ++ [entered .stopped, ⟨.notify (told x), ()⟩] ∧
      Performed s.begun k (some (x, t)) ∧ s' = t.ended := by
  cases hr with
  | again _ _ hs => rw [hn] at hs; cases hs
  | failed _ hp => exact ⟨_, _, rfl, hp, rfl⟩
  | finished _ hp => exact ⟨_, _, rfl, hp, rfl⟩

theorem Prepared.hasRun_eq {y : Outcome Ready} (hp : Prepared s h (y, s')) :
    s'.hasRun = s.hasRun := by
  have hopened : ∀ {t t' : Session} {k y}, Opened t k (y, t') → t'.hasRun = t.hasRun := by
    intro t t' k y ho
    cases ho <;> rfl
  have habandoned : ∀ {t t' : Session} {k}, Abandoned t k t' → t'.hasRun = t.hasRun := by
    intro t t' k ha
    cases ha
    rfl
  cases hp with
  | noCapture _ _ _ _ ha =>
    have hundone := habandoned ha
    exact hundone
  | noOutput _ _ _ _ ho ha =>
    have hfailed := hopened ho
    exact (habandoned ha).trans hfailed
  | ready _ _ _ _ ho =>
    have hready := hopened ho
    exact hready
  | _ => rfl

theorem Performed.hasRun_eq (hp : Performed s h (some (x, s'))) : s'.hasRun = s.hasRun := by
  cases hp with
  | unprepared hp => exact hp.hasRun_eq
  | recorded hp hr =>
    cases hr with
    | finished _ _ _ _ hb =>
      cases hb
      exact hp.hasRun_eq

/-- A session that has ended has freed the encoder. -/
theorem Performed.freed (hp : Performed s h (some (x, s')))
    (he : s.encoder.state = .unconfigured) : s'.encoder.state = .unconfigured := by
  have habandoned : ∀ {t t' : Session} {k}, Abandoned t k t' →
      t'.encoder.state = .unconfigured := by
    intro t t' k ha
    cases ha
    exact Encoder.freed_state _
  cases hp with
  | unprepared hp =>
    cases hp with
    | invalid => exact he
    | unseen => exact he
    | noEncoder _ _ hset =>
      obtain rfl := hset.unchanged he
      exact he
    | noCapture _ _ _ _ ha => exact habandoned ha
    | noOutput _ _ _ _ _ ha => exact habandoned ha
  | recorded _ hr =>
    cases hr with
    | finished _ _ _ _ hb =>
      cases hb
      exact Encoder.freed_state _

/-- The end of a run: the stop is told, and then the result. -/
def ending (x : Outcome Recording) : History := [entered .stopped, ⟨.notify (told x), ()⟩]

/-- The stop is told behind the recording, whose own calls do not tell it. -/
theorem stopped_append_ending (hk : ∀ e ∈ k, e.opens .stopped = false) :
    before .stopped (entered .configuring :: k ++ ending x) = entered .configuring :: k ∧
      since .stopped (entered .configuring :: k ++ ending x) = ending x := by
  have hall : ∀ e ∈ entered .configuring :: k, e.opens .stopped = false :=
    List.forall_mem_cons.2 ⟨by simp [Exchange.opens], hk⟩
  exact ⟨before_append hall (by simp [Exchange.opens]),
    since_append hall (by simp [Exchange.opens])⟩

/-- The life of a session whose set-up has failed. -/
theorem lifeTold_of_refused (hp : Prepared s setUp (.error f, s'))
    (hfreed : ∀ t ∈ tenures (entered .configuring :: setUp), t.frees = 1) :
    LifeTold s.settings s.output (entered .configuring :: setUp ++ ending (.error f))
      (.error f) := by
  have hunequipped : ¬Equipped s.settings s.output
      (entered .configuring :: setUp ++ ending (.error f)) := by
    refine hp.unequipped fun e he hw => ?_
    simp only [ending, List.cons_append, List.mem_cons, List.mem_append, List.not_mem_nil,
      or_false] at he
    rcases he with rfl | he | rfl | rfl
    · exact absurd rfl hw
    · exact he
    · exact absurd rfl hw
    · exact absurd rfl hw
  have hnot : ∀ {phase}, phase ≠ .configuring → phase ≠ .stopped →
      ∀ e ∈ entered .configuring :: setUp ++ ending (.error f), e.opens phase = false := by
    intro phase hc hs
    simp only [ending, List.forall_mem_append, List.forall_mem_cons]
    exact ⟨⟨by simp [Exchange.opens, hc.symm], hp.silent.notOpened⟩,
      by simp [Exchange.opens, hs.symm], by simp [Exchange.opens, told],
      fun _ he => absurd he List.not_mem_nil⟩
  obtain ⟨hbefore, hsince⟩ := stopped_append_ending (x := .error f) hp.silent.notOpened
  refine ⟨phasesPlaced_of_unlooped ?_ (hnot (by decide) (by decide))
    (hnot (by decide) (by decide)), ?_, ?_, ?_, hsince⟩
  · simp [ending, hp.idle, Exchange.dequeued?]
  · exact fun he => absurd he hunequipped
  · simp [ending, hp.silent.notices, Exchange.notice?]
  · rwa [hbefore]

/-- The life of a session that has left its loop. -/
theorem lifeTold_of_drained {rest : History} (hp : Prepared s setUp (.ok r, s'))
    (hl : loop.Ordinary) (hs : loop.Silent) (hi : rest.Idle) (hn : ∀ e ∈ rest, e.setsUp = false)
    (hr : rest.Silent)
    (hfreed : ∀ t ∈ tenures (entered .configuring ::
      (setUp ++ entered .capturing :: (loop ++ entered .draining :: rest))), t.frees = 1) :
    LifeTold s.settings s.output (entered .configuring ::
      (setUp ++ entered .capturing :: (loop ++ entered .draining :: rest)) ++ ending x) x := by
  have hsilent : ∀ e ∈ setUp ++ entered .capturing :: (loop ++ entered .draining :: rest),
      e.opens .stopped = false := by
    simp only [List.forall_mem_append, List.forall_mem_cons]
    exact ⟨hp.silent.notOpened, by simp [Exchange.opens], hs.notOpened, by simp [Exchange.opens],
      hr.notOpened⟩
  obtain ⟨hbefore, hsince⟩ := stopped_append_ending (x := x) hsilent
  have hplaced : PhasesPlaced s.settings s.output (entered .configuring :: setUp ++
      entered .capturing :: (loop ++ (entered .draining :: (rest ++ ending x)))) := by
    refine phasesPlaced_of_prepared hp hl hs (.inr ⟨_, rfl⟩) ?_ ?_
    · simp [ending, hi, Exchange.dequeued?]
    · simp only [ending, List.forall_mem_append, List.forall_mem_cons]
      exact ⟨rfl, hn, rfl, rfl, fun _ he => absurd he List.not_mem_nil⟩
  have hsplit : entered .configuring :: setUp ++
      entered .capturing :: (loop ++ (entered .draining :: (rest ++ ending x))) =
        entered .configuring :: (setUp ++ entered .capturing ::
          (loop ++ entered .draining :: rest)) ++ ending x := by simp
  rw [hsplit] at hplaced
  refine ⟨hplaced, fun _ => ?_, fun hnot => ?_, ?_, hsince⟩
  · simp [ending, hp.silent.notices, hs.notices, hr.notices, Exchange.notice?]
  · refine absurd (hp.equipped.mono ?_) hnot
    exact ⟨[entered .configuring],
      entered .capturing :: (loop ++ entered .draining :: rest) ++ ending x, by simp⟩
  · rwa [hbefore]

/-- **The life of a session** that has run for the first time. -/
theorem Ran.lifeTold (hr : Ran s h (some (x, s'))) (hn : s.hasRun = false)
    (he : s.encoder.state = .unconfigured) (hc : s.capture.active = none) :
    LifeTold s.settings s.output h x ∧ s'.hasRun = true ∧ s'.phase = .stopped := by
  have haccounted := hr.accounted he hc
  obtain ⟨k, t, rfl, hp, rfl⟩ := hr.told hn
  refine ⟨?_, hp.hasRun_eq, rfl⟩
  have hfreed : ∀ t ∈ tenures (entered .configuring :: k), t.frees = 1 := by
    have hreturned : Encoder.Accounted t.encoder.state _ := haccounted.encoder
    rw [hp.freed he] at hreturned
    have hcalm : (ending x).Calm := rfl
    have hfrees := hcalm.frees_tenures (h := entered .configuring :: k)
    intro tenure htenure
    have hmem : tenure.frees ∈ (tenures (entered .configuring :: k)).map History.frees :=
      List.mem_map_of_mem htenure
    rw [← hfrees, List.mem_map] at hmem
    obtain ⟨tenure', htenure', heq⟩ := hmem
    rw [← heq]
    exact (hreturned.returned.tenures tenure' htenure').freed
  have hphased := hp.phased
  generalize hy : some (x, t) = y at hphased
  cases hphased with
  | underway => cases hy
  | refused hset =>
    cases hy
    exact lifeTold_of_refused (s := s.begun) hset hfreed
  | drained hset hl hs hi hnone hrest =>
    cases hy
    exact lifeTold_of_drained (s := s.begun) hset hl hs hi hnone hrest hfreed

/-- A run that is left unfinished is in its loop. -/
theorem Ran.underway (hr : Ran s h none) :
    PhasesPlaced s.settings s.output h ∧ Equipped s.settings s.output h ∧
      h.notices = [.phase .configuring, .phase .capturing] := by
  cases hr with
  | unfinished _ hp =>
    generalize hy : (none : Option (Outcome Recording × Session)) = y at hp
    cases hp.phased with
    | refused => cases hy
    | drained => cases hy
    | @underway setUp loop _ _ hset hl hs =>
      have hplaced := phasesPlaced_of_prepared (s := s.begun) hset hl hs (.inl rfl)
        History.idle_nil fun e he => absurd he List.not_mem_nil
      rw [List.append_nil] at hplaced
      refine ⟨hplaced, hset.equipped.mono ⟨[entered .configuring], entered .capturing :: loop, ?_⟩,
        ?_⟩
      · simp
      · simp [hset.silent.notices, hs.notices, Exchange.notice?]

/-! ## Several runs -/

/-- The failure of a run that is not the first. -/
def alreadyRun : Failure := ⟨.settings, "session has already run"⟩

/-- A session that is run once for each of some budgets of passes, and how each of the runs has
ended. -/
def runEach : List Nat → Action Session (List (Outcome Recording))
  | [] => return []
  | passes :: more => do
    let result ← (run passes).outcome
    return result :: (← runEach more)

/-- A session that has run does nothing when it is run again, and stays as it is. -/
theorem run_of_hasRun (passes : Nat) (hs : s.hasRun = true) :
    run passes s = .done (.error alreadyRun, s) := by
  have hrun : run passes s = (if s.hasRun then Action.fail alreadyRun else do
      modify ({ · with hasRun := true })
      enter .configuring
      let result ← (perform passes).outcome
      announce result) s := rfl
  rw [hrun, if_pos hs]
  rfl

theorem runEach_of_hasRun (more : List Nat) (hs : s.hasRun = true) :
    runEach more s = .done (.ok (more.map fun _ => .error alreadyRun), s) := by
  induction more with
  | nil => rfl
  | cons passes more ih =>
    have hfirst : runEach (passes :: more) s =
        (run passes).outcome s >>= Action.continue? fun result =>
          (runEach more >>= fun results => pure (result :: results)) := rfl
    rw [hfirst, Action.outcome_apply, run_of_hasRun passes hs]
    change (runEach more s >>= _) = _
    rw [ih]
    rfl

variable {settings : Settings} {hasMuxer : Bool} {output : Option Raw} {passes : Nat}
  {later : List Nat}

/-- The life of a session that is run once and then again and again. The first run is in its loop,
or it has ended with a result; then the calls are those of the first run, and each later run has
only failed and has left the session stopped. -/
inductive LifecycleTold (settings : Settings) (hasMuxer : Bool) (output : Option Raw)
    (passes : Nat) (later : List Nat) (h : History) :
    Option (Outcome (List (Outcome Recording)) × Session) → Prop
  | underway (hp : PhasesPlaced settings output h.calls) (he : Equipped settings output h.calls)
      (hn : h.calls.notices = [.phase .configuring, .phase .capturing]) :
      LifecycleTold settings hasMuxer output passes later h none
  | ended {result : Outcome Recording} {s' : Session}
      (hr : (run passes (ofSettings settings hasMuxer output)).Runs h (some (result, s')))
      (hl : LifeTold settings output h.calls result) (hs : s'.phase = .stopped) :
      LifecycleTold settings hasMuxer output passes later h
        (some (.ok (result :: later.map fun _ => .error alreadyRun), s'))

/-- **The life of a session is told as it is led.** Whatever the settings are and whichever calls are
refused, a session that is run for the first time tells the configuring, then the capturing and the
draining exactly if encoder, virtual display and output were all set up, then the stop, each once;
the capturing after the last call of the set-up and before the first buffer is asked for, the
draining after the last buffer was asked for and before anything is taken down, the stop when the
encoder has been released. One more notice follows, of the result or of the failure that is
returned. Every later run fails without a call or a line of the report, and leaves the session
stopped. -/
theorem lifecycle_told {x : Option (Outcome (List (Outcome Recording)) × Session)}
    (hr : (runEach (passes :: later) (ofSettings settings hasMuxer output)).Runs h x) :
    LifecycleTold settings hasMuxer output passes later h x := by
  have hfirst : runEach (passes :: later) (ofSettings settings hasMuxer output) =
      run passes (ofSettings settings hasMuxer output) >>= fun r =>
        (runEach later >>= fun results => pure (r.1 :: results)) r.2 := by
    change (run passes).outcome _ >>= _ = _
    rw [Action.outcome_apply, bind_assoc]
    rfl
  rw [hfirst] at hr
  rcases Program.runs_bind_iff.1 hr with ⟨hrun, rfl⟩ | ⟨h₁, h₂, ⟨result, s'⟩, rfl, hrun, hlater⟩
  · obtain ⟨hp, he, hn⟩ := (ensures_run passes _ h _ hrun).underway
    exact .underway hp he hn
  · obtain ⟨hl, hagain, hs⟩ := (ensures_run passes _ h₁ _ hrun).lifeTold rfl rfl rfl
    -- what follows the first run asks nothing
    rw [Action.bind_apply, runEach_of_hasRun later hagain] at hlater
    obtain ⟨rfl, rfl⟩ := Program.runs_done_iff.1 hlater
    rw [List.append_nil]
    exact .ended hrun hl hs

open Rehearsal in
/-- A recording that is asked for twice, and a session whose settings are refused each time. -/
theorem lifecycle_told_obliging :
    let recorded := runEach [9, 9] (ofSettings .standard true none)
    let device := Obliging.ofEvents [.formatChanged, .buffer ⟨0, 1, 2, 0, .empty⟩,
      .buffer ⟨1, 0, 4, 7, .keyFrame⟩]
    let h := recorded.history Obliging.answer device
    let mistaken := { Settings.standard with bitRate := 0 }
    let refused := runEach [9, 9, 9] (ofSettings mistaken true none)
    let k := refused.history Obliging.answer device
    h.calls.notices.length = 5 ∧
      LifecycleTold .standard true none 9 [9] h (recorded.run Obliging.answer device).1 ∧
      k.calls.notices.length = 3 ∧
      LifecycleTold mistaken true none 9 [9, 9] k (refused.run Obliging.answer device).1 := by
  intro recorded device h mistaken refused k
  refine ⟨by decide +kernel, ?_, by decide +kernel, ?_⟩
  · exact lifecycle_told (Program.runs_run _ _ _)
  · exact lifecycle_told (Program.runs_run _ _ _)

end Session

end Screencast
