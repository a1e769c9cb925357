import Screencast.Proofs.Episodes
import Screencast.Rehearsal.Obliging

/-!
# Attempts at a set-up

An encoder is set up at the size of the display, and if it refuses that and no size was asked for,
once more at 720p. An attempt is a tenure of the encoder: it begins with a configuration, and where
one of its steps is refused it ends with the only release. What such a set-up comes to is decided by
its last attempt, and nothing is left of a first one that failed.

* `History.parameters`, `History.denials`: what the encoder was configured with and what it refused.
* `Failure.TellsOf`: the failure that the refusal in an attempt is told as.
* `Encoder.Spent`: attempts that have failed and were made good.
* `Encoder.concluded_of_attempt`: the last attempt after such ones.
* `Encoder.set_up_settled`: the main result.
-/

namespace Screencast

namespace Exchange

/-- The parameters that the encoder is configured with, granted or not. -/
def parameters? : Exchange → Option EncoderSettings
  | ⟨.encoder (.configure params), _⟩ => some params
  | _ => none

/-- The refusal of a step of a set-up: what was being done, and the failure with which the encoder
refuses it. -/
def denial? : Exchange → Option (String × Failure)
  | ⟨.encoder (.configure _), .error f⟩ => some ("configure", f)
  | ⟨.encoder (.createSurface persistent), .error f⟩ => some (Encoder.surfaceDoing persistent, f)
  | ⟨.encoder .start, .error f⟩ => some ("start", f)
  | ⟨.encoder .bufferTable, .error f⟩ => some ("get output buffers", f)
  | _ => none

end Exchange

namespace History

variable {h k : History}

/-- What the encoder was configured with, granted or not. -/
def parameters (h : History) : List EncoderSettings := h.filterMap Exchange.parameters?

/-- The steps of set-ups that the encoder refused. -/
def denials (h : History) : List (String × Failure) := h.filterMap Exchange.denial?

@[simp] theorem parameters_append : parameters (h ++ k) = h.parameters ++ k.parameters :=
  List.filterMap_append ..

@[simp] theorem denials_append : denials (h ++ k) = h.denials ++ k.denials :=
  List.filterMap_append ..

end History

/-- **The failure tells of an attempt**: one step of it was refused, and the failure is that of the
encoder, as it came, or else one of the encoder that says what was being done and quotes what
came. -/
structure Failure.TellsOf (f : Failure) (attempt : History) : Prop where
  stage : f.stage = .encoder
  refusal : ∃ doing g, attempt.denials = [(doing, g)] ∧ (g.stage = .encoder → f = g) ∧
    (g.stage ≠ .encoder → f.detail = s!"unable to {doing}: {g.message}")

theorem Failure.tellsOf_asStage {attempt : History} {doing : String} {g : Failure}
    (hd : attempt.denials = [(doing, g)]) : (g.asStage .encoder doing).TellsOf attempt where
  stage := stage_asStage .encoder doing g
  refusal := by
    refine ⟨doing, g, hd, fun hg => ?_, fun hg => ?_⟩
    · rw [asStage, if_pos hg]
    · rw [asStage, if_neg hg]

theorem Failure.TellsOf.denied {f : Failure} {attempt : History} (ht : f.TellsOf attempt) :
    attempt.denials ≠ [] := by
  obtain ⟨doing, g, hd, -⟩ := ht.refusal
  rw [hd]
  exact List.cons_ne_nil _ _

/-- 720p, upright for a size that is higher than wide. -/
def FrameSize.reduced (size : FrameSize) : FrameSize :=
  if size.width < size.height then ⟨720, 1280⟩ else ⟨1280, 720⟩

namespace Encoder

open History

variable {e e' : Encoder} {s : Settings} {size : FrameSize} {frameRate : Single} {h k : History}
  {f : Failure} {surface : Surface}

theorem smallSizeLike_eq (size : FrameSize) : smallSizeLike size = size.reduced := by
  by_cases hs : size.width < size.height
  · simp [smallSizeLike, FrameSize.isUpright, FrameSize.reduced, hs, smallSize, FrameSize.turned]
  · simp [smallSizeLike, FrameSize.isUpright, FrameSize.reduced, hs, smallSize]

/-! ## One attempt -/

/-- An attempt is a tenure of its own, whatever came before it. -/
theorem Configured.tenures_append {x : Outcome Surface}
    (hc : Configured s size frameRate e k (x, e')) (he : e.state = .unconfigured) (h : History) :
    tenures (h ++ k) = h.tenures ++ [k] := by
  cases hc with
  | busy _ _ hbusy => exact absurd he hbusy
  | granted surface table =>
    refine History.tenures_append_cons rfl ?_
    simp [Exchange.configures]
  | refused _ hr =>
    obtain ⟨x, l, heq, hx, hl, -⟩ := hr.tenure
    rw [heq]
    exact History.tenures_append_cons hx hl

theorem Configured.tenures_eq {x : Outcome Surface}
    (hc : Configured s size frameRate e k (x, e')) (he : e.state = .unconfigured) :
    k.tenures = [k] := hc.tenures_append he []

theorem Configured.parameters_eq {x : Outcome Surface}
    (hc : Configured s size frameRate e k (x, e')) (he : e.state = .unconfigured) :
    k.parameters = [paramsFor s size frameRate] := by
  cases hc with
  | busy _ _ hbusy => exact absurd he hbusy
  | granted => rfl
  | refused _ hr => cases hr <;> rfl

/-- In an attempt that was granted nothing was refused, and the encoder has what it brought. -/
theorem Configured.of_ok (hc : Configured s size frameRate e k (.ok surface, e')) :
    ∃ table, k = Encoder.granted (paramsFor s size frameRate) s.persistentSurface surface table ∧
      e' = ⟨.running, table, some (paramsFor s size frameRate), some surface⟩ := by
  cases hc with
  | granted _ table => exact ⟨table, rfl, rfl⟩

theorem Configured.denials_eq_nil (hc : Configured s size frameRate e k (.ok surface, e')) :
    k.denials = [] := by
  obtain ⟨table, rfl, -⟩ := hc.of_ok
  rfl

theorem Refused.tellsOf {params : EncoderSettings} {persistent : Bool}
    (hr : Refused params persistent k f) : f.TellsOf (k ++ [⟨.encoder .release, ()⟩]) := by
  cases hr with
  | configure => exact Failure.tellsOf_asStage rfl
  | surface => exact Failure.tellsOf_asStage rfl
  | start => exact Failure.tellsOf_asStage rfl
  | table => exact Failure.tellsOf_asStage rfl

/-- An attempt that failed tells why, was released once, and leaves the encoder as it was. -/
theorem Configured.of_error (hc : Configured s size frameRate e k (.error f, e'))
    (he : e.state = .unconfigured) :
    f.TellsOf k ∧ k.frees = 1 ∧ e'.state = .unconfigured := by
  cases hc with
  | busy _ _ hbusy => exact absurd he hbusy
  | refused _ hr =>
    obtain ⟨x, l, heq, -, -, ht⟩ := hr.tenure
    exact ⟨hr.tellsOf, by rw [heq, ht.freed], rfl⟩

/-! ## What the encoder can be used for afterwards -/

/-- A running encoder whose slots are those of a table. -/
structure Serves (e : Encoder) (table : List Slot) : Prop where
  running : e.state = .running
  looked : ∀ milliseconds, (poll milliseconds e).Ends fun k _ =>
    ∀ slot data, ⟨.encoder (.readSlot slot), data⟩ ∈ k → slot ∈ table
  copied : ∀ milliseconds, (poll milliseconds e).Ends fun k r =>
    ∀ sample, r.1 = .ok (.data sample) → ∃ b slot data,
      k = [⟨.encoder (.dequeue milliseconds), .buffer b⟩, ⟨.encoder (.readSlot slot), data⟩] ∧
        table[b.index]? = some slot ∧ b.bytes? data = some sample.payload ∧
        sample.buffer = b.index

/-- A poll looks into the slots of the encoder's table only. -/
theorem serves_table (he : e.state = .running) : e.Serves e.table where
  running := he
  looked := by
    intro milliseconds
    refine (ends_poll milliseconds e).ensures fun k r hp slot data hmem => ?_
    have hread : ∀ {b : FilledBuffer} {slot' : Slot} {data' : Bytes},
        e.table[b.index]? = some slot' →
        (⟨.encoder (.readSlot slot), data⟩ : Exchange) ∈
          [⟨.encoder (.dequeue milliseconds), .buffer b⟩, ⟨.encoder (.readSlot slot'), data'⟩] →
        slot ∈ e.table := by
      intro b slot' data' ht hmem
      obtain ⟨rfl, -⟩ : slot = slot' ∧ data = data' := by simpa using hmem
      exact List.mem_of_getElem? ht
    cases hp with
    | short b slot' data' f _ _ ht => exact hread ht hmem
    | data b slot' data' payload _ ht => exact hread ht hmem
    | _ => simp at hmem
  copied := by
    intro milliseconds
    refine (ends_poll milliseconds e).ensures fun k r hp sample hr => ?_
    cases hp with
    | data b slot data payload _ ht hd =>
      cases hr
      exact ⟨b, slot, data, rfl, ht, hd, rfl⟩
    | _ => cases hr

/-- An encoder that can be set up once it is willing. -/
structure Reusable (e : Encoder) : Prop where
  unconfigured : e.state = .unconfigured
  succeeds : ∀ s size frameRate, (configure s size frameRate e).Ends fun k r =>
    k.denials = [] → ∃ surface, r.1 = .ok surface ∧ r.2.state = .running

theorem reusable_of_unconfigured (he : e.state = .unconfigured) : e.Reusable where
  unconfigured := he
  succeeds := fun s size frameRate =>
    (ends_configure s size frameRate e).ensures fun k r hc hnone => by
      obtain ⟨f | surface, e'⟩ := r
      · exact absurd hnone (hc.of_error he).1.denied
      · obtain ⟨table, -, rfl⟩ := hc.of_ok
        exact ⟨surface, rfl, rfl⟩

/-! ## One or two attempts -/

/-- **Attempts that have all failed**, each of them made good by a release. -/
structure Spent (h : History) : Prop where
  whole : h.tenures.flatten = h
  released : ∀ t ∈ h.tenures, t.frees = 1
  denied : ∀ t ∈ h.tenures, t.denials ≠ []

theorem spent_nil : Spent [] := ⟨rfl, by simp [tenures], by simp [tenures]⟩

theorem Configured.spent (hc : Configured s size frameRate e k (.error f, e'))
    (he : e.state = .unconfigured) : Spent k := by
  have ht := hc.tenures_eq he
  obtain ⟨htells, hfrees, -⟩ := hc.of_error he
  refine ⟨?_, ?_, ?_⟩
  · rw [ht, List.flatten_singleton]
  · rw [ht]
    simpa using hfrees
  · rw [ht]
    simpa using htells.denied

/-- The encoder and its calls after a set-up that was granted. -/
structure Granted (persistent : Bool) (h : History) (surface : Surface) (size : FrameSize)
    (e : Encoder) : Prop where
  last : ∃ params table, h.tenures.getLast? =
      some (Encoder.granted params persistent surface table) ∧
    h.parameters.getLast? = some params ∧ size = ⟨params.width, params.height⟩ ∧
    e.params = some params ∧ e.Serves table
  surface : e.surface = some surface

/-- The encoder and its calls after a set-up that failed. -/
structure Failed (h : History) (f : Failure) (e : Encoder) : Prop where
  told : ∃ last, h.tenures.getLast? = some last ∧ f.TellsOf last
  denied : ∀ t ∈ h.tenures, t.denials ≠ []
  reusable : e.Reusable

/-- **What a set-up comes to by its last attempt.** There are no calls but those of the attempts.
Each attempt that failed was released once, and one that was granted was not released. -/
structure Concluded (persistent : Bool) (h : History) (x : Outcome (Surface × FrameSize))
    (e : Encoder) : Prop where
  whole : h.tenures.flatten = h
  released : ∀ t ∈ h.tenures, t.frees = if t.denials = [] then 0 else 1
  granted : ∀ surface used, x = .ok (surface, used) → Granted persistent h surface used e
  failed : ∀ f, x = .error f → Failed h f e

/-- **An attempt after such that failed** decides what the set-up comes to. -/
theorem concluded_of_attempt {x : Outcome Surface} (hspent : Spent h)
    (hc : Configured s size frameRate e k (x, e')) (he : e.state = .unconfigured) :
    Concluded s.persistentSurface (h ++ k) (x.map fun surface => (surface, size)) e' := by
  have ht : tenures (h ++ k) = h.tenures ++ [k] := hc.tenures_append he h
  have hwhole : (tenures (h ++ k)).flatten = h ++ k := by
    rw [ht, List.flatten_append, List.flatten_singleton, hspent.whole]
  have hlast : (tenures (h ++ k)).getLast? = some k := by rw [ht, List.getLast?_concat]
  have hbefore : ∀ t ∈ h.tenures, t.frees = if t.denials = [] then 0 else 1 := by
    intro t hmem
    rw [hspent.released t hmem, if_neg (hspent.denied t hmem)]
  have hreleased : k.frees = (if k.denials = [] then 0 else 1) →
      ∀ t ∈ tenures (h ++ k), t.frees = if t.denials = [] then 0 else 1 := by
    intro hk
    rw [ht]
    exact List.forall_mem_append.2 ⟨hbefore, List.forall_mem_singleton.2 hk⟩
  cases x with
  | ok surface =>
    have hnone := hc.denials_eq_nil
    have hparams : (h ++ k).parameters.getLast? = some (paramsFor s size frameRate) := by
      rw [parameters_append, hc.parameters_eq he, List.getLast?_concat]
    obtain ⟨table, hk, rfl⟩ := hc.of_ok
    refine ⟨hwhole, hreleased ?_, ?_, nofun⟩
    · rw [if_pos hnone, hk]
      rfl
    · rintro surface' used ⟨⟩
      exact ⟨⟨_, table, hlast.trans (by rw [hk]), hparams, rfl, rfl, serves_table rfl⟩, rfl⟩
  | error f =>
    obtain ⟨htells, hfrees, hfree⟩ := hc.of_error he
    refine ⟨hwhole, hreleased ?_, nofun, ?_⟩
    · rw [if_neg htells.denied, hfrees]
    · rintro f' ⟨⟩
      refine ⟨⟨k, hlast, htells⟩, ?_, reusable_of_unconfigured hfree⟩
      rw [ht]
      exact List.forall_mem_append.2 ⟨hspent.denied, List.forall_mem_singleton.2 htells.denied⟩

/-- A first attempt that failed and a second one are made at these sizes. -/
theorem Configured.parameters_append {x : Outcome Surface} {l : History} {e'' : Encoder}
    (h₁ : Configured s size frameRate e k (.error f, e')) (he : e.state = .unconfigured)
    (h₂ : Configured s (smallSizeLike size) frameRate e' l (x, e'')) :
    (k ++ l).parameters = [paramsFor s size frameRate, paramsFor s size.reduced frameRate] := by
  obtain ⟨-, -, he'⟩ := h₁.of_error he
  rw [History.parameters_append, h₁.parameters_eq he, h₂.parameters_eq he', smallSizeLike_eq]
  rfl

/-- What a set-up with a second attempt asks of the encoder, and what it comes to. -/
structure SetUpSettled (s : Settings) (size : FrameSize) (frameRate : Single) (h : History)
    (x : Outcome (Surface × FrameSize)) (e : Encoder) : Prop where
  attempts : h.parameters = [paramsFor s size frameRate] ∨
    h.parameters = [paramsFor s size frameRate, paramsFor s size.reduced frameRate] ∧
      s.size = none ∧ ∃ first second, h.tenures = [first, second] ∧ first.denials ≠ []
  concluded : Concluded s.persistentSurface h x e

/-- **A set-up makes one or two attempts and is what the last one is.** Whatever the settings, the
size and the frame rate are and whatever the encoder answers, a second attempt is made only if the
first one failed and the settings ask for no size, and then at 720p, upright for an upright size. A
set-up that succeeds gives the surface and the size of the last attempt, and the encoder runs and is
read from the buffer table of that attempt. One that fails tells of the refusal in the last attempt
as a failure of the encoder; every attempt has been released once, and the encoder can be set up
again. -/
theorem set_up_settled (he : e.state = .unconfigured) :
    (configureOrShrink s size frameRate e).Ends fun h r =>
      SetUpSettled s size frameRate h r.1 r.2 := by
  refine (ends_configureOrShrink s size frameRate e).ensures fun h r hs => ?_
  -- the first attempt, where it is the only one
  have honce : ∀ {k : History} {x : Outcome Surface} {e' : Encoder},
      Configured s size frameRate e k (x, e') →
      SetUpSettled s size frameRate k (x.map fun surface => (surface, size)) e' := by
    intro k x e' hc
    exact ⟨.inl (hc.parameters_eq he), concluded_of_attempt spent_nil hc he⟩
  -- a second attempt after it
  have htwice : ∀ {k l : History} {f : Failure} {x : Outcome Surface} {e' e'' : Encoder},
      ¬Final s size → Configured s size frameRate e k (.error f, e') →
      Configured s (smallSizeLike size) frameRate e' l (x, e'') →
      SetUpSettled s size frameRate (k ++ l)
        (x.map fun surface => (surface, smallSizeLike size)) e'' := by
    intro k l f x e' e'' hfinal h₁ h₂
    obtain ⟨htells, -, he'⟩ := h₁.of_error he
    have hnone : s.size = none := by
      by_contra hsome
      exact hfinal (.inl (Option.isSome_iff_ne_none.2 hsome))
    have htenures : tenures (k ++ l) = [k, l] := by
      rw [h₂.tenures_append he', h₁.tenures_eq he]
      rfl
    refine ⟨.inr ⟨h₁.parameters_append he h₂, hnone, k, l, htenures, htells.denied⟩, ?_⟩
    exact concluded_of_attempt (h₁.spent he) h₂ he'
  cases hs with
  | first h₁ => exact honce h₁
  | final _ h₁ => exact honce h₁
  | second hfinal h₁ h₂ => exact htwice hfinal h₁ h₂
  | twice hfinal h₁ h₂ => exact htwice hfinal h₁ h₂

open Rehearsal in
/-- Two attempts at an upright size fail, since there is no buffer table; once there is one, the
same encoder is set up. -/
theorem set_up_settled_tableless :
    let size : FrameSize := ⟨1080, 2400⟩
    let p := configureOrShrink .standard size (Binary.ofInt 60) initial
    let h := (p.history Obliging.answerTableless (.ofEvents [])).calls
    let result := (p.run Obliging.answerTableless (.ofEvents [])).1
    initial.state = .unconfigured ∧
      h.parameters.map (fun params => (params.width, params.height)) =
        [(1080, 2400), (720, 1280)] ∧
      h.tenures.map frees = [1, 1] ∧
      (∃ r, result = some r ∧ SetUpSettled .standard size (Binary.ofInt 60) h r.1 r.2) ∧
      (result.bind fun r => ((configure .standard size (Binary.ofInt 60) r.2).run
        Obliging.answer (.ofEvents [])).1.bind fun later => later.1.toOption) =
          some ⟨1, false⟩ :=
  ⟨rfl, by decide +kernel, by decide +kernel, (set_up_settled rfl).run _ _, by decide +kernel⟩

end Encoder

end Screencast
