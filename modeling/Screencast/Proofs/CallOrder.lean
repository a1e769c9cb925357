import Screencast.Proofs.Conduct.Container
import Screencast.Proofs.Containers
import Screencast.Proofs.Tracks
import Screencast.Rehearsal.Obliging

/-!
# The order of the calls to a container's writer

A writer is marked, gets its tracks, is started, written to and stopped, each in its turn, whatever
operations are done to the container and whatever the writer answers.

* `Muxed.Ordered`: the calls, by how far the container has come.
* `Muxed.Assigned`: the tracks that a container has been given.
* `Muxed.Standing`: what ties a container to its calls; kept by a move (`Standing.move`) and so by
  any number of them.
* `Muxed.calls_in_order`: any use of a container.
-/

namespace Screencast

namespace Exchange

/-- A call to a writer that has been made. -/
def toWriter (e : Exchange) : Bool :=
  match e.request with
  | .muxer (.create _ _) => false
  | .muxer _ => true
  | _ => false

/-- A writer is asked to start. -/
def asksStart (e : Exchange) : Bool := e.request == .muxer .start

/-- A writer that has not started is asked for a track, or refuses to start. -/
def readies : Exchange → Bool
  | ⟨.muxer (.addTrack _), _⟩ => true
  | ⟨.muxer .start, .error _⟩ => true
  | _ => false

end Exchange

namespace History

variable {h k : History}

/-- The calls to a writer that has been made. -/
def toWriter (h : History) : History := h.filter Exchange.toWriter

@[simp] theorem toWriter_append : toWriter (h ++ k) = h.toWriter ++ k.toWriter :=
  List.filter_append ..

end History

namespace Muxed

open History Rehearsal

variable {rotate : Bool} {path : Path} {container : Container} {m m' : Muxed} {h k : History}

/-- **The order of calls.** Tracks are asked for and starts refused until a start is granted; then
samples are written; a stop is the last call. -/
inductive Ordered (rotate : Bool) : State → History → Prop
  | idle {readying : History} (hr : ∀ e ∈ readying, e.readies) :
      Ordered rotate .idle (turning rotate ++ readying)
  | started {readying writes : History} (hr : ∀ e ∈ readying, e.readies)
      (hw : ∀ e ∈ writes, e.write?.isSome) :
      Ordered rotate .started
        (turning rotate ++ readying ++ ⟨.muxer .start, .ok ()⟩ :: writes)
  | unused {readying : History} (hr : ∀ e ∈ readying, e.readies) :
      Ordered rotate .stopped (turning rotate ++ readying)
  | stopped {readying writes : History} (answer : Outcome Unit)
      (hr : ∀ e ∈ readying, e.readies) (hw : ∀ e ∈ writes, e.write?.isSome) :
      Ordered rotate .stopped
        (turning rotate ++ readying ++
          ⟨.muxer .start, .ok ()⟩ :: (writes ++ [⟨.muxer .stop, answer⟩]))

theorem Ordered.ready (ho : Ordered rotate .idle h) (hk : ∀ e ∈ k, e.readies) :
    Ordered rotate .idle (h ++ k) := by
  obtain ⟨hr⟩ := ho
  rw [List.append_assoc]
  exact .idle (List.forall_mem_append.2 ⟨hr, hk⟩)

/-- A move makes the next call in the order. -/
theorem Ordered.move (ho : Ordered rotate m.state h) (hm : Move m k m') :
    Ordered rotate m'.state (h ++ k) := by
  cases hm with
  | added format answer hs =>
    rw [hs] at ho ⊢
    exact ho.ready (by simp [Exchange.readies])
  | gotVideo format track hs =>
    rw [hs] at ho
    exact hs ▸ ho.ready (by simp [Exchange.readies])
  | gotTimes track hs =>
    rw [hs] at ho
    exact hs ▸ ho.ready (by simp [Exchange.readies])
  | unstarted f hs =>
    rw [hs] at ho ⊢
    exact ho.ready (by simp [Exchange.readies])
  | started hs =>
    rw [hs] at ho
    obtain ⟨hr⟩ := ho
    exact .started hr (by simp)
  | wrote track data time flags answer hs =>
    rw [hs] at ho ⊢
    obtain _ | ⟨hr, hw⟩ := ho
    rw [List.append_assoc, List.cons_append]
    exact .started hr (List.forall_mem_append.2 ⟨hw, by simp [Exchange.write?]⟩)
  | stopped answer hs =>
    rw [hs] at ho
    obtain _ | ⟨hr, hw⟩ := ho
    rw [List.append_assoc, List.cons_append]
    exact .stopped answer hr hw
  | dropped hs =>
    rw [List.append_nil]
    generalize m.state = state at ho hs
    cases ho with
    | idle hr => exact .unused hr
    | started => exact absurd rfl hs
    | unused hr => exact .unused hr
    | stopped answer hr hw => exact .stopped answer hr hw

/-- A container that runs has been started. -/
theorem Ordered.starts_pos (ho : Ordered rotate .started h) : 0 < h.starts := by
  obtain _ | ⟨hr, hw⟩ := ho
  exact List.countP_pos_iff.2 ⟨_, List.mem_append_right _ List.mem_cons_self, rfl⟩

/-! ## Tracks -/

/-- The tracks that a container has to have are there, as the writer has told them. -/
structure Assigned (m : Muxed) (h : History) : Prop where
  video : ∃ format track, m.videoTrack = some track ∧
    ⟨.muxer (.addTrack format), .ok track⟩ ∈ h
  times : m.container = .mpeg4 → ∃ track, m.timeTrack = some track ∧
    ⟨.muxer (.addTrack .octetStream), .ok track⟩ ∈ h

/-- A container is of the same kind as before, and has the tracks that it had. -/
structure Keeps (m m' : Muxed) : Prop where
  container : m'.container = m.container
  video : ∀ track, m.videoTrack = some track → m'.videoTrack = some track
  times : ∀ track, m.timeTrack = some track → m'.timeTrack = some track

theorem Keeps.refl (m : Muxed) : Keeps m m := ⟨rfl, fun _ => id, fun _ => id⟩

theorem Keeps.trans {m'' : Muxed} (hk : Keeps m m') (hk' : Keeps m' m'') : Keeps m m'' where
  container := hk'.container.trans hk.container
  video := fun track hv => hk'.video track (hk.video track hv)
  times := fun track ht => hk'.times track (hk.times track ht)

theorem Move.keeps (hm : Move m h m') : Keeps m m' := by
  cases hm with
  | gotVideo _ _ _ hv => exact ⟨rfl, fun _ h => (nomatch hv.symm.trans h), fun _ => id⟩
  | gotTimes _ _ _ ht => exact ⟨rfl, fun _ => id, fun _ h => (nomatch ht.symm.trans h)⟩
  | _ => exact ⟨rfl, fun _ => id, fun _ => id⟩

theorem Moves.keeps (hm : Moves m h m') : Keeps m m' := by
  induction hm with
  | none m => exact .refl m
  | more hm _ ih => exact hm.keeps.trans ih

theorem Assigned.keeps (ha : Assigned m h) (hk : Keeps m m') : Assigned m' h where
  video := by
    obtain ⟨format, track, hv, hmem⟩ := ha.video
    exact ⟨format, track, hk.video track hv, hmem⟩
  times := fun hc => by
    obtain ⟨track, ht, hmem⟩ := ha.times (hk.container ▸ hc)
    exact ⟨track, hk.times track ht, hmem⟩

/-! ## A container and its calls -/

/-- **A container and what has been called**: the order of the calls, where its tracks come from,
and that they were there before any start. -/
structure Standing (rotate : Bool) (m : Muxed) (h : History) : Prop where
  order : Ordered rotate m.state h.toWriter
  video : ∀ track, m.videoTrack = some track →
    ∃ format, ⟨.muxer (.addTrack format), .ok track⟩ ∈ h
  times : ∀ track, m.timeTrack = some track → ⟨.muxer (.addTrack .octetStream), .ok track⟩ ∈ h
  tracked : h.OnlyAfter Exchange.asksStart (Assigned m)

theorem Standing.assigned (hs : Standing rotate m h) (ht : m.HasTracks) : Assigned m h where
  video := by
    obtain ⟨track, hv⟩ := Option.isSome_iff_exists.1 ht.video
    obtain ⟨format, hmem⟩ := hs.video track hv
    exact ⟨format, track, hv, hmem⟩
  times := fun hc => by
    obtain ⟨track, htrack⟩ := Option.isSome_iff_exists.1 (ht.times (by simp [keepsTimes, hc]))
    exact ⟨track, htrack, hs.times track htrack⟩

theorem Move.toWriter_eq (hm : Move m h m') : h.toWriter = h := by
  cases hm <;> rfl

/-- Whatever is called in a move, the tracks are there when it is a start. -/
theorem Standing.move_tracked (hs : Standing rotate m h) (hm : Move m k m') :
    k.OnlyAfter Exchange.asksStart fun earlier => Assigned m' (h ++ earlier) := by
  have hstart : ∀ answer : Outcome Unit, m.HasTracks →
      OnlyAfter Exchange.asksStart (fun earlier => Assigned m' (h ++ earlier))
        [⟨.muxer .start, answer⟩] := by
    intro answer ht
    refine onlyAfter_cons.2 ⟨fun _ => ?_, onlyAfter_of_none (by simp)⟩
    rw [List.append_nil]
    exact (hs.assigned ht).keeps hm.keeps
  cases hm with
  | unstarted _ _ ht => exact hstart _ ht
  | started _ ht => exact hstart _ ht
  | dropped => exact onlyAfter_of_none (by simp)
  | _ => exact onlyAfter_of_none (by simp [Exchange.asksStart])

theorem Standing.move (hs : Standing rotate m h) (hm : Move m k m') :
    Standing rotate m' (h ++ k) where
  order := by
    rw [toWriter_append, hm.toWriter_eq]
    exact hs.order.move hm
  video := by
    have hold : ∀ track, m.videoTrack = some track →
        ∃ format, ⟨.muxer (.addTrack format), .ok track⟩ ∈ h ++ k := fun track hv => by
      obtain ⟨format, hmem⟩ := hs.video track hv
      exact ⟨format, List.mem_append_left _ hmem⟩
    cases hm with
    | gotVideo format video =>
      rintro track ⟨⟩
      exact ⟨format, List.mem_append_right _ List.mem_cons_self⟩
    | _ => exact hold
  times := by
    have hold : ∀ track, m.timeTrack = some track →
        ⟨.muxer (.addTrack .octetStream), .ok track⟩ ∈ h ++ k := fun track ht =>
      List.mem_append_left _ (hs.times track ht)
    cases hm with
    | gotTimes times =>
      rintro track ⟨⟩
      exact List.mem_append_right _ List.mem_cons_self
    | _ => exact hold
  tracked :=
    onlyAfter_append.2 ⟨hs.tracked.mono fun _ ha => ha.keeps hm.keeps, hs.move_tracked hm⟩

theorem Standing.moves (hs : Standing rotate m h) (hm : Moves m k m') :
    Standing rotate m' (h ++ k) := by
  induction hm generalizing h with
  | none => rwa [List.append_nil]
  | more hm _ ih =>
    rw [← List.append_assoc]
    exact ih (hs.move hm)

/-- A container as it is made. -/
theorem Made.standing (hm : Made path container rotate h) :
    Standing rotate (initial path container) h := by
  have hturn : (turning rotate).toWriter = turning rotate ++ [] ∧
      ∀ e ∈ turning rotate, e.asksStart = false := by
    cases rotate <;> exact ⟨rfl, by simp [turning, Exchange.asksStart]⟩
  have hmake : ∀ {h}, h.toWriter = turning rotate ++ [] → (∀ e ∈ h, e.asksStart = false) →
      Standing rotate (initial path container) h := by
    intro h horder hnone
    refine ⟨?_, fun _ hv => (nomatch hv), fun _ ht => (nomatch ht), onlyAfter_of_none hnone⟩
    rw [horder]
    exact .idle (by simp)
  cases hm with
  | given => exact hmake hturn.1 hturn.2
  | created hc =>
    cases hc with
    | removed => exact hmake hturn.1 (by simpa [Exchange.asksStart] using hturn.2)
    | absent => exact hmake hturn.1 (by simpa [Exchange.asksStart] using hturn.2)

/-! ## Any use of a container -/

/-- A write that is turned away as the container's fault, without a call. -/
def Rejected (m : Muxed) (h : History) (r : Outcome Unit × Muxed) : Prop :=
  h = [] ∧ ∃ f : Failure, f.stage = .muxer ∧ r = (.error f, m)

theorem ends_write_rejected (hs : m.state ≠ .started) (track : Track) (data : Bytes) (time : Int)
    (flags : Flags) : (write track data time flags m).Ends (Rejected m) :=
  (ends_write track data time flags m).ensures fun h r hw => by
    cases hw with
    | refused f hf => exact ⟨rfl, f, hf, rfl⟩
    | handed _ hs' => exact absurd hs' hs

theorem ends_writeSample_rejected (hs : m.state ≠ .started) (s : Sample) :
    (writeSample s m).Ends (Rejected m) :=
  (ends_writeSample s m).ensures fun h r hsent => by
    cases hsent with
    | early f hf => exact ⟨rfl, f, hf, rfl⟩
    | wrote _ _ hw =>
      cases hw with
      | refused f hf => exact ⟨rfl, f, hf, rfl⟩
      | handed _ hs' => exact absurd hs' hs

/-- The calls `h` of a container's use, and the container `m` that the use ends with. -/
structure CallsInOrder (container : Container) (rotate : Bool) (operations : List Operation)
    (h : History) (m : Muxed) : Prop where
  container : m.container = container
  order : Ordered rotate m.state h.toWriter
  tracked : h.OnlyAfter Exchange.asksStart (Assigned m)
  rejected : h.starts = 0 ∨ (∃ o ∈ operations, o.finishes) →
    (∀ track data time flags, (write track data time flags m).Ends (Rejected m)) ∧
      ∀ s, (writeSample s m).Ends (Rejected m)
  steady : ∀ more, (operate more m).Ends fun _ m' => Keeps m m'

/-- **The calls to a writer come in order.** Whatever operations are done to a container and
whatever its writer answers: the writer is marked first if the recording is turned, gets its tracks
before it is started, is started once, is written to between the start and the stop only, and is
stopped once and only if it was started. A sample that comes too early or too late is turned away.
A track, once it is there, stays the same. -/
theorem calls_in_order {fresh : Bool} {operations : List Operation}
    (hr : (use fresh path container rotate operations).Runs h (some (.ok m))) :
    CallsInOrder container rotate operations h.calls m := by
  obtain ⟨made, done, hcalls, hmade, hmoves, hstop⟩ :=
    ends_use fresh path container rotate operations h _ hr m rfl
  have hstanding : Standing rotate m (made ++ done) := hmade.standing.moves hmoves
  rw [hcalls]
  refine ⟨hmoves.keeps.container, hstanding.order, hstanding.tracked, fun hout => ?_,
    fun more => ?_⟩
  · -- a container that runs was started, and no operation has ended its use
    have hs : m.state ≠ .started := by
      intro hs
      rcases hout with hnever | hover
      · have hpos := (hs ▸ hstanding.order).starts_pos
        have hle : (toWriter (made ++ done)).starts ≤ (made ++ done).starts :=
          List.Sublist.countP_le List.filter_sublist
        omega
      · rw [hstop hover] at hs
        cases hs
    exact ⟨ends_write_rejected hs, ends_writeSample_rejected hs⟩
  · have hfirst : m.VideoFirst := hmoves.videoFirst fun _ => rfl
    exact (ends_operate more hfirst).ensures fun _ _ hm => hm.1.keeps

/-- A turned recording in an mp4: started twice, written to, ended twice. -/
theorem calls_in_order_obliging :
    let p := use true ⟨"a.mp4"⟩ .mpeg4 true [.start, .formatChanged (.video videoType 1280 720),
      .start, .writeSample ⟨0, [7], 5, .empty⟩, .close, .stop, .write 0 [8] 6 .empty]
    let h := (p.history Obliging.answer (.ofEvents [])).calls
    let m : Muxed := ⟨⟨"a.mp4"⟩, .mpeg4, .stopped, some 0, some 1⟩
    h.toWriter.map Exchange.request =
        [.muxer (.orientationHint 90), .muxer (.addTrack (.video videoType 1280 720)),
          .muxer (.addTrack .octetStream), .muxer .start, .muxer (.write 0 [7] 5 .empty),
          .muxer .stop] ∧
      CallsInOrder .mpeg4 true [.start, .formatChanged (.video videoType 1280 720),
        .start, .writeSample ⟨0, [7], 5, .empty⟩, .close, .stop, .write 0 [8] 6 .empty] h m :=
  ⟨by decide +kernel, calls_in_order (Program.runs_run Obliging.answer _ _)⟩

end Muxed

end Screencast
