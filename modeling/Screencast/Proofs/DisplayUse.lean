import Screencast.Proofs.Displays

/-!
# The use of a captured display

What the owner of a captured display can do to it, in any order and any number of times: start it,
let it follow the display, close it. However the compositor answers, at most one virtual display is
there at a time, no call is about another one, and closing leaves none.

* `Capture.Operation`, `Capture.operate`: the operations, and a number of them one after another.
* `History.Tended`: which virtual display is there, and that the calls are about that one.
* `Capture.Tracked`: what is captured agrees with what the calls came to.
* `Capture.ends_perform`: an operation keeps that up; `Capture.ends_operate`: so do any number.
* `Capture.displays_tended`: the main result.
-/

namespace Screencast

namespace Exchange

/-- The virtual display that a call projects or destroys. -/
def used? : Exchange → Option Handle
  | ⟨.capture (.project handle _), _⟩ => some handle
  | ⟨.capture (.release handle), _⟩ => some handle
  | _ => none

/-- The projection that was applied. -/
def applied? : Exchange → Option Projection
  | ⟨.capture (.project _ projection), .ok ()⟩ => some projection
  | _ => none

end Exchange

namespace History

/-- What was made is destroyed, once each, but for the virtual display that is there. -/
def Holds (held : Option Handle) (h : History) : Prop := h.made = h.destroyed ++ held.toList

/-- A virtual display is there or none is; all along one was projected or destroyed only while it
was there, and made only while none was. -/
structure Tended (held : Option Handle) (h : History) : Prop where
  holds : h.Holds held
  used : ∀ handle, h.OnlyAfter (fun e => e.used? == some handle) (Holds (some handle))
  made : h.OnlyAfter (fun e => e.made?.isSome) (Holds none)

/-- The projection that was applied last. -/
def applied? (h : History) : Option Projection := (h.filterMap Exchange.applied?).getLast?

variable {h : History} {e : Exchange} {held held' : Option Handle} {handle : Handle}

theorem tended_nil : Tended none [] where
  holds := rfl
  used _ := onlyAfter_of_none (by simp)
  made := onlyAfter_of_none (by simp)

theorem Holds.call (hh : h.Holds held)
    (he : held.toList ++ e.made?.toList = e.destroyed?.toList ++ held'.toList) :
    Holds held' (h ++ [e]) := by
  have hmade : made (h ++ [e]) = h.made ++ e.made?.toList := by
    rw [made, List.filterMap_append, List.filterMap_cons]
    cases e.made? <;> rfl
  have hdestroyed : destroyed (h ++ [e]) = h.destroyed ++ e.destroyed?.toList := by
    rw [destroyed, List.filterMap_append, List.filterMap_cons]
    cases e.destroyed? <;> rfl
  rw [Holds, hmade, hdestroyed, hh, List.append_assoc, he, List.append_assoc]

/-- One more call, about the virtual display that is there, or making one where none is. -/
theorem Tended.call (ht : h.Tended held) (hu : ∀ handle, e.used? = some handle → held = some handle)
    (hm : e.made?.isSome → held = none)
    (he : held.toList ++ e.made?.toList = e.destroyed?.toList ++ held'.toList) :
    Tended held' (h ++ [e]) where
  holds := ht.holds.call he
  used handle := by
    rw [onlyAfter_append, onlyAfter_cons]
    refine ⟨ht.used handle, fun he => ?_, onlyAfter_of_none (by simp)⟩
    rw [List.append_nil, ← hu handle (beq_iff_eq.1 he)]
    exact ht.holds
  made := by
    rw [onlyAfter_append, onlyAfter_cons]
    refine ⟨ht.made, fun he => ?_, onlyAfter_of_none (by simp)⟩
    rw [List.append_nil, ← hm he]
    exact ht.holds

theorem Tended.refused (ht : h.Tended held) (surface : Surface) (layerStack : UInt32)
    (f : Failure) : Tended held (h ++ [⟨.capture (.bind surface layerStack), .error f⟩]) :=
  ht.call (fun _ hu => by cases hu) (fun hm => by cases hm) (List.append_nil _)

theorem Tended.bound (ht : h.Tended none) (surface : Surface) (layerStack : UInt32)
    (handle : Handle) :
    Tended (some handle) (h ++ [⟨.capture (.bind surface layerStack), .ok handle⟩]) :=
  ht.call (fun _ hu => by cases hu) (fun _ => rfl) rfl

theorem Tended.projected (ht : h.Tended (some handle)) (projection : Projection)
    (answer : Outcome Unit) :
    Tended (some handle) (h ++ [⟨.capture (.project handle projection), answer⟩]) :=
  ht.call (fun _ hu => hu) (fun hm => by cases hm) rfl

theorem Tended.released (ht : h.Tended (some handle)) :
    Tended none (h ++ [⟨.capture (.release handle), ()⟩]) :=
  ht.call (fun _ hu => hu) (fun hm => by cases hm) rfl

/-- A projection that is granted is the last one. -/
theorem applied?_granted (h : History) (handle : Handle) (projection : Projection) :
    applied? (h ++ [⟨.capture (.project handle projection), .ok ()⟩]) = some projection := by
  simp [applied?, Exchange.applied?]

/-- A projection that is refused leaves the last one. -/
theorem applied?_refused (h : History) (handle : Handle) (projection : Projection) (f : Failure) :
    applied? (h ++ [⟨.capture (.project handle projection), .error f⟩]) = h.applied? := by
  simp [applied?, Exchange.applied?]

end History

open History

namespace Capture

/-- What can be done to a captured display. -/
inductive Operation
  | start (surface : Surface) (geometry : Geometry) (size : FrameSize) (rotate : Bool)
  | update (geometry : Geometry)
  | close

/-- What is captured after an action, whatever came of the action. -/
def left {α : Type} (a : Action Capture α) (c : Capture) : Program Capture := do
  let (_, c) ← a c
  return c

/-- What is captured after an operation. -/
def Operation.perform : Operation → Capture → Program Capture
  | start surface geometry size rotate => left (Capture.start surface geometry size rotate)
  | update geometry => left (Capture.update geometry)
  | close => left Capture.close

/-- What is captured after a number of operations. -/
def operate : List Operation → Capture → Program Capture
  | [], c => return c
  | o :: rest, c => do operate rest (← o.perform c)

/-- What is captured agrees with what the calls came to. -/
structure Tracked (h : History) (c : Capture) : Prop where
  tended : h.Tended c.handle?
  applied : ∀ p, c.projection? = some p → h.applied? = some p

variable {h k : History} {c c' : Capture} {surface : Surface} {geometry : Geometry}
  {size : FrameSize} {rotate : Bool}

theorem tracked_initial : Tracked [] initial := ⟨tended_nil, fun _ hp => by cases hp⟩

theorem handle?_of_active {d : VirtualDisplay} (hc : c.active = some d) :
    c.handle? = some d.handle := by rw [handle?, hc]; rfl

/-- Where nothing is captured, no projection has to be known. -/
theorem tracked_of_inactive (ht : h.Tended none) (hc : c.active = none) : Tracked h c where
  tended := by
    rw [handle?, hc]
    exact ht
  applied p hp := by
    rw [projection?, hc] at hp
    cases hp

theorem Tracked.unbound (ht : Tracked h c) (hc : c.active = none) : h.Tended none := by
  have := ht.tended
  rwa [handle?, hc] at this

theorem Started.tracked {x : Outcome Projection}
    (hs : Started surface geometry size rotate c k (x, c')) (ht : Tracked h c) :
    Tracked (h ++ k) c' := by
  cases hs with
  | busy =>
    rw [List.append_nil]
    exact ht
  | refused f hc => exact tracked_of_inactive ((ht.unbound hc).refused ..) hc
  | unprojected handle f hc =>
    rw [List.append_cons, List.append_cons _ _ [_]]
    exact tracked_of_inactive (((ht.unbound hc).bound ..).projected ..).released hc
  | started handle hc =>
    rw [List.append_cons]
    refine ⟨((ht.unbound hc).bound ..).projected .., fun p hp => ?_⟩
    rw [applied?_granted]
    exact hp

theorem Updated.tracked {x : Outcome Bool} (hu : Updated geometry c k (x, c'))
    (ht : Tracked h c) : Tracked (h ++ k) c' := by
  cases hu with
  | still =>
    rw [List.append_nil]
    exact ht
  | refused d f hc =>
    have hheld := ht.tended
    rw [handle?_of_active hc] at hheld
    refine ⟨?_, fun p hp => ?_⟩
    · rw [handle?_of_active hc]
      exact hheld.projected ..
    · rw [applied?_refused]
      exact ht.applied p hp
  | projected d hc =>
    have hheld := ht.tended
    rw [handle?_of_active hc] at hheld
    refine ⟨hheld.projected .., fun p hp => ?_⟩
    rw [applied?_granted]
    exact hp

theorem Tracked.closing (ht : Tracked h c) : Tracked (h ++ c.closing) initial := by
  unfold Capture.closing
  split
  · next hc =>
    rw [List.append_nil]
    exact tracked_of_inactive (ht.unbound hc) rfl
  · next d hc =>
    have hheld := ht.tended
    rw [handle?_of_active hc] at hheld
    exact tracked_of_inactive hheld.released rfl

theorem ends_left {α : Type} {a : Action Capture α} {R : History → Capture → Prop}
    (ha : (a c).Ends fun h r => R h r.2) : (left a c).Ends R := by
  refine Program.ensures_bind.2 (ha.ensures fun h r hr => ?_)
  simpa only [Program.pure_eq, Program.ensures_done, Program.finished_some, List.append_nil]
    using hr

/-- **An operation** keeps track of the virtual display. -/
theorem ends_perform (o : Operation) (ht : Tracked h c) :
    (o.perform c).Ends fun k c' => Tracked (h ++ k) c' := by
  cases o with
  | start surface geometry size rotate =>
    exact ends_left <| (ends_start surface geometry size rotate c).ensures
      fun k r hr => hr.tracked ht
  | update geometry =>
    exact ends_left ((ends_update geometry c).ensures fun k r hr => hr.tracked ht)
  | close => exact ends_left (ensures_close.2 ht.closing)

/-- **Operations** keep track of the virtual display. -/
theorem ends_operate (operations : List Operation) (ht : Tracked h c) :
    (operate operations c).Ends fun k c' => Tracked (h ++ k) c' := by
  induction operations generalizing h c with
  | nil =>
    refine Program.ensures_done.2 ?_
    rw [Program.finished_some, List.append_nil]
    exact ht
  | cons o rest ih =>
    refine Program.ensures_bind.2 ((ends_perform o ht).ensures fun k c' hk => ?_)
    exact (ih hk).ensures fun k' c'' hk' => by rwa [List.append_assoc] at hk'

/-- Where nothing is captured the compositor may grant a virtual display and its projection. -/
theorem start_granted (surface : Surface) (geometry : Geometry) (size : FrameSize) (rotate : Bool)
    (hc : c.active = none) (handle : Handle) :
    ∃ k, (start surface geometry size rotate c).Runs k (some (.ok (.fit geometry size rotate),
      ⟨some ⟨handle, geometry, .fit geometry size rotate, size, rotate⟩⟩)) := by
  obtain ⟨_⟩ := c
  cases hc
  exact ⟨[⟨.capture (.bind surface geometry.layerStack), .ok handle⟩,
    ⟨.report .info ((Projection.fit geometry size rotate).report rotate), ()⟩,
    ⟨.capture (.project handle (.fit geometry size rotate)), .ok ()⟩],
    .ask _ _ _ (.ask _ _ _ (.ask _ _ _ (.done _)))⟩

/-- What the owner of a captured display can rely on after any use of it. -/
structure WellTended (h : History) (c : Capture) : Prop where
  tended : h.Tended c.handle?
  projected : c.projection?.isSome = c.isActive ∧ ∀ p, c.projection? = some p → h.applied? = some p
  /-- What is captured already is not started again. -/
  busy : c.isActive → ∀ surface geometry size rotate,
    (start surface geometry size rotate c).Ends fun k r =>
      k = [] ∧ r.2 = c ∧ ∃ f, r.1 = .error f ∧ f.stage = .capture
  /-- A start that fails leaves nothing behind, and nothing in the way of the next one. -/
  failed : c.isActive = false → ∀ surface geometry size rotate,
    (start surface geometry size rotate c).Ends fun k r => ∀ f, r.1 = .error f →
      f.stage = .capture ∧ r.2.isActive = false ∧ (h ++ k).Tended none
  startable : c.isActive = false → ∀ surface geometry size rotate, ∃ k c',
    (start surface geometry size rotate c).Runs k (some (.ok (.fit geometry size rotate), c')) ∧
      c'.isActive
  closed : (close c).Ends fun k r => r.2.isActive = false ∧ (h ++ k).Tended none

theorem Tracked.wellTended (ht : Tracked h c) : WellTended h c where
  tended := ht.tended
  projected := ⟨Option.isSome_map, ht.applied⟩
  busy hc surface geometry size rotate := by
    refine (ends_start surface geometry size rotate c).ensures fun k r hr => ?_
    cases hr with
    | busy f hf => exact ⟨rfl, rfl, f, rfl, hf⟩
    | refused _ hn => simp [isActive, hn] at hc
    | unprojected _ _ hn => simp [isActive, hn] at hc
    | started _ hn => simp [isActive, hn] at hc
  failed hc surface geometry size rotate := by
    refine (ends_start surface geometry size rotate c).ensures fun k r hr f hf => ?_
    obtain ⟨x, c'⟩ := r
    subst hf
    obtain ⟨hstage, rfl⟩ := hr.rejected
    have hnone : c'.handle? = none := by simpa [isActive, handle?] using hc
    have htracked := (hr.tracked ht).tended
    rw [hnone] at htracked
    exact ⟨hstage, hc, htracked⟩
  startable hc surface geometry size rotate := by
    have hnone : c.active = none := by simpa [isActive] using hc
    obtain ⟨k, hk⟩ := start_granted surface geometry size rotate hnone ⟨0⟩
    exact ⟨k, _, hk, rfl⟩
  closed := ensures_close.2 ⟨rfl, ht.closing.tended⟩

/-- **Virtual displays are neither leaked nor used after their end.** After any operations, and
whatever the compositor answered to them, what was made was destroyed, once each, but for the one
that is captured; every call was about the one that was there, which is projected as it is said to
be; a start is refused where something is captured, and can be tried again where it fails; and
closing leaves nothing. -/
theorem displays_tended (operations : List Operation) :
    (operate operations initial).Ends WellTended :=
  (ends_operate operations tracked_initial).ensures fun _ _ ht => ht.wellTended

end Capture

end Screencast
