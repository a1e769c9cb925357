import Screencast.Capture
import Screencast.Proofs.Ensures

/-!
# The conduct of the captured display

What making, updating and destroying the virtual display asks of the compositor.

* `Capture.Started`, `Capture.Updated`: the cases of the two operations that can be refused.
* `Capture.closing`: the call that destroys the virtual display.
-/

namespace Screencast.Capture

variable {c : Capture}

theorem ensures_project {geometry : Geometry} {size : FrameSize} {rotate : Bool}
    {Q : History → Option Projection → Prop} :
    (project geometry size rotate).Ensures Q ↔
      Q [] (some (Projection.fit geometry size rotate)) := by
  simp only [project, Program.ensures_bind, Program.ensures_report, Program.pure_eq,
    Program.ensures_done, List.append_nil]

/-- The making of the virtual display. -/
inductive Started (surface : Surface) (geometry : Geometry) (size : FrameSize) (rotate : Bool)
    (c : Capture) : History → Outcome Projection × Capture → Prop
  | busy (f : Failure) (hf : f.stage = .capture) (hc : c.isActive) :
      Started surface geometry size rotate c [] (.error f, c)
  | refused (f : Failure) (hc : c.active = none) :
      Started surface geometry size rotate c
        [⟨.capture (.bind surface geometry.layerStack), .error f⟩]
        (.error (f.asStage .capture "create virtual display"), c)
  | unprojected (handle : Handle) (f : Failure) (hc : c.active = none) :
      Started surface geometry size rotate c
        [⟨.capture (.bind surface geometry.layerStack), .ok handle⟩,
         ⟨.capture (.project handle (.fit geometry size rotate)), .error f⟩,
         ⟨.capture (.release handle), ()⟩]
        (.error (f.asStage .capture "set display projection"), c)
  | started (handle : Handle) (hc : c.active = none) :
      Started surface geometry size rotate c
        [⟨.capture (.bind surface geometry.layerStack), .ok handle⟩,
         ⟨.capture (.project handle (.fit geometry size rotate)), .ok ()⟩]
        (.ok (.fit geometry size rotate),
          ⟨some ⟨handle, geometry, .fit geometry size rotate, size, rotate⟩⟩)

theorem ends_start (surface : Surface) (geometry : Geometry) (size : FrameSize) (rotate : Bool)
    (c : Capture) :
    (start surface geometry size rotate c).Ends (Started surface geometry size rotate c) := by
  unfold start
  simp only [Action.ensures_bind, Action.ensures_get, Action.after_ok]
  split
  · rename_i hc
    exact Action.ensures_fail.2 (.busy _ rfl hc)
  rename_i hc
  have hc' : c.active = none := by simpa [isActive] using hc
  simp only [ask, Program.request, Action.ensures_bind, Action.ensures_during,
    Action.ensures_attempt, Action.ensures_lift, Program.ensures_ask, Program.ensures_done,
    ensures_project, Exchange.call, forall_outcome, Option.map_some, Except.mapError,
    Action.after_ok, Action.after_error, Action.ensures_fail, Action.ensures_set,
    Action.ensures_pure, List.nil_append, List.cons_append]
  refine ⟨fun f => .refused f hc', fun handle => ⟨fun f _ => .unprojected handle f hc', ?_⟩⟩
  exact fun _ => .started handle hc'

theorem Started.within {surface : Surface} {geometry : Geometry} {size : FrameSize} {rotate : Bool}
    {h : History} {r : Outcome Projection × Capture}
    (hs : Started surface geometry size rotate c h r) : h.Within [.capture] := by
  cases hs <;> simp [Exchange.party]

/-- A start that fails is told as a failure of the capture, and captures nothing new. -/
theorem Started.rejected {surface : Surface} {geometry : Geometry} {size : FrameSize}
    {rotate : Bool} {h : History} {f : Failure} {c' : Capture}
    (hs : Started surface geometry size rotate c h (.error f, c')) :
    f.stage = .capture ∧ c' = c := by
  cases hs with
  | busy _ hf => exact ⟨hf, rfl⟩
  | refused => exact ⟨Failure.stage_asStage .., rfl⟩
  | unprojected => exact ⟨Failure.stage_asStage .., rfl⟩

/-- The answer to a new geometry of the display. -/
inductive Updated (geometry : Geometry) (c : Capture) :
    History → Outcome Bool × Capture → Prop
  | still (hc : ∀ d, c.active = some d → geometry.orientation = d.geometry.orientation) :
      Updated geometry c [] (.ok false, c)
  | refused (d : VirtualDisplay) (f : Failure) (hc : c.active = some d)
      (ho : geometry.orientation ≠ d.geometry.orientation) :
      Updated geometry c
        [⟨.capture (.project d.handle (.fit geometry d.size d.rotate)), .error f⟩]
        (.error f, c)
  | projected (d : VirtualDisplay) (hc : c.active = some d)
      (ho : geometry.orientation ≠ d.geometry.orientation) :
      Updated geometry c
        [⟨.capture (.project d.handle (.fit geometry d.size d.rotate)), .ok ()⟩]
        (.ok true,
          ⟨some { d with geometry, projection := .fit geometry d.size d.rotate }⟩)

theorem ends_update (geometry : Geometry) (c : Capture) :
    (update geometry c).Ends (Updated geometry c) := by
  unfold update
  simp only [Action.ensures_bind, Action.ensures_get, Action.after_ok]
  cases hc : c.active with
  | none =>
    refine Action.ensures_pure.2 (.still fun d hd => ?_)
    rw [hc] at hd; cases hd
  | some d =>
    simp only
    split
    · rename_i ho
      refine Action.ensures_pure.2 (.still fun d' hd => ?_)
      rw [hc] at hd; cases hd; exact ho
    rename_i ho
    simp only [ask, Program.request, Action.ensures_bind, Action.ensures_lift,
      Action.ensures_attempt, Program.ensures_report, Program.ensures_ask, Program.ensures_done,
      ensures_project, Exchange.call, forall_outcome, Option.map_some, Action.after_ok,
      Action.after_error, Action.ensures_set, Action.ensures_pure, List.nil_append,
      List.append_nil]
    exact ⟨fun f => .refused d f hc ho, fun _ => .projected d hc ho⟩

theorem Updated.within {geometry : Geometry} {h : History} {r : Outcome Bool × Capture}
    (hu : Updated geometry c h r) : h.Within [.capture] := by
  cases hu <;> simp [Exchange.party]

/-- The calls that destroy the virtual display, if there is one. -/
def closing (c : Capture) : History :=
  match c.active with
  | none => []
  | some d => [⟨.capture (.release d.handle), ()⟩]

theorem closing_within : c.closing.Within [.capture] := by
  unfold closing
  split <;> simp [Exchange.party]

theorem ensures_close {Q : History → Option (Outcome Unit × Capture) → Prop} :
    (close c).Ensures Q ↔ Q c.closing (some (.ok (), initial)) := by
  rcases c with ⟨_ | d⟩
  · unfold close
    simp only [Action.ensures_bind, Action.ensures_get, Action.after_ok, Action.ensures_pure,
      List.append_nil]
    exact Iff.rfl
  · unfold close
    simp only [ask, Program.request, Action.ensures_bind, Action.ensures_get,
      Action.ensures_lift, Action.ensures_set, Program.ensures_report, Program.ensures_ask,
      Program.ensures_done, Exchange.call, Option.map_some, Action.after_ok, List.nil_append,
      List.append_nil]
    exact ⟨fun h => h (), fun h _ => h⟩

end Screencast.Capture
