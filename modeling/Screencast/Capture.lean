import Screencast.Action
import Screencast.Projection

/-!
# The captured display

A virtual display draws what the physical one shows into the encoder's surface. It is projected for
the orientation that the display had, and projected anew when the display reports another one.

* `Capture.start`: makes the virtual display and projects it.
* `Capture.update`: projects it anew if the display was turned.
* `Capture.close`: destroys it.
-/

namespace Screencast

/-- A virtual display and what it is projected for. -/
structure VirtualDisplay where
  handle : Handle
  geometry : Geometry
  projection : Projection
  size : FrameSize
  rotate : Bool
  deriving DecidableEq

/-- The virtual display, while there is one. -/
structure Capture where
  active : Option VirtualDisplay
  deriving DecidableEq

namespace Capture

def initial : Capture := ⟨none⟩

def isActive (c : Capture) : Bool := c.active.isSome

/-- The projection that was applied last. -/
def projection? (c : Capture) : Option Projection := c.active.map VirtualDisplay.projection

def ask (r : CaptureRequest) : Program r.Answer := .request (.capture r)

/-- The projection for a display, which is reported. -/
def project (geometry : Geometry) (size : FrameSize) (rotate : Bool) : Program Projection := do
  let p := Projection.fit geometry size rotate
  report .info (p.report rotate)
  return p

/-- Makes a virtual display for a surface and projects it. If it cannot be projected it is destroyed
again. -/
def start (surface : Surface) (geometry : Geometry) (size : FrameSize) (rotate : Bool) :
    Action Capture Projection := do
  let c ← get
  if c.isActive then Action.fail ⟨.capture, "capture source already started"⟩
  else
    let handle ← (Action.attempt (ask (.bind surface geometry.layerStack))).during .capture
      "create virtual display"
    let projection ← project geometry size rotate
    match ← ask (.project handle projection) with
    | .error f =>
      ask (.release handle)
      Action.fail (f.asStage .capture "set display projection")
    | .ok () =>
      set (Capture.mk (some { handle, geometry, projection, size, rotate }))
      return projection

/-- Projects the virtual display anew if the orientation is not the one it is projected for, and
answers whether it did. -/
def update (geometry : Geometry) : Action Capture Bool := do
  match (← get).active with
  | none => return false
  | some d =>
    if geometry.orientation = d.geometry.orientation then return false
    else
      report .info s!"orientation changed, now {geometry.orientation.text}"
      let projection ← project geometry d.size d.rotate
      Action.attempt (ask (.project d.handle projection))
      set (Capture.mk (some { d with geometry, projection }))
      return true

/-- Destroys the virtual display, if there is one. -/
def close : Action Capture Unit := do
  match (← get).active with
  | none => return ()
  | some d =>
    report .debug s!"Destroying virtual display CaptureHandle({d.handle.id})"
    set initial
    ask (.release d.handle)

end Capture

end Screencast
