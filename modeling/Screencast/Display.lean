/-!
# Displays and rectangles

What is known of the physical display at one moment, and the mapping of its content onto the
encoder's surface.
-/

namespace Screencast

/-- A rotation in quarter turns. -/
inductive Turn
  | none
  | quarter
  | half
  | threeQuarters
  deriving DecidableEq, Repr

namespace Turn

def degrees : Turn → Nat
  | none => 0
  | quarter => 90
  | half => 180
  | threeQuarters => 270

/-- The rotation by a number of degrees. -/
def ofDegrees? : Nat → Option Turn
  | 0 => some none
  | 90 => some quarter
  | 180 => some half
  | 270 => some threeQuarters
  | _ => .none

theorem ofDegrees?_degrees (r : Turn) : ofDegrees? r.degrees = some r := by cases r <;> rfl

def text (r : Turn) : String := s!"ROTATION_{r.degrees}"

end Turn

/-- A rectangle of pixels; the right and the bottom edge are outside of it. -/
structure Rectangle where
  left : UInt32
  top : UInt32
  right : UInt32
  bottom : UInt32
  deriving DecidableEq, Repr

namespace Rectangle

/-- The rectangle of a size with its corner at the origin. -/
def ofSize (width height : UInt32) : Rectangle := ⟨0, 0, width, height⟩

def width (r : Rectangle) : UInt32 := r.right - r.left

def height (r : Rectangle) : UInt32 := r.bottom - r.top

end Rectangle

/-- The display at one moment. Width and height are those of its content as it is turned now. -/
structure Geometry where
  width : UInt32
  height : UInt32
  orientation : Turn
  /-- Which of the composed pictures is shown on it. -/
  layerStack : UInt32
  deriving DecidableEq, Repr

/-- A mapping of display content onto a surface. -/
structure Projection where
  source : Rectangle
  /-- Where the content lands, before the rotation. -/
  destination : Rectangle
  rotation : Turn
  deriving DecidableEq, Repr

/-- The dimensions of a video, in pixels. -/
structure FrameSize where
  width : UInt32
  height : UInt32
  deriving DecidableEq, Repr

namespace FrameSize

/-- Both sides rounded down to even numbers. -/
def even (s : FrameSize) : FrameSize := ⟨s.width - s.width % 2, s.height - s.height % 2⟩

/-- The sides exchanged. -/
def turned (s : FrameSize) : FrameSize := ⟨s.height, s.width⟩

/-- Higher than wide. -/
def isUpright (s : FrameSize) : Bool := s.width < s.height

def text (s : FrameSize) : String := s!"{s.width.toNat}x{s.height.toNat}"

end FrameSize

end Screencast
