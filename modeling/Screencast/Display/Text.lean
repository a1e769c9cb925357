import Screencast.Display
import Screencast.Json.Writer

/-!
# Sizes, rectangles and displays as text

Each is a JSON object of its fields, all of them required; a rotation is its name.
-/

namespace Screencast

namespace FrameSize

def fieldNames : List String := ["width", "height"]

def ofJson? (j : Json) : Option FrameSize := do
  let r ← j.fields? fieldNames
  let width ← r.required "width" Json.word?
  let height ← r.required "height" Json.word?
  return ⟨width, height⟩

def toJson (s : FrameSize) : Json :=
  .record [("width", .ofWord s.width), ("height", .ofWord s.height)]

end FrameSize

namespace Turn

def names : List (String × Turn) :=
  [("Rotation0", none), ("Rotation90", quarter), ("Rotation180", half),
   ("Rotation270", threeQuarters)]

def ofJson? : Json → Option Turn := Json.name? names

def toJson (r : Turn) : Json := .text s!"Rotation{r.degrees}"

end Turn

namespace Rectangle

def fieldNames : List String := ["left", "top", "right", "bottom"]

def ofJson? (j : Json) : Option Rectangle := do
  let r ← j.fields? fieldNames
  let left ← r.required "left" Json.word?
  let top ← r.required "top" Json.word?
  let right ← r.required "right" Json.word?
  let bottom ← r.required "bottom" Json.word?
  return ⟨left, top, right, bottom⟩

def toJson (r : Rectangle) : Json :=
  .record [("left", .ofWord r.left), ("top", .ofWord r.top), ("right", .ofWord r.right),
    ("bottom", .ofWord r.bottom)]

end Rectangle

namespace Geometry

def fieldNames : List String := ["width", "height", "orientation", "layer_stack"]

def ofJson? (j : Json) : Option Geometry := do
  let r ← j.fields? fieldNames
  let width ← r.required "width" Json.word?
  let height ← r.required "height" Json.word?
  let orientation ← r.required "orientation" Turn.ofJson?
  let layerStack ← r.required "layer_stack" Json.word?
  return ⟨width, height, orientation, layerStack⟩

def toJson (g : Geometry) : Json :=
  .record [("width", .ofWord g.width), ("height", .ofWord g.height),
    ("orientation", g.orientation.toJson), ("layer_stack", .ofWord g.layerStack)]

end Geometry

namespace Projection

def fieldNames : List String := ["source", "destination", "rotation"]

def ofJson? (j : Json) : Option Projection := do
  let r ← j.fields? fieldNames
  let source ← r.required "source" Rectangle.ofJson?
  let destination ← r.required "destination" Rectangle.ofJson?
  let rotation ← r.required "rotation" Turn.ofJson?
  return ⟨source, destination, rotation⟩

def toJson (p : Projection) : Json :=
  .record [("source", p.source.toJson), ("destination", p.destination.toJson),
    ("rotation", p.rotation.toJson)]

end Projection

end Screencast
