import Screencast.Binary.Arithmetic
import Screencast.Display

/-!
# Fitting a display into a video

The whole display is shown, its aspect ratio kept, in the middle of the video's canvas; what the
picture leaves free at the sides or above and below stays empty. The ratio is computed in 32-bit
floating point and the free side is cut down to whole pixels.

* `Projection.fitted`: the size of the picture.
* `Projection.fit`: the projection of a display onto a video, turned by a quarter if asked for.
-/

namespace Screencast

namespace Projection

/-- A number of pixels as a floating-point number. -/
def ofPixels (n : UInt32) : Single := Binary.ofRatio false n.toNat 1

/-- The whole pixels in a floating-point number, held in the range of a word. -/
def toPixels (x : Single) : UInt32 := UInt32.ofNat (x.truncate (2 ^ 32 - 1))

/-- The size of the picture of a `width × height` display on a canvas: the full width where the
height then leaves room, else the full height. -/
def fitted (canvas : FrameSize) (width height : UInt32) : FrameSize :=
  let aspect := ofPixels height / ofPixels width
  let natural := toPixels (ofPixels canvas.width * aspect)
  if natural < canvas.height then ⟨canvas.width, natural⟩
  else ⟨toPixels (ofPixels canvas.height / aspect), canvas.height⟩

/-- A picture of the given size in the middle of the canvas. -/
def centred (canvas picture : FrameSize) : Rectangle :=
  let left := (canvas.width - picture.width) / 2
  let top := (canvas.height - picture.height) / 2
  ⟨left, top, left + picture.width, top + picture.height⟩

/-- The projection of a display onto a video. Turned video has its sides exchanged before the
picture is fitted, and the turn is left to the compositor. A display without extent takes the whole
canvas. -/
def fit (display : Geometry) (video : FrameSize) (rotate : Bool) : Projection :=
  let canvas := if rotate then video.turned else video
  { source := .ofSize display.width display.height
    destination :=
      if display.width = 0 ∨ display.height = 0 then .ofSize canvas.width canvas.height
      else centred canvas (fitted canvas display.width display.height)
    rotation := if rotate then .quarter else .none }

/-- What is reported of a projection: size and place of the picture in the finished video. -/
def report (p : Projection) (rotate : Bool) : String :=
  let d := p.destination
  if rotate then
    s!"Rotated content area is {d.height.toNat}x{d.width.toNat} " ++
      s!"at offset x={d.top.toNat} y={d.left.toNat}"
  else
    s!"Content area is {d.width.toNat}x{d.height.toNat} at offset x={d.left.toNat} y={d.top.toNat}"

end Projection

end Screencast
