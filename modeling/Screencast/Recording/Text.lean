import Screencast.Recording.Basic
import Screencast.Settings.Text

/-!
# The description of a recording as text

A JSON object with each field on a line of its own.

* `Description.toText`, `Description.ofText?`: the text and its reader.
* `Description.pathFor`: the file in which the description of a recording is kept.
-/

namespace Screencast

namespace Ending

def ofJson? : Json → Option Ending := Json.name? names

def toJson (r : Ending) : Json := .text r.name

end Ending

namespace Description

/-- The fields in the order in which they are written. -/
def fieldNames : List String :=
  ["id", "created_at", "output_format", "file_path", "width", "height", "bit_rate", "frame_rate",
   "rotated", "monotonic_time", "frame_count", "duration_secs", "stop_reason", "checksum",
   "has_frame_time_track"]

def toJson (d : Description) : Json :=
  .record
    [("id", .text d.identity.id),
     ("created_at", .text d.identity.createdAt),
     ("output_format", d.format.toJson),
     ("file_path", .ofOption Json.text d.path),
     ("width", .ofWord d.width),
     ("height", .ofWord d.height),
     ("bit_rate", .ofWord d.bitRate),
     ("frame_rate", .ofSingle d.frameRate),
     ("rotated", .bool d.rotated),
     ("monotonic_time", .bool d.monotonicTime),
     ("frame_count", .ofNat d.frameCount.toNat),
     ("duration_secs", .ofDouble d.seconds),
     ("stop_reason", d.reason.toJson),
     ("checksum", .ofOption Json.text d.checksum),
     ("has_frame_time_track", .bool d.hasFrameTimes)]

/-- A description from an object or an array. Only the mark for monotonic time may be missing from
both. -/
def ofJson? (j : Json) : Option Description := do
  let r ← j.fields? fieldNames
  let id ← r.required "id" Json.string?
  let createdAt ← r.required "created_at" Json.string?
  let format ← r.required "output_format" Format.ofJson?
  let path ← r.optional "file_path" Json.string?
  let width ← r.required "width" Json.word?
  let height ← r.required "height" Json.word?
  let bitRate ← r.required "bit_rate" Json.word?
  let frameRate ← r.required "frame_rate" Json.single?
  let rotated ← r.required "rotated" Json.bool?
  let monotonicTime ← r.get "monotonic_time" (some false) Json.bool?
  let frameCount ← r.required "frame_count" Json.longWord?
  let seconds ← r.required "duration_secs" Json.double?
  let reason ← r.required "stop_reason" Ending.ofJson?
  let checksum ← r.optional "checksum" Json.string?
  let hasFrameTimes ← r.required "has_frame_time_track" Json.bool?
  return { identity := ⟨id, createdAt⟩, format, path, width, height, bitRate, frameRate, rotated,
           monotonicTime, frameCount, seconds, reason, checksum, hasFrameTimes }

def toText (d : Description) : String := d.toJson.indented

def ofText? (text : String) : Option Description := (Json.read? text).bind ofJson?

/-- The file beside a recording that describes it. -/
def pathFor (recording : Path) : Path := recording.withExtension "metadata.json"

end Description

end Screencast
