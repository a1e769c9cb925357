import Screencast.Display.Text
import Screencast.Json.Number
import Screencast.Json.Reader
import Screencast.Settings.Basic

/-!
# Settings as text

Settings are kept as a JSON object. A field that is not written has its standard value.

* `Settings.toJson`, `Settings.ofJson?`: the object of some settings, and its reader.
* `Settings.ofText`: settings from a whole text.
-/

namespace Screencast

namespace Format

/-- The names of the formats in JSON. -/
def names : List (String × Format) :=
  [("mp4", mp4), ("webm", webm), ("3gpp", threeGpp), ("raw-h264", h264), ("raw-frames", frames)]

def ofJson? : Json → Option Format := Json.name? names

def toJson (f : Format) : Json :=
  .text (match f with
    | mp4 => "mp4"
    | webm => "webm"
    | threeGpp => "3gpp"
    | h264 => "raw-h264"
    | frames => "raw-frames")

/-- **The written name of a format is read back.** -/
theorem ofJson?_toJson (f : Format) : ofJson? f.toJson = some f := by cases f <;> rfl

end Format

namespace Destination

def ofJson? (j : Json) : Option Destination := j.string?.map ofText

def toJson (d : Destination) : Json := .text d.toText

end Destination

namespace Settings

/-- The fields in the order in which they are written. -/
def fieldNames : List String :=
  ["video_size", "bit_rate", "frame_rate", "max_b_frames", "time_limit_secs", "rotate",
   "monotonic_time", "persistent_surface", "codec_name", "output_format", "output_target",
   "write_metadata_sidecar"]

def toJson (s : Settings) : Json :=
  .record
    [("video_size", .ofOption FrameSize.toJson s.size),
     ("bit_rate", .ofWord s.bitRate),
     ("frame_rate", .ofOption Json.ofSingle s.frameRate),
     ("max_b_frames", .ofWord s.maxBFrames),
     ("time_limit_secs", .ofWord s.timeLimit),
     ("rotate", .bool s.rotate),
     ("monotonic_time", .bool s.monotonicTime),
     ("persistent_surface", .bool s.persistentSurface),
     ("codec_name", .ofOption Json.text s.codecName),
     ("output_format", s.format.toJson),
     ("output_target", s.destination.toJson),
     ("write_metadata_sidecar", .bool s.sidecar)]

/-- Settings from an object or an array; what is missing has its standard value. -/
def ofJson? (j : Json) : Option Settings := do
  let r ← j.fields? fieldNames
  let d := standard
  let size ← r.get "video_size" (some d.size) (Json.option? FrameSize.ofJson?)
  let bitRate ← r.get "bit_rate" (some d.bitRate) Json.word?
  let frameRate ← r.get "frame_rate" (some d.frameRate) (Json.option? Json.single?)
  let maxBFrames ← r.get "max_b_frames" (some d.maxBFrames) Json.word?
  let timeLimit ← r.get "time_limit_secs" (some d.timeLimit) Json.word?
  let rotate ← r.get "rotate" (some d.rotate) Json.bool?
  let monotonicTime ← r.get "monotonic_time" (some d.monotonicTime) Json.bool?
  let persistentSurface ← r.get "persistent_surface" (some d.persistentSurface) Json.bool?
  let codecName ← r.get "codec_name" (some d.codecName) (Json.option? Json.string?)
  let format ← r.get "output_format" (some d.format) Format.ofJson?
  let destination ← r.get "output_target" (some d.destination) Destination.ofJson?
  let sidecar ← r.get "write_metadata_sidecar" (some d.sidecar) Json.bool?
  return { size, bitRate, frameRate, maxBFrames, timeLimit, rotate, monotonicTime,
           persistentSurface, codecName, format, destination, sidecar }

/-- Settings from their text. -/
def ofText (text : String) : Outcome Settings :=
  match (Json.read? text).bind ofJson? with
  | some s => .ok s
  | none => .error ⟨.settings, "failed to parse config"⟩

/-- The text of some settings. -/
def toText (s : Settings) : String := s.toJson.compact

end Settings

end Screencast
