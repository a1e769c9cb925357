import Screencast.Decimal.Layout
import Screencast.Display
import Screencast.Failure
import Screencast.Path

/-!
# Recording settings

What a recording is asked to do: the video, how long, in which format and where to. Settings are
checked once, before anything is acquired, and do not change afterwards.

* `Settings.defect?`: the first bound that some settings break.
* `Settings.check`: the same as a failure of the first stage.
-/

namespace Screencast

/-- The container formats that a muxer writes. -/
inductive Container
  | mpeg4
  | webm
  | threeGpp
  deriving DecidableEq, Repr

/-- The form of the output: a container, or the bare stream of the encoder. -/
inductive Format
  | mp4
  | webm
  | threeGpp
  | h264
  | frames
  deriving DecidableEq, Repr

namespace Format

def container? : Format → Option Container
  | mp4 => some .mpeg4
  | webm => some .webm
  | threeGpp => some .threeGpp
  | h264 => none
  | frames => none

def isContainer (f : Format) : Bool := f.container?.isSome

/-- Only mp4 carries the track of frame times. -/
def hasFrameTimes (f : Format) : Bool := f == mp4

def name : Format → String
  | mp4 => "mp4"
  | webm => "webm"
  | threeGpp => "3gpp"
  | h264 => "h264"
  | frames => "raw-frames"

/-- The format with this name; the bare stream of frames has a short one too. -/
def ofName (s : String) : Outcome Format :=
  match s with
  | "mp4" => .ok mp4
  | "webm" => .ok webm
  | "3gpp" => .ok threeGpp
  | "h264" => .ok h264
  | "frames" => .ok frames
  | "raw-frames" => .ok frames
  | s => .error ⟨.settings, s!"unknown output format: {s}"⟩

/-- **The name of a format is read back.** -/
theorem ofName_name (f : Format) : ofName f.name = .ok f := by cases f <;> rfl

end Format

/-- Where the output goes. -/
inductive Destination
  | file (path : Path)
  | standardOutput
  deriving DecidableEq, Repr

namespace Destination

/-- A lone dash is standard output, all other text a file. -/
def ofText (s : String) : Destination := if s = "-" then .standardOutput else .file ⟨s⟩

def toText : Destination → String
  | file path => path.text
  | standardOutput => "-"

/-- The destination as it is shown. -/
def display : Destination → String
  | file path => path.text
  | standardOutput => "<stdout>"

def path? : Destination → Option Path
  | file path => some path
  | standardOutput => none

end Destination

structure Settings where
  /-- The size of the video. Without one it is that of the display, and a smaller one is tried if
  the encoder refuses it. -/
  size : Option FrameSize
  /-- Bits per second. -/
  bitRate : UInt32
  /-- Frames per second. Without them it is the display's refresh rate. -/
  frameRate : Option Single
  /-- How many frames in a row may refer to later ones. -/
  maxBFrames : UInt32
  /-- Seconds after which the recording ends by itself. -/
  timeLimit : UInt32
  /-- Turns the video by a quarter and marks the file so. -/
  rotate : Bool
  /-- Frames carry monotonic time; only passed on. -/
  monotonicTime : Bool
  /-- The encoder is given a surface instead of being asked for one. -/
  persistentSurface : Bool
  /-- The encoder to use, by name. -/
  codecName : Option String
  format : Format
  destination : Destination
  /-- Writes a description of the recording beside it. -/
  sidecar : Bool
  deriving DecidableEq

namespace Settings

def lowestBitRate : UInt32 := 100000

def highestBitRate : UInt32 := 200000000

/-- The longest recording, in seconds. -/
def longestRecording : UInt32 := 180

/-- The settings of a recording of which nothing is asked. -/
def standard : Settings where
  size := none
  bitRate := 20000000
  frameRate := none
  maxBFrames := 0
  timeLimit := longestRecording
  rotate := false
  monotonicTime := false
  persistentSurface := false
  codecName := none
  format := .mp4
  destination := .file ⟨"screenrecord.mp4"⟩
  sidecar := false

/-- What can be wrong with settings. -/
inductive Defect
  | bitRate (rate : UInt32)
  | timeLimit (seconds : UInt32)
  | emptySize (size : FrameSize)
  | oddSize (size : FrameSize)
  | frameRate (rate : Single)
  | needsFile (format : Format)
  deriving DecidableEq

def Defect.text : Defect → String
  | bitRate rate =>
    s!"bit rate {rate.toNat}bps outside acceptable range " ++
      s!"[{lowestBitRate.toNat},{highestBitRate.toNat}]"
  | timeLimit seconds =>
    s!"time limit {seconds.toNat}s outside acceptable range [1,{longestRecording.toNat}]"
  | emptySize size => s!"invalid video size: {size.text}"
  | oddSize size => s!"video size must be even: {size.text}"
  | frameRate rate => s!"invalid frame rate: {rate.text}"
  | needsFile format => s!"{format.name} output needs a file, not standard output"

variable (s : Settings)

def bitRateDefect? : Option Defect :=
  if s.bitRate < lowestBitRate ∨ highestBitRate < s.bitRate then some (.bitRate s.bitRate)
  else none

def timeLimitDefect? : Option Defect :=
  if s.timeLimit = 0 ∨ longestRecording < s.timeLimit then some (.timeLimit s.timeLimit) else none

/-- Encoders take even sizes only. -/
def sizeDefect? : Option Defect :=
  s.size.bind fun size =>
    if size.width = 0 ∨ size.height = 0 then some (.emptySize size)
    else if size.width % 2 ≠ 0 ∨ size.height % 2 ≠ 0 then some (.oddSize size)
    else none

def frameRateDefect? : Option Defect :=
  s.frameRate.bind fun rate =>
    if rate.isFinite && rate.isPositive then none else some (.frameRate rate)

def destinationDefect? : Option Defect :=
  if s.format.isContainer ∧ s.destination = .standardOutput then some (.needsFile s.format)
  else none

/-- The first defect, in the order in which the settings are checked. -/
def defect? : Option Defect :=
  s.bitRateDefect? <|> s.timeLimitDefect? <|> s.sizeDefect? <|> s.frameRateDefect? <|>
    s.destinationDefect?

/-- Fails with the first defect. -/
def check : Outcome Unit :=
  match s.defect? with
  | none => .ok ()
  | some d => .error ⟨.settings, d.text⟩

end Settings

end Screencast
