import Screencast.Settings.Basic

/-!
# A finished recording

What a recording reports when it has ended well: why it ended, how long it was, and a description
that can be kept beside the file.
-/

namespace Screencast

/-- Why a recording ended. -/
inductive Ending
  /-- It was asked to. -/
  | stopRequested
  /-- The time limit had passed. -/
  | timeLimit
  /-- The encoder announced its last buffer. -/
  | endOfStream
  deriving DecidableEq, Repr

namespace Ending

def name : Ending → String
  | stopRequested => "stop-requested"
  | timeLimit => "time-limit"
  | endOfStream => "end-of-stream"

/-- The name in a report of events. -/
def label : Ending → String
  | stopRequested => "StopRequested"
  | timeLimit => "TimeLimit"
  | endOfStream => "EndOfStream"

def names : List (String × Ending) :=
  [("stop-requested", stopRequested), ("time-limit", timeLimit), ("end-of-stream", endOfStream)]

end Ending

/-- A name of its own for a recording, and the moment at which it was described. -/
structure Identity where
  id : String
  createdAt : String
  deriving DecidableEq, Repr

/-- The description of a recording. -/
structure Description where
  identity : Identity
  format : Format
  path : Option String
  width : UInt32
  height : UInt32
  bitRate : UInt32
  frameRate : Single
  rotated : Bool
  monotonicTime : Bool
  frameCount : UInt64
  seconds : Double
  reason : Ending
  checksum : Option String
  hasFrameTimes : Bool
  deriving DecidableEq

/-- What a recording came to: the part of its description that the settings do not fix. -/
structure Totals where
  size : FrameSize
  frameRate : Single
  frameCount : UInt64
  seconds : Double
  reason : Ending
  checksum : Option String
  hasFrameTimes : Bool
  deriving DecidableEq

/-- The description of a recording that was made with these settings. -/
def Description.of (s : Settings) (t : Totals) (identity : Identity) : Description where
  identity := identity
  format := s.format
  path := s.destination.path?.map Path.text
  width := t.size.width
  height := t.size.height
  bitRate := s.bitRate
  frameRate := t.frameRate
  rotated := s.rotate
  monotonicTime := s.monotonicTime
  frameCount := t.frameCount
  seconds := t.seconds
  reason := t.reason
  checksum := t.checksum
  hasFrameTimes := t.hasFrameTimes

/-- A finished recording. -/
structure Recording where
  destination : Destination
  seconds : Double
  frameCount : UInt64
  reason : Ending
  /-- The digest of the file; none if the output is not a file of the recording's own. -/
  checksum : Option String
  description : Description
  deriving DecidableEq

end Screencast
