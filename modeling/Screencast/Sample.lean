import Screencast.Binary.Format

/-!
# Encoded samples and track formats
-/

namespace Screencast

/-- A sequence of bytes. -/
abbrev Bytes := List UInt8

/-- The flags of an encoded buffer. -/
structure Flags where
  bits : UInt32
  deriving DecidableEq, Repr

namespace Flags

def empty : Flags := ⟨0⟩

/-- The buffer starts with a picture that needs no other. -/
def keyFrame : Flags := ⟨1⟩

/-- The buffer holds parameters of the codec and no picture. -/
def codecConfig : Flags := ⟨2⟩

/-- No buffer follows. -/
def endOfStream : Flags := ⟨4⟩

/-- Every flag of `g` is set in `f`. -/
def contains (f g : Flags) : Bool := f.bits &&& g.bits == g.bits

/-- The flags set in either. -/
def union (f g : Flags) : Flags := ⟨f.bits ||| g.bits⟩

instance : OrOp Flags := ⟨union⟩

def isKeyFrame (f : Flags) : Bool := f.contains keyFrame

def isConfig (f : Flags) : Bool := f.contains codecConfig

def isEndOfStream (f : Flags) : Bool := f.contains endOfStream

end Flags

/-- One unit of encoder output: a copy of what a buffer of the encoder held. -/
structure Sample where
  /-- The buffer, which is the encoder's again once it has been handed back. -/
  buffer : Nat
  payload : Bytes
  /-- The presentation time in microseconds. -/
  time : Int
  flags : Flags
  deriving DecidableEq, Repr

/-- The media type of the video stream. -/
def videoType : String := "video/avc"

/-- The media type of the frame-time track. -/
def octetStreamType : String := "application/octet-stream"

/-- What a track of a container is told about its samples. -/
structure TrackFormat where
  mediaType : String
  width : Option UInt32
  height : Option UInt32
  frameRate : Option Single
  /-- Parameters of the codec, one entry a parameter set. -/
  codecData : List Bytes
  deriving DecidableEq

namespace TrackFormat

/-- A format of which nothing is known. -/
def unknown : TrackFormat := ⟨"", none, none, none, []⟩

def video (mediaType : String) (width height : UInt32) : TrackFormat :=
  { unknown with mediaType, width := some width, height := some height }

/-- The format of the frame-time track. -/
def octetStream : TrackFormat := { unknown with mediaType := octetStreamType }

end TrackFormat

end Screencast
