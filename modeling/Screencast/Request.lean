import Screencast.Disk
import Screencast.Failure
import Screencast.Recording.Basic
import Screencast.Sample

/-!
# What a recording asks of its surroundings

A recording works through an encoder, a display, a compositor that captures the display, a container
writer, raw outputs, the clock, a stop signal and the disk. Each of them is a type of requests, and
each request has a type of answers. Nothing is assumed of the answers beyond their types.

* `Request`: all requests.
* `Request.Answer`: the type of a request's answer; a request that can be refused answers with an
  `Outcome`.
-/

namespace Screencast

/-- What an encoder is configured with. -/
structure EncoderSettings where
  width : UInt32
  height : UInt32
  mediaType : String
  colorFormat : Int
  bitRate : UInt32
  frameRate : Single
  /-- Seconds between two key frames. -/
  keyFrameSeconds : UInt32
  maxBFrames : UInt32
  profile : Option Int
  level : Option Int
  codecName : Option String
  deriving DecidableEq

/-- A surface from which an encoder takes its pictures. -/
structure Surface where
  id : Nat
  persistent : Bool
  deriving DecidableEq, Repr

/-- The name of one slot of the encoder's buffer table. Its content changes as the encoder works. -/
structure Slot where
  id : Nat
  deriving DecidableEq, Repr

/-- Where the data of a filled buffer is. -/
structure FilledBuffer where
  /-- The place of the slot in the buffer table. -/
  index : Nat
  offset : Nat
  size : Nat
  time : Int
  flags : Flags
  deriving DecidableEq, Repr

/-- What an encoder answers when asked for a filled buffer. -/
inductive Dequeued
  | buffer (info : FilledBuffer)
  | tryAgain
  | formatChanged
  | buffersChanged
  | error (code : Int)
  deriving DecidableEq, Repr

inductive EncoderRequest
  | configure (params : EncoderSettings)
  | createSurface (persistent : Bool)
  | start
  /-- Waits for a filled buffer. -/
  | dequeue (milliseconds : Nat)
  | bufferTable
  | currentFormat
  /-- Hands a buffer back. -/
  | releaseBuffer (index : Nat)
  | stop
  | release
  /-- Looks at what a slot holds now. -/
  | readSlot (slot : Slot)
  deriving DecidableEq

@[reducible] def EncoderRequest.Answer : EncoderRequest → Type
  | configure _ => Outcome Unit
  | createSurface _ => Outcome Surface
  | start => Outcome Unit
  | dequeue _ => Dequeued
  | bufferTable => Outcome (List Slot)
  | currentFormat => Outcome TrackFormat
  | releaseBuffer _ => Outcome Unit
  | stop => Outcome Unit
  | release => Unit
  | readSlot _ => Bytes

inductive DisplayRequest
  | geometry
  | refreshRate
  deriving DecidableEq

@[reducible] def DisplayRequest.Answer : DisplayRequest → Type
  | geometry => Outcome Geometry
  | refreshRate => Outcome Single

/-- A virtual display of the compositor. -/
structure Handle where
  id : Nat
  deriving DecidableEq, Repr

inductive CaptureRequest
  /-- Makes a virtual display that draws a layer stack into a surface. -/
  | bind (surface : Surface) (layerStack : UInt32)
  | project (handle : Handle) (projection : Projection)
  | release (handle : Handle)
  deriving DecidableEq

@[reducible] def CaptureRequest.Answer : CaptureRequest → Type
  | bind _ _ => Outcome Handle
  | project _ _ => Outcome Unit
  | release _ => Unit

/-- The number of a track in a container. -/
abbrev Track := Nat

inductive MuxerRequest
  /-- Makes a container writer for a file. -/
  | create (path : Path) (container : Container)
  | addTrack (format : TrackFormat)
  | orientationHint (degrees : Nat)
  | start
  | write (track : Track) (data : Bytes) (time : Int) (flags : Flags)
  | stop
  deriving DecidableEq

@[reducible] def MuxerRequest.Answer : MuxerRequest → Type
  | create _ _ => Outcome Unit
  | addTrack _ => Outcome Track
  | orientationHint _ => Outcome Unit
  | start => Outcome Unit
  | write _ _ _ _ => Outcome Unit
  | stop => Outcome Unit

/-- A stream that takes bytes. -/
inductive Stream
  /-- A stream supplied with the recording. -/
  | supplied
  /-- A file, open for writing. -/
  | file (path : Path)
  | standardOutput
  deriving DecidableEq, Repr

inductive StreamRequest
  /-- Writes some of the bytes, from the first on. A write that is interrupted is made again, and the
  answer is that of the last one. -/
  | write (stream : Stream) (bytes : Bytes)
  | flush (stream : Stream)
  /-- Hands all of the bytes to whoever asked to be called with them. -/
  | deliver (bytes : Bytes)
  /-- Switches standard output to raw mode if it is a terminal, and answers whether it is one. -/
  | rawTerminal
  deriving DecidableEq

/-- A write answers how many bytes were taken. What goes wrong is told in the system's words. -/
@[reducible] def StreamRequest.Answer : StreamRequest → Type
  | write _ bytes => Except String (Fin (bytes.length + 1))
  | flush _ => Except String Unit
  | deliver _ => Except String Unit
  | rawTerminal => Bool

inductive DiskRequest
  | remove (path : Path)
  | create (path : Path)
  | write (path : Path) (content : Bytes)
  | read (path : Path)
  deriving DecidableEq

@[reducible] def DiskRequest.Answer : DiskRequest → Type
  | remove _ => Except Disk.Refusal Unit
  | create _ => Except Disk.Refusal Unit
  | write _ _ => Except Disk.Refusal Unit
  | read _ => Except Disk.Refusal Bytes

inductive ClockRequest
  /-- Nanoseconds on the clock that stops while the device sleeps. -/
  | monotonic
  /-- Nanoseconds since boot, sleep included. -/
  | sinceBoot
  deriving DecidableEq

/-- A reading of the clock as a number. What is computed of readings has 64 bits and goes round. -/
instance coeReading : Coe Int64 Int := ⟨Int64.toInt⟩

/-- Whole microseconds, out of nanoseconds. -/
def microseconds (nanos : Int64) : Int := (nanos : Int).tdiv 1000

inductive SignalRequest
  | isRaised
  | raise
  deriving DecidableEq

@[reducible] def SignalRequest.Answer : SignalRequest → Type
  | isRaised => Bool
  | raise => Unit

/-- How far a session has come. -/
inductive Phase
  /-- Encoder, capture and output are being set up. -/
  | configuring
  /-- Buffers are taken from the encoder. -/
  | capturing
  /-- The last buffer has been taken; what was acquired is given back. -/
  | draining
  | stopped
  deriving DecidableEq, Repr

namespace Phase

def isCapturing (p : Phase) : Bool := p == capturing

def isLast (p : Phase) : Bool := p == stopped

def name : Phase → String
  | configuring => "configuring"
  | capturing => "capturing"
  | draining => "draining"
  | stopped => "stopped"

end Phase

/-- What is told to whoever watches a session. -/
inductive Notice
  | phase (p : Phase)
  | finished (r : Recording)
  | failed (e : Failure)
  deriving DecidableEq

/-- How much a report matters. -/
inductive Level
  | error
  | warn
  | info
  | debug
  deriving DecidableEq, Repr

inductive Request
  | encoder (r : EncoderRequest)
  | display (r : DisplayRequest)
  | capture (r : CaptureRequest)
  | muxer (r : MuxerRequest)
  | stream (r : StreamRequest)
  | disk (r : DiskRequest)
  | clock (r : ClockRequest)
  | signal (r : SignalRequest)
  | notify (n : Notice)
  /-- Writes a line of the event report. -/
  | report (level : Level) (text : String)
  /-- Asks for a fresh identity. -/
  | identity
  deriving DecidableEq

@[reducible] def Request.Answer : Request → Type
  | encoder r => r.Answer
  | display r => r.Answer
  | capture r => r.Answer
  | muxer r => r.Answer
  | stream r => r.Answer
  | disk r => r.Answer
  | clock _ => Int64
  | signal r => r.Answer
  | notify _ => Unit
  | report _ _ => Unit
  | identity => Identity

end Screencast
