import Screencast.Rehearsal.Surroundings

/-!
# A device in memory

A simpler device than the scripted one: it keeps a log for each of its parts, and one log of the
calls that give something back, shared by all of them.

* `Step`: one step of the encoder.
* `EncoderCalls`, `CaptureCalls`, `MuxerCalls`: what the parts were asked.
* `Logged.answer`: how the device answers.
-/

namespace Screencast.Rehearsal

/-- A call that gives something back. -/
inductive Lifecycle
  | captureReleased
  | encoderStopped
  | muxerStopped
  | encoderReleased
  deriving DecidableEq

/-- What the encoder brings at a step. -/
inductive Step
  | tryAgain
  | formatChanged (f : TrackFormat)
  | buffersChanged
  | frame (payload : Bytes) (time : Int) (flags : Flags)
  /-- An empty buffer that ends the stream. -/
  | endOfStream
  /-- A buffer that the encoder never had. -/
  | bogusBuffer (index : Nat)
  | error (code : Int)

namespace Step

def picture (payload : Bytes) (time : Int) : Step := frame payload time .empty

def config (payload : Bytes) : Step := frame payload 0 .codecConfig

end Step

/-- What the encoder was asked. -/
structure EncoderCalls where
  params : List EncoderSettings
  starts : Nat
  stops : Nat
  releases : Nat
  releasedBuffers : List Nat

/-- What the compositor was asked. -/
structure CaptureCalls where
  binds : List (Surface × UInt32)
  projections : List Projection
  releases : List Handle

/-- What the container writers were asked. -/
structure MuxerCalls where
  calls : List MuxerRequest
  created : List (Path × Container)

structure Logged where
  around : Surroundings
  script : List Step
  /-- The failures of the first attempts to configure the encoder. -/
  configureFailures : List Failure
  failStart : Bool
  /-- How far the clock moves whenever a buffer is asked for. -/
  clockStep : Int
  table : List Slot
  contents : List (Slot × Bytes)
  nextSlot : Nat
  framesOut : Nat
  format : TrackFormat
  /-- What the display shows; nothing if it cannot be read. -/
  geometries : Option (List Geometry)
  failBind : Bool
  tracks : Nat
  muxerFile : Option Path
  encoder : EncoderCalls
  capture : CaptureCalls
  muxer : MuxerCalls
  events : List Lifecycle
  /-- What was handed to the callback. -/
  received : List Bytes

namespace Logged

/-- The size of the buffer table. -/
def tableSize : Nat := 4

/-- The failure of an attempt to configure the encoder, if nothing else is said. -/
def rejected : Failure := ⟨.encoder, "codec rejected format"⟩

/-- How often the display is drawn. -/
def refreshRate : Single := Binary.ofInt 60

def initial (around : Surroundings) : Logged where
  around := around
  script := []
  configureFailures := []
  failStart := false
  clockStep := 0
  table := []
  contents := []
  nextSlot := 0
  framesOut := 0
  format := .unknown
  geometries := some []
  failBind := false
  tracks := 0
  muxerFile := none
  encoder := ⟨[], 0, 0, 0, []⟩
  capture := ⟨[], [], []⟩
  muxer := ⟨[], []⟩
  events := []
  received := []

variable (s : Logged)

def log (e : Lifecycle) : Logged := { s with events := s.events ++ [e] }

/-- Fills the next slot in turn and hands it out. -/
def handOut (payload : Bytes) (time : Int) (flags : Flags) : Dequeued × Logged :=
  let index := s.framesOut % tableSize
  let contents := match s.table[index]? with
    | none => s.contents
    | some slot => (slot, payload) :: s.contents
  (.buffer ⟨index, 0, payload.length, time, flags⟩,
    { s with contents, framesOut := s.framesOut + 1 })

/-- The next step; after the last one nothing comes any more. -/
def dequeue : Dequeued × Logged :=
  let s := { s with around := { s.around with timer := s.around.timer.advance s.clockStep } }
  match s.script with
  | [] => (.tryAgain, s)
  | step :: script =>
    let s := { s with script }
    match step with
    | .tryAgain => (.tryAgain, s)
    | .formatChanged format => (.formatChanged, { s with format })
    | .buffersChanged => (.buffersChanged, s)
    | .frame payload time flags => s.handOut payload time flags
    | .endOfStream => s.handOut [] 0 .endOfStream
    | .bogusBuffer index => (.buffer ⟨index, 0, 1, 0, .empty⟩, s)
    | .error code => (.error code, s)

def answerEncoder : (r : EncoderRequest) → r.Answer × Logged
  | .configure params =>
    let s := { s with encoder := { s.encoder with params := s.encoder.params ++ [params] } }
    match s.configureFailures with
    | f :: rest => (.error f, { s with configureFailures := rest })
    | [] =>
      let table := (List.range tableSize).map fun i => Slot.mk (s.nextSlot + i)
      (.ok (), { s with table, nextSlot := s.nextSlot + tableSize })
  | .createSurface persistent => (.ok ⟨1, persistent⟩, s)
  | .start =>
    if s.failStart then (.error ⟨.encoder, "start failed"⟩, s)
    else (.ok (), { s with encoder := { s.encoder with starts := s.encoder.starts + 1 } })
  | .dequeue _ => s.dequeue
  | .bufferTable => (.ok s.table, s)
  | .currentFormat => (.ok s.format, s)
  | .releaseBuffer index =>
    let released := s.encoder.releasedBuffers ++ [index]
    (.ok (), { s with encoder := { s.encoder with releasedBuffers := released } })
  | .stop =>
    let encoder := { s.encoder with stops := s.encoder.stops + 1 }
    (.ok (), { s with encoder }.log .encoderStopped)
  | .release =>
    let encoder := { s.encoder with releases := s.encoder.releases + 1 }
    ((), { s with encoder, table := [] }.log .encoderReleased)
  | .readSlot slot => ((s.contents.lookup slot).getD [], s)

def answerDisplay : (r : DisplayRequest) → r.Answer × Logged
  | .geometry =>
    match s.geometries with
    | none => (.error ⟨.capture, "display unavailable"⟩, s)
    | some [] => (.error ⟨.capture, "no display geometry"⟩, s)
    | some [g] => (.ok g, s)
    | some (g :: rest) => (.ok g, { s with geometries := some rest })
  | .refreshRate => (.ok refreshRate, s)

def answerCapture : (r : CaptureRequest) → r.Answer × Logged
  | .bind surface layerStack =>
    if s.failBind then (.error ⟨.capture, "virtual display refused"⟩, s)
    else
      let binds := s.capture.binds ++ [(surface, layerStack)]
      (.ok ⟨binds.length⟩, { s with capture := { s.capture with binds } })
  | .project _ projection =>
    let projections := s.capture.projections ++ [projection]
    (.ok (), { s with capture := { s.capture with projections } })
  | .release handle =>
    let releases := s.capture.releases ++ [handle]
    ((), { s with capture := { s.capture with releases } }.log .captureReleased)

/-- Adds a request to the log of the container writers. -/
def logMuxer (r : MuxerRequest) : Logged :=
  { s with muxer := { s.muxer with calls := s.muxer.calls ++ [r] } }

def answerMuxer : (r : MuxerRequest) → r.Answer × Logged
  | .create path container =>
    match s.around.disk.create path with
    | .error r => (.error ⟨.storage, r.text⟩, s)
    | .ok disk =>
      let created := s.muxer.created ++ [(path, container)]
      (.ok (), { s with
        around := { s.around with disk }
        muxer := { s.muxer with created }
        muxerFile := some path
        tracks := 0 })
  | .write track data time flags =>
    let logged := s.logMuxer (.write track data time flags)
    match s.muxerFile with
    | none => (.ok (), logged)
    | some path =>
      match s.around.disk.append path data with
      | .ok disk => (.ok (), { logged with around := { logged.around with disk } })
      | .error r => (.error ⟨.muxer, r.text⟩, s)
  | .addTrack format =>
    (.ok s.tracks, { s.logMuxer (.addTrack format) with tracks := s.tracks + 1 })
  | .orientationHint degrees => (.ok (), s.logMuxer (.orientationHint degrees))
  | .start => (.ok (), s.logMuxer .start)
  | .stop => (.ok (), (s.logMuxer .stop).log .muxerStopped)

/-- How the device answers. -/
def answer : Program.Handler Logged
  | .encoder r, s => s.answerEncoder r
  | .display r, s => s.answerDisplay r
  | .capture r, s => s.answerCapture r
  | .muxer r, s => s.answerMuxer r
  | .stream (.deliver bytes), s => (.ok (), { s with received := s.received ++ [bytes] })
  | .stream r, s => let (a, around) := s.around.answerStream r; (a, { s with around })
  | .disk r, s => let (a, around) := s.around.answerDisk r; (a, { s with around })
  | .clock r, s => let (a, around) := s.around.answerClock r; (a, { s with around })
  | .signal r, s => let (a, around) := s.around.answerSignal r; (a, { s with around })
  | .notify _, s => ((), s)
  | .report level text, s => ((), { s with around := s.around.answerReport level text })
  | .identity, s => (Surroundings.identity, s)

end Logged

end Screencast.Rehearsal
