import Screencast.Binary.Arithmetic
import Screencast.Capture
import Screencast.Encoder
import Screencast.Recording.Files
import Screencast.Sink.Basic

/-!
# A recording session

A session sets up the encoder, the capture of the display and the output, moves the encoder's
buffers to the output until one of three things ends it, and gives everything back in the reverse
order. It runs once.

* `Take.pass`, `Take.pump`: one pass of the loop, and the loop within a budget of passes.
* `Session.prepare`, `Session.record`: what a recording acquires first, and the rest of it.
* `Session.perform`: a whole recording.
* `Session.run`: the recording with its notices; a second run is refused.
* `Session.discard`: the end of a session's owner.
-/

namespace Screencast

/-- What the loop works on: the parts of the session that it uses, and what it has counted. -/
structure Take where
  encoder : Encoder
  capture : Capture
  sink : Sink
  frames : Nat
  times : FrameTimes.Log
  deriving DecidableEq

structure Session where
  settings : Settings
  /-- Whether there is a container writer. -/
  hasMuxer : Bool
  /-- An output that takes the bare stream in place of the destination. -/
  output : Option Raw
  encoder : Encoder
  capture : Capture
  phase : Phase
  hasRun : Bool
  deriving DecidableEq

/-- The longest wait for a buffer, in milliseconds. -/
def longestWait : Nat := 250

def nanosPerSecond : Int64 := 1000000000

def now : Program Int64 := .request (.clock .monotonic)

/-- How far the time since boot is ahead of the monotonic clock, in microseconds. -/
def bootOffset : Program Int := do
  let sinceBoot ← Program.request (.clock .sinceBoot)
  let monotonic ← now
  return microseconds (sinceBoot - monotonic)

def notify (n : Notice) : Program Unit := .request (.notify n)

def raiseStop : Program Unit := .request (.signal .raise)

namespace Take

variable {α : Type}

def onEncoder (a : Action Encoder α) : Action Take α :=
  a.on Take.encoder fun e t => { t with encoder := e }

def onCapture (a : Action Capture α) : Action Take α :=
  a.on Take.capture fun c t => { t with capture := c }

def onSink (a : Action Sink α) : Action Take α :=
  a.on Take.sink fun s t => { t with sink := s }

/-- Projects the virtual display anew if the display was turned. What goes wrong is only
reported. -/
def followDisplay : Action Take Unit := do
  match ← Program.request (.display .geometry) with
  | .error f => report .warn s!"getDisplayState() failed: {f.message}"
  | .ok geometry =>
    match ← (onCapture (Capture.update geometry)).outcome with
    | .error f => report .warn s!"unable to update display projection: {f.message}"
    | .ok _ => return ()

/-- The time of a sample. A sample without a time gets the present one. -/
def timeOf (s : Sample) : Program Int :=
  if s.time = 0 then do return microseconds (← now) else return s.time

/-- Counts a picture that was written; its time is logged for an output that keeps times. -/
def count (time : Int) (t : Take) : Take :=
  { t with
    frames := t.frames + 1
    times := if t.sink.keepsTimes then t.times.push time else t.times }

/-- Hands a sample to the output and counts it. Parameters of the codec are no picture. -/
def deliver (s : Sample) : Action Take Unit := do
  followDisplay
  let time ← timeOf s
  onSink (Sink.writeSample { s with time })
  if s.flags.isConfig then return () else modify (count time)

/-- Delivers a sample, unless it is empty or holds parameters that the output has from elsewhere. -/
def writeSample (s : Sample) : Action Take Unit := do
  let sink := (← get).sink
  if s.flags.isConfig then report .debug s!"Got codec config buffer ({s.payload.length} bytes)"
  if s.flags.isConfig ∧ !sink.keepsConfig ∨ s.payload.isEmpty then return () else deliver s

/-- The encoder's last buffer has come. -/
def endOfStream : Program Unit := do
  report .info "Received end-of-stream"
  raiseStop

/-- One pass of the loop: waits for an event and handles it, and answers whether it was the end of
the stream. -/
def pass : Action Take Bool := do
  match ← onEncoder (Encoder.poll longestWait) with
  | .data sample =>
    writeSample sample
    onEncoder (Encoder.releaseBuffer sample.buffer)
    if sample.flags.isEndOfStream then endOfStream
    return sample.flags.isEndOfStream
  | .formatChanged format =>
    report .debug s!"Encoder format changed: {format.mediaType}"
    onSink (Sink.formatChanged format)
    return false
  | .buffersChanged =>
    report .debug "Encoder buffers changed"
    onEncoder Encoder.refresh
    return false
  | .retry => return false
  | .endOfStream =>
    endOfStream
    return true
  | .error code =>
    Action.fail ⟨.poll, s!"poll of encoder output failed (status {decimalInt code})"⟩

/-- The loop, within a budget of passes. Before each pass it looks at the stop signal and then at
the clock. -/
def pump (deadline : Int64) : Nat → Action Take Ending
  | 0 => Action.lift .unfinished
  | passes + 1 => do
    if ← Program.request (.signal .isRaised) then return .stopRequested
    else if deadline < (← now) then
      report .info "Time limit reached"
      return .timeLimit
    else if ← pass then return .endOfStream
    else pump deadline passes

end Take

namespace Session

variable {α : Type}

/-- A session that has not run. -/
def ofSettings (settings : Settings) (hasMuxer : Bool) (output : Option Raw) : Session :=
  ⟨settings, hasMuxer, output, .initial, .initial, .configuring, false⟩

def onEncoder (a : Action Encoder α) : Action Session α :=
  a.on Session.encoder fun e s => { s with encoder := e }

def onCapture (a : Action Capture α) : Action Session α :=
  a.on Session.capture fun c s => { s with capture := c }

/-- Enters a phase and tells so. -/
def enter (phase : Phase) : Action Session Unit := do
  modify ({ · with phase })
  notify (.phase phase)

/-- What the display shows and how often it is drawn, unless the settings say how often. -/
def inspectDisplay : Action Session (Geometry × Single) := do
  let s := (← get).settings
  let geometry ← (Action.attempt (.request (.display .geometry))).mapFailure fun f =>
    ⟨.capture, s!"unable to get display state: {f.message}"⟩
  let frameRate ← match s.frameRate with
    | some rate => pure rate
    | none => (Action.attempt (.request (.display .refreshRate))).mapFailure fun f =>
        ⟨.capture, s!"unable to get display mode: {f.message}"⟩
  let rate := frameRate.fixedText 2
  report .info <|
    s!"Display is {geometry.width.toNat}x{geometry.height.toNat} @{rate}fps " ++
      s!"(orientation={geometry.orientation.text}), layerStack={geometry.layerStack.toNat}"
  return (geometry, frameRate)

/-- Opens the output: a container at the destination, the supplied output for the bare stream, or
else the destination itself. -/
def openOutput : Action Session Sink := do
  let s ← get
  let format := s.settings.format
  match format.container? with
  | some container =>
    match s.settings.destination.path? with
    | none => Action.fail ⟨.settings, s!"{format.name} output needs a file"⟩
    | some path =>
      if s.hasMuxer then
        return .muxed (← Muxed.create path container s.settings.rotate)
      else Action.fail ⟨.settings, s!"no muxer backend for {format.name} output"⟩
  | none =>
    match s.output with
    | some raw =>
      modify ({ · with output := none })
      return .raw raw
    | none => return .raw (← Raw.openFor s.settings.destination)

/-- Stops the encoder; a failure is only reported. -/
def stopEncoder : Action Session Unit := do
  match ← (onEncoder Encoder.stop).outcome with
  | .ok () => return ()
  | .error f => report .error s!"failed to stop encoder: {f.message}"

/-- Gives back what a set-up had acquired when it failed. -/
def abandon : Action Session Unit := do
  onCapture Capture.close
  stopEncoder
  onEncoder Encoder.release

/-- The action, and after its failure all that was acquired is given back. -/
def orAbandon (a : Action Session α) : Action Session α := do
  match ← a.outcome with
  | .ok x => return x
  | .error f =>
    abandon
    Action.fail f

/-- Runs the loop on the session's parts, and answers how it ended and what it has counted. -/
def loop (passes : Nat) (deadline : Int64) (sink : Sink) :
    Action Session (Outcome Ending × Take) := do
  let s ← get
  let (ended, t) ← Take.pump deadline passes ⟨s.encoder, s.capture, sink, 0, .empty⟩
  modify ({ · with encoder := t.encoder, capture := t.capture })
  return (ended, t)

/-- Writes the frame times to an output that keeps them. A failure is reported, and answered. -/
def writeTimes (sink : Sink) (times : FrameTimes.Log) : Action Session (Outcome Unit × Sink) := do
  if sink.keepsTimes then
    let offset ← bootOffset
    let (written, sink) ← Sink.writeTimes times offset sink
    if let .error f := written then
      report .error s!"failed to write frame-time metadata: {f.message}"
    return (written, sink)
  else return (.ok (), sink)

/-- Gives everything back in the reverse order, whatever fails on the way, and answers how the
output could be finished. -/
def giveBack (sink : Sink) : Action Session (Outcome Unit) := do
  onCapture Capture.close
  stopEncoder
  let (closed, _) ← Sink.close sink
  if let .error f := closed then report .error s!"failed to finalize output: {f.message}"
  onEncoder Encoder.release
  return closed

/-- Seconds between two readings of the clock. -/
def secondsBetween (started ended : Int64) : Double :=
  let nanos : Double := Binary.ofInt (ended - started : Int64)
  let second : Double := Binary.ofInt nanosPerSecond
  nanos / second

/-- The digest of the file that was written, if it is one of the recording's own. -/
def digestOf (sink : Sink) : Action Session (Option String) :=
  match sink.path? with
  | some path => some <$> Recording.digest path
  | none => pure none

/-- Writes the description beside the file, where the settings ask for it. -/
def saveBeside (sink : Sink) (description : Description) : Action Session Unit := do
  if (← get).settings.sidecar then
    match sink.path? with
    | some path => description.save path
    | none => report .warn "metadata sidecar requested but output is not a file"

/-- The digest, the description and the result of a recording that has ended well. -/
def finish (sink : Sink) (size : FrameSize) (frameRate : Single) (take : Take) (seconds : Double)
    (reason : Ending) : Action Session Recording := do
  let s := (← get).settings
  let length := seconds.fixedText 2
  report .info s!"Stopping ({reason.label}): {take.frames} frames in {length}s"
  let checksum ← digestOf sink
  let frameCount := UInt64.ofNat take.frames
  let hasFrameTimes := sink.keepsTimes && 0 < take.times.size
  let description ← Description.make s
    { size, frameRate, frameCount, seconds, reason, checksum, hasFrameTimes }
  saveBeside sink description
  return { destination := s.destination, seconds, frameCount, reason, checksum, description }

/-- What a recording has once it is set up, beside the encoder and the captured display. -/
structure Ready where
  sink : Sink
  size : FrameSize
  frameRate : Single
  deriving DecidableEq

/-- Checks the settings and acquires what a recording needs, the output last. -/
def prepare : Action Session Ready := do
  let s := (← get).settings
  Action.attempt (pure s.check)
  let (geometry, frameRate) ← inspectDisplay
  let requested := s.size.getD (FrameSize.even ⟨geometry.width, geometry.height⟩)
  let (surface, size) ← onEncoder (Encoder.configureOrShrink s requested frameRate)
  let _ ← orAbandon (onCapture (Capture.start surface geometry size s.rotate))
  let sink ← orAbandon openOutput
  return { sink, size, frameRate }

/-- Records with what is ready, and gives everything back however the loop has ended. -/
def record (passes : Nat) (r : Ready) : Action Session Recording := do
  enter .capturing
  let started ← now
  let deadline := started + Int64.ofNat (← get).settings.timeLimit.toNat * nanosPerSecond
  let (ended, take) ← loop passes deadline r.sink
  let seconds := secondsBetween started (← now)
  enter .draining
  let (timed, sink) ← writeTimes take.sink take.times
  let closed ← giveBack sink
  let reason ← Action.attempt (pure ended)
  Action.attempt (pure timed)
  Action.attempt (pure closed)
  finish sink r.size r.frameRate take seconds reason

/-- A whole recording, its loop within a budget of passes. -/
def perform (passes : Nat) : Action Session Recording := do
  record passes (← prepare)

/-- The recording with its notices. A session runs once. -/
def run (passes : Nat) : Action Session Recording := do
  if (← get).hasRun then Action.fail ⟨.settings, "session has already run"⟩
  else
    modify ({ · with hasRun := true })
    enter .configuring
    let result ← (perform passes).outcome
    enter .stopped
    match result with
    | .ok recording =>
      notify (.finished recording)
      return recording
    | .error f =>
      report .error s!"recording failed: {f.message}"
      notify (.failed f)
      Action.fail f

/-- The end of a session's owner: what is still held is given back. -/
def discard : Action Session Unit := do
  onEncoder Encoder.discard
  onCapture Capture.close

end Session

end Screencast
