import Screencast.Action
import Screencast.FrameTimes

/-!
# Output into a container

A container gets its tracks when the encoder first tells the format of its output, and is started
right after. Samples are taken between the start and the stop only.

* `Muxed.create`: a new container in place of what was at its path.
* `Muxed.formatChanged`: adds the tracks and starts the container, once.
* `Muxed.writeSample`, `Muxed.writeTimes`: a sample of the video, and the record of frame times.
* `Muxed.stop`: finishes the file.
-/

namespace Screencast

/-- How far a container has come. -/
inductive Muxed.State
  | idle
  | started
  | stopped
  deriving DecidableEq, Repr

def Muxed.State.label : Muxed.State → String
  | idle => "Idle"
  | started => "Started"
  | stopped => "Stopped"

/-- An output that is a container. -/
structure Muxed where
  path : Path
  container : Container
  state : Muxed.State
  videoTrack : Option Track
  timeTrack : Option Track
  deriving DecidableEq

namespace Muxed

variable {σ : Type}

def ask (r : MuxerRequest) : Program r.Answer := .request (.muxer r)

/-- Only mp4 has a track of frame times. -/
def keepsTimes (m : Muxed) : Bool := m.container == .mpeg4

/-- The output into a container writer that has been made already. A turned recording is marked
so. -/
def make (path : Path) (container : Container) (rotate : Bool) : Action σ Muxed := do
  if rotate then Action.attempt (ask (.orientationHint 90))
  return ⟨path, container, .idle, none, none⟩

/-- Removes the file at a path, if there is one. -/
def clear (path : Path) : Action σ Unit := do
  match ← Program.request (.disk (.remove path)) with
  | .ok () => report .debug s!"Removed existing {path.text}"
  | .error .notFound => return ()
  | .error r => Action.fail ⟨.storage, s!"failed to remove {path.text}: {r.text}"⟩

/-- The output into a new container in place of what is at the path. -/
def create (path : Path) (container : Container) (rotate : Bool) : Action σ Muxed := do
  clear path
  Action.attempt (ask (.create path container))
  make path container rotate

def isStarted (m : Muxed) : Bool := m.state == .started

/-- Adds a track, which is possible before the start only. -/
def addTrack (format : TrackFormat) : Action Muxed Track := do
  let m ← get
  if m.state ≠ .idle then
    Action.fail ⟨.muxer, s!"cannot add {format.mediaType} track to a {m.state.label} muxer"⟩
  else Action.attempt (ask (.addTrack format))

/-- Starts the container once its tracks are there. -/
def start : Action Muxed Unit := do
  let m ← get
  match m.state with
  | .started => report .warn "muxer already started"
  | .stopped => Action.fail ⟨.muxer, "muxer already stopped"⟩
  | .idle =>
    if m.videoTrack.isNone then
      Action.fail ⟨.muxer, "cannot start muxer without a video track"⟩
    else if m.keepsTimes ∧ m.timeTrack.isNone then
      Action.fail ⟨.muxer, "cannot start muxer without a metadata track"⟩
    else
      Action.attempt (ask .start)
      modify ({ · with state := .started })

/-- Writes to a track of a started container. -/
def write (track : Track) (data : Bytes) (time : Int) (flags : Flags) : Action Muxed Unit := do
  match (← get).state with
  | .started => Action.attempt (ask (.write track data time flags))
  | .idle =>
    Action.fail ⟨.muxer, s!"sample for track {track} arrived before the muxer started"⟩
  | .stopped =>
    Action.fail ⟨.muxer, s!"sample for track {track} arrived after the muxer stopped"⟩

/-- Finishes the file of a started container. Whatever comes of it, the container is stopped. -/
def stop : Action Muxed Unit := do
  let m ← get
  set { m with state := .stopped }
  match m.state with
  | .started => Action.attempt (ask .stop)
  | .idle => report .debug "muxer never started; nothing to finalize"
  | .stopped => return ()

/-- Adds the tracks and starts the container, when the format is told for the first time. -/
def formatChanged (format : TrackFormat) : Action Muxed Unit := do
  let m ← get
  if m.videoTrack.isSome then
    report .warn "encoder format changed again; keeping existing tracks"
  else
    let video ← addTrack format
    modify ({ · with videoTrack := some video })
    if m.keepsTimes then
      let times ← addTrack .octetStream
      modify ({ · with timeTrack := some times })
    start

/-- Writes a sample to the video track. -/
def writeSample (s : Sample) : Action Muxed Unit := do
  match (← get).videoTrack with
  | none => Action.fail ⟨.muxer, "got data before the encoder output format"⟩
  | some track => write track s.payload s.time s.flags

/-- Writes the record of frame times at the time of the first frame. Without its track or without
frames there is nothing to write. -/
def writeTimes (log : FrameTimes.Log) (offset : Int) : Action Muxed Unit := do
  match (← get).timeTrack, log.first? with
  | some track, some first =>
    report .debug s!"Writing frame-time record for {log.size} frames"
    write track (log.record offset) first .empty
  | _, _ => return ()

end Muxed

end Screencast
