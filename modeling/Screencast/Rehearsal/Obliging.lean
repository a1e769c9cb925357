import Screencast.Program

/-!
# A device that grants everything

The smallest device: its encoder brings what a list says and raises the stop signal after it, every
slot holds the same bytes, and nothing is refused. Its one file holds what was written to it since
it was created.

* `Obliging.answer`: how the device answers.
* `Obliging.answerTableless`: the device, but for its buffer table.
* `Obliging.answerSmall`: the device, but for videos that are not of one small size.
* `Obliging.showing`: a device with a display of its own.
* `Obliging.answerTurning`, `Obliging.answerTilted`: the device, but for what its display does once
  it is recorded.
* `Obliging.answerBoundless`: the device, but for the refresh rate of its display.
* `Obliging.answerUnstarted`: the device, but for the start of its container.
* `Obliging.answerUnstoppable`, `Obliging.unfinishing`: the device, but for the stop of its encoder
  or of its container.
-/

namespace Screencast.Rehearsal

structure Obliging where
  /-- What the encoder has yet to bring. -/
  events : List Dequeued
  /-- What the file holds. -/
  content : Bytes

namespace Obliging

/-- The device whose encoder brings these events. -/
def ofEvents (events : List Dequeued) : Obliging := ⟨events, []⟩

/-- What each slot holds. -/
def slotContent : Bytes := [1, 2, 3, 4]

def answerEncoder (s : Obliging) : (r : EncoderRequest) → r.Answer × Obliging
  | .configure _ => (.ok (), s)
  | .createSurface persistent => (.ok ⟨1, persistent⟩, s)
  | .start => (.ok (), s)
  | .dequeue _ =>
    match s.events with
    | [] => (.tryAgain, s)
    | event :: events => (event, { s with events })
  | .bufferTable => (.ok [⟨0⟩, ⟨1⟩], s)
  | .currentFormat => (.ok (.video videoType 1280 720), s)
  | .releaseBuffer _ => (.ok (), s)
  | .stop => (.ok (), s)
  | .release => ((), s)
  | .readSlot _ => (slotContent, s)

def answerMuxer (s : Obliging) : (r : MuxerRequest) → r.Answer × Obliging
  | .create _ _ => (.ok (), s)
  | .addTrack format => (.ok (if format = .octetStream then 1 else 0), s)
  | .orientationHint _ => (.ok (), s)
  | .start => (.ok (), s)
  | .write _ _ _ _ => (.ok (), s)
  | .stop => (.ok (), s)

def answerStream (s : Obliging) : (r : StreamRequest) → r.Answer × Obliging
  | .write _ bytes => (.ok (Fin.last _), { s with content := s.content ++ bytes })
  | .flush _ => (.ok (), s)
  | .deliver _ => (.ok (), s)
  | .rawTerminal => (false, s)

def answerDisk (s : Obliging) : (r : DiskRequest) → r.Answer × Obliging
  | .remove _ => (.ok (), s)
  | .create _ => (.ok (), { s with content := [] })
  | .write _ _ => (.ok (), s)
  | .read _ => (.ok s.content, s)

/-- How the device answers. -/
def answer : Program.Handler Obliging
  | .encoder r, s => s.answerEncoder r
  | .display .geometry, s => (.ok ⟨1280, 720, .none, 0⟩, s)
  | .display .refreshRate, s => (.ok (Binary.ofInt 60), s)
  | .capture (.bind _ _), s => (.ok ⟨1⟩, s)
  | .capture (.project _ _), s => (.ok (), s)
  | .capture (.release _), s => ((), s)
  | .muxer r, s => s.answerMuxer r
  | .stream r, s => s.answerStream r
  | .disk r, s => s.answerDisk r
  | .clock .monotonic, s => (5000, s)
  | .clock .sinceBoot, s => (9000, s)
  | .signal .isRaised, s => (s.events.isEmpty, s)
  | .signal .raise, s => ((), s)
  | .notify _, s => ((), s)
  | .report _ _, s => ((), s)
  | .identity, s => (⟨"", ""⟩, s)

/-- How the device answers when it refuses its buffer table and nothing else. -/
def answerTableless : Program.Handler Obliging
  | .encoder .bufferTable, s => (.error ⟨.poll, "no buffers"⟩, s)
  | r, s => answer r s

/-- How the device answers when its encoder can be configured for 1280x720 only. -/
def answerSmall : Program.Handler Obliging
  | .encoder (.configure params), s =>
    if params.width = 1280 ∧ params.height = 720 then (.ok (), s)
    else (.error ⟨.encoder, "too large"⟩, s)
  | r, s => answer r s

/-- How a device answers whose display shows this, and answers all else as before. -/
def showing (g : Geometry) (answer : Program.Handler Obliging) : Program.Handler Obliging
  | .display .geometry, s => (.ok g, s)
  | r, s => answer r s

/-- How the device answers when its display is turned shortly before the last of its events, cannot
be projected from then on, and is lost with the last one. -/
def answerTurning : Program.Handler Obliging
  | .display .geometry, s =>
    match s.events with
    | [] => (.error ⟨.capture, "no display"⟩, s)
    | [_] => (.ok ⟨720, 1280, .quarter, 0⟩, s)
    | _ => (.ok ⟨1280, 720, .none, 0⟩, s)
  | .capture (.project handle projection), s =>
    match s.events with
    | [_] => (.error ⟨.capture, "no projection"⟩, s)
    | _ => answer (.capture (.project handle projection)) s
  | r, s => answer r s

/-- How the device answers when its display is turned shortly before the last two of its events, and
can be projected anew only once there is one event left. -/
def answerTilted : Program.Handler Obliging
  | .display .geometry, s =>
    if s.events.length ≤ 2 then (.ok ⟨720, 1280, .quarter, 0⟩, s)
    else (.ok ⟨1280, 720, .none, 0⟩, s)
  | .capture (.project handle projection), s =>
    if s.events.length = 2 then (.error ⟨.capture, "no projection"⟩, s)
    else answer (.capture (.project handle projection)) s
  | r, s => answer r s

/-- How the device answers when its display has an infinite refresh rate. -/
def answerBoundless : Program.Handler Obliging
  | .display .refreshRate, s => (.ok (.infinite false), s)
  | r, s => answer r s

/-- How the device answers when it refuses to start its container and nothing else. -/
def answerUnstarted : Program.Handler Obliging
  | .muxer .start, s => (.error ⟨.muxer, "no start"⟩, s)
  | r, s => answer r s

/-- How the device answers when it refuses to stop its encoder and nothing else. -/
def answerUnstoppable : Program.Handler Obliging
  | .encoder .stop, s => (.error ⟨.encoder, "no stop"⟩, s)
  | r, s => answer r s

/-- What a device tells that refuses to finish its container. -/
def noRoom : Failure := ⟨.muxer, "no room"⟩

/-- How a device answers that refuses to finish its container, and answers all else as before. -/
def unfinishing (answer : Program.Handler Obliging) : Program.Handler Obliging
  | .muxer .stop, s => (.error noRoom, s)
  | r, s => answer r s

end Obliging

end Screencast.Rehearsal
