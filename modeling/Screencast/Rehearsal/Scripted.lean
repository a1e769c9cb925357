import Screencast.Rehearsal.Surroundings

/-!
# A scripted device

An encoder that follows a script, a display that walks through a list of geometries, and a
compositor, a container writer and outputs that take everything. Each call is listed, and some calls
are planned to fail.

* `Cue`: one step of the encoder's script.
* `Fault`: which call of which name fails, and how.
* `Scripted.answer`: how the device answers.
-/

namespace Screencast.Rehearsal

/-- A call that is to fail: the `nth` one of its name, or each one if `nth` is zero. -/
structure Fault where
  call : String
  nth : Nat
  failure : Failure

/-- What the encoder brings at a step of its script. -/
inductive Output
  | retry
  | format (f : TrackFormat)
  /-- The table changes, and is replaced by so many empty slots if a count is given. -/
  | buffers (count : Option Nat)
  /-- The next slot in turn is filled and handed out. -/
  | frame (data : Bytes) (time : Int) (flags : Flags)
  /-- A buffer is handed out as it stands here, after its slot was filled if there is data. -/
  | slot (info : FilledBuffer) (data : Option Bytes)
  | error (code : Int)

/-- A step of the encoder's script, with what happens around it first. -/
structure Cue where
  advance : Int
  sleep : Option Int
  raisesStop : Bool
  output : Output

/-- The device and its surroundings. -/
structure Scripted where
  around : Surroundings
  faults : List Fault
  /-- The calls since they were last looked at, the latest first. -/
  calls : List Request
  /-- How many calls of each name there have been. -/
  counts : List (String × Nat)
  cues : List Cue
  tableSize : Nat
  surfaceId : Nat
  table : List Slot
  contents : List (Slot × Bytes)
  nextSlot : Nat
  framesOut : Nat
  format : TrackFormat
  geometries : List Geometry
  refreshRate : Single
  binds : Nat
  /-- Whether a container writer makes a file. -/
  makesFile : Bool
  muxerFile : Option Path
  tracks : Nat
  /-- The most bytes that one write to the supplied stream takes. -/
  chunk : Option Nat

namespace Scripted

/-- A device with a script, whose display stays upright at 1280x720, and which refuses nothing. -/
def ofCues (disk : Disk) (cues : List Cue) : Scripted where
  around := .ofDisk disk (.manual 0 0)
  faults := []
  calls := []
  counts := []
  cues := cues
  tableSize := 4
  surfaceId := 1
  table := []
  contents := []
  nextSlot := 0
  framesOut := 0
  format := .unknown
  geometries := [⟨1280, 720, .none, 0⟩]
  refreshRate := Binary.ofInt 60
  binds := 0
  makesFile := true
  muxerFile := none
  tracks := 0
  chunk := none

/-- The name under which a request is listed. Looking at the clock, the signal, the disk or a slot,
and a line of the report, are not listed. -/
def callName? : Request → Option String
  | .encoder r =>
    match r with
    | .configure _ => some "encoder.configure"
    | .createSurface _ => some "encoder.create_input_surface"
    | .start => some "encoder.start"
    | .dequeue _ => some "encoder.dequeue"
    | .bufferTable => some "encoder.output_buffers"
    | .currentFormat => some "encoder.output_format"
    | .releaseBuffer _ => some "encoder.release_output_buffer"
    | .stop => some "encoder.stop"
    | .release => some "encoder.release"
    | .readSlot _ => none
  | .display .geometry => some "display.geometry"
  | .display .refreshRate => some "display.refresh_rate"
  | .capture r =>
    match r with
    | .bind _ _ => some "capture.bind"
    | .project _ _ => some "capture.apply_projection"
    | .release _ => some "capture.release"
  | .muxer r =>
    match r with
    | .create _ _ => some "muxer.create"
    | .addTrack _ => some "muxer.add_track"
    | .orientationHint _ => some "muxer.set_orientation_hint"
    | .start => some "muxer.start"
    | .write _ _ _ _ => some "muxer.write"
    | .stop => some "muxer.stop"
  | .stream (.write .supplied _) => some "writer.write"
  | .stream (.flush .supplied) => some "writer.flush"
  | .stream (.deliver _) => some "callback"
  | .notify (.phase _) => some "delegate.state"
  | .notify (.failed _) => some "delegate.error"
  | .notify (.finished _) => some "delegate.finished"
  | _ => none

/-- The answer that refuses a request, if it can be refused. A raw output tells only the detail. -/
def refusal? : (r : Request) → Failure → Option r.Answer
  | .encoder (.configure _), f => some (.error f)
  | .encoder (.createSurface _), f => some (.error f)
  | .encoder .start, f => some (.error f)
  | .encoder .bufferTable, f => some (.error f)
  | .encoder .currentFormat, f => some (.error f)
  | .encoder (.releaseBuffer _), f => some (.error f)
  | .encoder .stop, f => some (.error f)
  | .display .geometry, f => some (.error f)
  | .display .refreshRate, f => some (.error f)
  | .capture (.bind _ _), f => some (.error f)
  | .capture (.project _ _), f => some (.error f)
  | .muxer (.create _ _), f => some (.error f)
  | .muxer (.addTrack _), f => some (.error f)
  | .muxer (.orientationHint _), f => some (.error f)
  | .muxer .start, f => some (.error f)
  | .muxer (.write _ _ _ _), f => some (.error f)
  | .muxer .stop, f => some (.error f)
  | .stream (.write _ _), f => some (.error f.detail)
  | .stream (.flush _), f => some (.error f.detail)
  | .stream (.deliver _), f => some (.error f.detail)
  | _, _ => none

variable (s : Scripted)

/-- So many fresh empty slots in place of the table. -/
def renewTable (count : Nat) : Scripted :=
  let fresh := (List.range count).map fun i => Slot.mk (s.nextSlot + i)
  { s with table := fresh, nextSlot := s.nextSlot + count }

/-- Fills the slot at a place of the table, if there is one. -/
def fill (index : Nat) (data : Bytes) : Scripted :=
  match s.table[index]? with
  | none => s
  | some slot => { s with contents := (slot, data) :: s.contents }

/-- What is handed out for a step of the script. -/
def output : Output → Dequeued × Scripted
  | .retry => (.tryAgain, s)
  | .format f => (.formatChanged, { s with format := f })
  | .buffers count => (.buffersChanged, count.elim s s.renewTable)
  | .frame data time flags =>
    let index := s.framesOut % s.table.length
    let index := if s.table.isEmpty then 0 else index
    (.buffer ⟨index, 0, data.length, time, flags⟩,
      { s.fill index data with framesOut := s.framesOut + 1 })
  | .slot info data => (.buffer info, data.elim s (s.fill info.index))
  | .error code => (.error code, s)

/-- The next step of the script. After the last one the stop signal is raised. -/
def dequeue : Dequeued × Scripted :=
  match s.cues with
  | [] => (.tryAgain, { s with around := { s.around with stopRaised := true } })
  | cue :: cues =>
    let timer := s.around.timer.advance cue.advance
    let around := { s.around with
      timer := cue.sleep.elim timer timer.setSleep
      stopRaised := s.around.stopRaised || cue.raisesStop }
    output { s with cues, around } cue.output

def actEncoder : (r : EncoderRequest) → r.Answer × Scripted
  | .configure _ => (.ok (), s.renewTable s.tableSize)
  | .createSurface persistent => (.ok ⟨s.surfaceId, persistent⟩, s)
  | .start => (.ok (), s)
  | .dequeue _ => s.dequeue
  | .bufferTable => (.ok s.table, s)
  | .currentFormat => (.ok s.format, s)
  | .releaseBuffer _ => (.ok (), s)
  | .stop => (.ok (), s)
  | .release => ((), { s with table := [] })
  | .readSlot slot => ((s.contents.lookup slot).getD [], s)

/-- The geometries are told one after the other; the last one stays. -/
def actDisplay : (r : DisplayRequest) → r.Answer × Scripted
  | .geometry =>
    match s.geometries with
    | [] => (.error ⟨.capture, "no display geometry"⟩, s)
    | [g] => (.ok g, s)
    | g :: rest => (.ok g, { s with geometries := rest })
  | .refreshRate => (.ok s.refreshRate, s)

def actCapture : (r : CaptureRequest) → r.Answer × Scripted
  | .bind _ _ => (.ok ⟨s.binds + 1⟩, { s with binds := s.binds + 1 })
  | .project _ _ => (.ok (), s)
  | .release _ => ((), s)

def actMuxer : (r : MuxerRequest) → r.Answer × Scripted
  | .create path _ =>
    if s.makesFile then
      match s.around.disk.create path with
      | .ok disk => (.ok (), { s with muxerFile := some path, around := { s.around with disk } })
      | .error r => (.error ⟨.storage, r.text⟩, s)
    else (.ok (), { s with muxerFile := none })
  | .addTrack _ => (.ok s.tracks, { s with tracks := s.tracks + 1 })
  | .orientationHint _ => (.ok (), s)
  | .start => (.ok (), s)
  | .write _ data _ _ =>
    match s.muxerFile with
    | none => (.ok (), s)
    | some path =>
      match s.around.disk.append path data with
      | .ok disk => (.ok (), { s with around := { s.around with disk } })
      | .error r => (.error ⟨.storage, r.text⟩, s)
  | .stop => (.ok (), s)

/-- How many bytes one write takes. -/
def share (bytes : Bytes) : Fin (bytes.length + 1) :=
  ⟨min (s.chunk.getD bytes.length) bytes.length, by omega⟩

/-- How the device answers when nothing fails. -/
def act : Program.Handler Scripted
  | .encoder r, s => s.actEncoder r
  | .display r, s => s.actDisplay r
  | .capture r, s => s.actCapture r
  | .muxer r, s => s.actMuxer r
  | .stream (.write .supplied bytes), s => (.ok (s.share bytes), s)
  | .stream r, s => let (a, around) := s.around.answerStream r; (a, { s with around })
  | .disk r, s => let (a, around) := s.around.answerDisk r; (a, { s with around })
  | .clock r, s => let (a, around) := s.around.answerClock r; (a, { s with around })
  | .signal r, s => let (a, around) := s.around.answerSignal r; (a, { s with around })
  | .notify _, s => ((), s)
  | .report level text, s => ((), { s with around := s.around.answerReport level text })
  | .identity, s => (Surroundings.identity, s)

/-- A call as it is listed: of a write only the bytes that it takes. -/
def listed : Request → Request
  | .stream (.write .supplied bytes) => .stream (.write .supplied (bytes.take (s.share bytes)))
  | r => r

/-- Lists a call and counts it. -/
def list (name : String) (r : Request) : Scripted :=
  let count := (s.counts.lookup name).getD 0 + 1
  { s with calls := s.listed r :: s.calls, counts := (name, count) :: s.counts }

/-- The failure planned for the call of this name that was listed last. -/
def fault? (name : String) : Option Failure :=
  let count := (s.counts.lookup name).getD 0
  (s.faults.find? fun f => f.call == name && (f.nth == 0 || f.nth == count)).map Fault.failure

/-- How the device answers: a call is listed first, then it fails if that was planned. -/
def answer : Program.Handler Scripted := fun r s =>
  match callName? r with
  | none => act r s
  | some name =>
    let s := s.list name r
    match (s.fault? name).bind (refusal? r) with
    | some a => (a, s)
    | none => act r s

/-- The calls since they were last looked at, and the device with an empty list of them. -/
def takeCalls : List Request × Scripted := (s.calls.reverse, { s with calls := [] })

end Scripted

end Screencast.Rehearsal
