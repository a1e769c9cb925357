import Screencast.Action
import Screencast.Binary.Arithmetic

/-!
# The encoder

An encoder is configured and started in one go, polled for filled buffers, stopped and released. A
set-up that fails part-way leaves it released, so that another one can be tried.

* `Encoder.configure`: the set-up at one size.
* `Encoder.configureOrShrink`: the set-up at one size, or else at a small one.
* `Encoder.poll`: the next event, with a copy of the data it announces.
* `Encoder.stop`, `Encoder.release`, `Encoder.discard`: the ways out.
-/

namespace Screencast

namespace Encoder

/-- The life of an encoder. Only a release leads back to its beginning. -/
inductive State
  | unconfigured
  | configured
  | running
  | stopped
  deriving DecidableEq, Repr

def State.label : State → String
  | unconfigured => "Unconfigured"
  | configured => "Configured"
  | running => "Running"
  | stopped => "Stopped"

/-- What a poll brings. -/
inductive Event
  /-- A filled buffer, which has to be handed back. -/
  | data (sample : Sample)
  /-- Nothing in time. -/
  | retry
  | formatChanged (format : TrackFormat)
  /-- The buffer table has to be fetched again. -/
  | buffersChanged
  | error (code : Int)
  | endOfStream
  deriving DecidableEq

end Encoder

/-- What is known of the encoder. -/
structure Encoder where
  state : Encoder.State
  /-- The buffer table as it was fetched last. -/
  table : List Slot
  /-- The parameters of the last set-up that succeeded. -/
  params : Option EncoderSettings
  surface : Option Surface
  deriving DecidableEq

namespace Encoder

def initial : Encoder := ⟨.unconfigured, [], none, none⟩

/-- The size tried when the display's own size is refused. -/
def smallSize : FrameSize := ⟨1280, 720⟩

/-- Seconds between key frames. -/
def keyFrameSeconds : UInt32 := 10

/-- The colour format of an opaque surface. -/
def surfaceColorFormat : Int := 0x7F000789

/-- The profile and the level that allow frames to refer to later ones. -/
def mainProfile : Int := 0x02

def level41 : Int := 0x800

/-- The parameters for some settings at a size and a frame rate. -/
def paramsFor (s : Settings) (size : FrameSize) (frameRate : Single) : EncoderSettings where
  width := size.width
  height := size.height
  mediaType := videoType
  colorFormat := surfaceColorFormat
  bitRate := s.bitRate
  frameRate := frameRate
  keyFrameSeconds := keyFrameSeconds
  maxBFrames := s.maxBFrames
  profile := if 0 < s.maxBFrames then some mainProfile else none
  level := if 0 < s.maxBFrames then some level41 else none
  codecName := s.codecName

/-- Asks the encoder for what it cannot refuse. -/
def ask (r : EncoderRequest) : Program r.Answer := .request (.encoder r)

/-- Fetches the buffer table. -/
def refresh : Action Encoder Unit := do
  let table ← Action.attempt (ask .bufferTable)
  modify ({ · with table })
  report .debug s!"Encoder has {table.length} output buffers"

/-- Configures and starts the encoder, and fetches its buffer table. -/
def setUp (params : EncoderSettings) (persistent : Bool) : Action Encoder Surface := do
  (Action.attempt (ask (.configure params))).during .encoder "configure"
  modify ({ · with state := .configured })
  let surface ← (Action.attempt (ask (.createSurface persistent))).during .encoder
    (if persistent then "set input surface" else "create input surface")
  (Action.attempt (ask .start)).during .encoder "start"
  refresh.during .encoder "get output buffers"
  return surface

/-- Millions of bits per second, with two places. -/
def megabits (bitRate : UInt32) : String :=
  let rate : Double := Binary.ofInt bitRate.toNat
  let million : Double := Binary.ofInt 1000000
  (rate / million).fixedText 2

/-- Sets the encoder up, if it is not set up already. After a failure it is released. -/
def configure (s : Settings) (size : FrameSize) (frameRate : Single) : Action Encoder Surface := do
  let e ← get
  if e.state ≠ .unconfigured then
    Action.fail ⟨.encoder, s!"cannot configure encoder in {e.state.label} state"⟩
  else
    let params := paramsFor s size frameRate
    report .info
      s!"Configuring recorder for {size.text} {params.mediaType} at {megabits params.bitRate}Mbps"
    match ← (setUp params s.persistentSurface).outcome with
    | .ok surface =>
      report .debug "Codec prepared"
      modify ({ · with params := some params, surface := some surface, state := .running })
      return surface
    | .error f =>
      report .error s!"Unable to start {params.mediaType} encoder at {size.text}: {f.message}"
      ask .release
      modify ({ · with table := [], state := .unconfigured })
      Action.fail f

/-- The small size, turned like `size`. -/
def smallSizeLike (size : FrameSize) : FrameSize :=
  if size.isUpright then smallSize.turned else smallSize

/-- Sets the encoder up at `size`, or else at the small size. There is no second attempt where the
settings ask for a size, nor where `size` is as wide or as high as the small one. -/
def configureOrShrink (s : Settings) (size : FrameSize) (frameRate : Single) :
    Action Encoder (Surface × FrameSize) := do
  match ← (configure s size frameRate).outcome with
  | .ok surface => return (surface, size)
  | .error f =>
    let small := smallSizeLike size
    if s.size.isSome ∨ size.width = small.width ∨ size.height = small.height then Action.fail f
    else
      report .warn s!"failed at {size.text}, retrying at {small.text}"
      let surface ← configure s small frameRate
      return (surface, small)

/-- Hands a buffer back. -/
def releaseBuffer (index : Nat) : Action Encoder Unit :=
  (Action.attempt (ask (.releaseBuffer index))).mapFailure fun f =>
    ⟨.poll, s!"unable to release output buffer {index}: {f.message}"⟩

/-- A copy of the bytes that a buffer announces. -/
def payload (b : FilledBuffer) : Action Encoder Bytes := do
  let e ← get
  match e.table[b.index]? with
  | none =>
    Action.fail
      ⟨.poll, s!"output buffer index {b.index} out of range ({e.table.length} buffers)"⟩
  | some slot =>
    let data ← ask (.readSlot slot)
    if b.offset + b.size ≤ data.length then return (data.drop b.offset).take b.size
    else
      Action.fail ⟨.poll, s!"output buffer {b.index} holds {data.length} bytes, " ++
        s!"codec reported {b.offset}+{b.size}"⟩

/-- The next event. An empty buffer that ends the stream is handed back at once. -/
def poll (milliseconds : Nat) : Action Encoder Event := do
  let e ← get
  if e.state ≠ .running then
    Action.fail ⟨.poll, s!"cannot poll encoder in {e.state.label} state"⟩
  else
    match ← ask (.dequeue milliseconds) with
    | .buffer b =>
      if b.size = 0 ∧ b.flags.isEndOfStream then
        releaseBuffer b.index
        return .endOfStream
      else
        let bytes ← payload b
        return .data ⟨b.index, bytes, b.time, b.flags⟩
    | .tryAgain => return .retry
    | .formatChanged => return .formatChanged (← Action.attempt (ask .currentFormat))
    | .buffersChanged => return .buffersChanged
    | .error code => return .error code

/-- Stops a running encoder. -/
def stop : Action Encoder Unit := do
  let e ← get
  if e.state = .running then
    modify ({ · with state := .stopped })
    Action.attempt (ask .stop)

/-- Frees the encoder, if it is set up. -/
def release : Action Encoder Unit := do
  let e ← get
  if e.state ≠ .unconfigured then
    ask .release
    modify ({ · with table := [], surface := none, state := .unconfigured })

/-- The end of the encoder's owner: an encoder that is still set up is freed. -/
def discard : Action Encoder Unit := do
  let e ← get
  if e.state ≠ .unconfigured then
    report .warn "encoder dropped without release; releasing now"
    release

end Encoder

end Screencast
