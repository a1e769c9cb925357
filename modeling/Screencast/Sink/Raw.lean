import Screencast.Action

/-!
# Output of the bare stream

Every payload of the encoder is passed on byte for byte, parameters of the codec included, so that
the stream can be decoded by itself. A stream is flushed after each picture, but not after
parameters alone.

* `Raw.openFor`: the output for a destination.
* `Raw.writeSample`: passes a payload on.
* `Raw.close`: flushes the stream; what comes later is refused.
* `Stream.writeFully`: writes until every byte was taken.
-/

namespace Screencast

namespace Stream

def ask (r : StreamRequest) : Program r.Answer := .request (.stream r)

/-- Writes until all bytes have been taken. A stream that takes none of them has failed. -/
def writeFully (s : Stream) (bytes : Bytes) : Program (Except String Unit) :=
  if bytes.isEmpty then .done (.ok ())
  else
    .ask (.stream (.write s bytes)) fun
      | .error text => .done (.error text)
      | .ok taken =>
        if 0 < taken.val ∧ bytes ≠ [] then writeFully s (bytes.drop taken.val)
        else .done (.error "failed to write whole buffer")
termination_by bytes.length
decreasing_by
  have : 0 < bytes.length := List.length_pos_iff.2 (by simp_all)
  simp only [List.length_drop]; omega

end Stream

/-- Where the payloads go. -/
inductive Raw.Target
  | stream (s : Stream)
  /-- Somebody is called with each payload. -/
  | callback
  deriving DecidableEq, Repr

/-- An output that is the bare stream. -/
structure Raw where
  target : Raw.Target
  path : Option Path
  /-- The bytes that were passed on, in a counter of 64 bits that goes round. -/
  count : UInt64
  closed : Bool
  deriving DecidableEq

namespace Raw

variable {σ : Type}

/-- An output to a target that is not a file of its own. -/
def ofTarget (target : Target) : Raw := ⟨target, none, 0, false⟩

/-- How many bytes were passed on. -/
def written (r : Raw) : Nat := r.count.toNat

/-- The output for a destination. A file is emptied; standard output is switched to raw mode if it
is a terminal. -/
def openFor : Destination → Action σ Raw
  | .file path => do
    match ← Program.request (.disk (.create path)) with
    | .ok () => return { ofTarget (.stream (.file path)) with path := some path }
    | .error r => Action.fail ⟨.storage, s!"unable to open '{path.text}': {r.text}"⟩
  | .standardOutput => do
    if ← Stream.ask .rawTerminal then report .debug "stdout switched to raw mode"
    return ofTarget (.stream .standardOutput)

/-- Passes bytes on, and flushes a stream if asked to. -/
def pass (target : Target) (bytes : Bytes) (flush : Bool) : Program (Except String Unit) :=
  match target with
  | .callback => Stream.ask (.deliver bytes)
  | .stream s => do
    match ← s.writeFully bytes with
    | .error text => return .error text
    | .ok () => if flush then Stream.ask (.flush s) else return .ok ()

/-- Passes the payload of a sample on. -/
def writeSample (s : Sample) : Action Raw Unit := do
  let r ← get
  if r.closed then Action.fail ⟨.storage, "raw output already closed"⟩
  else if s.payload.isEmpty then return ()
  else
    match ← pass r.target s.payload (!s.flags.isConfig) with
    | .error text => Action.fail ⟨.storage, s!"failed writing data to output: {text}"⟩
    | .ok () => modify fun r => { r with count := r.count + .ofNat s.payload.length }

/-- Flushes a stream, once. -/
def close : Action Raw Unit := do
  let r ← get
  if r.closed then return ()
  else
    set { r with closed := true }
    match r.target with
    | .callback => return ()
    | .stream s =>
      match ← Stream.ask (.flush s) with
      | .ok () => return ()
      | .error text => Action.fail ⟨.storage, s!"failed to flush output: {text}"⟩

end Raw

end Screencast
