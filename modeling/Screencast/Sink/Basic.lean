import Screencast.Sink.Muxed
import Screencast.Sink.Raw

/-!
# The output of a session

A container or the bare stream, behind one set of operations.

* `Sink.formatChanged`, `Sink.writeSample`, `Sink.writeTimes`, `Sink.close`: passed on to the one
  that it is. The bare stream knows neither formats nor frame times.
-/

namespace Screencast

inductive Sink
  | muxed (m : Muxed)
  | raw (r : Raw)
  deriving DecidableEq

namespace Sink

/-- Whether parameters of the codec are written as samples. A container has them from the
format. -/
def keepsConfig : Sink → Bool
  | muxed _ => false
  | raw _ => true

/-- Whether a log of frame times is kept for this output. -/
def keepsTimes : Sink → Bool
  | muxed m => m.keepsTimes
  | raw _ => false

/-- The file that is written, if it is one of the recording's own. -/
def path? : Sink → Option Path
  | muxed m => some m.path
  | raw r => r.path

/-- An action on whichever output it is. -/
def either {α : Type} (onMuxed : Action Muxed α) (onRaw : Action Raw α) : Action Sink α
  | muxed m => do
    let (r, m) ← onMuxed m
    return (r, muxed m)
  | raw r => do
    let (a, r) ← onRaw r
    return (a, raw r)

def formatChanged (format : TrackFormat) : Action Sink Unit :=
  either (Muxed.formatChanged format) (pure ())

def writeSample (s : Sample) : Action Sink Unit :=
  either (Muxed.writeSample s) (Raw.writeSample s)

def writeTimes (log : FrameTimes.Log) (offset : Int) : Action Sink Unit :=
  either (Muxed.writeTimes log offset) (pure ())

/-- Finishes the output. -/
def close : Action Sink Unit := either Muxed.stop Raw.close

end Sink

end Screencast
