import Screencast.Program

/-!
# Surroundings without a device

What every rehearsal shares: a disk, a clock, a stop signal, standard output and the event report,
all of them plain values.

* `Surroundings.disk`, `clock`, `signal`, `stream`: how the requests to each of them are answered.
-/

namespace Screencast.Rehearsal

/-- A clock. -/
inductive Timer
  /-- One that moves only when told to; the sleep is what the time since boot has more. -/
  | manual (monotonic sleep : Int)
  /-- One that moves on by a nanosecond at each reading. -/
  | running (now : Int)
  deriving DecidableEq

namespace Timer

/-- Moves a manual clock. Its counter has 64 bits and goes round. -/
def advance (nanos : Int) : Timer → Timer
  | manual monotonic sleep => manual ((monotonic + nanos).bmod (2 ^ 64)) sleep
  | running now => running now

def setSleep (sleep : Int) : Timer → Timer
  | manual monotonic _ => manual monotonic sleep
  | running now => running now

def setMonotonic (monotonic : Int) : Timer → Timer
  | manual _ sleep => manual monotonic sleep
  | running now => running now

def read (r : ClockRequest) : Timer → Int × Timer
  | manual monotonic sleep =>
    (match r with
      | .monotonic => monotonic
      | .sinceBoot => monotonic + sleep, manual monotonic sleep)
  | running now => (now + 1, running (now + 1))

end Timer

structure Surroundings where
  disk : Disk
  timer : Timer
  stopRaised : Bool
  /-- Whether standard output is a terminal. -/
  terminal : Bool
  /-- What went to standard output. -/
  printed : Bytes
  /-- The event report, the latest line first. -/
  lines : List (Level × String)

namespace Surroundings

def ofDisk (disk : Disk) (timer : Timer) : Surroundings := ⟨disk, timer, false, false, [], []⟩

variable (s : Surroundings)

/-- The report in the order in which it was written. -/
def reported : List (Level × String) := s.lines.reverse

/-- The disk after an operation that may have been refused. -/
def settle : Except Disk.Refusal Disk → Except Disk.Refusal Unit × Surroundings
  | .ok disk => (.ok (), { s with disk })
  | .error r => (.error r, s)

def answerDisk : (r : DiskRequest) → r.Answer × Surroundings
  | .remove path => s.settle (s.disk.remove path)
  | .create path => s.settle (s.disk.create path)
  | .write path content => s.settle (s.disk.write path content)
  | .read path => (s.disk.read path, s)

def answerSignal : (r : SignalRequest) → r.Answer × Surroundings
  | .isRaised => (s.stopRaised, s)
  | .raise => ((), { s with stopRaised := true })

/-- All of the bytes. -/
def takeAll (bytes : Bytes) : Except String (Fin (bytes.length + 1)) := .ok (Fin.last _)

/-- A file takes all bytes at its end, and so does standard output. Nothing is supplied here. -/
def answerStream : (r : StreamRequest) → r.Answer × Surroundings
  | .write (.file path) bytes =>
    match s.disk.append path bytes with
    | .ok disk => (takeAll bytes, { s with disk })
    | .error r => (.error r.text, s)
  | .write .standardOutput bytes => (takeAll bytes, { s with printed := s.printed ++ bytes })
  | .write .supplied bytes => (takeAll bytes, s)
  | .flush _ => (.ok (), s)
  | .deliver _ => (.ok (), s)
  | .rawTerminal => (s.terminal, s)

def answerClock (r : ClockRequest) : Int64 × Surroundings :=
  let (now, timer) := s.timer.read r
  (.ofInt now, { s with timer })

/-- The identity that recordings get in a rehearsal. -/
def identity : Identity :=
  ⟨"00000000-0000-4000-8000-000000000000", "1970-01-01T00:00:00.000000000+00:00"⟩

def answerReport (level : Level) (text : String) : Surroundings :=
  { s with lines := (level, text) :: s.lines }

end Surroundings

end Screencast.Rehearsal
