import Screencast.Failure
import Screencast.Sample

/-!
# The frame-time record

An mp4 recording carries, in one sample of a track of its own, the presentation time of every
recorded frame, moved from the monotonic clock to the time since boot. The record is sixteen bytes
of magic, the number of frames in four bytes and each time in eight, all little-endian.

* `FrameTimes.encode`, `FrameTimes.decode`: a record and its reader.
* `FrameTimes.Malformed`: the three ways in which bytes are no record.
* `ofLittleEndian_littleEndian`: a number that fits is read back from its bytes.
-/

namespace Screencast

/-- The `n` low bytes of a number, the lowest first. -/
def littleEndian : Nat → Nat → Bytes
  | 0, _ => []
  | n + 1, v => UInt8.ofNat (v % 256) :: littleEndian n (v / 256)

/-- The number with these bytes, the lowest first. -/
def ofLittleEndian : Bytes → Nat
  | [] => 0
  | b :: bs => b.toNat + 256 * ofLittleEndian bs

theorem length_littleEndian (n v : Nat) : (littleEndian n v).length = n := by
  induction n generalizing v with
  | zero => rfl
  | succ n ih => simp [littleEndian, ih]

/-- **What fits is read back**, and what does not is cut to its low bytes. -/
theorem ofLittleEndian_littleEndian (n v : Nat) :
    ofLittleEndian (littleEndian n v) = v % 256 ^ n := by
  induction n generalizing v with
  | zero => simp [littleEndian, ofLittleEndian, Nat.mod_one]
  | succ n ih =>
    simp only [littleEndian, ofLittleEndian, ih]
    have h : (UInt8.ofNat (v % 256)).toNat = v % 256 := by simp
    rw [h, Nat.pow_succ, Nat.mul_comm (256 ^ n) 256, Nat.mod_mul]

namespace FrameTimes

/-- The bytes that open a record. -/
def magic : Bytes := "#VV1NSC0PET1ME!#".toList.map fun c => UInt8.ofNat c.toNat

/-- The width of the frame count, in bytes. -/
def countWidth : Nat := 4

/-- The width of a time, in bytes. -/
def timeWidth : Nat := 8

/-- A time as a 64-bit pattern. -/
def pattern (t : Int) : Nat := (t % 2 ^ 64).toNat

/-- The record of some times, each moved by `offset`. -/
def encode (times : List Int) (offset : Int) : Bytes :=
  magic ++ littleEndian countWidth times.length ++
    times.flatMap fun t => littleEndian timeWidth (pattern (t + offset))

/-- Why bytes are no record. -/
inductive Malformed
  | missingMagic
  | truncatedCount
  | wrongLength (count bytes : Nat)
  deriving DecidableEq, Repr

namespace Malformed

def reason : Malformed → String
  | missingMagic => "missing magic"
  | truncatedCount => "truncated frame count"
  | wrongLength count bytes => s!"expected {count} timestamps, found {bytes} bytes"

def failure (m : Malformed) : Failure := ⟨.storage, "malformed frame-time record: " ++ m.reason⟩

end Malformed

/-- The first `n` times in some bytes. -/
def times : Nat → Bytes → List UInt64
  | 0, _ => []
  | n + 1, bs => UInt64.ofNat (ofLittleEndian (bs.take timeWidth)) :: times n (bs.drop timeWidth)

/-- The times of a record. -/
def decode (record : Bytes) : Except Malformed (List UInt64) :=
  if magic.isPrefixOf record then
    let body := record.drop magic.length
    if body.length < countWidth then .error .truncatedCount
    else
      let count := ofLittleEndian (body.take countWidth)
      let rest := body.drop countWidth
      if rest.length = count * timeWidth then .ok (times count rest)
      else .error (.wrongLength count rest.length)
  else .error .missingMagic

/-- The times of the frames written so far. -/
structure Log where
  entries : List Int
  deriving DecidableEq

namespace Log

def empty : Log := ⟨[]⟩

def push (l : Log) (time : Int) : Log := ⟨l.entries ++ [time]⟩

def size (l : Log) : Nat := l.entries.length

/-- The time of the first frame, at which the record is written. -/
def first? (l : Log) : Option Int := l.entries.head?

def record (l : Log) (offset : Int) : Bytes := encode l.entries offset

end Log

end FrameTimes

end Screencast
