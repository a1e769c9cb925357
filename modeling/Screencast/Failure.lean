import Screencast.Decimal.Numeral
import Screencast.Text.Quoted

/-!
# Failures

A failure names the stage of a recording at which it arose and says what happened there. Every one
of them ends the recording.

* `Failure.message`: the text shown to a user.
* `Failure.exitCode`: the exit code of a program that ends with the failure.
* `Failure.inspect`: the text shown to a developer, the detail quoted.
-/

namespace Screencast

/-- Where a recording can fail. -/
inductive Stage
  /-- The settings are out of bounds. Nothing has been acquired yet. -/
  | settings
  /-- The encoder could not be created, configured or started. -/
  | encoder
  /-- The display could not be read or not be captured. -/
  | capture
  /-- The container refused a track, its start, a sample or its end. -/
  | muxer
  /-- The encoder answered a poll with something unexpected. -/
  | poll
  /-- A file or a raw output failed. -/
  | storage
  deriving DecidableEq, Repr

structure Failure where
  stage : Stage
  detail : String
  deriving DecidableEq, Repr

/-- A result that may be a failure. -/
abbrev Outcome (α : Type) := Except Failure α

namespace Stage

/-- How a message of this stage begins. -/
def heading : Stage → String
  | settings => "invalid configuration: "
  | encoder => "encoder init failed: "
  | capture => "capture setup failed: "
  | muxer => "muxer write failed: "
  | poll => "encoder poll failed: "
  | storage => "storage error: "

/-- The name of the stage's failures. -/
def label : Stage → String
  | settings => "ConfigValidation"
  | encoder => "EncoderInit"
  | capture => "CaptureSetup"
  | muxer => "MuxerWrite"
  | poll => "Poll"
  | storage => "Storage"

def exitCode : Stage → Nat
  | settings => 2
  | encoder => 3
  | capture => 4
  | muxer => 5
  | poll => 6
  | storage => 7

/-- **Every stage has an exit code of its own, and none is zero.** -/
theorem exitCode_injective {a b : Stage} (h : a.exitCode = b.exitCode) : a = b := by
  cases a <;> cases b <;> simp_all [exitCode]

theorem exitCode_ne_zero (s : Stage) : s.exitCode ≠ 0 := by cases s <;> decide

end Stage

namespace Failure

def message (e : Failure) : String := e.stage.heading ++ e.detail

def exitCode (e : Failure) : Nat := e.stage.exitCode

/-- The failure as one of the given stage. One that is of this stage already stays as it is; from
another the whole message becomes the detail, after what was being done. -/
def asStage (s : Stage) (doing : String) (e : Failure) : Failure :=
  if e.stage = s then e else ⟨s, s!"unable to {doing}: {e.message}"⟩

@[simp] theorem stage_asStage (s : Stage) (doing : String) (e : Failure) :
    (e.asStage s doing).stage = s := by
  unfold asStage; split <;> simp_all

/-- The stage's label and the quoted detail. -/
def inspect (e : Failure) : String :=
  e.stage.label ++ "(" ++ Quoted.ofText e.detail ++ ")"

end Failure

end Screencast
