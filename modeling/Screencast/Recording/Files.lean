import Screencast.Action
import Screencast.Recording.Text
import Screencast.Sha256

/-!
# The files of a recording

The digest of a finished file, and the description that is kept beside it.

* `Recording.digest`: the digest of a file.
* `Description.save`, `Description.load`: the description beside a recording.
-/

namespace Screencast

variable {σ : Type}

def DiskRequest.program (r : DiskRequest) : Program r.Answer := .request (.disk r)

/-- The SHA-256 digest of a file, in hexadecimal. -/
def Recording.digest (path : Path) : Action σ String := do
  match ← (DiskRequest.read path).program with
  | .ok content => return hexText (Sha256.digest content)
  | .error r => Action.fail ⟨.storage, s!"failed to read file for checksum: {r.text}"⟩

/-- The bytes of a text. -/
def utf8 (s : String) : Bytes := s.toUTF8.toList

/-- The text that bytes stand for. -/
def ofUtf8? (bytes : Bytes) : Option String := String.fromUTF8? (ByteArray.mk bytes.toArray)

namespace Description

/-- The description of a recording under a fresh identity. -/
def make (s : Settings) (t : Totals) : Program Description := do
  return .of s t (← Program.request .identity)

/-- Writes a description beside its recording. -/
def save (d : Description) (recording : Path) : Action σ Unit := do
  match ← (DiskRequest.write (pathFor recording) (utf8 d.toText)).program with
  | .ok () => return ()
  | .error r => Action.fail ⟨.storage, s!"failed to write metadata: {r.text}"⟩

/-- Reads the description beside a recording. -/
def load (recording : Path) : Action σ Description := do
  match ← (DiskRequest.read (pathFor recording)).program with
  | .error r => Action.fail ⟨.storage, s!"failed to read metadata: {r.text}"⟩
  | .ok content =>
    match ofUtf8? content with
    | none =>
      Action.fail ⟨.storage, "failed to read metadata: stream did not contain valid UTF-8"⟩
    | some text =>
      match ofText? text with
      | none => Action.fail ⟨.storage, "failed to parse metadata"⟩
      | some d => return d

end Description

end Screencast
