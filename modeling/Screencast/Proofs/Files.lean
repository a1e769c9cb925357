import Screencast.Proofs.History
import Screencast.Recording.Text

/-!
# The file of a recording

A history tells what a file holds: creating it empties it, what is written to it is pending until it
is flushed, and writing it as a whole replaces what it holds.

* `History.taken`: the bytes that a stream has taken.
* `History.fileAfter`: a file after some calls.
* `History.readsBack`: a file is read as it is.
* `Within.fileAfter_open`: calls that only write to a file.
-/

namespace Screencast

/-- A file that was created: what it holds, and what was written since it was flushed last. -/
structure OpenFile where
  stored : Bytes
  pending : Bytes
  deriving DecidableEq

/-- All that was written to the file. -/
def OpenFile.written (f : OpenFile) : Bytes := f.stored ++ f.pending

namespace Exchange

/-- The bytes that a stream takes. -/
def taken (s : Stream) : Exchange → Bytes
  | ⟨.stream (.write t bytes), .ok n⟩ => if t = s then bytes.take n.val else []
  | _ => []

/-- What becomes of the file at a path. -/
def fileAfter (path : Path) (f : Option OpenFile) : Exchange → Option OpenFile
  | ⟨.disk (.create p), .ok ()⟩ => if p = path then some ⟨[], []⟩ else f
  | ⟨.disk (.write p content), .ok ()⟩ => if p = path then some ⟨content, []⟩ else f
  | ⟨.disk (.remove p), .ok ()⟩ => if p = path then none else f
  | ⟨.stream (.write (.file p) bytes), .ok n⟩ =>
    if p = path then f.map fun f => { f with pending := f.pending ++ bytes.take n.val } else f
  | ⟨.stream (.flush (.file p)), .ok ()⟩ => if p = path then f.map fun f => ⟨f.written, []⟩ else f
  | _ => f

/-- Whether a file without pending bytes is read as it is. -/
def readsBack (path : Path) : Option OpenFile → Exchange → Bool
  | some ⟨stored, []⟩, ⟨.disk (.read p), .ok content⟩ => p != path || content == stored
  | _, _ => true

variable {e : Exchange}

/-- What is written to an open file is kept, pending or not. -/
theorem fileAfter_open (path : Path) (f : OpenFile) (he : e.party ≠ .disk) :
    ∃ f', e.fileAfter path (some f) = some f' ∧
      f'.written = f.written ++ e.taken (.file path) := by
  have hsame : ∀ {k : Bytes}, k = [] → f.written = f.written ++ k := by
    rintro k rfl
    exact (List.append_nil _).symm
  rcases e with ⟨_ | _ | _ | _ | r | _ | _ | _ | _ | _ | _, answer⟩
  case disk => exact absurd rfl he
  case stream =>
    cases r with
    | write s bytes =>
      obtain text | n := answer
      · exact ⟨f, by cases s <;> rfl, hsame (by cases s <;> rfl)⟩
      -- only a write to this very file is pending in it
      cases s with
      | supplied => exact ⟨f, rfl, hsame rfl⟩
      | standardOutput => exact ⟨f, rfl, hsame rfl⟩
      | file p =>
        by_cases hp : p = path
        · subst hp
          have htaken : taken (.file p) ⟨.stream (.write (.file p) bytes), .ok n⟩ =
              bytes.take n.val := if_pos rfl
          refine ⟨{ f with pending := f.pending ++ bytes.take n.val }, if_pos rfl, ?_⟩
          rw [htaken, OpenFile.written, OpenFile.written, List.append_assoc]
        · have hne : ¬Stream.file p = .file path := fun h => hp (Stream.file.inj h)
          exact ⟨f, if_neg hp, hsame (if_neg hne)⟩
    | flush s =>
      obtain text | _ := answer
      · exact ⟨f, by cases s <;> rfl, hsame rfl⟩
      cases s with
      | supplied => exact ⟨f, rfl, hsame rfl⟩
      | standardOutput => exact ⟨f, rfl, hsame rfl⟩
      | file p =>
        by_cases hp : p = path
        · exact ⟨⟨f.written, []⟩, if_pos hp, rfl⟩
        · exact ⟨f, if_neg hp, hsame rfl⟩
    | deliver bytes => exact ⟨f, rfl, hsame rfl⟩
    | rawTerminal => exact ⟨f, rfl, hsame rfl⟩
  all_goals exact ⟨f, rfl, hsame rfl⟩

end Exchange

namespace History

/-- The bytes that a stream has taken. -/
def taken (s : Stream) (h : History) : Bytes := h.flatMap (Exchange.taken s)

/-- A file after some calls. -/
def fileAfter (path : Path) (f : Option OpenFile) (h : History) : Option OpenFile :=
  h.foldl (Exchange.fileAfter path) f

/-- What a history tells of the file at a path. -/
def file? (path : Path) (h : History) : Option OpenFile := h.fileAfter path none

/-- Whether a file is read as it is, wherever it is read. -/
def readsBack (path : Path) (f : Option OpenFile) : History → Bool
  | [] => true
  | e :: h => e.readsBack path f && readsBack path (e.fileAfter path f) h

variable {path : Path} {f : OpenFile} {s : Stream} {h k : History} {parties : List Party}

@[simp] theorem taken_append : taken s (h ++ k) = h.taken s ++ k.taken s := List.flatMap_append

theorem Quiet.taken_eq_nil (hq : h.Quiet) : h.taken s = [] := by
  rw [taken, List.flatMap_eq_nil_iff]
  intro e he
  have hcarries := hq e he
  rcases e with ⟨_ | _ | _ | _ | r | _, answer⟩
  case stream =>
    cases r with
    | write => cases hcarries
    | _ => rfl
  all_goals rfl

theorem fileAfter_append {g : Option OpenFile} :
    fileAfter path g (h ++ k) = fileAfter path (h.fileAfter path g) k := List.foldl_append

theorem file?_append : file? path (h ++ k) = fileAfter path (h.file? path) k := fileAfter_append

/-- What is written to an open file is kept. -/
theorem Within.fileAfter_open (path : Path) (f : OpenFile) (hw : h.Within parties)
    (hd : Party.disk ∉ parties) :
    ∃ f', h.fileAfter path (some f) = some f' ∧ f'.written = f.written ++ h.taken (.file path) := by
  induction h generalizing f with
  | nil => exact ⟨f, rfl, (List.append_nil _).symm⟩
  | cons e h ih =>
    obtain ⟨he, hw⟩ := within_cons.1 hw
    obtain ⟨f₁, hfile, hwritten⟩ :=
      Exchange.fileAfter_open path f fun hp => hd (hp ▸ he)
    obtain ⟨f₂, hrest, hall⟩ := ih f₁ hw
    refine ⟨f₂, ?_, ?_⟩
    · rw [fileAfter, List.foldl_cons, hfile]
      exact hrest
    · rw [hall, hwritten, List.append_assoc]
      rfl

/-- A file is not changed by calls with others than the disk and the streams. -/
theorem Within.fileAfter_eq {g : Option OpenFile} (hw : h.Within parties)
    (hd : Party.disk ∉ parties) (hs : Party.stream ∉ parties) : h.fileAfter path g = g := by
  induction h with
  | nil => rfl
  | cons e h ih =>
    obtain ⟨he, hw⟩ := within_cons.1 hw
    have hstep : e.fileAfter path g = g := by
      rcases e with ⟨_ | _ | _ | _ | _ | _ | _ | _ | _ | _ | _, answer⟩
      case stream => exact absurd he hs
      case disk => exact absurd he hd
      all_goals rfl
    rw [fileAfter, List.foldl_cons, hstep]
    exact ih hw

/-- A file that is read as it is throughout is so at any place. -/
theorem readsBack_append {g : Option OpenFile} {e : Exchange}
    (hr : readsBack path g (h ++ e :: k) = true) :
    e.readsBack path (h.fileAfter path g) = true := by
  induction h generalizing g with
  | nil => exact (Bool.and_eq_true _ _ ▸ hr).1
  | cons e' h ih => exact ih (Bool.and_eq_true _ _ ▸ hr).2

end History

end Screencast
