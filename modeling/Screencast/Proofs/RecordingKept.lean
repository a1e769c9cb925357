import Screencast.Proofs.Agreement
import Screencast.Proofs.Places
import Screencast.Rehearsal.Scripted

/-!
# A recording is kept as it was finished

The digest of a recording is taken before its description is written beside it. Whatever the names
are, the description is written to no file but its own, so that after the run the file of the
recording is still the one that the digest is of. A recording whose name starts with two dots and
has no third is kept as well, but cannot be described: the place for its description is a directory.

* `Disk.Obeys`, `Disk.Step`, `Disk.Follows`: a disk that does what it is asked for.
* `Description.KeptApart`: what the writing of a description leaves as it is.
* `Session.recording_kept`: the main result, and `Session.undescribed` for the exception.
-/

namespace Screencast

/-! ## A disk under a program -/

namespace Disk

/-- What becomes of a disk by a request and its answer. A write that is refused may have got as far
as a beginning of the content; whatever else is refused changes nothing. -/
def Obeys (d : Disk) : (r : DiskRequest) → r.Answer → Disk → Prop
  | .remove p, .ok (), d' => d.remove p = .ok d'
  | .remove _, .error _, d' => d' = d
  | .create p, .ok (), d' => d.create p = .ok d'
  | .create _, .error _, d' => d' = d
  | .write p content, .ok (), d' => d.write p content = .ok d'
  | .write p content, .error _, d' => d' = d ∨ ∃ part, part <+: content ∧ d.write p part = .ok d'
  | .read p, .ok content, d' => d.read p = .ok content ∧ d' = d
  | .read _, .error _, d' => d' = d

/-- What becomes of a disk by a call. Whoever watches a session or gives it an identity leaves the
disk alone, and so does the event report; others may do to it what they like. -/
inductive Step (d : Disk) : Exchange → Disk → Prop
  | asked (r : DiskRequest) (answer : r.Answer) {d' : Disk} (ho : d.Obeys r answer d') :
      Step d ⟨.disk r, answer⟩ d'
  | unconcerned (e : Exchange) (he : e.party ∈ [.watcher, .identity, .report]) : Step d e d
  | free (e : Exchange) (d' : Disk) (he : e.party ∉ [.disk, .watcher, .identity, .report]) :
      Step d e d'

/-- What becomes of a disk by calls in a row. -/
inductive Follows : Disk → History → Disk → Prop
  | none (d : Disk) : Follows d [] d
  | more {d d' d'' : Disk} {e : Exchange} {h : History} (hs : d.Step e d')
      (hf : Follows d' h d'') : Follows d (e :: h) d''

variable {d d' : Disk} {h k : History}

theorem Step.asked_iff {r : DiskRequest} {answer : r.Answer} :
    d.Step ⟨.disk r, answer⟩ d' ↔ d.Obeys r answer d' := by
  constructor
  · intro hs
    cases hs with
    | asked _ _ ho => exact ho
    | unconcerned _ he => simp [Exchange.party] at he
    | free _ _ he => simp [Exchange.party] at he
  · exact .asked r answer

theorem Step.unconcerned_iff {e : Exchange} (he : e.party ∈ [.watcher, .identity, .report]) :
    d.Step e d' ↔ d' = d := by
  constructor
  · intro hs
    cases hs with
    | asked => simp [Exchange.party] at he
    | unconcerned => rfl
    | free _ _ hn => exact absurd (List.mem_cons_of_mem _ he) hn
  · rintro rfl
    exact .unconcerned e he

theorem follows_nil : d.Follows [] d' ↔ d' = d := by
  constructor
  · rintro ⟨⟩
    rfl
  · rintro rfl
    exact .none d'

theorem follows_cons {e : Exchange} :
    d.Follows (e :: h) d' ↔ ∃ m, d.Step e m ∧ m.Follows h d' := by
  constructor
  · rintro ⟨⟩
    exact ⟨_, ‹_›, ‹_›⟩
  · rintro ⟨m, hs, hf⟩
    exact .more hs hf

theorem follows_append : d.Follows (h ++ k) d' ↔ ∃ m, d.Follows h m ∧ m.Follows k d' := by
  induction h generalizing d with
  | nil => simp [follows_nil]
  | cons e h ih =>
    simp only [List.cons_append, follows_cons, ih]
    constructor
    · rintro ⟨m, hs, m', hh, hk⟩
      exact ⟨m', ⟨m, hs, hh⟩, hk⟩
    · rintro ⟨m', ⟨m, hs, hh⟩, hk⟩
      exact ⟨m, hs, m', hh, hk⟩

theorem follows_singleton {e : Exchange} : d.Follows [e] d' ↔ d.Step e d' := by
  simp [follows_cons, follows_nil]

/-- The lines of the event report do not matter. -/
theorem Follows.calls (hf : d.Follows h d') : d.Follows h.calls d' := by
  induction hf with
  | none d => exact .none d
  | @more d d' d'' e h hs _ ih =>
    rw [History.calls_cons]
    rcases e with ⟨_ | _ | _ | _ | _ | _ | _ | _ | _ | _ | _, answer⟩
    case report =>
      obtain rfl := (Step.unconcerned_iff (by simp [Exchange.party])).1 hs
      exact ih
    all_goals exact .more hs ih

/-- Whoever watches a session leaves the disk alone. -/
theorem Follows.of_watcher (hf : d.Follows h d') (hw : h.Within [.watcher]) : d' = d := by
  induction hf with
  | none => rfl
  | more hs _ ih =>
    obtain ⟨he, hw⟩ := History.within_cons.1 hw
    rw [ih hw, (Step.unconcerned_iff (List.mem_singleton.1 he ▸ by simp)).1 hs]

/-- A handler that keeps a disk is followed by it. -/
theorem follows_run {σ α : Type} {answer : Program.Handler σ} (disk : σ → Disk)
    (hstep : ∀ r s, (disk s).Step ⟨r, (answer r s).1⟩ (disk (answer r s).2)) (p : Program α)
    (s : σ) : (disk s).Follows (p.history answer s) (disk (p.run answer s).2) := by
  induction p generalizing s with
  | done a => exact .none _
  | ask r next ih => exact .more (hstep r s) (ih _ _)
  | unfinished => exact .none _

end Disk

/-! ## A rehearsal keeps a disk -/

namespace Rehearsal

/-- The surroundings of a rehearsal have a disk that does what it is asked for. -/
theorem Surroundings.answerDisk_obeys (s : Surroundings) (r : DiskRequest) :
    s.disk.Obeys r (s.answerDisk r).1 (s.answerDisk r).2.disk := by
  cases r with
  | remove path =>
    simp only [answerDisk]
    cases hd : s.disk.remove path with
    | error => rfl
    | ok d => exact hd
  | create path =>
    simp only [answerDisk]
    cases hd : s.disk.create path with
    | error => rfl
    | ok d => exact hd
  | write path content =>
    simp only [answerDisk]
    cases hd : s.disk.write path content with
    | error => exact Or.inl rfl
    | ok d => exact hd
  | read path =>
    simp only [answerDisk]
    cases hd : s.disk.read path with
    | error => rfl
    | ok content => exact ⟨hd, rfl⟩

/-- Only the disk, the container writer and the streams of a scripted device write to its disk. -/
theorem Scripted.step (r : Request) (s : Scripted) :
    s.around.disk.Step ⟨r, (Scripted.answer r s).1⟩ (Scripted.answer r s).2.around.disk := by
  cases r with
  | disk r => exact .asked r _ (s.around.answerDisk_obeys r)
  | notify n =>
    have hkept : (Scripted.answer (.notify n) s).2.around.disk = s.around.disk := by
      unfold Scripted.answer
      split
      · rfl
      · simp only
        split <;> rfl
    rw [hkept]
    exact .unconcerned _ (by simp [Exchange.party])
  | identity => exact .unconcerned _ (by simp [Exchange.party])
  | report => exact .unconcerned _ (by simp [Exchange.party])
  | _ => exact .free _ _ (by simp [Exchange.party])

end Rehearsal

/-! ## The writing of a description -/

namespace Description

open Disk

variable {p : Path} {d d' : Disk} {content : Bytes} {answer : Outcome Unit}

/-- What is left as it is where a description is written beside `p`. -/
structure Spared (p : Path) (d d' : Disk) (place : Location) : Prop where
  leads : d.resolve (pathFor p) = .ok (.name place false)
  /-- No other file changes. -/
  others : ∀ l, l ≠ place → d'.find? l = d.find? l
  beside : ∀ own slash, d.resolve p = .ok (.name own slash) →
    place ≠ own ∧ place.dropLast = own.dropLast
  kept : ∀ bytes, d.read p = .ok bytes → d'.read p = .ok bytes

/-- **A description that is written beside a recording** spares the recording. -/
theorem write_spares (hw : d.write (pathFor p) content = .ok d') :
    ∃ place, Spared p d d' place := by
  obtain ⟨place, hw⟩ := write_wrote hw
  have hbeside : ∀ own slash, d.resolve p = .ok (.name own slash) →
      place ≠ own ∧ place.dropLast = own.dropLast :=
    fun own slash hp => resolve_pathFor hp hw.resolve_eq
  refine ⟨place, hw.resolve_eq, fun l hl => ?_, hbeside, fun bytes hr => ?_⟩
  · rw [hw.find?, if_neg hl]
  · exact hw.read hr fun own slash hp => (hbeside own slash hp).1

/-- What the writing of a description beside `p` comes to, whatever the disk holds. -/
structure KeptApart (p : Path) : Prop where
  differs : pathFor p ≠ p
  /-- The description is in the same directory, under another name. -/
  beside : ¬p.Overdotted → ∀ n, p.named? = some n →
    ∃ name, (pathFor p).named? = some ⟨n.before, name, []⟩ ∧ name ≠ n.name
  /-- If no place is left for the description, its writing fails and changes nothing. -/
  saved : ∀ (description : Description) (h : History) (x : Outcome Unit) (d d' : Disk),
    (description.save p ()).Runs h (some (x, ())) → d.Follows h d' →
      (d' = d ∨ ∃ place, Spared p d d' place) ∧ (p.Overdotted → d' = d ∧ ∃ f, x = .error f)

/-- The writing of a description, on a disk. -/
theorem save_follows {description : Description} {h : History} {x : Outcome Unit}
    (hr : (description.save p ()).Runs h (some (x, ()))) (hf : d.Follows h d') :
    (d' = d ∧ ∃ f, x = .error f) ∨ ∃ part, d.write (pathFor p) part = .ok d' := by
  have hends : (description.save p ()).Ends fun h x =>
      ∀ d d' : Disk, d.Follows h d' →
        (d' = d ∧ ∃ f, x.1 = .error f) ∨ ∃ part, d.write (pathFor p) part = .ok d' := by
    refine ensures_save.2 ⟨fun r d d' hf => ?_, fun d d' hf => ?_⟩
    · rw [follows_singleton, Step.asked_iff] at hf
      obtain rfl | ⟨part, -, hw⟩ := hf
      · exact .inl ⟨rfl, _, rfl⟩
      · exact .inr ⟨part, hw⟩
    · rw [follows_singleton, Step.asked_iff] at hf
      exact .inr ⟨_, hf⟩
  exact hends h _ hr d d' hf.calls

/-- **A description is kept apart from its recording**, whatever the recording is called. -/
theorem keptApart (hn : p.named? ≠ none) : KeptApart p where
  differs := pathFor_ne hn
  beside ho n hn := pathFor_beside hn ho
  saved description h x d d' hr hf := by
    obtain hfailed | ⟨part, hw⟩ := save_follows hr hf
    · exact ⟨.inl hfailed.1, fun _ => hfailed⟩
    · obtain ⟨place, hspared⟩ := write_spares hw
      exact ⟨.inr ⟨place, hspared⟩, fun ho => absurd ho (not_overdotted_of_leads hspared.leads)⟩

end Description

/-! ## The run -/

namespace Session

open Disk

variable {s s' : Session} {h : History} {r : Ready} {d d' : Disk} {settings : Settings}
  {supply : Option Supply} {recording : Recording} {path : Path}

/-- The file at a path is the one that a digest is of. -/
def Sealed (d : Disk) (path : Path) (checksum : Option String) : Prop :=
  ∃ content, d.read path = .ok content ∧ checksum = some (hexText (Sha256.digest content))

/-- A recording that is concluded is as it was when its digest was taken. -/
theorem Settled.sealed {sink : Sink} {t : Take} {seconds : Double} {verdict : Outcome Ending}
    (hs : Settled settings sink (totals sink r t seconds) verdict h (.ok recording))
    (hp : sink.path? = some path) (hf : d.Follows h d') :
    Sealed d' path recording.checksum := by
  cases hs with
  | concluded _ hc =>
  cases hc with
  | done identity hd hsaved =>
  -- the digest is taken on `d₁`, and from then on the description is all that is written
  obtain ⟨d₁, hread, hrest⟩ := follows_append.1 hf
  obtain ⟨d₂, hidentity, hwritten⟩ := follows_cons.1 hrest
  obtain rfl := (Step.unconcerned_iff (by simp [Exchange.party])).1 hidentity
  cases hd with
  | nothing hn =>
    rw [hp] at hn
    cases hn
  | read own content hown =>
    obtain rfl := Option.some.inj (hown.symm.trans hp)
    rw [follows_singleton, Step.asked_iff] at hread
    obtain ⟨hread, rfl⟩ := hread
    refine ⟨content, ?_, rfl⟩
    cases hsaved with
    | nowhere =>
      obtain rfl := follows_nil.1 hwritten
      exact hread
    | written beside _ hbeside =>
      obtain rfl := Option.some.inj (hbeside.symm.trans hown)
      rw [follows_singleton, Step.asked_iff] at hwritten
      obtain ⟨place, hspared⟩ := Description.write_spares hwritten
      exact hspared.kept content hread

/-- A run that succeeds leaves its recording as it was finished. -/
theorem Ran.sealed (hr : Ran s h (some (.ok recording, s')))
    (ho : s.output = supply.map Supply.raw) (hpath : ownFile? s.settings supply = some path)
    (hf : d.Follows h d') : Sealed d' path recording.checksum := by
  generalize hresult : some (Except.ok recording, s') = result at hr
  cases hr.course with
  | unlooped => cases hresult
  | unfinished => cases hresult
  | @drained setUp loop times back rest last r s' s'' t sink looped timed closed x started nanos
      hp hl ht hb hs hlast =>
    cases hresult
    have hface : sink.path? = some path := (ownFile_of_drained ho hp hl ht).trans hpath
    -- what the disk was before the conclusion does not matter, and after it there are only notices
    obtain ⟨d₁, -, hdraining⟩ := follows_append.1 hf
    obtain ⟨d₂, -, hdrained⟩ := follows_cons.1 hdraining
    obtain ⟨d₃, hconcluding, hnotices⟩ := follows_append.1 hdrained
    obtain ⟨d₄, -, hrest⟩ := follows_append.1 hconcluding
    obtain rfl := hnotices.of_watcher hlast
    exact hs.sealed hface hrest

/-- **A recording is kept as it was finished.** For every path with a file name the description of a
recording is kept at another path, in the same directory unless the name starts with two dots and has
no third, and writing it changes no other file; beside a name of that kind nothing is written. So
after every run that succeeds with its own file at the path, whether it was described or not, the
file there is the one whose digest the recording has. -/
theorem recording_kept (p : Path) :
    (p.named? ≠ none → Description.KeptApart p) ∧
    ∀ (settings : Settings) (supply : Option Supply) (hasMuxer : Bool) (passes : Nat) (h : History)
      (recording : Recording) (s' : Session) (d d' : Disk),
      (run passes (ofSettings settings hasMuxer (supply.map Supply.raw))).Runs h
        (some (.ok recording, s')) → ownFile? settings supply = some p → d.Follows h d' →
        Sealed d' p recording.checksum := by
  refine ⟨fun hn => Description.keptApart hn, ?_⟩
  intro settings supply hasMuxer passes h recording s' d d' hr hpath hf
  have hran : Ran (ofSettings settings hasMuxer (supply.map Supply.raw)) h.calls
      (some (.ok recording, s')) := ensures_run passes _ h _ hr
  exact hran.sealed rfl hpath hf.calls

open Rehearsal in
/-- A recording with two dots in its name, and its description. -/
theorem recording_kept_scripted :
    let path : Path := ⟨"a.b.mp4"⟩
    let settings : Settings :=
      { Settings.standard with destination := .file path, sidecar := true }
    let device := Scripted.ofCues .empty
      [⟨0, none, false, .format (.video videoType 1280 720)⟩,
        ⟨0, none, false, .frame [1, 2, 3] 7 .keyFrame⟩]
    let p := run 9 (ofSettings settings true none)
    let after := (p.run Scripted.answer device).2.around.disk
    Description.KeptApart path ∧ Description.pathFor path = ⟨"a.b.metadata.json"⟩ ∧
      (after.read ⟨"a.b.metadata.json"⟩).isOk = true ∧
      ∃ recording s', (p.run Scripted.answer device).1 = some (.ok recording, s') ∧
        Sealed after path recording.checksum := by
  intro path settings device p after
  have hends : (p.run Scripted.answer device).1.any fun r => r.1.isOk := by decide +kernel
  obtain ⟨⟨_ | recording, s'⟩, hr, hok⟩ := (Option.any_eq_true _ _).1 hends
  · cases hok
  have hruns : (run 9 (ofSettings settings true ((none : Option Supply).map Supply.raw))).Runs
      (p.history Scripted.answer device) (some (.ok recording, s')) :=
    hr ▸ Program.runs_run _ _ _
  have hpath : ownFile? settings none = some path := rfl
  have hfollows : device.around.disk.Follows (p.history Scripted.answer device) after :=
    follows_run (fun s => s.around.disk) Scripted.step p device
  have hnamed : path.named? ≠ none := by decide
  obtain ⟨hapart, hsealed⟩ := recording_kept path
  exact ⟨hapart hnamed, by decide, by decide +kernel, recording, s', hr,
    hsealed _ _ _ _ _ _ _ _ _ hruns hpath hfollows⟩

open Rehearsal in
/-- **A recording that cannot be described.** The description of a recording called `..mp4` is to be
kept at the path of the directory above it, which is not beside it. The recording itself ends well
without a description, but asked for one it fails, with its file complete. -/
theorem undescribed :
    let path : Path := ⟨"..mp4"⟩
    let settings : Settings := { Settings.standard with destination := .file path }
    let device := Scripted.ofCues .empty
      [⟨0, none, false, .format (.video videoType 1280 720)⟩,
        ⟨0, none, false, .frame [1, 2, 3] 7 .keyFrame⟩]
    let ended := fun settings => (run 9 (ofSettings settings true none)).run Scripted.answer device
    let failure : Failure := ⟨.storage, "failed to write metadata: Is a directory (os error 21)"⟩
    path.named? = some ⟨[], ['.', '.', 'm', 'p', '4'], []⟩ ∧
      Description.pathFor path = ⟨".."⟩ ∧ (Description.pathFor path).named? = none ∧
      ((ended settings).1.any fun r => r.1.isOk) = true ∧
      ((ended { settings with sidecar := true }).1.map fun r => (r.1.map fun _ => ())) =
        some (.error failure) ∧
      ((ended { settings with sidecar := true }).2.around.disk.read path).isOk = true := by
  decide +kernel

end Session

end Screencast
