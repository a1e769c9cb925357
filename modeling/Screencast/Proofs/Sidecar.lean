import Screencast.Proofs.Agreement
import Screencast.Proofs.CheckedSettings
import Screencast.Proofs.DescriptionText

/-!
# The description beside a recording

A recording that ends well and was asked for a description has written it beside its file, as the
last of its calls but for notices. Read right after the run, the description is the one that the
recording answered with, if its frame rate is finite. The frame rate of a display is not checked,
and an infinite one is written as what no reader takes.

* `Description.readBack`: what a description is read back as; `Description.load_runs`: the reader.
* `Description.readBack_of_time`: descriptions of recordings of less than `2 ^ 53` nanoseconds.
* `Session.SidecarReadBack`: the file beside a recording, from its writing to its reading.
* `Session.sidecar_read_back`: the main result, and `Session.sidecar_unreadable` for the exception.
-/

namespace Screencast

/-! ## Reading a description -/

namespace Description

variable {σ : Type} {d : Description}

/-- What a description is read back as: with the seconds that their digits are read as, and not at
all if one of its numbers is not finite. -/
def readBack (d : Description) : Outcome Description :=
  match if d.frameRate.isFinite then Json.double? (Json.ofDouble d.seconds) else none with
  | some seconds => .ok { d with seconds }
  | none => .error ⟨.storage, "failed to parse metadata"⟩

/-- **A description that was written is read** from its file. -/
theorem load_runs (d : Description) (recording : Path) (s : σ) :
    (load recording s).Runs [⟨.disk (.read (pathFor recording)), .ok (utf8 d.toText)⟩]
      (some (d.readBack, s)) := by
  refine .ask (.disk (.read (pathFor recording))) _ (.ok (utf8 d.toText)) ?_
  simp only [Program.bind, Action.continue?_ok, ofUtf8?_utf8,
    ofText?_toText, readBack]
  split_ifs
  · cases Json.double? (Json.ofDouble d.seconds) with
    | none => exact .done _
    | some seconds => exact .done _
  · exact .done _

theorem readBack_of_not_finite (hd : ¬d.frameRate.isFinite) :
    d.readBack = .error ⟨.storage, "failed to parse metadata"⟩ := by
  rw [readBack, if_neg hd]

/-- **A description of less than `2 ^ 53` nanoseconds** is read back as it is. -/
theorem readBack_of_time {started ended : Int64} (hd : d.frameRate.isFinite)
    (hs : d.seconds = Session.secondsBetween started ended)
    (hn : (ended - started).toInt.natAbs < 2 ^ 53) : d.readBack = .ok d := by
  have hread : Json.double? (Json.ofDouble d.seconds) = some d.seconds := by
    rw [hs]
    exact Json.double?_ofDouble_time hn
  rw [readBack, if_pos hd, hread]

end Description

/-! ## Writing a description -/

namespace Session

variable {s s' : Session} {h : History} {settings : Settings} {supply : Option Supply}

/-- A frame rate that is not finite is that of the display. -/
theorem Prepared.reported {r : Ready} (hp : Prepared s h (.ok r, s')) (hr : ¬r.frameRate.isFinite) :
    ⟨.display .refreshRate, .ok r.frameRate⟩ ∈ h := by
  cases hp with
  | ready hv hl =>
    cases hl with
    | fixed _ _ hrate => exact absurd ((Settings.check_eq_ok_iff.1 hv).frameRate _ hrate).1 hr
    | rated => simp

/-- A recording that is concluded has written its description last. -/
theorem Settled.saved {sink : Sink} {totals : Ending → Option String → Totals}
    {verdict : Outcome Ending} {recording : Recording} {path : Path}
    (hs : Settled settings sink totals verdict h (.ok recording))
    (hsidecar : settings.sidecar = true) (hp : sink.path? = some path) :
    ∃ before, h = before ++ [⟨.disk (.write (Description.pathFor path)
      (utf8 recording.description.toText)), .ok ()⟩] := by
  cases hs with
  | concluded _ hc =>
    cases hc with
    | done identity hd hsaved =>
      cases hsaved with
      | nowhere hn =>
        rcases hn with hn | hn
        · rw [hsidecar] at hn
          cases hn
        · rw [hp] at hn
          cases hn
      | written path' _ hp' =>
        obtain rfl : path' = path := Option.some.inj (hp'.symm.trans hp)
        exact ⟨_, (List.append_cons ..)⟩

/-- The file beside a recording in a file, from its writing to its reading. -/
structure SidecarReadBack (path : Path) (h : History) (recording : Recording) : Prop where
  /-- It is written last, but for notices. -/
  written : ∃ before after : History, h = before ++
    ⟨.disk (.write (Description.pathFor path) (utf8 recording.description.toText)), .ok ()⟩ ::
      after ∧ after.Within [.watcher]
  /-- It is read as the description is. -/
  read : ∀ {σ : Type} (s : σ), (Description.load path s).Runs
    [⟨.disk (.read (Description.pathFor path)), .ok (utf8 recording.description.toText)⟩]
      (some (recording.description.readBack, s))
  /-- It is read as the recording's own if the frame rate is finite and the times around the loop
  are less than `2 ^ 53` nanoseconds apart. -/
  timed : ∃ started ended, [entered .capturing, Take.clocked started] <:+: h ∧
    [Take.clocked ended, entered .draining] <:+: h ∧
    recording.description.seconds = secondsBetween started ended ∧
    (recording.description.frameRate.isFinite → (ended - started).toInt.natAbs < 2 ^ 53 →
      recording.description.readBack = .ok recording.description)
  /-- It cannot be read if the frame rate is not finite, which is then that of the display. -/
  unreadable : ¬recording.description.frameRate.isFinite →
    recording.description.readBack = .error ⟨.storage, "failed to parse metadata"⟩ ∧
      ⟨.display .refreshRate, .ok recording.description.frameRate⟩ ∈ h

/-- **The file beside a recording** that has ended well. -/
theorem Ran.sidecarReadBack {recording : Recording} {path : Path}
    (hr : Ran s h (some (.ok recording, s'))) (ho : s.output = supply.map Supply.raw)
    (hsidecar : s.settings.sidecar = true) (hpath : ownFile? s.settings supply = some path) :
    SidecarReadBack path h recording := by
  generalize hresult : some (Except.ok recording, s') = result at hr
  cases hr.course with
  | unlooped => cases hresult
  | unfinished => cases hresult
  | @drained setUp loop times back rest last r s' s'' t sink looped timed closed x started nanos
      hp hl ht hb hs hlast =>
    cases hresult
    have hface : sink.path? = some path := (ownFile_of_drained ho hp hl ht).trans hpath
    have hsettings : s'.settings = s.settings := hp.settings_eq
    obtain ⟨before, hbefore⟩ := hs.saved (hsettings ▸ hsidecar) hface
    obtain ⟨⟨reason, checksum, identity, rfl⟩, -⟩ := hs.recorded
    refine ⟨?_, fun s => Description.load_runs _ path s, ⟨started, nanos, ?_, ?_, rfl, ?_⟩, ?_⟩
    · refine ⟨lead setUp started ++ loop ++ [Take.clocked nanos] ++
        entered .draining :: (times ++ back ++ before), last, ?_, hlast⟩
      rw [hbefore]
      simp
    · exact ⟨entered .configuring :: setUp, loop ++ [Take.clocked nanos] ++
        entered .draining :: (times ++ back ++ rest ++ last), by simp [lead]⟩
    · exact ⟨lead setUp started ++ loop, times ++ back ++ rest ++ last, by simp⟩
    · exact fun hfinite hn => Description.readBack_of_time hfinite rfl hn
    · intro hfinite
      have hreported := hp.reported hfinite
      refine ⟨Description.readBack_of_not_finite hfinite, ?_⟩
      simp only [lead, List.mem_append]
      tauto

/-- **The description is read back.** Whatever the settings and the display are, a run that records
to a file of its own and was asked for a description has written it beside the file after everything
else. Read right after the run it is the description that the recording has, if the frame rate is
finite and the recording shorter than `2 ^ 53` nanoseconds; with a frame rate that is not finite,
which only a display can report, it cannot be read. -/
theorem sidecar_read_back {hasMuxer : Bool} {passes : Nat} {recording : Recording} {path : Path}
    (hr : (run passes (ofSettings settings hasMuxer (supply.map Supply.raw))).Runs h
      (some (.ok recording, s'))) (hsidecar : settings.sidecar = true)
    (hpath : ownFile? settings supply = some path) :
    SidecarReadBack path h.calls recording :=
  (ensures_run passes _ h _ hr).sidecarReadBack rfl hsidecar hpath

open Rehearsal in
/-- A recording of a display with 60 pictures in a second. -/
theorem sidecar_read_back_obliging :
    let settings : Settings := { Settings.standard with sidecar := true }
    let p := run 9 (ofSettings settings true none)
    let device := Obliging.ofEvents [.formatChanged, .buffer ⟨0, 1, 2, 0, .keyFrame⟩]
    ∃ recording s' path, (p.run Obliging.answer device).1 = some (.ok recording, s') ∧
      ownFile? settings none = some path ∧ settings.sidecar = true ∧
      SidecarReadBack path (p.history Obliging.answer device).calls recording ∧
      recording.description.readBack = .ok recording.description := by
  intro settings p device
  have hends : (p.run Obliging.answer device).1.any fun r =>
      r.1.toOption.any fun recording =>
        recording.description.readBack = .ok recording.description := by decide +kernel
  obtain ⟨⟨_ | recording, s'⟩, hr, hread⟩ := (Option.any_eq_true _ _).1 hends
  · cases hread
  have hruns : (run 9 (ofSettings settings true ((none : Option Supply).map Supply.raw))).Runs
      (p.history Obliging.answer device) (some (.ok recording, s')) :=
    hr ▸ Program.runs_run _ _ _
  have hpath : ownFile? settings none = some ⟨"screenrecord.mp4"⟩ := rfl
  exact ⟨recording, s', _, hr, hpath, rfl, sidecar_read_back hruns rfl hpath,
    of_decide_eq_true hread⟩

open Rehearsal in
/-- **A display with an infinite refresh rate is recorded well, and the description cannot be
read.** -/
theorem sidecar_unreadable :
    let settings : Settings := { Settings.standard with sidecar := true }
    let p := run 9 (ofSettings settings true none)
    let device := Obliging.ofEvents [.formatChanged, .buffer ⟨0, 1, 2, 0, .keyFrame⟩]
    ∃ recording s' path before after,
      (p.run Obliging.answerBoundless device).1 = some (.ok recording, s') ∧
      ownFile? settings none = some path ∧
      (p.history Obliging.answerBoundless device).calls = before ++
        ⟨.disk (.write (Description.pathFor path) (utf8 recording.description.toText)), .ok ()⟩ ::
          after ∧ History.Within [.watcher] after ∧
      (Description.load path ()).Runs
        [⟨.disk (.read (Description.pathFor path)), .ok (utf8 recording.description.toText)⟩]
          (some (.error ⟨.storage, "failed to parse metadata"⟩, ())) := by
  intro settings p device
  have hends : (p.run Obliging.answerBoundless device).1.any (fun r =>
      r.1.toOption.any fun recording => !recording.description.frameRate.isFinite) := by
    decide +kernel
  obtain ⟨⟨_ | recording, s'⟩, hr, hrate⟩ := (Option.any_eq_true _ _).1 hends
  · cases hrate
  have hran : Ran (ofSettings settings true ((none : Option Supply).map Supply.raw))
      (p.history Obliging.answerBoundless device).calls (some (.ok recording, s')) :=
    ensures_run 9 _ _ _ (hr ▸ Program.runs_run _ _ _)
  have hpath : ownFile? settings none = some ⟨"screenrecord.mp4"⟩ := rfl
  have hread := hran.sidecarReadBack rfl rfl hpath
  obtain ⟨before, after, hwritten, hafter⟩ := hread.written
  refine ⟨recording, s', _, before, after, hr, rfl, hwritten, hafter, ?_⟩
  have hinfinite : (!recording.description.frameRate.isFinite) = true := hrate
  rw [← (hread.unreadable (by simpa using hinfinite)).1]
  exact hread.read ()

end Session

end Screencast
