import Mathlib.Data.List.Induction
import Screencast.Proofs.CallOrder

/-!
# What a change of format leaves behind

A container gets its tracks and is started when the format of the video is told for the first time.
That takes up to three calls to its writer. Where one of them fails after the video track was
granted, the container keeps that track, and a later change of format takes it for a container that
has been started: it does nothing and reports success.

* `Muxed.Underway`: a container that runs and has its tracks.
* `Muxed.BrokenOff`: a change of format that fails after it got the video track.
* `Muxed.Stranded`: a use with such a change of format, and without a start since.
* `Muxed.stranded_of_idle`: how else a container comes to a video track without having been started.
* `Muxed.started_unless_stranded`: the main result.
* `Muxed.success_unstarted`: a change of format that reports success and starts nothing.
-/

namespace Screencast.Muxed

open Rehearsal

variable {m m' : Muxed} {h k : History} {path : Path} {container : Container} {rotate : Bool}
  {fresh : Bool} {operations : List Operation} {format : TrackFormat}

/-- The container runs and has all its tracks. -/
structure Underway (m : Muxed) : Prop where
  started : m.isStarted = true
  video : m.videoTrack.isSome
  times : m.container = .mpeg4 → m.timeTrack.isSome

/-- **A change of format is broken off**: it gets the video track and fails after that. -/
structure BrokenOff (format : TrackFormat) (m : Muxed) (h : History) (m' : Muxed) : Prop where
  failed : ∃ f, (formatChanged format m).Runs h (some (.error f, m'))
  before : m.videoTrack = none
  after : m'.videoTrack.isSome

/-- **A container is stranded**: one of the changes of format in its use was broken off, and no
start has been granted since. -/
inductive Stranded (fresh : Bool) (path : Path) (container : Container) (rotate : Bool) :
    List Operation → History → Muxed → Prop
  | mk {earlier later : List Operation} {format : TrackFormat} {h k l : History} {m₁ m₂ m : Muxed}
      (hearlier : (use fresh path container rotate earlier).Runs h (some (.ok m₁)))
      (hbroken : BrokenOff format m₁ k m₂) (hlater : (operate later m₂).Runs l (some m))
      (hstarts : l.calls.starts = 0) :
      Stranded fresh path container rotate (earlier ++ .formatChanged format :: later)
        (h ++ (k ++ l)) m

/-! ## Moves and starts -/

/-- A container that is not started had not been started before. -/
theorem Move.idle (hm : Move m h m') (hs : m'.state = .idle) : m.state = .idle ∧ h.starts = 0 := by
  cases hm with
  | added _ _ hidle => exact ⟨hidle, rfl⟩
  | gotVideo _ _ hidle => exact ⟨hidle, rfl⟩
  | gotTimes _ hidle => exact ⟨hidle, rfl⟩
  | unstarted _ hidle => exact ⟨hidle, rfl⟩
  | started => cases hs
  | wrote _ _ _ _ _ hstarted => exact absurd (hs.symm.trans hstarted) nofun
  | stopped => cases hs
  | dropped => cases hs

theorem Moves.idle (hm : Moves m h m') (hs : m'.state = .idle) :
    m.state = .idle ∧ h.starts = 0 := by
  induction hm with
  | none => exact ⟨hs, rfl⟩
  | more hm _ ih =>
    obtain ⟨hidle, hrest⟩ := ih hs
    obtain ⟨hfirst, hnone⟩ := hm.idle hidle
    exact ⟨hfirst, by rw [History.starts_append, hnone, hrest]⟩

/-- Without a start a container does not come to run. -/
theorem Move.unstarted_of_starts (hm : Move m h m') (hs : m.state ≠ .started)
    (hn : h.starts = 0) : m'.state ≠ .started := by
  cases hm with
  | started => cases hn
  | stopped => exact nofun
  | dropped => exact nofun
  | _ => exact hs

theorem Moves.unstarted_of_starts (hm : Moves m h m') (hs : m.state ≠ .started)
    (hn : h.starts = 0) : m'.state ≠ .started := by
  induction hm with
  | none => exact hs
  | more hm _ ih =>
    rw [History.starts_append] at hn
    obtain ⟨hfirst, hrest⟩ := Nat.add_eq_zero_iff.1 hn
    exact ih (hm.unstarted_of_starts hs hfirst) hrest

/-- A container that runs has all its tracks. -/
theorem Move.underway (hm : Move m h m') (hs : m.state = .started → m.HasTracks) :
    m'.state = .started → m'.HasTracks := by
  intro hstarted
  cases hm with
  | gotVideo _ _ hidle => exact absurd (hidle.symm.trans hstarted) nofun
  | gotTimes _ hidle => exact absurd (hidle.symm.trans hstarted) nofun
  | started _ ht => exact ⟨ht.video, ht.times⟩
  | stopped => cases hstarted
  | dropped => cases hstarted
  | _ => exact hs hstarted

theorem Moves.underway (hm : Moves m h m') (hs : m.state = .started → m.HasTracks) :
    m'.state = .started → m'.HasTracks := by
  induction hm with
  | none => exact hs
  | more hm _ ih => exact ih (hm.underway hs)

theorem HasTracks.underway (ht : m.HasTracks) (hs : m.state = .started) : m.Underway where
  started := by simp [isStarted, hs]
  video := ht.video
  times := fun hc => ht.times (by simp [keepsTimes, hc])

theorem Moves.keeps_video (hm : Moves m h m') (hv : m.videoTrack.isSome) :
    m'.videoTrack.isSome := by
  obtain ⟨track, hv⟩ := Option.isSome_iff_exists.1 hv
  exact Option.isSome_iff_exists.2 ⟨track, hm.keeps.video track hv⟩

/-! ## How a container gets its video track -/

/-- Only a change of format gives a container its video track. -/
theorem ends_perform_video {o : Operation} (ho : ∀ format, o ≠ .formatChanged format)
    (m : Muxed) : (o.perform m).Ends fun _ m' => m'.videoTrack = m.videoTrack := by
  have hwrote : ∀ {track data time flags h r}, Wrote track data time flags m h r →
      r.2.videoTrack = m.videoTrack := by
    intro track data time flags h r hw
    cases hw <;> rfl
  have hstop : (Muxed.left Muxed.stop m).Ends fun _ m' => m'.videoTrack = m.videoTrack := by
    refine ends_left (ensures_stop.2 ?_)
    split
    · exact fun _ => rfl
    · exact rfl
  cases o with
  | formatChanged format => exact absurd rfl (ho format)
  | addTrack format =>
    refine ends_left ((ends_addTrack format m).ensures fun h r hr => ?_)
    exact congrArg videoTrack hr.1
  | start => exact ends_left ((ends_start m).ensures fun h r hr => hr.1)
  | write track data time flags =>
    exact ends_left ((ends_write track data time flags m).ensures fun h r hw => hwrote hw)
  | writeSample s =>
    refine ends_left ((ends_writeSample s m).ensures fun h r hs => ?_)
    cases hs with
    | early => rfl
    | wrote _ _ hw => exact hwrote hw
  | writeTimes log offset =>
    refine ends_left ((ends_writeTimes log offset m).ensures fun h r hs => ?_)
    cases hs with
    | nothing => rfl
    | wrote _ _ _ _ hw => exact hwrote hw
  | stop | close => exact hstop

theorem runs_left {α : Type} {a : Action Muxed α} (hr : (left a m).Runs h (some m')) :
    ∃ x, (a m).Runs h (some (x, m')) := by
  rcases Program.runs_bind_iff.1 hr with ⟨-, hnone⟩ | ⟨h₁, h₂, ⟨x, _⟩, rfl, h₁r, h₂r⟩
  · cases hnone
  · obtain ⟨rfl, hm⟩ := Program.runs_done_iff.1 h₂r
    cases hm
    rw [List.append_nil]
    exact ⟨x, h₁r⟩

/-- **An operation that gives a container its video track and does not start it** is a change of
format that is broken off. -/
theorem brokenOff_of_perform {o : Operation} (ho : (o.perform m).Runs h (some m'))
    (hv : m.videoTrack = none) (hsome : m'.videoTrack.isSome) (hs : m'.state = .idle) :
    ∃ format, o = .formatChanged format ∧ BrokenOff format m h m' := by
  by_cases hchange : ∃ format, o = .formatChanged format
  · obtain ⟨format, rfl⟩ := hchange
    obtain ⟨x, hr⟩ := runs_left ho
    refine ⟨format, rfl, ?_, hv, hsome⟩
    cases x with
    | error f => exact ⟨f, hr⟩
    | ok _ =>
      have hdone : Reformatted format m h.calls (.ok (), m') := ends_formatChanged format m h _ hr
      generalize h.calls = calls at hdone
      cases hdone with
      | again hv' => simp [hv] at hv'
      | started => cases hs
  · have hsame : m'.videoTrack = m.videoTrack :=
      ends_perform_video (not_exists.1 hchange) m h _ ho
    rw [hsame, hv] at hsome
    cases hsome

/-- What a change of format leaves that is broken off. -/
theorem BrokenOff.idle (hb : BrokenOff format m h m') : m'.state = .idle := by
  obtain ⟨f, hr⟩ := hb.failed
  have hdone : Reformatted format m h.calls (.error f, m') := ends_formatChanged format m h _ hr
  generalize h.calls = calls at hdone
  cases hdone with
  | late _ _ hv => exact absurd hb.after (by simp [hv])
  | noVideo _ _ hs => exact hs
  | noTimes _ _ _ hs => exact hs
  | notStarted _ _ hs ht => cases ht <;> exact hs

/-! ## Stranded containers -/

/-- A container stays stranded until a start is granted. -/
theorem Stranded.next {o : Operation} (hs : Stranded fresh path container rotate operations h m)
    (ho : (o.perform m).Runs k (some m')) (hn : k.calls.starts = 0) :
    Stranded fresh path container rotate (operations ++ [o]) (h ++ k) m' := by
  obtain ⟨hearlier, hbroken, hlater, hstarts⟩ := hs
  rw [List.append_assoc, List.cons_append, List.append_assoc, List.append_assoc]
  refine .mk hearlier hbroken ?_ ?_
  · rw [operate_append, Program.runs_bind_iff]
    rw [← operate_single] at ho
    exact .inr ⟨_, _, _, rfl, hlater, ho⟩
  · rw [History.calls_append, History.starts_append, hstarts, hn]

/-- A container after a use has come there by moves. -/
theorem moves_of_use (hr : (use fresh path container rotate operations).Runs h (some (.ok m))) :
    ∃ calls, Moves (initial path container) calls m := by
  obtain ⟨-, done, -, -, hmoves, -⟩ :=
    ends_use fresh path container rotate operations h _ hr m rfl
  exact ⟨done, hmoves⟩

theorem ends_use_nil : (use fresh path container rotate []).Ends fun _ r =>
    ∀ m, r = .ok m → m = initial path container := by
  refine Program.ensures_bind.2 ((ends_making fresh path container rotate).ensures ?_)
  rintro made ⟨f | m, _⟩ hmade
  · exact Program.ensures_done.2 fun m hm => nomatch hm
  · refine Program.ensures_done.2 ?_
    rintro _ ⟨⟩
    exact (hmade m rfl).2

/-- **Nothing else leaves a container with a video track that was never started.** -/
theorem stranded_of_idle
    (hr : (use fresh path container rotate operations).Runs h (some (.ok m)))
    (hs : m.state = .idle) (hv : m.videoTrack.isSome) :
    Stranded fresh path container rotate operations h m := by
  induction operations using List.reverseRecOn generalizing h m with
  | nil =>
    -- a container that was only made has no track
    obtain rfl := ends_use_nil h _ hr m rfl
    cases hv
  | append_singleton earlier o ih =>
    obtain ⟨h₁, h₂, m₁, rfl, hfirst, hlast⟩ := runs_use_append hr
    rw [operate_single] at hlast
    obtain ⟨_, hmoves⟩ := moves_of_use hfirst
    have hvideo : m₁.VideoFirst := hmoves.videoFirst fun _ => rfl
    obtain ⟨hmoves', -⟩ := ends_perform o hvideo h₂ _ hlast
    obtain ⟨hidle, hstarts⟩ := hmoves'.idle hs
    cases hv₁ : m₁.videoTrack with
    | some video =>
      -- stranded before, and this operation did not start it either
      exact (ih hfirst hidle (by rw [hv₁]; rfl)).next hlast hstarts
    | none =>
      -- the track has come with this operation, which did not get to the start
      obtain ⟨format, rfl, hbroken⟩ := brokenOff_of_perform hlast hv₁ hv hs
      have hnone : (operate [] m).Runs [] (some m) := .done m
      have hstranded := Stranded.mk hfirst hbroken hnone rfl
      rwa [List.append_nil] at hstranded

/-- A stranded container has its video track and does not run. -/
theorem Stranded.unstarted (hs : Stranded fresh path container rotate operations h m) :
    m.videoTrack.isSome ∧ m.state ≠ .started := by
  obtain ⟨-, hbroken, hlater, hstarts⟩ := hs
  rename_i m₂
  -- the change that was broken off got the video track, so no track can come before it any more
  have hvideo : m₂.VideoFirst := fun hn => absurd hbroken.after (by simp [hn])
  obtain ⟨hmoves, -⟩ := ends_operate _ hvideo _ _ hlater
  have hidle : m₂.state ≠ .started := by simp [hbroken.idle]
  exact ⟨hmoves.keeps_video hbroken.after, hmoves.unstarted_of_starts hidle hstarts⟩

/-! ## What success means -/

/-- What a change of format comes to, for a container that is stranded or not. -/
structure Changed (stranded : Prop) (m : Muxed) (h : History) (r : Outcome Unit × Muxed) :
    Prop where
  success : r.1 = .ok () → (Underway r.2 ↔ ¬stranded)
  inert : stranded → h = [] ∧ r = (.ok (), m)

/-- **A container runs after a change of format that succeeds, unless it was stranded.** Whatever
has been done to a container that was not stopped, and whatever its writer answered: it runs and has
all its tracks after a change of format that reports success, except where an earlier change of
format was broken off between its video track and the start, and no start was granted since. There
every change of format reports success, and nothing is asked of the writer. -/
theorem started_unless_stranded
    (hr : (use fresh path container rotate operations).Runs h (some (.ok m)))
    (hs : m.state ≠ .stopped) (format : TrackFormat) :
    (formatChanged format m).Ends
      (Changed (Stranded fresh path container rotate operations h m) m) := by
  refine (ends_formatChanged format m).ensures fun k r hk => ?_
  obtain ⟨_, hmoves⟩ := moves_of_use hr
  have hfirst : m.VideoFirst := hmoves.videoFirst fun _ => rfl
  have hstranded : ∀ {p : Prop}, m.videoTrack = none →
      Stranded fresh path container rotate operations h m → p := by
    intro p hv hn
    exact absurd hn.unstarted.1 (by simp [hv])
  cases hk with
  | again hv =>
    refine ⟨fun _ => ?_, fun _ => ⟨rfl, rfl⟩⟩
    constructor
    · intro hu hn
      exact hn.unstarted.2 (by simpa [isStarted] using hu.started)
    · -- a container with its video track that was not stopped has been started, or is stranded
      intro hn
      cases hstate : m.state with
      | started => exact (hmoves.underway nofun hstate).underway hstate
      | idle => exact absurd (stranded_of_idle hr hstate hv) hn
      | stopped => exact absurd hstate hs
  | @started _ m' hv hidle ht =>
    obtain ⟨-, -, htracks⟩ := ht.moves hidle hv hfirst
    have hrun : HasTracks { m' with state := .started } := ⟨htracks.video, htracks.times⟩
    have hu : Underway { m' with state := .started } := hrun.underway rfl
    exact ⟨fun _ => ⟨fun _ => hstranded hv, fun _ => hu⟩, hstranded hv⟩
  | late _ _ hv => exact ⟨nofun, hstranded hv⟩
  | noVideo _ hv => exact ⟨nofun, hstranded hv⟩
  | noTimes _ _ hv => exact ⟨nofun, hstranded hv⟩
  | notStarted _ hv => exact ⟨nofun, hstranded hv⟩

/-- A recording in an mp4 whose container was not started when the format was told first. -/
theorem started_unless_stranded_refused :
    let told : Operation := .formatChanged (.video videoType 1280 720)
    let p := use true ⟨"a.mp4"⟩ .mpeg4 false [told]
    let h := p.history Obliging.answerUnstarted (.ofEvents [])
    let m : Muxed := ⟨⟨"a.mp4"⟩, .mpeg4, .idle, some 0, some 1⟩
    p.Runs h (some (.ok m)) ∧ m.state ≠ .stopped ∧
      ∀ format, (formatChanged format m).Ends
        (Changed (Stranded true ⟨"a.mp4"⟩ .mpeg4 false [told] h m) m) :=
  ⟨Program.runs_run Obliging.answerUnstarted _ _, nofun,
    started_unless_stranded (Program.runs_run Obliging.answerUnstarted _ _) nofun⟩

/-- **Success without a start.** The first change of format fails because the start is refused. The
second one reports success, and the container, which was not stopped, has its tracks and does not
run. -/
theorem success_unstarted :
    let told : Operation := .formatChanged (.video videoType 1280 720)
    let p := use true ⟨"a.mp4"⟩ .mpeg4 false [told]
    let m : Muxed := ⟨⟨"a.mp4"⟩, .mpeg4, .idle, some 0, some 1⟩
    let again := formatChanged (.video videoType 1280 720) m
    let h := (p.history Obliging.answerUnstarted (.ofEvents [])).calls
    ((p.run Obliging.answerUnstarted (.ofEvents [])).1.bind fun r => r.toOption) = some m ∧
      h.map Exchange.request = [.disk (.remove ⟨"a.mp4"⟩), .muxer (.create ⟨"a.mp4"⟩ .mpeg4),
        .muxer (.addTrack (.video videoType 1280 720)), .muxer (.addTrack .octetStream),
        .muxer .start] ∧
      h.starts = 0 ∧ m.state ≠ .stopped ∧
      (again.history Obliging.answerUnstarted (.ofEvents [])).calls.map Exchange.request = [] ∧
      ((again.run Obliging.answerUnstarted (.ofEvents [])).1.map fun r =>
        (r.1.toOption, r.2.isStarted)) = some (some (), false) := by
  decide +kernel

end Screencast.Muxed
