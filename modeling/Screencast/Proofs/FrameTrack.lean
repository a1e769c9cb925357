import Screencast.Proofs.ClockReadings
import Screencast.Proofs.Containers
import Screencast.Proofs.FrameTimes
import Screencast.Proofs.Tracks
import Screencast.Rehearsal.Obliging

/-!
# The track of the frame times

An mp4 recording that has written pictures writes their times once, in one record behind the last
picture, before the container is told to finish. The times are those of the pictures that the
container has taken, however the loop has ended.

* `Take.Looped.balanced`: as many times are logged as frames are counted.
* `Session.RecordWritten`: the record, read back.
* `Session.frame_times_written`: the whole run.
-/

namespace Screencast

/-- The time since boot and the one on the monotonic clock, as they are read when the draining
begins. -/
def History.bootReadings? (h : History) : Option (Int64 × Int64) :=
  match h.since .draining with
  | _ :: ⟨.clock .sinceBoot, sinceBoot⟩ :: ⟨.clock .monotonic, monotonic⟩ :: _ =>
    some (sinceBoot, monotonic)
  | _ => none

variable {t t' : Take} {h : History}

theorem Sink.keepsTimes_of_face {sink sink' : Sink} (hf : sink'.face = sink.face) :
    sink'.keepsTimes = sink.keepsTimes := by
  cases sink with
  | muxed m =>
    cases sink' with
    | muxed m' =>
      obtain ⟨-, hcontainer⟩ := Sink.Face.muxed.inj hf
      rw [keepsTimes, keepsTimes, Muxed.keepsTimes, Muxed.keepsTimes, hcontainer]
    | raw => cases hf
  | raw =>
    cases sink' with
    | muxed => cases hf
    | raw => rfl

/-! ## The log of the times -/

/-- As many times are logged as frames are counted. -/
def Take.Balanced (t : Take) : Prop := t.sink.keepsTimes = true → t.times.size = t.frames

theorem Take.size_count (t : Take) (time : Int) (hk : t.sink.keepsTimes = true) :
    (t.count time).times.size = t.times.size + 1 := by
  simp only [Take.count, hk, if_true]
  exact List.length_append

theorem Take.Handled.balanced {s : Sample} {x : Outcome Unit} (hb : t.Balanced)
    (hh : Take.Handled s t h (x, t')) : t'.Balanced := by
  have hkeeps := Sink.keepsTimes_of_face hh.face_eq
  intro hk
  have hbalance := hb (hkeeps ▸ hk)
  cases hh with
  | skipped => exact hbalance
  | refused => exact hbalance
  | @written look clock out c time sink =>
    -- parameters of the codec are neither counted nor logged
    unfold Take.after at hk ⊢
    split at hk
    · rename_i hc
      rw [if_pos hc]
      exact hbalance
    · rename_i hc
      rw [if_neg hc]
      exact (Take.size_count { t with capture := c, sink } time hk).trans
        (congrArg (· + 1) hbalance)

theorem Take.Passed.balanced {x : Outcome Bool} (hb : t.Balanced)
    (hp : Take.Passed t h (x, t')) : t'.Balanced := by
  cases hp with
  | reformatted _ hr => exact fun hk => hb (Sink.keepsTimes_of_face hr.face_eq ▸ hk)
  | unformatted _ hr => exact fun hk => hb (Sink.keepsTimes_of_face hr.face_eq ▸ hk)
  | unwritten _ hh => exact hh.balanced hb
  | kept _ _ hh => exact hh.balanced hb
  | last _ hh => exact hh.balanced hb
  | moved _ hh => exact hh.balanced hb
  | _ => exact hb

theorem Take.Looped.balanced {deadline : Int64} {x : Outcome Ending} (hb : t.Balanced)
    (hl : Take.Looped deadline t h (some (x, t'))) : t'.Balanced := by
  generalize hr : some (x, t') = r at hl
  induction hl with
  | spent => cases hr
  | stopped => cases hr; exact hb
  | late => cases hr; exact hb
  | failed _ _ hp => cases hr; exact hp.balanced hb
  | ended _ _ hp => cases hr; exact hp.balanced hb
  | next _ _ hp _ ih => exact ih (hp.balanced hb) hr

/-! ## The record -/

namespace Session

open Rehearsal

variable {s s' : Session} {result : Option (Outcome Recording × Session)}

/-- The record of the frame times, as the calls of a run have written it. Without frames there is
none. Otherwise it is written once after the loop, to the track that was added for it, at the time
of the first frame, and the container is told to finish right after. The times are moved by as much
as the time since boot is ahead of the monotonic clock. -/
inductive RecordWritten (h : History) : List Int → Prop
  | nothing (hw : (h.since .draining).writes = []) : RecordWritten h []
  | record {first : Int} {rest : List Int} {sinceBoot monotonic : Int64} {offset : Int}
      {track : Track} {data : Bytes} {wrote stopped : Outcome Unit}
      (hb : h.bootReadings? = some (sinceBoot, monotonic))
      (ho : offset = microseconds (sinceBoot - monotonic))
      (he : Held ((sinceBoot : Int) - monotonic) →
        offset = ((sinceBoot : Int) - monotonic).tdiv 1000)
      (ht : h.timeTrack? = some track)
      (hm : (h.since .draining).only .muxer =
        [⟨.muxer (.write track data first .empty), wrote⟩, ⟨.muxer .stop, stopped⟩])
      (hd : (first :: rest).length < 2 ^ 32 → FrameTimes.decode data =
        .ok ((first :: rest).map fun time => UInt64.ofInt (time + offset))) :
      RecordWritten h (first :: rest)

/-- The calls of a run have kept the frame times as its format asks. -/
structure TimesKept (format : Format) (h : History)
    (result : Option (Outcome Recording × Session)) : Prop where
  pictures : ∀ w ∈ (h.before .draining).writes, h.videoTrack? = some w.track
  unstopped : (h.before .draining).stops = 0
  record : result ≠ none → format = .mp4 → RecordWritten h (h.before .draining).writtenTimes
  nothing : format ≠ .mp4 → (h.since .draining).writes = []
  told : ∀ recording s, result = some (.ok recording, s) →
    (recording.description.hasFrameTimes = true ↔ (h.since .draining).writes ≠ [])
  counted : ∀ recording s, result = some (.ok recording, s) → format = .mp4 →
    recording.frameCount = UInt64.ofNat (h.before .draining).writtenTimes.length

/-- The output of a session keeps times where its format asks for it. -/
theorem Prepared.keepsTimes {r : Ready} (hp : Prepared s h (.ok r, s')) :
    r.sink.keepsTimes = s.settings.format.hasFrameTimes := by
  cases hc : s.settings.format.container? with
  | some container =>
    obtain ⟨path, hsink⟩ := hp.muxed hc
    rw [hsink]
    cases hf : s.settings.format <;> rw [hf] at hc <;> cases hc <;> rfl
  | none =>
    have hparty := hp.party
    rw [outlet, hc] at hparty
    cases hsink : r.sink with
    | muxed => rw [hsink] at hparty; cases hparty
    | raw => cases hf : s.settings.format <;> rw [hf] at hc <;> cases hc <;> rfl

/-- All that is written before the draining goes to the track of the video. -/
theorem written_to_track (hr : Ran s h result) :
    ∀ w ∈ (h.before .draining).writes, h.videoTrack? = some w.track := by
  cases hc : s.settings.format.container? with
  | some container => exact written_to_video hc hr
  | none =>
    have hw : (h.before .draining).Within (.disk :: .identity :: courseParties s.settings) :=
      fun e he => hr.within e (List.takeWhile_subset _ he)
    rw [hw.writes_eq_nil (by simp [courseParties, outlet, hc])]
    exact fun w hw => absurd hw List.not_mem_nil

variable {m : Muxed} {log : FrameTimes.Log}

/-- The calls that write the frame times into a container: two looks at the clocks, and one write
where there are frames. -/
inductive Timestamped (m : Muxed) (log : FrameTimes.Log) : History → Prop
  | nothing (sinceBoot monotonic : Int64) (hl : log.entries = []) :
      Timestamped m log [⟨.clock .sinceBoot, sinceBoot⟩, ⟨.clock .monotonic, monotonic⟩]
  | record (sinceBoot monotonic : Int64) {first : Int} {rest : List Int} {track : Track}
      (wrote : Outcome Unit) (hl : log.entries = first :: rest) (hs : m.state = .started)
      (ht : m.timeTrack = some track) :
      Timestamped m log
        [⟨.clock .sinceBoot, sinceBoot⟩, ⟨.clock .monotonic, monotonic⟩,
          ⟨.muxer (.write track (log.record (microseconds (sinceBoot - monotonic))) first .empty),
            wrote⟩]

/-- A container that has its tracks as soon as there are frames takes their times. -/
theorem Stamped.timestamped {x : Outcome Unit} {sink : Sink} (hk : m.keepsTimes = true)
    (hm : log.entries ≠ [] → m.state = .started ∧ ∃ track, m.timeTrack = some track)
    (hs : Stamped log (.muxed m) h (x, sink)) : sink = .muxed m ∧ Timestamped m log h := by
  cases hs with
  | unkept hn => cases hk.symm.trans hn
  | kept sinceBoot monotonic _ hs =>
    cases hs with
    | muxed hs =>
      cases hl : log.entries with
      | nil =>
        have hfirst : log.first? = none := by rw [FrameTimes.Log.first?, hl]; rfl
        cases hs with
        | nothing => exact ⟨rfl, .nothing sinceBoot monotonic hl⟩
        | wrote _ _ _ hn => rw [hfirst] at hn; cases hn
      | cons first rest =>
        have hfirst : log.first? = some first := by rw [FrameTimes.Log.first?, hl]; rfl
        obtain ⟨hstate, track, htrack⟩ := hm (by rw [hl]; exact List.cons_ne_nil _ _)
        -- nothing is written without a track or without a first time, and here are both
        cases hs with
        | nothing hn =>
          rcases hn with hn | hn
          · rw [htrack] at hn; cases hn
          · rw [hfirst] at hn; cases hn
        | wrote told told' ht hf hw =>
          obtain rfl := Option.some.inj (hfirst.symm.trans hf)
          cases hw with
          | refused _ _ hn => exact absurd hstate hn
          | handed => exact ⟨rfl, .record sinceBoot monotonic x hl hstate ht⟩

theorem GivenBack.only_muxer {x : Outcome Unit} (hm : m.state = .started)
    (hb : GivenBack s (.muxed m) h (x, s')) :
    ∃ stopped, h.only .muxer = [⟨.muxer .stop, stopped⟩] := by
  obtain @⟨_, _, _, _, e, _, hs, hc⟩ := hb
  rw [History.only_append, History.only_append, History.only_append,
    Capture.closing_within.only_eq_nil (by simp), hs.within.only_eq_nil (by simp),
    Encoder.freeing_within.only_eq_nil (by simp), List.nil_append, List.append_nil]
  cases hc with
  | stopped => exact ⟨x, rfl⟩
  | unstarted _ hn => exact absurd hm hn

/-! ## The whole run -/

section Drained

variable {setUp loop times back rest last : History} {r : Ready} {s'' : Session} {sink : Sink}
  {looped : Outcome Ending} {timed closed : Outcome Unit} {x : Outcome Recording}
  {started nanos : Int64}

/-- After the loop nothing is written but the frame times. -/
theorem writes_of_tail (times : History) (hb : GivenBack s sink back (closed, s'))
    (hr : rest.Within [.disk, .identity]) (hlast : last.Within [.watcher]) :
    History.writes (entered .draining :: (times ++ back ++ rest ++ last)) = times.writes := by
  have htail : History.writes (times ++ back ++ rest ++ last) = times.writes := by
    rw [History.writes_append, History.writes_append, History.writes_append,
      hb.quiet.writes_eq_nil, hr.writes_eq_nil (by simp), hlast.writes_eq_nil (by simp),
      List.append_nil, List.append_nil, List.append_nil]
  exact htail

theorem only_muxer_of_tail (hr : rest.Within [.disk, .identity]) (hlast : last.Within [.watcher]) :
    History.only .muxer (entered .draining :: (times ++ back ++ rest ++ last)) =
      times.only .muxer ++ back.only .muxer := by
  have htail : History.only .muxer (times ++ back ++ rest ++ last) =
      times.only .muxer ++ back.only .muxer := by
    rw [History.only_append, History.only_append, History.only_append,
      hr.only_eq_nil (by simp), hlast.only_eq_nil (by simp), List.append_nil, List.append_nil]
  exact htail

theorem writtenTimes_of_drained (nanos : Int64) (tail : History)
    (hp : Prepared s setUp (.ok r, s'))
    (hl : (s'.taking r).Looped (s'.deadline started) loop (some (looped, t))) :
    ((lead setUp started ++ loop ++ [Take.clocked nanos] ++
      entered .draining :: tail).before .draining).writtenTimes = loop.writtenTimes := by
  have hclock : History.Quiet [Take.clocked nanos] := by simp [Exchange.carries]
  rw [before_of_drained nanos tail hp hl, History.writtenTimes_append, History.writtenTimes_append,
    (lead_quiet hp).writtenTimes_eq_nil, hclock.writtenTimes_eq_nil, List.nil_append,
    List.append_nil]

/-- After the loop of an mp4 recording its container is written to as the log of the times asks. The
log is that of the pictures that were written, and where there are some the container has its
tracks. -/
theorem timestamped_of_drained (hf : s.settings.format = .mp4)
    (hp : Prepared s.begun setUp (.ok r, s'))
    (hl : (s'.taking r).Looped (s'.deadline started) loop (some (looped, t)))
    (ht : Stamped t.times t.sink times (timed, sink)) :
    ∃ m, sink = .muxed m ∧ m.keepsTimes = true ∧ t.times.entries = loop.writtenTimes ∧
      Timestamped m t.times times ∧ (t.times.entries ≠ [] → m.Tracking loop) := by
  have hc : s.begun.settings.format.container? = some .mpeg4 := by
    have hformat : s.begun.settings.format = .mp4 := hf
    rw [hformat]
    rfl
  obtain ⟨path, hsink⟩ := hp.muxed hc
  obtain ⟨⟨m, hm, htrack⟩, hentries⟩ := (hl.followed hsink ⟨rfl, rfl⟩).2 looped t rfl
  have hlog : t.times.entries = loop.writtenTimes := hentries rfl
  have hkeeps : t.sink.keepsTimes = true := by
    rw [Sink.keepsTimes_of_face hl.face_eq, taking, hsink]
    rfl
  rw [hm] at ht hkeeps
  -- a container that has taken a picture was told of its tracks before
  have htracks : t.times.entries ≠ [] → m.Tracking loop := by
    intro hn
    refine htrack fun hw => hn ?_
    rw [hlog, History.writtenTimes, hw]
    rfl
  obtain ⟨hsame, hstamped⟩ := ht.timestamped (m := m) hkeeps fun hn =>
    ⟨(htracks hn).state, ((htracks hn).times hkeeps).imp fun _ h => h.1⟩
  exact ⟨m, hsame, hkeeps, hlog, hstamped, htracks⟩

/-- After the loop of an mp4 recording the record is written, where there are frames. -/
theorem record_of_drained (nanos : Int64) (hf : s.settings.format = .mp4)
    (hp : Prepared s.begun setUp (.ok r, s'))
    (hl : (s'.taking r).Looped (s'.deadline started) loop (some (looped, t)))
    (ht : Stamped t.times t.sink times (timed, sink))
    (hb : GivenBack (s'.drained t) sink back (closed, s''))
    (hr : rest.Within [.disk, .identity]) (hlast : last.Within [.watcher]) :
    RecordWritten (lead setUp started ++ loop ++ [Take.clocked nanos] ++
        entered .draining :: (times ++ back ++ rest ++ last)) loop.writtenTimes ∧
      (times.writes ≠ [] ↔ loop.writtenTimes ≠ []) ∧
        t.times.entries = loop.writtenTimes ∧ sink.keepsTimes = true := by
  obtain ⟨m, rfl, hkeeps, hlog, hstamped, htracks⟩ := timestamped_of_drained hf hp hl ht
  refine ⟨?_, ?_, hlog, hkeeps⟩
  · cases hstamped with
    | nothing sinceBoot monotonic hnone =>
      rw [← hlog, hnone]
      refine .nothing ?_
      rw [since_of_drained nanos _ hp hl, writes_of_tail _ hb hr hlast]
      rfl
    | @record sinceBoot monotonic first others track wrote hfirst hstate htold =>
      obtain ⟨stopped, hstop⟩ := hb.only_muxer hstate
      have hwritten : t.times.entries ≠ [] := by
        rw [hfirst]
        exact List.cons_ne_nil _ _
      obtain ⟨told, htime, hadded⟩ := (htracks hwritten).times hkeeps
      obtain rfl := Option.some.inj (htold.symm.trans htime)
      -- the record is of the logged times, and these are the times of what was written
      rw [← hlog, hfirst]
      have htold : (lead setUp started ++ loop).timeTrack? = some track := by
        rw [(lead_idle hp).unformatted.timeTrack?_append]
        exact hadded
      have hdecode : (first :: others).length < 2 ^ 32 →
          FrameTimes.decode (t.times.record (microseconds (sinceBoot - monotonic))) =
            .ok ((first :: others).map fun time =>
              UInt64.ofInt (time + microseconds (sinceBoot - monotonic))) := by
        intro hn
        rw [FrameTimes.Log.record, hfirst]
        exact FrameTimes.decode_encode_of_lt hn
      refine .record (?_ : _ = some (sinceBoot, monotonic)) rfl microseconds_sub
        (History.timeTrack?_append (History.timeTrack?_append htold))
        (?_ : _ = ([⟨.muxer (.write track _ first .empty), wrote⟩, ⟨.muxer .stop, stopped⟩] :
          History)) hdecode
      · rw [History.bootReadings?, since_of_drained nanos _ hp hl]
        rfl
      · rw [since_of_drained nanos _ hp hl, only_muxer_of_tail hr hlast, hstop]
        rfl
  · rw [← hlog]
    cases hstamped with
    | nothing _ _ hnone => simp [hnone, History.writes, Exchange.write?]
    | record _ _ _ hfirst => simp [hfirst, History.writes, Exchange.write?]

/-- With another format than mp4 no times are kept. -/
theorem stamped_unkept (hf : s.settings.format ≠ .mp4) (hp : Prepared s.begun setUp (.ok r, s'))
    (hl : (s'.taking r).Looped (s'.deadline started) loop (some (looped, t)))
    (ht : Stamped t.times t.sink times (timed, sink)) : times = [] ∧ sink.keepsTimes = false := by
  have hkeeps : t.sink.keepsTimes = false := by
    rw [Sink.keepsTimes_of_face hl.face_eq, taking, hp.keepsTimes]
    exact beq_false_of_ne hf
  cases ht with
  | unkept => exact ⟨rfl, hkeeps⟩
  | kept _ _ hk => cases hk.symm.trans hkeeps

end Drained

/-- **What a run has kept of the frame times.** -/
theorem timesKept_of_ran (hr : Ran s h result) : TimesKept s.settings.format h result := by
  have htrack := written_to_track hr
  have hstops := (containerFinished_of_ran hr).unstopped
  cases hr.course with
  | unlooped hu =>
    refine ⟨htrack, hstops, fun _ _ => ?_, fun _ => ?_, fun _ _ h => (by cases h),
      fun _ _ h => (by cases h)⟩
    · rw [History.before_of_notOpened hu.notOpened, hu.quiet.writtenTimes_eq_nil]
      refine .nothing ?_
      rw [History.since_of_notOpened hu.notOpened]
      rfl
    · rw [History.since_of_notOpened hu.notOpened]
      rfl
  | unfinished hp hl =>
    refine ⟨htrack, hstops, fun h => absurd rfl h, fun _ => ?_, fun _ _ h => (by cases h),
      fun _ _ h => (by cases h)⟩
    rw [History.since_of_notOpened (unfinished_notOpened hp hl)]
    rfl
  | @drained setUp loop times back rest last r s' s'' t sink looped timed closed x started nanos
      hp hl ht hb hs hlast =>
    have hrest := hs.within
    have htimes := writtenTimes_of_drained nanos (times ++ back ++ rest ++ last) hp hl
    have hsince := since_of_drained nanos (times ++ back ++ rest ++ last) hp hl
    have hwrites := writes_of_tail times hb hrest hlast
    have hbalance : t.Balanced := hl.balanced fun _ => rfl
    by_cases hf : s.settings.format = .mp4
    · obtain ⟨hrecord, hwritten, hlog, hkeeps⟩ :=
        record_of_drained nanos hf hp hl ht hb hrest hlast
      refine ⟨htrack, hstops, fun _ _ => ?_, fun h => absurd hf h, fun recording s₁ h => ?_,
        fun recording s₁ h _ => ?_⟩
      · rw [htimes]
        exact hrecord
      · obtain ⟨rfl, -⟩ := Prod.mk.inj (Option.some.inj h)
        rw [hs.frames.2, hkeeps, hsince, hwrites, hwritten, ← hlog, FrameTimes.Log.size]
        simp [List.length_pos_iff]
      · obtain ⟨rfl, -⟩ := Prod.mk.inj (Option.some.inj h)
        have hface : sink.keepsTimes = t.sink.keepsTimes :=
          Sink.keepsTimes_of_face ht.face_eq
        rw [hs.frames.1, ← hbalance (hface ▸ hkeeps), htimes, ← hlog, FrameTimes.Log.size]
    · obtain ⟨rfl, hkeeps⟩ := stamped_unkept hf hp hl ht
      refine ⟨htrack, hstops, fun _ h => absurd h hf, fun _ => ?_, fun recording s₁ h => ?_,
        fun _ _ _ h => absurd h hf⟩
      · rw [hsince, hwrites]
        rfl
      · obtain ⟨rfl, -⟩ := Prod.mk.inj (Option.some.inj h)
        rw [hs.frames.2, hkeeps, hsince, hwrites]
        simp [History.writes]

/-- **The frame times are kept.** In any run the loop writes to the track of the video only, and
does not end the container. Once an mp4 run has ended, however it has, the times of what was written
are in one record at the time of the first, behind all pictures and before the container is told to
finish; without frames there is none. A run with another format never writes one. A run that ends
well tells whether there is a record, and has as many frames as it has times. -/
theorem frame_times_written {settings : Settings} {hasMuxer : Bool} {output : Option Raw}
    {passes : Nat} (hr : (run passes (ofSettings settings hasMuxer output)).Runs h result) :
    TimesKept settings.format h.calls result :=
  timesKept_of_ran (ensures_run passes _ h result hr)

/-- A recording of two pictures, the first without a time. -/
theorem frame_times_written_obliging :
    let p := run 9 (ofSettings .standard true none)
    let device := Obliging.ofEvents [.formatChanged, .buffer ⟨0, 1, 2, 0, .empty⟩,
      .buffer ⟨1, 0, 4, 7, .keyFrame⟩]
    let h := (p.history Obliging.answer device).calls
    (h.since .draining).writes = [⟨1, ⟨FrameTimes.encode [5, 7] 4, 5, .empty⟩, .ok ()⟩] ∧
      TimesKept Settings.standard.format h (p.run Obliging.answer device).1 :=
  ⟨by decide +kernel, frame_times_written (Program.runs_run _ _ _)⟩

end Session

end Screencast
