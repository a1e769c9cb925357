import Screencast.Proofs.Ensures
import Screencast.Sink.Basic

/-!
# The conduct of the outputs

What the two kinds of output ask of the container writer, of a stream and of the disk.

* `Muxed.Created`, `Muxed.Reformatted`, `Muxed.Wrote`: a container from its file to its samples.
* `Raw.Opened`, `Raw.Took`: the bare stream, and `Stream.Wrote` for its bytes.
* `Sink.ensures_either`: whichever output it is.
-/

namespace Screencast

namespace Muxed

variable {m : Muxed}

/-- A write to a track. -/
inductive Wrote (track : Track) (data : Bytes) (time : Int) (flags : Flags) (m : Muxed) :
    History → Outcome Unit × Muxed → Prop
  | refused (f : Failure) (hf : f.stage = .muxer) (hs : m.state ≠ .started) :
      Wrote track data time flags m [] (.error f, m)
  | handed (answer : Outcome Unit) (hs : m.state = .started) :
      Wrote track data time flags m [⟨.muxer (.write track data time flags), answer⟩]
        (answer, m)

theorem ends_write (track : Track) (data : Bytes) (time : Int) (flags : Flags) (m : Muxed) :
    (write track data time flags m).Ends (Wrote track data time flags m) := by
  unfold write
  simp only [Action.ensures_bind, Action.ensures_get, Action.after_ok]
  cases hs : m.state with
  | idle => exact Action.ensures_fail.2 (.refused _ rfl (by simp [hs]))
  | stopped => exact Action.ensures_fail.2 (.refused _ rfl (by simp [hs]))
  | started =>
    simp only [ask, Program.request, Action.ensures_attempt, Program.ensures_ask,
      Program.ensures_done, Exchange.call, Option.map_some, List.append_nil, List.nil_append]
    exact fun answer => .handed answer hs

theorem Wrote.within {track : Track} {data : Bytes} {time : Int} {flags : Flags} {h : History}
    {r : Outcome Unit × Muxed} (hw : Wrote track data time flags m h r) : h.Within [.muxer] := by
  cases hw <;> simp [Exchange.party]

/-- A sample of the video. -/
inductive Sent (s : Sample) (m : Muxed) : History → Outcome Unit × Muxed → Prop
  | early (f : Failure) (hf : f.stage = .muxer) (hv : m.videoTrack = none) :
      Sent s m [] (.error f, m)
  | wrote {h : History} {r : Outcome Unit × Muxed} (track : Track)
      (hv : m.videoTrack = some track) (hw : Wrote track s.payload s.time s.flags m h r) :
      Sent s m h r

theorem ends_writeSample (s : Sample) (m : Muxed) : (writeSample s m).Ends (Sent s m) := by
  unfold writeSample
  simp only [Action.ensures_bind, Action.ensures_get, Action.after_ok]
  cases hv : m.videoTrack with
  | none => exact Action.ensures_fail.2 (.early _ rfl hv)
  | some track => exact (ends_write _ _ _ _ m).ensures fun h r hw => .wrote track hv hw

theorem Sent.within {s : Sample} {h : History} {r : Outcome Unit × Muxed} (hs : Sent s m h r) :
    h.Within [.muxer] := by
  cases hs with
  | early => simp
  | wrote _ _ hw => exact hw.within

/-- The record of the frame times. -/
inductive Stamped (log : FrameTimes.Log) (offset : Int) (m : Muxed) :
    History → Outcome Unit × Muxed → Prop
  | nothing (hn : m.timeTrack = none ∨ log.first? = none) :
      Stamped log offset m [] (.ok (), m)
  | wrote {h : History} {r : Outcome Unit × Muxed} (track : Track) (first : Int)
      (ht : m.timeTrack = some track) (hl : log.first? = some first)
      (hw : Wrote track (log.record offset) first .empty m h r) : Stamped log offset m h r

theorem ends_writeTimes (log : FrameTimes.Log) (offset : Int) (m : Muxed) :
    (writeTimes log offset m).Ends (Stamped log offset m) := by
  unfold writeTimes
  simp only [Action.ensures_bind, Action.ensures_get, Action.after_ok]
  cases ht : m.timeTrack with
  | none => exact Action.ensures_pure.2 (.nothing (.inl ht))
  | some track =>
    cases hl : log.first? with
    | none => exact Action.ensures_pure.2 (.nothing (.inr hl))
    | some first =>
      simp only [Action.ensures_bind, Action.ensures_lift, Program.ensures_report,
        Option.map_some, Action.after_ok, List.nil_append]
      exact (ends_write _ _ _ _ m).ensures fun h r hw => .wrote track first ht hl hw

theorem Stamped.within {log : FrameTimes.Log} {offset : Int} {h : History}
    {r : Outcome Unit × Muxed} (hs : Stamped log offset m h r) : h.Within [.muxer] := by
  cases hs with
  | nothing => simp
  | wrote _ _ _ _ hw => exact hw.within

/-- The tracks that a container gets, one for the video and in an mp4 one for the frame times. -/
inductive Tracked (format : TrackFormat) (m : Muxed) : History → Muxed → Prop
  | video (video : Track) (hk : m.keepsTimes = false) :
      Tracked format m [⟨.muxer (.addTrack format), .ok video⟩]
        { m with videoTrack := some video }
  | both (video times : Track) (hk : m.keepsTimes = true) :
      Tracked format m
        [⟨.muxer (.addTrack format), .ok video⟩, ⟨.muxer (.addTrack .octetStream), .ok times⟩]
        { m with videoTrack := some video, timeTrack := some times }

theorem Tracked.within {format : TrackFormat} {h : History} {m' : Muxed}
    (ht : Tracked format m h m') : h.Within [.muxer] := by
  cases ht <;> simp [Exchange.party]

/-- The answer to a format told by the encoder. -/
inductive Reformatted (format : TrackFormat) (m : Muxed) :
    History → Outcome Unit × Muxed → Prop
  | again (hv : m.videoTrack.isSome) : Reformatted format m [] (.ok (), m)
  | late (f : Failure) (hf : f.stage = .muxer) (hv : m.videoTrack = none)
      (hs : m.state ≠ .idle) : Reformatted format m [] (.error f, m)
  | noVideo (f : Failure) (hv : m.videoTrack = none) (hs : m.state = .idle) :
      Reformatted format m [⟨.muxer (.addTrack format), .error f⟩] (.error f, m)
  | noTimes (video : Track) (f : Failure) (hv : m.videoTrack = none) (hs : m.state = .idle)
      (hk : m.keepsTimes = true) :
      Reformatted format m
        [⟨.muxer (.addTrack format), .ok video⟩, ⟨.muxer (.addTrack .octetStream), .error f⟩]
        (.error f, { m with videoTrack := some video })
  | notStarted {h : History} {m' : Muxed} (f : Failure) (hv : m.videoTrack = none)
      (hs : m.state = .idle) (ht : Tracked format m h m') :
      Reformatted format m (h ++ [⟨.muxer .start, .error f⟩]) (.error f, m')
  | started {h : History} {m' : Muxed} (hv : m.videoTrack = none) (hs : m.state = .idle)
      (ht : Tracked format m h m') :
      Reformatted format m (h ++ [⟨.muxer .start, .ok ()⟩])
        (.ok (), { m' with state := .started })

theorem Reformatted.within {format : TrackFormat} {h : History} {r : Outcome Unit × Muxed}
    (hr : Reformatted format m h r) : h.Within [.muxer] := by
  cases hr with
  | notStarted _ _ _ ht => simp [ht.within, Exchange.party]
  | started _ _ ht => simp [ht.within, Exchange.party]
  | _ => simp [Exchange.party]

theorem Reformatted.quiet {format : TrackFormat} {h : History} {r : Outcome Unit × Muxed}
    (hr : Reformatted format m h r) : h.Quiet := by
  have htracked : ∀ {k m'}, Tracked format m k m' → History.Quiet k := by
    intro k m' hk
    cases hk <;> simp [Exchange.carries]
  cases hr with
  | notStarted _ _ _ ht => simp [htracked ht, Exchange.carries]
  | started _ _ ht => simp [htracked ht, Exchange.carries]
  | _ => simp [Exchange.carries]

theorem ensures_addTrack {format : TrackFormat} (hs : m.state = .idle)
    {Q : History → Option (Outcome Track × Muxed) → Prop} :
    (addTrack format m).Ensures Q ↔
      ∀ answer, Q [⟨.muxer (.addTrack format), answer⟩] (some (answer, m)) := by
  unfold addTrack
  simp only [Action.ensures_bind, Action.ensures_get, Action.after_ok]
  rw [if_neg (by simp [hs])]
  simp only [ask, Program.request, Action.ensures_attempt, Program.ensures_ask,
    Program.ensures_done, Exchange.call, Option.map_some, List.nil_append, List.append_nil]

theorem ensures_start (hs : m.state = .idle) (hv : m.videoTrack.isSome)
    (ht : m.keepsTimes = true → m.timeTrack.isSome)
    {Q : History → Option (Outcome Unit × Muxed) → Prop} :
    (start m).Ensures Q ↔
      (∀ f, Q [⟨.muxer .start, .error f⟩] (some (.error f, m))) ∧
        Q [⟨.muxer .start, .ok ()⟩] (some (.ok (), { m with state := .started })) := by
  unfold start
  simp only [Action.ensures_bind, Action.ensures_get, Action.after_ok, hs]
  have hv' : ¬m.videoTrack.isNone = true := by simp [Option.isSome_iff_ne_none.1 hv]
  have ht' : ¬(m.keepsTimes = true ∧ m.timeTrack.isNone = true) := by
    rintro ⟨hk, hn⟩
    have := ht hk
    simp [Option.isNone_iff_eq_none.1 hn] at this
  rw [if_neg hv', if_neg ht']
  simp only [ask, Program.request, Action.ensures_bind, Action.ensures_attempt,
    Action.ensures_modify, Program.ensures_ask, Program.ensures_done, Exchange.call,
    forall_outcome, Option.map_some, Action.after_ok, Action.after_error, List.nil_append,
    List.append_nil]
  exact and_congr_right fun _ => ⟨fun h => h (), fun h _ => h⟩

theorem ends_formatChanged (format : TrackFormat) (m : Muxed) :
    (formatChanged format m).Ends (Reformatted format m) := by
  unfold formatChanged
  simp only [Action.ensures_bind, Action.ensures_get, Action.after_ok]
  split
  · rename_i hv
    simp only [Action.ensures_lift, Program.ensures_report, Option.map_some, List.append_nil]
    exact .again hv
  rename_i hv
  have hv' : m.videoTrack = none := by simpa using hv
  simp only [Action.ensures_bind, List.nil_append]
  by_cases hs : m.state = .idle
  · simp only [ensures_addTrack hs, forall_outcome, Action.after_error, Action.after_ok,
      Action.ensures_bind, Action.ensures_modify, List.nil_append]
    refine ⟨fun f => .noVideo f hv' hs, fun video => ?_⟩
    split
    · rename_i hk
      rw [Action.ensures_bind]
      refine (ensures_addTrack (m := { m with videoTrack := some video }) hs).2 ?_
      simp only [forall_outcome, Action.after_error, Action.after_ok, Action.ensures_bind,
        Action.ensures_modify, List.nil_append, List.cons_append]
      refine ⟨fun f => .noTimes video f hv' hs hk, fun times => ?_⟩
      refine (ensures_start (m := { m with videoTrack := some video, timeTrack := some times })
        hs rfl fun _ => rfl).2 ?_
      exact ⟨fun f => .notStarted f hv' hs (.both video times hk),
        .started hv' hs (.both video times hk)⟩
    · rename_i hk
      have hk' : m.keepsTimes = false := by simpa using hk
      refine (ensures_start (m := { m with videoTrack := some video })
        hs rfl fun h => absurd h hk).2 ?_
      exact ⟨fun f => .notStarted f hv' hs (.video video hk'),
        .started hv' hs (.video video hk')⟩
  · have hlate : (addTrack format m).Ensures fun h r =>
        h = [] ∧ ∃ f : Failure, f.stage = .muxer ∧ r = some (.error f, m) := by
      unfold addTrack
      simp only [Action.ensures_bind, Action.ensures_get, Action.after_ok]
      rw [if_pos hs]
      exact Action.ensures_fail.2 ⟨rfl, _, rfl, rfl⟩
    refine hlate.mono fun h r hr => ?_
    obtain ⟨rfl, f, hf, rfl⟩ := hr
    exact .late f hf hv' hs

/-- The end of a container. -/
theorem ensures_stop {Q : History → Option (Outcome Unit × Muxed) → Prop} :
    (stop m).Ensures Q ↔
      if m.state = .started then
        ∀ answer, Q [⟨.muxer .stop, answer⟩] (some (answer, { m with state := .stopped }))
      else Q [] (some (.ok (), { m with state := .stopped })) := by
  unfold stop
  simp only [Action.ensures_bind, Action.ensures_get, Action.ensures_set, Action.after_ok]
  cases hs : m.state with
  | idle =>
    simp only [Action.ensures_lift, Program.ensures_report, Option.map_some, List.append_nil,
      reduceCtorEq, if_false]
  | stopped => simp only [Action.ensures_pure, List.append_nil, reduceCtorEq, if_false]
  | started =>
    simp only [ask, Program.request, Action.ensures_attempt, Program.ensures_ask,
      Program.ensures_done, Exchange.call, Option.map_some, List.nil_append, List.append_nil,
      if_true]

/-- The removal of what was at the path of a container. -/
inductive Cleared (path : Path) : History → Prop
  | removed : Cleared path [⟨.disk (.remove path), .ok ()⟩]
  | absent : Cleared path [⟨.disk (.remove path), .error .notFound⟩]

/-- The making of a container in place of what was at its path. -/
inductive Created (path : Path) (container : Container) (rotate : Bool) :
    History → Outcome Muxed → Prop
  | kept (r : Disk.Refusal) (f : Failure) (hf : f.stage = .storage) (hr : r ≠ .notFound) :
      Created path container rotate [⟨.disk (.remove path), .error r⟩] (.error f)
  | refused {h : History} (f : Failure) (hc : Cleared path h) :
      Created path container rotate (h ++ [⟨.muxer (.create path container), .error f⟩])
        (.error f)
  | unturned {h : History} (f : Failure) (hr : rotate = true) (hc : Cleared path h) :
      Created path container rotate
        (h ++ [⟨.muxer (.create path container), .ok ()⟩,
          ⟨.muxer (.orientationHint 90), .error f⟩]) (.error f)
  | turned {h : History} (hr : rotate = true) (hc : Cleared path h) :
      Created path container rotate
        (h ++ [⟨.muxer (.create path container), .ok ()⟩, ⟨.muxer (.orientationHint 90), .ok ()⟩])
        (.ok ⟨path, container, .idle, none, none⟩)
  | made {h : History} (hr : rotate = false) (hc : Cleared path h) :
      Created path container rotate (h ++ [⟨.muxer (.create path container), .ok ()⟩])
        (.ok ⟨path, container, .idle, none, none⟩)

theorem Created.within {path : Path} {container : Container} {rotate : Bool} {h : History}
    {x : Outcome Muxed} (hc : Created path container rotate h x) :
    h.Within [.disk, .muxer] := by
  have hcleared : ∀ {k}, Cleared path k → History.Within [.disk, .muxer] k := by
    intro k hk
    cases hk <;> simp [Exchange.party]
  cases hc with
  | kept => simp [Exchange.party]
  | refused _ hc => simp [hcleared hc, Exchange.party]
  | unturned _ _ hc => simp [hcleared hc, Exchange.party]
  | turned _ hc => simp [hcleared hc, Exchange.party]
  | made _ hc => simp [hcleared hc, Exchange.party]

theorem Created.quiet {path : Path} {container : Container} {rotate : Bool} {h : History}
    {x : Outcome Muxed} (hc : Created path container rotate h x) : h.Quiet := by
  have hcleared : ∀ {k}, Cleared path k → History.Quiet k := by
    intro k hk
    cases hk <;> simp [Exchange.carries]
  cases hc with
  | kept => simp [Exchange.carries]
  | refused _ hc => simp [hcleared hc, Exchange.carries]
  | unturned _ _ hc => simp [hcleared hc, Exchange.carries]
  | turned _ hc => simp [hcleared hc, Exchange.carries]
  | made _ hc => simp [hcleared hc, Exchange.carries]

variable {σ : Type}

theorem ends_create (path : Path) (container : Container) (rotate : Bool) (s : σ) :
    (create path container rotate s).Ends fun h r =>
      r.2 = s ∧ Created path container rotate h r.1 := by
  have hmake : ∀ k, Cleared path k →
      ((do Action.attempt (ask (.create path container)); make path container rotate :
        Action σ Muxed) s).Ends fun h r =>
          r.2 = s ∧ Created path container rotate (k ++ h) r.1 := by
    intro k hk
    simp only [ask, Program.request, Action.ensures_bind, Action.ensures_attempt,
      Program.ensures_ask, Program.ensures_done, Exchange.call, forall_outcome, Option.map_some,
      Action.after_ok, Action.after_error, List.append_nil]
    refine ⟨fun f => ⟨rfl, .refused f hk⟩, fun _ => ?_⟩
    unfold make
    split
    · rename_i hr
      simp only [ask, Program.request, Action.ensures_bind, Action.ensures_attempt,
        Program.ensures_ask, Program.ensures_done, Exchange.call, forall_outcome,
        Option.map_some, Action.after_ok, Action.after_error, Action.ensures_pure,
        List.cons_append, List.nil_append]
      exact ⟨fun f => ⟨rfl, .unturned f hr hk⟩, fun _ => ⟨rfl, .turned hr hk⟩⟩
    · rename_i hr
      simp only [Action.ensures_pure, List.append_nil]
      exact ⟨rfl, .made (by simpa using hr) hk⟩
  unfold create clear
  simp only [Program.request, Action.ensures_bind, Action.ensures_lift, Program.ensures_ask,
    Program.ensures_done, Exchange.call, Option.map_some, Action.after_ok, List.append_nil]
  rintro (r | _)
  · cases r with
    | notFound =>
      simp only [Action.ensures_pure, Action.after_ok, List.append_nil]
      exact (hmake _ .absent).ensures fun h r hr => hr
    | _ => exact Action.ensures_fail.2 ⟨rfl, .kept _ _ rfl (by simp)⟩
  · simp only [Action.ensures_lift, Program.ensures_report, Option.map_some, Action.after_ok,
      List.append_nil]
    exact (hmake _ .removed).ensures fun h r hr => hr

end Muxed

namespace Stream

/-- A write of all bytes, as far as the stream takes them. -/
inductive Wrote (s : Stream) : Bytes → History → Except String Unit → Prop
  | nothing : Wrote s [] [] (.ok ())
  | failed {bytes : Bytes} (text : String) (hb : bytes ≠ []) :
      Wrote s bytes [⟨.stream (.write s bytes), .error text⟩] (.error text)
  | stuck {bytes : Bytes} (hb : bytes ≠ []) :
      Wrote s bytes [⟨.stream (.write s bytes), .ok 0⟩] (.error "failed to write whole buffer")
  | took {bytes : Bytes} {h : History} {r : Except String Unit} (taken : Fin (bytes.length + 1))
      (ht : 0 < taken.val) (hw : Wrote s (bytes.drop taken.val) h r) :
      Wrote s bytes (⟨.stream (.write s bytes), .ok taken⟩ :: h) r

theorem Wrote.within {s : Stream} {bytes : Bytes} {h : History} {x : Except String Unit}
    (hw : s.Wrote bytes h x) : h.Within [.stream] := by
  induction hw with
  | took taken _ _ ih => simp [ih, Exchange.party]
  | _ => simp [Exchange.party]

theorem ends_writeFully (s : Stream) (bytes : Bytes) :
    (s.writeFully bytes).Ends (Wrote s bytes) := by
  induction hn : bytes.length using Nat.strongRecOn generalizing bytes with
  | _ n ih =>
    rw [writeFully]
    split
    · rename_i hb
      rw [List.isEmpty_iff.1 hb]
      exact Program.ensures_done.2 .nothing
    rename_i hb
    have hb' : bytes ≠ [] := by simpa using hb
    simp only [Program.ensures_ask, Exchange.call]
    rintro (text | taken)
    · exact Program.ensures_done.2 (.failed text hb')
    simp only
    split
    · rename_i ht
      have hlt : (bytes.drop taken.val).length < n := by
        have := List.length_pos_iff.2 hb'
        simp only [List.length_drop]; omega
      exact (ih _ hlt _ rfl).ensures fun h r hw => .took taken ht.1 hw
    · rename_i ht
      have h0 : taken = 0 := by
        apply Fin.ext
        simpa [hb'] using ht
      subst h0
      exact Program.ensures_done.2 (.stuck hb')

end Stream

namespace Raw

variable {r : Raw}

/-- The passing on of bytes. -/
inductive Passed : Target → Bytes → Bool → History → Except String Unit → Prop
  | called (bytes : Bytes) (flush : Bool) (answer : Except String Unit) :
      Passed .callback bytes flush [⟨.stream (.deliver bytes), answer⟩] answer
  | failed {s : Stream} {bytes : Bytes} {h : History} (flush : Bool) (text : String)
      (hw : s.Wrote bytes h (.error text)) : Passed (.stream s) bytes flush h (.error text)
  | wrote {s : Stream} {bytes : Bytes} {h : History} (hw : s.Wrote bytes h (.ok ())) :
      Passed (.stream s) bytes false h (.ok ())
  | flushed {s : Stream} {bytes : Bytes} {h : History} (answer : Except String Unit)
      (hw : s.Wrote bytes h (.ok ())) :
      Passed (.stream s) bytes true (h ++ [⟨.stream (.flush s), answer⟩]) answer

theorem Passed.within {target : Target} {bytes : Bytes} {flush : Bool} {h : History}
    {x : Except String Unit} (hp : Passed target bytes flush h x) : h.Within [.stream] := by
  cases hp with
  | called => simp [Exchange.party]
  | failed _ _ hw => exact hw.within
  | wrote hw => exact hw.within
  | flushed _ hw => simp [hw.within, Exchange.party]

theorem ends_pass (target : Target) (bytes : Bytes) (flush : Bool) :
    (pass target bytes flush).Ends (Passed target bytes flush) := by
  cases target with
  | callback =>
    simp only [pass, Stream.ask, Program.request, Program.ensures_ask, Program.ensures_done,
      Exchange.call, List.append_nil]
    exact fun answer => .called bytes flush answer
  | stream s =>
    simp only [pass, Program.ensures_bind]
    refine (Stream.ends_writeFully s bytes).ensures fun h r hw => ?_
    obtain text | _ := r
    · simp only [Program.pure_eq, Program.ensures_done, List.append_nil]
      exact .failed flush text hw
    cases flush with
    | true =>
      simp only [Stream.ask, Program.request, Program.ensures_ask, Program.ensures_done,
        Exchange.call, if_true, List.append_nil]
      exact fun answer => .flushed answer hw
    | false =>
      simp only [Bool.false_eq_true, if_false, Program.pure_eq, Program.ensures_done,
        List.append_nil]
      exact .wrote hw

/-- A sample for the bare stream. -/
inductive Took (s : Sample) (r : Raw) : History → Outcome Unit × Raw → Prop
  | closed (f : Failure) (hf : f = ⟨.storage, "raw output already closed"⟩)
      (hc : r.closed = true) : Took s r [] (.error f, r)
  | empty (hc : r.closed = false) (hp : s.payload = []) : Took s r [] (.ok (), r)
  | failed {h : History} (text : String) (f : Failure)
      (hf : f = ⟨.storage, s!"failed writing data to output: {text}"⟩) (hc : r.closed = false)
      (hp : s.payload ≠ [])
      (hw : Passed r.target s.payload (!s.flags.isConfig) h (.error text)) :
      Took s r h (.error f, r)
  | took {h : History} (hc : r.closed = false) (hp : s.payload ≠ [])
      (hw : Passed r.target s.payload (!s.flags.isConfig) h (.ok ())) :
      Took s r h (.ok (), { r with count := r.count + .ofNat s.payload.length })

theorem Took.within {s : Sample} {h : History} {x : Outcome Unit × Raw} (ht : Took s r h x) :
    h.Within [.stream] := by
  cases ht with
  | closed => simp
  | empty => simp
  | failed _ _ _ _ _ hw => exact hw.within
  | took _ _ hw => exact hw.within

theorem ends_writeSample (s : Sample) (r : Raw) : (writeSample s r).Ends (Took s r) := by
  unfold writeSample
  simp only [Action.ensures_bind, Action.ensures_get, Action.after_ok]
  split
  · rename_i hc
    exact Action.ensures_fail.2 (.closed _ rfl hc)
  rename_i hc
  have hc' : r.closed = false := by simpa using hc
  split
  · rename_i hp
    exact Action.ensures_pure.2 (.empty hc' (by simpa using hp))
  rename_i hp
  have hp' : s.payload ≠ [] := by simpa using hp
  simp only [Action.ensures_bind, Action.ensures_lift]
  refine (ends_pass r.target s.payload _).ensures fun h x hw => ?_
  obtain text | _ := x
  · simp only [Option.map_some, Action.after_ok, Action.ensures_fail, List.append_nil,
      List.nil_append]
    exact .failed text _ rfl hc' hp' hw
  · simp only [Option.map_some, Action.after_ok, Action.ensures_modify, List.append_nil,
      List.nil_append]
    exact .took hc' hp' hw

/-- The end of the bare stream. -/
inductive Closed (r : Raw) : History → Outcome Unit × Raw → Prop
  | again (hc : r.closed = true) : Closed r [] (.ok (), r)
  | callback (hc : r.closed = false) (ht : r.target = .callback) :
      Closed r [] (.ok (), { r with closed := true })
  | flushed (s : Stream) (hc : r.closed = false) (ht : r.target = .stream s) :
      Closed r [⟨.stream (.flush s), .ok ()⟩] (.ok (), { r with closed := true })
  | unflushed (s : Stream) (text : String) (f : Failure)
      (hf : f = ⟨.storage, s!"failed to flush output: {text}"⟩) (hc : r.closed = false)
      (ht : r.target = .stream s) :
      Closed r [⟨.stream (.flush s), .error text⟩] (.error f, { r with closed := true })

theorem Closed.within {h : History} {x : Outcome Unit × Raw} (hc : Closed r h x) :
    h.Within [.stream] := by
  cases hc <;> simp [Exchange.party]

theorem ends_close (r : Raw) : (close r).Ends (Closed r) := by
  rcases r with ⟨target, path, count, closed⟩
  unfold close
  simp only [Action.ensures_bind, Action.ensures_get, Action.after_ok]
  split
  · rename_i hc
    exact Action.ensures_pure.2 (.again hc)
  rename_i hc
  have hc' : closed = false := by simpa using hc
  simp only [Action.ensures_bind, Action.ensures_set, Action.after_ok]
  cases target with
  | callback => exact Action.ensures_pure.2 (.callback hc' rfl)
  | stream s =>
    simp only [Stream.ask, Program.request, Action.ensures_bind, Action.ensures_lift,
      Program.ensures_ask, Program.ensures_done, Exchange.call, forall_outcome, Option.map_some,
      Action.after_ok, Action.ensures_fail, Action.ensures_pure, List.append_nil,
      List.nil_append]
    exact ⟨fun text => .unflushed s text _ rfl hc' rfl, fun _ => .flushed s hc' rfl⟩

/-- The opening of a destination. -/
inductive Opened : Destination → History → Outcome Raw → Prop
  | file (path : Path) :
      Opened (.file path) [⟨.disk (.create path), .ok ()⟩]
        (.ok ⟨.stream (.file path), some path, 0, false⟩)
  | refused (path : Path) (r : Disk.Refusal) (f : Failure) (hf : f.stage = .storage) :
      Opened (.file path) [⟨.disk (.create path), .error r⟩] (.error f)
  | standard (terminal : Bool) :
      Opened .standardOutput [⟨.stream .rawTerminal, terminal⟩]
        (.ok ⟨.stream .standardOutput, none, 0, false⟩)

theorem Opened.within {d : Destination} {h : History} {x : Outcome Raw} (ho : Opened d h x) :
    h.Within [.disk, .stream] := by
  cases ho <;> simp [Exchange.party]

theorem Opened.quiet {d : Destination} {h : History} {x : Outcome Raw} (ho : Opened d h x) :
    h.Quiet := by
  cases ho <;> simp [Exchange.carries]

variable {σ : Type}

theorem ends_openFor (d : Destination) (s : σ) :
    (openFor d s).Ends fun h r => r.2 = s ∧ Opened d h r.1 := by
  cases d with
  | file path =>
    simp only [openFor, Program.request, Action.ensures_bind, Action.ensures_lift,
      Program.ensures_ask, Program.ensures_done, Exchange.call, forall_outcome, Option.map_some,
      Action.after_ok, Action.ensures_fail, Action.ensures_pure, List.append_nil]
    exact ⟨fun r => ⟨rfl, .refused path r _ rfl⟩, fun _ => ⟨rfl, .file path⟩⟩
  | standardOutput =>
    simp only [openFor, Stream.ask, Program.request, Action.ensures_bind, Action.ensures_lift,
      Program.ensures_ask, Program.ensures_done, Exchange.call, Option.map_some,
      Action.after_ok, List.append_nil]
    intro terminal
    split
    · simp only [Action.ensures_bind, Action.ensures_lift, Program.ensures_report,
        Option.map_some, Action.after_ok, Action.ensures_pure, List.append_nil]
      exact ⟨rfl, .standard terminal⟩
    · exact Action.ensures_pure.2 ⟨rfl, .standard terminal⟩

end Raw

namespace Sink

variable {α : Type} {onMuxed : Action Muxed α} {onRaw : Action Raw α}
  {Q : History → Option (Outcome α × Sink) → Prop}

theorem ensures_either_muxed {m : Muxed} :
    (either onMuxed onRaw (.muxed m)).Ensures Q ↔
      (onMuxed m).Ensures fun h r => Q h (r.map fun x => (x.1, .muxed x.2)) := by
  simp only [either, Program.ensures_bind, Program.pure_eq, Program.ensures_done, List.append_nil]
  constructor <;> refine fun h => h.mono fun k r => ?_ <;> cases r <;> simp

theorem ensures_either_raw {r : Raw} :
    (either onMuxed onRaw (.raw r)).Ensures Q ↔
      (onRaw r).Ensures fun h x => Q h (x.map fun x => (x.1, .raw x.2)) := by
  simp only [either, Program.ensures_bind, Program.pure_eq, Program.ensures_done, List.append_nil]
  constructor <;> refine fun h => h.mono fun k r => ?_ <;> cases r <;> simp

/-- What an output is until it is finished: a container of its kind at its path, or a bare stream to
its target. -/
inductive Face
  | muxed (path : Path) (container : Container)
  | raw (target : Raw.Target) (path : Option Path) (closed : Bool)
  deriving DecidableEq

def face : Sink → Face
  | muxed m => .muxed m.path m.container
  | raw r => .raw r.target r.path r.closed

/-- Whom an output turns to. -/
def Face.party : Face → Party
  | muxed _ _ => .muxer
  | raw _ _ _ => .stream

def party (sink : Sink) : Party := sink.face.party

@[simp] theorem encoder_ne_party (sink : Sink) : Party.encoder ≠ sink.party := by
  cases sink <;> nofun

@[simp] theorem capture_ne_party (sink : Sink) : Party.capture ≠ sink.party := by
  cases sink <;> nofun

@[simp] theorem display_ne_party (sink : Sink) : Party.display ≠ sink.party := by
  cases sink <;> nofun

@[simp] theorem watcher_ne_party (sink : Sink) : Party.watcher ≠ sink.party := by
  cases sink <;> nofun

/-- A sample for an output. -/
inductive Sent (s : Sample) : Sink → History → Outcome Unit × Sink → Prop
  | muxed {m m' : Muxed} {h : History} {x : Outcome Unit} (hs : Muxed.Sent s m h (x, m')) :
      Sent s (.muxed m) h (x, .muxed m')
  | raw {r r' : Raw} {h : History} {x : Outcome Unit} (hs : Raw.Took s r h (x, r')) :
      Sent s (.raw r) h (x, .raw r')

theorem Sent.within {s : Sample} {sink : Sink} {h : History} {x : Outcome Unit × Sink}
    (hs : Sent s sink h x) : h.Within [sink.party] := by
  cases hs with
  | muxed hs => exact hs.within
  | raw hs => exact hs.within

theorem Sent.face_eq {s : Sample} {sink sink' : Sink} {h : History} {x : Outcome Unit}
    (hs : Sent s sink h (x, sink')) : sink'.face = sink.face := by
  cases hs with
  | muxed hs =>
    cases hs with
    | early => rfl
    | wrote _ _ hw => cases hw <;> rfl
  | raw hs => cases hs <;> rfl

theorem ends_writeSample (s : Sample) (sink : Sink) :
    (writeSample s sink).Ends (Sent s sink) := by
  cases sink with
  | muxed m =>
    refine ensures_either_muxed.2 ((Muxed.ends_writeSample s m).ensures fun h r hr => ?_)
    exact .muxed hr
  | raw r =>
    refine ensures_either_raw.2 ((Raw.ends_writeSample s r).ensures fun h x hx => ?_)
    exact .raw hx

/-- A format for an output. The bare stream has no use for it. -/
inductive Reformatted (format : TrackFormat) : Sink → History → Outcome Unit × Sink → Prop
  | muxed {m m' : Muxed} {h : History} {x : Outcome Unit}
      (hr : Muxed.Reformatted format m h (x, m')) :
      Reformatted format (.muxed m) h (x, .muxed m')
  | raw (r : Raw) : Reformatted format (.raw r) [] (.ok (), .raw r)

theorem Reformatted.within {format : TrackFormat} {sink : Sink} {h : History}
    {x : Outcome Unit × Sink} (hr : Reformatted format sink h x) : h.Within [sink.party] := by
  cases hr with
  | muxed hr => exact hr.within
  | raw => simp

theorem Reformatted.quiet {format : TrackFormat} {sink : Sink} {h : History}
    {x : Outcome Unit × Sink} (hr : Reformatted format sink h x) : h.Quiet := by
  cases hr with
  | muxed hr => exact hr.quiet
  | raw => simp

theorem Reformatted.face_eq {format : TrackFormat} {sink sink' : Sink} {h : History}
    {x : Outcome Unit} (hr : Reformatted format sink h (x, sink')) :
    sink'.face = sink.face := by
  cases hr with
  | muxed hr =>
    cases hr with
    | notStarted _ _ _ ht => cases ht <;> rfl
    | started _ _ ht => cases ht <;> rfl
    | _ => rfl
  | raw => rfl

theorem ends_formatChanged (format : TrackFormat) (sink : Sink) :
    (formatChanged format sink).Ends (Reformatted format sink) := by
  cases sink with
  | muxed m =>
    refine ensures_either_muxed.2 ((Muxed.ends_formatChanged format m).ensures fun h r hr => ?_)
    exact .muxed hr
  | raw r => exact ensures_either_raw.2 (Action.ensures_pure.2 (.raw r))

/-- The record of the frame times for an output. -/
inductive Stamped (log : FrameTimes.Log) (offset : Int) :
    Sink → History → Outcome Unit × Sink → Prop
  | muxed {m m' : Muxed} {h : History} {x : Outcome Unit}
      (hs : Muxed.Stamped log offset m h (x, m')) :
      Stamped log offset (.muxed m) h (x, .muxed m')
  | raw (r : Raw) : Stamped log offset (.raw r) [] (.ok (), .raw r)

theorem Stamped.within {log : FrameTimes.Log} {offset : Int} {sink : Sink} {h : History}
    {x : Outcome Unit × Sink} (hs : Stamped log offset sink h x) : h.Within [sink.party] := by
  cases hs with
  | muxed hs => exact hs.within
  | raw => simp

theorem Stamped.face_eq {log : FrameTimes.Log} {offset : Int} {sink sink' : Sink} {h : History}
    {x : Outcome Unit} (hs : Stamped log offset sink h (x, sink')) :
    sink'.face = sink.face := by
  cases hs with
  | muxed hs =>
    cases hs with
    | nothing => rfl
    | wrote _ _ _ _ hw => cases hw <;> rfl
  | raw => rfl

theorem ends_writeTimes (log : FrameTimes.Log) (offset : Int) (sink : Sink) :
    (writeTimes log offset sink).Ends (Stamped log offset sink) := by
  cases sink with
  | muxed m =>
    refine ensures_either_muxed.2 ((Muxed.ends_writeTimes log offset m).ensures fun h r hr => ?_)
    exact .muxed hr
  | raw r => exact ensures_either_raw.2 (Action.ensures_pure.2 (.raw r))

/-- The end of an output. -/
inductive Closed : Sink → History → Outcome Unit × Sink → Prop
  | stopped (m : Muxed) (answer : Outcome Unit) (hs : m.state = .started) :
      Closed (.muxed m) [⟨.muxer .stop, answer⟩] (answer, .muxed { m with state := .stopped })
  | unstarted (m : Muxed) (hs : m.state ≠ .started) :
      Closed (.muxed m) [] (.ok (), .muxed { m with state := .stopped })
  | raw {r r' : Raw} {h : History} {x : Outcome Unit} (hc : Raw.Closed r h (x, r')) :
      Closed (.raw r) h (x, .raw r')

theorem Closed.within {sink : Sink} {h : History} {x : Outcome Unit × Sink}
    (hc : Closed sink h x) : h.Within [sink.party] := by
  cases hc with
  | stopped => simp [Exchange.party, party, face, Face.party]
  | unstarted => simp
  | raw hc => exact hc.within

theorem Closed.quiet {sink : Sink} {h : History} {x : Outcome Unit × Sink}
    (hc : Closed sink h x) : h.Quiet := by
  cases hc with
  | stopped => simp [Exchange.carries]
  | unstarted => simp
  | raw hc => cases hc <;> simp [Exchange.carries]

theorem ends_close (sink : Sink) : (close sink).Ends (Closed sink) := by
  cases sink with
  | muxed m =>
    refine ensures_either_muxed.2 (Muxed.ensures_stop.2 ?_)
    split
    · rename_i hs
      exact fun answer => .stopped m answer hs
    · rename_i hs
      exact .unstarted m hs
  | raw r =>
    refine ensures_either_raw.2 ((Raw.ends_close r).ensures fun h x hx => ?_)
    exact .raw hx

end Sink

end Screencast
