import Screencast.Proofs.Course

/-!
# The tracks of a container

A container has no tracks until the encoder tells its format, and keeps the tracks that it got then.
All that the loop writes goes to the track of the video; the times of what was written are logged.

* `History.writes`: what a container is told to write.
* `History.videoTrack?`, `History.timeTrack?`: the tracks added for the first format.
* `Muxed.Fresh`, `Muxed.Tracking`: a container before and after it.
* `Take.Passed.muxed`: one pass of the loop.
* `Take.Looped.followed`: the loop by induction on its passes.
-/

namespace Screencast

/-- A write to a container. -/
structure Write where
  track : Track
  packet : Packet
  answer : Outcome Unit
  deriving DecidableEq

/-- What a container is told to write, and its answer. -/
def Exchange.write? : Exchange → Option Write
  | ⟨.muxer (.write track data time flags), answer⟩ => some ⟨track, ⟨data, time, flags⟩, answer⟩
  | _ => none

/-- The time of a write that was granted. -/
def Write.time? (w : Write) : Option Int :=
  match w.answer with
  | .ok () => some w.packet.time
  | .error _ => none

namespace History

/-- What a container is told to write. -/
def writes (h : History) : List Write := h.filterMap Exchange.write?

/-- The times of what was written. -/
def writtenTimes (h : History) : List Int := h.writes.filterMap Write.time?

/-- The calls from the first on that tells of a format. -/
def format (h : History) : History := h.dropWhile fun e => e.dequeued? != some .formatChanged

/-- The track that was added for the first format that the encoder told. -/
def videoTrack? (h : History) : Option Track :=
  match h.format with
  | _ :: ⟨.encoder .currentFormat, .ok format⟩ :: ⟨.muxer (.addTrack told), .ok video⟩ :: _ =>
    if told = format then some video else none
  | _ => none

/-- The track that was added for the frame times, after that of the video. -/
def timeTrack? (h : History) : Option Track :=
  match h.format with
  | _ :: ⟨.encoder .currentFormat, .ok _⟩ :: ⟨.muxer (.addTrack _), .ok _⟩ ::
      ⟨.muxer (.addTrack told), .ok times⟩ :: _ =>
    if told = .octetStream then some times else none
  | _ => none

variable {h k : History}

@[simp] theorem writes_append : writes (h ++ k) = h.writes ++ k.writes :=
  List.filterMap_append

@[simp] theorem writtenTimes_append :
    writtenTimes (h ++ k) = h.writtenTimes ++ k.writtenTimes := by
  simp [writtenTimes]

theorem Quiet.writes_eq_nil (hq : h.Quiet) : h.writes = [] := by
  rw [writes, List.filterMap_eq_nil_iff]
  intro e he
  have hcarries := hq e he
  rcases e with ⟨_ | _ | _ | r | _ | _, answer⟩
  case muxer =>
    cases r with
    | write => cases hcarries
    | _ => rfl
  all_goals rfl

theorem Quiet.writtenTimes_eq_nil (hq : h.Quiet) : h.writtenTimes = [] := by
  rw [writtenTimes, hq.writes_eq_nil]
  rfl

theorem Within.writes_eq_nil {parties : List Party} (hw : h.Within parties)
    (hm : Party.muxer ∉ parties) : h.writes = [] := by
  refine hw.filterMap_eq_nil fun e he => ?_
  rcases e with ⟨_ | _ | _ | _, answer⟩
  case muxer => exact absurd he hm
  all_goals rfl

/-- No format is told. -/
def Unformatted (h : History) : Prop := ∀ e ∈ h, e.dequeued? ≠ some .formatChanged

theorem Idle.unformatted (hi : h.Idle) : h.Unformatted := fun e he => by
  rw [hi e he]
  exact (Option.some_ne_none _).symm

theorem Unformatted.format_append (hu : h.Unformatted) : format (h ++ k) = k.format := by
  rw [format, List.dropWhile_append_of_pos fun e he => by simpa using hu e he]
  rfl

theorem format_append (hn : h.format ≠ []) : format (h ++ k) = h.format ++ k := by
  have hne : ¬h.format.isEmpty = true := by simpa using hn
  rw [format, List.dropWhile_append]
  exact if_neg hne

/-- Tracks that were added stay the same. -/
theorem videoTrack?_append {v : Track} (hv : h.videoTrack? = some v) :
    videoTrack? (h ++ k) = some v := by
  unfold videoTrack? at hv ⊢
  split at hv
  · rename_i hf
    rw [format_append (by rw [hf]; exact List.cons_ne_nil _ _), hf]
    exact hv
  · cases hv

theorem timeTrack?_append {v : Track} (hv : h.timeTrack? = some v) :
    timeTrack? (h ++ k) = some v := by
  unfold timeTrack? at hv ⊢
  split at hv
  · rename_i hf
    rw [format_append (by rw [hf]; exact List.cons_ne_nil _ _), hf]
    exact hv
  · cases hv

theorem Unformatted.videoTrack?_append (hu : h.Unformatted) :
    videoTrack? (h ++ k) = k.videoTrack? := by
  rw [videoTrack?, hu.format_append, videoTrack?]

theorem Unformatted.timeTrack?_append (hu : h.Unformatted) :
    timeTrack? (h ++ k) = k.timeTrack? := by
  rw [timeTrack?, hu.format_append, timeTrack?]

end History

variable {t t' : Take} {m m' : Muxed} {h k : History}

/-- A sample is written to the video track of a started container, and nowhere else. -/
theorem Muxed.Sent.writes {s : Sample} {x : Outcome Unit} (hs : Muxed.Sent s m h (x, m')) :
    m' = m ∧ (∀ w ∈ h.writes, m.state = .started ∧ m.videoTrack = some w.track) ∧
      (x = .ok () → h.writtenTimes = [s.time]) ∧ (x ≠ .ok () → h.writtenTimes = []) := by
  cases hs with
  | early =>
    exact ⟨rfl, fun _ hw => absurd hw List.not_mem_nil, fun h => (by cases h), fun _ => rfl⟩
  | wrote track hv hw =>
    cases hw with
    | refused =>
      exact ⟨rfl, fun _ hw => absurd hw List.not_mem_nil, fun h => (by cases h), fun _ => rfl⟩
    | handed answer hs =>
      refine ⟨rfl, fun w hw => ?_, fun hx => ?_, fun hx => ?_⟩
      · obtain rfl := List.mem_singleton.1 hw
        exact ⟨hs, hv⟩
      · rw [hx]; rfl
      · obtain f | _ := x
        · rfl
        · exact absurd rfl hx

theorem Take.Unwanted.isConfig_eq_false {s : Sample} (hm : t.sink = .muxed m)
    (hs : ¬Take.Unwanted s t.sink) : s.flags.isConfig = false := by
  rw [hm, Take.Unwanted] at hs
  exact Bool.eq_false_iff.2 fun hc => hs (.inl ⟨hc, rfl⟩)

/-- What a container is told to write of a sample, and what is logged of it. -/
theorem Take.Handled.muxed {s : Sample} {x : Outcome Unit} (hm : t.sink = .muxed m)
    (hh : Take.Handled s t k (x, t')) :
    t'.sink = .muxed m ∧ (∀ w ∈ k.writes, m.state = .started ∧ m.videoTrack = some w.track) ∧
      (m.keepsTimes = true → t'.times.entries = t.times.entries ++ k.writtenTimes) := by
  have hlook : ∀ {look clock d time}, Take.Looked t.capture look d →
      Take.Timed s.time clock time → History.Quiet (look ++ clock) := by
    intro look clock d time hl ht
    simp [hl.within.quiet, ht.within.quiet]
  cases hh with
  | skipped =>
    exact ⟨hm, fun _ hw => absurd hw List.not_mem_nil, fun _ => (List.append_nil _).symm⟩
  | @refused look clock out d time sink f hn hl ht hw =>
    have hq := hlook hl ht
    rw [hm] at hw
    cases hw with
    | muxed hw =>
      obtain ⟨rfl, hwrites, -, htimes⟩ := hw.writes
      rw [History.writes_append, hq.writes_eq_nil, History.writtenTimes_append,
        hq.writtenTimes_eq_nil, htimes fun h => (by cases h)]
      exact ⟨rfl, hwrites, fun _ => (List.append_nil _).symm⟩
  | @written look clock out d time sink hn hl ht hw =>
    have hq := hlook hl ht
    have hconfig := Take.Unwanted.isConfig_eq_false hm hn
    rw [hm] at hw
    cases hw with
    | muxed hw =>
      obtain ⟨rfl, hwrites, htimes, -⟩ := hw.writes
      rw [History.writes_append, hq.writes_eq_nil, History.writtenTimes_append,
        hq.writtenTimes_eq_nil, htimes rfl]
      unfold Take.after Take.count
      rw [hconfig]
      -- a sample that the container takes is no parameter of the codec, so its time is logged
      refine ⟨rfl, hwrites, fun hk => ?_⟩
      have hk' : Sink.keepsTimes (.muxed _) = true := hk
      simp only [Bool.false_eq_true, if_false, hk', if_true]
      rfl

/-- What a part of the loop does with a container that no new format reaches. -/
structure Steady (m : Muxed) (t : Take) (h : History) (t' : Take) : Prop where
  sink : t'.sink = .muxed m
  track : ∀ w ∈ h.writes, m.state = .started ∧ m.videoTrack = some w.track
  times : m.keepsTimes = true → t'.times.entries = t.times.entries ++ h.writtenTimes

theorem steady_of_quiet (hm : t.sink = .muxed m) (hq : h.Quiet) (hs : t'.sink = t.sink)
    (ht : t'.times = t.times) : Steady m t h t' where
  sink := hs.trans hm
  track := by
    rw [hq.writes_eq_nil]
    exact fun _ hw => absurd hw List.not_mem_nil
  times := fun _ => by rw [hq.writtenTimes_eq_nil, ht, List.append_nil]

theorem Take.Handled.steady {s : Sample} {x : Outcome Unit} {p l : History}
    (hm : t.sink = .muxed m) (hh : Take.Handled s t k (x, t')) (hp : p.Quiet) (hl : l.Quiet) :
    Steady m t (p ++ k ++ l) t' := by
  obtain ⟨hsink, htrack, htimes⟩ := hh.muxed hm
  refine ⟨hsink, ?_, ?_⟩
  · simpa [hp.writes_eq_nil, hl.writes_eq_nil] using htrack
  · simpa [hp.writtenTimes_eq_nil, hl.writtenTimes_eq_nil] using htimes

/-- **One pass of the loop** with a container: it writes to the video track of a started one, and
only a format that the encoder tells may change it. -/
theorem Take.Passed.muxed {x : Outcome Bool} (hm : t.sink = .muxed m)
    (hp : Take.Passed t h (x, t')) :
    (Steady m t h t' ∧ ∀ b, x = .ok b → h.Unformatted) ∨
      ∃ k format m' y, h = Take.dequeued .formatChanged ::
          ⟨.encoder .currentFormat, .ok format⟩ :: k ∧ t' = { t with sink := .muxed m' } ∧
          Muxed.Reformatted format m k (y, m') ∧ ∀ b, x = .ok b → y = .ok () := by
  have hformat : ∀ {format k y sink}, Sink.Reformatted format t.sink k (y, sink) →
      ∃ m', sink = .muxed m' ∧ Muxed.Reformatted format m k (y, m') := by
    intro format k y sink hr
    rw [hm] at hr
    cases hr with
    | muxed hr => exact ⟨_, rfl, hr⟩
  have hpolled : ∀ {p s}, Encoder.Polled longestWait t.encoder p (.ok (.data s), t.encoder) →
      p.Unformatted := by
    intro p s hp
    cases hp
    simp [History.Unformatted, Exchange.dequeued?]
  have hfailed : ∀ {f : Failure} {k : History} (b : Bool), (.error f : Outcome Bool) = .ok b →
      k.Unformatted := fun _ hb => by cases hb
  have hmoved : ∀ {p k l s t'}, Encoder.Polled longestWait t.encoder p (.ok (.data s), t.encoder) →
      Take.Handled s t k (.ok (), t') → l.Quiet → l.Idle →
      Steady m t (p ++ k ++ l) t' ∧ (p ++ k ++ l : History).Unformatted := by
    intro p k l s t' hp hh hq hi
    refine ⟨hh.steady hm (hp.within.quiet (by simp) (by simp)) hq, ?_⟩
    simp only [History.Unformatted, List.forall_mem_append]
    exact ⟨⟨hpolled hp, (hh.within.idle (by simp)).unformatted⟩, hi.unformatted⟩
  cases hp with
  | unpolled hp =>
    exact .inl ⟨steady_of_quiet hm (hp.within.quiet (by simp) (by simp)) rfl rfl, hfailed⟩
  | broken => exact .inl ⟨steady_of_quiet hm (by simp [Exchange.carries]) rfl rfl, hfailed⟩
  | idle =>
    exact .inl ⟨steady_of_quiet hm (by simp [Exchange.carries]) rfl rfl,
      fun _ _ => by simp [History.Unformatted, Exchange.dequeued?]⟩
  | ended =>
    exact .inl ⟨steady_of_quiet hm (by simp [Exchange.carries]) rfl rfl,
      fun _ _ => by simp [History.Unformatted, Exchange.dequeued?]⟩
  | refreshed =>
    exact .inl ⟨steady_of_quiet hm (by simp [Exchange.carries]) rfl rfl,
      fun _ _ => by simp [History.Unformatted, Exchange.dequeued?]⟩
  | unrefreshed => exact .inl ⟨steady_of_quiet hm (by simp [Exchange.carries]) rfl rfl, hfailed⟩
  | reformatted format hr =>
    obtain ⟨m', rfl, hmuxed⟩ := hformat hr
    exact .inr ⟨_, _, m', _, rfl, rfl, hmuxed, fun _ _ => rfl⟩
  | unformatted format hr =>
    obtain ⟨m', rfl, hmuxed⟩ := hformat hr
    exact .inr ⟨_, _, m', _, rfl, rfl, hmuxed, fun _ hb => (by cases hb)⟩
  | unwritten hp hh =>
    have hs := hh.steady (l := []) hm (hp.within.quiet (by simp) (by simp)) (by simp)
    rw [List.append_nil] at hs
    exact .inl ⟨hs, hfailed⟩
  | kept f hp hh =>
    exact .inl ⟨hh.steady hm (hp.within.quiet (by simp) (by simp)) (by simp [Exchange.carries]),
      hfailed⟩
  | @last _ _ s _ hp hh =>
    obtain ⟨hs, hu⟩ := hmoved (l := [⟨.encoder (.releaseBuffer s.buffer), .ok ()⟩,
      ⟨.signal .raise, ()⟩]) hp hh (by simp [Exchange.carries]) (by simp [Exchange.dequeued?])
    exact .inl ⟨hs, fun _ _ => hu⟩
  | @moved _ _ s _ hp hh =>
    obtain ⟨hs, hu⟩ := hmoved (l := [⟨.encoder (.releaseBuffer s.buffer), .ok ()⟩]) hp hh
      (by simp [Exchange.carries]) (by simp [Exchange.dequeued?])
    exact .inl ⟨hs, fun _ _ => hu⟩

/-! ## The loop with a container -/

theorem Steady.append {t'' : Take} (hh : Steady m t h t') (hk : Steady m t' k t'') :
    Steady m t (h ++ k) t'' where
  sink := hk.sink
  track := by
    rw [History.writes_append, List.forall_mem_append]
    exact ⟨hh.track, hk.track⟩
  times := fun hm => by
    rw [hk.times hm, hh.times hm, History.writtenTimes_append, List.append_assoc]

theorem steady_turn (hm : t.sink = .muxed m) (n : Int64) :
    Steady m t [Take.asked false, Take.clocked n] t :=
  steady_of_quiet hm (by simp [Exchange.carries]) rfl rfl

/-- A container that has its tracks keeps them. -/
theorem Take.Passed.steady {x : Outcome Bool} (hm : t.sink = .muxed m)
    (hv : m.videoTrack.isSome) (hp : Take.Passed t h (x, t')) : Steady m t h t' := by
  obtain ⟨hs, -⟩ | ⟨k, format, m', y, rfl, rfl, hr, -⟩ := hp.muxed hm
  · exact hs
  · -- a container with a video track lets a further format pass
    have hkept : k = [] ∧ m' = m := by
      cases hr with
      | again => exact ⟨rfl, rfl⟩
      | late _ _ hn => simp [hn] at hv
      | noVideo _ hn => simp [hn] at hv
      | noTimes _ _ hn => simp [hn] at hv
      | notStarted _ hn => simp [hn] at hv
      | started hn => simp [hn] at hv
    obtain ⟨rfl, rfl⟩ := hkept
    exact steady_of_quiet hm (by simp [Exchange.carries]) hm.symm rfl

/-- The loop with a container that has its tracks. -/
theorem Take.Looped.steady {deadline : Int64} {r : Option (Outcome Ending × Take)}
    (hl : Take.Looped deadline t h r) (hm : t.sink = .muxed m) (hv : m.videoTrack.isSome) :
    (∀ w ∈ h.writes, m.videoTrack = some w.track) ∧
      ∀ x t', r = some (x, t') → Steady m t h t' := by
  have hleft : ∀ {t h t'} {x : Outcome Ending}, Steady m t h t' →
      (∀ w ∈ h.writes, m.videoTrack = some w.track) ∧
        ∀ y t'', some (x, t') = some (y, t'') → Steady m t h t'' := by
    intro t h t' x hs
    refine ⟨fun w hw => (hs.track w hw).2, fun y t'' hr => ?_⟩
    cases hr
    exact hs
  induction hl with
  | spent t => exact ⟨fun w hw => absurd hw List.not_mem_nil, fun x t' h => by cases h⟩
  | stopped t => exact hleft (steady_of_quiet hm (by simp [Exchange.carries]) rfl rfl)
  | late t n => exact hleft (steady_turn hm n)
  | failed n _ hp => exact hleft ((steady_turn hm n).append (hp.steady hm hv))
  | ended n _ hp => exact hleft ((steady_turn hm n).append (hp.steady hm hv))
  | @next t t' h k r n hn hp hl ih =>
    have hs := (steady_turn hm n).append (hp.steady hm hv)
    obtain ⟨htrack, hsteady⟩ := ih hs.sink
    refine ⟨?_, fun x t' h => hs.append (hsteady x t' h)⟩
    have hsplit : [asked false, clocked n] ++ h ++ k = asked false :: clocked n :: (h ++ k) := by
      simp
    rw [← hsplit, History.writes_append, List.forall_mem_append]
    exact ⟨fun w hw => (hs.track w hw).2, htrack⟩

/-- A container without tracks. -/
structure Muxed.Fresh (m : Muxed) : Prop where
  state : m.state = .idle
  video : m.videoTrack = none

/-- A started container with the tracks that were added for the first format. -/
structure Muxed.Tracking (m : Muxed) (h : History) : Prop where
  state : m.state = .started
  video : ∃ v, m.videoTrack = some v ∧ h.videoTrack? = some v
  times : m.keepsTimes = true → ∃ v, m.timeTrack = some v ∧ h.timeTrack? = some v

theorem Muxed.Tracking.append (hm : m.Tracking h) : m.Tracking (h ++ k) where
  state := hm.state
  video := by
    obtain ⟨v, hv, hh⟩ := hm.video
    exact ⟨v, hv, History.videoTrack?_append hh⟩
  times := fun hk => by
    obtain ⟨v, hv, hh⟩ := hm.times hk
    exact ⟨v, hv, History.timeTrack?_append hh⟩

theorem Muxed.Tracking.after (hm : m.Tracking k) (hu : h.Unformatted) :
    m.Tracking (h ++ k) where
  state := hm.state
  video := by rw [hu.videoTrack?_append]; exact hm.video
  times := by rw [hu.timeTrack?_append]; exact hm.times

/-- The format that starts a container is the first one, and gives it its tracks. -/
theorem Muxed.Reformatted.tracking {format : TrackFormat} (hf : m.Fresh)
    (hr : Muxed.Reformatted format m k (.ok (), m')) :
    m'.Tracking (Take.dequeued .formatChanged :: ⟨.encoder .currentFormat, .ok format⟩ :: k) := by
  cases hr with
  | again hv => rw [hf.video] at hv; cases hv
  | started hv hs ht =>
    cases ht with
    | video video hk =>
      refine ⟨rfl, ⟨video, rfl, if_pos rfl⟩, fun hk' => ?_⟩
      have hkeeps : m.keepsTimes = true := hk'
      rw [hk] at hkeeps
      cases hkeeps
    | both video times hk =>
      refine ⟨rfl, ⟨video, rfl, if_pos rfl⟩, fun _ => ⟨times, rfl, ?_⟩⟩
      change (if TrackFormat.octetStream = .octetStream then some times else none) = some times
      exact if_pos rfl

/-- One pass of the loop with a container without tracks: nothing is written. -/
theorem Take.Passed.fresh {x : Outcome Bool} (hm : t.sink = .muxed m) (hf : m.Fresh)
    (hp : Take.Passed t h (x, t')) :
    h.writes = [] ∧ (∃ m', t'.sink = .muxed m') ∧
      (m.keepsTimes = true → t'.times.entries = t.times.entries) ∧
      ∀ b, x = .ok b → (t'.sink = .muxed m ∧ h.Unformatted) ∨
        ∃ m', t'.sink = .muxed m' ∧ m'.Tracking h := by
  obtain ⟨hs, hu⟩ | ⟨k, format, m', y, rfl, rfl, hr, hy⟩ := hp.muxed hm
  · -- only a started container is written to
    have hnone : h.writes = [] := by
      refine List.eq_nil_iff_forall_not_mem.2 fun w hw => ?_
      have hstate := (hs.track w hw).1
      rw [hf.state] at hstate
      cases hstate
    refine ⟨hnone, ⟨m, hs.sink⟩, fun hk => ?_, fun b hb => .inl ⟨hs.sink, hu b hb⟩⟩
    rw [hs.times hk, History.writtenTimes, hnone]
    exact List.append_nil _
  · -- the format is the first, and the container has its tracks from here on
    refine ⟨?_, ⟨m', rfl⟩, fun _ => rfl, fun b hb => .inr ⟨m', rfl, ?_⟩⟩
    · exact History.Quiet.writes_eq_nil (by simp [Exchange.carries, hr.quiet])
    · rw [hy b hb] at hr
      exact hr.tracking hf

/-- The loop's end with a container: the times of all that was written are logged, and what was
written went to the tracks that were added for the first format. -/
structure Followed (m : Muxed) (t : Take) (h : History) (t' : Take) : Prop where
  sink : ∃ m', t'.sink = .muxed m' ∧ (h.writes ≠ [] → m'.Tracking h)
  times : m.keepsTimes = true → t'.times.entries = t.times.entries ++ h.writtenTimes

/-- A part of the loop in which nothing was written. -/
theorem followed_of_unwritten (hw : h.writes = []) (hm : ∃ m', t'.sink = .muxed m')
    (ht : m.keepsTimes = true → t'.times.entries = t.times.entries) : Followed m t h t' where
  sink := by
    obtain ⟨m', hm'⟩ := hm
    exact ⟨m', hm', fun hne => absurd hw hne⟩
  times := fun hk => by
    rw [ht hk, History.writtenTimes, hw]
    exact (List.append_nil _).symm

theorem unformatted_turn (n : Int64) :
    History.Unformatted [Take.asked false, Take.clocked n] := by
  simp [History.Unformatted, Exchange.dequeued?]

/-- **The loop with a new container.** It writes to the video track that was added for the first
format, and logs the times of what was written. -/
theorem Take.Looped.followed {deadline : Int64} {r : Option (Outcome Ending × Take)}
    (hl : Take.Looped deadline t h r) (hm : t.sink = .muxed m) (hf : m.Fresh) :
    (∀ w ∈ h.writes, h.videoTrack? = some w.track) ∧
      ∀ x t', r = some (x, t') → Followed m t h t' := by
  have hleft : ∀ {t : Take} {h : History} {t' : Take} {x : Outcome Ending}, h.writes = [] →
      (∃ m', t'.sink = .muxed m') →
      (m.keepsTimes = true → t'.times.entries = t.times.entries) →
      (∀ w ∈ h.writes, h.videoTrack? = some w.track) ∧
        ∀ y t'', some (x, t') = some (y, t'') → Followed m t h t'' := by
    intro t h t' x hw hsink htimes
    refine ⟨by rw [hw]; exact fun w hw => absurd hw List.not_mem_nil, fun y t'' hr => ?_⟩
    cases hr
    exact followed_of_unwritten hw hsink htimes
  induction hl with
  | spent t => exact ⟨fun w hw => absurd hw List.not_mem_nil, fun x t' h => by cases h⟩
  | stopped t => exact hleft rfl ⟨m, hm⟩ fun _ => rfl
  | late t n => exact hleft rfl ⟨m, hm⟩ fun _ => rfl
  | failed n _ hp =>
    obtain ⟨hw, hsink, htimes, -⟩ := hp.fresh hm hf
    exact hleft hw hsink htimes
  | ended n _ hp =>
    obtain ⟨hw, hsink, htimes, -⟩ := hp.fresh hm hf
    exact hleft hw hsink htimes
  | @next t t' h k r n hn hp hl ih =>
    obtain ⟨hw, -, htimes, hnext⟩ := hp.fresh hm hf
    have hsplit : asked false :: clocked n :: (h ++ k) = [asked false, clocked n] ++ h ++ k := by
      simp
    have hwrites : History.writes ([asked false, clocked n] ++ h) = [] := hw
    have htold : History.writtenTimes ([asked false, clocked n] ++ h) = [] := by
      rw [History.writtenTimes, hwrites]; rfl
    rw [hsplit, History.writes_append, hwrites, List.nil_append]
    obtain ⟨hm', hu⟩ | ⟨m', hm', htrack⟩ := hnext false rfl
    · -- no format was told yet, and the rest of the loop begins with the same container
      have hu' : History.Unformatted ([asked false, clocked n] ++ h) :=
        List.forall_mem_append.2 ⟨unformatted_turn n, hu⟩
      obtain ⟨hall, hend⟩ := ih hm'
      refine ⟨by rw [hu'.videoTrack?_append]; exact hall, fun x t'' hr => ?_⟩
      obtain ⟨⟨m'', hm'', htrack⟩, htimes'⟩ := hend x t'' hr
      refine ⟨⟨m'', hm'', fun hne => ?_⟩, fun hk => ?_⟩
      · rw [History.writes_append, hwrites, List.nil_append] at hne
        exact (htrack hne).after hu'
      · rw [htimes' hk, htimes hk, History.writtenTimes_append, htold, List.nil_append]
    · -- the container has got its tracks, and the rest of the loop leaves them as they are
      have htrack' := (htrack.after (unformatted_turn n)).append (k := k)
      obtain ⟨v, hv, hvideo⟩ := htrack'.video
      obtain ⟨hall, hend⟩ := hl.steady hm' (by rw [hv]; rfl)
      refine ⟨fun w hw => by rw [hvideo, ← hv, hall w hw], fun x t'' hr => ?_⟩
      have hs := hend x t'' hr
      refine ⟨⟨m', hs.sink, fun _ => htrack'⟩, fun hk => ?_⟩
      have hface := hp.face_eq
      rw [hm, hm'] at hface
      have hkeeps : m'.keepsTimes = true := by
        rw [← hk, Muxed.keepsTimes, Muxed.keepsTimes, (Sink.Face.muxed.inj hface).2]
      rw [hs.times hkeeps, htimes hk, History.writtenTimes_append, htold, List.nil_append]

namespace Session

/-- All that is written before the draining goes to the track of the video. -/
theorem written_to_video {s : Session} {container : Container}
    {result : Option (Outcome Recording × Session)}
    (hc : s.settings.format.container? = some container) (hr : Ran s h result) :
    ∀ w ∈ (h.before .draining).writes, h.videoTrack? = some w.track := by
  have hloop : ∀ {setUp loop r s' x} {started : Int64}, Prepared s.begun setUp (.ok r, s') →
      (s'.taking r).Looped (s'.deadline started) loop x →
      ∀ w ∈ loop.writes, (lead setUp started ++ loop).videoTrack? = some w.track := by
    intro setUp loop r s' x started hp hl
    obtain ⟨path, hsink⟩ := Prepared.muxed (s := s.begun) hc hp
    rw [(lead_idle hp).unformatted.videoTrack?_append]
    exact (hl.followed hsink ⟨rfl, rfl⟩).1
  cases hr.course with
  | unlooped hu =>
    rw [History.before_of_notOpened hu.notOpened, hu.quiet.writes_eq_nil]
    exact fun w hw => absurd hw List.not_mem_nil
  | unfinished hp hl =>
    rw [History.before_of_notOpened (unfinished_notOpened hp hl), History.writes_append,
      (lead_quiet hp).writes_eq_nil]
    exact hloop hp hl
  | drained started nanos hp hl =>
    have hclock : History.Quiet [Take.clocked nanos] := by simp [Exchange.carries]
    rw [before_of_drained nanos _ hp hl, History.writes_append, History.writes_append,
      (lead_quiet hp).writes_eq_nil, hclock.writes_eq_nil, List.append_nil, List.nil_append]
    intro w hw
    exact History.videoTrack?_append (History.videoTrack?_append (hloop hp hl w hw))

end Session

end Screencast
