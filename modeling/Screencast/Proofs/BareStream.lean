import Screencast.Proofs.BareOutput
import Screencast.Proofs.Kept
import Screencast.Proofs.RawUse

/-!
# The bare stream

Without a container every buffer that is not empty is passed on byte for byte, parameters of the
codec included. A supplied output leaves the destination alone. A file holds what was passed on and
nothing else, and the digest is of that.

* `Channel.bytes`, `Channel.deliveries`: what a stream and what somebody called gets.
* `Session.BareOutput`: where the stream of a session goes.
* `Session.stream_passed`: the whole run.
-/

namespace Screencast

/-- Whether a buffer holds anything. -/
def FilledBuffer.isFilled (b : FilledBuffer) : Bool := 0 < b.size

/-- The payload that somebody is called with. -/
def Exchange.delivery? : Exchange → Option Bytes
  | ⟨.stream (.deliver bytes), _⟩ => some bytes
  | _ => none

namespace History

/-- The buffers with anything in them that the encoder has handed out. -/
def filled (h : History) : List Handout := (h.handouts []).filter fun o => o.buffer.isFilled

/-- The payloads that somebody was called with. -/
def deliveries (h : History) : List Bytes := h.filterMap Exchange.delivery?

variable {h : History}

theorem Quiet.deliveries_eq_nil (hq : h.Quiet) : h.deliveries = [] := by
  rw [deliveries, List.filterMap_eq_nil_iff]
  intro e he
  have hcarries := hq e he
  rcases e with ⟨_ | _ | _ | _ | r | _, answer⟩
  case stream =>
    cases r with
    | deliver => cases hcarries
    | _ => rfl
  all_goals rfl

end History

variable {h : History}

/-- What is passed on to a stream. -/
theorem Raw.Passed.taken {s : Stream} {bytes : Bytes} {flush : Bool} {x : Except String Unit}
    (hp : Raw.Passed (.stream s) bytes flush h x) :
    h.taken s <+: bytes ∧ (x = .ok () → h.taken s = bytes) := by
  cases hp with
  | failed _ text hw => exact ⟨hw.handedOver.taken, hw.handedOver.whole.1⟩
  | wrote hw => exact ⟨hw.handedOver.taken, hw.handedOver.whole.1⟩
  | @flushed _ _ k _ hw =>
    have htaken : History.taken s (k ++ [⟨.stream (.flush s), x⟩]) = bytes := by
      rw [History.taken_append, hw.handedOver.whole.1 rfl]
      exact List.append_nil _
    rw [htaken]
    exact ⟨List.prefix_rfl, fun _ => rfl⟩

namespace Channel

/-- The bytes that a stream gets. -/
def bytes (s : Stream) : Channel UInt8 where
  wanted := FilledBuffer.isFilled
  due := Handout.bytes?
  out := History.taken s
  size_pos := by simp [FilledBuffer.isFilled]
  due_andThen := Handout.bytes?_andThen
  out_append := by simp
  out_quiet := History.Quiet.taken_eq_nil

/-- The payloads that somebody is called with. -/
def deliveries : Channel Bytes where
  wanted := FilledBuffer.isFilled
  due o := o.bytes?.map ([·])
  out := History.deliveries
  size_pos := by simp [FilledBuffer.isFilled]
  due_andThen := by
    intro o k l hl
    obtain ⟨payload, hb, rfl⟩ := Option.map_eq_some_iff.1 hl
    rw [Handout.bytes?_andThen hb]
    rfl
  out_append := fun _ _ => List.filterMap_append
  out_quiet := History.Quiet.deliveries_eq_nil

/-- The bare stream has a use for every sample that is not empty. -/
theorem filled_iff {r : Raw} {b : FilledBuffer} {payload : Bytes} {time : Int}
    (hl : payload.length = b.size) :
    b.isFilled = true ↔ ¬Take.Unwanted (sampleOf b payload time) (.raw r) := by
  have hkeeps : (Sink.raw r).keepsConfig = true := rfl
  have hempty : payload = [] ↔ ¬0 < b.size := by
    rw [← hl, List.length_pos_iff, Decidable.not_not]
  simp [FilledBuffer.isFilled, Take.Unwanted, sampleOf, hkeeps, hempty, Nat.pos_iff_ne_zero]

theorem bytes_serves {s : Stream} {r : Raw} (ht : r.target = .stream s) :
    (bytes s).Serves (.raw r) where
  wanted_iff := filled_iff
  sent := by
    intro o payload time k x sink' _ hb _ hs
    cases hs with
    | raw hs =>
    cases hs with
    | closed => exact ⟨fun h => (by cases h), .inl rfl⟩
    | empty _ hp => exact ⟨fun _ => hb.trans (congrArg some hp), .inl rfl⟩
    | failed _ _ _ _ _ hw =>
      rw [ht] at hw
      exact ⟨fun h => (by cases h), .inr ⟨payload, hb, hw.taken.1⟩⟩
    | took _ _ hw =>
      rw [ht] at hw
      have hall := hw.taken.2 rfl
      exact ⟨fun _ => hb.trans (congrArg some hall.symm), .inr ⟨payload, hb, hw.taken.1⟩⟩

theorem deliveries_serves {r : Raw} (ht : r.target = .callback) :
    deliveries.Serves (.raw r) where
  wanted_iff := filled_iff
  sent := by
    intro o payload time k x sink' hfilled hb _ hs
    have hcalled : ∀ {y flush}, Raw.Passed .callback payload flush k y →
        deliveries.due o = some (deliveries.out k) := by
      intro y flush hw
      cases hw
      exact congrArg (Option.map _) hb
    cases hs with
    | raw hs =>
    cases hs with
    | closed => exact ⟨fun h => (by cases h), .inl rfl⟩
    | empty _ hp =>
      have hunwanted : Take.Unwanted (sampleOf o.buffer payload time) (.raw r) := .inr hp
      exact absurd hunwanted ((filled_iff (Handout.length_of_bytes? hb)).1 hfilled)
    | failed _ _ _ _ _ hw =>
      rw [ht] at hw
      exact ⟨fun h => (by cases h), .inr ⟨_, hcalled hw, List.prefix_rfl⟩⟩
    | took _ _ hw =>
      rw [ht] at hw
      exact ⟨fun _ => hcalled hw, .inr ⟨_, hcalled hw, List.prefix_rfl⟩⟩

end Channel

/-- What a target has got: all of some payloads in their order, and a part of one more. Somebody who
is called gets each payload at once. -/
def Raw.Target.HasGot (target : Raw.Target) (h : History) (payloads : List Bytes) (part : Bytes) :
    Prop :=
  match target with
  | .stream s => h.taken s = payloads.flatten ++ part
  | .callback => h.deliveries = payloads ∧ part = []

namespace Session

open Rehearsal

variable {s s' : Session} {result : Option (Outcome Recording × Session)}
  {supply : Option Supply} {sent lost : List Handout} {payloads : List Bytes} {part : Bytes}

/-- The calls of a run have passed on what `sent` of the filled buffers held, and a part of what was
lost with the last one that was asked for, at which the run fails. -/
structure PayloadsPassed (target : Raw.Target) (h : History)
    (result : Option (Outcome Recording × Session)) (sent lost : List Handout)
    (payloads : List Bytes) (part : Bytes) : Prop where
  handedOut : (h.before .draining).filled = sent ++ lost
  held : sent.map Handout.bytes? = payloads.map some
  passed : target.HasGot (h.before .draining) payloads part
  part : part = [] ∨
    ∃ o payload, lost = [o] ∧ o.bytes? = some payload ∧ part <+: payload ∧ part ≠ payload
  failed : lost = [] ∨ ∃ o f s, lost = [o] ∧ o.rest.Idle ∧ result = some (.error f, s)
  idle : (h.since .draining).Idle
  counted : ∀ recording s, result = some (.ok recording, s) → lost = [] ∧
    recording.frameCount = UInt64.ofNat (sent.countP fun o => !o.buffer.flags.isConfig)

/-- **What is passed on** to the target of a session. -/
theorem payloadsPassed_of_ran (hc : s.settings.format.container? = none)
    (hs : s.output = supply.map Supply.raw) (hr : Ran s h result) :
    ∃ sent lost payloads part,
      PayloadsPassed (.of supply s.settings.destination) h result sent lost payloads part := by
  have hface : ∀ {setUp r s'}, Prepared s.begun setUp (.ok r, s') → ∀ sink : Sink,
      sink.face = r.sink.face →
        ∃ raw, sink = .raw raw ∧ raw.target = .of supply s.settings.destination := by
    intro setUp r s' hp sink hsink
    obtain ⟨k, opened, -, -, ho⟩ := Prepared.bare (s := s.begun) hc hs hp
    obtain ⟨path, hof⟩ := ho.face_eq
    obtain m | raw := sink
    · cases hsink.trans hof
    · exact ⟨raw, rfl, (Sink.Face.raw.inj (hsink.trans hof)).1⟩
  generalize Raw.Target.of supply s.settings.destination = target at hface ⊢
  cases target with
  | stream stream =>
    obtain ⟨sent, lost, part, hk⟩ := kept_of_ran (c := Channel.bytes stream)
      (fun hp sink hsink => by
        obtain ⟨raw, rfl, htarget⟩ := hface hp sink hsink
        exact Channel.bytes_serves htarget) hr
    obtain ⟨payloads, hdue, hout⟩ := hk.conveyed.out
    exact ⟨sent, lost, payloads, part, hk.conveyed.wanted, hdue, hout, hk.part, hk.failed, hk.idle,
      fun recording s h => ⟨(h ▸ hk).lost_eq_nil, hk.frames recording s h⟩⟩
  | callback =>
    obtain ⟨sent, lost, part, hk⟩ := kept_of_ran (c := Channel.deliveries)
      (fun hp sink hsink => by
        obtain ⟨raw, rfl, htarget⟩ := hface hp sink hsink
        exact Channel.deliveries_serves htarget) hr
    obtain ⟨chunks, hdue, hout⟩ := hk.conveyed.out
    have hpart : part = [] := Channel.part_of_single <| hk.part.imp id fun ⟨o, l, _, h⟩ => ⟨o, l, h⟩
    rw [hpart, List.append_nil] at hout
    exact ⟨sent, lost, chunks.flatten, [], hk.conveyed.wanted, Channel.map_of_single hdue,
      ⟨hout, rfl⟩, .inl rfl, hk.failed, hk.idle,
      fun recording s h => ⟨(h ▸ hk).lost_eq_nil, hk.frames recording s h⟩⟩

/-- What becomes of the destination in a run without a container. -/
structure DestinationKept (supply : Option Supply) (d : Destination) (h : History)
    (result : Option (Outcome Recording × Session)) : Prop where
  quiet : (h.since .draining).Quiet
  muxerless : h.only .muxer = []
  supplied : supply ≠ none → h.only .disk = []
  undigested : ∀ recording s, result = some (.ok recording, s) →
    (∀ path, supply = none → d ≠ .file path) → recording.checksum = none
  file : ∀ recording s path, result = some (.ok recording, s) → supply = none → d = .file path →
    FileReliable path h →
      h.file? path = some ⟨(h.before .draining).taken (.file path), []⟩ ∧
        recording.checksum =
          some (hexText (Sha256.digest ((h.before .draining).taken (.file path))))

/-- A run with a supplied output does not turn to the disk. -/
theorem only_disk_of_supplied (hc : s.settings.format.container? = none)
    (hs : s.output = supply.map Supply.raw) (hsup : supply ≠ none) (hr : Ran s h result) :
    h.only .disk = [] := by
  obtain ⟨supply, rfl⟩ := Option.ne_none_iff_exists'.1 hsup
  have hparties : h.Within (.identity :: courseParties s.settings) := by
    refine hr.course.within (by simp) (fun hp => ?_) fun hp hsink hset => ?_
    · exact (Prepared.undisked (s := s.begun) hc hs hp).mono (by simp [courseParties])
    · obtain ⟨k, opened, -, -, ho⟩ := Prepared.bare (s := s.begun) hc hs hp
      obtain ⟨target, hface, -⟩ := ho.pathless fun _ h => (by cases h)
      exact (hset.pathless (Sink.path?_of_face (hsink.trans hface))).1.mono (by simp)
  exact hparties.only_eq_nil (by simp [courseParties, outlet, hc])

/-- **What becomes of the destination.** -/
theorem destinationKept_of_ran (hc : s.settings.format.container? = none)
    (hs : s.output = supply.map Supply.raw) (hr : Ran s h result) :
    DestinationKept supply s.settings.destination h result := by
  have hmuxer : h.only .muxer = [] := hr.within.only_eq_nil (by simp [courseParties, outlet, hc])
  have hdisk := fun hsup => only_disk_of_supplied hc hs hsup hr
  cases hr.course with
  | unlooped hu =>
    refine ⟨?_, hmuxer, hdisk, fun _ _ h => (by cases h), fun _ _ _ h => (by cases h)⟩
    rw [History.since_of_notOpened hu.notOpened]
    simp
  | unfinished hp hl =>
    refine ⟨?_, hmuxer, hdisk, fun _ _ h => (by cases h), fun _ _ _ h => (by cases h)⟩
    rw [History.since_of_notOpened (unfinished_notOpened hp hl)]
    simp
  | @drained setUp loop times back rest last r s' s'' t sink looped timed closed x started nanos
      hp hl ht hb hset hlast =>
    obtain ⟨k, opened, -, -, ho⟩ := Prepared.bare (s := s.begun) hc hs hp
    have hsink : sink.face = r.sink.face := ht.face_eq.trans hl.face_eq
    have hstream : t.sink.party = .stream := by
      have hnone : s.begun.settings.format.container? = none := hc
      have hparty := hp.party
      rw [outlet, hnone] at hparty
      rw [Sink.party, hl.face_eq]
      exact hparty
    obtain rfl := ht.bare hstream
    -- behind the loop the stream is flushed, but nothing is handed to it
    refine ⟨?_, hmuxer, hdisk, fun recording s₁ h hd => ?_,
      fun recording s₁ path h hsup hd hrel => ?_⟩
    · rw [since_of_drained nanos _ hp hl]
      simp [hb.quiet, hset.within.quiet, hlast.quiet, Exchange.carries]
    · obtain ⟨rfl, -⟩ := Prod.mk.inj (Option.some.inj h)
      obtain ⟨target, hface, -⟩ := ho.pathless hd
      exact (hset.pathless (Sink.path?_of_face (hsink.trans hface))).2 recording rfl
    · obtain ⟨rfl, -⟩ := Prod.mk.inj (Option.some.inj h)
      subst hsup
      have hclock : History.Quiet [Take.clocked nanos] := by simp [Exchange.carries]
      have htaken : (lead setUp started ++ loop ++ [Take.clocked nanos]).taken (.file path) =
          loop.taken (.file path) := by
        rw [History.taken_append, History.taken_append, (lead_quiet hp).taken_eq_nil,
          hclock.taken_eq_nil, List.nil_append, List.append_nil]
      rw [before_of_drained nanos _ hp hl, htaken]
      exact file_of_drained (s := s.begun) hc hs hd hp hl ht hb hset hlast hrel

/-- What a run without a container has passed on, and what became of its destination. -/
structure StreamPassed (supply : Option Supply) (d : Destination) (h : History)
    (result : Option (Outcome Recording × Session)) (sent lost : List Handout)
    (payloads : List Bytes) (part : Bytes) : Prop extends
    PayloadsPassed (.of supply d) h result sent lost payloads part where
  quiet : (h.since .draining).Quiet
  muxerless : h.only .muxer = []
  supplied : supply ≠ none → h.only .disk = []
  undigested : ∀ recording s, result = some (.ok recording, s) →
    (∀ path, supply = none → d ≠ .file path) → recording.checksum = none
  file : ∀ recording s path, result = some (.ok recording, s) → supply = none → d = .file path →
    FileReliable path h → h.file? path = some ⟨payloads.flatten, []⟩ ∧
      recording.checksum = some (hexText (Sha256.digest payloads.flatten))

/-- **The bare stream is passed on.** In any run without a container, finished or not, what the
output gets is what the filled buffers held that the encoder handed out, in their order and once,
but for the one at which the run fails. A run that ends well counts those that are not parameters of
the codec. A supplied output leaves the destination alone; otherwise the file holds what was passed
on, and the digest is of that. -/
theorem stream_passed {settings : Settings} {hasMuxer : Bool} {passes : Nat}
    (hc : settings.format.container? = none)
    (hr : (run passes (ofSettings settings hasMuxer (supply.map Supply.raw))).Runs h result) :
    ∃ sent lost payloads part,
      StreamPassed supply settings.destination h.calls result sent lost payloads part := by
  have hran := ensures_run passes _ h result hr
  obtain ⟨sent, lost, payloads, part, hpassed⟩ := payloadsPassed_of_ran hc rfl hran
  obtain ⟨hquiet, hmuxer, hdisk, hdigest, hfile⟩ := destinationKept_of_ran hc rfl hran
  refine ⟨sent, lost, payloads, part, hpassed, hquiet, hmuxer, hdisk, hdigest, ?_⟩
  intro recording s path hresult hsup hd hrel
  have hgot : (Raw.Target.of supply settings.destination).HasGot (h.calls.before .draining)
      payloads part := hpassed.passed
  have hpart : part = [] := by
    rcases hpassed.part with hp | ⟨o, payload, ho, -⟩
    · exact hp
    · rw [(hpassed.counted recording s hresult).1] at ho
      cases ho
  rw [hsup, hd, hpart] at hgot
  have htaken : (h.calls.before .draining).taken (.file path) = payloads.flatten :=
    hgot.trans (List.append_nil _)
  rw [← htaken]
  exact hfile recording s path hresult hsup hd hrel

/-- A recording of parameters of the codec and of a picture into a file. -/
theorem stream_passed_obliging :
    let path : Path := ⟨"screenrecord.mp4"⟩
    let settings := { Settings.standard with format := .h264 }
    let p := run 9 (ofSettings settings true none)
    let device := Obliging.ofEvents [.buffer ⟨1, 0, 1, 0, .codecConfig⟩,
      .buffer ⟨0, 1, 2, 7, .keyFrame⟩]
    let h := (p.history Obliging.answer device).calls
    FileReliable path h ∧ h.file? path = some ⟨[1, 2, 3], []⟩ ∧
      ((p.run Obliging.answer device).1.bind (·.1.toOption)).bind Recording.checksum =
        some (hexText (Sha256.digest [1, 2, 3])) ∧
      ∃ sent lost payloads part, StreamPassed none settings.destination h
        (p.run Obliging.answer device).1 sent lost payloads part :=
  ⟨⟨by decide +kernel, fun _ => by decide +kernel⟩, by decide +kernel, by decide +kernel,
    stream_passed rfl (Program.runs_run _ _ _)⟩

end Session

end Screencast
