import Screencast.Proofs.Alike
import Screencast.Proofs.RunParts
import Screencast.Rehearsal.Obliging

/-!
# What the display does not change

In its loop a session asks the display how it is turned, and projects it anew when it was turned.
Whatever the answers are, they change nothing but the projection: the encoder, the output, the disk,
the clock and the stop signal are asked the same, and the recording is the same.

* `Take.Turned`, `Session.Turned`: takes and sessions that differ in the projection only.
* `Take.alike_pass`, `Take.alike_pump`: one pass of the loop, and the loop by induction on them.
* `Session.alike_record`: the loop and what follows it, the answer to the encoder's stop left open.
* `Session.alike_prepare`, `Session.alike_run`: the set-up, and the whole run.
* `Session.display_unheeded`: the main result.
-/

namespace Screencast

open History Program

/-! ## The encoder and the output tell all they answer -/

namespace Encoder

variable {e : Encoder} {h : History}

theorem Polled.told {milliseconds : Nat} {r : Outcome Event × Encoder}
    (hp : Polled milliseconds e h r) : h.Told := by
  cases hp <;> simp

theorem told_poll (milliseconds : Nat) (e : Encoder) :
    (poll milliseconds e).Ensures fun h _ => h.Told :=
  (ends_poll milliseconds e).ensures fun _ _ hp => hp.told

theorem told_refresh (e : Encoder) : (refresh e).Ensures fun h _ => h.Told :=
  ensures_refresh.2 ⟨fun _ => by simp, fun _ => by simp⟩

theorem told_releaseBuffer (index : Nat) (e : Encoder) :
    (releaseBuffer index e).Ensures fun h _ => h.Told :=
  ensures_releaseBuffer.2 ⟨fun _ => by simp, by simp⟩

theorem told_release (e : Encoder) : (release e).Ensures fun h _ => h.Told := by
  refine ensures_release.2 ?_
  unfold freeing
  split <;> simp

theorem Configured.told {s : Settings} {size : FrameSize} {frameRate : Single}
    {r : Outcome Surface × Encoder} (hc : Configured s size frameRate e h r) : h.Told := by
  cases hc with
  | busy => simp
  | granted => simp [Encoder.granted]
  | refused _ hr => cases hr <;> simp

theorem told_configureOrShrink (s : Settings) (size : FrameSize) (frameRate : Single)
    (e : Encoder) : (configureOrShrink s size frameRate e).Ensures fun h _ => h.Told :=
  (ends_configureOrShrink s size frameRate e).ensures fun _ _ hs =>
    hs.of_attempts (fun _ _ hh hk => told_append.2 ⟨hh, hk⟩) fun hc => hc.told

end Encoder

namespace Sink

variable {sink : Sink} {h : History}

theorem told_of_within (hw : h.Within [sink.party]) : h.Told :=
  hw.told (by cases sink <;> simp [steeringParties, party, face, Face.party])

theorem told_writeSample (s : Sample) (sink : Sink) :
    (writeSample s sink).Ensures fun h _ => h.Told :=
  (ends_writeSample s sink).ensures fun _ _ hs => told_of_within hs.within

theorem told_formatChanged (format : TrackFormat) (sink : Sink) :
    (formatChanged format sink).Ensures fun h _ => h.Told :=
  (ends_formatChanged format sink).ensures fun _ _ hr => told_of_within hr.within

theorem told_writeTimes (log : FrameTimes.Log) (offset : Int) (sink : Sink) :
    (writeTimes log offset sink).Ensures fun h _ => h.Told :=
  (ends_writeTimes log offset sink).ensures fun _ _ hs => told_of_within hs.within

theorem told_close (sink : Sink) : (close sink).Ensures fun h _ => h.Told :=
  (ends_close sink).ensures fun _ _ hc => told_of_within hc.within

end Sink

/-! ## The loop -/

namespace Take

/-- The same take, but for what the display is projected for. -/
def Turned (t t' : Take) : Prop := ∃ c, t' = { t with capture := c }

/-- The display is followed without telling. -/
theorem alike_followDisplay : Action.Alike Eq Turned followDisplay followDisplay := by
  rintro t _ ⟨c, rfl⟩
  have hmuted : ∀ t, (followDisplay t).Ends fun h r =>
      h.steering = [] ∧ ∃ d, r = (.ok (), { t with capture := d }) := fun t =>
    (ends_followDisplay t).ensures fun h r hr => by
      obtain ⟨d, hr, hl⟩ := hr
      exact ⟨hl.within.steering_eq_nil (by simp [mutedParties]), d, hr⟩
  refine (alike_of_steering (hmuted t) (hmuted _)).mono ?_
  rintro _ _ ⟨⟨d, rfl⟩, d', rfl⟩
  exact .done rfl ⟨d', rfl⟩

theorem alike_onEncoder {α : Type} {a : Action Encoder α}
    (ha : ∀ e, (a e).Ensures fun h _ => h.Told) :
    Action.Alike Eq Turned (onEncoder a) (onEncoder a) :=
  Action.alike_on (fun _ _ ⟨_, ht⟩ => ht ▸ rfl) (fun _ _ _ ⟨c, ht⟩ => ⟨c, ht ▸ rfl⟩) ha

theorem alike_onSink {α : Type} {a : Action Sink α} (ha : ∀ s, (a s).Ensures fun h _ => h.Told) :
    Action.Alike Eq Turned (onSink a) (onSink a) :=
  Action.alike_on (fun _ _ ⟨_, ht⟩ => ht ▸ rfl) (fun _ _ _ ⟨c, ht⟩ => ⟨c, ht ▸ rfl⟩) ha

theorem alike_report (level : Level) (text : String) :
    Action.Alike Eq Turned (report level text : Action Take Unit) (report level text) :=
  Action.alike_lift (alike_self (Program.ensures_report.2 told_nil))

theorem alike_deliver (s : Sample) : Action.Alike Eq Turned (deliver s) (deliver s) := by
  unfold deliver
  refine alike_followDisplay.next fun _ => ?_
  have htime : Program.Alike Eq (timeOf s) (timeOf s) :=
    alike_self ((ends_timeOf s).ensures fun _ _ ht => ht.within.told (by simp [steeringParties]))
  refine (Action.alike_lift htime).next fun time => ?_
  refine (alike_onSink (Sink.told_writeSample { s with time })).next fun _ => ?_
  split
  · exact Action.alike_pure rfl
  · refine Action.alike_modify ?_
    rintro t _ ⟨c, rfl⟩
    exact ⟨c, rfl⟩

theorem alike_writeSample (s : Sample) : Action.Alike Eq Turned (writeSample s) (writeSample s) := by
  have hrest : ∀ sink : Sink, Action.Alike Eq Turned
      (if s.flags.isConfig ∧ !sink.keepsConfig ∨ s.payload.isEmpty then pure ()
        else deliver s : Action Take Unit)
      (if s.flags.isConfig ∧ !sink.keepsConfig ∨ s.payload.isEmpty then pure ()
        else deliver s) := by
    intro sink
    split
    · exact Action.alike_pure rfl
    · exact alike_deliver s
  rintro t _ ⟨c, rfl⟩
  unfold writeSample
  simp only [Action.bind_apply, Action.get_apply, Program.done_bind, Action.continue?_ok]
  split
  · refine (alike_report _ _).next (fun _ => ?_) t _ ⟨c, rfl⟩
    exact hrest t.sink
  · exact hrest t.sink t _ ⟨c, rfl⟩

theorem alike_endOfStream :
    Action.Alike Eq Turned (endOfStream : Action Take Unit) endOfStream :=
  Action.alike_lift (alike_self (ensures_endOfStream.2 (by simp)))

/-- **A pass goes alike** however the display was turned. -/
theorem alike_pass : Action.Alike Eq Turned pass pass := by
  unfold pass
  refine (alike_onEncoder (Encoder.told_poll longestWait)).next fun event => ?_
  cases event with
  | data sample =>
    refine (alike_writeSample sample).next fun _ => ?_
    refine (alike_onEncoder (Encoder.told_releaseBuffer sample.buffer)).next fun _ => ?_
    by_cases hs : sample.flags.isEndOfStream = true
    · rw [if_pos hs]
      refine alike_endOfStream.next fun _ => ?_
      exact Action.alike_pure rfl
    · rw [if_neg hs]
      exact Action.alike_pure rfl
  | formatChanged format =>
    refine (alike_report _ _).next fun _ => ?_
    refine (alike_onSink (Sink.told_formatChanged format)).next fun _ => ?_
    exact Action.alike_pure rfl
  | buffersChanged =>
    refine (alike_report _ _).next fun _ => ?_
    refine (alike_onEncoder Encoder.told_refresh).next fun _ => ?_
    exact Action.alike_pure rfl
  | retry => exact Action.alike_pure rfl
  | endOfStream =>
    refine alike_endOfStream.next fun _ => ?_
    exact Action.alike_pure rfl
  | error code => exact Action.alike_fail _

theorem alike_asked : Program.Alike Eq (Program.request (.signal .isRaised))
    (Program.request (.signal .isRaised)) :=
  alike_self (ensures_ask.2 fun _ => ensures_done.2 (by simp [Exchange.call]))

theorem alike_now : Program.Alike Eq now now :=
  alike_self (ensures_ask.2 fun _ => ensures_done.2 (by simp [Exchange.call]))

/-- **The loop goes alike** however the display was turned, pass after pass. -/
theorem alike_pump (deadline : Int64) (passes : Nat) :
    Action.Alike Eq Turned (pump deadline passes) (pump deadline passes) := by
  induction passes with
  | zero => exact fun _ _ _ => alike_unfinished
  | succ passes ih =>
    unfold pump
    refine (Action.alike_lift alike_asked).next fun raised => ?_
    split
    · exact Action.alike_pure rfl
    refine (Action.alike_lift alike_now).next fun nanos => ?_
    split
    · refine (alike_report _ _).next fun _ => ?_
      exact Action.alike_pure rfl
    refine alike_pass.next fun ended => ?_
    split
    · exact Action.alike_pure rfl
    · exact ih

end Take

/-! ## After the loop -/

/-- The same description under another identity. -/
def Description.Renamed (d d' : Description) : Prop := ∃ identity, d' = { d with identity }

/-- The same recording, its description under another identity. -/
def Recording.Renamed (r r' : Recording) : Prop :=
  ∃ identity, r' = { r with description := { r.description with identity } }

section Files

variable {σ : Type} {S : σ → σ → Prop}

theorem alike_digest (path : Path) :
    Action.Alike Eq S (Recording.digest path) (Recording.digest path) := by
  unfold Recording.digest
  have hread : (DiskRequest.read path).program.Ensures fun h _ => h.Told :=
    ensures_ask.2 fun _ => ensures_done.2 (by simp [Exchange.call])
  refine (Action.alike_lift (alike_self hread)).next fun answer => ?_
  cases answer with
  | error r => exact Action.alike_fail _
  | ok content => exact Action.alike_pure rfl

theorem alike_make (s : Settings) (t : Totals) :
    Program.Alike Description.Renamed (Description.make s t) (Description.make s t) :=
  alike_ask fun _ identity => .inr ⟨rfl, alike_done ⟨identity, rfl⟩⟩

/-- What is written does not matter, only whether it could be. -/
theorem alike_write (path : Path) (content content' : Bytes) :
    Program.Alike (fun x y : Except Disk.Refusal Unit => x = y)
      (DiskRequest.write path content).program (DiskRequest.write path content').program := by
  refine alike_ask fun x y => ?_
  rcases Request.told_disk (.write path []) x y with rfl | hf
  · exact .inr ⟨rfl, alike_done rfl⟩
  · exact .inl hf

theorem alike_save (d d' : Description) (path : Path) :
    Action.Alike Eq S (d.save path) (d'.save path) := by
  unfold Description.save
  have hwrite := alike_write (Description.pathFor path) (utf8 d.toText) (utf8 d'.toText)
  refine (Action.alike_lift hwrite).bind ?_
  rintro (r | _) _ rfl
  · exact Action.alike_fail _
  · exact Action.alike_pure rfl

end Files

namespace Session

/-- The same session, but for what the display is projected for. -/
def Turned (s s' : Session) : Prop := ∃ c, s' = { s with capture := c }

theorem alike_report (level : Level) (text : String) :
    Action.Alike Eq Turned (report level text : Action Session Unit) (report level text) :=
  Action.alike_lift (alike_self (Program.ensures_report.2 told_nil))

theorem alike_onEncoder {α : Type} {a : Action Encoder α}
    (ha : ∀ e, (a e).Ensures fun h _ => h.Told) :
    Action.Alike Eq Turned (onEncoder a) (onEncoder a) :=
  Action.alike_on (fun _ _ ⟨_, hs⟩ => hs ▸ rfl) (fun _ _ _ ⟨c, hs⟩ => ⟨c, hs ▸ rfl⟩) ha

theorem alike_enter (phase : Phase) : Action.Alike Eq Turned (enter phase) (enter phase) := by
  unfold enter
  refine (Action.alike_modify ?_).next fun _ => ?_
  · rintro s _ ⟨c, rfl⟩
    exact ⟨c, rfl⟩
  · exact Action.alike_lift (alike_self (ensures_ask.2 fun _ => ensures_done.2
      (by simp [Exchange.call])))

theorem alike_now : Action.Alike Eq Turned (now : Action Session Int64) now :=
  Action.alike_lift Take.alike_now

/-- The virtual display is destroyed without telling, whichever it is. -/
theorem alike_closeCapture :
    Action.Alike Eq Turned (onCapture Capture.close) (onCapture Capture.close) := by
  rintro s _ ⟨c, rfl⟩
  have hmuted : ∀ s, (onCapture Capture.close s).Ends fun h r =>
      h.steering = [] ∧ r = (.ok (), { s with capture := .initial }) := fun s =>
    Action.ensures_on.2 (Capture.ensures_close.2
      ⟨Capture.closing_within.steering_eq_nil (by simp [mutedParties]), rfl⟩)
  refine (alike_of_steering (hmuted s) (hmuted _)).mono ?_
  rintro _ _ ⟨rfl, rfl⟩
  exact .done rfl ⟨_, rfl⟩

/-- The encoder is stopped, and what that comes to is only reported. -/
theorem alike_stopEncoder : Action.Alike Eq Turned stopEncoder stopEncoder := by
  rintro s _ ⟨c, rfl⟩
  by_cases he : s.encoder.state = .running
  · have hstopped : ∀ s : Session, s.encoder.state = .running → (stopEncoder s).Ends fun h r =>
        h.steering = [⟨.encoder .stop, .ok ()⟩] ∧
          r = (.ok (), { s with encoder := { s.encoder with state := .stopped } }) := fun s he =>
      (ends_stopEncoder s).ensures fun h r hr => by
        obtain ⟨x, e, hh, rfl⟩ := hr
        cases hh with
        | stopped => exact ⟨rfl, rfl⟩
        | unneeded hn => exact absurd he hn
    refine (alike_of_steering (hstopped s he) (hstopped { s with capture := c } he)).mono ?_
    rintro _ _ ⟨rfl, rfl⟩
    exact .done rfl ⟨c, rfl⟩
  · have hidle : ∀ s : Session, s.encoder.state ≠ .running → (stopEncoder s).Ends fun h r =>
        h.steering = [] ∧ r = (.ok (), s) := fun s he =>
      (ends_stopEncoder s).ensures fun h r hr => by
        obtain ⟨x, e, hh, rfl⟩ := hr
        cases hh with
        | stopped _ hn => exact absurd hn he
        | unneeded => exact ⟨rfl, rfl⟩
    refine (alike_of_steering (hidle s he) (hidle { s with capture := c } he)).mono ?_
    rintro _ _ ⟨rfl, rfl⟩
    exact .done rfl ⟨c, rfl⟩

theorem alike_writeTimes (sink : Sink) (times : FrameTimes.Log) :
    Action.Alike Eq Turned (writeTimes sink times) (writeTimes sink times) := by
  unfold writeTimes
  split
  · have hoffset : bootOffset.Ensures fun h _ => h.Told := by
      simp [bootOffset, now, Program.request, Exchange.call]
    refine (Action.alike_lift (alike_self hoffset)).next fun offset => ?_
    refine (Action.alike_lift (alike_self (Sink.told_writeTimes times offset sink))).next
      fun r => ?_
    obtain ⟨f | _, sink⟩ := r
    · exact (alike_report _ _).next fun _ => Action.alike_pure rfl
    · exact Action.alike_pure rfl
  · exact Action.alike_pure rfl

theorem alike_giveBack (sink : Sink) : Action.Alike Eq Turned (giveBack sink) (giveBack sink) := by
  unfold giveBack
  refine alike_closeCapture.next fun _ => ?_
  refine alike_stopEncoder.next fun _ => ?_
  refine (Action.alike_lift (alike_self (Sink.told_close sink))).next fun r => ?_
  obtain ⟨f | _, sink⟩ := r
  · refine (alike_report _ _).next fun _ => ?_
    exact (alike_onEncoder Encoder.told_release).next fun _ => Action.alike_pure rfl
  · exact (alike_onEncoder Encoder.told_release).next fun _ => Action.alike_pure rfl

theorem alike_digestOf (sink : Sink) : Action.Alike Eq Turned (digestOf sink) (digestOf sink) := by
  unfold digestOf
  cases sink.path? with
  | none => exact Action.alike_pure rfl
  | some path => exact (alike_digest path).next fun _ => Action.alike_pure rfl

theorem alike_saveBeside (sink : Sink) (d d' : Description) :
    Action.Alike Eq Turned (saveBeside sink d) (saveBeside sink d') := by
  rintro s _ ⟨c, rfl⟩
  unfold saveBeside
  simp only [Action.bind_apply, Action.get_apply, Program.done_bind, Action.continue?_ok]
  split
  · cases sink.path? with
    | none => exact alike_report _ _ s _ ⟨c, rfl⟩
    | some path => exact alike_save d d' path s _ ⟨c, rfl⟩
  · exact Action.alike_pure rfl s _ ⟨c, rfl⟩

/-- **The conclusion goes alike**, but for the identity under which a recording is described. -/
theorem alike_finish (sink : Sink) (size : FrameSize) (frameRate : Single) (t : Take)
    (seconds : Double) (reason : Ending) :
    Action.Alike Recording.Renamed Turned (finish sink size frameRate t seconds reason)
      (finish sink size frameRate t seconds reason) := by
  rintro s _ ⟨c, rfl⟩
  unfold finish
  simp only [Action.bind_apply, Action.get_apply, Program.done_bind, Action.continue?_ok]
  refine (alike_report _ _).next (fun _ => ?_) s _ ⟨c, rfl⟩
  refine (alike_digestOf sink).next fun checksum => ?_
  refine (Action.alike_lift (alike_make _ _)).bind ?_
  rintro d _ ⟨identity, rfl⟩
  exact (alike_saveBeside sink d _).next fun _ => Action.alike_pure ⟨identity, rfl⟩

/-- What the loop leaves is the same, but for what the display is projected for. -/
theorem alike_loop (passes : Nat) (deadline : Int64) (sink : Sink) :
    Action.Alike (Action.Agreed Eq Take.Turned) Turned (loop passes deadline sink)
      (loop passes deadline sink) := by
  rintro s _ ⟨c, rfl⟩
  unfold loop
  simp only [Action.bind_apply, Action.get_apply, Program.done_bind, Action.continue?_ok]
  have hpump := Take.alike_pump deadline passes ⟨s.encoder, s.capture, sink, 0, .empty⟩ _ ⟨c, rfl⟩
  refine (Action.alike_lift hpump).bind (fun r r' hr => ?_) s _ ⟨c, rfl⟩
  have hmodify : ∀ t t' : Take, Take.Turned t t' → Action.Alike Eq Turned
      (modify fun s : Session => { s with encoder := t.encoder, capture := t.capture })
      (modify fun s : Session => { s with encoder := t'.encoder, capture := t'.capture }) := by
    rintro t _ ⟨d, rfl⟩
    refine Action.alike_modify ?_
    rintro s _ ⟨c, rfl⟩
    exact ⟨d, rfl⟩
  cases hr with
  | failed f ht => exact (hmodify _ _ ht).next fun _ => Action.alike_pure (.failed f ht)
  | done he ht => exact (hmodify _ _ ht).next fun _ => Action.alike_pure (.done he ht)

/-- **A recording goes alike** however the display was turned. -/
theorem alike_record (passes : Nat) (r : Ready) :
    Action.Alike Recording.Renamed Turned (record passes r) (record passes r) := by
  unfold record
  refine (alike_enter .capturing).next fun _ => ?_
  refine alike_now.next fun started => ?_
  rintro s _ ⟨c, rfl⟩
  simp only [Action.bind_apply, Action.get_apply, Program.done_bind, Action.continue?_ok]
  refine (alike_loop passes _ r.sink).bind (fun x y hr => ?_) s _ ⟨c, rfl⟩
  obtain ⟨ended, t⟩ := x
  obtain ⟨ended', t'⟩ := y
  obtain ⟨rfl, d, rfl⟩ : ended = ended' ∧ Take.Turned t t' := by
    cases hr with
    | failed f ht => exact ⟨rfl, ht⟩
    | done he ht => exact ⟨congrArg Except.ok he, ht⟩
  refine alike_now.next fun nanos => ?_
  refine (alike_enter .draining).next fun _ => ?_
  refine (alike_writeTimes t.sink t.times).next fun (timed, sink) => ?_
  refine (alike_giveBack sink).next fun closed => ?_
  have hpure : ∀ {α : Type} (x : Outcome α), Action.Alike Eq Turned
      (Action.attempt (pure x) : Action Session α) (Action.attempt (pure x)) := fun x =>
    Action.alike_attempt (ensures_done.2 told_nil)
  refine (hpure _).next fun reason => ?_
  refine (hpure timed).next fun _ => ?_
  refine (hpure closed).next fun _ => ?_
  exact alike_finish sink r.size r.frameRate t _ reason

/-! ## The set-up -/

section Create

variable {σ : Type} {S : σ → σ → Prop}

theorem alike_create (path : Path) (container : Container) (rotate : Bool) :
    Action.Alike Eq S (Muxed.create path container rotate)
      (Muxed.create path container rotate) := by
  have hask : ∀ r : MuxerRequest, (Muxed.ask r).Ensures fun h _ => h.Told := fun r =>
    ensures_ask.2 fun _ => ensures_done.2 (by simp [Exchange.call])
  have hremove : (Program.request (.disk (.remove path))).Ensures fun h _ => h.Told :=
    ensures_ask.2 fun _ => ensures_done.2 (by simp [Exchange.call])
  have hclear : Action.Alike Eq S (Muxed.clear path) (Muxed.clear path) := by
    unfold Muxed.clear
    refine (Action.alike_lift (alike_self hremove)).next fun answer => ?_
    split
    · exact Action.alike_lift (alike_self (Program.ensures_report.2 told_nil))
    · exact Action.alike_pure rfl
    · exact Action.alike_fail _
  unfold Muxed.create Muxed.make
  refine hclear.next fun _ => ?_
  refine (Action.alike_attempt (hask _)).next fun _ => ?_
  split
  · exact (Action.alike_attempt (hask _)).next fun _ => Action.alike_pure rfl
  · exact Action.alike_pure rfl

theorem alike_openFor (d : Destination) :
    Action.Alike Eq S (Raw.openFor d) (Raw.openFor d) := by
  cases d with
  | file path =>
    have hcreate : (Program.request (.disk (.create path))).Ensures fun h _ => h.Told :=
      ensures_ask.2 fun _ => ensures_done.2 (by simp [Exchange.call])
    unfold Raw.openFor
    refine (Action.alike_lift (alike_self hcreate)).next fun answer => ?_
    split
    · exact Action.alike_pure rfl
    · exact Action.alike_fail _
  | standardOutput =>
    have hterminal : (Stream.ask .rawTerminal).Ensures fun h _ => h.Told :=
      ensures_ask.2 fun _ => ensures_done.2 (by simp [Exchange.call])
    unfold Raw.openFor
    refine (Action.alike_lift (alike_self hterminal)).next fun terminal => ?_
    split
    · exact (Action.alike_lift (alike_self (Program.ensures_report.2 told_nil))).next fun _ =>
        Action.alike_pure rfl
    · exact Action.alike_pure rfl

end Create

theorem alike_openOutput : Action.Alike Eq Turned openOutput openOutput := by
  rintro ⟨settings, hasMuxer, output, e, c, phase, hasRun⟩ _ ⟨d, rfl⟩
  unfold openOutput
  simp only [Action.bind_apply, Action.get_apply, Program.done_bind, Action.continue?_ok]
  cases settings.format.container? with
  | some container =>
    cases settings.destination.path? with
    | none => exact Action.alike_fail _ _ _ ⟨d, rfl⟩
    | some path =>
      simp only
      split
      · exact (alike_create path container settings.rotate).next
          (fun _ => Action.alike_pure rfl) _ _ ⟨d, rfl⟩
      · exact Action.alike_fail _ _ _ ⟨d, rfl⟩
  | none =>
    cases output with
    | some raw =>
      refine (Action.alike_modify ?_).next (fun _ => Action.alike_pure rfl) _ _ ⟨d, rfl⟩
      rintro s _ ⟨c, rfl⟩
      exact ⟨c, rfl⟩
    | none =>
      exact (alike_openFor settings.destination).next (fun _ => Action.alike_pure rfl) _ _
        ⟨d, rfl⟩

/-- A virtual display is made without telling, and where it is made it is projected alike. -/
theorem alike_startCapture (surface : Surface) (geometry : Geometry) (size : FrameSize)
    (rotate : Bool) :
    Action.AlikeIfOk Turned (onCapture (Capture.start surface geometry size rotate))
      (onCapture (Capture.start surface geometry size rotate)) := by
  rintro s _ ⟨c, rfl⟩ h x t k y t' hh hk
  have hmuted : ∀ s, (onCapture (Capture.start surface geometry size rotate) s).Ends fun h r =>
      h.steering = [] ∧ ∀ x t, r = (.ok x, t) → x = .fit geometry size rotate ∧
        ∃ c, t = { s with capture := c } := fun s =>
    Action.ensures_on.2 <| (Capture.ends_start surface geometry size rotate s.capture).ensures
      fun h r hr => by
        refine ⟨hr.within.steering_eq_nil (by simp [mutedParties]), fun x t hx => ?_⟩
        cases hr <;> cases hx
        exact ⟨rfl, _, rfl⟩
  obtain ⟨hsteer, hx⟩ := hmuted s h _ hh
  obtain ⟨hsteer', hy⟩ := hmuted _ k _ hk
  rw [steering_calls] at hsteer hsteer'
  obtain ⟨rfl, d, rfl⟩ := hx x t rfl
  obtain ⟨rfl, d', rfl⟩ := hy y t' rfl
  exact .inr ⟨hsteer.trans hsteer'.symm, rfl, d', rfl⟩

theorem alikeIfOk_orAbandon {α : Type} {a : Action Session α} (ha : Action.AlikeIfOk Turned a a) :
    Action.AlikeIfOk Turned (orAbandon a) (orAbandon a) := by
  intro s s' hs h x t k y t' hh hk
  exact ha s s' hs h x t k y t' (runs_orAbandon_ok hh) (runs_orAbandon_ok hk)

variable {s t t' : Session} {h k l l' : History} {r r' : Ready}

/-- What the display shows is what it answers at first, whatever it answers later. -/
theorem Inspected.unique {settings : Settings} {x y : Geometry × Single}
    (hl : Inspected settings l (.ok x)) (hl' : Inspected settings l' (.ok y))
    (hd : l ++ h = l' ++ k) : x = y := by
  cases hl with
  | fixed geometry rate hr =>
    cases hl' with
    | fixed geometry' rate' hr' =>
      obtain ⟨hhead, -⟩ := List.cons.inj hd
      cases hhead
      rw [Option.some.inj (hr.symm.trans hr')]
    | rated _ _ hr' => rw [hr] at hr'; cases hr'
  | rated geometry rate hr =>
    cases hl' with
    | fixed _ _ hr' => rw [hr] at hr'; cases hr'
    | rated geometry' rate' =>
      obtain ⟨hhead, hrest⟩ := List.cons.inj hd
      obtain ⟨hnext, -⟩ := List.cons.inj hrest
      cases hhead
      cases hnext
      rfl

theorem alike_acquire (settings : Settings) (seen : Geometry × Single) :
    Action.AlikeIfOk Turned (acquire settings seen) (acquire settings seen) := by
  unfold acquire
  refine (alike_onEncoder (Encoder.told_configureOrShrink _ _ _)).ifOk.next fun encoded => ?_
  refine (alikeIfOk_orAbandon (alike_startCapture _ _ _ _)).next fun _ => ?_
  exact (alikeIfOk_orAbandon alike_openOutput.ifOk).next fun _ => (Action.alike_pure rfl).ifOk

/-- **Two set-ups that succeed** go alike where the display answers the same in both. -/
theorem alike_prepare (hh : (prepare s).Runs h (some (.ok r, t)))
    (hk : (prepare s).Runs k (some (.ok r', t'))) (hd : h.only .display = k.only .display) :
    Forked h.steering k.steering ∨ h.steering = k.steering ∧ r = r' ∧ Turned t t' := by
  obtain ⟨l, h, seen, rfl, hl, hh⟩ := runs_prepare_ok hh
  obtain ⟨l', k, seen', rfl, hl', hk⟩ := runs_prepare_ok hk
  -- a look at the display is made of its answers, and steers nothing
  have hseen : ∀ {l : History} {seen}, Inspected s.settings l.calls (.ok seen) →
      l.only .display = l.calls ∧ l.steering = [] := by
    intro l seen hl
    rw [← only_calls (nofun : Party.display ≠ .report) l, ← steering_calls l]
    refine ⟨List.filter_eq_self.2 fun e he => ?_, hl.within.steering_eq_nil ?_⟩
    · exact beq_iff_eq.2 (List.mem_singleton.1 (hl.within e he))
    · simp [mutedParties]
  rw [only_append, only_append, (hseen hl).1, (hseen hl').1] at hd
  obtain rfl := hl.unique hl' hd
  rw [steering_append, steering_append, (hseen hl).2, (hseen hl').2]
  exact alike_acquire s.settings seen s s ⟨s.capture, rfl⟩ _ _ _ _ _ _ hh hk

/-! ## The whole run -/

variable {passes : Nat} {x y : Option (Outcome Recording × Session)}

/-- **Two recordings that reach their loops** go alike where the display answers the same in their
set-ups. -/
theorem alike_perform (hh : (perform passes s).Runs h x) (hk : (perform passes s).Runs k y)
    (ho : ∃ e ∈ h.calls, e.opens .capturing = true)
    (ho' : ∃ e ∈ k.calls, e.opens .capturing = true)
    (hd : (h.calls.before .capturing).only .display = (k.calls.before .capturing).only .display) :
    Forked h.steering k.steering ∨ h.steering = k.steering ∧
      Option.Rel (Action.Agreed Recording.Renamed Turned) x y := by
  obtain ⟨l, h, r, t, rfl, hl, hh, hbefore⟩ := runs_perform hh ho
  obtain ⟨l', k, r', t', rfl, hl', hk, hbefore'⟩ := runs_perform hk ho'
  have hcalls := only_calls (nofun : Party.display ≠ .report)
  rw [hbefore, hbefore', hcalls, hcalls] at hd
  rw [steering_append, steering_append]
  rcases alike_prepare hl hl' hd with hf | ⟨hs, rfl, ht⟩
  · exact .inl (hf.append _ _)
  · rw [hs]
    rcases alike_record passes r t t' ht h x k y hh hk with hf | ⟨hs, hx⟩
    · exact .inl (hf.after _)
    · exact .inr ⟨by rw [hs], hx⟩

/-- The notices around a recording do not steer, and nothing is asked of the display there. -/
theorem steering_of_notices (hw : k.calls.Within [.watcher])
    (ho : ∃ e ∈ l.calls, e.opens .capturing = true) :
    steering (entered .configuring :: (l ++ k)) = l.steering ∧
      ((calls (entered .configuring :: (l ++ k))).before .capturing).only .display =
        (l.calls.before .capturing).only .display := by
  have hs : k.steering = [] :=
    (steering_calls k).symm.trans (hw.steering_eq_nil (by simp [mutedParties]))
  constructor
  · rw [steering_cons, steering_append, hs, List.append_nil]
    rfl
  · rw [calls_cons, calls_append, ← before_append_of_opened ho (k := k.calls)]
    rfl

/-- **Two runs that reach their loops** go alike where the display answers the same in their
set-ups. -/
theorem alike_run (hh : (run passes s).Runs h x) (hk : (run passes s).Runs k y)
    (hn : s.hasRun = false) (ho : ∃ e ∈ h.calls, e.opens .capturing = true)
    (ho' : ∃ e ∈ k.calls, e.opens .capturing = true)
    (hd : (h.calls.before .capturing).only .display = (k.calls.before .capturing).only .display) :
    Forked h.steering k.steering ∨ h.steering = k.steering ∧
      Option.Rel (Action.Agreed Recording.Renamed Turned) x y := by
  obtain ⟨l, m, x, rfl, hl, -, hm, ho, rfl⟩ := runs_run_of_opened hh hn ho
  obtain ⟨l', m', y, rfl, hl', -, hm', ho', rfl⟩ := runs_run_of_opened hk hn ho'
  obtain ⟨hs, hbefore⟩ := steering_of_notices hm ho
  obtain ⟨hs', hbefore'⟩ := steering_of_notices hm' ho'
  rw [hbefore, hbefore'] at hd
  rw [hs, hs']
  refine (alike_perform hl hl' ho ho' hd).imp_right fun ⟨he, hr⟩ => ⟨he, ?_⟩
  cases hr with
  | none => exact .none
  | some hr =>
    cases hr with
    | failed f ht =>
      obtain ⟨c, rfl⟩ := ht
      exact .some (.failed f ⟨c, rfl⟩)
    | done hv ht =>
      obtain ⟨c, rfl⟩ := ht
      exact .some (.done hv ⟨c, rfl⟩)

/-- **The display does not affect a recording.** Of any two runs of a session that reach their
loops, and are told the same of the display before, as long as the encoder, the output, the disk,
the clock and the stop signal answer the same: whatever the display and the compositor answer in the
loops, the two ask the same of the others in the same order, raise the stop signal alike, and end
with the same failure or with the same recording, but for the identity of its description. -/
theorem display_unheeded {settings : Settings} {hasMuxer : Bool} {output : Option Raw}
    (hh : (run passes (ofSettings settings hasMuxer output)).Runs h x)
    (hk : (run passes (ofSettings settings hasMuxer output)).Runs k y)
    (ho : ∃ e ∈ h.calls, e.opens .capturing = true)
    (ho' : ∃ e ∈ k.calls, e.opens .capturing = true)
    (hd : (h.calls.before .capturing).only .display = (k.calls.before .capturing).only .display)
    (hn : ¬Forked h.shared k.shared) :
    h.shared = k.shared ∧ Option.Rel (Action.Agreed Recording.Renamed Turned) x y := by
  have hrun := alike_run hh hk rfl ho ho' hd
  have hshared : h.shared = k.shared :=
    (forked_or_eq (hrun.imp_right And.left)).resolve_left hn
  have hsteering : h.steering = k.steering := congrArg (List.map Exchange.steering) hshared
  rw [hsteering] at hrun
  exact ⟨hshared, (hrun.resolve_left (not_forked_self _)).2⟩

open Rehearsal in
/-- A recording of two pictures, and the same one where the display is turned and cannot be projected
before the first of them, and is lost before the second. -/
theorem display_unheeded_obliging :
    let p := run 9 (ofSettings .standard true none)
    let device := Obliging.ofEvents [.formatChanged, .buffer ⟨0, 1, 2, 0, .empty⟩,
      .buffer ⟨1, 0, 4, 7, .keyFrame⟩]
    let h := p.history Obliging.answer device
    let k := p.history Obliging.answerTurning device
    h.only .display ≠ k.only .display ∧ h.only .capture ≠ k.only .capture ∧
      h.shared = k.shared ∧ Option.Rel (Action.Agreed Recording.Renamed Turned)
        (p.run Obliging.answer device).1 (p.run Obliging.answerTurning device).1 := by
  intro p device h k
  refine ⟨by decide +kernel, by decide +kernel, ?_⟩
  exact display_unheeded (runs_run _ _ _) (runs_run _ _ _) (by decide +kernel) (by decide +kernel)
    (by decide +kernel) (by decide +kernel)

end Session

end Screencast
