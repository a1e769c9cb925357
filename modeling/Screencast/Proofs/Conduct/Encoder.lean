import Screencast.Encoder
import Screencast.Proofs.Ensures

/-!
# The conduct of the encoder

What each operation on the encoder asks of it, in which order, and what it comes to after each
answer. A statement about all runs of a recording goes through these cases and never through the
operations.

* `Encoder.Configured`, `Encoder.Shrunk`: a set-up at one size, and one with a second attempt.
* `Encoder.Polled`: the wait for the next event.
* `ensures_refresh`, `ensures_releaseBuffer`: the operations with a single call.
* `Encoder.Halted`, `Encoder.freeing`: the stop, and the call that frees the encoder.
-/

namespace Screencast

namespace FilledBuffer

/-- A buffer without data after which no other comes. -/
def isLast (b : FilledBuffer) : Prop := b.size = 0 ∧ b.flags.isEndOfStream

/-- The bytes that a buffer announces, where the data of its slot reaches so far. -/
def bytes? (b : FilledBuffer) (data : Bytes) : Option Bytes :=
  if b.offset + b.size ≤ data.length then some ((data.drop b.offset).take b.size) else none

theorem length_of_bytes? {b : FilledBuffer} {data payload : Bytes}
    (hb : b.bytes? data = some payload) : payload.length = b.size := by
  unfold bytes? at hb
  split at hb
  · cases hb
    simp only [List.length_take, List.length_drop]
    omega
  · cases hb

end FilledBuffer

namespace Encoder

variable {e : Encoder}

/-- What is being done when the surface is refused. -/
def surfaceDoing (persistent : Bool) : String :=
  if persistent then "set input surface" else "create input surface"

/-- The calls of a set-up that was granted at every step. -/
def granted (params : EncoderSettings) (persistent : Bool) (surface : Surface)
    (table : List Slot) : History :=
  [⟨.encoder (.configure params), .ok ()⟩, ⟨.encoder (.createSurface persistent), .ok surface⟩,
   ⟨.encoder .start, .ok ()⟩, ⟨.encoder .bufferTable, .ok table⟩]

/-- The calls of a set-up that was refused, and the failure that it is told as. -/
inductive Refused (params : EncoderSettings) (persistent : Bool) : History → Failure → Prop
  | configure (f : Failure) :
      Refused params persistent [⟨.encoder (.configure params), .error f⟩]
        (f.asStage .encoder "configure")
  | surface (f : Failure) :
      Refused params persistent
        [⟨.encoder (.configure params), .ok ()⟩, ⟨.encoder (.createSurface persistent), .error f⟩]
        (f.asStage .encoder (surfaceDoing persistent))
  | start (surface : Surface) (f : Failure) :
      Refused params persistent
        [⟨.encoder (.configure params), .ok ()⟩,
         ⟨.encoder (.createSurface persistent), .ok surface⟩, ⟨.encoder .start, .error f⟩]
        (f.asStage .encoder "start")
  | table (surface : Surface) (f : Failure) :
      Refused params persistent
        [⟨.encoder (.configure params), .ok ()⟩,
         ⟨.encoder (.createSurface persistent), .ok surface⟩, ⟨.encoder .start, .ok ()⟩,
         ⟨.encoder .bufferTable, .error f⟩]
        (f.asStage .encoder "get output buffers")

/-- A set-up before a refusal is made good. -/
inductive SetUp (params : EncoderSettings) (persistent : Bool) (e : Encoder) :
    History → Outcome Surface × Encoder → Prop
  | granted (surface : Surface) (table : List Slot) :
      SetUp params persistent e (granted params persistent surface table)
        (.ok surface, { e with state := .configured, table })
  | refused {h : History} {f : Failure} (state : State) (hr : Refused params persistent h f) :
      SetUp params persistent e h (.error f, { e with state })

theorem ends_setUp (params : EncoderSettings) (persistent : Bool) (e : Encoder) :
    (setUp params persistent e).Ends (SetUp params persistent e) := by
  simp only [setUp, refresh, ask, Program.request, Action.ensures_bind, Action.ensures_during,
    Action.ensures_attempt, Action.ensures_modify, Action.ensures_lift, Action.ensures_pure,
    Program.ensures_ask, Program.ensures_done, Program.ensures_report, Exchange.call,
    forall_outcome, Option.map_some, Except.mapError, Action.after_ok, Action.after_error,
    List.nil_append, List.cons_append]
  refine ⟨fun f => .refused _ (.configure f), fun _ => ⟨fun f => .refused _ (.surface f), ?_⟩⟩
  refine fun surface => ⟨fun f => .refused _ (.start surface f), fun _ => ⟨?_, ?_⟩⟩
  · exact fun f => .refused _ (.table surface f)
  · exact fun table => .granted surface table

/-- A set-up at one size. -/
inductive Configured (s : Settings) (size : FrameSize) (frameRate : Single) (e : Encoder) :
    History → Outcome Surface × Encoder → Prop
  | busy (f : Failure) (hf : f.stage = .encoder) (he : e.state ≠ .unconfigured) :
      Configured s size frameRate e [] (.error f, e)
  | granted (surface : Surface) (table : List Slot) (he : e.state = .unconfigured) :
      Configured s size frameRate e
        (granted (paramsFor s size frameRate) s.persistentSurface surface table)
        (.ok surface, ⟨.running, table, some (paramsFor s size frameRate), some surface⟩)
  | refused {h : History} {f : Failure} (he : e.state = .unconfigured)
      (hr : Refused (paramsFor s size frameRate) s.persistentSurface h f) :
      Configured s size frameRate e (h ++ [⟨.encoder .release, ()⟩])
        (.error f, { e with table := [], state := .unconfigured })

theorem ends_configure (s : Settings) (size : FrameSize) (frameRate : Single) (e : Encoder) :
    (configure s size frameRate e).Ends (Configured s size frameRate e) := by
  unfold configure
  simp only [Action.ensures_bind, Action.ensures_get, Action.after_ok]
  split
  · rename_i he
    exact Action.ensures_fail.2 (.busy _ rfl he)
  rename_i he
  simp only [Action.ensures_bind, Action.ensures_lift, Program.ensures_report, Option.map_some,
    Action.after_ok, Action.ensures_outcome]
  refine (ends_setUp _ _ e).ensures fun h r hr => ?_
  cases hr with
  | granted surface table =>
    simp only [Option.map_some, Action.after_ok, Action.ensures_bind, Action.ensures_lift,
      Program.ensures_report, Action.ensures_modify, Action.ensures_pure, List.nil_append,
      List.append_nil]
    exact .granted surface table (Decidable.not_not.1 he)
  | refused state hr =>
    simp only [ask, Program.request, Option.map_some, Action.after_ok, Action.ensures_bind,
      Action.ensures_lift, Program.ensures_report, Program.ensures_ask, Program.ensures_done,
      Exchange.call, Action.ensures_modify, Action.ensures_fail, List.nil_append, List.append_nil]
    exact fun _ => .refused (Decidable.not_not.1 he) hr

/-- There is no second attempt where a size was asked for or where the first was made at the width
or the height of the small size. -/
def Final (s : Settings) (size : FrameSize) : Prop :=
  s.size.isSome ∨ size.width = (smallSizeLike size).width ∨
    size.height = (smallSizeLike size).height

/-- A set-up at one size or else at the small one. -/
inductive Shrunk (s : Settings) (size : FrameSize) (frameRate : Single) (e : Encoder) :
    History → Outcome (Surface × FrameSize) × Encoder → Prop
  | first {h : History} {surface : Surface} {e' : Encoder}
      (h₁ : Configured s size frameRate e h (.ok surface, e')) :
      Shrunk s size frameRate e h (.ok (surface, size), e')
  | final {h : History} {f : Failure} {e' : Encoder} (hs : Final s size)
      (h₁ : Configured s size frameRate e h (.error f, e')) :
      Shrunk s size frameRate e h (.error f, e')
  | second {h k : History} {f : Failure} {surface : Surface} {e' e'' : Encoder}
      (hs : ¬Final s size) (h₁ : Configured s size frameRate e h (.error f, e'))
      (h₂ : Configured s (smallSizeLike size) frameRate e' k (.ok surface, e'')) :
      Shrunk s size frameRate e (h ++ k) (.ok (surface, smallSizeLike size), e'')
  | twice {h k : History} {f g : Failure} {e' e'' : Encoder} (hs : ¬Final s size)
      (h₁ : Configured s size frameRate e h (.error f, e'))
      (h₂ : Configured s (smallSizeLike size) frameRate e' k (.error g, e'')) :
      Shrunk s size frameRate e (h ++ k) (.error g, e'')

theorem ends_configureOrShrink (s : Settings) (size : FrameSize) (frameRate : Single)
    (e : Encoder) :
    (configureOrShrink s size frameRate e).Ends (Shrunk s size frameRate e) := by
  unfold configureOrShrink
  simp only [Action.ensures_bind, Action.ensures_outcome]
  refine (ends_configure s size frameRate e).ensures fun h r hr => ?_
  obtain ⟨f | surface, e'⟩ := r
  · simp only [Option.map_some, Action.after_ok]
    split
    · rename_i hs
      rw [Action.ensures_fail, List.append_nil]
      exact .final hs hr
    · rename_i hs
      simp only [Action.ensures_bind, Action.ensures_lift, Program.ensures_report,
        Option.map_some, Action.after_ok, List.nil_append]
      refine (ends_configure s (smallSizeLike size) frameRate e').ensures fun k r hk => ?_
      obtain ⟨g | surface, e''⟩ := r
      · exact .twice hs hr hk
      · simp only [Action.after_ok, Action.ensures_pure, List.append_nil]
        exact .second hs hr hk
  · simp only [Option.map_some, Action.after_ok, Action.ensures_pure, List.append_nil]
    exact .first hr

theorem Refused.within {params : EncoderSettings} {persistent : Bool} {h : History} {f : Failure}
    (hr : Refused params persistent h f) : h.Within [.encoder] := by
  cases hr <;> simp [Exchange.party]

theorem Configured.within {s : Settings} {size : FrameSize} {frameRate : Single} {h : History}
    {r : Outcome Surface × Encoder} (hc : Configured s size frameRate e h r) :
    h.Within [.encoder] := by
  cases hc with
  | busy => simp
  | granted => simp [Encoder.granted, Exchange.party]
  | refused _ hr => simp [hr.within, Exchange.party]

/-- What holds of a set-up at one size holds of one with a second attempt. -/
theorem Shrunk.of_attempts {s : Settings} {size : FrameSize} {frameRate : Single} {h : History}
    {r : Outcome (Surface × FrameSize) × Encoder} {P : History → Prop}
    (hs : Shrunk s size frameRate e h r) (happend : ∀ h k : History, P h → P k → P (h ++ k))
    (hattempt : ∀ {e size k y}, Configured s size frameRate e k y → P k) : P h := by
  cases hs with
  | first h₁ => exact hattempt h₁
  | final _ h₁ => exact hattempt h₁
  | second _ h₁ h₂ => exact happend _ _ (hattempt h₁) (hattempt h₂)
  | twice _ h₁ h₂ => exact happend _ _ (hattempt h₁) (hattempt h₂)

theorem Shrunk.within {s : Settings} {size : FrameSize} {frameRate : Single} {h : History}
    {r : Outcome (Surface × FrameSize) × Encoder} (hs : Shrunk s size frameRate e h r) :
    h.Within [.encoder] :=
  hs.of_attempts (fun _ _ hh hk => History.within_append.2 ⟨hh, hk⟩) fun hc => hc.within

/-! ## The calls of a running encoder -/

theorem ensures_refresh {Q : History → Option (Outcome Unit × Encoder) → Prop} :
    (refresh e).Ensures Q ↔
      (∀ f, Q [⟨.encoder .bufferTable, .error f⟩] (some (.error f, e))) ∧
        ∀ table, Q [⟨.encoder .bufferTable, .ok table⟩] (some (.ok (), { e with table })) := by
  simp only [refresh, ask, Program.request, Action.ensures_bind, Action.ensures_attempt,
    Action.ensures_modify, Action.ensures_lift, Program.ensures_ask, Program.ensures_done,
    Program.ensures_report, Exchange.call, forall_outcome, Option.map_some, Action.after_ok,
    Action.after_error, List.nil_append, List.append_nil]

/-- The failure to hand a buffer back. -/
def notHandedBack (index : Nat) (f : Failure) : Failure :=
  ⟨.poll, s!"unable to release output buffer {index}: {f.message}"⟩

theorem ensures_releaseBuffer {index : Nat}
    {Q : History → Option (Outcome Unit × Encoder) → Prop} :
    (releaseBuffer index e).Ensures Q ↔
      (∀ f, Q [⟨.encoder (.releaseBuffer index), .error f⟩]
          (some (.error (notHandedBack index f), e))) ∧
        Q [⟨.encoder (.releaseBuffer index), .ok ()⟩] (some (.ok (), e)) := by
  simp only [releaseBuffer, ask, Program.request, Action.ensures_mapFailure,
    Action.ensures_attempt, Program.ensures_ask, Program.ensures_done, Exchange.call,
    forall_outcome, Option.map_some, Except.mapError, List.append_nil, notHandedBack]
  exact and_congr_right fun _ => ⟨fun h => h (), fun h _ => h⟩

/-- The wait for the next event. -/
inductive Polled (milliseconds : Nat) (e : Encoder) :
    History → Outcome Event × Encoder → Prop
  | idle (f : Failure) (hf : f.stage = .poll) (he : e.state ≠ .running) :
      Polled milliseconds e [] (.error f, e)
  | last (b : FilledBuffer) (hb : b.isLast) :
      Polled milliseconds e
        [⟨.encoder (.dequeue milliseconds), .buffer b⟩, ⟨.encoder (.releaseBuffer b.index), .ok ()⟩]
        (.ok .endOfStream, e)
  | lastKept (b : FilledBuffer) (f : Failure) (hb : b.isLast) :
      Polled milliseconds e
        [⟨.encoder (.dequeue milliseconds), .buffer b⟩,
         ⟨.encoder (.releaseBuffer b.index), .error f⟩]
        (.error (notHandedBack b.index f), e)
  | unknown (b : FilledBuffer) (f : Failure) (hb : ¬b.isLast) (hf : f.stage = .poll)
      (ht : e.table[b.index]? = none) :
      Polled milliseconds e [⟨.encoder (.dequeue milliseconds), .buffer b⟩] (.error f, e)
  | short (b : FilledBuffer) (slot : Slot) (data : Bytes) (f : Failure) (hb : ¬b.isLast)
      (hf : f.stage = .poll) (ht : e.table[b.index]? = some slot) (hd : b.bytes? data = none) :
      Polled milliseconds e
        [⟨.encoder (.dequeue milliseconds), .buffer b⟩, ⟨.encoder (.readSlot slot), data⟩]
        (.error f, e)
  | data (b : FilledBuffer) (slot : Slot) (data payload : Bytes) (hb : ¬b.isLast)
      (ht : e.table[b.index]? = some slot) (hd : b.bytes? data = some payload) :
      Polled milliseconds e
        [⟨.encoder (.dequeue milliseconds), .buffer b⟩, ⟨.encoder (.readSlot slot), data⟩]
        (.ok (.data ⟨b.index, payload, b.time, b.flags⟩), e)
  | retry :
      Polled milliseconds e [⟨.encoder (.dequeue milliseconds), .tryAgain⟩]
        (.ok .retry, e)
  | format (format : TrackFormat) :
      Polled milliseconds e
        [⟨.encoder (.dequeue milliseconds), .formatChanged⟩, ⟨.encoder .currentFormat, .ok format⟩]
        (.ok (.formatChanged format), e)
  | noFormat (f : Failure) :
      Polled milliseconds e
        [⟨.encoder (.dequeue milliseconds), .formatChanged⟩, ⟨.encoder .currentFormat, .error f⟩]
        (.error f, e)
  | buffers :
      Polled milliseconds e [⟨.encoder (.dequeue milliseconds), .buffersChanged⟩]
        (.ok .buffersChanged, e)
  | error (code : Int) :
      Polled milliseconds e [⟨.encoder (.dequeue milliseconds), .error code⟩]
        (.ok (.error code), e)

theorem ends_poll (milliseconds : Nat) (e : Encoder) :
    (poll milliseconds e).Ends (Polled milliseconds e) := by
  unfold poll
  simp only [Action.ensures_bind, Action.ensures_get, Action.after_ok]
  split
  · rename_i he
    exact Action.ensures_fail.2 (.idle _ rfl he)
  simp only [ask, Program.request, Action.ensures_bind, Action.ensures_lift, Program.ensures_ask,
    Program.ensures_done, Exchange.call, Option.map_some, Action.after_ok, List.nil_append,
    List.append_nil]
  intro answer
  cases answer with
  | buffer b =>
    simp only
    split
    · rename_i hb
      simp only [Action.ensures_bind, ensures_releaseBuffer, Action.after_ok, Action.after_error,
        Action.ensures_pure]
      exact ⟨fun f => .lastKept b f hb, .last b hb⟩
    rename_i hb
    simp only [payload, Action.ensures_bind, Action.ensures_get, Action.after_ok]
    cases ht : e.table[b.index]? with
    | none => exact Action.ensures_fail.2 (.unknown b _ hb rfl ht)
    | some slot =>
      simp only [ask, Program.request, Action.ensures_bind, Action.ensures_lift,
        Program.ensures_ask, Program.ensures_done, Exchange.call, Option.map_some,
        Action.after_ok, List.nil_append, List.append_nil]
      intro data
      split
      · rename_i hd
        simp only [Action.ensures_pure, Action.after_ok]
        exact .data b slot data _ hb ht (if_pos hd)
      · rename_i hd
        simp only [Action.ensures_fail, Action.after_error]
        exact .short b slot data _ hb rfl ht (if_neg hd)
  | tryAgain => exact Action.ensures_pure.2 .retry
  | formatChanged =>
    simp only [Action.ensures_bind, Action.ensures_attempt, Program.ensures_ask,
      Program.ensures_done, Exchange.call, forall_outcome, Option.map_some, Action.after_ok,
      Action.after_error, Action.ensures_pure]
    exact ⟨fun f => .noFormat f, fun format => .format format⟩
  | buffersChanged => exact Action.ensures_pure.2 .buffers
  | error code => exact Action.ensures_pure.2 (.error code)

theorem Polled.within {milliseconds : Nat} {h : History} {r : Outcome Event × Encoder}
    (hp : Polled milliseconds e h r) : h.Within [.encoder] := by
  cases hp <;> simp [Exchange.party]

/-! ## The ways out -/

/-- The stop of a running encoder. -/
inductive Halted (e : Encoder) : History → Outcome Unit × Encoder → Prop
  | stopped (answer : Outcome Unit) (he : e.state = .running) :
      Halted e [⟨.encoder .stop, answer⟩] (answer, { e with state := .stopped })
  | unneeded (he : e.state ≠ .running) : Halted e [] (.ok (), e)

theorem ends_stop (e : Encoder) : (stop e).Ends (Halted e) := by
  unfold stop
  simp only [Action.ensures_bind, Action.ensures_get, Action.after_ok]
  split
  · rename_i he
    simp only [ask, Program.request, Action.ensures_bind, Action.ensures_modify,
      Action.ensures_attempt, Program.ensures_ask, Program.ensures_done, Exchange.call,
      Option.map_some, Action.after_ok, List.nil_append, List.append_nil]
    exact fun answer => .stopped answer he
  · rename_i he
    exact Action.ensures_pure.2 (.unneeded he)

theorem Halted.within {h : History} {r : Outcome Unit × Encoder} (hh : Halted e h r) :
    h.Within [.encoder] := by
  cases hh <;> simp [Exchange.party]

/-- The call that frees the encoder, if it is set up. -/
def freeing (e : Encoder) : History :=
  if e.state = .unconfigured then [] else [⟨.encoder .release, ()⟩]

theorem freeing_within : e.freeing.Within [.encoder] := by
  unfold freeing
  split <;> simp [Exchange.party]

/-- The encoder once it is free. -/
def freed (e : Encoder) : Encoder :=
  if e.state = .unconfigured then e
  else { e with table := [], surface := none, state := .unconfigured }

theorem ensures_release {Q : History → Option (Outcome Unit × Encoder) → Prop} :
    (release e).Ensures Q ↔ Q e.freeing (some (.ok (), e.freed)) := by
  unfold release freeing freed
  simp only [Action.ensures_bind, Action.ensures_get, Action.after_ok, ite_not]
  split
  · simp only [Action.ensures_pure, List.append_nil]
  · simp only [ask, Program.request, Action.ensures_bind, Action.ensures_lift,
      Action.ensures_modify, Program.ensures_ask, Program.ensures_done, Exchange.call,
      Option.map_some, Action.after_ok, List.nil_append, List.append_nil]
    exact ⟨fun h => h (), fun h _ => h⟩

theorem ensures_discard {Q : History → Option (Outcome Unit × Encoder) → Prop} :
    (discard e).Ensures Q ↔ Q e.freeing (some (.ok (), e.freed)) := by
  unfold discard
  simp only [Action.ensures_bind, Action.ensures_get, Action.after_ok, ite_not]
  split
  · rename_i he
    simp only [Action.ensures_pure, List.append_nil, freeing, freed, if_pos he]
  · simp only [Action.ensures_bind, Action.ensures_lift, Program.ensures_report, Option.map_some,
      Action.after_ok, ensures_release, List.nil_append]

end Encoder

end Screencast
