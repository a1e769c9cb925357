import Screencast.Proofs.Conduct.EncoderUse
import Screencast.Proofs.Handouts
import Screencast.Rehearsal.Obliging

/-!
# What a poll makes of the encoder's answer

A running encoder is asked for a filled buffer, and its answer alone decides what is asked next and
which event comes of it. An empty buffer that ends the stream is handed back, whatever its index is;
of any other buffer the bytes are copied that it announces, and only if they lie within a slot of
the buffer table that was fetched last.

* `Encoder.Knows`: an encoder that knows the table that was fetched last, if it runs.
* `Encoder.ends_operate_knows`: so does every encoder that was used in any way.
* `Encoder.Classified`: what is asked after an answer, and the event that comes of it.
* `Encoder.events_classified`: the main result.
-/

namespace Screencast

namespace Encoder

variable {e e' : Encoder} {h : History} {table : List Slot} {s : Settings} {size : FrameSize}
  {frameRate : Single}

/-! ## The table that is known -/

/-- While it runs, the encoder knows this table. -/
def Knows (table : List Slot) (e : Encoder) : Prop := e.state = .running → e.table = table

theorem Knows.of_state (he : e.state ≠ .running) : e.Knows table := fun hr => absurd hr he

theorem Configured.knows {x : Outcome Surface} (hc : Configured s size frameRate e h (x, e'))
    (hk : e.Knows table) : e'.Knows (h.tableAfter table) := by
  cases hc with
  | busy => exact hk
  | granted => exact fun _ => rfl
  | refused => exact .of_state (by simp)

theorem Shrunk.knows {x : Outcome (Surface × FrameSize)}
    (hs : Shrunk s size frameRate e h (x, e')) (hk : e.Knows table) :
    e'.Knows (h.tableAfter table) := by
  cases hs with
  | first h₁ => exact h₁.knows hk
  | final _ h₁ => exact h₁.knows hk
  | second _ h₁ h₂ =>
    rw [History.tableAfter_append]
    exact h₂.knows (h₁.knows hk)
  | twice _ h₁ h₂ =>
    rw [History.tableAfter_append]
    exact h₂.knows (h₁.knows hk)

/-- A poll fetches no table, and leaves the encoder as it is. -/
theorem Polled.knows {milliseconds : Nat} {r : Outcome Event × Encoder}
    (hp : Polled milliseconds e h r) (hk : e.Knows table) : r.2.Knows (h.tableAfter table) := by
  cases hp <;> exact hk

theorem Halted.knows {x : Outcome Unit} (hh : Halted e h (x, e')) (hk : e.Knows table) :
    e'.Knows (h.tableAfter table) := by
  cases hh with
  | stopped => exact .of_state (by simp)
  | unneeded => exact hk

theorem freed_knows (hk : e.Knows table) : e.freed.Knows (e.freeing.tableAfter table) := by
  unfold freed freeing
  split
  · exact hk
  · exact .of_state (by simp)

/-- An operation that fetches a table leaves the encoder with it. -/
theorem ends_perform_knows (o : Operation) (hk : e.Knows table) :
    (o.perform e).Ends fun h e' => e'.Knows (h.tableAfter table) := by
  cases o with
  | configure s size frameRate =>
    exact ends_left ((ends_configure s size frameRate e).ensures fun h r hr => hr.knows hk)
  | configureOrShrink s size frameRate =>
    exact ends_left ((ends_configureOrShrink s size frameRate e).ensures fun h r hr => hr.knows hk)
  | poll milliseconds =>
    exact ends_left ((ends_poll milliseconds e).ensures fun h r hr => hr.knows hk)
  | refresh => exact ends_left (ensures_refresh.2 ⟨fun _ => hk, fun _ _ => rfl⟩)
  | releaseBuffer index => exact ends_left (ensures_releaseBuffer.2 ⟨fun _ => hk, hk⟩)
  | stop => exact ends_left ((ends_stop e).ensures fun h r hr => hr.knows hk)
  | release => exact ends_left (ensures_release.2 (freed_knows hk))

/-- **The table of the latest fetch is known** after any operations. -/
theorem ends_operate_knows (operations : List Operation) (hk : e.Knows table) :
    (operate operations e).Ends fun h e' => e'.Knows (h.tableAfter table) := by
  -- what the rest is told to know is what the first operation leaves known
  induction operations generalizing e table with
  | nil => exact Program.ensures_done.2 hk
  | cons o rest ih =>
    refine Program.ensures_bind.2 ((ends_perform_knows o hk).ensures fun h e' hk => ?_)
    refine (ih hk).ensures fun k e'' hk => ?_
    rwa [Program.finished_some, History.tableAfter_append]

/-! ## The event of an answer -/

/-- A buffer that ends the stream is handed back, and not looked at. -/
def HandedBack (b : FilledBuffer) (h : History) (x : Outcome Event) : Prop :=
  ∃ answer : Outcome Unit, h = [⟨.encoder (.releaseBuffer b.index), answer⟩] ∧
    (answer = .ok () → x = .ok .endOfStream) ∧
      ∀ f, answer = .error f → x = .error (notHandedBack b.index f)

/-- The failure of a poll. -/
def PollFailed (x : Outcome Event) : Prop := ∃ f : Failure, f.stage = .poll ∧ x = .error f

/-- A buffer's bytes are copied out of the slot at its place in the table, where they lie within
that slot as it is when it is looked at. -/
structure Copied (table : List Slot) (b : FilledBuffer) (h : History) (x : Outcome Event) :
    Prop where
  outside : table.length ≤ b.index → h = [] ∧ PollFailed x
  inside : ∀ hi : b.index < table.length, ∃ content : Bytes,
    h = [⟨.encoder (.readSlot table[b.index]), content⟩] ∧
      (b.offset + b.size ≤ content.length →
        x = .ok (.data ⟨b.index, content.extract b.offset (b.offset + b.size), b.time, b.flags⟩)) ∧
      (content.length < b.offset + b.size → PollFailed x)

/-- **What is asked after an answer**, and the event that comes of it. -/
def Classified (table : List Slot) : Dequeued → History → Outcome Event → Prop
  | .buffer b, h, x => (b.isLast → HandedBack b h x) ∧ (¬b.isLast → Copied table b h x)
  | .tryAgain, h, x => h = [] ∧ x = .ok .retry
  | .formatChanged, h, x =>
    ∃ answer : Outcome TrackFormat, h = [⟨.encoder .currentFormat, answer⟩] ∧
      x = answer.map .formatChanged
  | .buffersChanged, h, x => h = [] ∧ x = .ok .buffersChanged
  | .error code, h, x => h = [] ∧ x = .ok (.error code)

variable {b : FilledBuffer} {x : Outcome Event} {status : Dequeued}

theorem Copied.of_outside {f : Failure} (hf : f.stage = .poll) (ht : table[b.index]? = none) :
    Copied table b [] (.error f) where
  outside _ := ⟨rfl, f, hf, rfl⟩
  inside hi := absurd hi (Nat.not_lt.2 (List.getElem?_eq_none_iff.1 ht))

theorem Copied.of_short {slot : Slot} {content : Bytes} {f : Failure} (hf : f.stage = .poll)
    (ht : table[b.index]? = some slot) (hd : b.bytes? content = none) :
    Copied table b [⟨.encoder (.readSlot slot), content⟩] (.error f) := by
  obtain ⟨hlt, rfl⟩ := List.getElem?_eq_some_iff.1 ht
  have hinside : ¬table.length ≤ b.index := Nat.not_le.2 hlt
  refine ⟨fun ho => absurd ho hinside, fun _ => ⟨content, rfl, ?_, ?_⟩⟩
  · intro hle
    rw [FilledBuffer.bytes?, if_pos hle] at hd
    cases hd
  · intro _
    exact ⟨f, hf, rfl⟩

theorem Copied.of_data {slot : Slot} {content payload : Bytes} (ht : table[b.index]? = some slot)
    (hd : b.bytes? content = some payload) :
    Copied table b [⟨.encoder (.readSlot slot), content⟩]
      (.ok (.data ⟨b.index, payload, b.time, b.flags⟩)) := by
  obtain ⟨hlt, rfl⟩ := List.getElem?_eq_some_iff.1 ht
  have hinside : ¬table.length ≤ b.index := Nat.not_le.2 hlt
  unfold FilledBuffer.bytes? at hd
  split at hd
  · rename_i hle
    cases hd
    refine ⟨fun ho => absurd ho hinside, fun _ => ⟨content, rfl, ?_, ?_⟩⟩
    · intro _
      rw [List.extract_eq_take_drop, Nat.add_sub_cancel_left]
    · intro hgt
      exact absurd hle (Nat.not_le.2 hgt)
  · cases hd

/-- The poll of a running encoder is one answer and what is made of it. -/
theorem Polled.classified {milliseconds : Nat} {r : Outcome Event × Encoder}
    (hp : Polled milliseconds e h r) (he : e.state = .running) :
    ∃ status rest, h = ⟨.encoder (.dequeue milliseconds), status⟩ :: rest ∧
      Classified e.table status rest r.1 := by
  cases hp with
  | idle f hf hn => exact absurd he hn
  | last b hb =>
    exact ⟨.buffer b, _, rfl, fun _ => ⟨.ok (), rfl, fun _ => rfl, nofun⟩, fun hn => absurd hb hn⟩
  | lastKept b f hb =>
    refine ⟨.buffer b, _, rfl, fun _ => ⟨.error f, rfl, nofun, ?_⟩, fun hn => absurd hb hn⟩
    rintro _ ⟨⟩
    rfl
  | unknown b f hb hf ht =>
    exact ⟨.buffer b, _, rfl, fun hl => absurd hl hb, fun _ => .of_outside hf ht⟩
  | short b slot content f hb hf ht hd =>
    exact ⟨.buffer b, _, rfl, fun hl => absurd hl hb, fun _ => .of_short hf ht hd⟩
  | data b slot content payload hb ht hd =>
    exact ⟨.buffer b, _, rfl, fun hl => absurd hl hb, fun _ => .of_data ht hd⟩
  | retry => exact ⟨.tryAgain, [], rfl, rfl, rfl⟩
  | format format => exact ⟨.formatChanged, _, rfl, .ok format, rfl, rfl⟩
  | noFormat f => exact ⟨.formatChanged, _, rfl, .error f, rfl, rfl⟩
  | buffers => exact ⟨.buffersChanged, [], rfl, rfl, rfl⟩
  | error code => exact ⟨.error code, [], rfl, rfl, rfl⟩

/-- Where the bytes of a buffer are copied, no buffer is handed back and the stream goes on. -/
theorem Copied.kept (hc : Copied table b h x) :
    (∀ call ∈ h, call.handsBack = false) ∧ x ≠ .ok .endOfStream := by
  have hfailed : PollFailed x → x ≠ .ok .endOfStream := by
    rintro ⟨f, -, rfl⟩
    simp
  -- a slot is looked at in the first case only, and a slot that is looked at is not handed back
  obtain hi | ho := Nat.lt_or_ge b.index table.length
  · obtain ⟨content, rfl, hwithin, hbeyond⟩ := hc.inside hi
    refine ⟨by simp [Exchange.handsBack], ?_⟩
    obtain hgt | hle := Nat.lt_or_ge content.length (b.offset + b.size)
    · exact hfailed (hbeyond hgt)
    · rw [hwithin hle]
      simp
  · obtain ⟨rfl, hf⟩ := hc.outside ho
    exact ⟨by simp, hfailed hf⟩

/-- No buffer is handed back but one that ends the stream. -/
theorem Classified.kept (hc : Classified table status h x)
    (hn : ∀ b, status = .buffer b → ¬b.isLast) :
    (∀ call ∈ h, call.handsBack = false) ∧ x ≠ .ok .endOfStream := by
  cases status with
  | buffer b => exact (hc.2 (hn b rfl)).kept
  | formatChanged =>
    obtain ⟨_ | format, rfl, rfl⟩ := hc
    all_goals simp [Exchange.handsBack, Except.map]
  | _ =>
    obtain ⟨rfl, rfl⟩ := hc
    simp

/-- What a poll comes to that was answered with `status`. -/
structure PollSettled (e : Encoder) (status : Dequeued) (h : History)
    (r : Outcome Event × Encoder) : Prop where
  classified : Classified e.table status h r.1
  unchanged : r.2 = e
  /-- Nothing else is handed back. -/
  handedBack : ∀ call ∈ h, call.handsBack = true → ∃ b, status = .buffer b ∧ b.isLast
  /-- Nothing else ends the stream. -/
  ended : r.1 = .ok .endOfStream → ∃ b, status = .buffer b ∧ b.isLast

theorem Polled.unchanged {milliseconds : Nat} {r : Outcome Event × Encoder}
    (hp : Polled milliseconds e h r) : r.2 = e := by
  cases hp <;> rfl

theorem Polled.settled {milliseconds : Nat} {r : Outcome Event × Encoder}
    (hp : Polled milliseconds e h r) (he : e.state = .running) :
    ∃ status rest, h = ⟨.encoder (.dequeue milliseconds), status⟩ :: rest ∧
      PollSettled e status rest r := by
  obtain ⟨status, rest, hh, hc⟩ := hp.classified he
  refine ⟨status, rest, hh, hc, hp.unchanged, ?_, ?_⟩
  · intro call hcall hback
    by_contra hnone
    have hkept := (hc.kept fun b hs hb => hnone ⟨b, hs, hb⟩).1 call hcall
    rw [hkept] at hback
    cases hback
  · intro hx
    by_contra hnone
    exact (hc.kept fun b hs hb => hnone ⟨b, hs, hb⟩).2 hx

/-- **A poll makes one event of every answer, and reads within one slot.** However a running encoder
came about and whatever it answers, a poll asks for one filled buffer. An empty buffer that ends the
stream is handed back once, whatever its index is, and ends the stream unless that is refused. Of
any other buffer a sample is made, of the bytes that it announces, if its index is within the table
and its bytes are within what the slot there holds by then; else the poll fails. A change of the
format brings the encoder's format or the failure to tell it, and every other answer is an event of
its own. No other buffer is handed back, and neither the table nor the state changes. The table is
the one that was fetched last. -/
theorem events_classified (he : e.state = .running) (milliseconds : Nat) :
    (∀ operations k, (operate operations initial).Runs k (some e) →
      e.table = k.calls.tableAfter []) ∧
    (poll milliseconds e).Ends fun h r => ∃ status rest,
      h = ⟨.encoder (.dequeue milliseconds), status⟩ :: rest ∧ PollSettled e status rest r := by
  constructor
  · intro operations k hk
    have hknown : initial.Knows [] := fun _ => rfl
    exact ends_operate_knows operations hknown k (some e) hk he
  · exact (ends_poll milliseconds e).ensures fun h r hp => hp.settled he

open Rehearsal in
/-- An encoder that has been set up, and two of the buffers it can bring: the second half of what a
slot holds, and an empty one at no place of the table that ends the stream. -/
theorem events_classified_obliging :
    let size : FrameSize := ⟨1280, 720⟩
    let params := paramsFor .standard size (Binary.ofInt 60)
    let e : Encoder := ⟨.running, [⟨0⟩, ⟨1⟩], some params, some ⟨1, false⟩⟩
    let use := operate [.configure .standard size (Binary.ofInt 60)] initial
    let b : FilledBuffer := ⟨1, 2, 2, 5, .keyFrame⟩
    let last : FilledBuffer := ⟨7, 9, 0, 6, .endOfStream⟩
    let first := (poll 250 e).run Obliging.answer (.ofEvents [.buffer b, .buffer last])
    let second := (poll 250 e).run Obliging.answer first.2
    e.state = .running ∧ (use.run Obliging.answer (.ofEvents [])).1 = some e ∧
      e.table = (use.history Obliging.answer (.ofEvents [])).calls.tableAfter [] ∧
      first.1.bind (·.1.toOption) = some (.data ⟨1, [3, 4], 5, .keyFrame⟩) ∧
      second.1.bind (·.1.toOption) = some .endOfStream ∧
      ∃ r, first.1 = some r ∧ ∃ status rest,
        ((poll 250 e).history Obliging.answer (.ofEvents [.buffer b, .buffer last])).calls =
          ⟨.encoder (.dequeue 250), status⟩ :: rest ∧ PollSettled e status rest r := by
  intro size params e use b last first second
  have huse : (use.run Obliging.answer (.ofEvents [])).1 = some e := by decide +kernel
  have hruns : use.Runs (use.history Obliging.answer (.ofEvents [])) (some e) :=
    huse ▸ Program.runs_run Obliging.answer use (.ofEvents [])
  obtain ⟨htable, hpoll⟩ := events_classified (e := e) rfl 250
  exact ⟨rfl, huse, htable _ _ hruns, by decide +kernel, by decide +kernel, hpoll.run _ _⟩

end Encoder

end Screencast
