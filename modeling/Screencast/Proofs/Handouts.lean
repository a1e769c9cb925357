import Screencast.Proofs.Conduct.Encoder

/-!
# The buffers that an encoder hands out

A history tells which filled buffers the encoder has handed out, in which slot of the buffer table
each of them lay, and what its slot held. What an output has to get can thus be read off the
encoder's answers alone.

* `History.handouts`: the buffers in the order in which they were handed out.
* `Handout.bytes?`, `Handout.time?`, `Handout.packet?`: what a buffer comes to.
* `handouts_append`: the buffers of two histories in a row.
* `packet?_andThen`: what a buffer comes to is settled while it is held.
-/

namespace Screencast

namespace Exchange

/-- The encoder's answer, where the exchange asks it for a filled buffer. -/
def dequeued? : Exchange → Option Dequeued
  | ⟨.encoder (.dequeue _), answer⟩ => some answer
  | _ => none

/-- The buffer that the encoder hands out. -/
def buffer? (e : Exchange) : Option FilledBuffer :=
  match e.dequeued? with
  | some (.buffer b) => some b
  | _ => none

/-- The buffer table, where it is fetched. -/
def table? : Exchange → Option (List Slot)
  | ⟨.encoder .bufferTable, .ok table⟩ => some table
  | _ => none

/-- A slot and what it holds, where it is looked at. -/
def content? : Exchange → Option (Slot × Bytes)
  | ⟨.encoder (.readSlot slot), data⟩ => some (slot, data)
  | _ => none

/-- Whether a buffer is handed back. -/
def handsBack : Exchange → Bool
  | ⟨.encoder (.releaseBuffer _), _⟩ => true
  | _ => false

/-- A reading of the monotonic clock. -/
def reading? : Exchange → Option Int64
  | ⟨.clock .monotonic, nanos⟩ => some nanos
  | _ => none

end Exchange

namespace Exchange

variable {e : Exchange}

theorem dequeued?_of_party (he : e.party ≠ .encoder) : e.dequeued? = none := by
  rcases e with ⟨_ | _, answer⟩
  · exact absurd rfl he
  all_goals rfl

theorem table?_of_party (he : e.party ≠ .encoder) : e.table? = none := by
  rcases e with ⟨_ | _, answer⟩
  · exact absurd rfl he
  all_goals rfl

theorem handsBack_of_party (he : e.party ≠ .encoder) : e.handsBack = false := by
  rcases e with ⟨_ | _, answer⟩
  · exact absurd rfl he
  all_goals rfl

theorem reading?_of_party (he : e.party ≠ .clock) : e.reading? = none := by
  rcases e with ⟨_ | _ | _ | _ | _ | _ | _, answer⟩
  case clock => exact absurd rfl he
  all_goals rfl

end Exchange

/-- What a track of the container gets. -/
structure Packet where
  bytes : Bytes
  time : Int
  flags : Flags
  deriving DecidableEq

/-- A buffer that was handed out. -/
structure Handout where
  buffer : FilledBuffer
  /-- The slot at the buffer's place in the table that was fetched last. -/
  slot : Option Slot
  /-- The calls that follow. -/
  rest : History

namespace Handout

/-- The calls until a buffer is handed back. -/
def held (o : Handout) : History := o.rest.takeWhile fun e => !e.handsBack

/-- The bytes that the buffer announces, out of what its slot holds. -/
def bytes? (o : Handout) : Option Bytes := do
  let (slot, data) ← (← o.held.head?).content?
  if o.slot = some slot then o.buffer.bytes? data else none

/-- The time of the buffer. Without one it is the time, in microseconds, that the clock shows while
the buffer is held. -/
def time? (o : Handout) : Option Int :=
  if o.buffer.time = 0 then (o.held.findSome? Exchange.reading?).map microseconds
  else some o.buffer.time

def packet? (o : Handout) : Option Packet := do
  return ⟨← o.bytes?, ← o.time?, o.buffer.flags⟩

/-- The same buffer where more calls have followed. -/
def andThen (o : Handout) (k : History) : Handout := { o with rest := o.rest ++ k }

variable {o : Handout} {k : History}

@[simp] theorem andThen_buffer : (o.andThen k).buffer = o.buffer := rfl

/-- What was called while the buffer was held has been called. -/
theorem held_andThen : o.held <+: (o.andThen k).held := by
  unfold held andThen
  rw [List.takeWhile_append]
  split
  · -- the buffer has not been handed back yet, and what follows may be called while it is held
    rename_i hl
    have ht : (o.rest.takeWhile fun e => !e.handsBack) = o.rest :=
      (List.takeWhile_prefix _).eq_of_length hl
    rw [ht]
    exact List.prefix_append ..
  · exact List.prefix_rfl

theorem bytes?_andThen {bytes : Bytes} (hb : o.bytes? = some bytes) :
    (o.andThen k).bytes? = some bytes := by
  obtain ⟨l, hl⟩ := held_andThen (o := o) (k := k)
  unfold bytes? at hb ⊢
  rw [← hl]
  cases hh : o.held.head? with
  | none => rw [hh] at hb; cases hb
  | some e =>
    rw [hh] at hb
    rw [List.head?_append, hh]
    exact hb

theorem length_of_bytes? {bytes : Bytes} (hb : o.bytes? = some bytes) :
    bytes.length = o.buffer.size := by
  simp only [bytes?, Option.bind_eq_bind, Option.bind_eq_some_iff] at hb
  obtain ⟨e, -, ⟨slot, data⟩, -, hb⟩ := hb
  split at hb
  · exact FilledBuffer.length_of_bytes? hb
  · cases hb

theorem time?_andThen {time : Int} (ht : o.time? = some time) :
    (o.andThen k).time? = some time := by
  obtain ⟨l, hl⟩ := held_andThen (o := o) (k := k)
  unfold time? at ht ⊢
  rw [← hl]
  by_cases h0 : o.buffer.time = 0
  · -- the first reading is found among the calls so far, and stays the first
    rw [if_pos h0] at ht
    rw [andThen_buffer, if_pos h0]
    obtain ⟨nanos, hn, rfl⟩ := Option.map_eq_some_iff.1 ht
    rw [List.findSome?_append, hn]
    rfl
  · rw [if_neg h0] at ht
    rw [andThen_buffer, if_neg h0, ht]

/-- **What a buffer comes to** does not change with what follows. -/
theorem packet?_andThen {p : Packet} (hp : o.packet? = some p) :
    (o.andThen k).packet? = some p := by
  unfold packet? at hp ⊢
  cases hb : o.bytes? with
  | none => rw [hb] at hp; cases hp
  | some bytes =>
    cases ht : o.time? with
    | none => rw [hb, ht] at hp; cases hp
    | some time =>
      rw [hb, ht] at hp
      rw [bytes?_andThen hb, time?_andThen ht]
      exact hp

end Handout

namespace History

/-- The buffer table after some calls. -/
def tableAfter (table : List Slot) (h : History) : List Slot :=
  h.foldl (fun table e => e.table?.getD table) table

/-- The buffers that were handed out, where the buffer table was `table` at first. -/
def handouts (table : List Slot) : History → List Handout
  | [] => []
  | e :: h =>
    (e.buffer?.map fun b => ⟨b, table[b.index]?, h⟩).toList ++
      handouts (e.table?.getD table) h

variable {table : List Slot} {h k : History}

theorem handouts_cons {e : Exchange} : handouts table (e :: h) =
    (e.buffer?.map fun b => ⟨b, table[b.index]?, h⟩).toList ++
      handouts (e.table?.getD table) h := rfl

theorem tableAfter_cons {e : Exchange} :
    tableAfter table (e :: h) = tableAfter (e.table?.getD table) h := rfl

theorem tableAfter_append :
    tableAfter table (h ++ k) = tableAfter (tableAfter table h) k := List.foldl_append ..

/-- **Two histories in a row** hand out the buffers of each. -/
theorem handouts_append : handouts table (h ++ k) =
    (handouts table h).map (·.andThen k) ++ handouts (tableAfter table h) k := by
  -- a call of `h` may fetch another table, which is the one that the rest is read with
  induction h generalizing table with
  | nil => rfl
  | cons e h ih =>
    rw [List.cons_append, handouts_cons, handouts_cons, tableAfter_cons, ih, List.map_append,
      List.append_assoc]
    cases e.buffer? <;> rfl

/-- No buffer is asked for. -/
def Idle (h : History) : Prop := ∀ e ∈ h, e.dequeued? = none

@[simp] theorem idle_nil : Idle [] := fun _ he => absurd he List.not_mem_nil

@[simp] theorem idle_cons {e : Exchange} :
    Idle (e :: h) ↔ e.dequeued? = none ∧ h.Idle := List.forall_mem_cons

@[simp] theorem idle_append : Idle (h ++ k) ↔ h.Idle ∧ k.Idle := List.forall_mem_append

theorem Idle.handouts_eq_nil (hi : h.Idle) : handouts table h = [] := by
  induction h generalizing table with
  | nil => rfl
  | cons e h ih =>
    obtain ⟨he, hi⟩ := idle_cons.1 hi
    rw [handouts_cons, Exchange.buffer?, he]
    exact ih hi

/-- One buffer is handed out, and no other is asked for. -/
theorem Idle.handouts_buffer (hi : h.Idle) (milliseconds : Nat) (b : FilledBuffer) :
    handouts table (⟨.encoder (.dequeue milliseconds), .buffer b⟩ :: h) =
      [⟨b, table[b.index]?, h⟩] := by
  rw [handouts_cons, hi.handouts_eq_nil]
  rfl

/-- A buffer is asked for in vain, and no other is asked for. -/
theorem Idle.handouts_vain {e : Exchange} (hi : h.Idle) (he : e.buffer? = none) :
    handouts table (e :: h) = [] := by
  rw [handouts_cons, he]
  exact hi.handouts_eq_nil

variable {parties : List Party}

theorem Within.idle (hw : h.Within parties) (hp : Party.encoder ∉ parties) : h.Idle :=
  fun e he => Exchange.dequeued?_of_party fun h => hp (h ▸ hw e he)

theorem Within.tableAfter_eq (hw : h.Within parties) (hp : Party.encoder ∉ parties) :
    tableAfter table h = table := by
  induction h with
  | nil => rfl
  | cons e h ih =>
    obtain ⟨he, hw⟩ := within_cons.1 hw
    rw [tableAfter_cons, Exchange.table?_of_party fun h => hp (h ▸ he)]
    exact ih hw

theorem Within.handouts_eq_nil (hw : h.Within parties) (hp : Party.encoder ∉ parties) :
    handouts table h = [] := (hw.idle hp).handouts_eq_nil

end History

end Screencast
