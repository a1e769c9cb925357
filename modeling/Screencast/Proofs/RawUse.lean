import Screencast.Proofs.Conduct.Sink
import Screencast.Proofs.Files
import Screencast.Rehearsal.Obliging

/-!
# The use of a bare stream

What the owner of a bare stream can do to it, in any order and any number of times, and what each
operation comes to after those before it: which calls it makes, what it tells its owner, and how many
bytes the output counts from then on.

* `Stream.HandedOver`: the writes by which a stream gets some bytes.
* `Raw.Operation`, `Raw.operate`: the operations, and a number of them one after another.
* `Raw.Turn`, `Raw.Due`: an operation that was made, and what it owes to those before it.
* `Raw.use_accounted`: the main result.
-/

namespace Screencast

namespace Stream

variable {s : Stream} {bytes : Bytes} {h : History} {x : Except String Unit}

/-- A stream is handed some bytes: every call offers it those that it has not taken yet, and nothing
fails exactly if it has taken them all. -/
structure HandedOver (s : Stream) (bytes : Bytes) (h : History) (x : Except String Unit) :
    Prop where
  offered : ∀ (earlier : History) call later, h = earlier ++ call :: later →
    call.request = .stream (.write s (bytes.drop (earlier.taken s).length))
  taken : h.taken s <+: bytes
  whole : x = .ok () ↔ h.taken s = bytes

/-- The one call of a stream that takes nothing. -/
theorem HandedOver.of_none {answer : Except String (Fin (bytes.length + 1))} {text : String}
    (hb : bytes ≠ [])
    (hn : Exchange.taken s ⟨.stream (.write s bytes), answer⟩ = []) :
    s.HandedOver bytes [⟨.stream (.write s bytes), answer⟩] (.error text) := by
  have htaken : History.taken s [⟨.stream (.write s bytes), answer⟩] = [] := by
    rw [History.taken, List.flatMap_singleton, hn]
  refine ⟨fun earlier call later hh => ?_, ?_, ?_⟩
  · obtain ⟨rfl, hh⟩ | ⟨call', -, hh⟩ := List.append_eq_cons_iff.1 hh.symm
    · obtain ⟨rfl, -⟩ := List.cons.inj hh
      rfl
    · simp at hh
  · rw [htaken]
    exact List.nil_prefix
  · rw [htaken]
    constructor
    · intro hx
      cases hx
    · intro hnil
      exact absurd hnil.symm hb

/-- A stream that takes some of the bytes is handed the rest. -/
theorem HandedOver.more (n : Fin (bytes.length + 1))
    (hr : s.HandedOver (bytes.drop n.val) h x) :
    s.HandedOver bytes (⟨.stream (.write s bytes), .ok n⟩ :: h) x := by
  have htaken : ∀ k : History, History.taken s (⟨.stream (.write s bytes), .ok n⟩ :: k) =
      bytes.take n.val ++ k.taken s := fun k => by simp [History.taken, Exchange.taken]
  refine ⟨fun earlier call later hh => ?_, ?_, ?_⟩
  · obtain ⟨rfl, hh⟩ | ⟨k, rfl, rfl⟩ := List.append_eq_cons_iff.1 hh.symm
    · obtain ⟨rfl, -⟩ := List.cons.inj hh
      rfl
    -- what was taken by the first call is not offered again
    · rw [hr.offered k call later rfl, htaken, List.drop_drop, List.length_append,
        List.length_take, Nat.min_eq_left (Nat.lt_succ_iff.1 n.isLt)]
  · have hall := (List.prefix_append_right_inj (bytes.take n.val)).2 hr.taken
    rw [List.take_append_drop] at hall
    rw [htaken]
    exact hall
  · rw [hr.whole, htaken]
    constructor
    · intro hrest
      rw [hrest, List.take_append_drop]
    · intro hall
      exact List.append_cancel_left (hall.trans (List.take_append_drop n.val bytes).symm)

theorem Wrote.handedOver (hw : s.Wrote bytes h x) : s.HandedOver bytes h x := by
  -- the induction is on the writes, each of which is offered what those before it left
  induction hw with
  | nothing => exact ⟨by simp, List.prefix_rfl, fun _ => rfl, fun _ => rfl⟩
  | failed text hb => exact .of_none hb rfl
  | stuck hb => exact .of_none hb (by simp [Exchange.taken])
  | took n _ _ ih => exact ih.more n

end Stream

namespace Raw

/-! ## Operations -/

/-- What can be done to a bare stream. -/
inductive Operation
  | write (s : Sample)
  | close
  deriving DecidableEq

def Operation.perform : Operation → Action Raw Unit
  | write s => writeSample s
  | close => Raw.close

/-- A number of operations: what came of each, and the output after it. -/
def operate : List Operation → Raw → Program (List (Outcome Unit × Raw))
  | [], _ => return []
  | o :: rest, r => do
    let x ← o.perform r
    return x :: (← operate rest x.2)

/-- What is told of an answer. -/
def told (doing : String) (answer : Except String Unit) : Outcome Unit :=
  answer.mapError fun text => ⟨.storage, s!"{doing}: {text}"⟩

/-- What a sample comes to while the output is open. -/
structure PassedOn (target : Target) (s : Sample) (h : History) (x : Outcome Unit) : Prop where
  empty : s.payload = [] → h = [] ∧ x = .ok ()
  called : s.payload ≠ [] → target = .callback → ∃ answer,
    h = [⟨.stream (.deliver s.payload), answer⟩] ∧
      x = told "failed writing data to output" answer
  /-- A stream is flushed after each picture that it has taken, and after nothing else. -/
  written : s.payload ≠ [] → ∀ out, target = .stream out → ∃ writes answer,
    out.HandedOver s.payload writes answer ∧
      (answer ≠ .ok () ∨ s.flags.isConfig = true →
        h = writes ∧ x = told "failed writing data to output" answer) ∧
      (answer = .ok () → s.flags.isConfig = false → ∃ flushed,
        h = writes ++ [⟨.stream (.flush out), flushed⟩] ∧
          x = told "failed writing data to output" flushed)

/-- What the first close comes to. -/
structure Finished (target : Target) (h : History) (x : Outcome Unit) : Prop where
  called : target = .callback → h = [] ∧ x = .ok ()
  flushed : ∀ out, target = .stream out → ∃ answer,
    h = [⟨.stream (.flush out), answer⟩] ∧ x = told "failed to flush output" answer

/-- What any operation comes to once the output is closed. -/
structure Late (o : Operation) (h : History) (x : Outcome Unit) : Prop where
  uncalled : h = []
  refused : ∀ s, o = .write s → x = .error ⟨.storage, "raw output already closed"⟩
  repeated : o = .close → x = .ok ()

/-! ## One operation -/

/-- An operation that was made: its calls, what came of it, and the output after it. -/
structure Turn where
  operation : Operation
  calls : History
  outcome : Outcome Unit
  left : Raw

/-- The bytes of a sample that was written. -/
def Turn.size (t : Turn) : Nat :=
  match t.operation, t.outcome with
  | .write s, .ok () => s.payload.length
  | _, _ => 0

/-- What an output comes to by an operation. -/
structure Turned (r : Raw) (t : Turn) : Prop where
  passedOn : r.closed = false → ∀ s, t.operation = .write s →
    PassedOn r.target s t.calls t.outcome
  finished : r.closed = false → t.operation = .close → Finished r.target t.calls t.outcome
  late : r.closed = true → Late t.operation t.calls t.outcome
  target_eq : t.left.target = r.target
  closed_iff : t.left.closed = true ↔ r.closed = true ∨ t.operation = .close
  count_eq : t.left.count = r.count + .ofNat t.size
  storage : ∀ f, t.outcome = .error f → f.stage = .storage

variable {r : Raw} {target : Target} {h : History}

/-- The passing on of a payload as a whole. -/
theorem Passed.passedOn {s : Sample} {x : Except String Unit} (hs : s.payload ≠ [])
    (hp : Passed target s.payload (!s.flags.isConfig) h x) :
    PassedOn target s h (told "failed writing data to output" x) := by
  refine ⟨fun hn => absurd hn hs, ?_, ?_⟩
  · rintro - rfl
    cases hp with
    | called => exact ⟨x, rfl, rfl⟩
  · rintro - out rfl
    -- whether there is a flush is decided by the flags alone
    generalize hflush : (!s.flags.isConfig) = flush at hp
    cases hp with
    | failed _ text hw =>
      exact ⟨h, .error text, hw.handedOver, fun _ => ⟨rfl, rfl⟩, nofun⟩
    | wrote hw =>
      refine ⟨h, .ok (), hw.handedOver, fun _ => ⟨rfl, rfl⟩, fun _ hc => ?_⟩
      rw [hc] at hflush
      cases hflush
    | @flushed _ _ k _ hw =>
      refine ⟨k, .ok (), hw.handedOver, ?_, fun _ _ => ⟨x, rfl, rfl⟩⟩
      rintro (hn | hc)
      · exact absurd rfl hn
      · rw [hc] at hflush
        cases hflush

theorem Took.turned {s : Sample} {x : Outcome Unit × Raw} (ht : Took s r h x) :
    Turned r ⟨.write s, h, x.1, x.2⟩ := by
  have hsame : r.count = r.count + .ofNat 0 := (UInt64.add_zero _).symm
  cases ht with
  | closed f hf hc =>
    refine ⟨by simp [hc], by simp, fun _ => ⟨rfl, ?_, by simp⟩, rfl, by simp [hc], hsame,
      ?_⟩
    · rintro _ -
      rw [hf]
    · rintro _ ⟨⟩
      rw [hf]
  | empty hc hp =>
    refine ⟨?_, by simp, by simp [hc], rfl, by simp [hc], by simp [Turn.size, hp], nofun⟩
    rintro - _ ⟨⟩
    exact ⟨fun _ => ⟨rfl, rfl⟩, fun hn => absurd hp hn, fun hn => absurd hp hn⟩
  | failed text f hf hc hp hw =>
    refine ⟨?_, by simp, by simp [hc], rfl, by simp [hc], hsame, ?_⟩
    · rintro - _ ⟨⟩
      rw [hf]
      exact hw.passedOn hp
    · rintro _ ⟨⟩
      rw [hf]
  | took hc hp hw =>
    refine ⟨?_, by simp, by simp [hc], rfl, by simp [hc], rfl, nofun⟩
    rintro - _ ⟨⟩
    exact hw.passedOn hp

theorem Closed.turned {x : Outcome Unit × Raw} (hc : Closed r h x) :
    Turned r ⟨.close, h, x.1, x.2⟩ := by
  have hsame : r.count = r.count + .ofNat 0 := (UInt64.add_zero _).symm
  cases hc with
  | again hc =>
    exact ⟨by simp [hc], by simp [hc], fun _ => ⟨rfl, by simp, fun _ => rfl⟩, rfl, by simp [hc],
      hsame, nofun⟩
  | callback hc ht =>
    refine ⟨by simp, fun _ _ => ⟨fun _ => ⟨rfl, rfl⟩, ?_⟩, by simp [hc], rfl, by simp, hsame, nofun⟩
    intro out hout
    rw [ht] at hout
    cases hout
  | flushed s hc ht =>
    refine ⟨by simp, fun _ _ => ⟨by simp [ht], ?_⟩, by simp [hc], rfl, by simp, hsame, nofun⟩
    intro out hout
    obtain rfl := Target.stream.inj (ht.symm.trans hout)
    exact ⟨.ok (), rfl, rfl⟩
  | unflushed s text f hf hc ht =>
    refine ⟨by simp, fun _ _ => ⟨by simp [ht], ?_⟩, by simp [hc], rfl, by simp, hsame, ?_⟩
    · intro out hout
      obtain rfl := Target.stream.inj (ht.symm.trans hout)
      exact ⟨.error text, rfl, congrArg Except.error hf⟩
    · rintro _ ⟨⟩
      rw [hf]

theorem ends_perform (o : Operation) (r : Raw) :
    (o.perform r).Ends fun h x => Turned r ⟨o, h, x.1, x.2⟩ := by
  cases o with
  | write s => exact (ends_writeSample s r).ensures fun h x hx => hx.turned
  | close => exact (ends_close r).ensures fun h x hx => hx.turned

/-! ## Operations in a row -/

/-- The output has been closed. -/
def Shut (turns : List Turn) : Prop := ∃ t ∈ turns, t.operation = .close

/-- The bytes of all samples that were written. -/
def total (turns : List Turn) : Nat := turns.foldl (fun count t => count + t.size) 0

/-- **What an operation comes to** after others. -/
structure Due (target : Target) (earlier : List Turn) (t : Turn) : Prop where
  passedOn : ¬Shut earlier → ∀ s, t.operation = .write s → PassedOn target s t.calls t.outcome
  finished : ¬Shut earlier → t.operation = .close → Finished target t.calls t.outcome
  late : Shut earlier → Late t.operation t.calls t.outcome
  counted : t.left.count = .ofNat (total (earlier ++ [t]))
  /-- The count is of the bytes as long as 64 bits hold them. -/
  written_eq : total (earlier ++ [t]) < 2 ^ 64 → t.left.written = total (earlier ++ [t])
  storage : ∀ f, t.outcome = .error f → f.stage = .storage

/-- An output that some operations have led to. -/
structure After (target : Target) (turns : List Turn) (r : Raw) : Prop where
  target_eq : r.target = target
  closed_iff : r.closed = true ↔ Shut turns
  count_eq : r.count = .ofNat (total turns)

variable {turns : List Turn} {t : Turn}

theorem total_append : total (turns ++ [t]) = total turns + t.size := by
  rw [total, total, List.foldl_append]
  rfl

theorem After.step (ha : After target turns r) (ht : Turned r t) :
    After target (turns ++ [t]) t.left where
  target_eq := ht.target_eq.trans ha.target_eq
  closed_iff := by
    rw [ht.closed_iff, ha.closed_iff]
    simp [Shut, or_and_right, exists_or]
  count_eq := by rw [ht.count_eq, ha.count_eq, total_append, UInt64.ofNat_add]

theorem After.due (ha : After target turns r) (ht : Turned r t) : Due target turns t where
  passedOn hn := ha.target_eq ▸ ht.passedOn (Bool.eq_false_iff.2 fun hc => hn (ha.closed_iff.1 hc))
  finished hn := ha.target_eq ▸ ht.finished (Bool.eq_false_iff.2 fun hc => hn (ha.closed_iff.1 hc))
  late hs := ht.late (ha.closed_iff.2 hs)
  counted := (ha.step ht).count_eq
  written_eq hn := by rw [Raw.written, (ha.step ht).count_eq, UInt64.toNat_ofNat_of_lt' hn]
  storage := ht.storage

/-- Operations as the calls and the results show them. -/
structure Lists (turns : List Turn) (operations : List Operation) (h : History)
    (results : List (Outcome Unit × Raw)) : Prop where
  operations_eq : turns.map Turn.operation = operations
  calls_eq : turns.flatMap Turn.calls = h
  results_eq : turns.map (fun t => (t.outcome, t.left)) = results

/-- **Operations in a row.** Each is due after all those before it. -/
theorem ends_operate (operations : List Operation) {earlier : List Turn}
    (ha : After target earlier r) :
    (operate operations r).Ends fun h results => ∃ turns, Lists turns operations h results ∧
      ∀ before t after, turns = before ++ t :: after → Due target (earlier ++ before) t := by
  -- the operations before are carried along, since it is after them that the next one is due
  induction operations generalizing r earlier with
  | nil => exact Program.ensures_done.2 ⟨[], ⟨rfl, rfl, rfl⟩, by simp⟩
  | cons o rest ih =>
    refine Program.ensures_bind.2 ((ends_perform o r).ensures fun h x hx => ?_)
    refine Program.ensures_bind.2 ((ih (ha.step hx)).ensures fun k results hk => ?_)
    obtain ⟨turns, hlists, hdue⟩ := hk
    simp only [Program.pure_eq, Program.ensures_done, Program.finished_some, List.append_nil]
    refine ⟨⟨o, h, x.1, x.2⟩ :: turns, ⟨?_, ?_, ?_⟩, fun before t after hsplit => ?_⟩
    · rw [List.map_cons, hlists.operations_eq]
    · rw [List.flatMap_cons, hlists.calls_eq]
    · rw [List.map_cons, hlists.results_eq]
    · obtain ⟨rfl, hfirst⟩ | ⟨before, rfl, hrest⟩ := List.append_eq_cons_iff.1 hsplit.symm
      · obtain ⟨rfl, -⟩ := List.cons.inj hfirst
        rw [List.append_nil]
        exact ha.due hx
      · have hlater := hdue before t after hrest
        rwa [List.append_assoc] at hlater

/-- **A bare stream accounts for all that is done to it.** Whatever is written to it and however
often it is closed, and whatever fails, until the first close each payload that is not empty is
passed on once and in order, and a stream is flushed once after it, if it has taken the payload and
that is not parameters of the codec alone; an empty payload makes no call. The first close flushes a
stream once. After it, even where it failed, there is no call, each sample is refused and each close
succeeds. The bytes that are counted after each operation are those of the samples that were
written, in 64 bits, and all failures are those of the storage. -/
theorem use_accounted (target : Target) (path : Option Path) (operations : List Operation) :
    (operate operations { ofTarget target with path }).Ends fun h results =>
      ∃ turns, Lists turns operations h results ∧
        ∀ before t after, turns = before ++ t :: after → Due target before t := by
  have hfresh : After target [] { ofTarget target with path } :=
    ⟨rfl, by simp [ofTarget, Shut], rfl⟩
  exact ends_operate operations hfresh

open Rehearsal in
/-- Parameters, a picture, the end, and what comes too late. -/
example :
    let late : Sample := ⟨0, [4], 0, .keyFrame⟩
    let use := operate [.write ⟨0, [1, 2], 0, .codecConfig⟩, .write ⟨0, [3], 0, .keyFrame⟩, .close,
      .write late, .close] (ofTarget (.stream .supplied))
    let h := use.history Obliging.answer (.ofEvents [])
    let results := (use.run Obliging.answer (.ofEvents [])).1.getD []
    h.map (·.request) = [.stream (.write .supplied [1, 2]), .stream (.write .supplied [3]),
      .stream (.flush .supplied), .stream (.flush .supplied)] ∧
      results.map (fun x => (x.1.toOption, x.2.written)) =
        [(some (), 2), (some (), 3), (some (), 3), (none, 3), (some (), 3)] := by
  decide +kernel

end Raw

end Screencast
