import Screencast.Proofs.RunParts
import Screencast.Rehearsal.Obliging

/-!
# Every buffer is handed back

The encoder has few buffers and waits for the ones it has handed out. Each of them is handed back
before the next is asked for, whatever it holds and whatever becomes of it. Only a buffer at which
the run fails may be kept, and it is the last.

* `History.transfers`, `History.Alternating`: buffers asked for and handed back, in turns.
* `Take.Stranded`, `Take.Reaches`: why a buffer is not handed back, and by a loop that has come how
  far.
* `Transferred`: the buffers of a part of a run, and what comes before and after it.
* `Take.Passed.returned`, `Take.Pumped.returned`: one pass of the loop, and all of them.
* `Session.buffers_returned`: the main result.
-/

namespace Screencast

namespace Exchange

/-- The place of the buffer that is handed back. -/
def backIndex? : Exchange → Option Nat
  | ⟨.encoder (.releaseBuffer index), _⟩ => some index
  | _ => none

/-- A buffer is asked for or handed back. -/
def transfers (e : Exchange) : Bool := e.dequeued?.isSome || e.backIndex?.isSome

end Exchange

namespace History

/-- The calls by which buffers are asked for and handed back. -/
def transfers (h : History) : History := h.filter Exchange.transfers

/-- The places of the buffers that are handed back. -/
def handedBack (h : History) : List Nat := h.filterMap Exchange.backIndex?

/-- Each buffer is handed back before another is asked for. The encoder may be asked in vain. -/
inductive Alternating : History → Prop
  | nil : Alternating []
  | vain {h : History} (milliseconds : Nat) (answer : Dequeued) (ha : ∀ b, answer ≠ .buffer b)
      (hh : Alternating h) : Alternating (⟨.encoder (.dequeue milliseconds), answer⟩ :: h)
  | buffer {h : History} (milliseconds : Nat) (b : FilledBuffer) (answer : Outcome Unit)
      (hh : Alternating h) :
      Alternating (⟨.encoder (.dequeue milliseconds), .buffer b⟩ ::
        ⟨.encoder (.releaseBuffer b.index), answer⟩ :: h)

variable {h k : History} {parties : List Party}

@[simp] theorem transfers_append : transfers (h ++ k) = h.transfers ++ k.transfers :=
  List.filter_append ..

@[simp] theorem handedBack_append : handedBack (h ++ k) = h.handedBack ++ k.handedBack :=
  List.filterMap_append

theorem Alternating.append (hh : h.Alternating) (hk : k.Alternating) : Alternating (h ++ k) := by
  induction hh with
  | nil => exact hk
  | vain milliseconds answer ha _ ih => exact .vain milliseconds answer ha ih
  | buffer milliseconds b answer _ ih => exact .buffer milliseconds b answer ih

theorem Within.transfers (hw : h.Within parties) (hp : Party.encoder ∉ parties) :
    h.transfers = [] := by
  refine List.filter_eq_nil_iff.2 fun e he => ?_
  have hparty : e.party ≠ .encoder := fun h => hp (h ▸ hw e he)
  rcases e with ⟨_ | _, answer⟩
  case encoder => exact absurd rfl hparty
  all_goals exact Bool.false_ne_true

theorem not_transfers_of_mem (hn : h.transfers = []) {e : Exchange} (he : e ∈ h) :
    e.dequeued? = none ∧ e.backIndex? = none := by
  simpa [Exchange.transfers] using List.filter_eq_nil_iff.1 hn e he

theorem idle_of_transfers (hn : h.transfers = []) : h.Idle :=
  fun _ he => (not_transfers_of_mem hn he).1

theorem handedBack_of_transfers (hn : h.transfers = []) : h.handedBack = [] :=
  List.filterMap_eq_nil_iff.2 fun _ he => (not_transfers_of_mem hn he).2

end History

open History

namespace Take

/-- **Why a buffer is not handed back** by a loop that works with `t`, and the calls that it makes
while it holds the buffer: the buffer table does not have its slot, the slot holds less than the
buffer announces, or the output of the loop refuses what it holds. -/
inductive Stranded (t : Take) (b : FilledBuffer) (slot? : Option Slot) : History → Failure → Prop
  | unknown {f : Failure} (hs : slot? = none) (hf : f.stage = .poll) : Stranded t b slot? [] f
  | short {slot : Slot} {data : Bytes} {f : Failure} (hs : slot? = some slot)
      (hd : b.bytes? data = none) (hf : f.stage = .poll) :
      Stranded t b slot? [⟨.encoder (.readSlot slot), data⟩] f
  | refused {slot : Slot} {data payload : Bytes} {look clock out : History} {c : Capture}
      {time : Int} {sink : Sink} {f : Failure} (hs : slot? = some slot)
      (hd : b.bytes? data = some payload) (hl : Looked t.capture look c)
      (ht : Timed b.time clock time)
      (hw : Sink.Sent ⟨b.index, payload, time, b.flags⟩ t.sink out (.error f, sink)) :
      Stranded t b slot? (⟨.encoder (.readSlot slot), data⟩ :: (look ++ clock ++ out)) f

/-- A loop that starts with `t` has come, by these calls, to a pass that it makes with `t'`. -/
inductive Reaches (deadline : Int64) : Take → History → Take → Prop
  | first (t : Take) (nanos : Int64) (hn : nanos ≤ deadline) :
      Reaches deadline t [asked false, clocked nanos] t
  | next {t t' t'' : Take} {h k : History} (nanos : Int64) (hn : nanos ≤ deadline)
      (hp : (pass t).Shows h (some (.ok false, t'))) (hr : Reaches deadline t' k t'') :
      Reaches deadline t (asked false :: clocked nanos :: (h ++ k)) t''

/-- A loop that starts with `t` fails at a buffer, and makes no other calls once it has it. -/
inductive FailsAt (deadline : Int64) (t : Take) (h : History) (o : Handout) (f : Failure) : Prop
  | mk {earlier : History} {t' : Take} (hr : Reaches deadline t earlier t')
      (hh : h = earlier ++ dequeued (.buffer o.buffer) :: o.rest)
      (hs : t'.Stranded o.buffer o.slot o.rest f)

end Take

/-- What the encoder hands out in some calls: the buffers that are given back in them, in their
order and each before the next is asked for, and those that are kept. -/
structure Transferred (table : List Slot) (h : History) (given kept : List Handout) : Prop where
  handedOut : h.handouts table = given ++ kept
  handedBack : h.handedBack = given.map fun o => o.buffer.index
  order : ∃ done, Alternating done ∧
    h.transfers = done ++ kept.map fun o => Take.dequeued (.buffer o.buffer)

variable {table : List Slot} {h k l : History} {given given' kept : List Handout}
  {b : FilledBuffer}

theorem transferred_nil (hn : h.transfers = []) : Transferred table h [] [] where
  handedOut := (idle_of_transfers hn).handouts_eq_nil
  handedBack := handedBack_of_transfers hn
  order := ⟨[], .nil, hn⟩

theorem Transferred.append (hh : Transferred table h given [])
    (hk : Transferred (h.tableAfter table) k given' kept) :
    Transferred table (h ++ k) (given.map (·.andThen k) ++ given') kept where
  handedOut := by
    rw [handouts_append, hh.handedOut, hk.handedOut, List.append_nil, List.append_assoc]
  handedBack := by
    rw [handedBack_append, hh.handedBack, hk.handedBack, List.map_append, List.map_map]
    rfl
  order := by
    obtain ⟨before, hbefore, hh⟩ := hh.order
    obtain ⟨done, hdone, hk⟩ := hk.order
    refine ⟨before ++ done, hbefore.append hdone, ?_⟩
    rw [transfers_append, hh, hk, List.map_nil, List.append_nil, List.append_assoc]

/-- Calls follow that are not about buffers. -/
theorem Transferred.followed (hh : Transferred table h given kept) (hk : k.transfers = []) :
    Transferred table (h ++ k) (given.map (·.andThen k)) (kept.map (·.andThen k)) where
  handedOut := by
    rw [handouts_append, hh.handedOut, (idle_of_transfers hk).handouts_eq_nil, List.append_nil,
      List.map_append]
  handedBack := by
    rw [handedBack_append, hh.handedBack, handedBack_of_transfers hk, List.append_nil,
      List.map_map]
    rfl
  order := by
    obtain ⟨done, hdone, hh⟩ := hh.order
    refine ⟨done, hdone, ?_⟩
    rw [transfers_append, hh, hk, List.append_nil, List.map_map]
    rfl

/-- The encoder is asked for a buffer in vain. -/
theorem transferred_vain {answer : Dequeued} (ha : ∀ b, answer ≠ .buffer b)
    (hk : k.transfers = []) : Transferred table (Take.dequeued answer :: k) [] [] where
  handedOut := by
    refine (idle_of_transfers hk).handouts_vain ?_
    cases answer with
    | buffer b => exact absurd rfl (ha b)
    | _ => rfl
  handedBack := (handedBack_of_transfers hk : k.handedBack = [])
  order := ⟨[Take.dequeued answer], .vain _ answer ha .nil, congrArg (Take.dequeued answer :: ·) hk⟩

/-- A buffer is handed out and given back. -/
theorem transferred_given (answer : Outcome Unit) (hk : k.transfers = []) (hl : l.transfers = []) :
    Transferred table
      (Take.dequeued (.buffer b) :: (k ++ ⟨.encoder (.releaseBuffer b.index), answer⟩ :: l))
      [⟨b, table[b.index]?, k ++ ⟨.encoder (.releaseBuffer b.index), answer⟩ :: l⟩] [] where
  handedOut := by
    have hrest : Idle (k ++ ⟨.encoder (.releaseBuffer b.index), answer⟩ :: l) := by
      simp [idle_of_transfers hk, idle_of_transfers hl, Exchange.dequeued?]
    exact hrest.handouts_buffer longestWait b
  handedBack := by
    have hback : handedBack (k ++ ⟨.encoder (.releaseBuffer b.index), answer⟩ :: l) =
        [b.index] := by
      rw [handedBack_append, handedBack_of_transfers hk]
      exact congrArg (b.index :: ·) (handedBack_of_transfers hl)
    exact hback
  order := by
    have hback : transfers (k ++ ⟨.encoder (.releaseBuffer b.index), answer⟩ :: l) =
        [⟨.encoder (.releaseBuffer b.index), answer⟩] := by
      rw [transfers_append, hk]
      exact congrArg (_ :: ·) hl
    exact ⟨_, .buffer longestWait b answer .nil, congrArg (Take.dequeued (.buffer b) :: ·) hback⟩

/-- A buffer is handed out and kept. -/
theorem transferred_kept (hk : k.transfers = []) :
    Transferred table (Take.dequeued (.buffer b) :: k) [] [⟨b, table[b.index]?, k⟩] where
  handedOut := (idle_of_transfers hk).handouts_buffer longestWait b
  handedBack := (handedBack_of_transfers hk : k.handedBack = [])
  order := ⟨[], .nil, congrArg (Take.dequeued (.buffer b) :: ·) hk⟩

namespace Take

variable {t t' : Take}

/-- After a pass that goes on, the encoder knows the table that was fetched last. -/
theorem Passed.tableAfter_eq {x : Bool} (hp : Passed t h (.ok x, t')) :
    h.tableAfter t.encoder.table = t'.encoder.table := by
  have hmoved : ∀ {p k s t'}, Encoder.Polled longestWait t.encoder p (.ok (.data s), t.encoder) →
      Handled s t k (.ok (), t') → (p ++ k).tableAfter t.encoder.table = t'.encoder.table := by
    intro p k s t' hp hh
    cases hp with
    | data =>
      rw [tableAfter_append, hh.within.tableAfter_eq (by simp), hh.encoder_eq]
      rfl
  cases hp with
  | idle => rfl
  | ended => rfl
  | refreshed => rfl
  | reformatted _ hr => exact hr.within.tableAfter_eq (by simp)
  | last hp hh =>
    rw [tableAfter_append]
    exact hmoved hp hh
  | moved hp hh =>
    rw [tableAfter_append]
    exact hmoved hp hh

/-- **One pass of the loop** hands back the buffer that it gets, or fails at it. -/
theorem Passed.returned {x : Outcome Bool} (hp : Passed t h (x, t')) :
    ∃ given kept, Transferred t.encoder.table h given kept ∧
      (kept = [] ∨ ∃ o f, kept = [o] ∧ x = .error f ∧ h = dequeued (.buffer o.buffer) :: o.rest ∧
        t.Stranded o.buffer o.slot o.rest f) := by
  have hformat : ∀ {format k y}, Sink.Reformatted format t.sink k y →
      transfers (⟨.encoder .currentFormat, .ok format⟩ :: k) = [] :=
    fun hr => hr.within.transfers (by simp)
  have hread : ∀ {s k y} slot data, Handled s t k y →
      transfers (⟨.encoder (.readSlot slot), data⟩ :: k) = [] :=
    fun _ _ hh => hh.within.transfers (by simp)
  cases hp with
  | unpolled hp =>
    cases hp with
    | idle => exact ⟨_, _, transferred_nil rfl, .inl rfl⟩
    | lastKept b f => exact ⟨_, _, transferred_given (k := []) (l := []) _ rfl rfl, .inl rfl⟩
    | unknown b _ _ hf ht =>
      exact ⟨_, _, transferred_kept rfl, .inr ⟨_, _, rfl, rfl, rfl, .unknown ht hf⟩⟩
    | short b slot data _ _ hf ht hd =>
      exact ⟨_, _, transferred_kept rfl, .inr ⟨_, _, rfl, rfl, rfl, .short ht hd hf⟩⟩
    | noFormat => exact ⟨_, _, transferred_vain (by nofun) rfl, .inl rfl⟩
  | broken => exact ⟨_, _, transferred_vain (by nofun) rfl, .inl rfl⟩
  | idle => exact ⟨_, _, transferred_vain (by nofun) rfl, .inl rfl⟩
  | ended b => exact ⟨_, _, transferred_given (k := []) (l := [_]) (.ok ()) rfl rfl, .inl rfl⟩
  | refreshed => exact ⟨_, _, transferred_vain (by nofun) rfl, .inl rfl⟩
  | unrefreshed => exact ⟨_, _, transferred_vain (by nofun) rfl, .inl rfl⟩
  | reformatted _ hr => exact ⟨_, _, transferred_vain (by nofun) (hformat hr), .inl rfl⟩
  | unformatted _ hr => exact ⟨_, _, transferred_vain (by nofun) (hformat hr), .inl rfl⟩
  | unwritten hp hh =>
    cases hp with
    | data b slot data payload _ ht hd =>
      refine ⟨_, _, transferred_kept (hread slot data hh), .inr ⟨_, _, rfl, rfl, rfl, ?_⟩⟩
      cases hh with
      | refused _ hl hclock hw => exact .refused ht hd hl hclock hw
  | kept f hp hh =>
    cases hp with
    | data =>
      exact ⟨_, _, transferred_given (l := []) (.error f) (hread _ _ hh) rfl, .inl rfl⟩
  | last hp hh =>
    cases hp with
    | data => exact ⟨_, _, transferred_given (l := [_]) (.ok ()) (hread _ _ hh) rfl, .inl rfl⟩
  | moved hp hh =>
    cases hp with
    | data => exact ⟨_, _, transferred_given (l := []) (.ok ()) (hread _ _ hh) rfl, .inl rfl⟩

/-- The run of a pass that succeeds keeps no buffer. -/
theorem given_of_shows {x : Bool} (hp : (pass t).Shows h (some (.ok x, t'))) :
    ∃ given, Transferred t.encoder.table h given [] := by
  obtain ⟨given, kept, ht, rfl | ⟨o, f, -, hx, -⟩⟩ :=
    Passed.returned (hp.ensured (ends_pass t) : Passed t h (.ok x, t'))
  · exact ⟨given, ht⟩
  · cases hx

/-- **The loop** hands back every buffer but one at which it fails. -/
theorem Pumped.returned {deadline : Int64} {r : Option (Outcome Ending × Take)}
    (hl : Pumped deadline t h r) :
    ∃ given kept, Transferred t.encoder.table h given kept ∧
      (kept = [] ∨ ∃ o f t', kept = [o] ∧ r = some (.error f, t') ∧ FailsAt deadline t h o f) := by
  have hturn : ∀ {table k given kept nanos}, Transferred table k given kept →
      Transferred table (asked false :: clocked nanos :: k) given kept :=
    fun hk => (transferred_nil (h := [asked false, clocked _]) rfl).append hk
  induction hl with
  | spent => exact ⟨_, _, transferred_nil rfl, .inl rfl⟩
  | stopped => exact ⟨_, _, transferred_nil rfl, .inl rfl⟩
  | late => exact ⟨_, _, transferred_nil rfl, .inl rfl⟩
  | @failed t t' h f nanos hn hp =>
    obtain ⟨given, kept, ht, hkept⟩ :=
      Passed.returned (hp.ensured (ends_pass t) : Passed t h (.error f, t'))
    refine ⟨given, kept, hturn ht, hkept.imp_right ?_⟩
    rintro ⟨o, _, rfl, ⟨⟩, rfl, hs⟩
    exact ⟨o, f, t', rfl, rfl, .mk (.first t nanos (Int64.not_lt.1 hn)) rfl hs⟩
  | ended nanos _ hp =>
    obtain ⟨given, ht⟩ := given_of_shows hp
    exact ⟨given, [], hturn ht, .inl rfl⟩
  | @next t t' h k r nanos hn hp _ ih =>
    obtain ⟨given, ht⟩ := given_of_shows hp
    obtain ⟨given', kept', hrest, hkept⟩ := ih
    -- the table that the pass leaves is the one that the rest of the loop reads by
    have htable : h.tableAfter t.encoder.table = t'.encoder.table :=
      (hp.ensured (ends_pass t) : Passed t h (.ok false, t')).tableAfter_eq
    refine ⟨_, kept', hturn (ht.append (htable ▸ hrest)), hkept.imp_right ?_⟩
    rintro ⟨o, f, t'', rfl, rfl, ⟨hr, hh, hs⟩⟩
    refine ⟨o, f, t'', rfl, rfl, .mk (.next nanos (Int64.not_lt.1 hn) hp hr) ?_ hs⟩
    rw [hh]
    simp

end Take

/-! ## A run -/

namespace Encoder

variable {e : Encoder} {s : Settings} {size : FrameSize} {frameRate : Single}

theorem Configured.transfers {x : Outcome Surface × Encoder}
    (hc : Configured s size frameRate e h x) : h.transfers = [] := by
  cases hc with
  | busy => rfl
  | granted => rfl
  | refused _ hr => cases hr <;> rfl

theorem Shrunk.transfers {x : Outcome (Surface × FrameSize) × Encoder}
    (hs : Shrunk s size frameRate e h x) : h.transfers = [] :=
  hs.of_attempts (P := fun k => k.transfers = [])
    (fun _ _ hh hk => by rw [transfers_append, hh, hk]; rfl) fun hc => hc.transfers

theorem Halted.transfers {x : Outcome Unit × Encoder} (hh : Halted e h x) : h.transfers = [] := by
  cases hh <;> rfl

theorem freeing_transfers : e.freeing.transfers = [] := by
  unfold freeing
  split <;> rfl

end Encoder

namespace Session

variable {s s' : Session}

theorem Abandoned.transfers (ha : Abandoned s h s') : h.transfers = [] := by
  obtain ⟨hs⟩ := ha
  rw [transfers_append, transfers_append, hs.transfers, Encoder.freeing_transfers,
    Capture.closing_within.transfers (by simp)]
  rfl

theorem GivenBack.transfers {sink : Sink} {x : Outcome Unit × Session}
    (hb : GivenBack s sink h x) : h.transfers = [] := by
  obtain ⟨hs, hc⟩ := hb
  rw [transfers_append, transfers_append, transfers_append, hs.transfers,
    Encoder.freeing_transfers, Capture.closing_within.transfers (by simp),
    hc.within.transfers (by simp)]
  rfl

/-- The set-up is not about buffers. -/
theorem Prepared.transfers {x : Outcome Ready × Session} (hp : Prepared s h x) :
    h.transfers = [] :=
  hp.of_parts (P := fun k => k.transfers = []) rfl
    (fun _ _ hh hk => by rw [transfers_append, hh, hk]; rfl)
    (fun hl => hl.within.transfers (by simp)) (fun he => he.transfers)
    (fun hc => hc.within.transfers (by simp)) (fun ho => ho.within.transfers (by simp))
    fun ha => ha.transfers

theorem Unlooped.transfers {f : Failure} (hu : Unlooped s h f s') : h.transfers = [] := by
  cases hu with
  | again => rfl
  | unprepared _ hp =>
    rw [transfers_append, ← List.singleton_append, transfers_append, hp.transfers]
    rfl

/-- The failure of the loop is the failure of the recording. -/
theorem Settled.of_error {settings : Settings} {sink : Sink}
    {totals : Ending → Option String → Totals} {f : Failure} {timed closed : Outcome Unit}
    {x : Outcome Recording}
    (hs : Settled settings sink totals (verdict (.error f) timed closed) h x) : x = .error f := by
  cases hs with
  | failed hv => exact congrArg Except.error (Except.error.inj hv).symm
  | concluded hv => cases hv

/-- What the loop does with its buffers is what has been done when it ends. -/
theorem transferred_of_looped {setUp loop : History} {r : Ready} (started : Int64)
    (hp : Prepared s setUp (.ok r, s')) (ht : Transferred s'.encoder.table loop given kept) :
    Transferred [] (lead setUp started ++ loop) given kept := by
  have hlead : transfers (lead setUp started) = [] := by
    have hset : transfers (setUp ++ [entered .capturing, Take.clocked started]) = [] := by
      rw [transfers_append, hp.transfers]
      rfl
    exact hset
  exact (transferred_nil hlead).append ((lead_table hp).symm ▸ ht)

/-- What follows the loop is not about buffers, and the failure of the loop is that of the run. -/
theorem WoundUp.transfers {r : Ready} {started : Int64} {looped : Outcome Ending} {t : Take}
    {x : Outcome Recording × Session} (hw : WoundUp s r started looped t h x) :
    h.transfers = [] := by
  cases hw with
  | @mk times back rest _ _ _ _ _ _ ht hb hs =>
    have htail : transfers (times ++ back ++ rest) = [] := by
      simp only [transfers_append, ht.within.transfers (by simp), hb.transfers,
        hs.within.transfers (by simp), List.append_nil]
    exact htail

theorem WoundUp.of_error {r : Ready} {started : Int64} {f : Failure} {t : Take}
    {x : Outcome Recording × Session} (hw : WoundUp s r started (.error f) t h x) :
    x.1 = .error f := by
  cases hw with
  | mk _ _ _ hs => exact hs.of_error

/-- A run fails at a buffer that its loop keeps. What the loop works with by then is what the
set-up and the passes before have led to, the output among it; and once the buffer is refused, the
loop is left. -/
inductive FailsAt (s : Session) (h : History) (o : Handout) (f : Failure) : Prop
  | mk {setUp earlier held rest : History} {r : Ready} {s' : Session} {t : Take}
      {started ended : Int64} (hp : (prepare s.begun).Shows setUp (some (.ok r, s')))
      (hr : Take.Reaches (s'.deadline started) (s'.taking r) earlier t)
      (hh : h = lead setUp started ++ earlier ++ Take.dequeued (.buffer o.buffer) :: o.rest)
      (he : o.rest = held ++ Take.clocked ended :: entered .draining :: rest)
      (hs : t.Stranded o.buffer o.slot held f)

/-- **The buffers of a run.** If one is kept, it is the last, and the run fails at it. -/
structure BuffersReturned (s : Session) (h : History)
    (result : Option (Outcome Recording × Session)) (given kept : List Handout) : Prop
    extends Transferred [] h given kept where
  stranded : kept = [] ∨
    ∃ o f s', kept = [o] ∧ result = some (.error f, s') ∧ FailsAt s h o f

theorem BuffersReturned.kept_eq_nil {recording : Recording}
    (hb : BuffersReturned s h (some (.ok recording, s')) given kept) : kept = [] := by
  obtain hk | ⟨_, _, _, _, hx, _⟩ := hb.stranded
  · exact hk
  · cases hx

variable {passes : Nat} {result : Option (Outcome Recording × Session)}

/-- A run that reaches its loop hands back every buffer but one at which the loop fails. -/
theorem returned_of_opened (hr : (run passes s).Runs h result) (hn : s.hasRun = false)
    (ho : ∃ e ∈ h.calls, e.opens .capturing = true) :
    ∃ given kept, BuffersReturned s h.calls result given kept := by
  obtain ⟨l, last, y, rfl, hl, hnone, hlast, ho, rfl⟩ := runs_run_of_opened hr hn ho
  obtain ⟨setUp, m, r, s', rfl, hset, hm, -⟩ := runs_perform hl ho
  have hp : Prepared s.begun setUp.calls (.ok r, s') := ends_prepare _ _ _ hset
  cases around_of_runs hm with
  | @unfinished loop started hloop =>
    obtain ⟨given, kept, ht, rfl | ⟨_, _, _, _, hx, _⟩⟩ :=
      (Take.ensures_pumped _ passes _ _ _ hloop).returned
    · have hh : calls (entered .configuring :: (setUp ++ entered .capturing ::
          Take.clocked started :: loop ++ last)) = lead setUp.calls started ++ loop.calls := by
        simp [hnone rfl, calls_cons, calls_append, Exchange.call, lead]
      rw [hh]
      exact ⟨given, [], transferred_of_looped started hp ht, .inl rfl⟩
    · cases hx
  | @ended loop after looped t started x nanos hloop hw =>
    obtain ⟨given, kept, ht, hkept⟩ := (Take.ensures_pumped _ passes _ _ _ hloop).returned
    have hafter : transfers (Take.clocked nanos :: entered .draining :: calls (after ++ last)) =
        [] := by
      rw [calls_append, ← List.cons_append, ← List.cons_append, transfers_append, hw.transfers,
        hlast.transfers (by simp)]
      rfl
    have hh : calls (entered .configuring :: (setUp ++ entered .capturing ::
        Take.clocked started :: (loop ++ Take.clocked nanos :: entered .draining :: after) ++
          last)) = lead setUp.calls started ++ loop.calls ++
            Take.clocked nanos :: entered .draining :: calls (after ++ last) := by
      simp [calls_cons, calls_append, Exchange.call, lead]
    rw [hh]
    refine ⟨_, _, (transferred_of_looped started hp ht).followed hafter, hkept.imp ?_ ?_⟩
    · rintro rfl
      rfl
    · -- a failure of the loop is the one that the run fails with
      rintro ⟨o, f, t', rfl, hx, ⟨hreach, hat, hs⟩⟩
      obtain ⟨rfl, -⟩ := Prod.mk.inj (Option.some.inj hx)
      refine ⟨_, f, x.2.ended, rfl, ?_, .mk ⟨setUp, hset, rfl⟩ hreach ?_ rfl hs⟩
      · rw [Option.map_some, hw.of_error]
      · rw [hat]
        simp [Handout.andThen]

theorem returned_of_runs (hr : (run passes s).Runs h result) (hn : s.hasRun = false) :
    ∃ given kept, BuffersReturned s h.calls result given kept := by
  have hran : Ran s h.calls result := ensures_run passes s h result hr
  obtain ⟨f, s', hu⟩ | ho := hran.unlooped_or_opened
  · exact ⟨[], [], transferred_nil hu.transfers, .inl rfl⟩
  · exact returned_of_opened hr hn ho

/-- **Every buffer is handed back in its turn.** In any run, finished or not and whatever the
encoder answers, the buffers that it hands out are handed back in their order, each once and before
the next is asked for: those with data, empty ones, those with parameters of the codec and the one
that ends the stream. One buffer may be kept, the last, by a run that fails because the buffer's
slot could not be read or because its output, as its loop had left it so far, refused what was in
the buffer. A run that ends well keeps none. -/
theorem buffers_returned {settings : Settings} {hasMuxer : Bool} {output : Option Raw}
    (hr : (run passes (ofSettings settings hasMuxer output)).Runs h result) :
    ∃ given kept,
      BuffersReturned (ofSettings settings hasMuxer output) h.calls result given kept ∧
        ∀ recording s, result = some (.ok recording, s) → kept = [] := by
  obtain ⟨given, kept, hreturned⟩ := returned_of_runs hr rfl
  refine ⟨given, kept, hreturned, ?_⟩
  rintro recording s rfl
  exact hreturned.kept_eq_nil

open Rehearsal in
/-- A run that is handed a picture, parameters of the codec and an empty buffer, and fails at a
buffer that announces more than its slot holds. -/
theorem buffers_returned_obliging :
    let p := run 9 (ofSettings .standard true none)
    let device := Obliging.ofEvents [.formatChanged, .buffer ⟨0, 0, 4, 7, .empty⟩,
      .buffer ⟨1, 0, 2, 0, .codecConfig⟩, .tryAgain, .buffer ⟨0, 0, 0, 9, .empty⟩,
      .buffer ⟨1, 2, 3, 9, .empty⟩]
    let h := (p.history Obliging.answer device).calls
    h.handedBack = [0, 1, 0] ∧
      (h.handouts []).map (fun o => o.buffer.index) = [0, 1, 0, 1] ∧
      ∃ given kept, BuffersReturned (ofSettings .standard true none) h
          (p.run Obliging.answer device).1 given kept ∧
        ∀ recording s, (p.run Obliging.answer device).1 = some (.ok recording, s) → kept = [] :=
  ⟨by decide +kernel, by decide +kernel, buffers_returned (Program.runs_run _ _ _)⟩

end Session

end Screencast
