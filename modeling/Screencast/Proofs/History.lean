import Mathlib.Data.List.TakeWhile
import Screencast.Program

/-!
# What a history tells

A history is read by the calls in it: with whom they were, and in which phase of a session.

* `History.calls`: the exchanges without the lines of the event report.
* `History.Within`: calls with none but certain parties.
* `History.Quiet`: calls that hand no data to an output.
* `History.OnlyAfter`: what must have been called before calls of a kind.
* `History.before`, `History.since`: the calls before and after a phase was entered.
-/

namespace Screencast

/-- Whom a request is put to. -/
inductive Party
  | encoder
  | display
  | capture
  | muxer
  | stream
  | disk
  | clock
  | signal
  | watcher
  | report
  | identity
  deriving DecidableEq, Repr

namespace Exchange

def party (e : Exchange) : Party :=
  match e.request with
  | .encoder _ => .encoder
  | .display _ => .display
  | .capture _ => .capture
  | .muxer _ => .muxer
  | .stream _ => .stream
  | .disk _ => .disk
  | .clock _ => .clock
  | .signal _ => .signal
  | .notify _ => .watcher
  | .report _ _ => .report
  | .identity => .identity

/-- An exchange as a call, or nothing where it only writes a line of the event report. -/
def call (e : Exchange) : History :=
  match e.request with
  | .report _ _ => []
  | .encoder _ | .display _ | .capture _ | .muxer _ | .stream _ | .disk _ | .clock _ => [e]
  | .signal _ | .notify _ | .identity => [e]

/-- Whether data is handed to an output. -/
def carries : Exchange → Bool
  | ⟨.muxer (.write _ _ _ _), _⟩ => true
  | ⟨.stream (.write _ _), _⟩ => true
  | ⟨.stream (.deliver _), _⟩ => true
  | _ => false

theorem carries_of_party {e : Exchange} (hm : e.party ≠ .muxer) (hs : e.party ≠ .stream) :
    e.carries = false := by
  rcases e with ⟨_ | _ | _ | _ | _ | _, answer⟩
  case muxer => exact absurd rfl hm
  case stream => exact absurd rfl hs
  all_goals rfl

/-- The notice that a phase was entered. -/
def opens (phase : Phase) (e : Exchange) : Bool := e.request == .notify (.phase phase)

end Exchange

namespace History

/-- The exchanges of a run without the lines of the event report. -/
def calls (h : History) : History := h.flatMap Exchange.call

theorem calls_cons (e : Exchange) (h : History) : calls (e :: h) = e.call ++ h.calls :=
  List.flatMap_cons ..

theorem calls_append (h k : History) : calls (h ++ k) = h.calls ++ calls k :=
  List.flatMap_append ..

/-- All calls are with these parties. -/
def Within (parties : List Party) (h : History) : Prop := ∀ e ∈ h, e.party ∈ parties

variable {parties : List Party} {h k : History}

@[simp] theorem within_nil : Within parties [] := fun _ he => absurd he List.not_mem_nil

@[simp] theorem within_cons {e : Exchange} :
    Within parties (e :: h) ↔ e.party ∈ parties ∧ h.Within parties := List.forall_mem_cons

@[simp] theorem within_append :
    Within parties (h ++ k) ↔ h.Within parties ∧ k.Within parties := List.forall_mem_append

theorem Within.mono {more : List Party} (hw : h.Within parties) (hp : parties ⊆ more) :
    h.Within more := fun e he => hp (hw e he)

/-- What is collected from calls with one party is not found among calls with others. -/
theorem Within.filterMap_eq_nil {α : Type} {f : Exchange → Option α} (hw : h.Within parties)
    (hf : ∀ e, e.party ∈ parties → f e = none) : h.filterMap f = [] := by
  rw [List.filterMap_eq_nil_iff]
  exact fun e he => hf e (hw e he)

/-- The calls with one party. -/
def only (party : Party) (h : History) : History := h.filter fun e => e.party == party

@[simp] theorem only_append {party : Party} :
    only party (h ++ k) = h.only party ++ k.only party := List.filter_append ..

/-- The lines of the event report are with no one else. -/
theorem only_calls {party : Party} (hp : party ≠ .report) (h : History) :
    h.calls.only party = h.only party := by
  induction h with
  | nil => rfl
  | cons e h ih =>
    have he : only party e.call = only party [e] := by
      rcases e with ⟨_ | _, _⟩
      case report =>
        have hreport : ¬Party.report = party := fun h => hp h.symm
        simp [only, Exchange.call, Exchange.party, hreport]
      all_goals rfl
    rw [calls_cons, only_append, ih, he, ← only_append]
    rfl

theorem Within.only_eq_nil {party : Party} (hw : h.Within parties) (hp : party ∉ parties) :
    h.only party = [] := by
  rw [only, List.filter_eq_nil_iff]
  intro e he hparty
  exact hp (beq_iff_eq.1 hparty ▸ hw e he)

/-- No data is handed to an output. -/
def Quiet (h : History) : Prop := ∀ e ∈ h, e.carries = false

@[simp] theorem quiet_nil : Quiet [] := fun _ he => absurd he List.not_mem_nil

@[simp] theorem quiet_cons {e : Exchange} :
    Quiet (e :: h) ↔ e.carries = false ∧ h.Quiet := List.forall_mem_cons

@[simp] theorem quiet_append : Quiet (h ++ k) ↔ h.Quiet ∧ k.Quiet := List.forall_mem_append

theorem Within.quiet (hw : h.Within parties) (hm : Party.muxer ∉ parties)
    (hs : Party.stream ∉ parties) : h.Quiet := fun e he =>
  Exchange.carries_of_party (fun h => hm (h ▸ hw e he)) fun h => hs (h ▸ hw e he)

/-- Before each call of a kind, `P` holds of what was called. -/
def OnlyAfter (kind : Exchange → Bool) (P : History → Prop) (h : History) : Prop :=
  ∀ earlier e later, h = earlier ++ e :: later → kind e = true → P earlier

section OnlyAfter

variable {kind : Exchange → Bool} {P P' : History → Prop}

theorem OnlyAfter.mono (ha : h.OnlyAfter kind P) (hp : ∀ earlier, P earlier → P' earlier) :
    h.OnlyAfter kind P' :=
  fun earlier e later hh he => hp earlier (ha earlier e later hh he)

theorem onlyAfter_of_none (hn : ∀ e ∈ h, kind e = false) : h.OnlyAfter kind P := by
  rintro earlier e later rfl he
  rw [hn e (List.mem_append_right _ List.mem_cons_self)] at he
  cases he

theorem onlyAfter_cons {e : Exchange} :
    OnlyAfter kind P (e :: h) ↔
      (kind e = true → P []) ∧ h.OnlyAfter kind fun earlier => P (e :: earlier) := by
  constructor
  · intro ha
    exact ⟨ha [] e h rfl, fun earlier e' later hh => ha (e :: earlier) e' later (by rw [hh]; rfl)⟩
  · rintro ⟨hfirst, hrest⟩ (_ | ⟨e', earlier⟩) e'' later hh he
    · obtain ⟨rfl, -⟩ := List.cons.inj hh
      exact hfirst he
    · obtain ⟨rfl, rfl⟩ := List.cons.inj hh
      exact hrest earlier e'' later rfl he

@[simp] theorem onlyAfter_append :
    OnlyAfter kind P (h ++ k) ↔
      h.OnlyAfter kind P ∧ k.OnlyAfter kind fun earlier => P (h ++ earlier) := by
  induction h generalizing P with
  | nil => exact ⟨fun ha => ⟨onlyAfter_of_none (by simp), ha⟩, fun ha => ha.2⟩
  | cons e h ih =>
    rw [List.cons_append, onlyAfter_cons, onlyAfter_cons, ih, and_assoc]
    rfl

/-- There is at most one call of a kind that comes before any other of the kind. -/
theorem OnlyAfter.countP_le_one
    (ha : h.OnlyAfter kind fun earlier => ∀ e ∈ earlier, kind e = false) : h.countP kind ≤ 1 := by
  induction h with
  | nil => exact Nat.zero_le 1
  | cons e h ih =>
    have hrest := (onlyAfter_cons.1 ha).2
    cases he : kind e with
    | false =>
      rw [List.countP_cons_of_neg (by simp [he])]
      exact ih (hrest.mono fun earlier hn => (List.forall_mem_cons.1 hn).2)
    | true =>
      -- another one behind `e` would have `e` before it
      have hnone : h.countP kind = 0 := by
        refine List.countP_eq_zero.2 fun e' he' hk => ?_
        obtain ⟨earlier, later, rfl⟩ := List.append_of_mem he'
        rw [hrest earlier e' later rfl hk e List.mem_cons_self] at he
        cases he
      rw [List.countP_cons_of_pos he, hnone]

end OnlyAfter

/-- The calls before a phase was entered. -/
def before (phase : Phase) (h : History) : History := h.takeWhile fun e => !e.opens phase

/-- The calls from the entry of a phase on. -/
def since (phase : Phase) (h : History) : History := h.dropWhile fun e => !e.opens phase

variable {phase : Phase}

theorem before_of_notOpened (hn : ∀ e ∈ h, e.opens phase = false) : h.before phase = h := by
  rw [before, List.takeWhile_eq_self_iff]
  exact fun e he => by rw [hn e he]; rfl

theorem since_of_notOpened (hn : ∀ e ∈ h, e.opens phase = false) : h.since phase = [] := by
  rw [since, List.dropWhile_eq_nil_iff]
  exact fun e he => by rw [hn e he]; rfl

theorem before_append {e : Exchange} (hn : ∀ e ∈ h, e.opens phase = false)
    (he : e.opens phase = true) : before phase (h ++ e :: k) = h := by
  rw [before, List.takeWhile_append_of_pos fun e he => by rw [hn e he]; rfl]
  simp [he]

/-- What comes after the entry of the phase does not matter. -/
theorem before_append_of_opened (ho : ∃ e ∈ h, e.opens phase = true) :
    before phase (h ++ k) = h.before phase := by
  rw [before, before, List.takeWhile_append, if_neg]
  intro hlength
  obtain ⟨e, he, hopen⟩ := ho
  have hself := (List.takeWhile_prefix _).eq_of_length hlength
  have hclosed := List.takeWhile_eq_self_iff.1 hself e he
  rw [hopen] at hclosed
  cases hclosed

theorem since_append {e : Exchange} (hn : ∀ e ∈ h, e.opens phase = false)
    (he : e.opens phase = true) : since phase (h ++ e :: k) = e :: k := by
  rw [since, List.dropWhile_append_of_pos fun e he => by rw [hn e he]; rfl]
  simp [he]

theorem Within.notOpened (hw : h.Within parties) (hp : Party.watcher ∉ parties) :
    ∀ e ∈ h, e.opens phase = false := by
  intro e he
  refine Bool.eq_false_iff.2 fun ho => hp ?_
  have hr : e.request = .notify (.phase phase) := by simpa [Exchange.opens] using ho
  have hparty : e.party = .watcher := by simp [Exchange.party, hr]
  exact hparty ▸ hw e he

end History

end Screencast
