import Screencast.Proofs.Conduct.Encoder

/-!
# The tenures of an encoder

A tenure of the encoder begins with an attempt to configure it and lasts until the next one.
Whatever is refused during a tenure, the encoder is released once in it, and it is stopped only if
its set-up was granted.

* `History.tenures`: a history cut at the attempts to configure the encoder.
* `History.tenures_append`: further calls lengthen the last tenure.
* `History.Returned`: every tenure is one in which the encoder is given back.
* `Encoder.Accounted`: what the state of the encoder says of the calls so far.
-/

namespace Screencast

namespace Exchange

/-- An attempt to configure the encoder. -/
def configures : Exchange → Bool
  | ⟨.encoder (.configure _), _⟩ => true
  | _ => false

/-- The encoder is stopped. -/
def halts (e : Exchange) : Bool := e.request == .encoder .stop

/-- The encoder is released. -/
def frees (e : Exchange) : Bool := e.request == .encoder .release

/-- The tenure of the encoder goes on as it is. -/
def leaves (e : Exchange) : Bool := !e.configures && !e.halts && !e.frees

theorem leaves_iff {e : Exchange} :
    e.leaves = true ↔ e.configures = false ∧ e.halts = false ∧ e.frees = false := by
  simp [leaves, and_assoc]

theorem leaves_of_party {e : Exchange} (hp : e.party ≠ .encoder) : e.leaves = true := by
  rcases e with ⟨_ | _ | _ | _ | _ | _, answer⟩
  case encoder => exact absurd rfl hp
  all_goals rfl

end Exchange

namespace History

/-- How often the encoder is stopped. -/
def halts (h : History) : Nat := h.countP Exchange.halts

/-- How often the encoder is released. -/
def frees (h : History) : Nat := h.countP Exchange.frees

/-- The calls before the first attempt to configure the encoder. -/
def foretime (h : History) : History := h.takeWhile fun e => !e.configures

/-- The calls from each attempt to configure the encoder on, up to the next one. -/
def tenures : History → List History
  | [] => []
  | e :: h => if e.configures then (e :: foretime h) :: tenures h else tenures h

/-- No call that begins a tenure of the encoder. -/
def Unclaimed (h : History) : Prop := ∀ e ∈ h, e.configures = false

/-- No call that begins a tenure of the encoder, stops it or releases it. -/
def Calm (h : History) : Prop := h.all Exchange.leaves = true

variable {h k t : History} {parties : List Party}

@[simp] theorem halts_append : halts (h ++ k) = h.halts + k.halts := List.countP_append

@[simp] theorem frees_append : frees (h ++ k) = h.frees + k.frees := List.countP_append

@[simp] theorem unclaimed_nil : Unclaimed [] := fun _ he => absurd he List.not_mem_nil

@[simp] theorem unclaimed_cons {e : Exchange} :
    Unclaimed (e :: h) ↔ e.configures = false ∧ h.Unclaimed := List.forall_mem_cons

@[simp] theorem unclaimed_append : Unclaimed (h ++ k) ↔ h.Unclaimed ∧ k.Unclaimed :=
  List.forall_mem_append

theorem calm_iff :
    h.Calm ↔ ∀ e ∈ h, e.configures = false ∧ e.halts = false ∧ e.frees = false := by
  rw [Calm, List.all_eq_true]
  exact forall₂_congr fun e _ => Exchange.leaves_iff

theorem Within.calm (hw : h.Within parties) (hp : Party.encoder ∉ parties) : h.Calm :=
  List.all_eq_true.2 fun e he => Exchange.leaves_of_party fun h => hp (h ▸ hw e he)

theorem Calm.unclaimed (hk : k.Calm) : k.Unclaimed := fun e he => (calm_iff.1 hk e he).1

theorem Calm.halts (hk : k.Calm) : k.halts = 0 := by
  rw [History.halts, List.countP_eq_zero]
  intro e he
  rw [(calm_iff.1 hk e he).2.1]
  exact Bool.false_ne_true

theorem Calm.frees (hk : k.Calm) : k.frees = 0 := by
  rw [History.frees, List.countP_eq_zero]
  intro e he
  rw [(calm_iff.1 hk e he).2.2]
  exact Bool.false_ne_true

/-! ## A history cut into tenures -/

theorem foretime_of_unclaimed (hk : k.Unclaimed) : k.foretime = k := by
  rw [foretime, List.takeWhile_eq_self_iff]
  intro e he
  rw [hk e he]
  rfl

theorem foretime_append (hk : k.Unclaimed) :
    foretime (h ++ k) = h.foretime ∨ foretime (h ++ k) = h.foretime ++ k := by
  rw [foretime, List.takeWhile_append, ← foretime, ← foretime, foretime_of_unclaimed hk]
  split
  · -- `h` has no attempt at all, so its calls go on into `k`
    rename_i hlen
    have hself : h.foretime = h := (List.takeWhile_prefix _).eq_of_length hlen
    exact .inr (by rw [hself])
  · exact .inl rfl

/-- A tenure is not lengthened by the next one. -/
theorem foretime_append_cons {e : Exchange} (he : e.configures = true) :
    foretime (h ++ e :: k) = h.foretime := by
  have hnone : foretime (e :: k) = [] := by simp [foretime, he]
  rw [foretime, List.takeWhile_append, ← foretime, ← foretime, hnone, List.append_nil]
  split
  · rename_i hlen
    exact ((List.takeWhile_prefix _).eq_of_length hlen).symm
  · rfl

theorem tenures_of_unclaimed (hk : k.Unclaimed) : k.tenures = [] := by
  induction k with
  | nil => rfl
  | cons e k ih =>
    obtain ⟨he, hk⟩ := unclaimed_cons.1 hk
    rw [tenures, he]
    exact ih hk

/-- A further tenure is the last. -/
theorem tenures_append_cons {e : Exchange} (he : e.configures = true) (hk : k.Unclaimed) :
    tenures (h ++ e :: k) = h.tenures ++ [e :: k] := by
  induction h with
  | nil =>
    show tenures (e :: k) = [e :: k]
    rw [tenures, if_pos he, foretime_of_unclaimed hk, tenures_of_unclaimed hk]
  | cons x h ih =>
    rw [List.cons_append, tenures, tenures, foretime_append_cons he, ih]
    split <;> rfl

/-- A history has no attempt, or a last one. -/
theorem unclaimed_or_eq_append (h : History) : h.Unclaimed ∨
    ∃ (before : History) (e : Exchange) (after : History),
      h = before ++ e :: after ∧ e.configures = true ∧ after.Unclaimed := by
  induction h with
  | nil => exact .inl unclaimed_nil
  | cons x h ih =>
    rcases ih with hh | ⟨before, e, after, rfl, he, ha⟩
    · cases hx : x.configures with
      | false => exact .inl (unclaimed_cons.2 ⟨hx, hh⟩)
      | true => exact .inr ⟨[], x, h, rfl, hx, hh⟩
    · exact .inr ⟨x :: before, e, after, rfl, he, ha⟩

/-- **Further calls lengthen the last tenure**, if there is one. -/
theorem tenures_append (h : History) (hk : k.Unclaimed) :
    h.tenures = [] ∧ tenures (h ++ k) = [] ∨
      ∃ ts t, h.tenures = ts ++ [t] ∧ tenures (h ++ k) = ts ++ [t ++ k] := by
  rcases unclaimed_or_eq_append h with hh | ⟨before, e, after, rfl, he, ha⟩
  · exact .inl ⟨tenures_of_unclaimed hh, tenures_of_unclaimed (unclaimed_append.2 ⟨hh, hk⟩)⟩
  · refine .inr ⟨before.tenures, e :: after, tenures_append_cons he ha, ?_⟩
    rw [List.append_assoc, List.cons_append]
    exact tenures_append_cons he (unclaimed_append.2 ⟨ha, hk⟩)

theorem mem_tenures_append (hk : k.Unclaimed) (ht : t ∈ tenures (h ++ k)) :
    ∃ t' ∈ h.tenures, t = t' ∨ t = t' ++ k := by
  rcases tenures_append h hk with ⟨-, hnone⟩ | ⟨ts, t', hts, htk⟩
  · rw [hnone] at ht
    exact absurd ht List.not_mem_nil
  · rw [hts]
    rw [htk] at ht
    rcases List.mem_append.1 ht with ht | ht
    · exact ⟨t, List.mem_append_left _ ht, .inl rfl⟩
    · exact ⟨t', by simp, .inr (List.mem_singleton.1 ht)⟩

end History

open History

/-- A tenure after which the encoder is free: it was released once, and it was stopped at most once
and only after a set-up that was granted. -/
structure Tenure (t : History) : Prop where
  freed : t.frees = 1
  halted : t.halts ≤ 1
  granted : t.halts ≠ 0 → ∃ params persistent surface table,
    Encoder.granted params persistent surface table <+: t

/-- The encoder is given back in every tenure, and not stopped or released out of one. -/
structure History.Returned (h : History) : Prop where
  unfreed : h.foretime.frees = 0
  unhalted : h.foretime.halts = 0
  tenures : ∀ t ∈ h.tenures, Tenure t

variable {h k : History}

theorem Tenure.calm {t : History} (ht : Tenure t) (hk : k.Calm) : Tenure (t ++ k) where
  freed := by rw [frees_append, ht.freed, hk.frees]
  halted := by
    rw [halts_append, hk.halts]
    exact ht.halted
  granted := by
    rw [halts_append, hk.halts]
    intro hn
    obtain ⟨params, persistent, surface, table, hpre⟩ := ht.granted hn
    exact ⟨params, persistent, surface, table, hpre.trans (List.prefix_append ..)⟩

theorem History.returned_nil : Returned [] := ⟨rfl, rfl, fun _ ht => absurd ht List.not_mem_nil⟩

theorem History.Returned.calm (hh : h.Returned) (hk : k.Calm) : Returned (h ++ k) := by
  have hfore : (foretime (h ++ k)).frees = 0 ∧ (foretime (h ++ k)).halts = 0 := by
    rcases foretime_append (h := h) hk.unclaimed with hf | hf
    · rw [hf]
      exact ⟨hh.unfreed, hh.unhalted⟩
    · rw [hf, frees_append, halts_append, hh.unfreed, hh.unhalted, hk.frees, hk.halts]
      exact ⟨rfl, rfl⟩
  refine ⟨hfore.1, hfore.2, fun t ht => ?_⟩
  obtain ⟨t', ht', rfl | rfl⟩ := mem_tenures_append hk.unclaimed ht
  · exact hh.tenures _ ht'
  · exact (hh.tenures _ ht').calm hk

theorem History.Returned.tenure {e : Exchange} (hh : h.Returned) (he : e.configures = true)
    (hk : k.Unclaimed) (ht : Tenure (e :: k)) : Returned (h ++ e :: k) := by
  refine ⟨?_, ?_, fun t hmem => ?_⟩
  · rw [foretime_append_cons he, hh.unfreed]
  · rw [foretime_append_cons he, hh.unhalted]
  · rw [tenures_append_cons he hk] at hmem
    rcases List.mem_append.1 hmem with hmem | hmem
    · exact hh.tenures t hmem
    · obtain rfl := List.mem_singleton.1 hmem
      exact ht

namespace Encoder

/-- What the state of an encoder says of the calls so far. A free one was given back in every
tenure; another has still to be given back in the last one, where it is stopped at most once. -/
inductive Accounted : State → History → Prop
  | free {h : History} (hh : h.Returned) : Accounted .unconfigured h
  | taken {h k : History} {state : State} (params : EncoderSettings) (persistent : Bool)
      (surface : Surface) (table : List Slot) (hs : state ≠ .unconfigured) (hh : h.Returned)
      (hk : k.Unclaimed) (hfrees : k.frees = 0)
      (hhalts : k.halts = if state = .stopped then 1 else 0) :
      Accounted state (h ++ (granted params persistent surface table ++ k))

theorem Accounted.returned (ha : Accounted .unconfigured h) : h.Returned := by
  cases ha with
  | free hh => exact hh
  | taken _ _ _ _ hs => exact absurd rfl hs

variable {state : State} {e e' : Encoder}

/-- A set-up that was granted neither stops nor releases the encoder. -/
theorem granted_counts (params : EncoderSettings) (persistent : Bool) (surface : Surface)
    (table : List Slot) : (granted params persistent surface table).frees = 0 ∧
      (granted params persistent surface table).halts = 0 := ⟨rfl, rfl⟩

theorem Accounted.calm (ha : Accounted state h) (hk : k.Calm) : Accounted state (h ++ k) := by
  cases ha with
  | free hh => exact .free (hh.calm hk)
  | taken params persistent surface table hs hh hl hfrees hhalts =>
    rw [List.append_assoc, List.append_assoc]
    refine .taken params persistent surface table hs hh ?_ ?_ ?_
    · exact unclaimed_append.2 ⟨hl, hk.unclaimed⟩
    · rw [frees_append, hfrees, hk.frees]
    · rw [halts_append, hhalts, hk.halts, Nat.add_zero]

/-- A set-up that was refused is a tenure once the encoder is released. -/
theorem Refused.tenure {params : EncoderSettings} {persistent : Bool} {f : Failure}
    (hr : Refused params persistent k f) :
    ∃ e l, k ++ [⟨.encoder .release, ()⟩] = e :: l ∧ e.configures = true ∧
      History.Unclaimed l ∧ Tenure (e :: l) := by
  cases hr <;>
    refine ⟨_, _, rfl, rfl, ?_, rfl, Nat.zero_le 1, fun hn => absurd rfl hn⟩ <;>
    simp [Exchange.configures]

theorem Configured.accounted {s : Settings} {size : FrameSize} {frameRate : Single}
    {x : Outcome Surface} (hc : Configured s size frameRate e k (x, e'))
    (ha : Accounted e.state h) : Accounted e'.state (h ++ k) := by
  cases hc with
  | busy =>
    rw [List.append_nil]
    exact ha
  | granted surface table he =>
    -- only a free encoder is set up, so the calls so far are whole tenures
    rw [he] at ha
    cases ha with
    | free hh =>
      have htaken : Accounted .running (h ++ (Encoder.granted (paramsFor s size frameRate)
          s.persistentSurface surface table ++ [])) :=
        .taken _ _ _ _ nofun hh unclaimed_nil rfl rfl
      rwa [List.append_nil] at htaken
    | taken _ _ _ _ hs => exact absurd rfl hs
  | refused he hr =>
    -- the release that makes good a refusal ends the tenure at once
    rw [he] at ha
    cases ha with
    | free hh =>
      obtain ⟨e, l, heq, hconf, hl, ht⟩ := hr.tenure
      rw [heq]
      exact .free (hh.tenure hconf hl ht)
    | taken _ _ _ _ hs => exact absurd rfl hs

/-- A first attempt at a set-up and a second one are two tenures. -/
theorem Shrunk.accounted {s : Settings} {size : FrameSize} {frameRate : Single}
    {x : Outcome (Surface × FrameSize)} (hs : Shrunk s size frameRate e k (x, e'))
    (ha : Accounted e.state h) : Accounted e'.state (h ++ k) := by
  cases hs with
  | first h₁ => exact h₁.accounted ha
  | final _ h₁ => exact h₁.accounted ha
  | second _ h₁ h₂ =>
    rw [← List.append_assoc]
    exact h₂.accounted (h₁.accounted ha)
  | twice _ h₁ h₂ =>
    rw [← List.append_assoc]
    exact h₂.accounted (h₁.accounted ha)

theorem Polled.calm {milliseconds : Nat} {x : Outcome Event × Encoder}
    (hp : Polled milliseconds e k x) : k.Calm := by
  cases hp <;> rfl

/-- The encoder is stopped at most once in a tenure. -/
theorem Halted.accounted {x : Outcome Unit} (hs : Halted e k (x, e'))
    (ha : Accounted e.state h) : Accounted e'.state (h ++ k) := by
  cases hs with
  | unneeded =>
    rw [List.append_nil]
    exact ha
  | stopped answer he =>
    rw [he] at ha
    cases ha with
    | taken params persistent surface table _ hh hl hfrees hhalts =>
      rw [List.append_assoc, List.append_assoc]
      refine .taken params persistent surface table nofun hh ?_ ?_ ?_
      · exact unclaimed_append.2 ⟨hl, by simp [Exchange.configures]⟩
      · rw [frees_append, hfrees]
        rfl
      · rw [halts_append, hhalts]
        rfl

@[simp] theorem freed_state (e : Encoder) : e.freed.state = .unconfigured := by
  unfold freed
  split
  · assumption
  · rfl

/-- The call that frees an encoder ends its tenure. -/
theorem Accounted.freeing (ha : Accounted e.state h) :
    Accounted .unconfigured (h ++ e.freeing) := by
  unfold Encoder.freeing
  split
  · rename_i he
    rw [he] at ha
    rwa [List.append_nil]
  rename_i he
  generalize hstate : e.state = state at ha he
  cases ha with
  | free => exact absurd rfl he
  | @taken _ k _ params persistent surface table _ hh hl hfrees hhalts =>
    -- the open tenure is the set-up, what came since, and this release
    obtain ⟨hgrantedFrees, hgrantedHalts⟩ := granted_counts params persistent surface table
    rw [List.append_assoc, List.append_assoc]
    refine .free (hh.tenure rfl ?_ ⟨?_, ?_, fun _ => ⟨params, persistent, surface, table, ?_⟩⟩)
    · simp [hl, Exchange.configures]
    · show frees (granted params persistent surface table ++ (k ++ _)) = 1
      rw [frees_append, frees_append, hgrantedFrees, hfrees]
      rfl
    · show halts (granted params persistent surface table ++ (k ++ _)) ≤ 1
      rw [halts_append, halts_append, hgrantedHalts, hhalts]
      split <;> decide
    · exact List.prefix_append ..

end Encoder

end Screencast
