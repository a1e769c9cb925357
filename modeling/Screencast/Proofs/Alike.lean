import Screencast.Proofs.Ensures

/-!
# Runs that are alike

Two runs are compared by their exchanges with those that steer a recording: the encoder, the output,
the disk, the clock and the stop signal. As long as these have been asked the same and have answered
the same, they are asked the same again, or the two runs do not belong to one behaviour of them.

* `Forked`: two histories that part at one call with two answers.
* `History.shared`, `History.steering`: the exchanges by which two runs are compared.
* `Program.Alike`: any two runs of two programs fork, or are steered alike and come to related
  results. `alike_ask`, `Alike.bind` and their neighbours take it through two programs.
* `Program.alike_self`: the two programs are one that asks no one else.
* `Action.Alike`: the same for two actions on states that are related.
-/

namespace Screencast

/-! ## Exchanges can be compared -/

instance (r : EncoderRequest) : DecidableEq r.Answer :=
  match r with
  | .configure _ | .start | .releaseBuffer _ | .stop => inferInstanceAs (DecidableEq (Outcome Unit))
  | .createSurface _ => inferInstanceAs (DecidableEq (Outcome Surface))
  | .dequeue _ => inferInstanceAs (DecidableEq Dequeued)
  | .bufferTable => inferInstanceAs (DecidableEq (Outcome (List Slot)))
  | .currentFormat => inferInstanceAs (DecidableEq (Outcome TrackFormat))
  | .release => inferInstanceAs (DecidableEq Unit)
  | .readSlot _ => inferInstanceAs (DecidableEq Bytes)

instance (r : DisplayRequest) : DecidableEq r.Answer :=
  match r with
  | .geometry => inferInstanceAs (DecidableEq (Outcome Geometry))
  | .refreshRate => inferInstanceAs (DecidableEq (Outcome Single))

instance (r : CaptureRequest) : DecidableEq r.Answer :=
  match r with
  | .bind _ _ => inferInstanceAs (DecidableEq (Outcome Handle))
  | .project _ _ => inferInstanceAs (DecidableEq (Outcome Unit))
  | .release _ => inferInstanceAs (DecidableEq Unit)

instance (r : MuxerRequest) : DecidableEq r.Answer :=
  match r with
  | .addTrack _ => inferInstanceAs (DecidableEq (Outcome Track))
  | .create _ _ | .orientationHint _ | .start | .write _ _ _ _ | .stop =>
    inferInstanceAs (DecidableEq (Outcome Unit))

instance (r : StreamRequest) : DecidableEq r.Answer :=
  match r with
  | .write _ bytes => inferInstanceAs (DecidableEq (Except String (Fin (bytes.length + 1))))
  | .flush _ | .deliver _ => inferInstanceAs (DecidableEq (Except String Unit))
  | .rawTerminal => inferInstanceAs (DecidableEq Bool)

instance (r : DiskRequest) : DecidableEq r.Answer :=
  match r with
  | .remove _ | .create _ | .write _ _ => inferInstanceAs (DecidableEq (Except Disk.Refusal Unit))
  | .read _ => inferInstanceAs (DecidableEq (Except Disk.Refusal Bytes))

instance (r : SignalRequest) : DecidableEq r.Answer :=
  match r with
  | .isRaised => inferInstanceAs (DecidableEq Bool)
  | .raise => inferInstanceAs (DecidableEq Unit)

instance (r : Request) : DecidableEq r.Answer :=
  match r with
  | .encoder r => inferInstanceAs (DecidableEq r.Answer)
  | .display r => inferInstanceAs (DecidableEq r.Answer)
  | .capture r => inferInstanceAs (DecidableEq r.Answer)
  | .muxer r => inferInstanceAs (DecidableEq r.Answer)
  | .stream r => inferInstanceAs (DecidableEq r.Answer)
  | .disk r => inferInstanceAs (DecidableEq r.Answer)
  | .clock _ => inferInstanceAs (DecidableEq Int64)
  | .signal r => inferInstanceAs (DecidableEq r.Answer)
  | .notify _ | .report _ _ => inferInstanceAs (DecidableEq Unit)
  | .identity => inferInstanceAs (DecidableEq Identity)

deriving instance DecidableEq for Exchange

/-! ## Histories that part -/

/-- Two histories part at one call that is answered in two ways. -/
inductive Forked : History → History → Prop
  | here {e e' : Exchange} (h k : History) (hr : e.request = e'.request) (hn : e ≠ e') :
      Forked (e :: h) (e' :: k)
  | later (e : Exchange) {h k : History} (hf : Forked h k) : Forked (e :: h) (e :: k)

section Forked

variable {h k l : History}

theorem Forked.append (hf : Forked h k) (h' k' : History) : Forked (h ++ h') (k ++ k') := by
  induction hf with
  | here h k hr hn => exact .here _ _ hr hn
  | later e _ ih => exact .later e ih

theorem Forked.after (hf : Forked h k) (l : History) : Forked (l ++ h) (l ++ k) := by
  induction l with
  | nil => exact hf
  | cons e l ih => exact .later e ih

/-- A history does not part from itself. -/
theorem not_forked_self (h : History) : ¬Forked h h := by
  induction h with
  | nil => nofun
  | cons e h ih =>
    rintro (⟨_, _, -, hn⟩ | ⟨_, hf⟩)
    · exact hn rfl
    · exact ih hf

theorem forked_cons {e e' : Exchange} :
    Forked (e :: h) (e' :: k) ↔
      e.request = e'.request ∧ e ≠ e' ∨ e = e' ∧ Forked h k := by
  constructor
  · rintro (⟨_, _, hr, hn⟩ | ⟨_, hf⟩)
    · exact .inl ⟨hr, hn⟩
    · exact .inr ⟨rfl, hf⟩
  · rintro (⟨hr, hn⟩ | ⟨rfl, hf⟩)
    · exact .here h k hr hn
    · exact .later e hf

/-- Whether two histories part can be told by following both. -/
instance decidableForked : (h k : History) → Decidable (Forked h k)
  | [], _ => isFalse nofun
  | _ :: _, [] => isFalse nofun
  | e :: h, e' :: k =>
    have := decidableForked h k
    decidable_of_iff (e.request = e'.request ∧ e ≠ e' ∨ e = e' ∧ Forked h k) forked_cons.symm

end Forked

namespace Exchange

/-- A call as it is seen by someone who is told neither of the display and the compositor nor of
notices and identities. Of a file that is written only its path is seen. -/
def shared : Exchange → History
  | ⟨.display _, _⟩ => []
  | ⟨.capture _, _⟩ => []
  | ⟨.notify _, _⟩ => []
  | ⟨.report _ _, _⟩ => []
  | ⟨.identity, _⟩ => []
  | ⟨.disk (.write path _), answer⟩ => [⟨.disk (.write path []), answer⟩]
  | e => [e]

/-- The exchange, but for what the stop of the encoder has come to. -/
def steering : Exchange → Exchange
  | ⟨.encoder .stop, _⟩ => ⟨.encoder .stop, .ok ()⟩
  | e => e

@[simp] theorem steering_request (e : Exchange) : e.steering.request = e.request := by
  rcases e with ⟨⟨_ | _ | _ | _ | _ | _ | _ | _⟩ | _, _⟩ <;> rfl

end Exchange

namespace History

/-- The exchanges with the encoder, the output, the disk, the clock and the stop signal. -/
def shared (h : History) : History := h.flatMap Exchange.shared

/-- The exchanges that steer a recording: those that are shared, but for the answer to the stop of
the encoder. -/
def steering (h : History) : History := h.shared.map Exchange.steering

variable {h k : History}

@[simp] theorem steering_append : steering (h ++ k) = h.steering ++ k.steering := by
  rw [steering, shared, List.flatMap_append, List.map_append]
  rfl

theorem steering_cons (e : Exchange) : steering (e :: h) = steering [e] ++ h.steering :=
  steering_append (h := [e])

/-- The lines of the event report do not steer. -/
theorem steering_calls (h : History) : h.calls.steering = h.steering := by
  induction h with
  | nil => rfl
  | cons e h ih =>
    have he : steering e.call = steering [e] := by
      rcases e with ⟨_ | _, _⟩ <;> rfl
    rw [calls_cons, steering_append, ih, he, ← steering_cons]

/-- **Two histories that are steered alike** and do not fork share their exchanges: the stop of the
encoder, too, has come to the same. -/
theorem forked_or_eq (hs : Forked (h.map Exchange.steering) (k.map Exchange.steering) ∨
    h.map Exchange.steering = k.map Exchange.steering) : Forked h k ∨ h = k := by
  induction h generalizing k with
  | nil =>
    rcases hs with hf | he
    · cases hf
    · exact .inr (List.map_eq_nil_iff.1 he.symm).symm
  | cons e h ih =>
    cases k with
    | nil =>
      rcases hs with hf | he
      · cases hf
      · cases he
    | cons e' k =>
      rw [List.map_cons, List.map_cons] at hs
      by_cases he : e = e'
      · subst he
        have htail : Forked (h.map Exchange.steering) (k.map Exchange.steering) ∨
            h.map Exchange.steering = k.map Exchange.steering := by
          rcases hs with (⟨_, _, -, hn⟩ | ⟨_, hf⟩) | he
          · exact absurd rfl hn
          · exact .inl hf
          · exact .inr (List.cons.inj he).2
        rcases ih htail with hf | rfl
        · exact .inl (.later e hf)
        · exact .inr rfl
      · -- the two calls are one call
        have hr : e.steering.request = e'.steering.request := by
          rcases hs with hf | he
          · generalize e.steering = a at hf ⊢
            generalize e'.steering = b at hf ⊢
            cases hf with
            | here _ _ hr => exact hr
            | later => rfl
          · rw [(List.cons.inj he).1]
        rw [Exchange.steering_request, Exchange.steering_request] at hr
        exact .inl (.here h k hr he)

end History

open History

/-! ## Requests that steer -/

/-- Two answers to the request are told apart. -/
def Request.Told (r : Request) : Prop :=
  ∀ x y : r.Answer, x = y ∨ Forked (steering [⟨r, x⟩]) (steering [⟨r, y⟩])

namespace Request

theorem told_of_steering {r : Request} (hr : ∀ x : r.Answer, steering [⟨r, x⟩] = [⟨r, x⟩]) :
    r.Told := by
  intro x y
  by_cases hn : x = y
  · exact .inl hn
  · rw [hr, hr]
    refine .inr (.here [] [] rfl fun he => hn ?_)
    cases he
    rfl

@[simp] theorem told_encoder {r : EncoderRequest} (hr : r ≠ .stop) : Told (.encoder r) := by
  cases r with
  | stop => exact absurd rfl hr
  | _ => exact told_of_steering fun _ => rfl

@[simp] theorem told_muxer (r : MuxerRequest) : Told (.muxer r) := told_of_steering fun _ => rfl

@[simp] theorem told_stream (r : StreamRequest) : Told (.stream r) := told_of_steering fun _ => rfl

@[simp] theorem told_clock (r : ClockRequest) : Told (.clock r) := told_of_steering fun _ => rfl

@[simp] theorem told_signal (r : SignalRequest) : Told (.signal r) := told_of_steering fun _ => rfl

@[simp] theorem told_notify (n : Notice) : Told (.notify n) := fun _ _ => .inl rfl

@[simp] theorem told_report (level : Level) (text : String) : Told (.report level text) :=
  fun _ _ => .inl rfl

@[simp] theorem told_disk (r : DiskRequest) : Told (.disk r) := by
  cases r with
  | write path content =>
    -- the content is not told, but the answer is
    intro x y
    rcases told_of_steering (fun _ => rfl : ∀ x, steering [⟨.disk (.write path []), x⟩] = _) x y
      with hn | hf
    · exact .inl hn
    · exact .inr hf
  | _ => exact told_of_steering fun _ => rfl

end Request

namespace History

variable {h k : History}

/-- All answers are told apart. -/
def Told (h : History) : Prop := ∀ e ∈ h, e.request.Told

@[simp] theorem told_nil : Told [] := fun _ he => absurd he List.not_mem_nil

@[simp] theorem told_cons {e : Exchange} : Told (e :: h) ↔ e.request.Told ∧ h.Told :=
  List.forall_mem_cons

@[simp] theorem told_append : Told (h ++ k) ↔ h.Told ∧ k.Told := List.forall_mem_append

/-- Those who steer with whatever they answer. -/
def steeringParties : List Party := [.muxer, .stream, .disk, .clock, .signal, .watcher]

theorem Within.told {parties : List Party} (hw : h.Within parties)
    (hp : parties ⊆ steeringParties) : h.Told := by
  intro e he
  have hparty := hp (hw e he)
  rcases e with ⟨_ | _ | _ | _ | _ | _ | _ | _ | _ | _ | _, answer⟩
  case muxer r => exact Request.told_muxer r
  case stream r => exact Request.told_stream r
  case disk r => exact Request.told_disk r
  case clock r => exact Request.told_clock r
  case signal r => exact Request.told_signal r
  case notify n => exact Request.told_notify n
  all_goals simp [steeringParties, Exchange.party] at hparty

/-- Those who do not steer. -/
def mutedParties : List Party := [.display, .capture, .identity, .watcher]

theorem Within.steering_eq_nil {parties : List Party} (hw : h.Within parties)
    (hp : parties ⊆ mutedParties) : h.steering = [] := by
  induction h with
  | nil => rfl
  | cons e h ih =>
    obtain ⟨he, hw⟩ := within_cons.1 hw
    have hparty := hp he
    rw [steering_cons, ih hw, List.append_nil]
    rcases e with ⟨_ | _ | _ | _ | _ | _ | _ | _ | _ | _ | _, answer⟩
    case display => rfl
    case capture => rfl
    case notify => rfl
    case identity => rfl
    all_goals simp [mutedParties, Exchange.party] at hparty

end History

/-! ## Two programs -/

namespace Program

variable {α β γ δ : Type} {R : α → β → Prop} {p : Program α} {q : Program β}

/-- **Two programs go alike.** Any two runs of them fork, or they are steered alike and come to
related results. -/
def Alike (R : α → β → Prop) (p : Program α) (q : Program β) : Prop :=
  ∀ h x k y, p.Runs h x → q.Runs k y →
    Forked h.steering k.steering ∨ h.steering = k.steering ∧ Option.Rel R x y

theorem alike_done {a : α} {b : β} (hr : R a b) : Alike R (done a) (done b) := by
  intro h x k y hh hk
  obtain ⟨rfl, rfl⟩ := runs_done_iff.1 hh
  obtain ⟨rfl, rfl⟩ := runs_done_iff.1 hk
  exact .inr ⟨rfl, .some hr⟩

theorem alike_unfinished : Alike R unfinished unfinished := by
  intro h x k y hh hk
  obtain ⟨rfl, rfl⟩ := runs_unfinished_iff.1 hh
  obtain ⟨rfl, rfl⟩ := runs_unfinished_iff.1 hk
  exact .inr ⟨rfl, .none⟩

/-- Two requests go alike if their answers fork or what follows them goes alike. -/
theorem alike_ask {r r' : Request} {next : r.Answer → Program α} {next' : r'.Answer → Program β}
    (hn : ∀ x y, Forked (steering [⟨r, x⟩]) (steering [⟨r', y⟩]) ∨
      steering [⟨r, x⟩] = steering [⟨r', y⟩] ∧ Alike R (next x) (next' y)) :
    Alike R (ask r next) (ask r' next') := by
  intro h x k y hh hk
  obtain ⟨a, h', rfl, hnext⟩ := runs_ask_iff.1 hh
  obtain ⟨b, k', rfl, hnext'⟩ := runs_ask_iff.1 hk
  rw [steering_cons, steering_cons (h := k')]
  rcases hn a b with hf | ⟨he, halike⟩
  · exact .inl (hf.append _ _)
  · rw [he]
    rcases halike h' x k' y hnext hnext' with hf | ⟨hs, hr⟩
    · exact .inl (hf.after _)
    · exact .inr ⟨by rw [hs], hr⟩

/-- **Two programs in a row.** -/
theorem Alike.bind {S : γ → δ → Prop} {f : α → Program γ} {g : β → Program δ}
    (hp : Alike R p q) (hf : ∀ a b, R a b → Alike S (f a) (g b)) :
    Alike S (p >>= f) (q >>= g) := by
  intro h x k y hh hk
  rcases runs_bind_iff.1 hh with ⟨hh₁, rfl⟩ | ⟨h₁, h₂, a, rfl, hh₁, hh₂⟩ <;>
    rcases runs_bind_iff.1 hk with ⟨hk₁, rfl⟩ | ⟨k₁, k₂, b, rfl, hk₁, hk₂⟩
  · rcases hp _ _ _ _ hh₁ hk₁ with hfork | ⟨hs, -⟩
    · exact .inl hfork
    · exact .inr ⟨hs, .none⟩
  · rcases hp _ _ _ _ hh₁ hk₁ with hfork | ⟨-, ⟨⟩⟩
    have hforked := hfork.append [] k₂.steering
    rw [List.append_nil, ← steering_append] at hforked
    exact .inl hforked
  · rcases hp _ _ _ _ hh₁ hk₁ with hfork | ⟨-, ⟨⟩⟩
    have hforked := hfork.append h₂.steering []
    rw [List.append_nil, ← steering_append] at hforked
    exact .inl hforked
  · rw [steering_append, steering_append]
    rcases hp _ _ _ _ hh₁ hk₁ with hfork | ⟨hs, ⟨hr⟩⟩
    · exact .inl (hfork.append _ _)
    · rw [hs]
      rcases hf a b hr _ _ _ _ hh₂ hk₂ with hfork | ⟨hs, hr⟩
      · exact .inl (hfork.after _)
      · exact .inr ⟨by rw [hs], hr⟩

theorem Alike.mono {S : α → β → Prop} (hp : Alike R p q) (hs : ∀ a b, R a b → S a b) :
    Alike S p q := by
  intro h x k y hh hk
  rcases hp h x k y hh hk with hf | ⟨he, hr⟩
  · exact .inl hf
  · refine .inr ⟨he, ?_⟩
    cases hr with
    | some hr => exact .some (hs _ _ hr)
    | none => exact .none

/-- **A program that is told all answers** goes alike with itself. -/
theorem alike_self (hp : p.Ensures fun h _ => h.Told) : Alike Eq p p := by
  induction p with
  | done a => exact alike_done rfl
  | unfinished => exact alike_unfinished
  | ask r next ih =>
    rw [ensures_ask] at hp
    intro h x k y hh hk
    obtain ⟨a, h', rfl, hh'⟩ := runs_ask_iff.1 hh
    obtain ⟨b, k', rfl, hk'⟩ := runs_ask_iff.1 hk
    have htold : r.Told := by
      cases r with
      | report level text => exact Request.told_report level text
      | _ => exact (told_cons.1 (hp a h' x hh')).1
    rw [steering_cons, steering_cons (h := k')]
    rcases htold a b with rfl | hf
    · have hnext : (next a).Ensures fun h _ => h.Told :=
        (hp a).mono fun h _ ht => (told_append.1 ht).2
      rcases ih a hnext h' x k' y hh' hk' with hf | ⟨hs, hr⟩
      · exact .inl (hf.after _)
      · exact .inr ⟨by rw [hs], hr⟩
    · exact .inl (hf.append _ _)

/-- Two programs that are not told what decides between their runs. -/
theorem alike_of_steering {l : History} {P : α → Prop} {Q : β → Prop}
    (hp : p.Ends fun h a => h.steering = l ∧ P a) (hq : q.Ends fun h b => h.steering = l ∧ Q b) :
    Alike (fun a b => P a ∧ Q b) p q := by
  intro h x k y hh hk
  have hx := hp h x hh
  have hy := hq k y hk
  cases x with
  | none => exact hx.elim
  | some a =>
    cases y with
    | none => exact hy.elim
    | some b =>
      rw [finished_some, steering_calls] at hx hy
      exact .inr ⟨hx.1.trans hy.1.symm, .some ⟨hx.2, hy.2⟩⟩

end Program

open Program

/-! ## Two actions -/

namespace Action

variable {σ τ α β γ δ : Type} {V : α → β → Prop} {W : γ → δ → Prop} {S : σ → σ → Prop}
  {a : Action σ α} {b : Action σ β}

/-- The same failure or related results, and related states. -/
inductive Agreed (V : α → β → Prop) (S : σ → σ → Prop) : Outcome α × σ → Outcome β × σ → Prop
  | failed {s s' : σ} (f : Failure) (hs : S s s') : Agreed V S (.error f, s) (.error f, s')
  | done {x : α} {y : β} {s s' : σ} (hv : V x y) (hs : S s s') : Agreed V S (.ok x, s) (.ok y, s')

/-- **Two actions go alike** from states that are related. -/
def Alike (V : α → β → Prop) (S : σ → σ → Prop) (a : Action σ α) (b : Action σ β) : Prop :=
  ∀ s s', S s s' → Program.Alike (Agreed V S) (a s) (b s')

/-- **Two actions in a row.** -/
theorem Alike.bind {f : α → Action σ γ} {g : β → Action σ δ} (ha : Alike V S a b)
    (hf : ∀ x y, V x y → Alike W S (f x) (g y)) : Alike W S (a >>= f) (b >>= g) := by
  intro s s' hs
  refine Program.Alike.bind (ha s s' hs) fun r r' hr => ?_
  cases hr with
  | failed f hs => exact alike_done (.failed f hs)
  | done hv hs => exact hf _ _ hv _ _ hs

/-- Two actions in a row, the first with one result. -/
theorem Alike.next {a b : Action σ α} {f : α → Action σ γ} {g : α → Action σ δ}
    (ha : Alike Eq S a b) (hf : ∀ x, Alike W S (f x) (g x)) : Alike W S (a >>= f) (b >>= g) :=
  ha.bind fun x _ hx => hx ▸ hf x

theorem alike_pure {x : α} {y : β} (hv : V x y) : Alike V S (pure x) (pure y) :=
  fun _ _ hs => alike_done (.done hv hs)

theorem alike_fail (f : Failure) : Alike V S (fail f) (fail f) :=
  fun _ _ hs => alike_done (.failed f hs)

theorem alike_modify {g g' : σ → σ} (hg : ∀ s s', S s s' → S (g s) (g' s')) :
    Alike Eq S (modify g) (modify g') := fun s s' hs => alike_done (.done rfl (hg s s' hs))

theorem alike_lift {p : Program α} {q : Program β} (hp : Program.Alike V p q) :
    Alike V S (liftM p) (liftM q) := fun _ _ hs =>
  Program.Alike.bind hp fun _ _ hv => alike_done (.done hv hs)

theorem alike_attempt {p : Program (Outcome α)} (hp : p.Ensures fun h _ => h.Told) :
    Alike Eq S (attempt p) (attempt p) := by
  intro s s' hs
  refine Program.Alike.bind (alike_self hp) ?_
  rintro (f | x) _ rfl
  · exact alike_done (.failed f hs)
  · exact alike_done (.done rfl hs)

/-- An action on a part in which the states agree. -/
theorem alike_on {part : σ → τ} {put : τ → σ → σ} {a : Action τ α}
    (hpart : ∀ s s', S s s' → part s = part s')
    (hput : ∀ t s s', S s s' → S (put t s) (put t s'))
    (ha : ∀ t, (a t).Ensures fun h _ => h.Told) : Alike Eq S (a.on part put) (a.on part put) := by
  intro s s' hs
  rw [on_apply, on_apply, hpart s s' hs]
  refine Program.Alike.bind (alike_self (ha (part s'))) ?_
  rintro ⟨f | x, t⟩ _ rfl
  · exact alike_done (.failed f (hput t s s' hs))
  · exact alike_done (.done rfl (hput t s s' hs))

/-- **Two actions succeed alike** from states that are related. Nothing is said of two runs of which
one fails. -/
def AlikeIfOk (S : σ → σ → Prop) (a b : Action σ α) : Prop :=
  ∀ s s', S s s' → ∀ h x t k y t', (a s).Runs h (some (.ok x, t)) →
    (b s').Runs k (some (.ok y, t')) →
    Forked h.steering k.steering ∨ h.steering = k.steering ∧ x = y ∧ S t t'

theorem Alike.ifOk {a b : Action σ α} (ha : Alike Eq S a b) : AlikeIfOk S a b := by
  intro s s' hs h x t k y t' hh hk
  rcases ha s s' hs h _ k _ hh hk with hf | ⟨he, ⟨hr⟩⟩
  · exact .inl hf
  · cases hr with
    | done hv hs => exact .inr ⟨he, hv, hs⟩

theorem AlikeIfOk.next {a b : Action σ α} {f g : α → Action σ γ} (ha : AlikeIfOk S a b)
    (hf : ∀ x, AlikeIfOk S (f x) (g x)) : AlikeIfOk S (a >>= f) (b >>= g) := by
  intro s s' hs h x t k y t' hh hk
  obtain ⟨h₁, h₂, u, v, rfl, hh₁, hh₂⟩ := runs_bind_ok hh
  obtain ⟨k₁, k₂, u', v', rfl, hk₁, hk₂⟩ := runs_bind_ok hk
  rw [steering_append, steering_append]
  rcases ha s s' hs _ _ _ _ _ _ hh₁ hk₁ with hfork | ⟨he, rfl, hv⟩
  · exact .inl (hfork.append _ _)
  · rw [he]
    rcases hf u v v' hv _ _ _ _ _ _ hh₂ hk₂ with hfork | ⟨he, hx, ht⟩
    · exact .inl (hfork.after _)
    · exact .inr ⟨by rw [he], hx, ht⟩

end Action

end Screencast
