import Screencast.Proofs.Conduct.Loop
import Screencast.Proofs.Handouts

/-!
# From the encoder to an output

The loop moves what the encoder hands out to an output. A channel names the buffers that the output
wants, what each of them is due to bring, and what the output has got according to a history.

* `Channel.Conveyed`: the output has got all that some buffers were due to bring.
* `Channel.Conveyed.append`, `Channel.Conveyed.followed`: two histories in a row.
* `Channel.Delivered`: the same for a part of the loop, with its count of frames.
* `delivered_of_passed`, `delivered_of_looped`: one pass, and the loop by induction on its passes.
-/

namespace Screencast

/-- What an output is to get from the encoder's buffers, in units of its own. -/
structure Channel (β : Type) where
  wanted : FilledBuffer → Bool
  /-- What a buffer is due to bring. -/
  due : Handout → Option (List β)
  /-- What the output has got. -/
  out : History → List β
  size_pos : ∀ {b}, wanted b = true → 0 < b.size
  due_andThen : ∀ {o k l}, due o = some l → due (o.andThen k) = some l
  out_append : ∀ h k, out (h ++ k) = out h ++ out k
  out_quiet : ∀ {h : History}, h.Quiet → out h = []

namespace Channel

variable {α β : Type} (c : Channel β)

/-- The wanted buffers that were handed out. -/
def wantedOf (table : List Slot) (h : History) : List Handout :=
  (h.handouts table).filter fun o => c.wanted o.buffer

/-- The wanted buffers are `sent` and `lost`. What the output has got is all that `sent` was due to
bring, in this order, and `part`. No buffer was asked for after a lost one. -/
structure Conveyed (table : List Slot) (h : History) (sent lost : List Handout) (part : List β) :
    Prop where
  wanted : c.wantedOf table h = sent ++ lost
  out : ∃ chunks : List (List β),
    sent.map c.due = chunks.map some ∧ c.out h = chunks.flatten ++ part
  last : ∀ o ∈ lost, o.rest.Idle

variable {c} {table : List Slot} {h k : History} {sent sent' lost : List Handout} {part : List β}

theorem wantedOf_append : c.wantedOf table (h ++ k) =
    (c.wantedOf table h).map (·.andThen k) ++ c.wantedOf (h.tableAfter table) k := by
  rw [wantedOf, History.handouts_append, List.filter_append, List.filter_map]
  rfl

/-- Nothing comes out of calls that hand nothing out. -/
theorem conveyed_nil (hw : c.wantedOf table h = []) (ho : c.out h = []) :
    c.Conveyed table h [] [] [] where
  wanted := hw
  out := ⟨[], rfl, ho⟩
  last := fun _ ho => absurd ho List.not_mem_nil

theorem map_due_andThen {chunks : List (List β)} (hs : sent.map c.due = chunks.map some) :
    (sent.map (·.andThen k)).map c.due = chunks.map some := by
  induction sent generalizing chunks with
  | nil => exact hs
  | cons o sent ih =>
    cases chunks with
    | nil => cases hs
    | cons l chunks =>
      obtain ⟨ho, hs⟩ := List.cons.inj hs
      simp only [List.map_cons, c.due_andThen ho, ih hs]

/-- **Two histories in a row** convey what each conveys, if nothing was lost in the first. -/
theorem Conveyed.append (hh : c.Conveyed table h sent [] [])
    (hk : c.Conveyed (h.tableAfter table) k sent' lost part) :
    c.Conveyed table (h ++ k) (sent.map (·.andThen k) ++ sent') lost part := by
  obtain ⟨chunks, hs, ho⟩ := hh.out
  obtain ⟨chunks', hs', ho'⟩ := hk.out
  refine ⟨?_, ⟨chunks ++ chunks', ?_, ?_⟩, hk.last⟩
  · rw [wantedOf_append, hh.wanted, hk.wanted, List.append_nil, List.append_assoc]
  · rw [List.map_append, map_due_andThen hs, hs', List.map_append]
  · rw [c.out_append, ho, ho', List.flatten_append, List.append_nil, List.append_assoc]

/-- Calls that ask for no buffer and bring nothing follow. -/
theorem Conveyed.followed (hh : c.Conveyed table h sent lost part)
    (hk : k.Idle) (ho : c.out k = []) :
    c.Conveyed table (h ++ k) (sent.map (·.andThen k)) (lost.map (·.andThen k)) part := by
  obtain ⟨chunks, hs, hout⟩ := hh.out
  refine ⟨?_, ⟨chunks, map_due_andThen hs, ?_⟩, ?_⟩
  · rw [wantedOf_append, hh.wanted, List.map_append, wantedOf, hk.handouts_eq_nil]
    simp
  · rw [c.out_append, hout, ho, List.append_nil]
  · intro o ho e he
    obtain ⟨o, hlost, rfl⟩ := List.mem_map.1 ho
    rcases List.mem_append.1 he with he | he
    · exact hh.last o hlost e he
    · exact hk e he

/-- Buffers that were each due to bring one unit have brought their units. -/
theorem map_of_single {f : Handout → Option β} {chunks : List (List β)}
    (hs : (sent.map fun o => (f o).map ([·])) = chunks.map some) :
    sent.map f = chunks.flatten.map some := by
  induction sent generalizing chunks with
  | nil =>
    cases chunks with
    | nil => rfl
    | cons => cases hs
  | cons o sent ih =>
    cases chunks with
    | nil => cases hs
    | cons l chunks =>
      obtain ⟨ho, hrest⟩ := List.cons.inj hs
      obtain ⟨x, hx, rfl⟩ := Option.map_eq_some_iff.1 ho
      rw [List.map_cons, hx, ih hrest]
      rfl

/-- A part of one unit that is not all of it is nothing. -/
theorem part_of_single {f : Handout → Option β}
    (hp : part = [] ∨ ∃ o l, (f o).map ([·]) = some l ∧ part <+: l ∧ part ≠ l) : part = [] := by
  obtain rfl | ⟨o, l, hl, hpre, hne⟩ := hp
  · rfl
  obtain ⟨x, -, rfl⟩ := Option.map_eq_some_iff.1 hl
  cases part with
  | nil => rfl
  | cons y part =>
    obtain ⟨rfl, hrest⟩ := List.cons_prefix_cons.1 hpre
    exact absurd (congrArg _ (List.prefix_nil.1 hrest)) hne

/-- How many of some buffers hold a picture. -/
def pictures (sent : List Handout) : Nat := sent.countP fun o => !o.buffer.flags.isConfig

/-- What a part of the loop has conveyed. A buffer is lost only where that part fails, and is the
last one; what it has brought by then is not all that it was due to bring. -/
structure Delivered (c : Channel β) (t : Take) (h : History) (r : Option (Outcome α × Take))
    (sent lost : List Handout) (part : List β) : Prop where
  conveyed : c.Conveyed t.encoder.table h sent lost part
  few : lost.length ≤ 1
  whole : lost = [] ∨ ∃ f t', r = some (.error f, t')
  part : part = [] ∨ ∃ o l, lost = [o] ∧ c.due o = some l ∧ part <+: l ∧ part ≠ l
  frames : ∀ x t', r = some (.ok x, t') → t'.frames = t.frames + pictures sent
  table : ∀ x t', r = some (.ok x, t') → h.tableAfter t.encoder.table = t'.encoder.table

variable {t t' : Take} {r : Option (Outcome α × Take)}

theorem Delivered.lost_eq_nil {x : α} (hd : c.Delivered t h (some (.ok x, t')) sent lost part) :
    lost = [] := by
  rcases hd.whole with hl | ⟨f, t'', h⟩
  · exact hl
  · cases h

theorem Delivered.part_eq_nil {x : α} (hd : c.Delivered t h (some (.ok x, t')) sent lost part) :
    part = [] := by
  rcases hd.part with hp | ⟨o, l, ho, -⟩
  · exact hp
  · rw [hd.lost_eq_nil] at ho; cases ho

theorem error_ne_ok {f : Failure} (x : α) (t' : Take) :
    (some (.error f, t) : Option (Outcome α × Take)) ≠ some (.ok x, t') := by simp

/-- Nothing is conveyed where nothing is handed out. -/
theorem delivered_nil (hw : c.wantedOf t.encoder.table h = []) (ho : c.out h = [])
    (hr : ∀ x t', r = some (.ok x, t') →
      t'.frames = t.frames ∧ h.tableAfter t.encoder.table = t'.encoder.table) :
    c.Delivered t h r [] [] [] where
  conveyed := conveyed_nil hw ho
  few := Nat.zero_le _
  whole := .inl rfl
  part := .inl rfl
  frames := fun x t' h => (hr x t' h).1
  table := fun x t' h => (hr x t' h).2

theorem delivered_nil_error {f : Failure} (hw : c.wantedOf t.encoder.table h = [])
    (ho : c.out h = []) :
    c.Delivered t h (some (.error f, t') : Option (Outcome α × Take)) [] [] [] :=
  delivered_nil hw ho fun x t' h => absurd h (error_ne_ok x t')

theorem delivered_nil_ok {x : α} (hw : c.wantedOf t.encoder.table h = []) (ho : c.out h = [])
    (hf : t'.frames = t.frames) (ht : h.tableAfter t.encoder.table = t'.encoder.table) :
    c.Delivered t h (some (.ok x, t')) [] [] [] :=
  delivered_nil hw ho fun y t'' h => by cases h; exact ⟨hf, ht⟩

/-- A buffer that is handed out and not moved is lost, if it was wanted. -/
theorem delivered_lost {b : FilledBuffer} {f : Failure}
    (hk : k.Idle) (hq : k.Quiet) :
    ∃ lost, c.Delivered t (Take.dequeued (.buffer b) :: k)
      (some (.error f, t) : Option (Outcome α × Take)) [] lost [] := by
  have hone : c.Conveyed t.encoder.table [Take.dequeued (.buffer b)] []
      (c.wantedOf t.encoder.table [Take.dequeued (.buffer b)]) [] := by
    refine ⟨rfl, ⟨[], rfl, c.out_quiet ?_⟩, fun o ho => ?_⟩
    · simp [Exchange.carries]
    · obtain rfl := List.mem_singleton.1 (List.mem_filter.1 ho).1
      exact fun e he => absurd he List.not_mem_nil
  -- the one buffer is lost if it was wanted, and there is nothing to lose otherwise
  have hall := hone.followed hk (c.out_quiet hq)
  refine ⟨_, hall, ?_, .inr ⟨f, t, rfl⟩, .inl rfl, ?_, ?_⟩
  · rw [List.length_map]
    exact List.length_filter_le _ _
  · exact fun x t' h => absurd h (error_ne_ok x t')
  · exact fun x t' h => absurd h (error_ne_ok x t')

/-! ## A pass of the loop -/

/-- The sample made of a buffer. -/
def sampleOf (b : FilledBuffer) (payload : Bytes) (time : Int) : Sample :=
  ⟨b.index, payload, time, b.flags⟩

/-- An output that takes what is due to it: it wants a buffer exactly where it has a use for the
sample, and gets all that is due unless it fails, when it gets the beginning of it. -/
structure Serves (c : Channel β) (sink : Sink) : Prop where
  wanted_iff : ∀ {b payload time}, payload.length = b.size →
    (c.wanted b = true ↔ ¬Take.Unwanted (sampleOf b payload time) sink)
  sent : ∀ {o : Handout} {payload time k x sink'}, c.wanted o.buffer = true →
    o.bytes? = some payload → o.time? = some time →
    Sink.Sent (sampleOf o.buffer payload time) sink k (x, sink') →
      (x = .ok () → c.due o = some (c.out k)) ∧
        (c.out k = [] ∨ ∃ l, c.due o = some l ∧ c.out k <+: l)

/-- The buffer whose slot was looked at and whose sample was handed to an output. -/
def moved (b : FilledBuffer) (slot : Slot) (data : Bytes) (k : History) : Handout :=
  ⟨b, some slot, ⟨.encoder (.readSlot slot), data⟩ :: k⟩

theorem moved_held {b : FilledBuffer} {slot : Slot} {data : Bytes} {parties : List Party}
    (hk : k.Within parties) (hp : Party.encoder ∉ parties) :
    (moved b slot data k).held = ⟨.encoder (.readSlot slot), data⟩ :: k := by
  have hall : ∀ e ∈ k, (!e.handsBack) = true := fun e he => by
    rw [Exchange.handsBack_of_party fun h => hp (h ▸ hk e he)]; rfl
  unfold Handout.held moved
  exact List.takeWhile_eq_self_iff.2 (List.forall_mem_cons.2 ⟨rfl, hall⟩)

theorem moved_bytes? {b : FilledBuffer} {slot : Slot} {data : Bytes} {parties : List Party}
    (hk : k.Within parties) (hp : Party.encoder ∉ parties) :
    (moved b slot data k).bytes? = b.bytes? data := by
  unfold Handout.bytes?
  rw [moved_held hk hp]
  exact if_pos rfl

/-- The time that was given to a sample is the time of its buffer. -/
theorem moved_time? {b : FilledBuffer} {slot : Slot} {data : Bytes} {parties : List Party}
    {look clock out : History} {d d' : Capture} {time : Int}
    (hl : Take.Looked d look d') (ht : Take.Timed b.time clock time)
    (hk : (look ++ clock ++ out).Within parties) (hp : Party.encoder ∉ parties) :
    (moved b slot data (look ++ clock ++ out)).time? = some time := by
  unfold Handout.time?
  rw [moved_held hk hp]
  have hlook : look.findSome? Exchange.reading? = none := by
    rw [List.findSome?_eq_none_iff]
    intro e he
    refine Exchange.reading?_of_party fun hc => ?_
    have := hl.within e he
    rw [hc] at this
    simp at this
  -- neither the slot nor the display is a clock, so the first reading is the sample's own
  have hread : Exchange.reading? ⟨.encoder (.readSlot slot), data⟩ = none := rfl
  rw [List.findSome?_cons, hread]
  simp only [List.findSome?_append, hlook, Option.none_or]
  generalize hb : b.time = given at ht
  cases ht with
  | given h0 =>
    have hm : (moved b slot data (look ++ [] ++ out)).buffer.time = time := hb
    rw [hm, if_neg h0]
  | present nanos =>
    have hm : (moved b slot data (look ++ [⟨.clock .monotonic, nanos⟩] ++ out)).buffer.time = 0 :=
      hb
    rw [hm, if_pos rfl]
    rfl

/-- The calls that hand out a buffer and look at its slot. -/
abbrev fetching (b : FilledBuffer) (slot : Slot) (data : Bytes) : History :=
  [Take.dequeued (.buffer b), ⟨.encoder (.readSlot slot), data⟩]

section Sample

variable {b : FilledBuffer} {slot : Slot} {data payload : Bytes} {x : Outcome Unit}

theorem wantedOf_fetching {parties : List Party} (ht : table[b.index]? = some slot)
    (hk : k.Within parties) (hp : Party.encoder ∉ parties) :
    c.wantedOf table (fetching b slot data ++ k) =
      if c.wanted b then [moved b slot data k] else [] := by
  have hnil : History.handouts table (⟨.encoder (.readSlot slot), data⟩ :: k) = [] := by
    rw [History.handouts_cons]
    exact hk.handouts_eq_nil hp
  have hone : History.handouts table (fetching b slot data ++ k) =
      ⟨b, table[b.index]?, ⟨.encoder (.readSlot slot), data⟩ :: k⟩ ::
        History.handouts table (⟨.encoder (.readSlot slot), data⟩ :: k) := rfl
  rw [wantedOf, hone, hnil, ht, List.filter_cons]
  rfl

theorem out_fetching : c.out (fetching b slot data ++ k) = c.out k := by
  rw [c.out_append, c.out_quiet (by simp [Exchange.carries]), List.nil_append]

theorem tableAfter_fetching {parties : List Party} (hk : k.Within parties)
    (hp : Party.encoder ∉ parties) : (fetching b slot data ++ k).tableAfter table = table :=
  hk.tableAfter_eq hp

/-- A look at the display and at the clock brings nothing. -/
theorem out_handled {look clock : History} {d d' : Capture} {time : Int}
    (hl : Take.Looked d look d') (ht : Take.Timed b.time clock time) (out : History) :
    c.out (fetching b slot data ++ (look ++ clock ++ out)) = c.out out := by
  have hlook : c.out look = [] := c.out_quiet (hl.within.quiet (by simp) (by simp))
  have hclock : c.out clock = [] := c.out_quiet (ht.within.quiet (by simp) (by simp))
  rw [out_fetching, c.out_append, c.out_append, hlook, hclock]
  rfl

theorem moved_last {parties : List Party} (hk : k.Within parties) (hp : Party.encoder ∉ parties) :
    (moved b slot data k).rest.Idle := History.idle_cons.2 ⟨rfl, hk.idle hp⟩

/-- All that the one buffer was due to bring has come out. -/
theorem delivered_whole {o : Handout} {l : List β} (hw : c.wantedOf t.encoder.table h = [o])
    (hd : c.due o = some l) (ho : c.out h = l)
    (hf : ∀ x t', r = some (.ok x, t') → t'.frames = t.frames + pictures [o])
    (ht : ∀ x t', r = some (.ok x, t') → h.tableAfter t.encoder.table = t'.encoder.table) :
    c.Delivered t h r [o] [] [] where
  conveyed := by
    refine ⟨hw, ⟨[l], ?_, ?_⟩, fun _ ho => absurd ho List.not_mem_nil⟩
    · rw [List.map_singleton, hd, List.map_singleton]
    · rw [ho, List.flatten_singleton, List.append_nil]
  few := Nat.zero_le _
  whole := .inl rfl
  part := .inl rfl
  frames := hf
  table := ht

/-- The one buffer is lost, with a part of what it was due to bring. -/
theorem delivered_part {o : Handout} {f : Failure} (hw : c.wantedOf t.encoder.table h = [o])
    (hl : o.rest.Idle) (hd : c.due o ≠ some (c.out h))
    (hp : c.out h = [] ∨ ∃ l, c.due o = some l ∧ c.out h <+: l) :
    c.Delivered t h (some (.error f, t') : Option (Outcome α × Take)) [] [o] (c.out h) where
  conveyed := ⟨hw, ⟨[], rfl, rfl⟩, fun o' ho => List.mem_singleton.1 ho ▸ hl⟩
  few := Nat.le_refl _
  whole := .inr ⟨f, t', rfl⟩
  part := by
    rcases hp with hp | ⟨l, hdl, hp⟩
    · exact .inl hp
    · exact .inr ⟨o, l, rfl, hdl, hp, fun h => hd (h ▸ hdl)⟩
  frames := fun x t' h => absurd h (error_ne_ok x t')
  table := fun x t' h => absurd h (error_ne_ok x t')

/-- A written sample counts as a frame where it holds a picture. -/
theorem frames_after {s : Sample} {time : Int} {o : Handout} (ho : o.buffer.flags = s.flags) :
    (Take.after s time t).frames = t.frames + pictures [o] := by
  unfold Take.after Take.count pictures
  rw [List.countP_singleton, ho]
  cases s.flags.isConfig <;> rfl

/-- A sample that was handled is delivered, unless it fails. -/
theorem delivered_handled (hs : c.Serves t.sink) (ht : t.encoder.table[b.index]? = some slot)
    (hd : b.bytes? data = some payload)
    (hh : Take.Handled (sampleOf b payload b.time) t k (x, t')) :
    ∃ sent lost part,
      c.Delivered t (fetching b slot data ++ k) (some (x, t')) sent lost part := by
  have hk := hh.within
  have hp : Party.encoder ∉ [.display, .capture, .clock, t.sink.party] := by simp
  have hwanted : c.wantedOf t.encoder.table (fetching b slot data ++ k) =
      if c.wanted b then [moved b slot data k] else [] := wantedOf_fetching ht hk hp
  have hlen := FilledBuffer.length_of_bytes? hd
  have htable : ∀ y t'', some (x, t') = some (.ok y, t'') →
      (fetching b slot data ++ k).tableAfter t.encoder.table = t''.encoder.table := by
    intro y t'' h
    cases h
    rw [tableAfter_fetching hk hp, hh.encoder_eq]
  have hbytes : (moved b slot data k).bytes? = some payload := (moved_bytes? hk hp).trans hd
  by_cases hu : Take.Unwanted (sampleOf b payload b.time) t.sink
  · -- the output has no use for the sample, and accordingly the buffer is not a wanted one
    have hno : ¬c.wanted b = true := fun hw => (hs.wanted_iff hlen).1 hw hu
    rw [if_neg hno] at hwanted
    cases hh with
    | skipped =>
      refine ⟨[], [], [], delivered_nil hwanted (out_fetching.trans (c.out_quiet (by simp))) ?_⟩
      exact fun y t'' h => ⟨by cases h; rfl, htable y t'' h⟩
    | refused hn => exact absurd hu hn
    | written hn => exact absurd hu hn
  have hyes : c.wanted b = true := (hs.wanted_iff hlen).2 hu
  rw [if_pos hyes] at hwanted
  cases hh with
  | skipped hn => exact absurd hn hu
  | @refused look clock out d time sink f hn hl htimed hw =>
    have htime : (moved b slot data (look ++ clock ++ out)).time? = some time :=
      moved_time? hl htimed hk hp
    have hout : ∀ out, c.out (fetching b slot data ++ (look ++ clock ++ out)) = c.out out :=
      out_handled hl htimed
    obtain ⟨-, hpart⟩ := hs.sent hyes hbytes htime hw
    rw [← hout out] at hpart
    -- an output may fail when it already has all that was due, and then nothing is lost
    by_cases hdue : c.due (moved b slot data (look ++ clock ++ out)) =
        some (c.out (fetching b slot data ++ (look ++ clock ++ out)))
    · refine ⟨_, _, _, delivered_whole hwanted hdue rfl (fun x t' h => ?_) htable⟩
      exact absurd h (error_ne_ok x t')
    · exact ⟨_, _, _, delivered_part hwanted (moved_last hk hp) hdue hpart⟩
  | @written look clock out d time sink hn hl htimed hw =>
    have htime : (moved b slot data (look ++ clock ++ out)).time? = some time :=
      moved_time? hl htimed hk hp
    have hout : c.out (fetching b slot data ++ (look ++ clock ++ out)) = c.out out :=
      out_handled hl htimed out
    obtain ⟨hwhole, -⟩ := hs.sent hyes hbytes htime hw
    refine ⟨_, _, _, delivered_whole hwanted (hwhole rfl) hout ?_ htable⟩
    intro y t'' h
    cases h
    exact frames_after rfl

end Sample

theorem pictures_append : pictures (sent ++ sent') = pictures sent + pictures sent' :=
  List.countP_append ..

theorem pictures_andThen : pictures (sent.map (·.andThen k)) = pictures sent := by
  unfold pictures
  rw [List.countP_map]
  rfl

variable {γ : Type} {r' : Option (Outcome γ × Take)}

/-- Calls follow that fetch nothing from the encoder and bring nothing. -/
theorem Delivered.followed (hd : c.Delivered t h r sent lost part)
    (hk : k.Idle) (ht : ∀ {table}, k.tableAfter table = table)
    (ho : c.out k = []) (hok : ∀ x t', r' = some (.ok x, t') → ∃ y, r = some (.ok y, t'))
    (herr : ∀ f t', r = some (.error f, t') → ∃ f t', r' = some (.error f, t')) :
    c.Delivered t (h ++ k) r' (sent.map (·.andThen k)) (lost.map (·.andThen k)) part where
  conveyed := hd.conveyed.followed hk ho
  few := by rw [List.length_map]; exact hd.few
  whole := by
    rcases hd.whole with rfl | ⟨f, t', h⟩
    · exact .inl rfl
    · exact .inr (herr f t' h)
  part := by
    rcases hd.part with hp | ⟨o, l, rfl, hl, hp⟩
    · exact .inl hp
    · exact .inr ⟨o.andThen k, l, rfl, c.due_andThen hl, hp⟩
  frames := by
    intro x t' h
    obtain ⟨y, h⟩ := hok x t' h
    rw [pictures_andThen, hd.frames y t' h]
  table := by
    intro x t' h
    obtain ⟨y, h⟩ := hok x t' h
    rw [History.tableAfter_append, ht, hd.table y t' h]

/-- What is conveyed before and after a point that the loop has reached. -/
theorem Delivered.append {x : α} {part' : List β} {lost' : List Handout}
    (hd : c.Delivered t h (some (.ok x, t')) sent lost part)
    (hk : c.Delivered t' k r' sent' lost' part') :
    c.Delivered t (h ++ k) r' (sent.map (·.andThen k) ++ sent') lost' part' := by
  have htable := hd.table x t' rfl
  have hh := hd.conveyed
  rw [hd.lost_eq_nil, hd.part_eq_nil] at hh
  refine ⟨hh.append (htable ▸ hk.conveyed), hk.few, hk.whole, hk.part, fun y t'' h => ?_,
    fun y t'' h => ?_⟩
  · rw [hk.frames y t'' h, hd.frames x t' rfl, pictures_append, pictures_andThen, Nat.add_assoc]
  · rw [History.tableAfter_append, htable, hk.table y t'' h]

/-- Nothing is handed out while the output is told of a format. -/
theorem wantedOf_formatted {format : TrackFormat} {parties : List Party} (hk : k.Within parties)
    (hp : Party.encoder ∉ parties) :
    c.wantedOf table (Take.dequeued .formatChanged :: ⟨.encoder .currentFormat, .ok format⟩ :: k) =
      [] := by
  have hnil : History.handouts table k = [] := hk.handouts_eq_nil hp
  rw [wantedOf, History.handouts_cons, History.handouts_cons]
  exact congrArg (List.filter _) hnil

/-- **One pass of the loop** conveys what it takes from the encoder. -/
theorem delivered_of_passed {x : Outcome Bool} (hs : c.Serves t.sink)
    (hp : Take.Passed t h (x, t')) :
    ∃ sent lost part, c.Delivered t h (some (x, t')) sent lost part := by
  have hformat : ∀ {format k r}, Sink.Reformatted format t.sink k r →
      c.out (Take.dequeued .formatChanged :: ⟨.encoder .currentFormat, .ok format⟩ :: k) = [] :=
    fun hr => c.out_quiet (by simp [Exchange.carries, hr.quiet])
  have hmoved : ∀ {p k l s t'} (b : Bool),
      Encoder.Polled longestWait t.encoder p (.ok (.data s), t.encoder) →
      Take.Handled s t k (.ok (), t') → l.Idle → (∀ {table}, l.tableAfter table = table) →
      c.out l = [] → ∃ sent lost part, c.Delivered t (p ++ k ++ l) (some (.ok b, t'))
        sent lost part := by
    intro p k l s t' b hp hh hidle htable hout
    cases hp with
    | data _ slot data payload hb ht hd =>
      obtain ⟨sent, lost, part, hd⟩ := delivered_handled hs ht hd hh
      exact ⟨_, _, _, hd.followed hidle htable hout (fun x t'' h => by cases h; exact ⟨_, rfl⟩)
        (fun f t'' h => by simp at h)⟩
  cases hp with
  | unpolled hp =>
    cases hp with
    | idle => exact ⟨_, _, _, delivered_nil_error rfl (c.out_quiet (by simp))⟩
    | lastKept b f hb =>
      obtain ⟨lost, hd⟩ := delivered_lost (c := c) (t := t) (b := b)
        (k := [⟨.encoder (.releaseBuffer b.index), .error f⟩]) (by simp [Exchange.dequeued?])
        (by simp [Exchange.carries])
      exact ⟨_, _, _, hd⟩
    | unknown b f hb hf ht =>
      obtain ⟨lost, hd⟩ := delivered_lost (c := c) (t := t) (b := b) (k := []) (by simp) (by simp)
      exact ⟨_, _, _, hd⟩
    | short b slot data f hb hf ht hd =>
      obtain ⟨lost, hd⟩ := delivered_lost (c := c) (t := t) (b := b)
        (k := [⟨.encoder (.readSlot slot), data⟩]) (by simp [Exchange.dequeued?])
        (by simp [Exchange.carries])
      exact ⟨_, _, _, hd⟩
    | noFormat f =>
      exact ⟨_, _, _, delivered_nil_error rfl (c.out_quiet (by simp [Exchange.carries]))⟩
  | broken code f hf =>
    exact ⟨_, _, _, delivered_nil_error rfl (c.out_quiet (by simp [Exchange.carries]))⟩
  | idle => exact ⟨_, _, _, delivered_nil_ok rfl (c.out_quiet (by simp [Exchange.carries])) rfl rfl⟩
  | ended b hb =>
    -- the buffer that ends the stream is empty, so no output wants it
    have hno : ¬c.wanted b = true := fun hw => by have := c.size_pos hw; have := hb.1; omega
    exact ⟨_, _, _, delivered_nil_ok (List.filter_cons_of_neg hno)
      (c.out_quiet (by simp [Exchange.carries])) rfl rfl⟩
  | refreshed table =>
    exact ⟨_, _, _, delivered_nil_ok rfl (c.out_quiet (by simp [Exchange.carries])) rfl rfl⟩
  | unrefreshed f =>
    exact ⟨_, _, _, delivered_nil_error rfl (c.out_quiet (by simp [Exchange.carries]))⟩
  | reformatted format hr =>
    exact ⟨_, _, _, delivered_nil_ok (wantedOf_formatted hr.within (by simp)) (hformat hr) rfl
      (hr.within.tableAfter_eq (by simp))⟩
  | unformatted format hr =>
    exact ⟨_, _, _, delivered_nil_error (wantedOf_formatted hr.within (by simp)) (hformat hr)⟩
  | @unwritten _ k _ f _ hp hh =>
    cases hp with
    | data b slot data payload hb ht hd =>
      obtain ⟨sent, lost, part, hd⟩ := delivered_handled hs ht hd hh
      have hall : c.Delivered t (fetching b slot data ++ k ++ [])
          (some (.error f, t') : Option (Outcome Bool × Take)) _ _ part :=
        hd.followed (by simp) rfl (c.out_quiet (by simp))
          (fun x t'' h => absurd h (error_ne_ok x t'')) (fun _ _ _ => ⟨f, t', rfl⟩)
      rw [List.append_nil] at hall
      exact ⟨_, _, _, hall⟩
  | kept f hp hh =>
    cases hp with
    | data b slot data payload hb ht hd =>
      obtain ⟨sent, lost, part, hd⟩ := delivered_handled hs ht hd hh
      exact ⟨_, _, _, hd.followed (by simp [Exchange.dequeued?]) rfl
        (c.out_quiet (by simp [Exchange.carries])) (fun x t'' h => absurd h (error_ne_ok x t''))
        (fun f t'' h => by simp at h)⟩
  | last hp hh =>
    exact hmoved true hp hh (by simp [Exchange.dequeued?]) rfl
      (c.out_quiet (by simp [Exchange.carries]))
  | moved hp hh =>
    exact hmoved false hp hh (by simp [Exchange.dequeued?]) rfl
      (c.out_quiet (by simp [Exchange.carries]))

/-- **The loop conveys** every wanted buffer in order, but for the one at which it may fail. -/
theorem delivered_of_looped {deadline : Int64} {r : Option (Outcome Ending × Take)}
    (hs : ∀ sink : Sink, sink.face = t.sink.face → c.Serves sink)
    (hl : Take.Looped deadline t h r) : ∃ sent lost part, c.Delivered t h r sent lost part := by
  have hturn : ∀ t n, c.Delivered t [Take.asked false, Take.clocked n]
      (some (.ok (), t) : Option (Outcome Unit × Take)) [] [] [] := fun t n =>
    delivered_nil_ok rfl (c.out_quiet (by simp [Exchange.carries])) rfl rfl
  -- a pass may change the output but not its face, so the channel serves it throughout
  induction hl with
  | spent t =>
    exact ⟨_, _, _, delivered_nil rfl (c.out_quiet (by simp)) fun x t' h => by cases h⟩
  | stopped t =>
    exact ⟨_, _, _, delivered_nil_ok rfl (c.out_quiet (by simp [Exchange.carries]))
      rfl rfl⟩
  | late t n hn =>
    exact ⟨_, _, _, delivered_nil_ok rfl (c.out_quiet (by simp [Exchange.carries]))
      rfl rfl⟩
  | @failed t t' h f n hn hp =>
    obtain ⟨sent, lost, part, hd⟩ := delivered_of_passed (hs _ rfl) hp
    have hend : c.Delivered t (h ++ []) (some (.error f, t') : Option (Outcome Ending × Take))
        _ _ part :=
      hd.followed (by simp) rfl (c.out_quiet (by simp))
        (fun x t'' h => absurd h (error_ne_ok x t'')) (fun _ _ _ => ⟨f, t', rfl⟩)
    rw [List.append_nil] at hend
    exact ⟨_, _, _, (hturn t n).append hend⟩
  | @ended t t' h n hn hp =>
    obtain ⟨sent, lost, part, hd⟩ := delivered_of_passed (hs _ rfl) hp
    have hend : c.Delivered t (h ++ []) (some (.ok Ending.endOfStream, t')) _ _ part :=
      hd.followed (by simp) rfl (c.out_quiet (by simp))
        (fun x t'' h => by cases h; exact ⟨_, rfl⟩) (fun f t'' h => by simp at h)
    rw [List.append_nil] at hend
    exact ⟨_, _, _, (hturn t n).append hend⟩
  | @next t t' h k r n hn hp hl ih =>
    obtain ⟨sent, lost, part, hd⟩ := delivered_of_passed (hs _ rfl) hp
    obtain ⟨sent', lost', part', hd'⟩ := ih fun sink h => hs sink (h.trans hp.face_eq)
    exact ⟨_, _, _, (hturn t n).append (hd.append hd')⟩

end Channel

end Screencast
