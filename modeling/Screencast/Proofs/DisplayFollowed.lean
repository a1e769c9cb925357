import Screencast.Proofs.BuffersReturned
import Screencast.Proofs.Channel
import Screencast.Proofs.Following

/-!
# The recording follows the display

The display is looked at once before each buffer that is written, and at no other time once the
recording has begun. What it shows decides whether it is projected anew.

* `Handout.due`, `Handout.Attended`: the buffers that are to be written, and the look before each.
* `Attentive`: calls with these looks and no others.
* `Take.Looped.attentive`: the loop by induction on its passes.
* `Session.Prepared.madeFor`: the virtual display that the loop starts from.
* `Session.display_followed`: the main result.
-/

namespace Screencast

open History

/-! ## The looks at the display -/

namespace Handout

variable {settings : Settings} {o : Handout} {k : History}

/-- Whether a buffer is to be written: it holds data, and the output has a use for them. A stream
has one for all data, a container not for the parameters of the codec. -/
def due (settings : Settings) (o : Handout) : Bool :=
  o.bytes?.any (!·.isEmpty) && (settings.format.container?.isNone || !o.buffer.flags.isConfig)

/-- While a buffer that is to be written is held, the display is looked at once, before any data is
handed to the output. While another is held, it is not looked at. -/
structure Attended (settings : Settings) (o : Handout) : Prop where
  looked : o.held.looks = if o.due settings then 1 else 0
  inTime : o.due settings →
    o.held.OnlyAfter Exchange.carries fun earlier => earlier.looks = 1

theorem due_of_unread (hb : o.bytes? = none) : o.due settings = false := by
  rw [due, hb]
  rfl

/-- What a buffer holds is known by the first call behind it. -/
theorem bytes?_andThen_eq (hs : o.slot = none ∨ o.rest ≠ []) : (o.andThen k).bytes? = o.bytes? := by
  obtain ⟨b, slot, rest⟩ := o
  rcases hs with hs | hs
  · -- a buffer without a slot has no bytes, whatever follows
    obtain rfl : slot = none := hs
    simp [bytes?, andThen]
  · obtain ⟨e, rest, rfl⟩ := List.exists_cons_of_ne_nil hs
    have hhead : ((⟨b, slot, e :: rest⟩ : Handout).andThen k).held.head? =
        (⟨b, slot, e :: rest⟩ : Handout).held.head? := by
      simp only [held, andThen, List.cons_append, List.takeWhile_cons]
      split <;> rfl
    unfold bytes?
    rw [hhead]
    rfl

theorem due_andThen (hs : o.slot = none ∨ o.rest ≠ []) :
    (o.andThen k).due settings = o.due settings := by
  rw [due, due, bytes?_andThen_eq hs]
  rfl

/-- A buffer that has been handed back is no longer held. -/
theorem held_andThen_eq (hb : ∃ e ∈ o.rest, e.handsBack = true) : (o.andThen k).held = o.held := by
  obtain ⟨e, he, hback⟩ := hb
  rw [held, held, andThen, List.takeWhile_append, if_neg]
  intro hlength
  have hself := (List.takeWhile_prefix _).eq_of_length hlength
  have hkept := List.takeWhile_eq_self_iff.1 hself e he
  rw [hback] at hkept
  cases hkept

theorem rest_ne_nil (hb : ∃ e ∈ o.rest, e.handsBack = true) : o.rest ≠ [] := by
  obtain ⟨e, he, -⟩ := hb
  exact List.ne_nil_of_mem he

theorem Attended.handedBack (ha : o.Attended settings) (hb : ∃ e ∈ o.rest, e.handsBack = true) :
    (o.andThen k).Attended settings := by
  obtain ⟨hlooked, hinTime⟩ := ha
  have hdue : (o.andThen k).due settings = o.due settings := due_andThen (.inr (rest_ne_nil hb))
  refine ⟨?_, fun hd => ?_⟩
  · rw [held_andThen_eq hb, hdue]
    exact hlooked
  · rw [held_andThen_eq hb]
    exact hinTime (hdue ▸ hd)

/-- What follows may still be called while the buffer is held. -/
theorem Attended.followed (ha : o.Attended settings) (hs : o.slot = none ∨ o.rest ≠ [])
    (hk : k.looks = 0) : (o.andThen k).Attended settings := by
  obtain ⟨hlooked, hinTime⟩ := ha
  obtain ⟨l, hl, hheld⟩ : ∃ l, l.Sublist k ∧ (o.andThen k).held = o.held ++ l := by
    unfold held andThen
    rw [List.takeWhile_append]
    split
    · rename_i hlength
      rw [(List.takeWhile_prefix _).eq_of_length hlength]
      exact ⟨_, List.takeWhile_sublist _, rfl⟩
    · exact ⟨[], List.nil_sublist k, (List.append_nil _).symm⟩
  have hnone : l.looks = 0 := looks_of_sublist hl hk
  refine ⟨?_, fun hd => ?_⟩
  · rw [hheld, looks_append, hnone, due_andThen hs]
    exact hlooked
  · rw [due_andThen hs] at hd
    rw [if_pos hd] at hlooked
    rw [hheld]
    exact (hinTime hd).looked hlooked hnone

/-- What follows changes nothing in how many buffers are to be written. -/
theorem countP_due_andThen {l : List Handout} (hl : ∀ o ∈ l, o.slot = none ∨ o.rest ≠ []) :
    (l.map (·.andThen k)).countP (·.due settings) = l.countP (·.due settings) := by
  rw [List.countP_map]
  refine List.countP_congr fun o ho => ?_
  rw [Function.comp_apply, due_andThen (hl o ho)]

end Handout

/-- **Calls in which the display is looked at for the buffers that are to be written**, once for
each, and for nothing else. -/
structure Attentive (settings : Settings) (table : List Slot) (h : History) : Prop where
  attended : ∀ o ∈ h.handouts table, o.Attended settings
  counted : h.looks = (h.handouts table).countP (·.due settings)
  /-- What a buffer holds is known. -/
  known : ∀ o ∈ h.handouts table, o.slot = none ∨ o.rest ≠ []

/-- Every buffer that is handed out is handed back. -/
def AllBack (table : List Slot) (h : History) : Prop :=
  ∀ o ∈ h.handouts table, ∃ e ∈ o.rest, e.handsBack = true

section Attentive

variable {settings : Settings} {table : List Slot} {h k : History} {b : FilledBuffer}

theorem attentive_of_none (hn : h.handouts table = []) (hl : h.looks = 0) :
    Attentive settings table h := by
  refine ⟨?_, ?_, ?_⟩
  · simp [hn]
  · rw [hn, hl]
    rfl
  · simp [hn]

theorem allBack_of_none (hn : h.handouts table = []) : AllBack table h := by
  simp [AllBack, hn]

/-- One buffer is handed out. -/
theorem attentive_of_one {o : Handout} (ho : h.handouts table = [o]) (ha : o.Attended settings)
    (hl : h.looks = o.held.looks) (hk : o.slot = none ∨ o.rest ≠ []) :
    Attentive settings table h := by
  refine ⟨?_, ?_, ?_⟩
  · simpa [ho] using ha
  · rw [hl, ha.looked, ho, List.countP_singleton]
  · simpa [ho] using hk

/-- A buffer is asked for in vain. -/
theorem attentive_of_vain {answer : Dequeued} (ha : (Take.dequeued answer).buffer? = none)
    (hi : k.Idle) (hl : k.looks = 0) : Attentive settings table (Take.dequeued answer :: k) := by
  refine attentive_of_none (hi.handouts_vain ha) ?_
  rw [looks_cons_of_party (by simp [Exchange.party]), hl]

/-- One buffer is handed out, of which it is not learned what it holds. -/
theorem attentive_of_unread (hb : (⟨b, table[b.index]?, k⟩ : Handout).bytes? = none)
    (hs : table[b.index]? = none ∨ k ≠ []) (hi : k.Idle) (hl : k.looks = 0) :
    Attentive settings table (Take.dequeued (.buffer b) :: k) := by
  have hnone : (⟨b, table[b.index]?, k⟩ : Handout).held.looks = 0 :=
    looks_of_sublist (List.takeWhile_sublist _) hl
  have hundue : (⟨b, table[b.index]?, k⟩ : Handout).due settings = false :=
    Handout.due_of_unread hb
  refine attentive_of_one (hi.handouts_buffer longestWait b) ⟨?_, ?_⟩ ?_ hs
  · rw [hnone, hundue]
    rfl
  · rw [hundue]
    exact fun hdue => absurd hdue Bool.false_ne_true
  · rw [hnone, looks_cons_of_party (by simp [Exchange.party]), hl]

/-- **Two histories in a row** are attentive if each is, where the first leaves no buffer behind. -/
theorem Attentive.append (hh : Attentive settings table h) (hb : AllBack table h)
    (hk : Attentive settings (h.tableAfter table) k) : Attentive settings table (h ++ k) := by
  refine ⟨?_, ?_, ?_⟩
  · simp only [handouts_append, List.forall_mem_append, List.forall_mem_map]
    exact ⟨fun o ho => (hh.attended o ho).handedBack (hb o ho), hk.attended⟩
  · rw [looks_append, handouts_append, List.countP_append, Handout.countP_due_andThen hh.known,
      hh.counted, hk.counted]
  · simp only [handouts_append, List.forall_mem_append, List.forall_mem_map]
    exact ⟨fun o ho => .inr (by simp [Handout.andThen, Handout.rest_ne_nil (hb o ho)]), hk.known⟩

/-- Calls follow that ask for no buffer and do not look at the display. -/
theorem Attentive.followed (hh : Attentive settings table h) (hi : k.Idle) (hl : k.looks = 0) :
    Attentive settings table (h ++ k) := by
  have hall : (h ++ k).handouts table = (h.handouts table).map (·.andThen k) := by
    rw [handouts_append, hi.handouts_eq_nil, List.append_nil]
  refine ⟨?_, ?_, ?_⟩
  · simp only [hall, List.forall_mem_map]
    exact fun o ho => (hh.attended o ho).followed (hh.known o ho) hl
  · rw [looks_append, hl, Nat.add_zero, hall, Handout.countP_due_andThen hh.known, hh.counted]
  · simp only [hall, List.forall_mem_map]
    exact fun o ho => (hh.known o ho).imp_right fun hne => by simp [Handout.andThen, hne]

/-- A buffer is handed back behind all that was handed out. -/
theorem allBack_followed (hi : k.Idle) (hb : ∃ e ∈ k, e.handsBack = true) :
    AllBack table (h ++ k) := by
  obtain ⟨e, he, hback⟩ := hb
  intro o ho
  rw [handouts_append, hi.handouts_eq_nil, List.append_nil] at ho
  obtain ⟨o, -, rfl⟩ := List.mem_map.1 ho
  exact ⟨e, List.mem_append_right _ he, hback⟩

end Attentive

/-- An output takes the parameters of the codec exactly if it is a stream. -/
theorem Sink.keepsConfig_of_party {sink : Sink} {settings : Settings}
    (hp : sink.party = Session.outlet settings) :
    sink.keepsConfig = settings.format.container?.isNone := by
  unfold Session.outlet at hp
  cases sink <;> split at hp <;> rename_i hc <;> rw [hc] <;> first | rfl | cases hp

namespace Take

variable {settings : Settings} {t t' : Take} {h : History}

/-- A sample that the output has a use for is one look at the display, and then the write. -/
theorem Handled.looks {s : Sample} {x : Outcome Unit × Take} (hh : Handled s t h x) :
    (Unwanted s t.sink ∧ h.looks = 0) ∨ (¬Unwanted s t.sink ∧ h.looks = 1 ∧
      h.OnlyAfter Exchange.carries fun earlier => earlier.looks = 1) := by
  have hall : ∀ {look clock out : History} {c : Capture} {time : Int} {y},
      Looked t.capture look c → Timed s.time clock time → Sink.Sent { s with time } t.sink out y →
      (look ++ clock ++ out).looks = 1 ∧
        (look ++ clock ++ out).OnlyAfter Exchange.carries fun earlier => earlier.looks = 1 := by
    intro look clock out c time y hl ht hw
    have hlook : look.looks = 1 := by
      cases hl with
      | unseen => rfl
      | seen _ hu => cases hu <;> rfl
    have hclock : clock.looks = 0 := ht.within.looks (by simp)
    have hout : out.looks = 0 := hw.within.looks (by simp)
    have hbefore : (look ++ clock).looks = 1 := by rw [looks_append, hlook, hclock]
    have hquiet : (look ++ clock).Quiet := quiet_append.2
      ⟨hl.within.quiet (by simp) (by simp), ht.within.quiet (by simp) (by simp)⟩
    refine ⟨by rw [looks_append, hbefore, hout], ?_⟩
    exact (onlyAfter_of_none hquiet).looked hbefore hout
  cases hh with
  | skipped hs => exact .inl ⟨hs, rfl⟩
  | refused hs hl ht hw => exact .inr ⟨hs, hall hl ht hw⟩
  | written hs hl ht hw => exact .inr ⟨hs, hall hl ht hw⟩

/-- The display is looked at for a buffer whose slot was read if it is to be written. -/
theorem Handled.attentive {b : FilledBuffer} {slot : Slot} {data payload : Bytes}
    {x : Outcome Unit × Take} (hh : Handled ⟨b.index, payload, b.time, b.flags⟩ t h x)
    (hs : t.sink.party = Session.outlet settings) (ht : t.encoder.table[b.index]? = some slot)
    (hd : b.bytes? data = some payload) :
    Attentive settings t.encoder.table (Channel.fetching b slot data ++ h) := by
  have hk : h.Within [.display, .capture, .clock, t.sink.party] := hh.within
  have hone : (Channel.fetching b slot data ++ h).handouts t.encoder.table =
      [Channel.moved b slot data h] := by
    have hidle : History.Idle (⟨.encoder (.readSlot slot), data⟩ :: h) :=
      idle_cons.2 ⟨rfl, hk.idle (by simp)⟩
    rw [Channel.moved, ← ht]
    exact hidle.handouts_buffer longestWait b
  have hheld : (Channel.moved b slot data h).held = ⟨.encoder (.readSlot slot), data⟩ :: h :=
    Channel.moved_held hk (by simp)
  have hlooks : (Channel.moved b slot data h).held.looks = h.looks := by
    rw [hheld, looks_cons_of_party (by simp [Exchange.party])]
  have hdue : (Channel.moved b slot data h).due settings = true ↔
      ¬Unwanted ⟨b.index, payload, b.time, b.flags⟩ t.sink := by
    rw [Handout.due, Channel.moved_bytes? hk (by simp), hd, ← Sink.keepsConfig_of_party hs]
    cases hk : t.sink.keepsConfig <;> cases hc : b.flags.isConfig <;> cases payload <;>
      simp [Unwanted, Channel.moved, hk, hc]
  refine attentive_of_one hone ⟨?_, fun hwanted => ?_⟩ ?_ (.inr (List.cons_ne_nil _ _))
  · rw [hlooks]
    rcases hh.looks with ⟨hunwanted, hnone⟩ | ⟨hwanted, honce, -⟩
    · rw [hnone, if_neg fun h => hdue.1 h hunwanted]
    · rw [honce, if_pos (hdue.2 hwanted)]
  · rcases hh.looks with ⟨hunwanted, -⟩ | ⟨-, -, honly⟩
    · exact absurd hunwanted (hdue.1 hwanted)
    · rw [hheld, onlyAfter_cons]
      refine ⟨fun hcarries => ?_, honly.mono fun earlier hearlier => ?_⟩
      · cases hcarries
      · rw [looks_cons_of_party (by simp [Exchange.party]), hearlier]
  · have hall : (Channel.fetching b slot data ++ h).looks = h.looks := by
      rw [looks_append, (by rfl : (Channel.fetching b slot data).looks = 0), Nat.zero_add]
    rw [hall, hlooks]

/-- **One pass of the loop** looks at the display for the buffer that it gets, if that is to be
written. -/
theorem Passed.attentive {x : Outcome Bool} (hp : Passed t h (x, t'))
    (hs : t.sink.party = Session.outlet settings) : Attentive settings t.encoder.table h := by
  have hformat : ∀ {format k y}, Sink.Reformatted format t.sink k y →
      Attentive settings t.encoder.table
        (dequeued .formatChanged :: ⟨.encoder .currentFormat, .ok format⟩ :: k) := by
    intro format k y hr
    refine attentive_of_vain rfl (idle_cons.2 ⟨rfl, hr.within.idle (by simp)⟩) ?_
    rw [looks_cons_of_party (by simp [Exchange.party]), hr.within.looks (by simp)]
  have hmoved : ∀ {p k s y t'} (l : History),
      Encoder.Polled longestWait t.encoder p (.ok (.data s), t.encoder) →
      Handled s t k (y, t') → l.Idle → l.looks = 0 →
      Attentive settings t.encoder.table (p ++ k ++ l) := by
    intro p k s y t' l hp hh hi hl
    cases hp with
    | data b slot data payload _ ht hd => exact (hh.attentive hs ht hd).followed hi hl
  cases hp with
  | unpolled hp =>
    cases hp with
    | idle => exact attentive_of_none rfl rfl
    | lastKept =>
      exact attentive_of_unread rfl (.inr (List.cons_ne_nil _ _)) (idle_cons.2 ⟨rfl, idle_nil⟩) rfl
    | unknown _ _ _ _ ht => exact attentive_of_unread rfl (.inl ht) idle_nil rfl
    | short b slot data f _ _ ht hd =>
      refine attentive_of_unread ?_ (.inr (List.cons_ne_nil _ _)) (idle_cons.2 ⟨rfl, idle_nil⟩) rfl
      rw [ht]
      exact (if_pos rfl).trans hd
    | noFormat => exact attentive_of_vain rfl (idle_cons.2 ⟨rfl, idle_nil⟩) rfl
  | broken => exact attentive_of_vain rfl idle_nil rfl
  | idle => exact attentive_of_vain rfl idle_nil rfl
  | ended =>
    exact attentive_of_unread rfl (.inr (List.cons_ne_nil _ _)) (by simp [Exchange.dequeued?]) rfl
  | refreshed => exact attentive_of_vain rfl (idle_cons.2 ⟨rfl, idle_nil⟩) rfl
  | unrefreshed => exact attentive_of_vain rfl (idle_cons.2 ⟨rfl, idle_nil⟩) rfl
  | reformatted _ hr => exact hformat hr
  | unformatted _ hr => exact hformat hr
  | unwritten hp hh =>
    have hall := hmoved [] hp hh idle_nil rfl
    rwa [List.append_nil] at hall
  | kept _ hp hh => exact hmoved _ hp hh (by simp [Exchange.dequeued?]) rfl
  | last hp hh => exact hmoved _ hp hh (by simp [Exchange.dequeued?]) rfl
  | moved hp hh => exact hmoved _ hp hh (by simp [Exchange.dequeued?]) rfl

/-- A pass that succeeds leaves no buffer behind. -/
theorem Passed.allBack {x : Bool} (hp : Passed t h (.ok x, t')) : AllBack t.encoder.table h := by
  cases hp with
  | idle => exact allBack_of_none rfl
  | ended b =>
    exact allBack_followed (h := [dequeued (.buffer b)]) (by simp [Exchange.dequeued?])
      ⟨_, List.mem_cons_self, rfl⟩
  | refreshed => exact allBack_of_none rfl
  | reformatted _ hr =>
    exact allBack_of_none
      (Idle.handouts_vain (idle_cons.2 ⟨rfl, hr.within.idle (by simp)⟩) rfl)
  | last => exact allBack_followed (by simp [Exchange.dequeued?]) ⟨_, List.mem_cons_self, rfl⟩
  | moved => exact allBack_followed (by simp [Exchange.dequeued?]) ⟨_, List.mem_cons_self, rfl⟩

/-- **The loop** looks at the display for the buffers that are to be written, and for nothing
else. -/
theorem Looped.attentive {deadline : Int64} {r : Option (Outcome Ending × Take)}
    (hl : Looped deadline t h r) (hs : t.sink.party = Session.outlet settings) :
    Attentive settings t.encoder.table h := by
  have hturn : ∀ {table k nanos}, Attentive settings table k →
      Attentive settings table (asked false :: clocked nanos :: k) := fun hk =>
    (attentive_of_none (h := [asked false, clocked _]) rfl rfl).append (allBack_of_none rfl) hk
  induction hl with
  | spent => exact attentive_of_none rfl rfl
  | stopped => exact attentive_of_none rfl rfl
  | late => exact attentive_of_none rfl rfl
  | failed _ _ hp => exact hturn (hp.attentive hs)
  | ended _ _ hp => exact hturn (hp.attentive hs)
  | next _ _ hp _ ih =>
    -- a pass may change the output, but not its kind, and leaves the table that comes next
    rw [Sink.party, hp.face_eq] at ih
    exact hturn ((hp.attentive hs).append hp.allBack (hp.tableAfter_eq ▸ ih hs))

end Take

namespace Session

variable {s s' : Session} {h : History} {r : Ready}

/-! ## The set-up -/

/-- What a set-up asks of the display and of the compositor: one look at the display, and a virtual
display that is made for what it shows, for a video of the size that the encoder was set up with. -/
structure MadeFor (settings : Settings) (d : VirtualDisplay) (h : History) : Prop where
  looked : h.looks = 1
  made : ∃ surface frameRate,
    Parameters d.size settings.bitRate frameRate settings.rotate surface d.geometry h ∧
      h.only .capture = [⟨.capture (.bind surface d.geometry.layerStack), .ok d.handle⟩,
        d.projecting d.geometry (.ok ())]
  rotate : d.rotate = settings.rotate

/-- A set-up that succeeds makes the virtual display that the loop starts from. -/
theorem Prepared.madeFor (hp : Prepared s h (.ok r, s')) :
    ∃ d, s'.capture.active = some d ∧ MadeFor s.settings d (entered .configuring :: h) := by
  obtain ⟨surface, first, hparameters, hfor⟩ := hp.parameters
  cases hp with
  | @ready look setUp bound opened geometry rate surface' size projection e c sink _ hv hl he hc
      ho =>
  have hgeometry : look.geometries = [geometry] := by
    cases hl <;> rfl
  have hlooked : look.looks = 1 := by
    cases hl <;> rfl
  obtain rfl : geometry = first := by
    have hreported := hparameters.reported
    rw [geometries_append, geometries_append, geometries_append, hgeometry] at hreported
    exact Option.some.inj hreported
  have hopened : opened.Within [.disk, outlet s.settings] := ho.within
  have hnotice : History.Within [.watcher] [entered .configuring] := by simp [Exchange.party]
  cases hc with
  | started handle =>
    obtain rfl : surface' = surface := by
      have hbound := hparameters.bound
      rw [bindings_append, bindings_append, bindings_append, hl.within.bindings (by simp),
        he.within.bindings (by simp), hopened.bindings (by simp)] at hbound
      exact (Prod.mk.inj (List.cons.inj hbound).1).1
    refine ⟨_, congrArg Capture.active ho.capture_eq, ?_,
      ⟨surface', rate, hparameters.preceded hnotice, ?_⟩, rfl⟩
    · have hbound : looks [⟨.capture (.bind surface' geometry.layerStack), .ok handle⟩,
          ⟨.capture (.project handle (.fit geometry size s.settings.rotate)), .ok ()⟩] = 0 := rfl
      rw [looks_cons_of_party (by simp [Exchange.party]), looks_append, looks_append, looks_append,
        hlooked, he.within.looks (by simp), hbound, hopened.looks (by simp)]
    · rw [← List.singleton_append, only_append, only_append, only_append, only_append,
        hnotice.only_eq_nil (by simp), hl.within.only_eq_nil (by simp),
        he.within.only_eq_nil (by simp), hopened.only_eq_nil (by simp), List.append_nil]
      rfl

/-! ## The run -/

theorem GivenBack.looks {sink : Sink} {x : Outcome Unit × Session} (hb : GivenBack s sink h x) :
    h.looks = 0 := hb.within.looks (by simp)

/-- **A run that reaches its loop** is its set-up, the loop, and calls that neither look at the
display nor project it nor ask for a buffer. -/
theorem Ran.reached {result : Option (Outcome Recording × Session)} (hr : Ran s h result)
    (ho : ∃ e ∈ h, e.opens .capturing = true) :
    ∃ (setUp loop rest : History) (r : Ready) (s' : Session) (started : Int64)
      (looped : Option (Outcome Ending × Take)), h = lead setUp started ++ (loop ++ rest) ∧
        Prepared s.begun setUp (.ok r, s') ∧
        (s'.taking r).Looped (s'.deadline started) loop looped ∧ rest.Idle ∧ rest.looks = 0 ∧
          rest.projections = [] := by
  cases hr.course with
  | unlooped hu =>
    obtain ⟨e, he, hopen⟩ := ho
    have hclosed : e.opens .capturing = false := hu.notOpened_of_ne (by decide) (by decide) e he
    rw [hclosed] at hopen
    cases hopen
  | unfinished hp hl =>
    exact ⟨_, _, [], _, _, _, _, by rw [List.append_nil], hp, hl, idle_nil, rfl, rfl⟩
  | @drained setUp loop times back rest last r s' _ _ _ _ _ _ _ started nanos hp hl ht hb hs
      hlast =>
    refine ⟨setUp, loop, Take.clocked nanos :: entered .draining :: (times ++ back ++ rest ++ last),
      r, s', started, _, by simp, hp, hl, ?_, ?_, ?_⟩
    · simp [ht.idle, hb.idle, hs.idle, hlast.idle, Exchange.dequeued?]
    · rw [looks_cons_of_party (by simp [Exchange.party]),
        looks_cons_of_party (by simp [Exchange.party]), looks_append, looks_append, looks_append,
        ht.within.looks (by simp), hb.looks, hs.within.looks (by simp), hlast.looks (by simp)]
    · have htail : projections (times ++ back ++ rest ++ last) = [] := by
        rw [projections_append, projections_append, projections_append,
          ht.within.projections (by simp), hb.unprojected, hs.within.projections (by simp),
          hlast.projections (by simp)]
        rfl
      exact htail

/-- **How a run follows the display** that it records, from the virtual display `d` of its
set-up on. -/
structure DisplayFollowed (settings : Settings) (d : VirtualDisplay) (h : History) : Prop where
  made : MadeFor settings d (h.before .capturing)
  /-- While a buffer that is to be written is held, the display is looked at once, before the buffer
  is handed to the output. -/
  attended : ∀ o ∈ h.handouts [], o.Attended settings
  /-- Nothing else leads to a look. -/
  counted : (h.since .capturing).looks = (h.handouts []).countP (·.due settings)
  /-- A look leads to a projection exactly if it shows another orientation than the geometry that
  was projected last. -/
  follows : ∃ d', Follows d (h.since .capturing) d'
  /-- A projection that is refused is asked for again when the same orientation is seen next. -/
  retried : ∀ {earlier between later : History} {g g' : Geometry} {f : Failure},
    h.since .capturing = earlier ++ shown (.ok g) :: d.projecting g (.error f) ::
      (between ++ shown (.ok g') :: later) →
    between.geometries = [] → g'.orientation = g.orientation →
    ∃ answer k, later = d.projecting g' answer :: k
  /-- Nothing is projected while the orientation stays the one that was projected. -/
  settled : ∀ {earlier between later : History} {g : Geometry},
    h.since .capturing = earlier ++ shown (.ok g) :: d.projecting g (.ok ()) ::
      (between ++ later) →
    (∀ g' ∈ between.geometries, g'.orientation = g.orientation) → between.projections = []

theorem Ran.displayFollowed {result : Option (Outcome Recording × Session)} (hr : Ran s h result)
    (ho : ∃ e ∈ h, e.opens .capturing = true) : ∃ d, DisplayFollowed s.settings d h := by
  obtain ⟨setUp, loop, rest, r, s', started, looped, rfl, hp, hl, hidle, hlooks, hnone⟩ :=
    hr.reached ho
  obtain ⟨d, hd, hmade⟩ := hp.madeFor
  obtain ⟨hbefore, hsince⟩ :
      (lead setUp started ++ (loop ++ rest)).before .capturing = entered .configuring :: setUp ∧ _ :=
    lead_append hp (loop ++ rest)
  obtain ⟨d', hloop⟩ := hl.follows hd
  have hfollows : Follows d ((lead setUp started ++ (loop ++ rest)).since .capturing) d' := by
    rw [hsince]
    exact .other rfl rfl (.other rfl rfl (hloop.append (.of_others hlooks hnone)))
  -- the set-up hands out no buffer, and leaves the table that the loop begins with
  have hattentive : Attentive s.settings s'.encoder.table (loop ++ rest) :=
    (hl.attentive hp.party).followed hidle hlooks
  have hhandouts : (lead setUp started ++ (loop ++ rest)).handouts [] =
      (loop ++ rest).handouts s'.encoder.table := by
    rw [handouts_append, (lead_idle hp).handouts_eq_nil, lead_table hp]
    rfl
  refine ⟨d, ?_, ?_, ?_, ⟨d', hfollows⟩, fun hsplit hb ho => ?_, fun hsplit ho => ?_⟩
  · rw [hbefore]
    exact hmade
  · rw [hhandouts]
    exact hattentive.attended
  · rw [hsince, hhandouts, looks_cons_of_party (by simp [Exchange.party]),
      looks_cons_of_party (by simp [Exchange.party])]
    exact hattentive.counted
  · rw [hsplit] at hfollows
    exact hfollows.retried hb ho
  · rw [hsplit] at hfollows
    exact hfollows.settled ho

/-- **The recording follows the display.** In every run that reaches its loop, finished or not and
whatever the display and the compositor answer: the set-up looks at the display once and projects
what it sees. From then on the display is looked at once for each buffer that is to be written,
while it is held and before it is handed to the output, and at no other time. Where a look shows
another orientation than the geometry projected last, this geometry is projected at once, onto a
video of the same size, on the same virtual display; where it fails or shows the same orientation,
nothing is. A projection that is refused changes nothing and is asked for again, and one that is
granted is not asked for twice. -/
theorem display_followed {settings : Settings} {hasMuxer : Bool} {output : Option Raw}
    {passes : Nat} {result : Option (Outcome Recording × Session)}
    (hr : (run passes (ofSettings settings hasMuxer output)).Runs h result)
    (ho : ∃ e ∈ h.calls, e.opens .capturing = true) :
    ∃ d, DisplayFollowed settings d h.calls :=
  (ensures_run passes _ h _ hr).displayFollowed ho

open Rehearsal in
/-- A display that is turned after the first picture. The projection is refused, asked for again
before the next picture, and then left alone. Parameters of the codec and an empty buffer are no
reason to look. -/
theorem display_followed_tilted :
    let p := run 9 (ofSettings .standard true none)
    let device := Obliging.ofEvents [.formatChanged, .buffer ⟨0, 0, 4, 7, .empty⟩,
      .buffer ⟨1, 0, 2, 0, .codecConfig⟩, .buffer ⟨0, 0, 0, 8, .empty⟩,
      .buffer ⟨1, 0, 4, 9, .empty⟩, .buffer ⟨0, 0, 4, 10, .empty⟩, .buffer ⟨1, 0, 4, 11, .empty⟩]
    let h := p.history Obliging.answerTilted device
    h.calls.looks = 5 ∧ h.calls.projections.length = 3 ∧
      (∃ e ∈ h.calls, e.opens .capturing = true) ∧ ∃ d, DisplayFollowed .standard d h.calls := by
  intro p device h
  have hopen : ∃ e ∈ h.calls, e.opens .capturing = true :=
    List.any_eq_true.1 (by decide +kernel)
  exact ⟨by decide +kernel, by decide +kernel, hopen,
    display_followed (Program.runs_run _ _ _) hopen⟩

end Session

end Screencast
