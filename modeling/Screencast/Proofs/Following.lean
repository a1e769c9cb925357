import Screencast.Proofs.Agreement

/-!
# What a look at the display leads to

While a session records it looks at its display. Where that shows another orientation than the one
that was projected last, the virtual display is projected anew, and what it is projected for then is
remembered if the projection was granted.

* `History.looks`: how often the display is looked at.
* `Follows`: what each look leads to, by the projection that was applied last.
* `Follows.retried`, `Follows.settled`: a projection that is refused is asked for again, one that is
  granted is not.
* `Take.Looped.follows`: the loop by induction on its passes.
-/

namespace Screencast

namespace Exchange

/-- A look at the display. -/
def looks : Exchange → Bool
  | ⟨.display .geometry, _⟩ => true
  | _ => false

theorem looks_of_party {e : Exchange} (hp : e.party ≠ .display) : e.looks = false := by
  rcases e with ⟨_ | _ | _, answer⟩
  case display => exact absurd rfl hp
  all_goals rfl

end Exchange

namespace History

variable {h k : History} {parties : List Party}

/-- How often the display is looked at. -/
def looks (h : History) : Nat := h.countP Exchange.looks

@[simp] theorem looks_append : looks (h ++ k) = h.looks + k.looks := List.countP_append ..

theorem looks_cons_of_party {e : Exchange} (hp : e.party ≠ .display) :
    looks (e :: h) = h.looks := by
  rw [looks, List.countP_cons, Exchange.looks_of_party hp]
  rfl

theorem Within.looks (hw : h.Within parties) (hp : Party.display ∉ parties) : h.looks = 0 :=
  List.countP_eq_zero.2 fun e he hl => by
    rw [Exchange.looks_of_party fun h => hp (h ▸ hw e he)] at hl
    cases hl

theorem mem_geometries_cons {e : Exchange} {g : Geometry} (hg : g ∈ h.geometries) :
    g ∈ geometries (e :: h) := by
  obtain ⟨x, hx, heq⟩ := List.mem_filterMap.1 hg
  exact List.mem_filterMap.2 ⟨x, List.mem_cons_of_mem _ hx, heq⟩

/-- Where the display is not looked at, it is not looked at in any part. -/
theorem looks_of_sublist (hs : h.Sublist k) (hk : k.looks = 0) : h.looks = 0 :=
  Nat.le_zero.1 (hk ▸ hs.countP_le)

/-- What comes behind the only look comes behind one look. -/
theorem OnlyAfter.looked {kind : Exchange → Bool}
    (ha : h.OnlyAfter kind fun earlier => earlier.looks = 1) (hh : h.looks = 1)
    (hk : k.looks = 0) : (h ++ k).OnlyAfter kind fun earlier => earlier.looks = 1 := by
  rw [onlyAfter_append]
  refine ⟨ha, ?_⟩
  rintro earlier e later rfl -
  have hearlier : earlier.looks = 0 := looks_of_sublist (List.sublist_append_left ..) hk
  rw [looks_append, hh, hearlier]

end History

open History

/-! ## What a look leads to -/

/-- The display's answer to a look. -/
abbrev shown (answer : Outcome Geometry) : Exchange := ⟨.display .geometry, answer⟩

namespace VirtualDisplay

/-- A virtual display is asked to be projected for a geometry. -/
abbrev projecting (d : VirtualDisplay) (g : Geometry) (answer : Outcome Unit) : Exchange :=
  ⟨.capture (.project d.handle (.fit g d.size d.rotate)), answer⟩

/-- The virtual display once it is projected for a geometry. -/
def turned (d : VirtualDisplay) (g : Geometry) : VirtualDisplay :=
  { d with geometry := g, projection := .fit g d.size d.rotate }

end VirtualDisplay

/-- **A virtual display follows the display.** It is `d` before the calls and `d'` after them. A
look that fails, and one that shows the orientation that it is projected for, leave it as it is. One
that shows another orientation is followed by a projection at once, and that one counts from then on
if it is granted. Nothing else projects it. -/
inductive Follows : VirtualDisplay → History → VirtualDisplay → Prop
  | nil (d : VirtualDisplay) : Follows d [] d
  | other {d d' : VirtualDisplay} {e : Exchange} {h : History} (hl : e.looks = false)
      (hp : e.projection? = none) (hf : Follows d h d') : Follows d (e :: h) d'
  | unseen {d d' : VirtualDisplay} {h : History} (f : Failure) (hf : Follows d h d') :
      Follows d (shown (.error f) :: h) d'
  | still {d d' : VirtualDisplay} {h : History} (g : Geometry)
      (ho : g.orientation = d.geometry.orientation) (hf : Follows d h d') :
      Follows d (shown (.ok g) :: h) d'
  | refused {d d' : VirtualDisplay} {h : History} (g : Geometry) (f : Failure)
      (ho : g.orientation ≠ d.geometry.orientation) (hf : Follows d h d') :
      Follows d (shown (.ok g) :: d.projecting g (.error f) :: h) d'
  | turned {d d' : VirtualDisplay} {h : History} (g : Geometry)
      (ho : g.orientation ≠ d.geometry.orientation) (hf : Follows (d.turned g) h d') :
      Follows d (shown (.ok g) :: d.projecting g (.ok ()) :: h) d'

namespace Follows

variable {d d' d'' : VirtualDisplay} {h k earlier later : History} {g : Geometry}
  {parties : List Party}

theorem append (hf : Follows d h d') (hk : Follows d' k d'') : Follows d (h ++ k) d'' := by
  induction hf with
  | nil => exact hk
  | other hl hp _ ih => exact .other hl hp (ih hk)
  | unseen f _ ih => exact .unseen f (ih hk)
  | still g ho _ ih => exact .still g ho (ih hk)
  | refused g f ho _ ih => exact .refused g f ho (ih hk)
  | turned g ho _ ih => exact .turned g ho (ih hk)

/-- Calls that neither look at the display nor project it leave the virtual display as it is. -/
theorem of_others (hl : h.looks = 0) (hp : h.projections = []) : Follows d h d := by
  induction h with
  | nil => exact .nil d
  | cons e h ih =>
    have hlooks : ∀ x ∈ e :: h, ¬x.looks = true := List.countP_eq_zero.1 hl
    have hnone : ∀ x ∈ e :: h, x.projection? = none := List.filterMap_eq_nil_iff.1 hp
    refine .other (Bool.eq_false_iff.2 (hlooks e List.mem_cons_self))
      (hnone e List.mem_cons_self) (ih ?_ ?_)
    · exact List.countP_eq_zero.2 fun x hx => hlooks x (List.mem_cons_of_mem _ hx)
    · exact List.filterMap_eq_nil_iff.2 fun x hx => hnone x (List.mem_cons_of_mem _ hx)

theorem of_within (hw : h.Within parties) (hd : Party.display ∉ parties)
    (hc : Party.capture ∉ parties) : Follows d h d := of_others (hw.looks hd) (hw.projections hc)

/-- Whatever it is projected for, it stays the same virtual display for the same video. -/
theorem projecting_eq (hf : Follows d h d') : d'.projecting = d.projecting := by
  induction hf with
  | nil => rfl
  | other _ _ _ ih => exact ih
  | unseen _ _ ih => exact ih
  | still _ _ _ ih => exact ih
  | refused _ _ _ _ ih => exact ih
  | turned _ _ _ ih => exact ih

/-- The virtual display as it is when the display is looked at. -/
theorem at_look (hf : Follows d (earlier ++ shown (.ok g) :: later) d') :
    ∃ m, Follows d earlier m ∧ Follows m (shown (.ok g) :: later) d' := by
  generalize hh : earlier ++ shown (.ok g) :: later = h at hf
  -- a look that is followed by a projection is taken as a whole
  induction hf generalizing earlier with
  | nil => simp at hh
  | other hl hp hf ih =>
    cases earlier with
    | nil =>
      obtain ⟨rfl, -⟩ := List.cons.inj hh
      cases hl
    | cons x earlier =>
      simp only [List.cons_append, List.cons.injEq] at hh
      obtain ⟨rfl, hh⟩ := hh
      obtain ⟨m, hm, hrest⟩ := ih hh
      exact ⟨m, .other hl hp hm, hrest⟩
  | unseen f hf ih =>
    cases earlier with
    | nil => cases hh
    | cons x earlier =>
      simp only [List.cons_append, List.cons.injEq] at hh
      obtain ⟨rfl, hh⟩ := hh
      obtain ⟨m, hm, hrest⟩ := ih hh
      exact ⟨m, .unseen f hm, hrest⟩
  | still g' ho hf ih =>
    cases earlier with
    | nil =>
      cases hh
      exact ⟨_, .nil _, .still g ho hf⟩
    | cons x earlier =>
      simp only [List.cons_append, List.cons.injEq] at hh
      obtain ⟨rfl, hh⟩ := hh
      obtain ⟨m, hm, hrest⟩ := ih hh
      exact ⟨m, .still g' ho hm, hrest⟩
  | refused g' f ho hf ih =>
    obtain _ | ⟨x, _ | ⟨y, earlier⟩⟩ := earlier
    · cases hh
      exact ⟨_, .nil _, .refused g f ho hf⟩
    · cases hh
    · simp only [List.cons_append, List.cons.injEq] at hh
      obtain ⟨rfl, rfl, hh⟩ := hh
      obtain ⟨m, hm, hrest⟩ := ih hh
      exact ⟨m, .refused g' f ho hm, hrest⟩
  | turned g' ho hf ih =>
    obtain _ | ⟨x, _ | ⟨y, earlier⟩⟩ := earlier
    · cases hh
      exact ⟨_, .nil _, .turned g ho hf⟩
    · cases hh
    · simp only [List.cons_append, List.cons.injEq] at hh
      obtain ⟨rfl, rfl, hh⟩ := hh
      obtain ⟨m, hm, hrest⟩ := ih hh
      exact ⟨m, .turned g' ho hm, hrest⟩

/-- **A look leads to a projection** exactly if it shows another orientation. -/
theorem projects_iff (hf : Follows d (shown (.ok g) :: h) d') :
    g.orientation ≠ d.geometry.orientation ↔ ∃ answer k, h = d.projecting g answer :: k := by
  generalize hh : shown (.ok g) :: h = l at hf
  cases hf with
  | nil => cases hh
  | other hl =>
    obtain ⟨rfl, -⟩ := List.cons.inj hh
    cases hl
  | unseen => cases hh
  | still _ ho hf =>
    cases hh
    refine iff_of_false (fun hne => hne ho) ?_
    rintro ⟨answer, k, rfl⟩
    -- a projection is no call of another kind, and stands behind a look that calls for it
    generalize hk : d.projecting g answer :: k = l at hf
    cases hf with
    | other _ hp =>
      obtain ⟨rfl, -⟩ := List.cons.inj hk
      cases hp
    | _ => cases hk
  | refused _ f ho =>
    cases hh
    exact iff_of_true ho ⟨_, _, rfl⟩
  | turned _ ho =>
    cases hh
    exact iff_of_true ho ⟨_, _, rfl⟩

/-- A projection counts from then on if it is granted, and not at all otherwise. -/
theorem projected {answer : Outcome Unit}
    (hf : Follows d (shown (.ok g) :: d.projecting g answer :: h) d') :
    Follows (if answer.isOk then d.turned g else d) h d' := by
  generalize hh : shown (.ok g) :: d.projecting g answer :: h = l at hf
  cases hf with
  | nil => cases hh
  | other hl =>
    obtain ⟨rfl, -⟩ := List.cons.inj hh
    cases hl
  | unseen => cases hh
  | still _ ho hf =>
    cases hh
    exact absurd ho ((projects_iff (.still g ho hf)).2 ⟨answer, h, rfl⟩)
  | refused _ _ _ hf =>
    cases hh
    exact hf
  | turned _ _ hf =>
    cases hh
    exact hf

/-- Where no geometry is shown the virtual display stays as it is. -/
theorem unseen_eq (hf : Follows d h d') (hn : h.geometries = []) : d' = d := by
  induction hf with
  | nil => rfl
  | other _ _ _ ih =>
    refine ih (List.filterMap_eq_nil_iff.2 fun x hx => ?_)
    exact List.filterMap_eq_nil_iff.1 hn x (List.mem_cons_of_mem _ hx)
  | unseen _ _ ih => exact ih hn
  | still => cases hn
  | refused => cases hn
  | turned => cases hn

/-- **A projection that is refused is asked for again** at the next look that shows the same
orientation. -/
theorem retried {between : History} {g' : Geometry} {f : Failure}
    (hf : Follows d (earlier ++ shown (.ok g) :: d.projecting g (.error f) ::
      (between ++ shown (.ok g') :: later)) d')
    (hb : between.geometries = []) (ho : g'.orientation = g.orientation) :
    ∃ answer k, later = d.projecting g' answer :: k := by
  obtain ⟨m, hm, hfirst⟩ := hf.at_look
  rw [← hm.projecting_eq] at hfirst ⊢
  have hdiffers : g.orientation ≠ m.geometry.orientation := hfirst.projects_iff.2 ⟨_, _, rfl⟩
  obtain ⟨m', hm', hnext⟩ := hfirst.projected.at_look
  obtain rfl := hm'.unseen_eq hb
  exact hnext.projects_iff.1 (ho ▸ hdiffers)

/-- While the display shows the orientation that was projected, nothing is projected. -/
theorem unprojected (hf : Follows d (h ++ k) d')
    (ho : ∀ g ∈ h.geometries, g.orientation = d.geometry.orientation) : h.projections = [] := by
  generalize hh : h ++ k = l at hf
  induction hf generalizing h with
  | nil =>
    obtain ⟨rfl, -⟩ := List.append_eq_nil_iff.1 hh
    rfl
  | other hl hp hf ih =>
    cases h with
    | nil => rfl
    | cons x h =>
      simp only [List.cons_append, List.cons.injEq] at hh
      obtain ⟨rfl, hh⟩ := hh
      rw [projections, List.filterMap_cons, hp]
      exact ih (fun g hg => ho g (mem_geometries_cons hg)) hh
  | unseen f hf ih =>
    cases h with
    | nil => rfl
    | cons x h =>
      simp only [List.cons_append, List.cons.injEq] at hh
      obtain ⟨rfl, hh⟩ := hh
      exact ih (h := h) ho hh
  | still g _ hf ih =>
    cases h with
    | nil => rfl
    | cons x h =>
      simp only [List.cons_append, List.cons.injEq] at hh
      obtain ⟨rfl, hh⟩ := hh
      exact ih (h := h) (fun g hg => ho g (mem_geometries_cons hg)) hh
  | refused g f hne hf ih =>
    cases h with
    | nil => rfl
    | cons x h =>
      simp only [List.cons_append, List.cons.injEq] at hh
      obtain ⟨rfl, -⟩ := hh
      exact absurd (ho g List.mem_cons_self) hne
  | turned g hne hf ih =>
    cases h with
    | nil => rfl
    | cons x h =>
      simp only [List.cons_append, List.cons.injEq] at hh
      obtain ⟨rfl, -⟩ := hh
      exact absurd (ho g List.mem_cons_self) hne

/-- **A projection that is granted is not asked for again** while the display shows the same
orientation. -/
theorem settled {between : History}
    (hf : Follows d (earlier ++ shown (.ok g) :: d.projecting g (.ok ()) :: (between ++ later)) d')
    (ho : ∀ g' ∈ between.geometries, g'.orientation = g.orientation) :
    between.projections = [] := by
  obtain ⟨m, hm, hfirst⟩ := hf.at_look
  rw [← hm.projecting_eq] at hfirst
  exact hfirst.projected.unprojected ho

end Follows

namespace Take

variable {t t' : Take} {h : History} {d : VirtualDisplay}

/-- A look leads to what it has to lead to, and the take knows what came of it. -/
theorem Looked.follows {c c' : Capture} (hl : Looked c h c') (hc : c.active = some d) :
    ∃ d', Follows d h d' ∧ c'.active = some d' := by
  cases hl with
  | unseen f => exact ⟨d, .unseen f (.nil d), hc⟩
  | seen g hu =>
    cases hu with
    | still ho => exact ⟨d, .still g (ho d hc) (.nil d), hc⟩
    | refused d₁ f hc₁ ho =>
      obtain rfl := Option.some.inj (hc.symm.trans hc₁)
      exact ⟨d, .refused g f ho (.nil d), hc⟩
    | projected d₁ hc₁ ho =>
      obtain rfl := Option.some.inj (hc.symm.trans hc₁)
      exact ⟨d.turned g, .turned g ho (.nil _), rfl⟩

theorem Handled.follows {s : Sample} {x : Outcome Unit} (hh : Handled s t h (x, t'))
    (hc : t.capture.active = some d) :
    ∃ d', Follows d h d' ∧ t'.capture.active = some d' := by
  have hall : ∀ {look clock out : History} {c : Capture} {time : Int} {y},
      Looked t.capture look c → Timed s.time clock time → Sink.Sent { s with time } t.sink out y →
      ∃ d', Follows d (look ++ clock ++ out) d' ∧ c.active = some d' := by
    intro look clock out c time y hl ht hw
    obtain ⟨d', hf, hc'⟩ := hl.follows hc
    have hrest : Follows d' (clock ++ out) d' :=
      (Follows.of_within ht.within (by simp) (by simp)).append
        (.of_within hw.within (by simp) (by simp))
    rw [List.append_assoc]
    exact ⟨d', hf.append hrest, hc'⟩
  cases hh with
  | skipped => exact ⟨d, .nil d, hc⟩
  | refused _ hl ht hw => exact hall hl ht hw
  | written _ hl ht hw =>
    unfold after
    split <;> exact hall hl ht hw

theorem Passed.follows {x : Outcome Bool} (hp : Passed t h (x, t'))
    (hc : t.capture.active = some d) :
    ∃ d', Follows d h d' ∧ t'.capture.active = some d' := by
  have hothers : ∀ {k : History}, k.looks = 0 → k.projections = [] →
      ∃ d', Follows d k d' ∧ t.capture.active = some d' := fun hl hp => ⟨d, .of_others hl hp, hc⟩
  have hformat : ∀ {format k y}, Sink.Reformatted format t.sink k y → ∃ d',
      Follows d (dequeued .formatChanged :: ⟨.encoder .currentFormat, .ok format⟩ :: k) d' ∧
        t.capture.active = some d' := fun hr =>
    ⟨d, .other rfl rfl (.other rfl rfl (.of_within hr.within (by simp) (by simp))), hc⟩
  have hmoved : ∀ {p k s y t'} (l : History),
      Encoder.Polled longestWait t.encoder p (.ok (.data s), t.encoder) →
      Handled s t k (y, t') → l.looks = 0 → l.projections = [] →
      ∃ d', Follows d (p ++ k ++ l) d' ∧ t'.capture.active = some d' := by
    intro p k s y t' l hp hh hl hn
    obtain ⟨d', hf, hc'⟩ := hh.follows hc
    have hpolled : Follows d p d := .of_within hp.within (by simp) (by simp)
    exact ⟨d', (hpolled.append hf).append (.of_others hl hn), hc'⟩
  cases hp with
  | unpolled hp => exact ⟨d, .of_within hp.within (by simp) (by simp), hc⟩
  | reformatted _ hr => exact hformat hr
  | unformatted _ hr => exact hformat hr
  | unwritten hp hh =>
    have hall := hmoved [] hp hh rfl rfl
    rwa [List.append_nil] at hall
  | kept _ hp hh => exact hmoved _ hp hh rfl rfl
  | last hp hh => exact hmoved _ hp hh rfl rfl
  | moved hp hh => exact hmoved _ hp hh rfl rfl
  | _ => exact hothers rfl rfl

/-- **The loop** keeps the virtual display after the display. -/
theorem Looped.follows {deadline : Int64} {r : Option (Outcome Ending × Take)}
    (hl : Looped deadline t h r) (hc : t.capture.active = some d) : ∃ d', Follows d h d' := by
  have hturn : ∀ {d d' k nanos}, Follows d k d' →
      Follows d (asked false :: clocked nanos :: k) d' := fun hk =>
    .other rfl rfl (.other rfl rfl hk)
  induction hl generalizing d with
  | spent => exact ⟨d, .nil d⟩
  | stopped => exact ⟨d, .of_others rfl rfl⟩
  | late => exact ⟨d, .of_others rfl rfl⟩
  | failed _ _ hp =>
    obtain ⟨d', hf, -⟩ := hp.follows hc
    exact ⟨d', hturn hf⟩
  | ended _ _ hp =>
    obtain ⟨d', hf, -⟩ := hp.follows hc
    exact ⟨d', hturn hf⟩
  | next _ _ hp _ ih =>
    obtain ⟨m, hf, hm⟩ := hp.follows hc
    obtain ⟨d', hrest⟩ := ih hm
    exact ⟨d', hturn (hf.append hrest)⟩

end Take

end Screencast
