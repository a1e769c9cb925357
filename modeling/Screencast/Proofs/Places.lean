import Screencast.Disk
import Screencast.Proofs.Paths

/-!
# Where paths lead

A path that leads to a file is followed through directories to a name in the last of them. Writing a
file changes the entry at one place and no directory, so that every path still leads where it led,
and the files at other places are read as before.

* `Disk.follow`, `walk_concat`, `resolve_name`: the directories of a path and its last name.
* `Disk.resolve_pathFor`: the description of a recording is at a place beside it.
* `Disk.Wrote`, `write_wrote`: what is written, and where.
* `Disk.resolve_put`, `Wrote.read`: what a write leaves as it is.
-/

namespace Screencast

namespace Disk

variable {d d' : Disk} {p q : Path} {l place own : Location} {dirs : List (List Char)}
  {last : List Char} {slash : Bool} {content bytes : Bytes}

/-! ## The parts of a path -/

/-- Follows parts that must all be those of directories. -/
def follow (d : Disk) (l : Location) (dirs : List (List Char)) : Except Refusal Location :=
  dirs.foldlM d.enter l

/-- A path is followed through its directories to its last part. -/
theorem walk_concat (d : Disk) (l : Location) (dirs : List (List Char)) (last : List Char) :
    d.walk l (dirs ++ [last]) = d.follow l dirs >>= fun l => d.walk l [last] := by
  induction dirs generalizing l with
  | nil => rfl
  | cons piece dirs ih =>
    -- a part is entered if another one follows it, and here the last one does
    obtain ⟨next, rest, hrest⟩ : ∃ next rest, dirs ++ [last] = next :: rest := by
      cases dirs <;> simp
    rw [List.cons_append, hrest, walk, follow, List.foldlM_cons, bind_assoc]
    · refine bind_congr fun l => ?_
      rw [← hrest, ih]
      rfl
    · simp

/-- A path that leads to a name, by its parts. -/
structure Leads (d : Disk) (p : Path) (dirs : List (List Char)) (last : List Char)
    (l : Location) : Prop where
  pieces_eq : p.pieces.filter (· != []) = dirs ++ [last]
  follow_eq : d.follow [] dirs = .ok l
  last_full : Path.isEmptyPiece last = false
  last_ne : last ≠ Path.parent

/-- **A path that leads to a name** is followed to a directory in which it has that name. -/
theorem resolve_name (hp : d.resolve p = .ok (.name place slash)) :
    ∃ dirs last l, d.Leads p dirs last l ∧ place = l ++ [String.ofList last] := by
  unfold resolve at hp
  split at hp
  · cases hp
  split at hp
  · cases hp
  split at hp
  · cases hp
  -- a path without parts leads to the root
  obtain hnil | ⟨dirs, last, hnames⟩ := List.eq_nil_or_concat (p.pieces.filter (· != []))
  · rw [hnil] at hp
    cases hp
  rw [List.concat_eq_append] at hnames
  simp only [hnames, walk_concat] at hp
  cases hfollow : d.follow [] dirs with
  | error r =>
    rw [hfollow] at hp
    cases hp
  | ok l =>
    rw [hfollow] at hp
    simp only [bind, Except.bind, walk] at hp
    split_ifs at hp with hempty hparent
    · cases hp
    · cases hp
    · cases hp
      exact ⟨dirs, last, l, ⟨hnames, hfollow, by simpa using hempty, by simpa using hparent⟩, rfl⟩

/-- A path that leads to a name has that file name, and nothing but slashes behind it. -/
theorem Leads.parted (hp : d.Leads p dirs last l) :
    ∃ n earlier later, p.Parted n earlier later ∧ n.name = last ∧
      earlier.filter (· != []) = dirs := by
  obtain ⟨before, behind, hpieces, hbefore, hbehind⟩ := List.filter_eq_append_iff.1 hp.pieces_eq
  obtain ⟨slashes, later, rfl, hslashes, -, hlater⟩ := List.filter_eq_cons_iff.1 hbehind
  have hnone : ∀ piece ∈ later, piece = [] := by simpa using hlater
  refine ⟨⟨(before ++ slashes).flatMap (· ++ ['/']), last, later.flatMap ('/' :: ·)⟩,
    before ++ slashes, later, ⟨?_, ?_, hp.last_full, hp.last_ne, rfl, rfl⟩, rfl, ?_⟩
  · rw [hpieces, List.append_assoc]
  · intro piece hm
    rw [hnone piece hm]
    rfl
  · rw [List.filter_append, hbefore, List.filter_eq_nil_iff.2 hslashes, List.append_nil]

/-- A description leads nowhere if the name beside it starts with two dots and has no third. -/
theorem not_overdotted_of_leads
    (hq : d.resolve (Description.pathFor p) = .ok (.name place slash)) : ¬p.Overdotted := by
  intro ho
  obtain ⟨n, hn, -⟩ := id ho
  obtain ⟨earlier, later, hparted⟩ := Path.named?_eq_some_iff.1 hn
  obtain ⟨dirs, last, l, hplaced, -⟩ := resolve_name hq
  have hpieces := hplaced.pieces_eq
  rw [Description.pathFor, hparted.pieces_overdotted ho, List.filter_append,
    List.filter_cons_of_pos (by decide)] at hpieces
  exact hplaced.last_ne (List.cons.inj (List.append_inj' hpieces rfl).2).1.symm

/-- **The description of a recording is beside it**, wherever both paths lead somewhere. -/
theorem resolve_pathFor {slash' : Bool} (hp : d.resolve p = .ok (.name own slash))
    (hq : d.resolve (Description.pathFor p) = .ok (.name place slash')) :
    place ≠ own ∧ place.dropLast = own.dropLast := by
  obtain ⟨dirs, last, l, howned, rfl⟩ := resolve_name hp
  obtain ⟨dirs', last', l', hplaced, rfl⟩ := resolve_name hq
  obtain ⟨n, earlier, later, hparted, rfl, hdirs⟩ := howned.parted
  have hpieces := hplaced.pieces_eq
  rw [Description.pathFor,
    hparted.pieces_withExtension (by decide) (not_overdotted_of_leads hq), List.filter_append,
    List.filter_cons_of_pos (by simp), hdirs] at hpieces
  obtain ⟨rfl, hlast⟩ := List.append_inj' hpieces rfl
  obtain rfl := (List.cons.inj hlast).1
  obtain rfl := Except.ok.inj (howned.follow_eq.symm.trans hplaced.follow_eq)
  -- the same directory is reached, and the names in it differ
  constructor
  · intro heq
    have hnames := List.cons.inj (List.append_cancel_left heq)
    exact Path.splitName_ne (by decide) n.name (String.ofList_injective hnames.1)
  · rw [List.dropLast_concat, List.dropLast_concat]

/-! ## What a write leaves as it is -/

theorem look_eq {e : Option Entry} (hl : d.look l = .ok e) : d.find? l = e := by
  unfold look at hl
  split at hl
  · cases hl
  · exact Except.ok.inj hl

section Put

variable (hn : d.find? place ≠ some .directory)

include hn

theorem ne_nil : place ≠ [] := by
  rintro rfl
  exact hn rfl

theorem look_put (e : Entry) (hl : l ≠ place) : (d.put place e).look l = d.look l := by
  unfold look
  rw [find?_put _ _ _ (ne_nil hn), if_neg hl]

/-- A directory can be entered as before. -/
theorem enter_put {piece : List Char} {next : Location} (e : Entry)
    (hl : d.enter l piece = .ok next) : (d.put place e).enter l piece = .ok next := by
  unfold enter at hl ⊢
  split
  · rename_i hempty
    rwa [if_pos hempty] at hl
  rename_i hempty
  rw [if_neg hempty] at hl
  split
  · rename_i hparent
    rwa [if_pos hparent] at hl
  rename_i hparent
  rw [if_neg hparent] at hl
  simp only at hl ⊢
  -- what is entered is a directory, and what is put is not put in place of one
  have hne : l ++ [String.ofList piece] ≠ place := by
    rintro rfl
    cases hlook : d.look (l ++ [String.ofList piece]) with
    | error r =>
      rw [hlook] at hl
      cases hl
    | ok found =>
      rw [look_eq hlook] at hn
      rw [hlook] at hl
      obtain _ | _ | _ := found
      · cases hl
      · cases hl
      · exact hn rfl
  rw [look_put hn e hne]
  exact hl

theorem walk_put {names : List (List Char)} {t : Target} (e : Entry)
    (hw : d.walk l names = .ok t) : (d.put place e).walk l names = .ok t := by
  induction names generalizing l with
  | nil => exact hw
  | cons piece rest ih =>
    cases rest with
    | nil => exact hw
    | cons next rest =>
      rw [walk] at hw ⊢
      · cases henter : d.enter l piece with
        | error r =>
          rw [henter] at hw
          cases hw
        | ok l' =>
          rw [henter] at hw
          rw [enter_put hn e henter]
          exact ih hw
      · simp
      · simp

/-- **Every path leads where it led.** -/
theorem resolve_put {t : Target} (e : Entry) (hp : d.resolve p = .ok t) :
    (d.put place e).resolve p = .ok t := by
  unfold resolve at hp ⊢
  split_ifs at hp ⊢
  simp only at hp ⊢
  cases hw : d.walk [] (p.pieces.filter (· != [])) with
  | error r =>
    rw [hw] at hp
    cases hp
  | ok t' =>
    rw [hw] at hp
    rw [walk_put hn e hw]
    exact hp

end Put

/-! ## Reading and writing -/

theorem read_eq (hr : d.read p = .ok bytes) :
    ∃ own, d.resolve p = .ok (.name own false) ∧ d.look own = .ok (some (.file bytes)) := by
  unfold read at hr
  cases hp : d.resolve p with
  | error r =>
    rw [hp] at hr
    cases hr
  | ok t =>
    rw [hp] at hr
    obtain ⟨own, slash⟩ | own := t
    · cases hl : d.look own with
      | error r =>
        simp only [bind, Except.bind, hl] at hr
        cases hr
      | ok found =>
        simp only [bind, Except.bind, hl] at hr
        obtain _ | content | _ := found
        · cases hr
        · cases slash
          · cases hr
            exact ⟨own, rfl, hl⟩
          · cases hr
        · cases hr
    · cases hr

theorem read_of (hp : d.resolve p = .ok (.name own false))
    (hl : d.look own = .ok (some (.file bytes))) : d.read p = .ok bytes := by
  simp [read, hp, hl, bind, Except.bind, pure, Except.pure]

/-- A file that was written: where it is, and that nothing else has changed. -/
structure Wrote (d : Disk) (p : Path) (content : Bytes) (place : Location) (d' : Disk) : Prop where
  resolve_eq : d.resolve p = .ok (.name place false)
  not_directory : d.find? place ≠ some .directory
  put_eq : d' = d.put place (.file content)

theorem write_wrote (hw : d.write p content = .ok d') : ∃ place, d.Wrote p content place d' := by
  unfold write newPlace at hw
  cases hp : d.resolve p with
  | error r =>
    simp only [bind, Except.bind, hp] at hw
    cases hw
  | ok t =>
    simp only [bind, Except.bind, hp] at hw
    obtain ⟨place, slash⟩ | place := t
    · cases slash
      · cases hl : d.look place with
        | error r =>
          simp only [hl] at hw
          cases hw
        | ok found =>
          simp only [hl] at hw
          by_cases hd : found = some .directory
          · rw [hd] at hw
            cases hw
          · have hbeq : (found == some Entry.directory) = false := by simpa using hd
            simp only [hbeq] at hw
            cases hw
            exact ⟨place, hp, by rwa [look_eq hl], rfl⟩
      · cases hw
    · cases hw

/-- The entries at all other places are as before. -/
theorem Wrote.find? (hw : d.Wrote p content place d') (l : Location) :
    d'.find? l = if l = place then some (.file content) else d.find? l := by
  rw [hw.put_eq, find?_put _ _ _ (ne_nil hw.not_directory)]

/-- **A file elsewhere is read as before.** -/
theorem Wrote.read (hw : d.Wrote p content place d') (hr : d.read q = .ok bytes)
    (hne : ∀ own slash, d.resolve q = .ok (.name own slash) → place ≠ own) :
    d'.read q = .ok bytes := by
  obtain ⟨own, hq, hl⟩ := read_eq hr
  rw [hw.put_eq]
  refine read_of (resolve_put hw.not_directory _ hq) ?_
  rwa [look_put hw.not_directory _ (hne own false hq).symm]

end Disk

end Screencast
