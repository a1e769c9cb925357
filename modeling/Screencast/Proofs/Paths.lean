import Mathlib.Data.List.TakeWhile
import Screencast.Recording.Text

/-!
# The path beside a recording

A path with another extension names a file in the same directory, and not the same file. There is
one exception to the first: a name that starts with two dots and has no third is not given the
extension but cut to the two dots, and the path is that of a directory.

* `splitAround_joined`: the parts between separators, taken apart again.
* `Path.Parted`, `named?_eq_some_iff`: the parts around a file name.
* `Path.Overdotted`: the exception.
* `Path.pieces_withExtension`, `Path.named?_withExtension`: the path with another extension.
* `Description.pathFor_beside`, `Description.pathFor_ne`: the description is kept beside the
  recording and not in it.
-/

namespace Screencast

variable {separator : Char}

/-- No part holds the separator. -/
theorem not_mem_splitAround {cs piece : List Char} (hp : piece ∈ splitAround separator cs) :
    separator ∉ piece := by
  induction cs generalizing piece with
  | nil =>
    rw [List.mem_singleton.1 hp]
    exact List.not_mem_nil
  | cons c cs ih =>
    rw [splitAround] at hp
    split at hp
    · rcases List.mem_cons.1 hp with rfl | hp
      · exact List.not_mem_nil
      · exact ih hp
    rename_i hc
    have hc' : separator ≠ c := fun h => hc h.symm
    split at hp
    · rw [List.mem_singleton.1 hp]
      simp [hc']
    · rename_i first rest hsplit
      rw [hsplit] at ih
      rcases List.mem_cons.1 hp with rfl | hp
      · simp [hc', ih List.mem_cons_self]
      · exact ih (List.mem_cons_of_mem _ hp)

theorem splitAround_of_not_mem {cs : List Char} (hs : separator ∉ cs) :
    splitAround separator cs = [cs] := by
  induction cs with
  | nil => rfl
  | cons c cs ih =>
    obtain ⟨hc, hs⟩ := not_or.1 (List.mem_cons.not.1 hs)
    rw [splitAround, if_neg (Ne.symm hc), ih hs]

theorem splitAround_append {piece : List Char} (hp : separator ∉ piece) (cs : List Char) :
    splitAround separator (piece ++ separator :: cs) = piece :: splitAround separator cs := by
  induction piece with
  | nil => rw [List.nil_append, splitAround, if_pos rfl]
  | cons c piece ih =>
    obtain ⟨hc, hp⟩ := not_or.1 (List.mem_cons.not.1 hp)
    rw [List.cons_append, splitAround, if_neg (Ne.symm hc), ih hp]

/-- **The parts between separators** are found again in the whole that they make up. -/
theorem splitAround_joined {earlier : List (List Char)} {name : List Char}
    (he : ∀ piece ∈ earlier, separator ∉ piece) (hn : separator ∉ name) :
    splitAround separator (earlier.flatMap (· ++ [separator]) ++ name) = earlier ++ [name] := by
  induction earlier with
  | nil => exact splitAround_of_not_mem hn
  | cons piece earlier ih =>
    obtain ⟨hp, he⟩ := List.forall_mem_cons.1 he
    rw [List.flatMap_cons, List.append_assoc, List.append_assoc, List.singleton_append,
      splitAround_append hp, ih he, List.cons_append]

namespace Path

variable {p : Path} {n : Named} {earlier later : List (List Char)}

/-- The parts of a path around its file name. -/
structure Parted (p : Path) (n : Named) (earlier later : List (List Char)) : Prop where
  pieces_eq : p.pieces = earlier ++ n.name :: later
  later_empty : ∀ piece ∈ later, isEmptyPiece piece = true
  name_full : isEmptyPiece n.name = false
  name_ne : n.name ≠ parent
  before_eq : n.before = earlier.flatMap (· ++ ['/'])
  after_eq : n.after = later.flatMap ('/' :: ·)

/-- **A path around its file name**, which is the last part that is not empty. -/
theorem named?_eq_some_iff :
    p.named? = some n ↔ ∃ earlier later, p.Parted n earlier later := by
  constructor
  · intro hn
    unfold named? at hn
    split at hn
    · cases hn
    rename_i name earlier hdrop
    split at hn
    · cases hn
    rename_i hparent
    cases hn
    -- the parts behind the name are those that are dropped to find it
    have hsplit := List.takeWhile_append_dropWhile (p := isEmptyPiece) (l := p.pieces.reverse)
    have hfull := List.head_dropWhile_not isEmptyPiece (l := p.pieces.reverse) (by simp [hdrop])
    rw [hdrop] at hsplit
    refine ⟨earlier.reverse, (p.pieces.reverse.takeWhile isEmptyPiece).reverse, ?_, ?_, ?_, ?_,
      rfl, rfl⟩
    · simpa using (congrArg List.reverse hsplit).symm
    · exact fun piece hp => List.mem_takeWhile_imp (List.mem_reverse.1 hp)
    · simpa [hdrop] using hfull
    · simpa using hparent
  · rintro ⟨earlier, later, hp⟩
    have hreverse : p.pieces.reverse = later.reverse ++ n.name :: earlier.reverse := by
      rw [hp.pieces_eq]
      simp
    have hempty : ∀ piece ∈ later.reverse, isEmptyPiece piece = true :=
      fun piece hm => hp.later_empty piece (List.mem_reverse.1 hm)
    have hparent : (n.name == parent) = false := by simpa using hp.name_ne
    unfold named?
    rw [hreverse, List.dropWhile_append_of_pos hempty, List.takeWhile_append_of_pos hempty,
      List.dropWhile_cons_of_neg (by simp [hp.name_full]),
      List.takeWhile_cons_of_neg (by simp [hp.name_full])]
    simp only [hparent, Bool.false_eq_true, if_false, List.append_nil, List.reverse_reverse]
    rw [← hp.before_eq, ← hp.after_eq]

/-! ## Extensions -/

/-- A file name is put together from its stem and its extension, which holds no dot. -/
theorem splitName_some {name stem old : List Char} (h : splitName name = (stem, some old)) :
    name = stem ++ '.' :: old ∧ '.' ∉ old := by
  unfold splitName at h
  split at h
  · rename_i dot c rest hdrop
    obtain ⟨rfl, hold⟩ := Prod.mk.inj h
    obtain rfl := Option.some.inj hold
    -- the reversed name is cut at its first dot, which is the last of the name
    have hdot : dot = '.' := by
      have hhead := List.head_dropWhile_not (· != '.') (l := name.reverse) (by rw [hdrop]; nofun)
      simpa [hdrop] using hhead
    have hsplit := List.takeWhile_append_dropWhile (p := (· != '.')) (l := name.reverse)
    rw [hdrop, hdot] at hsplit
    have hreverse := congrArg List.reverse hsplit
    refine ⟨by simpa using hreverse.symm, fun hmem => ?_⟩
    have hnot := List.mem_takeWhile_imp (List.mem_reverse.1 hmem)
    simp at hnot
  · cases h

theorem splitName_none {name stem : List Char} (h : splitName name = (stem, none)) :
    stem = name := by
  unfold splitName at h
  split at h
  · cases h
  · cases h
    rfl

/-- The stem is a beginning of the name. -/
theorem splitName_stem (name : List Char) : (splitName name).1 <+: name := by
  cases hsplit : splitName name with
  | mk stem old =>
  cases old with
  | none =>
    obtain rfl := splitName_none hsplit
    exact List.prefix_rfl
  | some old =>
    rw [(splitName_some hsplit).1]
    exact List.prefix_append ..

theorem splitName_twoDots {rest : List Char} (hr : '.' ∉ rest) :
    splitName ('.' :: '.' :: rest) = (['.'], some rest) := by
  have hkept : ∀ c ∈ rest.reverse, (c != '.') = true := by
    intro c hc
    have hne : c ≠ '.' := fun h => hr (h ▸ List.mem_reverse.1 hc)
    simpa using hne
  have hreverse : ('.' :: '.' :: rest).reverse = rest.reverse ++ ['.', '.'] := by simp
  unfold splitName
  rw [hreverse, List.dropWhile_append_of_pos hkept, List.takeWhile_append_of_pos hkept]
  simp

/-- The name with another extension is another name, if that extension has a dot in it. -/
theorem splitName_ne {extension : List Char} (hdot : '.' ∈ extension) (name : List Char) :
    (splitName name).1 ++ '.' :: extension ≠ name := by
  cases hsplit : splitName name with
  | mk stem old =>
  intro heq
  cases old with
  | none =>
    rw [splitName_none hsplit] at heq
    simpa using congrArg List.length heq
  | some old =>
    obtain ⟨hname, hold⟩ := splitName_some hsplit
    rw [hname] at heq
    -- the extensions would be the same, but the old one holds no dot
    obtain rfl := (List.cons.inj (List.append_cancel_left heq)).2
    exact hold hdot

/-- A name that starts with two dots and has no third, with nothing behind it. -/
def Overdotted (p : Path) : Prop :=
  ∃ n, p.named? = some n ∧ n.after = [] ∧ ∃ rest, n.name = '.' :: '.' :: rest ∧ '.' ∉ rest

theorem overdotted_iff (hn : p.named? = some n) :
    p.Overdotted ↔
      (splitName n.name).1 = ['.'] ∧ (splitName n.name).2.isSome ∧ n.after = [] := by
  constructor
  · rintro ⟨n', hn', hafter, rest, hname, hrest⟩
    obtain rfl := Option.some.inj (hn.symm.trans hn')
    rw [hname, splitName_twoDots hrest]
    exact ⟨rfl, rfl, hafter⟩
  · rintro ⟨hstem, hold, hafter⟩
    obtain ⟨old, hold⟩ := Option.isSome_iff_exists.1 hold
    obtain ⟨hname, hdot⟩ := splitName_some (Prod.ext hstem hold)
    exact ⟨n, hn, hafter, old, hname, hdot⟩

/-- The parts of a path before its file name hold no slash, nor does the name. -/
theorem Parted.slashless (hp : p.Parted n earlier later) :
    (∀ piece ∈ earlier, '/' ∉ piece) ∧ '/' ∉ n.name := by
  have hpieces : ∀ piece ∈ p.pieces, '/' ∉ piece := fun piece hm => not_mem_splitAround hm
  rw [hp.pieces_eq, List.forall_mem_append, List.forall_mem_cons] at hpieces
  exact ⟨hpieces.1, hpieces.2.1⟩

variable {extension : String}

/-- **A path with another extension** has the parts of the path before its file name. -/
theorem Parted.pieces_withExtension (hp : p.Parted n earlier later)
    (hslash : '/' ∉ extension.toList) (ho : ¬p.Overdotted) :
    (p.withExtension extension).pieces =
      earlier ++ [(splitName n.name).1 ++ '.' :: extension.toList] := by
  have hn := named?_eq_some_iff.2 ⟨earlier, later, hp⟩
  obtain ⟨hearlier, hname⟩ := hp.slashless
  have hstem : '/' ∉ (splitName n.name).1 := fun h => hname ((splitName_stem _).mem h)
  rw [overdotted_iff hn] at ho
  rw [withExtension, hn]
  simp only
  rw [if_neg ho, pieces, String.toList_ofList, hp.before_eq, List.append_assoc]
  exact splitAround_joined hearlier (by simp [hstem, hslash])

/-- A path whose name starts with two dots and has no third is cut to the two dots. -/
theorem Parted.pieces_overdotted (hp : p.Parted n earlier later) (ho : p.Overdotted) :
    (p.withExtension extension).pieces = earlier ++ [parent] := by
  have hn := named?_eq_some_iff.2 ⟨earlier, later, hp⟩
  rw [withExtension, hn]
  simp only
  rw [if_pos ((overdotted_iff hn).1 ho), pieces, String.toList_ofList, hp.before_eq]
  exact splitAround_joined hp.slashless.1 (by decide)

/-- **A path with another extension** is beside the path. -/
theorem named?_withExtension (hn : p.named? = some n) (hslash : '/' ∉ extension.toList)
    (hfull : ∃ c ∈ extension.toList, c ≠ '.') (ho : ¬p.Overdotted) :
    (p.withExtension extension).named? =
      some ⟨n.before, (splitName n.name).1 ++ '.' :: extension.toList, []⟩ := by
  obtain ⟨earlier, later, hp⟩ := named?_eq_some_iff.1 hn
  obtain ⟨c, hc, hne⟩ := hfull
  have hmem : c ∈ (splitName n.name).1 ++ '.' :: extension.toList := by simp [hc]
  -- the new name is neither of those that are made of dots alone
  have hdots : ∀ dots : List Char, (∀ d ∈ dots, d = '.') →
      (splitName n.name).1 ++ '.' :: extension.toList ≠ dots :=
    fun dots hd heq => hne (hd c (heq ▸ hmem))
  refine named?_eq_some_iff.2 ⟨earlier, [], hp.pieces_withExtension hslash ho, by simp, ?_, ?_,
    hp.before_eq, rfl⟩
  · have hnil := hdots [] (by simp)
    have hdot := hdots ['.'] (by simp)
    simp only [isEmptyPiece, Bool.or_eq_false_iff, beq_eq_false_iff_ne]
    exact ⟨hnil, hdot⟩
  · exact hdots parent (by simp [parent])

theorem named?_overdotted (ho : p.Overdotted) : (p.withExtension extension).named? = none := by
  obtain ⟨n, hn, -⟩ := id ho
  obtain ⟨earlier, later, hp⟩ := named?_eq_some_iff.1 hn
  have hreverse : (p.withExtension extension).pieces.reverse = parent :: earlier.reverse := by
    rw [hp.pieces_overdotted ho]
    simp
  unfold named?
  rw [hreverse, List.dropWhile_cons_of_neg (by decide)]
  rfl

end Path

namespace Description

variable {p : Path} {n : Path.Named}

/-- **The description is kept beside the recording**, under a name of its own. -/
theorem pathFor_beside (hn : p.named? = some n) (ho : ¬p.Overdotted) :
    ∃ name, (pathFor p).named? = some ⟨n.before, name, []⟩ ∧ name ≠ n.name :=
  ⟨_, Path.named?_withExtension hn (by decide) ⟨'m', by decide, by decide⟩ ho,
    Path.splitName_ne (by decide) n.name⟩

/-- The description is not kept in the recording itself. -/
theorem pathFor_ne (hn : p.named? ≠ none) : pathFor p ≠ p := by
  obtain ⟨n, hn⟩ := Option.ne_none_iff_exists'.1 hn
  intro heq
  by_cases ho : p.Overdotted
  · have hnone : (pathFor p).named? = none := Path.named?_overdotted ho
    rw [heq, hn] at hnone
    cases hnone
  · obtain ⟨name, hbeside, hne⟩ := pathFor_beside hn ho
    rw [heq, hn] at hbeside
    exact hne (congrArg Path.Named.name (Option.some.inj hbeside)).symm

end Description

end Screencast
