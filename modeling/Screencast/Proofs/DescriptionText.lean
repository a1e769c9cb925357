import Screencast.Proofs.JsonText
import Screencast.Proofs.NumbersReadBack
import Screencast.Recording.Files

/-!
# Reading a description back

The text of a description gives the description back, if its frame rate is finite. What is no finite
number is written as `null`, which no reader of a number takes. The length in seconds is read as its
digits are.

* `Numeral.proper_ofNat`, `Binary.proper_numeral`: written numbers have the form that is read.
* `Json.fields?_record`: the fields of a written record.
* `Description.ofText?_toText`: the description that its text is read as.
* `ofUtf8?_utf8`: the bytes of a text.
-/

namespace Screencast

/-! ## Written numbers -/

namespace Numeral

/-- Digits with a zero at their start stand for zero. -/
theorem proper_ofNat (n : ℕ) : (ofNat n).Proper := by
  rcases Nat.eq_zero_or_pos n with rfl | hn
  · exact ⟨0, [], by rw [ofNat, digits]; rfl, fun _ => rfl⟩
  · obtain ⟨d, ds, hdigits, hd⟩ := digits_eq_cons hn
    exact ⟨d, ds, hdigits, fun h => absurd h hd⟩

end Numeral

theorem Layout.proper_numeral (l : Layout) (negative : Bool) {d : Decimal} (hd : d.Led) :
    (l.numeral negative d).Proper := by
  obtain ⟨a, as, hdigits, ha⟩ := hd
  unfold Layout.numeral
  simp only [hdigits]
  split_ifs with hpositional hsmall hwhole
  · exact ⟨0, [], rfl, fun _ => rfl⟩
  · exact ⟨a, _, rfl, fun h => absurd h ha⟩
  · obtain ⟨k, hk⟩ : ∃ k, d.point.toNat = k + 1 := ⟨d.point.toNat - 1, by omega⟩
    exact ⟨a, as.take k, by simp [hk], fun h => absurd h ha⟩
  · exact ⟨a, [], rfl, fun _ => rfl⟩

theorem Binary.proper_numeral {f : BinaryFormat} (x : Binary f) (l : Layout) :
    (x.numeral l).Proper := by
  unfold Binary.numeral
  split_ifs with h0
  · exact ⟨0, [], rfl, fun _ => rfl⟩
  · exact l.proper_numeral _ (shortened (by simpa [isZero] using h0) l.tie).1

namespace Json

theorem proper_ofSingle (x : Single) : (ofSingle x).Proper := by
  unfold ofSingle
  split_ifs
  · exact x.proper_numeral _
  · trivial

theorem proper_ofDouble (x : Double) : (ofDouble x).Proper := by
  unfold ofDouble
  split_ifs
  · exact x.proper_numeral _
  · trivial

/-! ## Fields -/

theorem word?_ofWord (n : UInt32) : word? (ofWord n) = some n := by
  have hn := n.toNat_lt
  simp only [word?, ofWord, nat?, ofNat, Numeral.toNat?_ofNat]
  rw [Option.filter_some_pos (by simp; omega)]
  simp

theorem longWord?_ofNat (n : UInt64) : longWord? (ofNat n.toNat) = some n := by
  have hn := n.toNat_lt
  simp only [longWord?, nat?, ofNat, Numeral.toNat?_ofNat]
  rw [Option.filter_some_pos (by simp; omega)]
  simp

/-- What may be missing is read back if nothing that is there is written as missing. -/
theorem option?_ofOption {α : Type} {read : Json → Option α} {write : α → Json}
    (hread : ∀ a, read (write a) = some a) (hnull : ∀ a, write a ≠ .null) (o : Option α) :
    option? read (ofOption write o) = some o := by
  cases o with
  | none => rfl
  | some a => rw [ofOption, option?, hread, Option.map_some]; exact hnull a

theorem string?_text (s : String) : string? (text s) = some s := rfl

theorem bool?_bool (b : Bool) : bool? (.bool b) = some b := rfl

section Record

variable {names : List String} {members : List (String × Json)}

theorem named?_record (hnames : ∀ m ∈ members, m.1 ∈ names) (hn : (members.map Prod.fst).Nodup) :
    named? names (members.map fun (name, v) => (some name, v)) = some members := by
  induction members with
  | nil => rfl
  | cons m ms ih =>
    obtain ⟨hm, hms⟩ := List.forall_mem_cons.1 hnames
    rw [List.map_cons, List.nodup_cons] at hn
    have hfresh : ms.any (fun m' => m'.1 == m.1) = false := by
      rw [List.any_eq_false]
      intro m' hm' heq
      exact hn.1 (List.mem_map.2 ⟨m', hm', by simpa using heq⟩)
    simp [named?, ih hms hn.2, hm, hfresh]

/-- **The fields of a record** are those that were written. -/
theorem fields?_record (hnames : members.map Prod.fst = names) (hn : names.Nodup) :
    ∃ r, (record members).fields? names = some r ∧
      ∀ m ∈ members, r.find m.1 = some m.2 := by
  subst hnames
  refine ⟨⟨fun name => members.lookup name, false⟩, ?_, fun m hm => ?_⟩
  · rw [record, fields?, named?_record (fun m hm => List.mem_map_of_mem hm) hn]
    rfl
  · induction members with
    | nil => cases hm
    | cons m' ms ih =>
      rw [List.map_cons, List.nodup_cons] at hn
      change List.lookup m.1 (m' :: ms) = _
      rcases List.mem_cons.1 hm with rfl | hm
      · exact List.lookup_cons_self
      · have hne : m.1 ≠ m'.1 := fun h => hn.1 (h ▸ List.mem_map_of_mem hm)
        rw [List.lookup_cons, beq_false_of_ne hne]
        exact ih hn.2 hm

theorem proper_record (hproper : ∀ m ∈ members, m.2.Proper) : (record members).Proper := by
  change ProperMembers _
  induction members with
  | nil => trivial
  | cons m ms ih =>
    obtain ⟨hm, hms⟩ := List.forall_mem_cons.1 hproper
    exact ⟨rfl, hm, ih hms⟩

end Record

end Json

namespace Fields

variable {r : Fields} {name : String} {j : Json} {α β : Type} {read : Json → Option α} {a : α}

/-- A field that is there, whatever stands for its absence. -/
theorem get_bind (hj : r.find name = some j) (ha : read j = some a) (absent : Option α)
    (k : α → Option β) : (r.get name absent read >>= k) = k a := by
  rw [get, hj]
  exact congrArg (Option.bind · k) ha

theorem required_bind (hj : r.find name = some j) (ha : read j = some a) (k : α → Option β) :
    (r.required name read >>= k) = k a := get_bind hj ha none k

theorem required_bind_none (hj : r.find name = some j) (ha : read j = none) (k : α → Option β) :
    (r.required name read >>= k) = none := by
  rw [required, get, hj]
  exact congrArg (Option.bind · k) ha

theorem optional_bind {o : Option α} (hj : r.find name = some j)
    (ho : Json.option? read j = some o) (k : Option α → Option β) :
    (r.optional name read >>= k) = k o := get_bind hj ho _ k

end Fields

/-! ## Descriptions -/

theorem Ending.ofJson?_toJson (r : Ending) : ofJson? r.toJson = some r := by cases r <;> rfl

namespace Description

theorem proper_toJson (d : Description) : d.toJson.Proper := by
  refine Json.proper_record ?_
  have hpath : ∀ o : Option String, (Json.ofOption Json.text o).Proper := fun o => by
    cases o <;> trivial
  have hreason : d.reason.toJson.Proper := rfl
  have hformat : d.format.toJson.Proper := rfl
  simp only [List.forall_mem_cons]
  exact ⟨rfl, rfl, hformat, hpath _, Numeral.proper_ofNat _, Numeral.proper_ofNat _,
    Numeral.proper_ofNat _, Json.proper_ofSingle _, trivial, trivial, Numeral.proper_ofNat _,
    Json.proper_ofDouble _, hreason, hpath _, trivial, by simp⟩

/-- What the object of a description is read as. -/
theorem ofJson?_toJson (d : Description) : ofJson? d.toJson =
    if d.frameRate.isFinite then
      (Json.double? (Json.ofDouble d.seconds)).map fun seconds => { d with seconds }
    else none := by
  obtain ⟨r, hr, hfind⟩ : ∃ r, d.toJson.fields? fieldNames = some r ∧ _ :=
    Json.fields?_record rfl (by decide)
  simp only [List.forall_mem_cons] at hfind
  obtain ⟨hid, hcreatedAt, hformat, hpath, hwidth, hheight, hbitRate, hframeRate, hrotated,
    hmonotonicTime, hframeCount, hseconds, hreason, hchecksum, hframeTimes, -⟩ := hfind
  have htext := fun o => Json.option?_ofOption Json.string?_text (by simp [Json.text]) o
  rw [ofJson?, hr, Option.bind_eq_bind, Option.bind_some,
    Fields.required_bind hid (Json.string?_text _),
    Fields.required_bind hcreatedAt (Json.string?_text _),
    Fields.required_bind hformat (Format.ofJson?_toJson _),
    Fields.optional_bind hpath (htext _),
    Fields.required_bind hwidth (Json.word?_ofWord _),
    Fields.required_bind hheight (Json.word?_ofWord _),
    Fields.required_bind hbitRate (Json.word?_ofWord _)]
  have hframeRate' := Json.single?_ofSingle d.frameRate
  split_ifs at hframeRate' ⊢ with hfinite
  · rw [Fields.required_bind hframeRate hframeRate',
      Fields.required_bind hrotated (Json.bool?_bool _),
      Fields.get_bind hmonotonicTime (Json.bool?_bool _),
      Fields.required_bind hframeCount (Json.longWord?_ofNat _)]
    cases hread : Json.double? (Json.ofDouble d.seconds) with
    | none => rw [Fields.required_bind_none hseconds hread, Option.map_none]
    | some seconds =>
      rw [Fields.required_bind hseconds hread,
        Fields.required_bind hreason (Ending.ofJson?_toJson _),
        Fields.optional_bind hchecksum (htext _),
        Fields.required_bind hframeTimes (Json.bool?_bool _)]
      rfl
  · rw [Fields.required_bind_none hframeRate hframeRate']

/-- **A description is read back** if its frame rate is finite, its length as the digits of the
seconds are read. -/
theorem ofText?_toText (d : Description) : ofText? d.toText =
    if d.frameRate.isFinite then
      (Json.double? (Json.ofDouble d.seconds)).map fun seconds => { d with seconds }
    else none := by
  rw [ofText?, toText, Json.read?_indented d.proper_toJson, Option.bind_some, ofJson?_toJson]

end Description

/-! ## Bytes -/

theorem toList_loop (bytes : ByteArray) (i : ℕ) (r : List UInt8) :
    ByteArray.toList.loop bytes i r = r.reverse ++ bytes.data.toList.drop i := by
  fun_induction ByteArray.toList.loop bytes i r with
  | case1 i r h ih =>
    have hi : i < bytes.data.toList.length := by simpa using h
    rw [ih, List.drop_eq_getElem_cons hi]
    simp [ByteArray.get!, h]
  | case2 i r h =>
    rw [List.drop_eq_nil_of_le (by simpa using Nat.le_of_not_lt h)]
    simp

/-- **A text is read back from its bytes.** -/
theorem ofUtf8?_utf8 (s : String) : ofUtf8? (utf8 s) = some s := by
  have hbytes : ByteArray.mk (utf8 s).toArray = s.toByteArray := by
    rw [utf8, String.toUTF8, ByteArray.toList, toList_loop]
    simp
  rw [ofUtf8?, hbytes, String.fromUTF8?, dif_pos s.isValidUTF8]
  rfl

end Screencast
