import Screencast.Proofs.FrameTimes

/-!
# Which bytes are a record of frame times

Every byte of a record is determined by its times: the magic, the count, and eight bytes for each
time. So the reader accepts what the writer writes and nothing else. Other bytes are refused as a
failure of the storage, among them what is left of a record that was cut, a record with something
after it, and one whose count does not agree with the bytes that follow.

* `littleEndian_ofLittleEndian`: bytes that are read as a number are the bytes of that number.
* `Flawed`: bytes that are no record, by what is wrong with them.
* `encode_eq_of_begins`: no record begins another one.
* `records_discerned`: the main result.
-/

namespace Screencast

/-- **Bytes are the number that they are read as**, in as many bytes. -/
theorem littleEndian_ofLittleEndian (bs : Bytes) :
    littleEndian bs.length (ofLittleEndian bs) = bs := by
  induction bs with
  | nil => rfl
  | cons b bs ih =>
    have hb : b.toNat < 256 := b.toNat_lt
    have hlow : (b.toNat + 256 * ofLittleEndian bs) % 256 = b.toNat := by omega
    have hhigh : (b.toNat + 256 * ofLittleEndian bs) / 256 = ofLittleEndian bs := by omega
    rw [List.length_cons, ofLittleEndian, littleEndian, hlow, hhigh, ih, UInt8.ofNat_toNat]

theorem ofLittleEndian_lt (bs : Bytes) : ofLittleEndian bs < 256 ^ bs.length := by
  induction bs with
  | nil => decide
  | cons b bs ih =>
    have hb : b.toNat < 256 := b.toNat_lt
    rw [ofLittleEndian, List.length_cons, Nat.pow_succ]
    omega

namespace FrameTimes

/-- The number whose pattern a time of a record is, negative from `2 ^ 63` on. -/
def signed (t : UInt64) : Int := t.toInt64.toInt

theorem pattern_signed (t : UInt64) : pattern (signed t) = t.toNat := by
  have hbmod : signed t = (t.toNat : Int).bmod (2 ^ 64) := by
    simp [signed, Int64.toInt, BitVec.toInt_eq_toNat_bmod]
  have hmod : signed t % ((2 ^ 64 : Nat) : Int) = (t.toNat : Int) % ((2 ^ 64 : Nat) : Int) := by
    rw [hbmod, Int.bmod_emod]
  have hbound : t.toNat < 2 ^ 64 := t.toNat_lt
  rw [pattern]
  omega

/-- The times of a record that a list of times was written to are these times. -/
theorem ofInt_signed (t : UInt64) : UInt64.ofInt (signed t + 0) = t := by
  rw [Int.add_zero]
  show UInt64.ofNat (pattern (signed t)) = t
  rw [pattern_signed, UInt64.ofNat_toNat]

theorem map_ofInt_signed (ts : List UInt64) :
    (ts.map signed).map (fun t => UInt64.ofInt (t + 0)) = ts := by
  rw [List.map_map]
  exact (List.map_congr_left fun t _ => ofInt_signed t).trans (List.map_id ts)

/-! ## The times behind the count -/

theorem length_times (n : Nat) (bs : Bytes) : (times n bs).length = n := by
  induction n generalizing bs with
  | zero => rfl
  | succ n ih => rw [times, List.length_cons, ih]

/-- A time is written in the eight bytes that it was read from. -/
theorem littleEndian_pattern {bs : Bytes} (hbs : bs.length = timeWidth) :
    littleEndian timeWidth (pattern (signed (UInt64.ofNat (ofLittleEndian bs)) + 0)) = bs := by
  have hbound : ofLittleEndian bs < 2 ^ 64 := by
    have hlt := ofLittleEndian_lt bs
    rwa [hbs] at hlt
  rw [Int.add_zero, pattern_signed, UInt64.toNat_ofNat_of_lt' hbound, ← hbs,
    littleEndian_ofLittleEndian]

/-- Times that fill the bytes which they were read from are written as these bytes. -/
theorem flatMap_times {n : Nat} {bs : Bytes} (hbs : bs.length = n * timeWidth) :
    ((times n bs).map signed).flatMap
      (fun t => littleEndian timeWidth (pattern (t + 0))) = bs := by
  induction n generalizing bs with
  | zero =>
    rw [Nat.zero_mul] at hbs
    exact (List.eq_nil_of_length_eq_zero hbs).symm
  | succ n ih =>
    have hfirst : (bs.take timeWidth).length = timeWidth := by
      rw [List.length_take, hbs, Nat.succ_mul]
      omega
    have hrest : (bs.drop timeWidth).length = n * timeWidth := by
      rw [List.length_drop, hbs, Nat.succ_mul, Nat.add_sub_cancel]
    rw [times, List.map_cons, List.flatMap_cons, littleEndian_pattern hfirst, ih hrest,
      List.take_append_drop]

/-! ## Bytes that are no record -/

/-- **Bytes that are no record**, by what is wrong with them. -/
inductive Flawed : Bytes → Malformed → Prop
  | foreign {record : Bytes} (hm : ¬magic <+: record) : Flawed record .missingMagic
  | cut {body : Bytes} (hb : body.length < countWidth) : Flawed (magic ++ body) .truncatedCount
  | miscounted {count rest : Bytes} (hc : count.length = countWidth)
      (hr : rest.length ≠ ofLittleEndian count * timeWidth) :
      Flawed (magic ++ count ++ rest) (.wrongLength (ofLittleEndian count) rest.length)

theorem Flawed.decode_eq {record : Bytes} {m : Malformed} (hf : Flawed record m) :
    decode record = .error m := by
  cases hf with
  | foreign hm =>
    have hn : ¬magic.isPrefixOf record = true := fun h => hm (List.isPrefixOf_iff_prefix.1 h)
    rw [decode, if_neg hn]
  | @cut body hb =>
    have hmagic : magic.isPrefixOf (magic ++ body) = true :=
      List.isPrefixOf_iff_prefix.2 (List.prefix_append _ _)
    rw [decode, if_pos hmagic, List.drop_left]
    simp only [if_pos hb]
  | miscounted hc hr => rw [decode_parts hc, if_neg hr]

/-- Bytes are flawed, or they are written as the times that they are read as. -/
theorem flawed_or_encoded (record : Bytes) :
    (∃ m, Flawed record m) ∨ ∃ ts : List UInt64, ts.length < 2 ^ 32 ∧
      record = encode (ts.map signed) 0 := by
  by_cases hm : magic <+: record
  · obtain ⟨body, rfl⟩ := hm
    by_cases hb : body.length < countWidth
    · exact .inl ⟨_, .cut hb⟩
    have hcount : (body.take countWidth).length = countWidth := by
      rw [List.length_take]
      omega
    rw [← List.take_append_drop countWidth body, ← List.append_assoc]
    generalize body.take countWidth = count at hcount
    generalize body.drop countWidth = rest
    by_cases hr : rest.length = ofLittleEndian count * timeWidth
    · refine .inr ⟨times (ofLittleEndian count) rest, ?_, ?_⟩
      · have hlt := ofLittleEndian_lt count
        rw [hcount] at hlt
        rwa [length_times]
      · have hwritten : littleEndian countWidth (ofLittleEndian count) = count := by
          rw [← hcount, littleEndian_ofLittleEndian]
        rw [encode, List.length_map, length_times, hwritten, flatMap_times hr]
    · exact .inl ⟨_, .miscounted hcount hr⟩
  · exact .inl ⟨_, .foreign hm⟩

/-- **No record begins another one.** The counts of the two are at the same place, and the count
tells how long a record is. -/
theorem encode_eq_of_begins {ts us : List Int} {offset offset' : Int} (hts : ts.length < 2 ^ 32)
    (hus : us.length < 2 ^ 32) (hp : encode ts offset <+: encode us offset') :
    encode ts offset = encode us offset' := by
  have hcounts : littleEndian countWidth ts.length = littleEndian countWidth us.length := by
    obtain ⟨more, hmore⟩ := hp
    simp only [encode, List.append_assoc, List.append_cancel_left_eq] at hmore
    exact (List.append_inj hmore (by rw [length_littleEndian, length_littleEndian])).1
  have hlength : ts.length = us.length := by
    have hvalues := congrArg ofLittleEndian hcounts
    rw [ofLittleEndian_littleEndian, ofLittleEndian_littleEndian] at hvalues
    have hpower : 256 ^ countWidth = 2 ^ 32 := by decide
    rwa [hpower, Nat.mod_eq_of_lt hts, Nat.mod_eq_of_lt hus] at hvalues
  exact hp.eq_of_length (by rw [length_encode, length_encode, hlength])

/-! ## What is read -/

/-- The times of a record, or the failure that bytes are told as which are none. -/
def read (record : Bytes) : Outcome (List UInt64) := (decode record).mapError Malformed.failure

/-- Bytes that are refused as a failure of the storage. -/
def Refused (record : Bytes) : Prop :=
  ∃ f : Failure, f.stage = .storage ∧ read record = .error f

theorem Flawed.refused {record : Bytes} {m : Malformed} (hf : Flawed record m) :
    Refused record := by
  refine ⟨m.failure, rfl, ?_⟩
  rw [read, hf.decode_eq]
  rfl

theorem read_encode {ts : List UInt64} (hts : ts.length < 2 ^ 32) :
    read (encode (ts.map signed) 0) = .ok ts := by
  rw [read, decode_encode_of_lt (by rwa [List.length_map]), map_ofInt_signed]
  rfl

/-- **The reader undoes the writer and accepts nothing else.** -/
theorem read_eq_ok_iff {record : Bytes} {ts : List UInt64} :
    read record = .ok ts ↔ ts.length < 2 ^ 32 ∧ record = encode (ts.map signed) 0 := by
  constructor
  · intro hr
    rcases flawed_or_encoded record with ⟨m, hf⟩ | ⟨us, hus, rfl⟩
    · obtain ⟨f, -, hf⟩ := hf.refused
      cases hr.symm.trans hf
    · rw [read_encode hus] at hr
      cases hr
      exact ⟨hus, rfl⟩
  · rintro ⟨hts, rfl⟩
    exact read_encode hts

theorem refused_of_forall_ne {record : Bytes}
    (hn : ∀ ts : List UInt64, ts.length < 2 ^ 32 → record ≠ encode (ts.map signed) 0) :
    Refused record := by
  rcases flawed_or_encoded record with ⟨m, hf⟩ | ⟨ts, hts, hrecord⟩
  · exact hf.refused
  · exact absurd hrecord (hn ts hts)

/-- Of two records neither begins the other. -/
theorem read_eq_of_begins {record whole : Bytes} {ts us : List UInt64}
    (hr : read record = .ok ts) (hw : read whole = .ok us) (hp : record <+: whole) :
    record = whole := by
  obtain ⟨hts, rfl⟩ := read_eq_ok_iff.1 hr
  obtain ⟨hus, rfl⟩ := read_eq_ok_iff.1 hw
  exact encode_eq_of_begins (by rwa [List.length_map]) (by rwa [List.length_map]) hp

/-- What is not read is refused. -/
theorem refused_of_unread {record : Bytes} (hn : ∀ ts, read record ≠ .ok ts) : Refused record :=
  refused_of_forall_ne fun ts hts hrecord => hn ts (read_eq_ok_iff.2 ⟨hts, hrecord⟩)

/-- What is read as a record, and what is refused. -/
structure Discerned (record : Bytes) : Prop where
  accepted : ∀ ts, read record = .ok ts ↔
    ts.length < 2 ^ 32 ∧ record = encode (ts.map signed) 0
  refused : (∀ ts : List UInt64, ts.length < 2 ^ 32 → record ≠ encode (ts.map signed) 0) →
    Refused record
  cut : ∀ whole ts, read whole = .ok ts → record <+: whole → record ≠ whole → Refused record
  lengthened : ∀ whole ts, read whole = .ok ts → whole <+: record → whole ≠ record →
    Refused record
  miscounted : ∀ count rest : Bytes, record = magic ++ count ++ rest →
    count.length = countWidth → rest.length ≠ ofLittleEndian count * timeWidth → Refused record

/-- **The bytes of a record are all that is read as one.** Any bytes are read as some times exactly
if there are fewer than `2 ^ 32` of them and the bytes are what these times are written as, each
time taken as a signed number and not moved. All other bytes are refused as a failure of the
storage: so is a record that was cut anywhere, a record with anything after it, and one that counts
more or fewer times than it has. -/
theorem records_discerned (record : Bytes) : Discerned record where
  accepted := fun _ => read_eq_ok_iff
  refused := refused_of_forall_ne
  cut := fun _ _ hw hp hne =>
    refused_of_unread fun _ hr => hne (read_eq_of_begins hr hw hp)
  lengthened := fun _ _ hw hp hne =>
    refused_of_unread fun _ hr => hne (read_eq_of_begins hw hr hp)
  miscounted := fun count rest hrecord hc hr => by
    subst hrecord
    exact (Flawed.miscounted hc hr).refused

/-- A record of one time, which is negative as a signed number, and the same without its last
byte. -/
example : (read (encode [-2] 0)).toOption = some [18446744073709551614] ∧
    (read (encode [-2] 0).dropLast).toOption = none := by decide +kernel

end FrameTimes

end Screencast
