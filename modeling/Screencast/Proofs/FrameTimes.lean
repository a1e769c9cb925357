import Screencast.FrameTimes

/-!
# Reading the frame times back

A record gives the times back that it was made of, each moved by the offset and cut to 64 bits.

* `times_flatMap`: the times behind the count.
* `decode_parts`: the reader on magic, four bytes of count, and the rest.
* `decode_encode_of_lt`: a record whose count fits its field.
* `FrameTimes.Records`: a record of some times, by its length and by what it is read as.
* `times_read_back`: the main result, for a list of times and for a log.
-/

namespace Screencast.FrameTimes

variable {ts : List Int} {offset : Int}

/-- A time is read back as its 64-bit pattern. -/
theorem ofLittleEndian_pattern (t : Int) :
    UInt64.ofNat (ofLittleEndian (littleEndian timeWidth (pattern t))) = UInt64.ofInt t := by
  have hbound : pattern t < 256 ^ timeWidth := by
    unfold pattern timeWidth
    omega
  rw [ofLittleEndian_littleEndian, Nat.mod_eq_of_lt hbound]
  rfl

/-- The times of a record, one after another. -/
theorem times_flatMap (ts : List Int) (offset : Int) :
    times ts.length (ts.flatMap fun t => littleEndian timeWidth (pattern (t + offset))) =
      ts.map fun t => UInt64.ofInt (t + offset) := by
  induction ts with
  | nil => rfl
  | cons t ts ih =>
    have hwidth : (littleEndian timeWidth (pattern (t + offset))).length = timeWidth :=
      length_littleEndian _ _
    rw [List.flatMap_cons, List.length_cons, times, List.take_left' hwidth,
      List.drop_left' hwidth, ih, ofLittleEndian_pattern, List.map_cons]

theorem length_flatMap_times (ts : List Int) (offset : Int) :
    (ts.flatMap fun t => littleEndian timeWidth (pattern (t + offset))).length =
      ts.length * timeWidth := by
  induction ts with
  | nil => simp
  | cons t ts ih =>
    rw [List.flatMap_cons, List.length_append, ih, length_littleEndian, List.length_cons,
      Nat.succ_mul, Nat.add_comm]

/-- The reader on magic, a count and the rest. -/
theorem decode_parts {count : Bytes} (hcount : count.length = countWidth) (rest : Bytes) :
    decode (magic ++ count ++ rest) =
      if rest.length = ofLittleEndian count * timeWidth then
        .ok (times (ofLittleEndian count) rest)
      else .error (.wrongLength (ofLittleEndian count) rest.length) := by
  have hmagic : magic.isPrefixOf (magic ++ count ++ rest) = true := by
    rw [List.isPrefixOf_iff_prefix, List.append_assoc]
    exact List.prefix_append _ _
  have hfits : ¬(count ++ rest).length < countWidth := by
    rw [List.length_append, hcount]
    omega
  rw [decode, if_pos hmagic, List.append_assoc, List.drop_left]
  simp only [if_neg hfits, List.take_left' hcount, List.drop_left' hcount]

/-- **A record is read back** where the number of its times fits the four bytes of the count. -/
theorem decode_encode_of_lt (hts : ts.length < 2 ^ 32) :
    decode (encode ts offset) = .ok (ts.map fun t => UInt64.ofInt (t + offset)) := by
  have hcount : (littleEndian countWidth ts.length).length = countWidth :=
    length_littleEndian _ _
  have hread : ofLittleEndian (littleEndian countWidth ts.length) = ts.length := by
    rw [ofLittleEndian_littleEndian, Nat.mod_eq_of_lt]
    exact hts
  rw [encode, decode_parts hcount, hread, length_flatMap_times, if_pos rfl, times_flatMap]

/-! ## Records of times -/

/-- The bytes are a record of these times: magic, count and eight bytes for each, and they are read
as the moved times, in their order, modulo `2 ^ 64`. -/
structure Records (ts : List Int) (offset : Int) (record : Bytes) : Prop where
  length : record.length = 20 + 8 * ts.length
  decoded : ∃ sums : List UInt64, decode record = .ok sums ∧
    sums.map (fun v => (v.toNat : Int)) = ts.map fun t => (t + offset) % 2 ^ 64

/-- A pattern of 64 bits, read as a natural number. -/
theorem toNat_ofInt (t : Int) : ((UInt64.ofInt t).toNat : Int) = t % 2 ^ 64 := by
  have hbound : (t % 2 ^ 64).toNat < 2 ^ 64 := by omega
  rw [UInt64.ofInt, UInt64.toNat_ofNat_of_lt' hbound]
  exact Int.toNat_of_nonneg (by omega)

theorem length_encode (ts : List Int) (offset : Int) :
    (encode ts offset).length = 20 + 8 * ts.length := by
  have hmagic : magic.length = 16 := by decide
  rw [encode, List.length_append, List.length_append, length_flatMap_times, length_littleEndian,
    hmagic, countWidth, timeWidth, Nat.mul_comm]

/-- A log holds the times that were pushed, in their order. -/
theorem Log.entries_foldl (l : Log) (ts : List Int) :
    (ts.foldl Log.push l).entries = l.entries ++ ts := by
  induction ts generalizing l with
  | nil => exact (List.append_nil _).symm
  | cons t ts ih =>
    rw [List.foldl_cons, ih, push, List.append_assoc]
    rfl

theorem records_encode (hts : ts.length < 2 ^ 32) : Records ts offset (encode ts offset) where
  length := length_encode ts offset
  decoded := by
    refine ⟨_, decode_encode_of_lt hts, ?_⟩
    rw [List.map_map]
    exact List.map_congr_left fun t _ => toNat_ofInt (t + offset)

/-- **Decoding undoes encoding.** A record of fewer than `2 ^ 32` times is read as these times, each
moved by the offset and taken modulo `2 ^ 64`, whether it is made of a list or of a log into which
the times were pushed one after another. -/
theorem times_read_back (hts : ts.length < 2 ^ 32) :
    Records ts offset (encode ts offset) ∧
      Records ts offset ((ts.foldl Log.push Log.empty).record offset) := by
  have hlog : (ts.foldl Log.push Log.empty).record offset = encode ts offset := by
    rw [Log.record, Log.entries_foldl]
    rfl
  rw [hlog]
  exact ⟨records_encode hts, records_encode hts⟩

/-- Times before and after zero, moved so that one of the sums is negative. -/
theorem times_read_back_negative :
    let ts : List Int := [-7, 3, 9223372036854775807]
    ts.length < 2 ^ 32 ∧
      (decode (encode ts (-1))).toOption = some [18446744073709551608, 2, 9223372036854775806] ∧
      Records ts (-1) (encode ts (-1)) ∧
      Records ts (-1) ((ts.foldl Log.push Log.empty).record (-1)) :=
  ⟨by decide, by decide +kernel, times_read_back (by decide)⟩

end Screencast.FrameTimes
