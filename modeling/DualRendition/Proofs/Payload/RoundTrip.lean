import DualRendition.Payload
import DualRendition.Proofs.BigEndian
import DualRendition.Proofs.Metadata

/-!
# A written payload reads back

`Payload.write` chooses one of four forms: one or three channels, with a denominator in common or
not. `write_succeeds_and_reads_back` says that the choice loses nothing: the payload of a usable
record is read as exactly that record, whatever bytes follow it.

Structure: the reader recovers the form from the flags (`Form.ofFlags_flags`), the words from the
bytes (`takeWords_flatMap_bytes`), the fractions from the words (`fieldsOfWords_fieldWords`: a
common denominator is put back beside every numerator) and the record from the fractions
(`record_fields`: a single channel is put back in all three places).
-/

namespace DualRendition

@[simp] theorem Fraction.ofWords_words (r : Fraction) : Fraction.ofWords r.words = r := by
  simp [Fraction.ofWords, Fraction.words]

@[simp] theorem UnsignedFraction.ofWords_words (r : UnsignedFraction) :
    UnsignedFraction.ofWords r.words = r := rfl

namespace Payload

/-! ## The form -/

/-- The four flag bits tell the form. -/
theorem Form.ofFlags_flags (f : Form) : Form.ofFlags f.flags = f := by
  obtain ⟨_ | _, _ | _, _ | _, _ | _⟩ := f <;> decide

/-- As many fractions are written as the form announces. -/
theorem length_fields (m : Metadata) (f : Form) :
    (fields f.multiChannel m).length = f.fieldCount := by
  unfold fields Form.fieldCount
  cases f.multiChannel <;> rfl

/-! ## Fractions and words -/

/-- The denominator in common stands in every fraction. -/
theorem snd_eq_of_commonDenominator {written : List FieldWords} {d : UInt32}
    (h : commonDenominator? written = some d) : ∀ field ∈ written, field.2 = d := by
  cases written with
  | nil => simp [commonDenominator?] at h
  | cons first rest =>
    simp only [commonDenominator?] at h
    split at h
    next hall =>
      obtain rfl := Option.some.inj h
      intro field hfield
      rcases List.mem_cons.mp hfield with rfl | hrest
      · rfl
      · exact eq_of_beq (List.all_eq_true.mp hall field hrest)
    next => exact absurd h (by simp)

theorem length_fieldWords (common : Option UInt32) (written : List FieldWords) :
    (fieldWords common written).length =
      if common.isSome then 1 + written.length else 2 * written.length := by
  cases common with
  | some d => simp [fieldWords, Nat.add_comm]
  | none =>
    induction written with
    | nil => rfl
    | cons field rest ih =>
      simp only [fieldWords, List.flatMap_cons, List.length_append, List.length_cons] at ih ⊢
      simp only [Option.isSome_none, Bool.false_eq_true, if_false, List.length_nil] at ih ⊢
      omega

/-- Numerators and denominators that alternate are paired up again. -/
theorem pairs_flatMap (written : List FieldWords) :
    fieldsOfWords.pairs (written.flatMap fun field => [field.1, field.2]) = written := by
  induction written with
  | nil => rfl
  | cons field rest ih =>
    rw [List.flatMap_cons, List.cons_append, List.cons_append, List.nil_append]
    rw [fieldsOfWords.pairs, ih]

/-- Fractions survive as words when the denominator left out is the denominator of all of them. -/
theorem fieldsOfWords_fieldWords {f : Form} {common : Option UInt32} {written : List FieldWords}
    (hform : f.commonDenominator = common.isSome)
    (hcommon : ∀ d, common = some d → ∀ field ∈ written, field.2 = d) :
    fieldsOfWords f (fieldWords common written) = written := by
  cases common with
  | none =>
    simp only [fieldsOfWords, fieldWords, hform]
    exact pairs_flatMap written
  | some d =>
    simp only [fieldsOfWords, fieldWords, hform, Option.isSome_some, if_true, List.map_map]
    have hput : ∀ field ∈ written, ((fun w => (w, d)) ∘ fun field : FieldWords => field.1) field
        = field := by
      intro field hfield
      rw [← hcommon d rfl field hfield]
      rfl
    rw [List.map_congr_left hput, List.map_id']

/-! ## Fractions and the record -/

/-- A channel is recovered where its five fractions start. -/
theorem channelAt_append (before after : List FieldWords)
    (c : ChannelParameters Fraction UnsignedFraction) :
    channelAt (before ++ (channelFields c ++ after)) before.length = c := by
  simp [channelAt, channelFields, List.getD_eq_getElem?_getD]

/-- The record is recovered from its fractions when the form keeps what the fractions leave out:
the two flags, and that the three channels are the same. -/
theorem record_fields {m : Metadata} {f : Form} (hbase : f.useBaseColorSpace = m.useBaseColorSpace)
    (hbackward : f.backward = m.backward) (hmulti : f.multiChannel = !m.isSingleChannel) :
    record f (fields f.multiChannel m) = m := by
  have hbaseHeadroom : UnsignedFraction.ofWords ((fields f.multiChannel m).getD 0 (0, 0))
      = m.baseHeadroom := rfl
  have halternateHeadroom : UnsignedFraction.ofWords ((fields f.multiChannel m).getD 1 (0, 0))
      = m.alternateHeadroom := rfl
  have hchannels : (if f.multiChannel then
        ⟨channelAt (fields f.multiChannel m) 2, channelAt (fields f.multiChannel m) 7,
          channelAt (fields f.multiChannel m) 12⟩
      else .replicate (channelAt (fields f.multiChannel m) 2)) = m.channels := by
    let headrooms := [m.baseHeadroom.words, m.alternateHeadroom.words]
    cases hsingle : m.isSingleChannel with
    | true =>
      rw [hmulti, hsingle]
      have hred : channelAt (fields false m) 2 = m.channels.red :=
        channelAt_append headrooms [] m.channels.red
      show Rgb.replicate (channelAt (fields false m) 2) = m.channels
      rw [hred]
      exact (Rgb.eq_replicate_of_isUniform hsingle).symm
    | false =>
      rw [hmulti, hsingle]
      have hred : channelAt (fields true m) 2 = m.channels.red :=
        channelAt_append headrooms _ m.channels.red
      have hgreen : channelAt (fields true m) 7 = m.channels.green :=
        channelAt_append (headrooms ++ channelFields m.channels.red) _ m.channels.green
      have hblue : channelAt (fields true m) 12 = m.channels.blue :=
        channelAt_append (headrooms ++ channelFields m.channels.red ++
          channelFields m.channels.green) [] m.channels.blue
      show (⟨channelAt (fields true m) 2, channelAt (fields true m) 7,
        channelAt (fields true m) 12⟩ : Rgb _) = m.channels
      rw [hred, hgreen, hblue]
  unfold record
  rw [hbaseHeadroom, halternateHeadroom, hchannels, hbase, hbackward]

/-! ## Reading what was written -/

/-- The words behind the flags of a written record. -/
def body (m : Metadata) : List UInt32 :=
  let written := fields (!m.isSingleChannel) m
  fieldWords (commonDenominator? written) written

/-- The body is as long as the form announces. -/
theorem length_body (m : Metadata) : (body m).length = (form m).wordCount := by
  unfold body
  rw [length_fieldWords, Form.wordCount, ← length_fields m (form m)]
  rfl

/-- The reader finds the form and the body of a written record, and stops where they end. -/
theorem split_encode (m : Metadata) (rest : List UInt8) :
    split (encode m ++ rest) = .ok (form m, body m) := by
  have htake : BigEndian.takeWords (Form.ofFlags (form m).flags).wordCount
      ((body m).flatMap BigEndian.bytes ++ rest) = some (body m, rest) := by
    rw [Form.ofFlags_flags, ← length_body, BigEndian.takeWords_flatMap_bytes]
  have hbytes : encode m ++ rest = 0 :: 0 :: 0 :: 0 :: 0 :: (form m).flags ::
      ((body m).flatMap BigEndian.bytes ++ rest) := rfl
  rw [hbytes]
  unfold split
  dsimp only
  rw [if_pos ⟨rfl, rfl⟩, htake, Form.ofFlags_flags]

/-- A usable record is read back from its bytes, whatever follows them. -/
theorem read_encode {m : Metadata} (h : m.validate = .ok ()) (rest : List UInt8) :
    read (encode m ++ rest) = .ok m := by
  have hfields : fieldsOfWords (form m) (body m) = fields (form m).multiChannel m :=
    fieldsOfWords_fieldWords rfl fun _ hd => snd_eq_of_commonDenominator hd
  unfold read
  rw [split_encode]
  dsimp only
  rw [hfields, record_fields rfl rfl rfl, Metadata.validate_eq_ok_iff.mp h]

/-- A payload is written exactly for usable records, and it is their encoding. -/
theorem write_eq_ok_iff {m : Metadata} {payload : List UInt8} :
    write m = .ok payload ↔ m.validate = .ok () ∧ payload = encode m := by
  unfold write
  rw [Outcome.bind_eq_ok]
  refine ⟨?_, ?_⟩
  · intro h
    obtain ⟨_, hvalid, hpayload⟩ := h
    exact ⟨hvalid, (Outcome.pure_eq_ok.mp hpayload).symm⟩
  · intro h
    obtain ⟨hvalid, rfl⟩ := h
    exact ⟨(), hvalid, rfl⟩

/-- A payload can be written for a record exactly when it passes its check. -/
theorem exists_write_iff {m : Metadata} :
    (∃ payload, write m = .ok payload) ↔ m.validate = .ok () := by
  constructor
  · intro h
    obtain ⟨payload, hwrite⟩ := h
    exact (write_eq_ok_iff.mp hwrite).1
  · intro h
    exact ⟨_, write_eq_ok_iff.mpr ⟨h, rfl⟩⟩

/-- What a payload stands for passes the check. -/
theorem validate_of_read {payload : List UInt8} {m : Metadata}
    (h : read payload = .ok m) : m.validate = .ok () := by
  unfold read at h
  split at h
  next => cases h
  next =>
    dsimp only at h
    split at h
    next hfault =>
      obtain rfl := Except.ok.inj h
      exact Metadata.validate_eq_ok_iff.mpr hfault
    next => cases h

/-- What was written is read back. -/
theorem read_of_write {m : Metadata} {payload : List UInt8} (h : write m = .ok payload) :
    read payload = .ok m := by
  obtain ⟨hvalid, rfl⟩ := write_eq_ok_iff.mp h
  have hread := read_encode hvalid []
  rw [List.append_nil] at hread
  exact hread

/-- **A payload keeps its record.** Exactly the usable records are written. The payload of a record
is read as that record in every field, also in front of other bytes, and no other record has the
same payload. -/
theorem write_succeeds_and_reads_back (m : Metadata) :
    ((∃ payload, write m = .ok payload) ↔ m.validate = .ok ()) ∧
    ∀ payload, write m = .ok payload →
      (∀ rest, read (payload ++ rest) = .ok m) ∧
      ∀ m', write m' = .ok payload → m' = m := by
  refine ⟨⟨?_, ?_⟩, ?_⟩
  · intro h
    obtain ⟨payload, hpayload⟩ := h
    exact (write_eq_ok_iff.mp hpayload).1
  · intro hvalid
    exact ⟨encode m, write_eq_ok_iff.mpr ⟨hvalid, rfl⟩⟩
  · intro payload hpayload
    obtain ⟨hvalid, rfl⟩ := write_eq_ok_iff.mp hpayload
    refine ⟨read_encode hvalid, ?_⟩
    intro m' hpayload'
    obtain ⟨hvalid', hsame⟩ := write_eq_ok_iff.mp hpayload'
    -- both records are what is read from the one payload
    have hm := read_encode hvalid []
    have hm' := read_encode hvalid' []
    rw [hsame, hm'] at hm
    exact Except.ok.inj hm

/-- A record in need of the longest form: channels and denominators all differ. -/
def mixed : Metadata where
  backward := true
  useBaseColorSpace := false
  baseHeadroom := ⟨0, 1⟩
  alternateHeadroom := ⟨6, 2⟩
  channels :=
    ⟨⟨⟨-1, 1⟩, ⟨11, 1⟩, ⟨1, 1⟩, ⟨0, 1000⟩, ⟨0, 1000⟩⟩,
     ⟨⟨-1, 2⟩, ⟨12, 2⟩, ⟨1, 2⟩, ⟨10, 1000⟩, ⟨-20, 1000⟩⟩,
     ⟨⟨-2147483648, 3⟩, ⟨13, 3⟩, ⟨4294967295, 3⟩, ⟨20, 1000⟩, ⟨-40, 1000⟩⟩⟩

theorem write_mixed_reads_back :
    ∃ payload, write mixed = .ok payload ∧ ∀ rest, read (payload ++ rest) = .ok mixed := by
  obtain ⟨hwritten, hread⟩ := write_succeeds_and_reads_back mixed
  obtain ⟨payload, hpayload⟩ := hwritten.mpr rfl
  exact ⟨payload, hpayload, (hread payload hpayload).1⟩

end Payload

end DualRendition
