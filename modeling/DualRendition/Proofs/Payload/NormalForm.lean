import DualRendition.Proofs.Payload.Grammar

/-!
# The normal form of a payload

Many byte strings stand for one record: equal channels may be written three times, a denominator in
common with every fraction, and versions, reserved flags and a tail are ignored. `Payload.write`
picks one of them. `write_normalizes` says that it is the shortest, and which of the others begin
with it: just the `Normal` ones, in which nothing is repeated and nothing ignored is set.

Structure: a form decides how the record is spread over words. What was read has all of its
fractions in the record (`fields_of_read`), so the form that the record is written in needs no more
channels and no more denominators than the form that it was read from (`length_encode_le`). Where
the two forms are the same, the words are as well (`body_eq_wordsOf`).
-/

namespace DualRendition

namespace Payload

/-! ## Fractions -/

/-- Words that were paired up alternate again. -/
theorem flatMap_pairs (count : Nat) : ∀ {words : List UInt32}, words.length = 2 * count →
    (fieldsOfWords.pairs words).flatMap (fun field => [field.1, field.2]) = words := by
  induction count with
  | zero =>
    intro words hlength
    obtain rfl := List.length_eq_zero_iff.mp hlength
    rfl
  | succ count ih =>
    intro words hlength
    match words, hlength with
    | numerator :: denominator :: rest, hlength =>
      have hrest : rest.length = 2 * count := by
        simp only [List.length_cons] at hlength
        omega
      rw [fieldsOfWords.pairs, List.flatMap_cons, ih hrest]
      rfl
    | [], hlength | [_], hlength =>
      simp only [List.length_cons, List.length_nil] at hlength
      omega

/-- Some fractions have a denominator in common exactly when one can be named. -/
theorem commonDenominator?_isSome_iff {written : List FieldWords} (hne : written ≠ []) :
    (commonDenominator? written).isSome = true ↔ ∃ d, ∀ field ∈ written, field.2 = d := by
  constructor
  · intro h
    obtain ⟨d, hd⟩ := Option.isSome_iff_exists.mp h
    exact ⟨d, snd_eq_of_commonDenominator hd⟩
  · intro h
    obtain ⟨d, hd⟩ := h
    obtain ⟨first, rest, rfl⟩ := List.exists_cons_of_ne_nil hne
    have hall : rest.all (·.2 == first.2) = true := by
      rw [List.all_eq_true]
      intro field hfield
      rw [hd field (.tail _ hfield), hd first (.head _)]
      exact beq_self_eq_true d
    simp only [commonDenominator?, if_pos hall]
    rfl

theorem fields_ne_nil (multiChannel : Bool) (m : Metadata) : fields multiChannel m ≠ [] :=
  List.cons_ne_nil _ _

/-- The first channel is written in any case. -/
theorem fields_subset {multi multi' : Bool} (h : multi = true → multi' = true) (m : Metadata) :
    fields multi m ⊆ fields multi' m := by
  cases multi with
  | true =>
    rw [h rfl]
    exact List.Subset.refl _
  | false =>
    cases multi' with
    | false => exact List.Subset.refl _
    | true =>
      refine List.append_subset.mpr ⟨List.subset_append_left _ _, ?_⟩
      refine List.subset_append_of_subset_right _ ?_
      exact List.subset_append_left _ _

/-- A record made of as many fractions as its form announces has these fractions. -/
theorem fields_record {f : Form} {written : List FieldWords} (h : written.length = f.fieldCount) :
    fields f.multiChannel (record f written) = written := by
  have hget : fields f.multiChannel (record f written) =
      (List.range f.fieldCount).map fun j => written.getD j (0, 0) := by
    unfold record Form.fieldCount
    cases f.multiChannel <;> rfl
  rw [hget]
  refine List.ext_getElem (by simp [h]) ?_
  intro j hj hj'
  simp [hj']

/-- Words make up as many fractions as the form announces. -/
theorem length_fieldsOfWords (payload : List UInt8) :
    (fieldsOfWords (formOf payload) (wordsOf payload)).length = (formOf payload).fieldCount := by
  rw [wordsOf, fieldsOfWords_wordAt, List.length_map, List.length_range]

/-- Fractions behind one denominator have that one in common. -/
theorem commonDenominator?_map {numerators : List UInt32} (hne : numerators ≠ [])
    (denominator : UInt32) :
    commonDenominator? (numerators.map (·, denominator)) = some denominator := by
  obtain ⟨numerator, rest, rfl⟩ := List.exists_cons_of_ne_nil hne
  simp [commonDenominator?]

/-- Fractions are written as the words they were made of when the form leaves out their denominator
wherever it can. -/
theorem fieldWords_fieldsOfWords {f : Form} {words : List UInt32}
    (hlength : words.length = f.wordCount)
    (hcommon : (commonDenominator? (fieldsOfWords f words)).isSome = f.commonDenominator) :
    fieldWords (commonDenominator? (fieldsOfWords f words)) (fieldsOfWords f words) = words := by
  unfold Form.wordCount at hlength
  unfold fieldsOfWords at hcommon ⊢
  by_cases hform : f.commonDenominator = true
  · rw [if_pos hform] at hlength ⊢
    rw [Form.fieldCount_eq] at hlength
    match words, hlength with
    | denominator :: numerators, hlength =>
      have hne : numerators ≠ [] := by
        rintro rfl
        simp only [List.length_cons, List.length_nil] at hlength
        omega
      dsimp only
      rw [commonDenominator?_map hne]
      show denominator :: (numerators.map (·, denominator)).map (·.1) = _
      rw [List.map_map]
      exact congrArg _ (List.map_id _)
    | [], hlength =>
      simp only [List.length_nil] at hlength
      omega
  · rw [if_neg hform] at hlength hcommon ⊢
    rw [Bool.eq_false_iff.mpr hform, Option.isSome_eq_false_iff, Option.isNone_iff_eq_none]
      at hcommon
    rw [hcommon]
    exact flatMap_pairs f.fieldCount hlength

/-! ## The form of what was read -/

/-- The common denominator is left out exactly when there is one. -/
theorem form_commonDenominator_iff {m : Metadata} :
    (form m).commonDenominator = true ↔
      ∃ d, ∀ field ∈ fields (!m.isSingleChannel) m, field.2 = d :=
  commonDenominator?_isSome_iff (fields_ne_nil _ m)

section Read

variable {payload : List UInt8} {m : Metadata}

/-- The fractions that were read are those of the record. -/
theorem fields_of_read (h : read payload = .ok m) :
    fields (formOf payload).multiChannel m =
      fieldsOfWords (formOf payload) (wordsOf payload) := by
  obtain ⟨-, rfl⟩ := read_eq_ok_iff.mp h
  exact fields_record (length_fieldsOfWords payload)

/-- One channel was read for three. -/
theorem isSingleChannel_of_read (h : read payload = .ok m)
    (hmulti : (formOf payload).multiChannel = false) : m.isSingleChannel = true := by
  obtain ⟨-, rfl⟩ := read_eq_ok_iff.mp h
  show (record _ _).channels.isUniform = true
  unfold record
  rw [hmulti]
  exact Rgb.isUniform_replicate _

/-- Three channels are written only if three were read. -/
theorem multiChannel_of_form (h : read payload = .ok m) (hmulti : (form m).multiChannel = true) :
    (formOf payload).multiChannel = true := by
  refine Bool.of_not_eq_false fun hfalse => ?_
  have hsingle := isSingleChannel_of_read h hfalse
  simp [form, hsingle] at hmulti

/-- A denominator that was read once is written once. -/
theorem commonDenominator_form (h : read payload = .ok m)
    (hcommon : (formOf payload).commonDenominator = true) : (form m).commonDenominator = true := by
  have hfields : ∀ field ∈ fields (formOf payload).multiChannel m,
      field.2 = BigEndian.wordAt (payload.drop 6) 0 := by
    rw [fields_of_read h, wordsOf, fieldsOfWords_wordAt]
    intro field hfield
    obtain ⟨j, -, rfl⟩ := List.mem_map.mp hfield
    unfold fieldAt
    rw [if_pos hcommon]
  refine form_commonDenominator_iff.mpr ⟨_, fun field hfield => hfields field ?_⟩
  exact fields_subset (multiChannel_of_form h) m hfield

/-- A form with fewer channels, and a denominator in common wherever there was one, is no longer. -/
theorem Form.bodyLength_le {f f' : Form} (hmulti : f'.multiChannel = true → f.multiChannel = true)
    (hcommon : f.commonDenominator = true → f'.commonDenominator = true) :
    f'.bodyLength ≤ f.bodyLength := by
  have hchannels : f'.channelCount ≤ f.channelCount := by
    unfold channelCount
    by_cases h : f'.multiChannel = true
    · simp [h, hmulti h]
    · rw [if_neg h]
      split <;> decide
  unfold bodyLength
  by_cases h : f.commonDenominator = true
  · rw [if_pos h, if_pos (hcommon h)]
    omega
  · rw [if_neg h]
    split <;> omega

/-- What was read is written no longer. -/
theorem length_encode_le (h : read payload = .ok m) : (encode m).length ≤ payload.length := by
  obtain ⟨hgrammar, -⟩ := read_eq_ok_iff.mp h
  have hlength : (form m).bodyLength ≤ (formOf payload).bodyLength :=
    Form.bodyLength_le (multiChannel_of_form h) (commonDenominator_form h)
  have hbody := hgrammar.body
  rw [length_encode]
  omega

/-! ## Normal payloads -/

/-- Nothing that is ignored is set, and nothing is repeated that could be left out. -/
structure Normal (payload : List UInt8) (m : Metadata) : Prop where
  version : payload[0]? = some 0
  writer : payload[3]? = some 0 ∧ payload[4]? = some 0
  reserved : payload.getD 5 0 &&& 0xF0 = 0
  multiChannel : (formOf payload).multiChannel = true ↔ ¬∃ channel, m.channels = .replicate channel
  commonDenominator : (formOf payload).commonDenominator = true ↔
    ∃ d, ∀ field ∈ fields (!m.isSingleChannel) m, field.2 = d

theorem isSingleChannel_iff :
    m.isSingleChannel = true ↔ ∃ channel, m.channels = .replicate channel := by
  constructor
  · intro h
    exact ⟨_, Rgb.eq_replicate_of_isUniform h⟩
  · intro h
    obtain ⟨channel, hchannel⟩ := h
    show m.channels.isUniform = true
    rw [hchannel]
    exact Rgb.isUniform_replicate channel

theorem form_multiChannel_iff :
    (form m).multiChannel = true ↔ ¬∃ channel, m.channels = .replicate channel := by
  rw [← isSingleChannel_iff]
  simp [form]

/-- Flags without reserved bits are those of their form. -/
theorem Form.flags_ofFlags {b : UInt8} (h : b &&& 0xF0 = 0) : (Form.ofFlags b).flags = b := by
  have hall : ∀ n < 256, (UInt8.ofNat n) &&& 0xF0 = 0 →
      (Form.ofFlags (UInt8.ofNat n)).flags = UInt8.ofNat n := by
    decide +kernel
  have hb := hall b.toNat b.toNat_lt
  rw [UInt8.ofNat_toNat] at hb
  exact hb h

theorem Form.flags_and_reserved (f : Form) : f.flags &&& 0xF0 = 0 := by
  obtain ⟨_ | _, _ | _, _ | _, _ | _⟩ := f <;> decide

/-- A normal payload announces the form that its record is written in. -/
theorem Normal.formOf_eq (hnormal : Normal payload m) (h : read payload = .ok m) :
    formOf payload = form m := by
  obtain ⟨-, hm⟩ := read_eq_ok_iff.mp h
  have hmulti : (formOf payload).multiChannel = (form m).multiChannel :=
    Bool.eq_iff_iff.mpr (hnormal.multiChannel.trans form_multiChannel_iff.symm)
  have hbase : (formOf payload).useBaseColorSpace = (form m).useBaseColorSpace := by
    show _ = m.useBaseColorSpace
    rw [hm]
    rfl
  have hbackward : (formOf payload).backward = (form m).backward := by
    show _ = m.backward
    rw [hm]
    rfl
  have hcommon : (formOf payload).commonDenominator = (form m).commonDenominator :=
    Bool.eq_iff_iff.mpr (hnormal.commonDenominator.trans form_commonDenominator_iff.symm)
  calc formOf payload
      = ⟨(formOf payload).multiChannel, (formOf payload).useBaseColorSpace,
          (formOf payload).backward, (formOf payload).commonDenominator⟩ := rfl
    _ = form m := by rw [hmulti, hbase, hbackward, hcommon]

/-- Where the forms are the same, the record is written in the words that were read. -/
theorem body_eq_wordsOf (h : read payload = .ok m) (hform : formOf payload = form m) :
    body m = wordsOf payload := by
  have hwritten : fields (!m.isSingleChannel) m = fieldsOfWords (form m) (wordsOf payload) := by
    have hread := fields_of_read h
    rw [hform] at hread
    exact hread
  have hlength : (wordsOf payload).length = (form m).wordCount := by
    rw [← hform, wordsOf, List.length_map, List.length_range]
  unfold body
  dsimp only
  rw [hwritten]
  refine fieldWords_fieldsOfWords hlength ?_
  rw [← hwritten]
  rfl

theorem exists_cons_of_header (h : 6 ≤ payload.length) :
    ∃ version high low writer writer' flags behind,
      payload = version :: high :: low :: writer :: writer' :: flags :: behind := by
  match payload, h with
  | version :: high :: low :: writer :: writer' :: flags :: behind, _ =>
    exact ⟨version, high, low, writer, writer', flags, behind, rfl⟩
  | [], h | [_], h | [_, _], h | [_, _, _], h | [_, _, _, _], h | [_, _, _, _, _], h =>
    simp only [List.length_cons, List.length_nil] at h
    omega

/-- The record is written as the front of a normal payload. -/
theorem Normal.encode_isPrefix (hnormal : Normal payload m) (h : read payload = .ok m) :
    encode m <+: payload := by
  obtain ⟨hgrammar, -⟩ := read_eq_ok_iff.mp h
  have hform := hnormal.formOf_eq h
  have hbody := body_eq_wordsOf h hform
  obtain ⟨version, high, low, writer, writer', flags, behind, rfl⟩ :=
    exists_cons_of_header hgrammar.header
  obtain rfl : version = 0 := Option.some.inj hnormal.version
  obtain rfl : high = 0 := Option.some.inj hgrammar.minimumVersion.1
  obtain rfl : low = 0 := Option.some.inj hgrammar.minimumVersion.2
  obtain rfl : writer = 0 := Option.some.inj hnormal.writer.1
  obtain rfl : writer' = 0 := Option.some.inj hnormal.writer.2
  have hflags : (form m).flags = flags := by
    rw [← hform]
    exact Form.flags_ofFlags hnormal.reserved
  have henough : 4 * (form m).wordCount ≤ behind.length := by
    have hlength := hgrammar.body
    rw [hform, Form.bodyLength_eq] at hlength
    simp only [List.length_cons] at hlength
    omega
  refine ⟨behind.drop (4 * (form m).wordCount), ?_⟩
  have hwords : (body m).flatMap BigEndian.bytes ++ behind.drop (4 * (form m).wordCount) =
      behind := by
    rw [hbody, wordsOf, hform]
    exact BigEndian.flatMap_bytes_wordAt henough
  show 0 :: 0 :: 0 :: 0 :: 0 :: (form m).flags ::
    ((body m).flatMap BigEndian.bytes ++ behind.drop (4 * (form m).wordCount)) = _
  rw [hwords, hflags]

/-- What a record is written in front of is normal. -/
theorem normal_of_encode_isPrefix (h : encode m <+: payload) : Normal payload m := by
  obtain ⟨rest, rfl⟩ := h
  have hform : formOf (encode m ++ rest) = form m := Form.ofFlags_flags (form m)
  exact {
    version := rfl
    writer := ⟨rfl, rfl⟩
    reserved := (form m).flags_and_reserved
    multiChannel := by
      rw [hform]
      exact form_multiChannel_iff
    commonDenominator := by
      rw [hform]
      exact form_commonDenominator_iff }

end Read

/-- **Writing a record again normalizes its payload.** What was read can be written, to a payload of
the same record that is no longer than any other. It is the front of just the normal payloads: those
that keep the versions and reserved flags zero, and announce three channels only where they differ
and a denominator in common wherever there is one. -/
theorem write_normalizes {payload : List UInt8} {m : Metadata} (h : read payload = .ok m) :
    ∃ normal, write m = .ok normal ∧ read normal = .ok m ∧
      (∀ other, read other = .ok m → normal.length ≤ other.length) ∧
      (normal <+: payload ↔ Normal payload m) := by
  have hwrite : write m = .ok (encode m) := write_eq_ok_iff.mpr ⟨validate_of_read h, rfl⟩
  exact ⟨encode m, hwrite, read_of_write hwrite, fun _ => length_encode_le,
    normal_of_encode_isPrefix, fun hnormal => hnormal.encode_isPrefix h⟩

/-- A record with the same numbers in all channels, and one in all denominators. -/
def plain : Metadata where
  backward := false
  useBaseColorSpace := true
  baseHeadroom := ⟨0, 1⟩
  alternateHeadroom := ⟨2, 1⟩
  channels := .replicate ⟨⟨-1, 1⟩, ⟨3, 1⟩, ⟨1, 1⟩, ⟨0, 1⟩, ⟨0, 1⟩⟩

/-- The same record in the longest form, with versions, reserved flags and a tail. -/
def wordy : List UInt8 :=
  [9, 0, 0, 8, 7, 0xF3] ++ (fieldWords none (fields true plain)).flatMap BigEndian.bytes ++ [1, 2]

/-- The long payload shrinks to one that it does not begin with; behind that one, a tail is all that
is left over. -/
theorem wordy_normalizes :
    read wordy = .ok plain ∧ wordy.length = 144 ∧
    ∃ normal, write plain = .ok normal ∧ normal.length = 38 ∧ read normal = .ok plain ∧
      normal.length ≤ wordy.length ∧ ¬normal <+: wordy ∧ Normal (normal ++ [1, 2]) plain := by
  have hread : read wordy = .ok plain := rfl
  obtain ⟨normal, hwrite, hback, hshortest, hfront⟩ := write_normalizes hread
  obtain rfl : encode plain = normal := Except.ok.inj hwrite
  have htail : read (encode plain ++ [1, 2]) = .ok plain := rfl
  obtain ⟨normal', hwrite', -, -, hfront'⟩ := write_normalizes htail
  obtain rfl : encode plain = normal' := Except.ok.inj hwrite'
  refine ⟨hread, rfl, encode plain, hwrite, rfl, hback, hshortest wordy hread, ?_,
    hfront'.mp (List.prefix_append _ _)⟩
  intro hbegins
  have hversion : wordy[0]? = some 0 := (hfront.mp hbegins).version
  exact absurd hversion (by decide)

end Payload

end DualRendition
