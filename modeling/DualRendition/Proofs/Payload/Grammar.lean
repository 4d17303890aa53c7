import DualRendition.Proofs.Payload.RoundTrip

/-!
# What the payload reader accepts

`Payload.Grammatical` is the grammar of payloads, said of any byte string by the positions of its
bytes: a minimum version of zero, as many bytes as the flags announce, and fractions without zero
denominators or zero gammas. `read_accepts_grammar` says that the reader takes exactly these
strings, that every refusal is about the metadata, and that nothing else in a string has an
influence.

Structure: `split_eq` gives the first half of the reader by positions, from which follows what it
looks at (`split_congr`). The second half judges a record, and `record_usable_iff` says of which
fractions the record is usable.
-/

namespace DualRendition

namespace Payload

/-! ## Lengths and positions -/

namespace Form

/-- The number of channels that are written. -/
def channelCount (f : Form) : Nat := if f.multiChannel then 3 else 1

/-- The number of bytes behind the flags. -/
def bodyLength (f : Form) : Nat :=
  if f.commonDenominator then 12 + 20 * f.channelCount else 16 + 40 * f.channelCount

theorem fieldCount_eq (f : Form) : f.fieldCount = 2 + 5 * f.channelCount := by
  unfold fieldCount channelCount
  cases f.multiChannel <;> rfl

theorem bodyLength_eq (f : Form) : f.bodyLength = 4 * f.wordCount := by
  unfold bodyLength wordCount
  rw [fieldCount_eq]
  split <;> omega

/-- Only the low four bits of the flags have a meaning. -/
theorem ofFlags_congr {b b' : UInt8} (h : b &&& 15 = b' &&& 15) : ofFlags b = ofFlags b' := by
  have hlow : ∀ b : UInt8, ofFlags b = ofFlags (b &&& 15) := by
    intro b
    unfold ofFlags
    rw [UInt8.and_assoc, UInt8.and_assoc, UInt8.and_assoc, UInt8.and_assoc]
    rfl
  rw [hlow b, hlow b', h]

end Form

/-- The form that byte 5 announces. -/
def formOf (payload : List UInt8) : Form := .ofFlags (payload.getD 5 0)

/-- The bytes that belong to a payload: six in front, and the body. -/
def consumed (payload : List UInt8) : Nat := 6 + (formOf payload).bodyLength

/-- Fraction `j` of a body: headrooms come first, then for every channel minimum, maximum, gamma,
base offset and alternate offset. -/
def fieldAt (f : Form) (body : List UInt8) (j : Nat) : FieldWords :=
  if f.commonDenominator then (BigEndian.wordAt body (j + 1), BigEndian.wordAt body 0)
  else (BigEndian.wordAt body (2 * j), BigEndian.wordAt body (2 * j + 1))

/-- The position of the gamma of channel `c` among the fractions. -/
def gammaPosition (c : Nat) : Nat := 2 + 5 * c + 2

/-- The grammar of payloads. -/
structure Grammatical (payload : List UInt8) : Prop where
  header : 6 ≤ payload.length
  minimumVersion : payload[1]? = some 0 ∧ payload[2]? = some 0
  body : 6 + (formOf payload).bodyLength ≤ payload.length
  denominators : ∀ j < (formOf payload).fieldCount,
    (fieldAt (formOf payload) (payload.drop 6) j).2 ≠ 0
  gammas : ∀ c < (formOf payload).channelCount,
    (fieldAt (formOf payload) (payload.drop 6) (gammaPosition c)).1 ≠ 0

/-! ## From bytes to words -/

/-- What the reader makes of the bytes at each position, before it judges the record. -/
theorem split_eq (payload : List UInt8) :
    split payload =
      match (payload[1]? : Option UInt8), (payload[2]? : Option UInt8) with
      | some high, some low =>
        if high = 0 ∧ low = 0 then
          match (payload[5]? : Option UInt8) with
          | some flags =>
            if 6 + (Form.ofFlags flags).bodyLength ≤ payload.length then
              .ok (.ofFlags flags, (List.range (Form.ofFlags flags).wordCount).map
                (BigEndian.wordAt (payload.drop 6)))
            else .error .truncated
          | none => .error .truncated
        else .error (.minimumVersion (high.toNat * 256 + low.toNat))
      | _, _ => .error .truncated := by
  match payload with
  | [] | [_] | [_, _] | [_, _, _] | [_, _, _, _] | [_, _, _, _, _] => rfl
  | version :: high :: low :: writer :: writer' :: flags :: body =>
    have hlength : 6 + (Form.ofFlags flags).bodyLength ≤
        (version :: high :: low :: writer :: writer' :: flags :: body).length ↔
        4 * (Form.ofFlags flags).wordCount ≤ body.length := by
      rw [Form.bodyLength_eq]
      simp only [List.length_cons]
      omega
    unfold split
    dsimp only [List.getElem?_cons_succ, List.getElem?_cons_zero]
    congr 1
    by_cases henough : 4 * (Form.ofFlags flags).wordCount ≤ body.length
    · rw [BigEndian.takeWords_eq _ henough, if_pos (hlength.mpr henough)]
      rfl
    · rw [BigEndian.takeWords_eq_none _ (Nat.lt_of_not_le henough),
        if_neg fun h => henough (hlength.mp h)]

/-- The front of the grammar is what the first half of the reader asks for. -/
theorem split_eq_ok_iff {payload : List UInt8} {f : Form} {words : List UInt32} :
    split payload = .ok (f, words) ↔
      6 ≤ payload.length ∧ (payload[1]? = some 0 ∧ payload[2]? = some 0) ∧
      6 + (formOf payload).bodyLength ≤ payload.length ∧ f = formOf payload ∧
      words = (List.range f.wordCount).map (BigEndian.wordAt (payload.drop 6)) := by
  rw [split_eq]
  constructor
  · intro h
    split at h
    next high low hhigh hlow =>
      split at h
      next hzero =>
        obtain ⟨rfl, rfl⟩ := hzero
        split at h
        next flags hflags =>
          have hform : formOf payload = .ofFlags flags := by
            unfold formOf
            rw [List.getD_eq_getElem?_getD, hflags]
            rfl
          obtain ⟨hheader, -⟩ := List.getElem?_eq_some_iff.mp hflags
          split at h
          next hbody =>
            obtain ⟨rfl, rfl⟩ := Prod.mk.inj (Except.ok.inj h)
            exact ⟨hheader, ⟨hhigh, hlow⟩, hform ▸ hbody, hform.symm, rfl⟩
          next => cases h
        next => cases h
      next => cases h
    next => cases h
  · intro h
    obtain ⟨hheader, ⟨hhigh, hlow⟩, hbody, rfl, rfl⟩ := h
    have hflags : payload[5]? = some (payload.getD 5 0) := by
      rw [List.getD_eq_getElem?_getD, List.getElem?_eq_getElem hheader]
      rfl
    rw [hhigh, hlow]
    dsimp only
    rw [if_pos ⟨rfl, rfl⟩, hflags]
    exact if_pos hbody

/-! ## From words to fractions -/

theorem pairs_range (word : Nat → UInt32) : ∀ count start,
    fieldsOfWords.pairs ((List.range' start (2 * count)).map word) =
      (List.range count).map fun j => (word (start + 2 * j), word (start + 2 * j + 1)) := by
  intro count
  induction count with
  | zero =>
    intro start
    rfl
  | succ count ih =>
    intro start
    rw [Nat.mul_succ, List.range'_succ, List.range'_succ, List.map_cons, List.map_cons,
      fieldsOfWords.pairs, ih, List.range_succ_eq_map, List.map_cons, List.map_map]
    refine congrArg _ (List.map_congr_left fun j _ => ?_)
    show (word (start + 1 + 1 + 2 * j), _) = (word (start + 2 * (j + 1)), _)
    rw [show start + 1 + 1 + 2 * j = start + 2 * (j + 1) by omega]

/-- The words of a body make up its fractions. -/
theorem fieldsOfWords_wordAt (f : Form) (body : List UInt8) :
    fieldsOfWords f ((List.range f.wordCount).map (BigEndian.wordAt body)) =
      (List.range f.fieldCount).map (fieldAt f body) := by
  unfold fieldsOfWords Form.wordCount
  cases hcommon : f.commonDenominator with
  | true =>
    rw [if_pos rfl, if_pos rfl, Nat.add_comm 1, List.range_succ_eq_map, List.map_cons]
    dsimp only
    rw [List.map_map, List.map_map]
    refine List.map_congr_left fun j _ => ?_
    unfold fieldAt
    rw [if_pos hcommon]
    rfl
  | false =>
    rw [if_neg Bool.false_ne_true, if_neg Bool.false_ne_true, List.range_eq_range', pairs_range]
    refine List.map_congr_left fun j _ => ?_
    unfold fieldAt
    rw [if_neg (hcommon ▸ Bool.false_ne_true), Nat.zero_add]

/-! ## From fractions to the record -/

/-- A channel is usable when none of its five denominators is zero, nor the numerator of gamma. -/
theorem channelAt_usable_iff {fields : List FieldWords} {start : Nat} :
    (channelAt fields start).Usable ↔
      (∀ i < 5, (fields.getD (start + i) (0, 0)).2 ≠ 0) ∧
      (fields.getD (start + 2) (0, 0)).1 ≠ 0 := by
  have hvalid : ∀ {ν : Type} {numerator : ν} {denominator : UInt32},
      (Ratio.mk numerator denominator).isValid = true ↔ denominator ≠ 0 := by
    intro ν numerator denominator
    simp [Ratio.isValid]
  constructor
  · intro h
    refine ⟨?_, h.gamma_ne_zero⟩
    intro i hi
    match i, hi with
    | 0, _ => exact hvalid.mp h.min
    | 1, _ => exact hvalid.mp h.max
    | 2, _ => exact hvalid.mp h.gamma
    | 3, _ => exact hvalid.mp h.baseOffset
    | 4, _ => exact hvalid.mp h.alternateOffset
  · intro h
    obtain ⟨hdenominators, hgamma⟩ := h
    exact {
      min := hvalid.mpr (hdenominators 0 (by decide))
      max := hvalid.mpr (hdenominators 1 (by decide))
      gamma := hvalid.mpr (hdenominators 2 (by decide))
      baseOffset := hvalid.mpr (hdenominators 3 (by decide))
      alternateOffset := hvalid.mpr (hdenominators 4 (by decide))
      gamma_ne_zero := hgamma }

/-- The fractions are those of the headrooms and of the channels. -/
theorem forall_field_iff {P : Nat → Prop} {channels : Nat} :
    (∀ j < 2 + 5 * channels, P j) ↔
      P 0 ∧ P 1 ∧ ∀ c < channels, ∀ i < 5, P (2 + 5 * c + i) := by
  constructor
  · intro h
    exact ⟨h 0 (by omega), h 1 (by omega), fun c hc i hi => h _ (by omega)⟩
  · intro h j hj
    obtain ⟨hzero, hone, hchannels⟩ := h
    by_cases hsmall : j < 2
    · match j, hsmall with
      | 0, _ => exact hzero
      | 1, _ => exact hone
    · have hj' : 2 + 5 * ((j - 2) / 5) + (j - 2) % 5 = j := by omega
      rw [← hj']
      exact hchannels _ (by omega) _ (by omega)

/-- The record of a list of fractions is usable when the fractions of every written channel are. A
single channel stands for three. -/
theorem record_usable_iff {f : Form} {fields : List FieldWords} :
    Metadata.Usable (record f fields) ↔
      (∀ j < f.fieldCount, (fields.getD j (0, 0)).2 ≠ 0) ∧
      ∀ c < f.channelCount, (fields.getD (gammaPosition c) (0, 0)).1 ≠ 0 := by
  have hheadroom : ∀ j, (UnsignedFraction.ofWords (fields.getD j (0, 0))).isValid = true ↔
      (fields.getD j (0, 0)).2 ≠ 0 := by
    intro j
    simp [UnsignedFraction.ofWords, Ratio.isValid]
  have hchannels : (∀ c < f.channelCount, (channelAt fields (2 + 5 * c)).Usable) ↔
      (record f fields).channels.red.Usable ∧ (record f fields).channels.green.Usable ∧
        (record f fields).channels.blue.Usable := by
    unfold Form.channelCount record
    cases f.multiChannel with
    | false =>
      constructor
      · intro h
        exact ⟨h 0 (by decide), h 0 (by decide), h 0 (by decide)⟩
      · intro h c hc
        obtain rfl : c = 0 := Nat.lt_one_iff.mp hc
        exact h.1
    | true =>
      constructor
      · intro h
        exact ⟨h 0 (by decide), h 1 (by decide), h 2 (by decide)⟩
      · intro h c hc
        match c, hc with
        | 0, _ => exact h.1
        | 1, _ => exact h.2.1
        | 2, _ => exact h.2.2
  rw [Form.fieldCount_eq, forall_field_iff, ← hheadroom, ← hheadroom]
  constructor
  · intro h
    have husable := hchannels.mpr ⟨h.red, h.green, h.blue⟩
    refine ⟨⟨h.baseHeadroom, h.alternateHeadroom, ?_⟩, ?_⟩
    · intro c hc
      exact (channelAt_usable_iff.mp (husable c hc)).1
    · intro c hc
      exact (channelAt_usable_iff.mp (husable c hc)).2
  · intro h
    obtain ⟨⟨hbase, halternate, hdenominators⟩, hgammas⟩ := h
    obtain ⟨hred, hgreen, hblue⟩ := hchannels.mp fun c hc =>
      channelAt_usable_iff.mpr ⟨hdenominators c hc, hgammas c hc⟩
    exact ⟨hbase, halternate, hred, hgreen, hblue⟩

/-- The record of a body is usable just when the fractions of the body are. -/
theorem record_wordAt_usable_iff {f : Form} {body : List UInt8} :
    Metadata.Usable (record f (fieldsOfWords f
      ((List.range f.wordCount).map (BigEndian.wordAt body)))) ↔
      (∀ j < f.fieldCount, (fieldAt f body j).2 ≠ 0) ∧
      ∀ c < f.channelCount, (fieldAt f body (gammaPosition c)).1 ≠ 0 := by
  have hget : ∀ j < f.fieldCount,
      ((List.range f.fieldCount).map (fieldAt f body)).getD j (0, 0) = fieldAt f body j := by
    intro j hj
    rw [List.getD_eq_getElem?_getD, List.getElem?_map, List.getElem?_range hj]
    rfl
  have hgamma : ∀ c < f.channelCount, gammaPosition c < f.fieldCount := by
    intro c hc
    rw [Form.fieldCount_eq]
    unfold gammaPosition
    omega
  rw [fieldsOfWords_wordAt, record_usable_iff]
  refine and_congr (forall₂_congr fun j hj => ?_) (forall₂_congr fun c hc => ?_)
  · rw [hget j hj]
  · rw [hget _ (hgamma c hc)]

/-! ## The reader -/

/-- The words behind the flags that belong to a payload. -/
def wordsOf (payload : List UInt8) : List UInt32 :=
  (List.range (formOf payload).wordCount).map (BigEndian.wordAt (payload.drop 6))

/-- What is read is the record of the words, and it is read just when the grammar is followed. -/
theorem read_eq_ok_iff {payload : List UInt8} {m : Metadata} :
    read payload = .ok m ↔
      Grammatical payload ∧ m = record (formOf payload) (fieldsOfWords (formOf payload)
        (wordsOf payload)) := by
  constructor
  · intro hread
    unfold read at hread
    split at hread
    next => cases hread
    next f words hsplit =>
      obtain ⟨hheader, hversion, hbody, rfl, rfl⟩ := split_eq_ok_iff.mp hsplit
      dsimp only at hread
      split at hread
      next hfault =>
        have husable := Metadata.validate_eq_ok_iff_usable.mp
          (Metadata.validate_eq_ok_iff.mpr hfault)
        obtain ⟨hdenominators, hgammas⟩ := record_wordAt_usable_iff.mp husable
        exact ⟨⟨hheader, hversion, hbody, hdenominators, hgammas⟩, (Except.ok.inj hread).symm⟩
      next => cases hread
  · intro h
    obtain ⟨h, rfl⟩ := h
    have husable := record_wordAt_usable_iff.mpr ⟨h.denominators, h.gammas⟩
    have hfault := Metadata.validate_eq_ok_iff.mp
      (Metadata.validate_eq_ok_iff_usable.mpr husable)
    unfold read
    rw [split_eq_ok_iff.mpr ⟨h.header, h.minimumVersion, h.body, rfl, rfl⟩]
    dsimp only
    rw [hfault]
    rfl

/-- The reader takes a byte string exactly when it follows the grammar. -/
theorem exists_read_eq_ok_iff {payload : List UInt8} :
    (∃ m, read payload = .ok m) ↔ Grammatical payload := by
  constructor
  · intro h
    obtain ⟨m, hread⟩ := h
    exact (read_eq_ok_iff.mp hread).1
  · intro h
    exact ⟨_, read_eq_ok_iff.mpr ⟨h, rfl⟩⟩

theorem category_of_read_eq_error {payload : List UInt8} {failure : Failure}
    (h : read payload = .error failure) : failure.category = .invalidMetadata := by
  unfold read at h
  split at h
  next =>
    obtain rfl := Except.error.inj h
    rfl
  next =>
    dsimp only at h
    split at h
    next => cases h
    next =>
      obtain rfl := Except.error.inj h
      rfl

/-! ## What has no influence -/

/-- Byte strings that agree in what a reader looks at: the minimum version, the low four bits of the
flags, and the body as far as it is announced. -/
structure Alike (payload payload' : List UInt8) : Prop where
  high : payload[1]? = payload'[1]?
  low : payload[2]? = payload'[2]?
  flags : payload[5]?.map (· &&& 15) = payload'[5]?.map (· &&& 15)
  body : ∀ i, 6 ≤ i → i < consumed payload → payload[i]? = payload'[i]?

/-- A body is there in both strings or in neither. -/
theorem body_le_length_iff {payload payload' : List UInt8} {f : Form}
    (h : ∀ i, 6 ≤ i → i < 6 + f.bodyLength → payload[i]? = payload'[i]?) :
    6 + f.bodyLength ≤ payload.length ↔ 6 + f.bodyLength ≤ payload'.length := by
  have hpos : 0 < f.bodyLength := by
    unfold Form.bodyLength
    split <;> omega
  -- it is there when its last byte is
  have hlast := h (5 + f.bodyLength) (by omega) (by omega)
  have hnone : payload.length ≤ 5 + f.bodyLength ↔ payload'.length ≤ 5 + f.bodyLength := by
    rw [← List.getElem?_eq_none_iff, ← List.getElem?_eq_none_iff, hlast]
  omega

/-- Bodies that agree byte by byte have the same words. -/
theorem body_words_congr {payload payload' : List UInt8} {f : Form}
    (h : ∀ i, 6 ≤ i → i < 6 + f.bodyLength → payload[i]? = payload'[i]?) :
    (List.range f.wordCount).map (BigEndian.wordAt (payload.drop 6)) =
      (List.range f.wordCount).map (BigEndian.wordAt (payload'.drop 6)) := by
  rw [Form.bodyLength_eq] at h
  refine List.map_congr_left fun k hk => BigEndian.wordAt_congr ?_
  intro i hlow hhigh
  rw [List.mem_range] at hk
  rw [List.getElem?_drop, List.getElem?_drop]
  exact h (6 + i) (by omega) (by omega)

theorem split_congr {payload payload' : List UInt8} (h : Alike payload payload') :
    split payload = split payload' := by
  have hflags := h.flags
  rw [split_eq, split_eq, ← h.high, ← h.low]
  cases hbyte : payload[5]? with
  | none =>
    rw [hbyte] at hflags
    rw [Option.map_eq_none_iff.mp hflags.symm]
  | some flags =>
    rw [hbyte] at hflags
    obtain ⟨flags', hbyte', hsame⟩ := Option.map_eq_some_iff.mp hflags.symm
    have hform : Form.ofFlags flags' = Form.ofFlags flags := Form.ofFlags_congr hsame
    have hconsumed : consumed payload = 6 + (Form.ofFlags flags).bodyLength := by
      unfold consumed formOf
      rw [List.getD_eq_getElem?_getD, hbyte]
      rfl
    have hbody := h.body
    rw [hconsumed] at hbody
    rw [hbyte']
    dsimp only
    simp only [hform, body_words_congr hbody, body_le_length_iff hbody]

/-- What the reader makes of a byte string depends on what it looks at only. -/
theorem read_congr {payload payload' : List UInt8} (h : Alike payload payload') :
    read payload = read payload' := by
  unfold read
  rw [split_congr h]

/-- A written payload is as long as its flags announce. -/
theorem length_encode (m : Metadata) : (encode m).length = 6 + (form m).bodyLength := by
  have hwords : ((body m).flatMap BigEndian.bytes).length = 4 * (body m).length := by
    rw [List.length_flatMap]
    simp only [BigEndian.length_bytes, List.map_const', List.sum_replicate_nat]
    omega
  show ([0, 0, 0, 0, 0, (form m).flags] ++ (body m).flatMap BigEndian.bytes).length = _
  rw [List.length_append, hwords, length_body, Form.bodyLength_eq]
  rfl

/-- What is cut off a written payload is missed. -/
theorem not_grammatical_of_cut {m : Metadata} {cut : List UInt8} (hcut : cut <+: encode m)
    (hne : cut ≠ encode m) : ¬Grammatical cut := by
  intro h
  have hheader := h.header
  have hbody := h.body
  have hshorter : cut.length < (encode m).length :=
    Nat.lt_of_le_of_ne hcut.length_le fun hlength => hne (hcut.eq_of_length hlength)
  -- the flags are still there, and they announce the whole payload
  have hform : formOf cut = form m := by
    obtain ⟨rest, hrest⟩ := hcut
    have hflags : (cut ++ rest)[5]? = some (form m).flags := by
      rw [hrest]
      rfl
    rw [List.getElem?_append_left hheader] at hflags
    unfold formOf
    rw [List.getD_eq_getElem?_getD, hflags]
    exact Form.ofFlags_flags _
  rw [hform] at hbody
  rw [length_encode] at hshorter
  omega

/-- **The reader accepts exactly the grammar.** A byte string is read just when it follows the
grammar of payloads, and is refused as invalid metadata otherwise. Strings that are alike in the
minimum version, the low four bits of the flags and the announced body are read alike. Hence no
payload is written of which a shorter beginning could be read. -/
theorem read_accepts_grammar :
    (∀ payload, (∃ m, read payload = .ok m) ↔ Grammatical payload) ∧
    (∀ payload failure, read payload = .error failure → failure.category = .invalidMetadata) ∧
    (∀ payload payload', Alike payload payload' → read payload = read payload') ∧
    ∀ m payload, write m = .ok payload → ∀ cut, cut <+: payload → cut ≠ payload →
      ∃ failure, read cut = .error failure ∧ failure.category = .invalidMetadata := by
  refine ⟨fun _ => exists_read_eq_ok_iff, fun _ _ => category_of_read_eq_error,
    fun _ _ => read_congr, ?_⟩
  intro m payload hwrite cut hcut hne
  obtain ⟨-, rfl⟩ := write_eq_ok_iff.mp hwrite
  cases hread : read cut with
  | ok m' =>
    have hgrammatical := exists_read_eq_ok_iff.mp ⟨m', hread⟩
    exact absurd hgrammatical (not_grammatical_of_cut hcut hne)
  | error failure => exact ⟨failure, rfl, category_of_read_eq_error hread⟩

/-- A payload with other versions, reserved flags and a tail is read as before; without its last
byte it is not read at all. -/
theorem read_mixed_variants :
    write mixed = .ok ([0, 0, 0, 0, 0, 5] ++ (body mixed).flatMap BigEndian.bytes) ∧
    Grammatical ([0, 0, 0, 0, 0, 5] ++ (body mixed).flatMap BigEndian.bytes) ∧
    read ([9, 0, 0, 8, 7, 0xF5] ++ ((body mixed).flatMap BigEndian.bytes ++ [1, 2])) =
      .ok mixed ∧
    ∃ failure, read ([0, 0, 0, 0, 0, 5] ++ ((body mixed).flatMap BigEndian.bytes).dropLast) =
      .error failure ∧ failure.category = .invalidMetadata := by
  obtain ⟨haccepts, hrefuses, halike, hcut⟩ := read_accepts_grammar
  have hwrite : write mixed =
      .ok ([0, 0, 0, 0, 0, 5] ++ (body mixed).flatMap BigEndian.bytes) := rfl
  have hread := read_of_write hwrite
  have hlength : ((body mixed).flatMap BigEndian.bytes).length = 136 := rfl
  refine ⟨hwrite, (haccepts _).mp ⟨mixed, hread⟩, ?_, ?_⟩
  · have hsame : Alike ([9, 0, 0, 8, 7, 0xF5] ++ ((body mixed).flatMap BigEndian.bytes ++ [1, 2]))
        ([0, 0, 0, 0, 0, 5] ++ (body mixed).flatMap BigEndian.bytes) := by
      refine ⟨rfl, rfl, rfl, ?_⟩
      intro i hlow hhigh
      have hi : i - 6 < ((body mixed).flatMap BigEndian.bytes).length := by
        have hconsumed : i < 142 := hhigh
        omega
      have hbody : ([0, 0, 0, 0, 0, 5] ++ (body mixed).flatMap BigEndian.bytes)[i]? =
          ((body mixed).flatMap BigEndian.bytes)[i - 6]? := List.getElem?_append_right hlow
      rw [hbody, List.getElem?_append_right hlow]
      exact List.getElem?_append_left hi
    exact (halike _ _ hsame).trans hread
  · have hbegins : [0, 0, 0, 0, 0, 5] ++ ((body mixed).flatMap BigEndian.bytes).dropLast <+:
        [0, 0, 0, 0, 0, 5] ++ (body mixed).flatMap BigEndian.bytes :=
      (List.prefix_append_right_inj _).mpr (List.dropLast_prefix _)
    have hne : [0, 0, 0, 0, 0, 5] ++ ((body mixed).flatMap BigEndian.bytes).dropLast ≠
        [0, 0, 0, 0, 0, 5] ++ (body mixed).flatMap BigEndian.bytes := by
      intro hsame
      have hsame := congrArg List.length hsame
      simp only [List.length_append, List.length_dropLast] at hsame
      omega
    obtain ⟨failure, hfailure, -⟩ := hcut mixed _ hwrite _ hbegins hne
    exact ⟨failure, hfailure, hrefuses _ _ hfailure⟩

end Payload

end DualRendition
