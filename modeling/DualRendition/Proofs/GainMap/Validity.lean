import DualRendition.Proofs.GainMap.Closure
import DualRendition.Proofs.Payload.RoundTrip

/-!
# One notion of valid metadata

Metadata is judged by its own check, by the conversion to floats and by the payload writer, and it
is made from floats, from payloads and from renditions. `Metadata.validity_agrees` says that all of
them mean the same: a record passes its check exactly when it has values, exactly when a payload can
be written for it, and exactly when neither a denominator nor the numerator of a gamma is zero; and
what is made in one of the three ways always passes.

Structure: the fields that count come first. What makes records checks what it returns.
-/

namespace DualRendition

/-! ## The fields that count -/

theorem Ratio.isValid_iff {ν : Type} {r : Ratio ν} : r.isValid = true ↔ r.denominator ≠ 0 := by
  simp [isValid]

namespace ChannelParameters

variable {c : ChannelParameters Fraction UnsignedFraction}

/-- The denominators of a channel. -/
def denominators (c : ChannelParameters Fraction UnsignedFraction) : List UInt32 :=
  [c.baseOffset.denominator, c.alternateOffset.denominator, c.gamma.denominator,
    c.min.denominator, c.max.denominator]

theorem usable_iff :
    c.Usable ↔ (∀ d ∈ c.denominators, d ≠ 0) ∧ c.gamma.numerator ≠ 0 := by
  simp only [denominators, List.forall_mem_cons, ← Ratio.isValid_iff]
  constructor
  · intro h
    exact ⟨⟨h.baseOffset, h.alternateOffset, h.gamma, h.min, h.max, List.forall_mem_nil _⟩,
      h.gamma_ne_zero⟩
  · intro h
    obtain ⟨⟨hbase, halternate, hgamma, hmin, hmax, -⟩, hne⟩ := h
    exact ⟨hbase, halternate, hgamma, hmin, hmax, hne⟩

end ChannelParameters

namespace Metadata

variable {m : Metadata}

/-- The denominators of all fractions of a record. -/
def denominators (m : Metadata) : List UInt32 :=
  [m.baseHeadroom.denominator, m.alternateHeadroom.denominator] ++
    m.channels.toList.flatMap ChannelParameters.denominators

/-- The numerators of the gammas of all channels. -/
def gammas (m : Metadata) : List UInt32 := m.channels.toList.map (·.gamma.numerator)

theorem length_denominators (m : Metadata) : m.denominators.length = 17 := rfl

theorem length_gammas (m : Metadata) : m.gammas.length = 3 := rfl

/-- A record is usable when its denominators and gammas are. -/
theorem usable_iff :
    Usable m ↔ (∀ d ∈ m.denominators, d ≠ 0) ∧ ∀ n ∈ m.gammas, n ≠ 0 := by
  simp only [denominators, gammas, Rgb.toList, List.forall_mem_append, List.forall_mem_flatMap,
    List.forall_mem_map, List.forall_mem_cons, ← Ratio.isValid_iff]
  constructor
  · intro h
    obtain ⟨hred, hredGamma⟩ := ChannelParameters.usable_iff.mp h.red
    obtain ⟨hgreen, hgreenGamma⟩ := ChannelParameters.usable_iff.mp h.green
    obtain ⟨hblue, hblueGamma⟩ := ChannelParameters.usable_iff.mp h.blue
    exact ⟨⟨⟨h.baseHeadroom, h.alternateHeadroom, List.forall_mem_nil _⟩,
      hred, hgreen, hblue, List.forall_mem_nil _⟩,
      hredGamma, hgreenGamma, hblueGamma, List.forall_mem_nil _⟩
  · intro h
    obtain ⟨⟨⟨hbase, halternate, -⟩, hred, hgreen, hblue, -⟩, hredGamma, hgreenGamma, hblueGamma,
      -⟩ := h
    exact ⟨hbase, halternate, ChannelParameters.usable_iff.mpr ⟨hred, hredGamma⟩,
      ChannelParameters.usable_iff.mpr ⟨hgreen, hgreenGamma⟩,
      ChannelParameters.usable_iff.mpr ⟨hblue, hblueGamma⟩⟩

/-! ## Judging records -/

/-- A record has values exactly when it passes its check. -/
theorem exists_values_iff : (∃ v, m.values = .ok v) ↔ m.validate = .ok () := by
  constructor
  · intro h
    obtain ⟨v, hv⟩ := h
    exact (Outcome.check_bind_eq_ok.mp hv).1
  · intro h
    exact values_ok (validate_eq_ok_iff_usable.mp h)

/-- Exchanging the renditions asks for the same fields. -/
theorem validate_swap_iff : validate m.swap = .ok () ↔ m.validate = .ok () := by
  rw [validate_eq_ok_iff_usable, validate_eq_ok_iff_usable]
  refine ⟨fun h => ?_, Usable.swap⟩
  rw [← m.swap_swap]
  exact h.swap

theorem isSingleChannel_swap_eq (m : Metadata) : m.swap.isSingleChannel = m.isSingleChannel := by
  rw [Bool.eq_iff_iff]
  refine ⟨fun h => ?_, isSingleChannel_swap⟩
  rw [← m.swap_swap]
  exact isSingleChannel_swap h

/-- The record that stands for absent metadata is never usable. -/
theorem validate_of_isUnset (h : m.isUnset = true) : m.validate ≠ .ok () := by
  obtain rfl : m = unset := of_decide_eq_true h
  intro hvalid
  cases hvalid

end Metadata

/-! ## Agreement -/

namespace Metadata

/-- **One notion of valid metadata.** A record passes its check exactly when it has values, exactly
when a payload can be written for it, and exactly when none of its denominators and none of its
gammas is zero. Fractions made of floats pass it, and so does what is read from a payload or stored
by measuring. Exchanging the renditions neither makes a record valid or invalid nor tells its
channels apart. The record of zeros never passes. Floats that are the same in all channels give
fractions that are. -/
theorem validity_agrees :
    (∀ m : Metadata,
      ((∃ v, m.values = .ok v) ↔ m.validate = .ok ()) ∧
      ((∃ payload, Payload.write m = .ok payload) ↔ m.validate = .ok ()) ∧
      (m.validate = .ok () ↔ (∀ d ∈ m.denominators, d ≠ 0) ∧ ∀ n ∈ m.gammas, n ≠ 0)) ∧
    (∀ (v : GainValues) m, v.fractions = .ok m → m.validate = .ok ()) ∧
    (∀ payload m, Payload.read payload = .ok m → m.validate = .ok ()) ∧
    (∀ log2 base alternate settings stop g result,
      (GainMapOf.measure log2 base alternate settings stop).apply g = (.ok (), result) →
      result.metadata.validate = .ok ()) ∧
    (∀ m : Metadata, (validate m.swap = .ok () ↔ m.validate = .ok ()) ∧
      m.swap.isSingleChannel = m.isSingleChannel ∧
      (m.isUnset = true → m.validate ≠ .ok ())) ∧
    ∀ (v : GainValues) m, v.channels.green.Alike v.channels.red →
      v.channels.blue.Alike v.channels.red → v.fractions = .ok m → m.isSingleChannel = true := by
  refine ⟨?_, ?_, fun _ _ => Payload.validate_of_read, ?_, ?_, ?_⟩
  · intro m
    refine ⟨exists_values_iff, Payload.exists_write_iff, ?_⟩
    rw [validate_eq_ok_iff_usable, usable_iff]
  · intro v m h
    exact (GainValues.fractions_eq_ok h).1
  · intro log2 base alternate settings stop g result h
    exact (GainMapOf.measured_eq_ok (GainMapOf.measure_eq_ok h)).metadata
  · intro m
    exact ⟨validate_swap_iff, m.isSingleChannel_swap_eq, validate_of_isUnset⟩
  · intro v m hgreen hblue h
    exact (GainValues.fractions_eq_ok h).2.2 hgreen hblue

/-- Unit gamma and offsets of 1/64 as fractions. -/
def neutral : Metadata where
  backward := false
  useBaseColorSpace := true
  baseHeadroom := ⟨0, 1⟩
  alternateHeadroom := ⟨0, 1⟩
  channels := .replicate ⟨⟨0, 1⟩, ⟨0, 1⟩, ⟨1, 1⟩, ⟨1, 64⟩, ⟨1, 64⟩⟩

theorem neutral_valid :
    (GainValues.neutral.fractions = .ok neutral ∧ neutral.validate = .ok () ∧
      neutral.isSingleChannel = true) ∧
    (∃ payload, Payload.write neutral = .ok payload ∧ Payload.read payload = .ok neutral ∧
      neutral.validate = .ok ()) ∧
    (∃ result, (GainMapOf.measure GainMapOf.knownLog2 GainMapOf.linearPixel GainMapOf.linearPixel
        .standard .never).apply ⟨some GainMapOf.emptyTarget, .unset, .unknown⟩ = (.ok (), result) ∧
      result.metadata.validate = .ok ()) ∧
    unset.isUnset = true ∧ unset.validate ≠ .ok () := by
  obtain ⟨hjudged, hfractions, hread, hmeasure, hswap, hsingle⟩ := validity_agrees
  have hneutral : GainValues.neutral.fractions = .ok neutral := by rfl
  have hvalid : neutral.validate = .ok () := hfractions _ _ hneutral
  obtain ⟨-, hwritten, -⟩ := hjudged neutral
  obtain ⟨payload, hpayload⟩ := hwritten.mpr hvalid
  have hback : Payload.read payload = .ok neutral := Payload.read_of_write hpayload
  refine ⟨⟨hneutral, hvalid, hsingle _ _ (.refl _) (.refl _) hneutral⟩,
    ⟨payload, hpayload, hback, hread _ _ hback⟩, ?_, rfl, (hswap unset).2.2 rfl⟩
  -- the result holds floats, so only its success is evaluated
  have hok : ((GainMapOf.measure GainMapOf.knownLog2 GainMapOf.linearPixel GainMapOf.linearPixel
      .standard .never).apply ⟨some GainMapOf.emptyTarget, .unset, .unknown⟩).1.isOk = true := by
    decide +kernel
  cases hresult : (GainMapOf.measure GainMapOf.knownLog2 GainMapOf.linearPixel
      GainMapOf.linearPixel .standard .never).apply
        ⟨some GainMapOf.emptyTarget, .unset, .unknown⟩ with
  | mk answer result =>
    rw [hresult] at hok
    cases answer with
    | error failure => cases hok
    | ok => exact ⟨result, rfl, hmeasure _ _ _ _ _ _ _ hresult⟩

end Metadata

end DualRendition
