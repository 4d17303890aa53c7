import DualRendition.BigEndian
import DualRendition.Metadata

/-!
# The metadata payload

Metadata travels as a byte string: a version byte, the minimum version a reader has to know, the
version of the writer, a byte of flags, and then 32-bit words, all most significant byte first.

A payload holds the two headrooms and, for one or for three channels, five fractions each. When all
fractions that are written have the same denominator it stands once in front and only numerators
follow; otherwise every fraction is a numerator and a denominator. `Payload.write` chooses the
shorter of the possible forms; `Payload.read` accepts every form and ignores what stands behind it.
-/

namespace DualRendition

/-- The word of a fraction's numerator, and its denominator. -/
abbrev FieldWords := UInt32 × UInt32

namespace Fraction

def words (r : Fraction) : FieldWords := (r.numerator.toUInt32, r.denominator)

def ofWords (w : FieldWords) : Fraction := ⟨w.1.toInt32, w.2⟩

end Fraction

namespace UnsignedFraction

def words (r : UnsignedFraction) : FieldWords := (r.numerator, r.denominator)

def ofWords (w : FieldWords) : UnsignedFraction := ⟨w.1, w.2⟩

end UnsignedFraction

namespace Payload

/-- The form of a payload, which its flags tell. -/
structure Form where
  multiChannel : Bool
  useBaseColorSpace : Bool
  backward : Bool
  commonDenominator : Bool
  deriving DecidableEq, Repr

namespace Form

/-- Bits 0 to 3, in the order of the fields. -/
def flags (f : Form) : UInt8 :=
  (if f.multiChannel then 1 else 0) ||| (if f.useBaseColorSpace then 2 else 0) |||
    (if f.backward then 4 else 0) ||| (if f.commonDenominator then 8 else 0)

/-- Bits 4 to 7 carry no meaning. -/
def ofFlags (b : UInt8) : Form where
  multiChannel := b &&& 1 != 0
  useBaseColorSpace := b &&& 2 != 0
  backward := b &&& 4 != 0
  commonDenominator := b &&& 8 != 0

/-- The number of fractions: two headrooms and five for each channel. -/
def fieldCount (f : Form) : Nat := if f.multiChannel then 17 else 7

/-- The number of words that the fractions take. -/
def wordCount (f : Form) : Nat :=
  if f.commonDenominator then 1 + f.fieldCount else 2 * f.fieldCount

end Form

/-- The fractions of one channel in payload order. -/
def channelFields (c : ChannelParameters Fraction UnsignedFraction) : List FieldWords :=
  [c.min.words, c.max.words, c.gamma.words, c.baseOffset.words, c.alternateOffset.words]

/-- All fractions in payload order, the channels after the first only when `multiChannel`. -/
def fields (multiChannel : Bool) (m : Metadata) : List FieldWords :=
  let channels := if multiChannel then m.channels.toList else [m.channels.red]
  [m.baseHeadroom.words, m.alternateHeadroom.words] ++ channels.flatMap channelFields

/-- The denominator that all the fractions have, if there is one. -/
def commonDenominator? : List FieldWords → Option UInt32
  | [] => none
  | first :: rest => if rest.all (·.2 == first.2) then some first.2 else none

/-- The words of the fractions: behind a common denominator, or as pairs. -/
def fieldWords (common : Option UInt32) (fields : List FieldWords) : List UInt32 :=
  match common with
  | some denominator => denominator :: fields.map (·.1)
  | none => fields.flatMap fun field => [field.1, field.2]

/-- The form in which a record is written. -/
def form (m : Metadata) : Form where
  multiChannel := !m.isSingleChannel
  useBaseColorSpace := m.useBaseColorSpace
  backward := m.backward
  commonDenominator := (commonDenominator? (fields (!m.isSingleChannel) m)).isSome

/-- The bytes of a record, whether or not it is usable. -/
def encode (m : Metadata) : List UInt8 :=
  let written := fields (!m.isSingleChannel) m
  [0, 0, 0, 0, 0, (form m).flags] ++
    (fieldWords (commonDenominator? written) written).flatMap BigEndian.bytes

/-- The payload of a usable record. -/
def write (m : Metadata) : Outcome (List UInt8) := do
  m.validate
  return encode m

/-- The fractions that the words of a payload stand for. -/
def fieldsOfWords (form : Form) (words : List UInt32) : List FieldWords :=
  if form.commonDenominator then
    match words with
    | [] => []
    | denominator :: numerators => numerators.map (·, denominator)
  else pairs words
where
  /-- Neighbouring words, two by two. -/
  pairs : List UInt32 → List FieldWords
    | numerator :: denominator :: rest => (numerator, denominator) :: pairs rest
    | _ => []

/-- The channel whose five fractions start at position `start`. -/
def channelAt (fields : List FieldWords) (start : Nat) :
    ChannelParameters Fraction UnsignedFraction where
  min := .ofWords (fields.getD start (0, 0))
  max := .ofWords (fields.getD (start + 1) (0, 0))
  gamma := .ofWords (fields.getD (start + 2) (0, 0))
  baseOffset := .ofWords (fields.getD (start + 3) (0, 0))
  alternateOffset := .ofWords (fields.getD (start + 4) (0, 0))

/-- The record of a payload's fractions. A single channel stands for all three. -/
def record (form : Form) (fields : List FieldWords) : Metadata where
  backward := form.backward
  useBaseColorSpace := form.useBaseColorSpace
  baseHeadroom := .ofWords (fields.getD 0 (0, 0))
  alternateHeadroom := .ofWords (fields.getD 1 (0, 0))
  channels :=
    if form.multiChannel then ⟨channelAt fields 2, channelAt fields 7, channelAt fields 12⟩
    else .replicate (channelAt fields 2)

/-- The form and the words of a payload, before the record is judged. -/
def split (payload : List UInt8) : Except PayloadFault (Form × List UInt32) :=
  match payload with
  | _ :: high :: low :: rest =>
    if high = 0 ∧ low = 0 then
      match rest with
      | _ :: _ :: flags :: body =>
        let form := Form.ofFlags flags
        match BigEndian.takeWords form.wordCount body with
        | some (words, _) => .ok (form, words)
        | none => .error .truncated
      | _ => .error .truncated
    else .error (.minimumVersion (high.toNat * 256 + low.toNat))
  | _ => .error .truncated

/-- The usable record that a payload stands for. -/
def read (payload : List UInt8) : Outcome Metadata :=
  match split payload with
  | .error fault => .error (.payload fault)
  | .ok (form, words) =>
    let m := record form (fieldsOfWords form words)
    match m.fault? with
    | none => .ok m
    | some fault => .error (.payload (.invalid fault))

end Payload

end DualRendition
