import DualRendition.Bound
import DualRendition.Dyadic
import DualRendition.Rendition

/-!
# Transfer curves

The curves between a signal in `[0, 1]` and light, in single precision: sRGB, the perceptual
quantizer PQ, and hybrid log-gamma HLG with its scene-to-display step. `Transfer.toLinear` and
`Transfer.fromLinear` put them on one scale of linear light on which 1 is SDR reference white.
-/

namespace DualRendition

namespace Curve

/-- SDR reference white in nits. -/
def sdrWhite : Float32 := 203

/-- Nominal peak of HLG in nits. -/
def hlgPeak : Float32 := 1000

/-- Peak of PQ in nits. -/
def pqPeak : Float32 := 10000

/-- sRGB signal of linear light: a straight piece near black, a power above. -/
def srgbEncode (light : Float32) : Float32 :=
  if light ≤ 0.0031308 then light * 12.92 else 1.055 * light.pow (1 / 2.4) - 0.055

/-- Linear light of an sRGB signal. -/
def srgbDecode (signal : Float32) : Float32 :=
  if signal ≤ 0.04045 then signal / 12.92 else ((signal + 0.055) / 1.055).pow 2.4

def pqM1 : Float32 := 2610 / 16384

def pqM2 : Float32 := 2523 / 4096 * 128

def pqC1 : Float32 := 3424 / 4096

def pqC2 : Float32 := 2413 / 4096 * 32

def pqC3 : Float32 := 2392 / 4096 * 32

/-- PQ signal of light, 1 being the PQ peak. -/
def pqEncode (light : Float32) : Float32 :=
  if light ≤ 0 then 0
  else
    let power := light.pow pqM1
    ((pqC1 + pqC2 * power) / (1 + pqC3 * power)).pow pqM2

/-- Light of a PQ signal, 1 being the PQ peak. -/
def pqDecode (signal : Float32) : Float32 :=
  if signal ≤ 0 then 0
  else
    let power := signal.pow (1 / pqM2)
    let numerator := larger (power - pqC1) 0
    let denominator := pqC2 - pqC3 * power
    if denominator ≤ 0 then 0 else (numerator / denominator).pow (1 / pqM1)

def hlgA : Float32 := 0.17883277

def hlgB : Float32 := 0.28466892

def hlgC : Float32 := 0.55991073

/-- HLG signal of scene light: a square root in the dark, a logarithm above. -/
def hlgEncode (scene : Float32) : Float32 :=
  if scene ≤ 0 then 0
  else if scene ≤ 1 / 12 then (3 * scene).sqrt
  else hlgA * (12 * scene - hlgB).log + hlgC

/-- Scene light of an HLG signal. -/
def hlgDecode (signal : Float32) : Float32 :=
  if signal ≤ 0 then 0
  else if signal ≤ 0.5 then signal * signal / 3
  else ((signal - hlgC) / hlgA).exp / 12 + hlgB / 12

/-- The system gamma of HLG on a display with the given peak in nits. -/
def hlgGamma (peak : Float32) : Float32 := clamp (1.2 + 0.42 * (peak / 1000).log10) 1 1.5

/-- Light in nits that a display with the given peak shows for scene light. -/
def hlgDisplay (scene peak : Float32) : Float32 := (larger scene 0).pow (hlgGamma peak) * peak

/-- Scene light of light in nits on a display with the given peak. -/
def hlgScene (display peak : Float32) : Float32 :=
  if display ≤ 0 ∨ peak ≤ 0 then 0 else (display / peak).pow (1 / hlgGamma peak)

end Curve

namespace Transfer

open Curve

/-- The largest linear light of a transfer function, 1 being SDR white. -/
def peak : Transfer → Float32
  | pq => pqPeak / sdrWhite
  | hlg => hlgPeak / sdrWhite
  | srgb | linear | unspecified => 1

/-- Linear light of a signal, 1 being SDR white. -/
def toLinear (t : Transfer) (signal : Float32) : Float32 :=
  match t with
  | srgb => srgbDecode signal
  | linear | unspecified => signal
  | pq => pqDecode signal * peak pq
  | hlg => hlgDisplay (hlgDecode signal) hlgPeak / sdrWhite

/-- The signal of linear light, clipped to what the transfer function can express. -/
def fromLinear (t : Transfer) (light : Float32) : Float32 :=
  let light := clamp light 0 t.peak
  match t with
  | srgb => srgbEncode light
  | linear | unspecified => light
  | pq => pqEncode (light / peak pq)
  | hlg => hlgEncode (hlgScene (light * sdrWhite) hlgPeak)

/-- log2 stops above SDR white of a rendition. A brightest pixel above SDR white counts, otherwise
the nominal peak does; SDR has no headroom. -/
def headroom (t : Transfer) (level : LightLevel) : Float :=
  if t.isHdr then
    let nominal := if t = pq then pqPeak else hlgPeak
    let peak :=
      if sdrWhite < level.maxContent.toFloat32 then level.maxContent.toFloat else widen nominal
    larger (peak / widen sdrWhite).log2 0
  else 0

end Transfer

end DualRendition
