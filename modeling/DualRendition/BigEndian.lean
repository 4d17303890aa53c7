/-!
# Big-endian words

A 32-bit word is four bytes, most significant first. `takeWords` reads a run of words from the
front of a byte list and tells what is left.
-/

namespace DualRendition.BigEndian

/-- The four bytes of a word. -/
def bytes (w : UInt32) : List UInt8 :=
  [(w >>> 24).toUInt8, (w >>> 16).toUInt8, (w >>> 8).toUInt8, w.toUInt8]

/-- The word of four bytes. -/
def word (a b c d : UInt8) : UInt32 :=
  (a.toUInt32 <<< 24) ||| (b.toUInt32 <<< 16) ||| (c.toUInt32 <<< 8) ||| d.toUInt32

@[simp] theorem length_bytes (w : UInt32) : (bytes w).length = 4 := rfl

/-- The first `n` words and the bytes behind them, if there are that many. -/
def takeWords : Nat → List UInt8 → Option (List UInt32 × List UInt8)
  | 0, rest => some ([], rest)
  | n + 1, a :: b :: c :: d :: rest =>
    (takeWords n rest).map fun (ws, left) => (word a b c d :: ws, left)
  | _ + 1, _ => none

end DualRendition.BigEndian
