import LoadHarness.Traffic.Mix

/-!
# Uniform draws from a stream of words

A source yields 64-bit words, zeros once its list has ended. A draw multiplies a word by the size
of the range and keeps the high part; words whose low part lies past the last full stretch are
thrown away, so that every number comes up equally often.
-/

namespace LoadHarness

/-- Random words, taken from the front; zeros for ever after the last. -/
abbrev WordSource := List UInt64

namespace WordSource

/-- A number below `size` from words of `bits` bits: a word `w` is kept when the low `bits` bits of
`w * size` are at most `zone`. When the words end, the zero that follows gives zero. -/
def below (bits size zone : Nat) : WordSource → Nat × WordSource
  | [] => (0, [])
  | w :: rest =>
    let product := w.toNat % Nat.pow 2 bits * size
    if product % Nat.pow 2 bits ≤ zone then (product / Nat.pow 2 bits, rest)
    else below bits size zone rest

/-- The last low part that a draw below `size` from words of `bits` bits keeps: a multiple of
`size`, or of `size` shifted up as far as the word allows. -/
def shiftedZone (bits size : Nat) : Nat :=
  size * Nat.pow 2 (bits - 1 - Nat.log2 size) - 1

/-- A quantum from 0 to 100, from the low halves of the words. -/
def quantum (ws : WordSource) : Nat × WordSource := below 32 101 (shiftedZone 32 101) ws

/-- A number from 1 to `n`, from whole words. -/
def oneTo (n : Nat) (ws : WordSource) : Nat × WordSource :=
  let (k, rest) := below 64 n (shiftedZone 64 n) ws
  (k + 1, rest)

/-- Tags of `n` picks from one source. -/
def pickTags (m : Mix) : Nat → WordSource → List String
  | 0, _ => []
  | n + 1, ws =>
    let (q, rest) := quantum ws
    (m.pick q).tag :: pickTags m n rest

end WordSource

end LoadHarness
