/-!
# Pairwise sums

Long sums are split in halves so that rounding errors grow slowly. Up to 128 numbers are added in
eight interleaved rows; fewer than eight are added from left to right.
-/
namespace Reckon.Number

/-- Adds a block of eight numbers to eight row sums. -/
def addRows (rows block : List Float) : List Float :=
  List.zipWith (· + ·) rows block

/-- Adds up eight row sums in pairs. -/
def rowTotal : List Float → Float
  | [a, b, c, d, e, f, g, h] => ((a + b) + (c + d)) + ((e + f) + (g + h))
  | rows => rows.foldl (· + ·) 0.0

/-- Adds whole blocks of eight to the row sums, and then the numbers left over one by one. -/
def sumBlocks (rows : List Float) : Nat → List Float → Float
  | 0, rest => rest.foldl (· + ·) (rowTotal rows)
  | blocks + 1, xs => sumBlocks (addRows rows (xs.take 8)) blocks (xs.drop 8)

/-- The size up to which a sum is not split. -/
def blockLimit : Nat := 128

/-- The size of the first part of a sum that is split: half of it, down to a multiple of eight. -/
def splitPoint (n : Nat) : Nat :=
  n / 2 - n / 2 % 8

/-- The pairwise sum, with at most `depth` levels of splitting. -/
def pairwiseWithin : Nat → List Float → Float
  | depth, xs =>
    if xs.length < 8 then xs.foldl (· + ·) 0.0
    else if xs.length ≤ blockLimit then
      sumBlocks (xs.take 8) (xs.length / 8 - 1) (xs.drop 8)
    else match depth with
      | 0 => xs.foldl (· + ·) 0.0
      | depth + 1 =>
        let n := splitPoint xs.length
        pairwiseWithin depth (xs.take n) + pairwiseWithin depth (xs.drop n)

/-- The sum of a list of doubles. Halving it as often as it has elements is more than enough. -/
def sum (xs : List Float) : Float :=
  0.0 + pairwiseWithin xs.length xs

end Reckon.Number
