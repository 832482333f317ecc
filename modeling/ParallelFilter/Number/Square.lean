/-! Integer square roots, two bits at a time, and the test for squares that they give. -/

namespace ParallelFilter.Number

/-- The largest number whose square is at most `n`. -/
def squareRoot (n : Nat) : Nat :=
  if n = 0 then 0
  else
    let root := 2 * squareRoot (n / 4)
    if (root + 1) * (root + 1) ≤ n then root + 1 else root
termination_by n

def isSquare (n : Nat) : Bool :=
  squareRoot n * squareRoot n == n

end ParallelFilter.Number
