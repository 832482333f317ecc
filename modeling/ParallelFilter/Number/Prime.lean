/-! Primality by trial division. Past the even numbers only odd divisors are tried, and only while the
divisor is at most the quotient, so no square is ever formed. -/

namespace ParallelFilter.Number

/-- Whether no odd divisor from `divisor` on, up to the square root, divides `n`. -/
def hasNoDivisorFrom (n divisor : Nat) : Bool :=
  if divisor ≤ n / divisor then
    if n % divisor = 0 then false else hasNoDivisorFrom n (divisor + 2)
  else true
termination_by n + 2 - divisor
decreasing_by
  have := Nat.div_le_self n divisor
  omega

def isPrime (n : Nat) : Bool :=
  if n < 2 then false
  else if n < 4 then true
  else if n % 2 = 0 then false
  else hasNoDivisorFrom n 3

end ParallelFilter.Number
