import ParallelFilter.Predicate
import Mathlib.Data.Nat.Prime.Basic
import Mathlib.Data.Nat.Sqrt
import Mathlib.Tactic.Ring

/-! The number predicates on machine words. Trial division tries every odd divisor up to the square
root, which is found by comparing the divisor with the quotient, so that no square is formed; a
number that is not prime has a divisor there, and an odd one if it is odd itself. The same
computations on words of a given size, where an operation may have no result and the loop has only
so many rounds, come to the same answers: the divisor stays below the number, and the square of the
root is at most the number. -/

namespace ParallelFilter.Number

/-- The sum on words below `limit`. -/
def sumWithin (limit left right : Nat) : Option Nat :=
  if left + right < limit then some (left + right) else none

/-- The product on words below `limit`. -/
def productWithin (limit left right : Nat) : Option Nat :=
  if left * right < limit then some (left * right) else none

def quotient? (n divisor : Nat) : Option Nat :=
  if divisor = 0 then none else some (n / divisor)

def remainder? (n divisor : Nat) : Option Nat :=
  if divisor = 0 then none else some (n % divisor)

/-- The loop of `hasNoDivisorFrom` on words below `limit`, for so many rounds at most. -/
def hasNoDivisorWithin (limit n : Nat) : (rounds divisor : Nat) → Option Bool
  | 0, _ => none
  | rounds + 1, divisor => do
    if divisor ≤ (← quotient? n divisor) then
      if (← remainder? n divisor) = 0 then return false
      else hasNoDivisorWithin limit n rounds (← sumWithin limit divisor 2)
    else return true

def isPrimeWithin (limit rounds n : Nat) : Option Bool := do
  if n < 2 then return false
  else if n < 4 then return true
  else if (← remainder? n 2) = 0 then return false
  else hasNoDivisorWithin limit n rounds 3

def isSquareWithin (limit n : Nat) : Option Bool := do
  return (← productWithin limit (squareRoot n) (squareRoot n)) == n

variable {limit rounds n divisor : Nat}

/-- The loop runs as long as the square of the divisor is no larger than the number. -/
theorem le_div_self_iff (hdivisor : 0 < divisor) : divisor ≤ n / divisor ↔ divisor * divisor ≤ n :=
  Nat.le_div_iff_mul_le hdivisor

/-- What is found is every divisor that the loop can come to, and that is no larger than the square
root. -/
theorem hasNoDivisorFrom_iff (hdivisor : 0 < divisor) : hasNoDivisorFrom n divisor = true ↔
    ∀ k, (divisor + 2 * k) * (divisor + 2 * k) ≤ n → ¬divisor + 2 * k ∣ n := by
  fun_induction hasNoDivisorFrom n divisor with
  | case1 divisor hle hdivides =>
      refine iff_of_false nofun fun hnone => ?_
      exact hnone 0 ((le_div_self_iff hdivisor).1 hle) (Nat.dvd_of_mod_eq_zero hdivides)
  | case2 divisor hle hdivides ih =>
      rw [ih (Nat.add_pos_left hdivisor 2)]
      constructor
      · intro hlater k hsquare
        cases k with
        | zero => exact fun hdvd => hdivides (Nat.mod_eq_zero_of_dvd hdvd)
        | succ k =>
            have hsame : divisor + 2 * (k + 1) = divisor + 2 + 2 * k := by omega
            rw [hsame] at hsquare ⊢
            exact hlater k hsquare
      · intro hnone k hsquare
        have hsame : divisor + 2 + 2 * k = divisor + 2 * (k + 1) := by omega
        rw [hsame] at hsquare ⊢
        exact hnone (k + 1) hsquare
  | case3 divisor hlt =>
      refine iff_of_true rfl fun k hsquare => absurd hsquare (Nat.not_le.2 ?_)
      calc
        n < divisor * divisor := Nat.not_le.1 fun hle => hlt ((le_div_self_iff hdivisor).2 hle)
        _ ≤ _ := Nat.mul_self_le_mul_self (Nat.le_add_right divisor (2 * k))

/-- An odd number is prime if no odd number from three on, up to its square root, divides it. -/
theorem prime_of_no_odd_divisor (htwo : 2 ≤ n) (hodd : n % 2 ≠ 0)
    (hnone : ∀ k, (3 + 2 * k) * (3 + 2 * k) ≤ n → ¬3 + 2 * k ∣ n) : n.Prime := by
  by_contra hcomposite
  have hprime : n.minFac.Prime := Nat.minFac_prime (by omega)
  have hdvd : n.minFac ∣ n := Nat.minFac_dvd n
  have hne : n.minFac ≠ 2 := fun heq => hodd (Nat.mod_eq_zero_of_dvd (heq ▸ hdvd))
  have hsquare : n.minFac * n.minFac ≤ n := by
    rw [← pow_two]
    exact Nat.minFac_sq_le_self (by omega) hcomposite
  obtain ⟨k, hk⟩ : ∃ k, n.minFac = 3 + 2 * k := by
    have hge := hprime.two_le
    have hmod := hprime.eq_two_or_odd.resolve_left hne
    exact ⟨(n.minFac - 3) / 2, by omega⟩
  rw [hk] at hsquare hdvd
  exact hnone k hsquare hdvd

theorem isPrime_iff (n : Nat) : isPrime n = true ↔ n.Prime := by
  unfold isPrime
  split
  · rename_i hlt
    exact iff_of_false nofun fun hprime => absurd hprime.two_le (Nat.not_le.2 hlt)
  · rename_i htwo
    split
    · rename_i hlt
      obtain rfl | rfl : n = 2 ∨ n = 3 := by omega
      · exact iff_of_true rfl Nat.prime_two
      · exact iff_of_true rfl Nat.prime_three
    · rename_i hfour
      split
      · rename_i heven
        refine iff_of_false nofun fun hprime => ?_
        rcases hprime.eq_two_or_odd with rfl | hodd
        · omega
        · omega
      · rename_i hodd
        rw [hasNoDivisorFrom_iff (by decide)]
        refine ⟨prime_of_no_odd_divisor (Nat.not_lt.1 htwo) hodd, fun hprime k hsquare hdvd => ?_⟩
        rcases (Nat.dvd_prime hprime).1 hdvd with hone | hself
        · omega
        · -- the number itself is past its square root
          rw [hself] at hsquare
          exact absurd hsquare (Nat.not_le.2 (Nat.lt_mul_self_iff.2 (by omega)))

/-- With every two bits the root of what was read so far doubles, and grows by one if it can. -/
theorem squareRoot_bounds (n : Nat) :
    squareRoot n * squareRoot n ≤ n ∧ n < (squareRoot n + 1) * (squareRoot n + 1) := by
  fun_induction squareRoot n with
  | case1 => decide
  | case2 n _ root hle ih =>
      have hnext : (root + 1 + 1) * (root + 1 + 1) =
          4 * ((squareRoot (n / 4) + 1) * (squareRoot (n / 4) + 1)) := by
        simp only [root]
        ring
      exact ⟨hle, by omega⟩
  | case3 n _ root hgt ih =>
      have hsquare : root * root = 4 * (squareRoot (n / 4) * squareRoot (n / 4)) := by
        simp only [root]
        ring
      exact ⟨by omega, Nat.not_le.1 hgt⟩

theorem squareRoot_eq_sqrt (n : Nat) : squareRoot n = Nat.sqrt n :=
  Nat.eq_sqrt.2 (squareRoot_bounds n)

theorem isSquare_iff (n : Nat) : isSquare n = true ↔ ∃ k, n = k * k := by
  rw [isSquare, beq_iff_eq, squareRoot_eq_sqrt, ← Nat.exists_mul_self]
  simp only [eq_comm]

/-- The loop on words comes to its end in time if its last divisor is past the square root, and no
divisor before it leaves the words. -/
theorem hasNoDivisorWithin_eq (hn : n < limit) (hdivisor : 2 ≤ divisor)
    (hrounds : n < (divisor + 2 * rounds) * (divisor + 2 * rounds)) :
    hasNoDivisorWithin limit n (rounds + 1) divisor = some (hasNoDivisorFrom n divisor) := by
  have hpos : divisor ≠ 0 := by omega
  induction rounds generalizing divisor with
  | zero =>
      have hlt : ¬divisor ≤ n / divisor := fun hle =>
        absurd ((le_div_self_iff (by omega)).1 hle) (Nat.not_le.2 hrounds)
      rw [hasNoDivisorFrom, if_neg hlt]
      simp only [hasNoDivisorWithin, quotient?, if_neg hpos, Option.bind_eq_bind,
        Option.bind_some, if_neg hlt]
      rfl
  | succ rounds ih =>
      rw [hasNoDivisorFrom]
      rw [hasNoDivisorWithin, quotient?, remainder?, if_neg hpos, if_neg hpos]
      simp only [Option.bind_eq_bind, Option.bind_some]
      by_cases hle : divisor ≤ n / divisor
      · rw [if_pos hle, if_pos hle]
        by_cases hdivides : n % divisor = 0
        · rw [if_pos hdivides, if_pos hdivides]
          rfl
        · have hfits : divisor + 2 < limit := by
            have hsquare := (le_div_self_iff (by omega)).1 hle
            have hdouble := Nat.mul_le_mul_right divisor hdivisor
            omega
          rw [if_neg hdivides, if_neg hdivides, sumWithin, if_pos hfits]
          have hsame : divisor + 2 * (rounds + 1) = divisor + 2 + 2 * rounds := by omega
          exact ih (by omega) (hsame ▸ hrounds) (by omega)
      · rw [if_neg hle, if_neg hle]
        rfl

theorem isPrimeWithin_eq (hn : n < limit) (hrounds : n < (3 + 2 * rounds) * (3 + 2 * rounds)) :
    isPrimeWithin limit (rounds + 1) n = some (isPrime n) := by
  rw [isPrimeWithin, isPrime, remainder?, if_neg two_ne_zero]
  simp only [Option.bind_eq_bind, Option.bind_some, hasNoDivisorWithin_eq hn
    (by decide : 2 ≤ 3) hrounds]
  split
  · rfl
  · split
    · rfl
    · split <;> rfl

theorem isSquareWithin_eq (hn : n < limit) : isSquareWithin limit n = some (isSquare n) := by
  have hfits : squareRoot n * squareRoot n < limit := Nat.lt_of_le_of_lt (squareRoot_bounds n).1 hn
  rw [isSquareWithin, productWithin, if_pos hfits, isSquare]
  rfl

/-- **The number predicates are right on words of 64 bits.** The test for primes ends after no more
than `2 ^ 31` rounds of its loop, no operation overflows or divides by zero on the way, and it tells
the primes; the test for squares forms no product that overflows, and it tells the squares. -/
theorem decided_on_words (hn : n < 2 ^ 64) :
    (isPrimeWithin (2 ^ 64) (2 ^ 31) n = some (NumberKind.prime.accepts n) ∧
      (NumberKind.prime.accepts n = true ↔ n.Prime)) ∧
    squareRoot n = Nat.sqrt n ∧
    isSquareWithin (2 ^ 64) n = some (NumberKind.square.accepts n) ∧
      (NumberKind.square.accepts n = true ↔ ∃ k, n = k * k) := by
  refine ⟨⟨?_, isPrime_iff n⟩, squareRoot_eq_sqrt n, isSquareWithin_eq hn, isSquare_iff n⟩
  have hrounds : 2 ^ 31 = 2147483647 + 1 := rfl
  rw [hrounds]
  exact isPrimeWithin_eq hn (by omega)

/-- The largest square of a word is neither prime nor too large to be told. -/
theorem decided_on_words_largest_square :
    18446744065119617025 < 2 ^ 64 ∧
      isSquareWithin (2 ^ 64) 18446744065119617025 = some true ∧
      isPrimeWithin (2 ^ 64) (2 ^ 31) 18446744065119617025 = some false := by
  have hn : 18446744065119617025 < 2 ^ 64 := by decide
  obtain ⟨⟨hprimes, hprime⟩, -, hsquares, hsquare⟩ := decided_on_words hn
  have hcomposite : ¬Nat.Prime 18446744065119617025 :=
    Nat.not_prime_of_dvd_of_lt (by decide : 3 ∣ 18446744065119617025) (by decide) (by decide)
  rw [hprimes, hsquares, hsquare.2 ⟨4294967295, by decide⟩, Bool.eq_false_iff.2 fun h =>
    hcomposite (hprime.1 h)]
  exact ⟨hn, rfl, rfl⟩

end ParallelFilter.Number
