/-!
# The number that a numeral stands for

A script writes positions and indices with all their digits, but the language that runs it has
floating-point numbers only, with 53 significant binary digits.  A numeral stands for the number that
is nearest to it, for the even one of two that are equally near; beyond the largest number there is
only infinity.

**Small numerals are exact.**  `ofNat_of_le` says so up to `exactBound`.  Above, numerals that
differ can stand for one number, and a slot of an object cannot tell them apart.
-/

namespace HeapReplay.Script

/-- A number of the language, as far as numerals without a sign or a fraction reach. -/
inductive Number where
  | finite (value : Nat)
  | infinite
deriving DecidableEq, Repr

namespace Number

/-- The multiple of `unit` that is nearest to `n`, the even one of two that are equally near. -/
def nearestMultiple (unit n : Nat) : Nat :=
  let quotient := n / unit
  let rest := n % unit
  if 2 * rest < unit ∨ (2 * rest = unit ∧ quotient % 2 = 0) then quotient * unit
  else (quotient + 1) * unit

/-- The value that is nearest to `n` among those with 53 significant binary digits. -/
def nearest (n : Nat) : Nat :=
  nearestMultiple (Nat.pow 2 (n.log2 - 52)) n

/-- The number up to which 53 significant binary digits are enough for all whole numbers. -/
def exactBound : Nat :=
  Nat.pow 2 53

/-- The number that the numeral of `n` stands for.  Finite numbers have 1024 binary digits at most. -/
def ofNat (n : Nat) : Number :=
  if (nearest n).log2 < 1024 then .finite (nearest n) else .infinite

/-- No multiple of a unit is further away than half of the unit. -/
theorem nearestMultiple_error {unit : Nat} (h : 0 < unit) (n : Nat) :
    2 * n ≤ 2 * nearestMultiple unit n + unit ∧ 2 * nearestMultiple unit n ≤ 2 * n + unit := by
  have hdiv : n / unit * unit + n % unit = n := Nat.div_add_mod' n unit
  have hrest : n % unit < unit := Nat.mod_lt n h
  rw [nearestMultiple]
  split
  · omega
  · rw [Nat.add_one_mul (n / unit) unit]
    omega

/-- A multiple of a unit is the nearest one. -/
theorem nearestMultiple_of_dvd {unit n : Nat} (h : 0 < unit) (hn : unit ∣ n) :
    nearestMultiple unit n = n := by
  have hrest : n % unit = 0 := Nat.mod_eq_zero_of_dvd hn
  rw [nearestMultiple, if_pos (by omega), Nat.div_mul_cancel hn]

/-- Up to the bound, the nearest value is the number itself. -/
theorem nearest_of_le {n : Nat} (h : n ≤ exactBound) : nearest n = n := by
  refine nearestMultiple_of_dvd (Nat.two_pow_pos _) ?_
  rw [Nat.pow_eq]
  rcases Nat.lt_or_eq_of_le h with hlt | rfl
  · have hlog : n.log2 ≤ 52 := by
      by_cases hn : n = 0
      · simp [hn]
      · exact Nat.le_of_lt_succ ((Nat.log2_lt hn).mpr hlt)
    rw [Nat.sub_eq_zero_of_le hlog]
    exact Nat.one_dvd n
  · rw [exactBound, Nat.pow_eq, Nat.log2_two_pow]
    exact Nat.pow_dvd_pow 2 (by decide)

/-- **Numerals up to the bound are exact.** -/
theorem ofNat_of_le {n : Nat} (h : n ≤ exactBound) : ofNat n = .finite n := by
  have hlog : n.log2 < 1024 := by
    by_cases hn : n = 0
    · simp [hn]
    · have hdigits : n.log2 < 54 :=
        (Nat.log2_lt hn).mpr (Nat.lt_of_le_of_lt h (Nat.pow_lt_pow_succ (by decide)))
      exact Nat.lt_trans hdigits (by decide)
  rw [ofNat, nearest_of_le h, if_pos hlog]

/-- The first numeral that is not exact stands for the number before it. -/
example : ofNat (exactBound + 1) = .finite exactBound := by decide +kernel

end Number

end HeapReplay.Script
