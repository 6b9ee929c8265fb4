/-!
# Digits and numbers

Numbers are written in a heap log in two bases: addresses in sixteen, element indices in ten.
`Numeral.read?` takes a run of digits of a base and nothing else: at least one digit, no sign, no
separator, letters in either case.  Writing is core's `Nat.toDigits`, whose letters are lower case.

**Reading undoes writing.**  `read?_toDigits` holds in every base from two to sixteen.  The
converse fails on purpose: leading zeros and capital letters are read as well, so one number has
many spellings.
-/

namespace HeapReplay.Numeral

/-- The value of a character as a digit below sixteen. -/
def hexValue? (c : Char) : Option Nat :=
  if '0' ≤ c ∧ c ≤ '9' then some (c.toNat - 48)
  else if 'a' ≤ c ∧ c ≤ 'f' then some (c.toNat - 87)
  else if 'A' ≤ c ∧ c ≤ 'F' then some (c.toNat - 55)
  else none

/-- The value of a character as a digit of `base`, for bases up to sixteen. -/
def digit? (base : Nat) (c : Char) : Option Nat :=
  (hexValue? c).filter (· < base)

/-- The number with the given digit values, most significant first. -/
def ofDigits (base : Nat) (ds : List Nat) : Nat :=
  ds.foldl (fun n d => base * n + d) 0

/-- The number spelled by a non-empty run of digits of `base`. -/
def read? (base : Nat) (cs : List Char) : Option Nat :=
  if cs.isEmpty then none else (cs.mapM (digit? base)).map (ofDigits base)

/-! ## Reading what was written -/

theorem digit?_digitChar {base d : Nat} (hb : base ≤ 16) (h : d < base) :
    digit? base d.digitChar = some d := by
  have hd : d < 16 := by omega
  have hv : ∀ e < 16, hexValue? (Nat.digitChar e) = some e := by decide
  simp [digit?, hv d hd, h]

theorem ofDigits_append_singleton (base : Nat) (ds : List Nat) (d : Nat) :
    ofDigits base (ds ++ [d]) = base * ofDigits base ds + d := by
  simp [ofDigits]

/-- The digits of a number, each read on its own. -/
theorem mapM_digit?_toDigits {base : Nat} (h1 : 1 < base) (hb : base ≤ 16) (n : Nat) :
    ∃ ds, (Nat.toDigits base n).mapM (digit? base) = some ds ∧ ofDigits base ds = n := by
  induction n using Nat.strongRecOn with
  | ind n ih =>
    by_cases hn : n < base
    · exact ⟨[n], by simp [Nat.toDigits_of_lt_base hn, digit?_digitChar hb hn], by simp [ofDigits]⟩
    · obtain ⟨ds, hds, hval⟩ := ih (n / base) (Nat.div_lt_self (by omega) h1)
      have hr : n % base < base := Nat.mod_lt _ (by omega)
      refine ⟨ds ++ [n % base], ?_, ?_⟩
      · rw [Nat.toDigits_of_base_le h1 (by omega)]
        simp [List.mapM_append, hds, digit?_digitChar hb hr]
      · rw [ofDigits_append_singleton, hval, Nat.div_add_mod]

theorem read?_toDigits {base : Nat} (h1 : 1 < base) (hb : base ≤ 16) (n : Nat) :
    read? base (Nat.toDigits base n) = some n := by
  obtain ⟨ds, hds, hval⟩ := mapM_digit?_toDigits h1 hb n
  have hne : (Nat.toDigits base n).isEmpty = false := by simp [Nat.toDigits_ne_nil]
  simp [read?, hne, hds, hval]

end HeapReplay.Numeral
