import AlgorithmPortfolio.Text.Numeral

/-!
# What is read as a numeral

- `IsDigits`: at least one digit and nothing else.
- `readDigits_eq_ok_iff`: digits are read as the number that they write, if it is within the
  bound.
- `readNumeral_eq_ok_iff`: a numeral is digits, perhaps after a plus sign.
- `readNumeral_toString`: every number within the bound is read back from its own numeral.
-/

namespace AlgorithmPortfolio.Text

/-- At least one digit and nothing else. -/
structure IsDigits (cs : List Char) : Prop where
  ne_nil : cs ≠ []
  isDigit : ∀ c ∈ cs, c.isDigit

theorem isDigits_toString (n : Nat) : IsDigits (toString n).toList := by
  rw [Nat.toString_eq_ofList_toDigits, String.toList_ofList]
  exact ⟨Nat.toDigits_ne_nil, fun _ hc => Nat.isDigit_of_mem_toDigits (by decide) (by decide) hc⟩

theorem ofDigitChars_toString (n : Nat) : Nat.ofDigitChars 10 (toString n).toList 0 = n := by
  rw [Nat.toString_eq_ofList_toDigits, String.toList_ofList, Nat.ofDigitChars_ten_toDigits]

/-- No character but a digit stands in the numeral of a number. -/
theorem not_mem_toString (n : Nat) {c : Char} (hc : c.isDigit = false) :
    c ∉ (toString n).toList := by
  intro hmem
  exact Bool.false_ne_true (hc.symm.trans ((isDigits_toString n).isDigit c hmem))

/-- More digits never make a number smaller, so a number beyond the bound stays beyond it. -/
theorem le_ofDigitChars (cs : List Char) (acc : Nat) : acc ≤ Nat.ofDigitChars 10 cs acc := by
  rw [Nat.ofDigitChars_eq_ofDigitChars_zero]
  have hpow : 0 < 10 ^ cs.length := Nat.pow_pos (by decide)
  have hmul : acc ≤ 10 ^ cs.length * acc := Nat.le_mul_of_pos_left acc hpow
  omega

theorem readDigits_eq_ok_iff {bound acc value : Nat} {cs : List Char} (hacc : acc ≤ bound) :
    readDigits bound acc cs = .ok value ↔
      (∀ c ∈ cs, c.isDigit) ∧ Nat.ofDigitChars 10 cs acc = value ∧ value ≤ bound := by
  induction cs generalizing acc with
  | nil =>
    simp only [readDigits, Except.ok.injEq, List.not_mem_nil, false_implies, implies_true,
      Nat.ofDigitChars_nil, true_and]
    exact ⟨fun h => ⟨h, h ▸ hacc⟩, And.left⟩
  | cons c rest ih =>
    rw [readDigits, digitValue?, Nat.ofDigitChars_cons]
    by_cases hc : c.isDigit
    · have hrest : (∀ d ∈ c :: rest, d.isDigit) ↔ ∀ d ∈ rest, d.isDigit := by simp [hc]
      rw [hrest, if_pos hc]
      -- the value only grows with more digits, so one over the bound stays over it
      by_cases hle : 10 * acc + (c.toNat - '0'.toNat) ≤ bound
      · simp only [if_pos hle]
        exact ih hle
      · simp only [if_neg hle, reduceCtorEq, false_iff]
        rintro ⟨-, rfl, hvalue⟩
        exact hle (Nat.le_trans (le_ofDigitChars rest _) hvalue)
    · simp [hc]

theorem readNumeral_plus {bound : Nat} {rest : List Char} (hrest : rest ≠ []) :
    readNumeral bound ('+' :: rest) = readDigits bound 0 rest := by
  cases rest with
  | nil => exact absurd rfl hrest
  | cons c cs => rfl

theorem readNumeral_of_ne_plus {bound : Nat} {c : Char} {rest : List Char} (hc : c ≠ '+') :
    readNumeral bound (c :: rest) = readDigits bound 0 (c :: rest) := by
  rw [readNumeral] <;> simp [hc]

theorem readNumeral_eq_ok_iff {bound value : Nat} {cs : List Char} :
    readNumeral bound cs = .ok value ↔
      ∃ digits, (cs = digits ∨ cs = '+' :: digits) ∧ IsDigits digits ∧
        Nat.ofDigitChars 10 digits 0 = value ∧ value ≤ bound := by
  have hplus : '+'.isDigit = false := by decide
  constructor
  · intro h
    match cs, h with
    | c :: rest, h =>
      -- a sign is taken off first, if digits follow it
      by_cases hc : c = '+'
      · subst hc
        by_cases hrest : rest = []
        · subst hrest
          exact nomatch h
        · rw [readNumeral_plus hrest, readDigits_eq_ok_iff (Nat.zero_le _)] at h
          exact ⟨rest, .inr rfl, ⟨hrest, h.1⟩, h.2⟩
      · rw [readNumeral_of_ne_plus hc, readDigits_eq_ok_iff (Nat.zero_le _)] at h
        exact ⟨c :: rest, .inl rfl, ⟨List.cons_ne_nil _ _, h.1⟩, h.2⟩
  · rintro ⟨digits, hcs, hdigits, hvalue⟩
    have hread : readDigits bound 0 digits = .ok value :=
      (readDigits_eq_ok_iff (Nat.zero_le _)).mpr ⟨hdigits.isDigit, hvalue⟩
    obtain rfl | rfl := hcs
    · -- digits do not start with a sign
      match cs, hdigits with
      | [], hdigits => exact absurd rfl hdigits.ne_nil
      | c :: rest, hdigits =>
        have hc : c ≠ '+' := fun h => by
          simpa [h, hplus] using hdigits.isDigit c List.mem_cons_self
        rwa [readNumeral_of_ne_plus hc]
    · rwa [readNumeral_plus hdigits.ne_nil]

theorem readNumeral_toString {bound n : Nat} (hn : n ≤ bound) :
    readNumeral bound (toString n).toList = .ok n :=
  readNumeral_eq_ok_iff.mpr
    ⟨_, .inl rfl, isDigits_toString n, ofDigitChars_toString n, hn⟩

end AlgorithmPortfolio.Text
