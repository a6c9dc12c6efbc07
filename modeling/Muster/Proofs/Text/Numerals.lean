/-
# Written numerals read back

`Numerals.write` gives an integer its plain decimal numeral: digits, the first of
them no zero unless it is the only one, behind a minus where the integer is
negative.  Reading the numeral gives the integer back wherever it is admitted
(`read?_write`), so different integers have different numerals, and since a
numeral has no blanks, trimming leaves it alone (`trim_write`).
-/

import Muster.Scalar

namespace Muster
namespace Text
namespace Numerals

/-! ### Digits -/

/-- The decimal digits of a number are digits. -/
theorem isDigit_of_mem_toDigits {n : Nat} {c : Char} (h : c ∈ Nat.toDigits 10 n) : c.isDigit = true :=
  Nat.isDigit_of_mem_toDigits (by decide) (by decide) h

/-- Every number has a first digit. -/
theorem exists_toDigits_eq_cons (n : Nat) : ∃ d ds, Nat.toDigits 10 n = d :: ds ∧ d.isDigit = true := by
  obtain ⟨d, ds, hds⟩ := List.exists_cons_of_ne_nil (Nat.toDigits_ne_nil (n := n) (b := 10))
  exact ⟨d, ds, hds, isDigit_of_mem_toDigits (hds ▸ List.mem_cons_self ..)⟩

/-- A digit is not blank. -/
theorem isBlank_of_isDigit {c : Char} (h : c.isDigit = true) : isBlank c = false := by
  have hbounds : 48 ≤ c.toNat ∧ c.toNat ≤ 57 := by
    simpa [Char.isDigit, UInt32.le_iff_toNat_le] using h
  rw [isBlank, List.any_eq_false]
  intro r hr
  simp only [blankRanges, List.mem_cons, List.not_mem_nil, or_false] at hr
  simp only [Bool.and_eq_true, decide_eq_true_eq]
  rcases hr with rfl | rfl | rfl | rfl | rfl | rfl | rfl | rfl | rfl | rfl <;> simp only <;> omega

/-- **A numeral has no leading zero** unless it is zero. -/
theorem head?_toDigits {n : Nat} (h : n ≠ 0) : (Nat.toDigits 10 n).head? ≠ some '0' := by
  induction n using Nat.strongRecOn with
  | _ n ih =>
    rw [Nat.toDigits_eq_if (by decide)]
    split
    · simpa using h
    · next hle =>
      have hquotient : n / 10 ≠ 0 := by omega
      have hlead := ih (n / 10) (by omega) hquotient
      cases hds : Nat.toDigits 10 (n / 10) with
      | nil => exact absurd hds Nat.toDigits_ne_nil
      | cons d ds => rwa [hds] at hlead

/-- **A run of digits** is not empty, and denotes its decimal value. -/
theorem magnitude?_eq_some_iff {ds : List Char} {n : Nat} :
    magnitude? ds = some n ↔ ds ≠ [] ∧ (∀ c ∈ ds, c.isDigit = true) ∧ Nat.ofDigitChars 10 ds 0 = n := by
  rw [magnitude?, Option.ite_none_right_eq_some, Bool.and_eq_true, Bool.not_eq_true', List.isEmpty_eq_false_iff,
    List.all_eq_true, Option.some_inj, and_assoc]

/-- The digits of a number are read as the number. -/
theorem magnitude?_toDigits (n : Nat) : magnitude? (Nat.toDigits 10 n) = some n :=
  magnitude?_eq_some_iff.2 ⟨Nat.toDigits_ne_nil, fun _ => isDigit_of_mem_toDigits, Nat.ofDigitChars_ten_toDigits⟩

/-! ### Signs -/

/-- The decimal numerals with an optional sign, and the integers that they denote. -/
inductive Signed : List Char → Int → Prop where
  | plain {ds : List Char} (hne : ds ≠ []) (hds : ∀ c ∈ ds, c.isDigit = true) :
      Signed ds (Nat.ofDigitChars 10 ds 0)
  | plus {ds : List Char} (hne : ds ≠ []) (hds : ∀ c ∈ ds, c.isDigit = true) :
      Signed ('+' :: ds) (Nat.ofDigitChars 10 ds 0)
  | minus {ds : List Char} (hne : ds ≠ []) (hds : ∀ c ∈ ds, c.isDigit = true) :
      Signed ('-' :: ds) (-(Nat.ofDigitChars 10 ds 0 : Int))

variable {k : Numerals} {n : Int}

/-- **A run of digits has no sign.** -/
theorem signed?_of_magnitude? {ds : List Char} {n : Nat} (h : magnitude? ds = some n) :
    k.signed? ds = some (n : Int) := by
  have hdigits := (magnitude?_eq_some_iff.1 h).2.1
  unfold signed?
  split
  · next ds =>
    have hplus : '+'.isDigit = true := hdigits _ (List.mem_cons_self ..)
    exact absurd hplus (by decide)
  · next ds =>
    have hminus : '-'.isDigit = true := hdigits _ (List.mem_cons_self ..)
    exact absurd hminus (by decide)
  · rw [h]
    rfl

/-- What is read behind a sign is written with one, or with none. -/
theorem Signed.of_signed? {cs : List Char} (h : k.signed? cs = some n) : Signed cs n := by
  unfold signed? at h
  split at h
  · obtain ⟨m, hm, rfl⟩ := Option.map_eq_some_iff.1 h
    obtain ⟨hne, hds, rfl⟩ := magnitude?_eq_some_iff.1 hm
    exact .plus hne hds
  · obtain ⟨-, h⟩ := Option.ite_none_right_eq_some.1 h
    obtain ⟨_, hm, rfl⟩ := Option.map_eq_some_iff.1 h
    obtain ⟨m, hm, hcast⟩ := Option.bind_eq_some_iff.1 hm
    obtain ⟨hne, hds, rfl⟩ := magnitude?_eq_some_iff.1 hm
    obtain rfl := Option.some.inj hcast
    exact .minus hne hds
  · obtain ⟨m, hm, rfl⟩ := Option.map_eq_some_iff.1 h
    obtain ⟨hne, hds, rfl⟩ := magnitude?_eq_some_iff.1 hm
    exact .plain hne hds

/-- **What reads as an integer** where a minus is a sign. -/
theorem signed?_eq_some_iff {cs : List Char} (hk : k.least < 0) : k.signed? cs = some n ↔ Signed cs n := by
  refine ⟨.of_signed?, fun h => ?_⟩
  cases h with
  | plain hne hds => exact signed?_of_magnitude? (magnitude?_eq_some_iff.2 ⟨hne, hds, rfl⟩)
  | plus hne hds =>
    rw [signed?, magnitude?_eq_some_iff.2 ⟨hne, hds, rfl⟩]
    rfl
  | minus hne hds =>
    rw [signed?, if_pos hk, magnitude?_eq_some_iff.2 ⟨hne, hds, rfl⟩]
    rfl

/-- Digits without a sign are read as the number. -/
theorem signed?_toDigits (n : Nat) : k.signed? (Nat.toDigits 10 n) = some (n : Int) :=
  signed?_of_magnitude? (magnitude?_toDigits n)

/-- The integers of a kind lie between its least and its greatest. -/
theorem admits_iff : k.admits n = true ↔ k.least ≤ n ∧ n ≤ k.greatest := by
  rw [admits, Bool.and_eq_true, decide_eq_true_eq, decide_eq_true_eq]

/-- **A written numeral reads back** where its integer is admitted. -/
theorem read?_write (h : k.admits n = true) : k.read? (write n) = some n := by
  have hsigned : k.signed? (write n) = some n := by
    cases n with
    | ofNat n => exact signed?_toDigits n
    | negSucc n =>
      have hleast : k.least < 0 := Int.lt_of_le_of_lt (admits_iff.1 h).1 (Int.negSucc_lt_zero n)
      rw [write, signed?, if_pos hleast, magnitude?_toDigits]
      rfl
  rw [read?, hsigned, Option.filter_some, if_pos h]

/-- A numeral consists of digits and perhaps a minus. -/
theorem isDigit_or_of_mem_write {c : Char} (h : c ∈ write n) : c.isDigit = true ∨ c = '-' := by
  cases n with
  | ofNat n => exact .inl (isDigit_of_mem_toDigits h)
  | negSucc n =>
    rcases List.mem_cons.1 h with rfl | h
    · exact .inr rfl
    · exact .inl (isDigit_of_mem_toDigits h)

/-- Trimming leaves digits and minuses alone. -/
theorem trim_eq_self_of_digits {cs : List Char} (h : ∀ c ∈ cs, c.isDigit = true ∨ c = '-') : trim cs = cs := by
  have hchars : ∀ c ∈ cs, isBlank c = false := by
    intro c hc
    rcases h c hc with hdigit | rfl
    · exact isBlank_of_isDigit hdigit
    · decide
  exact trim_eq_self (fun c hc => hchars c (List.mem_of_head? hc)) fun c hc => hchars c (List.mem_of_getLast? hc)

/-- **Trimming leaves a numeral alone.** -/
theorem trim_write (n : Int) : trim (write n) = write n :=
  trim_eq_self_of_digits fun _ => isDigit_or_of_mem_write

/-- Every 64-bit integer is in range. -/
theorem admits_int64 (n : Int64) : int64.admits n.toInt = true :=
  admits_iff.2 ⟨n.le_toInt, Int.le_sub_one_of_lt n.toInt_lt⟩

/-- **The numeral of a 64-bit integer reads back.** -/
theorem int64?_write (n : Int64) : int64? (write n.toInt) = some n := by
  rw [int64?, read?_write (admits_int64 n), Option.map_some, Int64.ofInt_toInt]

end Numerals
end Text
end Muster
