/-
# Spelt values read back

The reader takes a spelling of a value off the front of a text, and leaves what
follows.  It gives the value unless a key is repeated in it, whatever the spelling
(`value_spelt`), for it meets the keys in the order of the text and stops at the
first that its object had before.

Every step of the way has this form: it fails with the first of some repeated
keys, or gives what was spelt (`outcome`), and what is read in two steps repeats the
keys of the first and then those of the second (`outcome_bind`).  A call has a
container less to go through, or a text that is shorter by a character at least,
so two calls per character are enough, as `read` has them.
-/

import Muster.Json.Reader
import Muster.Proofs.Json.Spelling

namespace Muster

namespace Binary64

/-! ### Natural numbers as floating-point numbers -/

/-- Rounding adds one at most. -/
theorem roundQuotient_le (num den : Nat) : roundQuotient num den ≤ num / den + 1 := by
  have hbit : num / den % 2 ≤ 1 := Nat.le_of_lt_succ (Nat.mod_lt _ (by decide))
  unfold roundQuotient
  simp only
  split <;> omega

/-- The power of two that a natural number is rounded at puts its leading bit at 2⁵². -/
theorem scaleOf_one {n : Nat} (h : n ≠ 0) : scaleOf n 1 = (n.log2 : Int) - 52 := by
  have hlead : 1 * Nat.pow 2 n.log2 ≤ n * Nat.pow 2 0 := by
    simpa using Nat.log2_self_le h
  have hone : Nat.log2 1 = 0 := rfl
  simp only [scaleOf, hone, Int.sub_zero, Int.ofNat_zero, Int.toNat_natCast, Int.toNat_neg_natCast, if_pos hlead]
  omega

/-- A natural number, scaled, is below 2⁵³. -/
theorem scaled_lt (n : Nat) :
    n * Nat.pow 2 (52 - n.log2) / (1 * Nat.pow 2 (n.log2 - 52)) < Nat.pow 2 53 := by
  rw [Nat.one_mul]
  apply Nat.div_lt_of_lt_mul
  simp only [Nat.pow_eq]
  calc n * 2 ^ (52 - n.log2) < 2 ^ (n.log2 + 1) * 2 ^ (52 - n.log2) :=
        Nat.mul_lt_mul_of_pos_right Nat.lt_log2_self (Nat.two_pow_pos _)
    _ = 2 ^ (n.log2 - 52) * 2 ^ 53 := by
      rw [← Nat.pow_add, ← Nat.pow_add]
      congr 1
      omega

/-- **A natural number of 64 bits is not too large** for a finite number. -/
theorem ofDecimal?_natural {n : Nat} (h : n < 0x10000000000000000) : (ofDecimal? n 0).isSome = true := by
  by_cases hzero : n = 0
  · subst hzero
    rfl
  have hlog : n.log2 < 64 := (Nat.log2_lt hzero).2 (by omega)
  have hlength : (Nat.toDigits 10 n).length ≤ 20 :=
    (Nat.length_toDigits_le_iff (by decide) (by decide)).2 (by omega)
  have hlow : ¬ (n = 0 ∨ ((Nat.toDigits 10 n).length : Int) + 0 < -330) := by omega
  have hhigh : ¬ ((Nat.toDigits 10 n).length : Int) + 0 > 310 := by omega
  have hup : (-((n.log2 : Int) - 52)).toNat = 52 - n.log2 := by omega
  have hdown : ((n.log2 : Int) - 52).toNat = n.log2 - 52 := by omega
  have hbits : ((n.log2 : Int) - 52 + 1074).toNat * Nat.pow 2 52 +
      roundQuotient (n * Nat.pow 2 (52 - n.log2)) (1 * Nat.pow 2 (n.log2 - 52)) < 2047 * Nat.pow 2 52 := by
    have hround := roundQuotient_le (n * Nat.pow 2 (52 - n.log2)) (1 * Nat.pow 2 (n.log2 - 52))
    have hscaled := scaled_lt n
    simp only [Nat.pow_eq] at hround hscaled ⊢
    omega
  have hquotient : (ofQuotient? n 1).isSome = true := by
    simp only [ofQuotient?, scaleOf_one hzero, hup, hdown, if_pos hbits, Option.isSome_some]
  rw [ofDecimal?, if_neg hlow, if_neg hhigh]
  simpa using hquotient

end Binary64

namespace Json

/-! ### Strings -/

/-- A hexadecimal digit is read in either case. -/
theorem hexValue?_of_isHexDigit {n : Nat} {c : Char} (h : IsHexDigit n c) : hexValue? c = some n := by
  have hall : ∀ n < 16, hexValue? (hexDigit n) = some n ∧ hexValue? (hexDigit n).toUpper = some n := by decide
  obtain ⟨hn, rfl | rfl⟩ := h
  · exact (hall n hn).1
  · exact (hall n hn).2

/-- The four digits of a unit are read as the unit. -/
theorem hexUnit?_of_hexUnit {n : Nat} {ds : List Char} (h : HexUnit n ds) :
    ∃ a b c d, ds = [a, b, c, d] ∧ hexUnit? a b c d = some n := by
  obtain ⟨ha, hb, hc, hd⟩ := h
  refine ⟨_, _, _, _, rfl, ?_⟩
  simp only [hexUnit?, hexValue?_of_isHexDigit ha, hexValue?_of_isHexDigit hb, hexValue?_of_isHexDigit hc,
    hexValue?_of_isHexDigit hd]
  rfl

/-- The numbers of characters leave the halves of pairs out. -/
theorem toNat_valid (c : Char) : c.toNat < 0xD800 ∨ 0xDFFF < c.toNat ∧ c.toNat < 0x110000 := c.valid

/-- No character is the half of a pair. -/
theorem not_half (c : Char) : isHighHalf c.toNat = false ∧ isLowHalf c.toNat = false := by
  have hvalid := toNat_valid c
  simp only [isHighHalf, isLowHalf, Bool.and_eq_false_iff, decide_eq_false_iff_not]
  omega

/-- The two halves of a character beyond U+FFFF. -/
theorem halves {c : Char} (h : 0x10000 ≤ c.toNat) :
    isHighHalf (0xD800 + (c.toNat - 0x10000) / 0x400) = true ∧
      isLowHalf (0xDC00 + (c.toNat - 0x10000) % 0x400) = true ∧
      joinHalves (0xD800 + (c.toNat - 0x10000) / 0x400) (0xDC00 + (c.toNat - 0x10000) % 0x400) = c := by
  have hvalid := toNat_valid c
  have hsum : 0x10000 + (0xD800 + (c.toNat - 0x10000) / 0x400 - 0xD800) * 0x400 +
      (0xDC00 + (c.toNat - 0x10000) % 0x400 - 0xDC00) = c.toNat := by omega
  refine ⟨?_, ?_, by rw [joinHalves, hsum, Char.ofNat_toNat]⟩
  · simp only [isHighHalf, Bool.and_eq_true, decide_eq_true_eq]
    omega
  · simp only [isLowHalf, Bool.and_eq_true, decide_eq_true_eq]
    omega

/-- **One character of a string**, however it is written. -/
theorem stringRest_char {c : Char} {xs : List Char} (h : SpeltChar c xs) (done rest : List Char) :
    stringRest done (xs ++ rest) = stringRest (c :: done) rest := by
  cases h with
  | plain hquote hbackslash hprintable =>
    rw [List.singleton_append, stringRest, if_neg (Nat.not_lt.2 hprintable)]
    all_goals intros; contradiction
  | letter hlisted =>
    simp only [escapeLetters, List.mem_cons, List.not_mem_nil, or_false, Prod.mk.injEq] at hlisted
    rcases hlisted with ⟨rfl, rfl⟩ | ⟨rfl, rfl⟩ | ⟨rfl, rfl⟩ | ⟨rfl, rfl⟩ | ⟨rfl, rfl⟩ | ⟨rfl, rfl⟩ | ⟨rfl, rfl⟩ | ⟨rfl, rfl⟩
    all_goals rfl
  | unit hunit =>
    obtain ⟨_, _, _, _, rfl, hn⟩ := hexUnit?_of_hexUnit hunit
    obtain ⟨hhigh, hlow⟩ := not_half c
    simp [stringRest, hn, hhigh, hlow, Char.ofNat_toNat]
  | pair hwide hhs hls =>
    obtain ⟨_, _, _, _, rfl, hn⟩ := hexUnit?_of_hexUnit hhs
    obtain ⟨_, _, _, _, rfl, hm⟩ := hexUnit?_of_hexUnit hls
    obtain ⟨hhigh, hlow, hjoin⟩ := halves hwide
    simp [stringRest, hn, hhigh, hm, hlow, hjoin]

/-- The characters of a string are read one by one, up to the closing quote. -/
theorem stringRest_chars {cs xs : List Char} (h : SpeltChars cs xs) (done rest : List Char) :
    stringRest done (xs ++ '"' :: rest) = .ok (String.ofList (done.reverse ++ cs), rest) := by
  induction h generalizing done with
  | nil => simp [stringRest]
  | @cons c cs xs ys hc _ ih =>
    rw [List.append_assoc, stringRest_char hc, ih, List.reverse_cons, List.append_assoc, List.singleton_append]

/-- **A string reads back**, however it is written. -/
theorem stringRest_spelt {s : String} {xs : List Char} (h : SpeltString s xs) :
    ∃ ys, xs = '"' :: ys ∧ ∀ rest, stringRest [] (ys ++ rest) = .ok (s, rest) := by
  obtain ⟨hchars⟩ := h
  refine ⟨_, rfl, fun rest => ?_⟩
  rw [List.append_assoc, List.singleton_append, stringRest_chars hchars, List.reverse_nil, List.nil_append,
    String.ofList_toList]

/-! ### Whole numbers -/

/-- What can follow a value: nothing, or what goes on with a container. -/
def EndsValue (rest : List Char) : Prop := ∀ c, rest.head? = some c → c = ',' ∨ c = ']' ∨ c = '\x7d'

/-- No digit follows a value. -/
theorem takeWhile_isDigit {rest : List Char} (h : EndsValue rest) :
    rest.takeWhile Char.isDigit = [] ∧ rest.dropWhile Char.isDigit = rest := by
  cases rest with
  | nil => exact ⟨rfl, rfl⟩
  | cons c cs => rcases h c rfl with rfl | rfl | rfl <;> exact ⟨rfl, rfl⟩

/-- A run of digits in front of what follows a value is read to its end. -/
theorem digits_append {ds rest : List Char} (hne : ds ≠ []) (hds : ∀ d ∈ ds, d.isDigit = true) (h : EndsValue rest) :
    digits (ds ++ rest) = .ok (ds, rest) := by
  obtain ⟨htake, hdrop⟩ := takeWhile_isDigit h
  rw [digits, List.takeWhile_append_of_pos hds, List.dropWhile_append_of_pos hds, htake, hdrop, List.append_nil]
  cases ds with
  | nil => contradiction
  | cons d ds => rfl

/-- The digits of a natural number have no leading zero, unless zero is all of them. -/
theorem wholeDigits_toDigits (n : Nat) {rest : List Char} (h : EndsValue rest) :
    wholeDigits (Nat.toDigits 10 n ++ rest) = .ok (Nat.toDigits 10 n, rest) := by
  have hlead : (decide ((Nat.toDigits 10 n).head? = some '0') && decide ((Nat.toDigits 10 n).length ≠ 1)) = false := by
    by_cases hzero : n = 0
    · subst hzero
      rfl
    · rw [decide_eq_false (Text.Numerals.head?_toDigits hzero), Bool.false_and]
  rw [wholeDigits, digits_append Nat.toDigits_ne_nil (fun _ => Text.Numerals.isDigit_of_mem_toDigits) h]
  simp only [bind, Except.bind, hlead]
  rfl

/-- What can follow a value is neither a fraction nor an exponent. -/
theorem noFraction {rest : List Char} (h : EndsValue rest) :
    fractionDigits rest = .ok ([], rest) ∧ exponentPart rest = .ok (none, rest) := by
  cases rest with
  | nil => exact ⟨rfl, rfl⟩
  | cons c cs => rcases h c rfl with rfl | rfl | rfl <;> exact ⟨rfl, rfl⟩

/-- A natural number of 64 bits is read behind its sign, if it is not zero behind a minus. -/
theorem numeral_toDigits {n : Nat} {isNegative : Bool} {rest : List Char} (hn : n < 0x10000000000000000)
    (hsign : (isNegative && decide (n = 0)) = false) (h : EndsValue rest) :
    numeral isNegative (Nat.toDigits 10 n ++ rest) = .ok (.int (if isNegative then -(n : Int) else n), rest) := by
  obtain ⟨r, hr⟩ := Option.isSome_iff_exists.1 (Binary64.ofDecimal?_natural hn)
  obtain ⟨hfraction, hexponent⟩ := noFraction h
  have hdecimal : Binary64.ofDecimal? n (Option.getD none 0 - ([] : List Char).length) = some r := hr
  simp only [numeral, wholeDigits_toDigits n h, hfraction, hexponent, bind, Except.bind, List.append_nil,
    Nat.ofDigitChars_ten_toDigits, hdecimal, hsign]
  rfl

/-! ### What may fail -/

/-- A reading that fails with the first of some repeated keys, or else gives something. -/
def outcome {α : Type} (keys : List String) (a : α) : Except ReadError α :=
  match keys with
  | [] => .ok a
  | key :: _ => .error (.repeatedKey key)

/-- **Reading on:** the keys repeated first come first. -/
theorem outcome_bind {α β : Type} {keys more : List String} {a : α} {b : β} {f : α → Except ReadError β}
    (h : f a = outcome more b) : outcome keys a >>= f = outcome (keys ++ more) b := by
  cases keys with
  | nil => exact h
  | cons key keys => rfl

/-- Nothing more can fail after this. -/
theorem outcome_bind_ok {α β : Type} {keys : List String} {a : α} {b : β} {f : α → Except ReadError β}
    (h : f a = .ok b) : outcome keys a >>= f = outcome keys b := by
  have hnothing : f a = outcome [] b := h
  rw [outcome_bind hnothing, List.append_nil]

/-! ### Values -/

/-- A character that a value can start with. -/
def StartsValue (c : Char) : Prop := c ∈ ['"', '[', '\x7b', 'n', 't', 'f', '-'] ∨ c.isDigit = true

/-- A spelling has a first character, which tells what kind of value it is. -/
theorem Spelt.starts {v : Json} {xs : List Char} (h : Spelt v xs) (hv : IsWhole v) :
    ∃ c cs, xs = c :: cs ∧ StartsValue c := by
  cases h with
  | null => exact ⟨_, _, rfl, .inl (by decide)⟩
  | bool b => cases b <;> exact ⟨_, _, rfl, .inl (by decide)⟩
  | int n =>
    cases n with
    | ofNat n =>
      obtain ⟨d, ds, hds, hdigit⟩ := Text.Numerals.exists_toDigits_eq_cons n
      exact ⟨d, ds, hds, .inr hdigit⟩
    | negSucc n => exact ⟨_, _, rfl, .inl (by decide)⟩
  | real r => exact hv.elim
  | str hs =>
    obtain ⟨hchars⟩ := hs
    exact ⟨_, _, rfl, .inl (by decide)⟩
  | emptyArr => exact ⟨_, _, rfl, .inl (by decide)⟩
  | arr => exact ⟨_, _, rfl, .inl (by decide)⟩
  | emptyObj => exact ⟨_, _, rfl, .inl (by decide)⟩
  | obj => exact ⟨_, _, rfl, .inl (by decide)⟩

/-- A value starts with no blank and no closing bracket. -/
theorem StartsValue.skip {c : Char} (h : StartsValue c) (cs : List Char) : skipBlanks (c :: cs) = c :: cs ∧ c ≠ ']' := by
  rcases h with hlisted | hdigit
  · simp only [List.mem_cons, List.not_mem_nil, or_false] at hlisted
    rcases hlisted with rfl | rfl | rfl | rfl | rfl | rfl | rfl <;> exact ⟨rfl, by decide⟩
  · have hne : ∀ b : Char, b.isDigit = false → c ≠ b := by
      rintro b hb rfl
      rw [hdigit] at hb
      contradiction
    refine ⟨?_, hne _ (by decide)⟩
    simp [skipBlanks, hne ' ' (by decide), hne '\t' (by decide), hne '\n' (by decide), hne '\r' (by decide)]

/-- A digit starts a numeral without a sign. -/
theorem value_digit {c : Char} (h : c.isDigit = true) (fuel depth : Nat) (cs : List Char) :
    value (fuel + 1) depth (c :: cs) = numeral false (c :: cs) := by
  rw [value, (StartsValue.skip (.inr h) cs).1]
  split
  case h_1 => contradiction
  case h_9 heq =>
    obtain ⟨rfl, rfl⟩ := List.cons.inj heq
    rw [if_pos h]
  -- the other characters that a value starts with are no digits
  all_goals
    rename_i heq
    obtain ⟨rfl, -⟩ := List.cons.inj heq
    exact absurd h (by decide)

/-- **A whole number reads back.** -/
theorem value_int {n : Int} {rest : List Char} (hn : Text.Numerals.int64.admits n = true) (h : EndsValue rest)
    (fuel depth : Nat) : value (fuel + 1) depth (Text.Numerals.write n ++ rest) = .ok (.int n, rest) := by
  have hsize : n.natAbs < 0x10000000000000000 := by
    obtain ⟨hleast, hgreatest⟩ := Text.Numerals.admits_iff.1 hn
    simp only [Text.Numerals.int64] at hleast hgreatest
    omega
  cases n with
  | ofNat n =>
    have hnumeral : numeral false (Nat.toDigits 10 n ++ rest) = .ok (.int n, rest) := numeral_toDigits hsize rfl h
    obtain ⟨d, ds, hds, hdigit⟩ := Text.Numerals.exists_toDigits_eq_cons n
    rw [Text.Numerals.write, hds, List.cons_append, value_digit hdigit, ← List.cons_append, ← hds]
    exact hnumeral
  | negSucc n =>
    have hnumeral : numeral true (Nat.toDigits 10 (n + 1) ++ rest) = .ok (.int (.negSucc n), rest) :=
      numeral_toDigits hsize (by simp) h
    rw [Text.Numerals.write, List.cons_append, value]
    exact hnumeral

/-! ### Containers -/

/-- Every spelling of a value is read as far as it goes, and gives the value, unless a
key is repeated in it. -/
def ReadsBack (v : Json) : Prop :=
  ∀ ⦃xs rest : List Char⦄ ⦃fuel depth : Nat⦄, Spelt v xs → EndsValue rest → 2 * xs.length ≤ fuel → v.depth ≤ depth →
    value fuel depth (xs ++ rest) = outcome v.repeats (v, rest)

/-- A value may end the text. -/
theorem endsValue_nil : EndsValue [] := fun _ h => absurd h (by simp)

/-- A comma and either closing bracket may follow a value. -/
theorem endsValue_cons {c : Char} (h : c = ',' ∨ c = ']' ∨ c = '\x7d') (cs : List Char) : EndsValue (c :: cs) := by
  rintro d hd
  rwa [← Option.some.inj hd]

/-- **The items of an array** are read one by one. -/
theorem items_spelt {vs : List Json} (hvs : ∀ v ∈ vs, v.ReadsBack) {xs : List Char} (h : SpeltItems vs xs)
    {fuel depth : Nat} (hfuel : 2 * xs.length ≤ fuel) (hdepth : depthOfItems vs ≤ depth) (rest : List Char) :
    items fuel depth (xs ++ rest) = outcome (repeatsOfItems vs) (vs, rest) := by
  induction vs generalizing xs fuel with
  | nil => cases h
  | cons v vs ih =>
    have hv := hvs v (List.mem_cons_self ..)
    rw [depthOfItems, Nat.max_le] at hdepth
    obtain _ | fuel := fuel
    · cases h <;> simp at hfuel
    cases h with
    | @last _ xs hspelt =>
      rw [List.length_append, List.length_singleton] at hfuel
      rw [List.append_assoc, List.singleton_append, items,
        hv hspelt (endsValue_cons (by decide) _) (by omega) hdepth.1, repeatsOfItems, repeatsOfItems, List.append_nil]
      exact outcome_bind_ok rfl
    | @cons _ _ xs ys hspelt hitems =>
      rw [List.length_append, List.length_cons] at hfuel
      have hlength : 2 * ys.length ≤ fuel := by omega
      have hrest := ih (fun w hw => hvs w (List.mem_cons_of_mem _ hw)) hitems hlength hdepth.2
      rw [List.append_assoc, List.cons_append, items,
        hv hspelt (endsValue_cons (by decide) _) (by omega) hdepth.1, repeatsOfItems]
      refine outcome_bind ?_
      show (items fuel depth (ys ++ rest) >>= fun x => pure (v :: x.1, x.2)) = _
      rw [hrest]
      exact outcome_bind_ok rfl

/-- **A key** is admitted unless the object had it before. -/
theorem admitKey_eq_outcome (seen : List String) (key : String) :
    admitKey seen key = outcome (if seen.contains key then [key] else []) (key :: seen) := by
  rw [admitKey]
  cases seen.contains key <;> rfl

/-- **A member** is read in two steps: its key, which must be new, and its value. -/
theorem members_succ {key : String} {ks : List Char} (hkey : SpeltString key ks) (fuel depth : Nat) (seen : List String)
    (cs : List Char) :
    members (fuel + 1) depth seen (ks ++ ':' :: cs) = (do
      let seen ← admitKey seen key
      let (v, cs) ← value fuel depth cs
      match skipBlanks cs with
      | '\x7d' :: cs => return ([(key, v)], cs)
      | ',' :: cs => do
        let (ms, cs) ← members fuel depth seen cs
        return ((key, v) :: ms, cs)
      | cs => throw (fault cs)) := by
  obtain ⟨ys, rfl, hread⟩ := stringRest_spelt hkey
  have hkeyRead : memberKey ('"' :: ys ++ ':' :: cs) = .ok (key, ':' :: cs) := hread (':' :: cs)
  rw [members, hkeyRead]
  rfl

/-- **The members of an object** are read one by one, and the key of each before its value. -/
theorem members_spelt {ms : List (String × Json)} (hms : ∀ v ∈ ms.map Prod.snd, v.ReadsBack) {xs : List Char}
    (h : SpeltMembers ms xs) {fuel depth : Nat} (hfuel : 2 * xs.length ≤ fuel) (hdepth : depthOfMembers ms ≤ depth)
    (seen : List String) (rest : List Char) :
    members fuel depth seen (xs ++ rest) = outcome (repeatsOfMembers seen ms) (ms, rest) := by
  induction ms generalizing xs fuel seen with
  | nil => cases h
  | cons m ms ih =>
    obtain ⟨key, v⟩ := m
    have hv := hms v (List.mem_cons_self ..)
    rw [depthOfMembers, Nat.max_le] at hdepth
    obtain _ | fuel := fuel
    · cases h <;> simp at hfuel
    cases h with
    | @last _ _ ks xs hkey hspelt =>
      simp only [List.length_append, List.length_cons, List.length_nil] at hfuel
      have hlength : 2 * xs.length ≤ fuel := by omega
      have hvalue := hv hspelt (endsValue_cons (c := '\x7d') (by decide) rest) hlength hdepth.1
      rw [List.append_assoc, List.append_assoc, List.cons_append, List.singleton_append, members_succ hkey,
        admitKey_eq_outcome, repeatsOfMembers, repeatsOfMembers, List.append_nil]
      refine outcome_bind ?_
      rw [hvalue]
      exact outcome_bind_ok rfl
    | @cons _ _ _ ks xs ys hkey hspelt hmembers =>
      simp only [List.length_append, List.length_cons] at hfuel
      have hlength : 2 * xs.length ≤ fuel := by omega
      have hlength' : 2 * ys.length ≤ fuel := by omega
      have hvalue := hv hspelt (endsValue_cons (c := ',') (by decide) (ys ++ rest)) hlength hdepth.1
      have hrest := ih (fun w hw => hms w (List.mem_cons_of_mem _ hw)) hmembers hlength' hdepth.2 (key :: seen)
      rw [List.append_assoc, List.append_assoc, List.cons_append, List.cons_append, members_succ hkey, admitKey_eq_outcome,
        repeatsOfMembers]
      refine outcome_bind ?_
      rw [hvalue]
      refine outcome_bind ?_
      show (members fuel depth (key :: seen) (ys ++ rest) >>= fun x => pure ((key, v) :: x.1, x.2)) = _
      rw [hrest]
      exact outcome_bind_ok rfl

/-- An array with an item is read by its items, one container less deep. -/
theorem value_arr {c : Char} (h : StartsValue c) (fuel depth : Nat) (cs : List Char) :
    value (fuel + 1) (depth + 1) ('[' :: c :: cs) =
      items fuel depth (c :: cs) >>= fun x => pure (.arr x.1, x.2) := by
  obtain ⟨hskip, hne⟩ := h.skip cs
  have hbracket : skipBlanks ('[' :: c :: cs) = '[' :: c :: cs := rfl
  rw [value, hbracket]
  simp only [hskip]
  split
  case h_1 heq => exact absurd (List.cons.inj heq).1 hne
  case h_2 => rfl

/-- An object with a member is read by its members, which have had no key before. -/
theorem value_obj (fuel depth : Nat) (cs : List Char) :
    value (fuel + 1) (depth + 1) ('\x7b' :: '"' :: cs) =
      members fuel depth [] ('"' :: cs) >>= fun x => pure (.obj x.1, x.2) := rfl

/-- Items start as the first of them does. -/
theorem SpeltItems.starts {vs : List Json} {xs : List Char} (h : SpeltItems vs xs) (hvs : ∀ v ∈ vs, IsWhole v) :
    ∃ c cs, xs = c :: cs ∧ StartsValue c := by
  cases h with
  | last hspelt =>
    obtain ⟨c, cs, rfl, hc⟩ := hspelt.starts (hvs _ (List.mem_cons_self ..))
    exact ⟨c, _, rfl, hc⟩
  | cons hspelt =>
    obtain ⟨c, cs, rfl, hc⟩ := hspelt.starts (hvs _ (List.mem_cons_self ..))
    exact ⟨c, _, rfl, hc⟩

/-- Members start with the quote of a key. -/
theorem SpeltMembers.starts {ms : List (String × Json)} {xs : List Char} (h : SpeltMembers ms xs) :
    ∃ cs, xs = '"' :: cs := by
  cases h with
  | last hkey =>
    obtain ⟨hchars⟩ := hkey
    exact ⟨_, rfl⟩
  | cons hkey =>
    obtain ⟨hchars⟩ := hkey
    exact ⟨_, rfl⟩

/-- **A value reads back**, however it is written: reading gives the value, or fails
with the first key that is repeated in it. -/
theorem value_spelt (v : Json) (hv : v.Everywhere IsWhole) : v.ReadsBack := by
  induction v using Json.induct with
  | step v ih =>
    obtain ⟨hwhole, hinner⟩ := everywhere_iff.1 hv
    have hreads : ∀ w ∈ v.inner, w.ReadsBack := fun w hw => ih w hw (hinner w hw)
    intro xs rest fuel depth hspelt hrest hfuel hdepth
    -- there is a call left, since a spelling has a first character
    obtain _ | fuel := fuel
    · obtain ⟨c, cs, rfl, -⟩ := hspelt.starts hwhole
      simp at hfuel
    cases hspelt with
    | null => rfl
    | bool b => cases b <;> rfl
    | int n => exact value_int hwhole hrest fuel depth
    | real r => exact hwhole.elim
    | str hs =>
      obtain ⟨ys, rfl, hread⟩ := stringRest_spelt hs
      rw [List.cons_append, value]
      show (stringRest [] (ys ++ rest) >>= _) = _
      rw [hread]
      rfl
    | emptyArr =>
      obtain _ | depth := depth
      · simp [Json.depth] at hdepth
      · rfl
    | @arr vs xs hitems =>
      obtain _ | depth := depth
      · simp [Json.depth] at hdepth
      rw [Json.depth, Nat.add_le_add_iff_right] at hdepth
      rw [List.length_cons] at hfuel
      have hlength : 2 * xs.length ≤ fuel := by omega
      have hitemsRead := items_spelt hreads hitems hlength hdepth rest
      obtain ⟨c, cs, rfl, hc⟩ := hitems.starts fun w hw => (everywhere_iff.1 (hinner w hw)).1
      rw [List.cons_append, List.cons_append, value_arr hc, ← List.cons_append, hitemsRead, repeats]
      exact outcome_bind_ok rfl
    | emptyObj =>
      obtain _ | depth := depth
      · simp [Json.depth] at hdepth
      · rfl
    | @obj ms xs hmembers =>
      obtain _ | depth := depth
      · simp [Json.depth] at hdepth
      rw [Json.depth, Nat.add_le_add_iff_right] at hdepth
      rw [List.length_cons] at hfuel
      have hlength : 2 * xs.length ≤ fuel := by omega
      have hmembersRead := members_spelt hreads hmembers hlength hdepth [] rest
      obtain ⟨cs, rfl⟩ := hmembers.starts
      rw [List.cons_append, List.cons_append, value_obj, ← List.cons_append, hmembersRead, repeats]
      exact outcome_bind_ok rfl

/-! ### Texts -/

/-- **A text of one value** fails with the first key that is repeated in the value, and
gives the value if there is none. -/
theorem read_spelt {v : Json} (hwhole : v.Everywhere IsWhole) (hdepth : v.depth ≤ maxDepth) {xs : List Char}
    (h : Spelt v xs) : read (String.ofList xs) = outcome v.repeats v := by
  have hfuel : 2 * xs.length ≤ 2 * xs.length + 2 := Nat.le_add_right ..
  have hvalue := value_spelt v hwhole h endsValue_nil hfuel hdepth
  rw [List.append_nil] at hvalue
  rw [read, String.toList_ofList]
  simp only [hvalue]
  exact outcome_bind_ok rfl

end Json
end Muster
