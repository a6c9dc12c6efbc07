/-
# The spellings of a JSON value

Compact text has no blanks, but a value can still be written in many ways, since a
character of a string can:

| character | in a string |
| --- | --- |
| any but the quote, the backslash and the controls | itself |
| one of eight | a backslash and a letter of its own |
| any below U+10000 | a backslash, `u` and four hexadecimal digits, in either case |
| any other | two such units, the halves of a pair |

`Spelt` is the grammar of these texts, and the printer follows it (`spelt_write`).
It says nothing about the keys of an object, which may repeat: `repeats` lists the
keys that stand where their object had them before, in the order of the text, and
there are none if and only if the keys of every object differ (`repeats_eq_nil_iff`).
-/

import Muster.Json.Printer
import Muster.Proofs.Text.Numerals

namespace Muster
namespace Json

/-! ### Strings -/

/-- The digits for a number below sixteen. -/
def IsHexDigit (n : Nat) (c : Char) : Prop := n < 16 ∧ (c = hexDigit n ∨ c = (hexDigit n).toUpper)

/-- The four hexadecimal digits of a 16-bit unit. -/
inductive HexUnit : Nat → List Char → Prop where
  | digits {a b c d : Nat} {w x y z : Char} (ha : IsHexDigit a w) (hb : IsHexDigit b x) (hc : IsHexDigit c y)
      (hd : IsHexDigit d z) : HexUnit (((a * 16 + b) * 16 + c) * 16 + d) [w, x, y, z]

/-- The letters of the short escapes and what they stand for. -/
def escapeLetters : List (Char × Char) :=
  [('"', '"'), ('\\', '\\'), ('/', '/'), ('b', '\x08'), ('f', '\x0c'), ('n', '\n'), ('r', '\r'), ('t', '\t')]

/-- How a character can stand in a string. -/
inductive SpeltChar : Char → List Char → Prop where
  | plain {c : Char} (quote : c ≠ '"') (backslash : c ≠ '\\') (printable : 0x20 ≤ c.toNat) : SpeltChar c [c]
  | letter {e c : Char} (listed : (e, c) ∈ escapeLetters) : SpeltChar c ['\\', e]
  | unit {c : Char} {ds : List Char} (unit : HexUnit c.toNat ds) : SpeltChar c ('\\' :: 'u' :: ds)
  | pair {c : Char} {hs ls : List Char} (wide : 0x10000 ≤ c.toNat)
      (high : HexUnit (0xD800 + (c.toNat - 0x10000) / 0x400) hs)
      (low : HexUnit (0xDC00 + (c.toNat - 0x10000) % 0x400) ls) :
      SpeltChar c ('\\' :: 'u' :: (hs ++ '\\' :: 'u' :: ls))

/-- How the characters of a string can stand in it. -/
inductive SpeltChars : List Char → List Char → Prop where
  | nil : SpeltChars [] []
  | cons {c : Char} {cs xs ys : List Char} (head : SpeltChar c xs) (tail : SpeltChars cs ys) :
      SpeltChars (c :: cs) (xs ++ ys)

/-- How a string can be written. -/
inductive SpeltString : String → List Char → Prop where
  | quoted {s : String} {xs : List Char} (chars : SpeltChars s.toList xs) : SpeltString s ('"' :: (xs ++ ['"']))

/-! ### Values -/

mutual

/-- How a value can be written without blanks; a number is written in one way only. -/
inductive Spelt : Json → List Char → Prop where
  | null : Spelt .null "null".toList
  | bool (b : Bool) : Spelt (.bool b) (if b then "true" else "false").toList
  | int (n : Int) : Spelt (.int n) (Text.Numerals.write n)
  | real (r : Binary64) : Spelt (.real r) r.jsonText
  | str {s : String} {xs : List Char} (string : SpeltString s xs) : Spelt (.str s) xs
  | emptyArr : Spelt (.arr []) ['[', ']']
  | arr {vs : List Json} {xs : List Char} (items : SpeltItems vs xs) : Spelt (.arr vs) ('[' :: xs)
  | emptyObj : Spelt (.obj []) ['\x7b', '\x7d']
  | obj {ms : List (String × Json)} {xs : List Char} (members : SpeltMembers ms xs) : Spelt (.obj ms) ('\x7b' :: xs)

/-- How the items of an array, one at least, can be written, the closing bracket included. -/
inductive SpeltItems : List Json → List Char → Prop where
  | last {v : Json} {xs : List Char} (value : Spelt v xs) : SpeltItems [v] (xs ++ [']'])
  | cons {v : Json} {vs : List Json} {xs ys : List Char} (value : Spelt v xs) (items : SpeltItems vs ys) :
      SpeltItems (v :: vs) (xs ++ ',' :: ys)

/-- How the members of an object, one at least, can be written, the closing brace included. -/
inductive SpeltMembers : List (String × Json) → List Char → Prop where
  | last {key : String} {v : Json} {ks xs : List Char} (name : SpeltString key ks) (value : Spelt v xs) :
      SpeltMembers [(key, v)] (ks ++ ':' :: xs ++ ['\x7d'])
  | cons {key : String} {v : Json} {ms : List (String × Json)} {ks xs ys : List Char} (name : SpeltString key ks)
      (value : Spelt v xs) (members : SpeltMembers ms ys) : SpeltMembers ((key, v) :: ms) (ks ++ ':' :: xs ++ ',' :: ys)

end

/-! ### What a value consists of -/

/-- The values right within a value. -/
def inner : Json → List Json
  | arr vs => vs
  | obj ms => ms.map Prod.snd
  | _ => []

mutual

/-- **Induction on a value**, by what is right within it. -/
theorem induct {motive : Json → Prop} (step : ∀ v, (∀ w ∈ v.inner, motive w) → motive v) : ∀ v, motive v
  | null => step _ nofun
  | bool _ => step _ nofun
  | int _ => step _ nofun
  | real _ => step _ nofun
  | str _ => step _ nofun
  | arr vs => step _ (induct_items step vs)
  | obj ms => step _ (induct_members step ms)

/-- What holds of a value by what is within it holds of all items of an array. -/
theorem induct_items {motive : Json → Prop} (step : ∀ v, (∀ w ∈ v.inner, motive w) → motive v) :
    ∀ vs : List Json, ∀ w ∈ vs, motive w
  | [] => nofun
  | v :: vs => List.forall_mem_cons.2 ⟨induct step v, induct_items step vs⟩

/-- What holds of a value by what is within it holds of the values of all members of an object. -/
theorem induct_members {motive : Json → Prop} (step : ∀ v, (∀ w ∈ v.inner, motive w) → motive v) :
    ∀ ms : List (String × Json), ∀ w ∈ ms.map Prod.snd, motive w
  | [] => nofun
  | (_, v) :: ms => List.forall_mem_cons.2 ⟨induct step v, induct_members step ms⟩

end

/-- A property of a value and of all values within it. -/
inductive Everywhere (P : Json → Prop) : Json → Prop where
  | value {v : Json} (here : P v) (within : ∀ w ∈ v.inner, Everywhere P w) : Everywhere P v

/-- A property everywhere in a value is one of the value, and everywhere in what is right within it.
-/
theorem everywhere_iff {P : Json → Prop} {v : Json} : v.Everywhere P ↔ P v ∧ ∀ w ∈ v.inner, w.Everywhere P :=
  ⟨fun | .value here within => ⟨here, within⟩, fun h => .value h.1 h.2⟩

/-- A number is a signed 64-bit integer. -/
def IsWhole : Json → Prop
  | int n => Text.Numerals.int64.admits n = true
  | real _ => False
  | _ => True

/-- The keys of an object differ. -/
def HasUniqueKeys : Json → Prop
  | obj ms => (ms.map Prod.fst).Nodup
  | _ => True

mutual

/-- How deep arrays and objects nest in a value. -/
def depth : Json → Nat
  | arr vs => depthOfItems vs + 1
  | obj ms => depthOfMembers ms + 1
  | _ => 0

/-- How deep arrays and objects nest in the items of an array. -/
def depthOfItems : List Json → Nat
  | [] => 0
  | v :: vs => max v.depth (depthOfItems vs)

/-- How deep arrays and objects nest in the members of an object. -/
def depthOfMembers : List (String × Json) → Nat
  | [] => 0
  | (_, v) :: ms => max v.depth (depthOfMembers ms)

end

/-! ### Repeated keys -/

mutual

/-- The keys, in the order of the text, that stand in an object which had them before. -/
def repeats : Json → List String
  | arr vs => repeatsOfItems vs
  | obj ms => repeatsOfMembers [] ms
  | _ => []

/-- The repeated keys within the items of an array. -/
def repeatsOfItems : List Json → List String
  | [] => []
  | v :: vs => v.repeats ++ repeatsOfItems vs

/-- The repeated keys among and within members of an object that has had the keys `seen`. -/
def repeatsOfMembers (seen : List String) : List (String × Json) → List String
  | [] => []
  | (key, v) :: ms => (if seen.contains key then [key] else []) ++ (v.repeats ++ repeatsOfMembers (key :: seen) ms)

end

/-- Items repeat no key if each of them by itself repeats none. -/
theorem repeatsOfItems_eq_nil_iff {vs : List Json} : repeatsOfItems vs = [] ↔ ∀ v ∈ vs, v.repeats = [] := by
  induction vs with
  | nil => simp [repeatsOfItems]
  | cons v vs ih => rw [repeatsOfItems, List.append_eq_nil_iff, ih, List.forall_mem_cons]

/-- Members repeat no key if their keys differ, from each other and from those before, and no value
within them repeats one. -/
theorem repeatsOfMembers_eq_nil_iff {ms : List (String × Json)} {seen : List String} :
    repeatsOfMembers seen ms = [] ↔
      ((ms.map Prod.fst).Nodup ∧ ∀ key ∈ ms.map Prod.fst, key ∉ seen) ∧ ∀ v ∈ ms.map Prod.snd, v.repeats = [] := by
  induction ms generalizing seen with
  | nil => simp [repeatsOfMembers]
  | cons m ms ih =>
    obtain ⟨key, v⟩ := m
    have hkey : (if seen.contains key then [key] else []) = [] ↔ key ∉ seen := by simp
    have hseen : (∀ k ∈ ms.map Prod.fst, k ∉ key :: seen) ↔
        key ∉ ms.map Prod.fst ∧ ∀ k ∈ ms.map Prod.fst, k ∉ seen := by
      simp only [List.mem_cons, not_or]
      exact ⟨fun h => ⟨fun hmem => (h key hmem).1 rfl, fun k hk => (h k hk).2⟩,
        fun h k hk => ⟨fun heq => h.1 (heq ▸ hk), h.2 k hk⟩⟩
    rw [repeatsOfMembers, List.append_eq_nil_iff, List.append_eq_nil_iff, hkey, ih, hseen, List.map_cons, List.map_cons,
      List.nodup_cons, List.forall_mem_cons, List.forall_mem_cons]
    constructor
    · rintro ⟨hfresh, hv, ⟨hnodup, hnotin, hms⟩, hvs⟩
      exact ⟨⟨⟨hnotin, hnodup⟩, hfresh, hms⟩, hv, hvs⟩
    · rintro ⟨⟨⟨hnotin, hnodup⟩, hfresh, hms⟩, hv, hvs⟩
      exact ⟨hfresh, hv, ⟨hnodup, hnotin, hms⟩, hvs⟩

/-- **No key is repeated** if and only if the keys of every object differ. -/
theorem repeats_eq_nil_iff (v : Json) : v.repeats = [] ↔ v.Everywhere HasUniqueKeys := by
  induction v using Json.induct with
  | step v ih =>
    rw [everywhere_iff, ← forall₂_congr ih]
    cases v with
    | arr vs => simp [repeats, repeatsOfItems_eq_nil_iff, HasUniqueKeys, inner]
    | obj ms => simp [repeats, repeatsOfMembers_eq_nil_iff, HasUniqueKeys, inner]
    | _ => simp [repeats, HasUniqueKeys, inner]

/-! ### The printer -/

/-- The printer writes the lower-case digit. -/
theorem isHexDigit_hexDigit {n : Nat} (h : n < 16) : IsHexDigit n (hexDigit n) := ⟨h, .inl rfl⟩

/-- A control character is written with two zeros in front. -/
theorem hexUnit_control {n : Nat} (h : n < 0x20) : HexUnit n ['0', '0', hexDigit (n / 16), hexDigit (n % 16)] := by
  have hzero : IsHexDigit 0 '0' := isHexDigit_hexDigit (by decide)
  have hunit := HexUnit.digits hzero hzero (isHexDigit_hexDigit (n := n / 16) (by omega))
    (isHexDigit_hexDigit (n := n % 16) (by omega))
  have hvalue : ((0 * 16 + 0) * 16 + n / 16) * 16 + n % 16 = n := by omega
  rwa [hvalue] at hunit

/-- The printer writes each character in one of the ways it can stand in a string. -/
theorem speltChar_escape (c : Char) : SpeltChar c (escape c) := by
  unfold escape
  split
  case h_8 hquote hbackslash _ _ _ _ _ =>
    split
    · next hcontrol => exact .unit (hexUnit_control hcontrol)
    · next hprintable => exact .plain hquote hbackslash (Nat.le_of_not_lt hprintable)
  all_goals exact .letter (by decide)

/-- The printer writes a string between quotes as the grammar has it. -/
theorem speltString_quote (s : String) : SpeltString s (quote s) := by
  refine .quoted ?_
  induction s.toList with
  | nil => exact .nil
  | cons c cs ih => exact .cons (speltChar_escape c) ih

mutual

/-- **The printer follows the grammar.** -/
theorem spelt_write : ∀ v : Json, Spelt v v.write
  | .null => .null
  | .bool true => .bool true
  | .bool false => .bool false
  | .int n => .int n
  | .real r => .real r
  | .str s => .str (speltString_quote s)
  | .arr [] => .emptyArr
  | .arr (v :: vs) => .arr (speltItems_write vs (spelt_write v))
  | .obj [] => .emptyObj
  | .obj ((key, v) :: ms) => .obj (speltMembers_write ms key (spelt_write v))

/-- The items of an array, from the first that is written already. -/
theorem speltItems_write : ∀ (vs : List Json) {v : Json} {xs : List Char}, Spelt v xs →
    SpeltItems (v :: vs) (xs ++ writeItems vs)
  | [], _, _, hv => .last hv
  | w :: vs, _, _, hv => .cons hv (speltItems_write vs (spelt_write w))

/-- The members of an object, from the first whose value is written already. -/
theorem speltMembers_write : ∀ (ms : List (String × Json)) (key : String) {v : Json} {xs : List Char}, Spelt v xs →
    SpeltMembers ((key, v) :: ms) (quote key ++ ':' :: xs ++ writeMembers ms)
  | [], key, _, _, hv => .last (speltString_quote key) hv
  | (next, w) :: ms, key, _, _, hv => .cons (speltString_quote key) hv (speltMembers_write ms next (spelt_write w))

end

end Json
end Muster
