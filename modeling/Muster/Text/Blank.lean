/-
# Blank characters and trimming

Every field of a query may be padded.  A character is *blank* when it has the
Unicode property White_Space, which holds of 25 characters: the controls
U+0009 to U+000D and U+0085, the space, U+00A0, U+1680, U+2000 to U+200A,
U+2028, U+2029, U+202F, U+205F and U+3000.

`trim` takes the blanks off both ends.  What it leaves starts and ends with a
character that is not blank (`head?_trim`, `getLast?_trim`), and it leaves
alone what already does (`trim_eq_self`).
-/

namespace Muster
namespace Text

/-- The blank characters as inclusive ranges of code points, ascending. -/
def blankRanges : List (Nat × Nat) :=
  [(0x0009, 0x000D), (0x0020, 0x0020), (0x0085, 0x0085), (0x00A0, 0x00A0), (0x1680, 0x1680),
   (0x2000, 0x200A), (0x2028, 0x2029), (0x202F, 0x202F), (0x205F, 0x205F), (0x3000, 0x3000)]

/-- Whether a character has the property White_Space. -/
def isBlank (c : Char) : Bool :=
  blankRanges.any fun r => r.1 ≤ c.toNat && c.toNat ≤ r.2

/-- There are 25 blank characters. -/
example : (blankRanges.map fun r => r.2 - r.1 + 1).sum = 25 := by decide

/-- Without its leading blanks. -/
def trimLeft (cs : List Char) : List Char := cs.dropWhile isBlank

/-- Without its trailing blanks. -/
def trimRight (cs : List Char) : List Char := (cs.reverse.dropWhile isBlank).reverse

/-- Without the blanks at both ends. -/
def trim (cs : List Char) : List Char := trimRight (trimLeft cs)

@[simp] theorem trim_nil : trim [] = [] := rfl

theorem head?_dropWhile_isBlank {cs : List Char} {c : Char}
    (h : (cs.dropWhile isBlank).head? = some c) : isBlank c = false := by
  simpa [h] using List.head?_dropWhile_not isBlank cs

theorem getLast?_trim {cs : List Char} {c : Char} (h : (trim cs).getLast? = some c) :
    isBlank c = false := by
  rw [trim, trimRight, List.getLast?_reverse] at h
  exact head?_dropWhile_isBlank h

theorem trimRight_isPrefixOf (cs : List Char) : trimRight cs <+: cs := by
  have h := List.dropWhile_suffix (l := cs.reverse) isBlank
  simpa [trimRight] using List.reverse_prefix.2 h

theorem head?_trim {cs : List Char} {c : Char} (h : (trim cs).head? = some c) :
    isBlank c = false := by
  obtain ⟨t, ht⟩ := trimRight_isPrefixOf (trimLeft cs)
  cases hs : trim cs with
  | nil => simp [hs] at h
  | cons d r =>
    have hd : d = c := by simpa [hs] using h
    subst hd
    refine head?_dropWhile_isBlank (show (trimLeft cs).head? = some d from ?_)
    rw [← ht, ← trim, hs]
    rfl

theorem trim_eq_self {cs : List Char} (hl : ∀ c, cs.head? = some c → isBlank c = false)
    (hr : ∀ c, cs.getLast? = some c → isBlank c = false) : trim cs = cs := by
  have drop : ∀ ds : List Char, (∀ c, ds.head? = some c → isBlank c = false) →
      ds.dropWhile isBlank = ds := by
    intro ds hd
    cases ds with
    | nil => rfl
    | cons d ds => simp [List.dropWhile, hd d rfl]
  rw [trim, trimLeft, drop cs hl, trimRight, drop cs.reverse (by simpa using hr), List.reverse_reverse]

@[simp] theorem trim_trim (cs : List Char) : trim (trim cs) = trim cs :=
  trim_eq_self (fun _ => head?_trim) (fun _ => getLast?_trim)

/-- A text without the blanks at both ends. -/
def trimmed (s : String) : String := String.ofList (trim s.toList)

end Text
end Muster
