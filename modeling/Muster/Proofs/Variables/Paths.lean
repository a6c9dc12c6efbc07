/-
# The grammar of variable paths

A path is one step or more, with dots between them.  A step is a word of ASCII letters,
digits and underscores, and may have a position in brackets behind it:

    path     ::= step | step "." path
    step     ::= word | word "[" position "]"
    position ::= numeral | "+" numeral

A numeral is at least one decimal digit, and its number is below 2⁶⁴.

`Path.Written` is this grammar, together with the steps that a path stands for.  A path is
read by cutting it at every dot, and each step at its first opening bracket; that is no
grammar, but comes to the same: what is written is read, and nothing else
(`Path.read?_eq_some_iff`).  So what stands on both sides of a dot is a path
(`Path.written_dot_iff`), and a last step without a position may be given one
(`Path.Written.item`).
-/

import Muster.Proofs.Text.Items
import Muster.Variables

namespace Muster

namespace PathStep

/-! ### Words and positions -/

/-- The characters of a word. -/
def IsWordChar (c : Char) : Prop :=
  ('A' ≤ c ∧ c ≤ 'Z') ∨ ('a' ≤ c ∧ c ≤ 'z') ∨ ('0' ≤ c ∧ c ≤ '9') ∨ c = '_'

/-- The words. -/
structure IsWord (cs : List Char) : Prop where
  ne_nil : cs ≠ []
  chars : ∀ c ∈ cs, IsWordChar c

/-- The numerals of a number below 2⁶⁴. -/
structure IsNumeral (cs : List Char) (n : Nat) : Prop where
  ne_nil : cs ≠ []
  digits : ∀ c ∈ cs, '0' ≤ c ∧ c ≤ '9'
  value : Nat.ofDigitChars 10 cs 0 = n
  lt : n < 0x10000000000000000

/-- A position as it is written. -/
inductive IsPosition : List Char → Nat → Prop
  | plain {cs : List Char} {n : Nat} (h : IsNumeral cs n) : IsPosition cs n
  | plus {cs : List Char} {n : Nat} (h : IsNumeral cs n) : IsPosition ('+' :: cs) n

/-- A step as it is written. -/
inductive Written : List Char → PathStep → Prop
  | word {word : List Char} (h : IsWord word) : Written word ⟨String.ofList word, none⟩
  | item {word cs : List Char} {n : Nat} (h : IsWord word) (hn : IsPosition cs n) :
      Written (word ++ '[' :: (cs ++ [']'])) ⟨String.ofList word, some n⟩

/-- The decimal digits of a numeral are the ASCII ones. -/
theorem isDigit_iff {c : Char} : c.isDigit = true ↔ '0' ≤ c ∧ c ≤ '9' := by
  rw [Char.isDigit, Bool.and_eq_true, decide_eq_true_eq, decide_eq_true_eq]
  exact Iff.rfl

/-- The reader takes exactly the characters of a word for ones of a name. -/
theorem isNameChar_iff {c : Char} : isNameChar c = true ↔ IsWordChar c := by
  have hname : isNameChar c =
      (decide ('A' ≤ c ∧ c ≤ 'Z') || 'a' ≤ c && c ≤ 'z' || c.isDigit || c == '_') := rfl
  simp only [hname, IsWordChar, Bool.or_eq_true, Bool.and_eq_true, decide_eq_true_eq, beq_iff_eq, isDigit_iff, or_assoc]

/-- The reader refuses a name exactly when it is no word. -/
theorem isWord_iff {cs : List Char} : IsWord cs ↔ (cs.isEmpty || !cs.all isNameChar) = false := by
  rw [Bool.or_eq_false_iff, List.isEmpty_eq_false_iff, Bool.not_eq_false', List.all_eq_true]
  simp only [isNameChar_iff]
  exact ⟨fun h => ⟨h.1, h.2⟩, fun h => ⟨h.1, h.2⟩⟩

/-- A numeral is what is read without a sign, if it is in the range of an index. -/
theorem isNumeral_iff {cs : List Char} {n : Nat} :
    IsNumeral cs n ↔ Text.Numerals.magnitude? cs = some n ∧ Text.Numerals.index.admits (n : Int) = true := by
  rw [Text.Numerals.magnitude?_eq_some_iff, Text.Numerals.admits_iff]
  simp only [isDigit_iff, Text.Numerals.index]
  constructor
  · intro h
    have hlt := h.lt
    exact ⟨⟨h.ne_nil, h.digits, h.value⟩, by omega, by omega⟩
  · rintro ⟨⟨hne, hdigits, hvalue⟩, -, hle⟩
    exact ⟨hne, hdigits, hvalue, by omega⟩

/-- **What is read as a position** is a numeral, perhaps behind a plus. -/
theorem index_read?_iff {cs : List Char} {n : Nat} :
    (Text.Numerals.index.read? cs).map Int.toNat = some n ↔ IsPosition cs n := by
  constructor
  · intro h
    obtain ⟨m, hm, rfl⟩ := Option.map_eq_some_iff.1 h
    obtain ⟨hsigned, hadmits⟩ := Option.filter_eq_some_iff.1 hm
    unfold Text.Numerals.signed? at hsigned
    split at hsigned
    · obtain ⟨n, hn, rfl⟩ := Option.map_eq_some_iff.1 hsigned
      exact .plus (isNumeral_iff.2 ⟨hn, hadmits⟩)
    · obtain ⟨hnegative, -⟩ := Option.ite_none_right_eq_some.1 hsigned
      exact absurd hnegative (by decide)
    · obtain ⟨n, hn, rfl⟩ := Option.map_eq_some_iff.1 hsigned
      exact .plain (isNumeral_iff.2 ⟨hn, hadmits⟩)
  · intro h
    have hread : ∀ {ds : List Char}, IsNumeral ds n →
        (Text.Numerals.magnitude? ds = some n → Text.Numerals.index.signed? cs = some (n : Int)) →
          (Text.Numerals.index.read? cs).map Int.toNat = some n := by
      intro ds hds hsigned
      obtain ⟨hmagnitude, hadmits⟩ := isNumeral_iff.1 hds
      rw [Text.Numerals.read?, hsigned hmagnitude, Option.filter_some, if_pos hadmits]
      rfl
    cases h with
    | plain hds => exact hread hds Text.Numerals.signed?_of_magnitude?
    | plus hds => exact hread hds fun hmagnitude => by rw [Text.Numerals.signed?, hmagnitude]; rfl

/-- What stands behind an opening bracket is read as far as the closing one, which must come last.
-/
theorem position?_eq_some_iff {cs : List Char} {n : Nat} :
    position? cs = some n ↔ ∃ ds, cs = ds ++ [']'] ∧ IsPosition ds n := by
  rw [position?, Option.ite_none_right_eq_some, index_read?_iff]
  constructor
  · rintro ⟨hlast, hn⟩
    obtain ⟨ds, rfl⟩ := List.getLast?_eq_some_iff.1 hlast
    exact ⟨ds, rfl, by rwa [List.dropLast_concat] at hn⟩
  · rintro ⟨ds, rfl, hn⟩
    exact ⟨List.getLast?_concat .., by rwa [List.dropLast_concat]⟩

/-! ### Steps -/

/-- A word ends before the bracket of its position. -/
theorem IsWord.no_bracket {cs : List Char} (h : IsWord cs) : '[' ∉ cs := fun hc =>
  absurd (isNameChar_iff.2 (h.chars _ hc)) (by decide)

/-- **A step is read as it is written.** -/
theorem read?_eq_some_iff {cs : List Char} {step : PathStep} : read? cs = some step ↔ Written cs step := by
  constructor
  · intro h
    have hcs := List.takeWhile_append_dropWhile (p := (· ≠ '[')) (l := cs)
    have hhead := List.head?_dropWhile_not (· ≠ '[') cs
    simp only [read?] at h
    -- the word is what stands before the first bracket, if there is one
    generalize cs.takeWhile (· ≠ '[') = word at h hcs
    split at h
    · cases h
    · next hword =>
      have hword : IsWord word := isWord_iff.2 (Bool.not_eq_true _ ▸ hword)
      split at h
      · next hdrop =>
        rw [hdrop, List.append_nil] at hcs
        obtain rfl := Option.some.inj h
        exact hcs ▸ .word hword
      · next c bracket hdrop =>
        obtain ⟨n, hn, rfl⟩ := Option.map_eq_some_iff.1 h
        obtain ⟨ds, rfl, hposition⟩ := position?_eq_some_iff.1 hn
        rw [hdrop] at hcs hhead
        obtain rfl : c = '[' := by simpa using hhead
        exact hcs ▸ .item hword hposition
  · intro h
    cases h with
    | word hword =>
      have htake : cs.takeWhile (· ≠ '[') = cs :=
        List.takeWhile_eq_self_iff.2 (Text.forall_ne_of_notMem hword.no_bracket)
      have hdrop : cs.dropWhile (· ≠ '[') = [] := Text.dropWhile_ne_of_notMem hword.no_bracket
      simp only [read?, htake, hdrop, isWord_iff.1 hword]
      rfl
    | @item word ds n hword hn =>
      have hposition : position? (ds ++ [']']) = some n := position?_eq_some_iff.2 ⟨ds, rfl, hn⟩
      have htake := Text.takeWhile_ne_append hword.no_bracket (ds ++ [']'])
      have hdrop := Text.dropWhile_ne_append hword.no_bracket (ds ++ [']'])
      simp only [read?, htake, hdrop, isWord_iff.1 hword, hposition]
      rfl

/-- A step has no dot. -/
theorem Written.no_dot {cs : List Char} {step : PathStep} (h : Written cs step) : '.' ∉ cs := by
  have hword : ∀ {word : List Char}, IsWord word → '.' ∉ word := fun hword hmem =>
    absurd (isNameChar_iff.2 (hword.chars _ hmem)) (by decide)
  have hnumeral : ∀ {ds : List Char} {n : Nat}, IsNumeral ds n → '.' ∉ ds := fun hds hmem =>
    absurd (isDigit_iff.2 (hds.digits _ hmem)) (by decide)
  cases h with
  | word h => exact hword h
  | item h hn =>
    cases hn with
    | plain hds => simp [hword h, hnumeral hds]
    | plus hds => simp [hword h, hnumeral hds]

end PathStep

/-! ### Paths -/

namespace Path

/-- A path as it is written, with its steps. -/
inductive Written : List Char → List PathStep → Prop
  | last {cs : List Char} {step : PathStep} (h : step.Written cs) : Written cs [step]
  | dot {cs ds : List Char} {step : PathStep} {steps : List PathStep} (h : step.Written cs) (hs : Written ds steps) :
      Written (cs ++ '.' :: ds) (step :: steps)

/-- The texts that are paths. -/
def IsPath (path : String) : Prop := ∃ steps, Written path.toList steps

/-- The steps of a path, to the container and the last. -/
def steps (p : Path) : List PathStep := p.container ++ [p.last]

/-- Read the steps of a path. -/
def readSteps? (cs : List Char) : Option (List PathStep) := (cs.splitOn '.').mapM PathStep.read?

/-- A path is made of its own steps. -/
theorem ofSteps?_steps (p : Path) : ofSteps? p.steps = some p := by
  obtain ⟨container, last⟩ := p
  induction container with
  | nil => rfl
  | cons step container ih =>
    cases container with
    | nil => rfl
    | cons next container =>
      change (ofSteps? (next :: container ++ [last])).map _ = _
      rw [show ofSteps? (next :: container ++ [last]) = some ⟨next :: container, last⟩ from ih]
      rfl

/-- One step or more are the steps of a path. -/
theorem exists_steps {steps : List PathStep} (hne : steps ≠ []) : ∃ p : Path, p.steps = steps :=
  ⟨⟨steps.dropLast, steps.getLast hne⟩, List.dropLast_concat_getLast hne⟩

/-- Only its own steps make a path. -/
theorem ofSteps?_eq_some_iff {steps : List PathStep} {p : Path} : ofSteps? steps = some p ↔ p.steps = steps := by
  constructor
  · intro h
    have hne : steps ≠ [] := by
      rintro rfl
      cases h
    obtain ⟨p', rfl⟩ := exists_steps hne
    rw [← Option.some.inj ((ofSteps?_steps p').symm.trans h)]
  · rintro rfl
    exact ofSteps?_steps p

/-- A path that is written has a step. -/
theorem Written.ne_nil {cs : List Char} {steps : List PathStep} (h : Written cs steps) : steps ≠ [] := by
  cases h <;> exact List.cons_ne_nil _ _

/-- Steps that are read one by one, with dots between them, are a path. -/
theorem written_intercalate {pieces : List (List Char)} {steps : List PathStep} (hne : pieces ≠ [])
    (h : pieces.mapM PathStep.read? = some steps) : Written (['.'].intercalate pieces) steps := by
  induction pieces generalizing steps with
  | nil => exact absurd rfl hne
  | cons piece pieces ih =>
    rw [List.mapM_cons] at h
    obtain ⟨step, hstep, h⟩ := Option.bind_eq_some_iff.1 h
    obtain ⟨rest, hrest, h⟩ := Option.bind_eq_some_iff.1 h
    obtain rfl := Option.some.inj h
    have hstep := PathStep.read?_eq_some_iff.1 hstep
    cases pieces with
    | nil =>
      obtain rfl := Option.some.inj hrest
      rw [List.intercalate_singleton]
      exact .last hstep
    | cons next pieces =>
      rw [List.intercalate_cons_cons, List.append_assoc]
      exact .dot hstep (ih (List.cons_ne_nil _ _) hrest)

/-- **The steps of a path are read as they are written.** -/
theorem readSteps?_eq_some_iff {cs : List Char} {steps : List PathStep} :
    readSteps? cs = some steps ↔ Written cs steps := by
  constructor
  · intro h
    have hjoined : ['.'].intercalate (cs.splitOn '.') = cs := List.intercalate_splitOn '.'
    rw [← hjoined]
    exact written_intercalate (List.splitOn_ne_nil _ _) h
  · intro h
    induction h with
    | last h =>
      rw [readSteps?, List.splitOn_eq_singleton h.no_dot, List.mapM_cons, PathStep.read?_eq_some_iff.2 h]
      rfl
    | dot h _ ih =>
      rw [readSteps?, List.splitOn_append_cons_self_of_not_mem h.no_dot, List.mapM_cons, PathStep.read?_eq_some_iff.2 h,
        ← readSteps?, ih]
      rfl

/-- **A path is read as it is written.** -/
theorem read?_eq_some_iff {path : String} {p : Path} : read? path = some p ↔ Written path.toList p.steps := by
  rw [← readSteps?_eq_some_iff, read?, ← readSteps?, Option.bind_eq_some_iff]
  simp only [ofSteps?_eq_some_iff]
  exact ⟨fun ⟨steps, hread, hsteps⟩ => hsteps ▸ hread, fun hread => ⟨_, hread, rfl⟩⟩

/-- The paths are the texts that are read. -/
theorem isPath_iff {path : String} : IsPath path ↔ ∃ p, read? path = some p := by
  constructor
  · rintro ⟨steps, h⟩
    obtain ⟨p, rfl⟩ := exists_steps h.ne_nil
    exact ⟨p, read?_eq_some_iff.2 h⟩
  · rintro ⟨p, hp⟩
    exact ⟨p.steps, read?_eq_some_iff.1 hp⟩

/-- Whether a text is a path is decided by reading it. -/
instance (path : String) : Decidable (IsPath path) :=
  decidable_of_iff ((read? path).isSome = true) (by rw [isPath_iff, Option.isSome_iff_exists])

/-- **What stands on both sides of a dot is a path,** and each side stands for its own steps. -/
theorem written_dot_iff {cs ds : List Char} {steps : List PathStep} :
    Written (cs ++ '.' :: ds) steps ↔ ∃ xs ys, Written cs xs ∧ Written ds ys ∧ xs ++ ys = steps := by
  simp only [← readSteps?_eq_some_iff, readSteps?, List.splitOn_append_cons_self, List.mapM_append]
  constructor
  · intro h
    obtain ⟨xs, hxs, h⟩ := Option.bind_eq_some_iff.1 h
    obtain ⟨ys, hys, h⟩ := Option.bind_eq_some_iff.1 h
    exact ⟨xs, ys, hxs, hys, Option.some.inj h⟩
  · rintro ⟨xs, ys, hxs, hys, rfl⟩
    rw [hxs, hys]
    rfl

/-- A path of several steps is its first step, a dot and the rest. -/
theorem written_cons_iff {cs : List Char} {step : PathStep} {steps : List PathStep} (hne : steps ≠ []) :
    Written cs (step :: steps) ↔ ∃ xs ys, step.Written xs ∧ Written ys steps ∧ xs ++ '.' :: ys = cs := by
  constructor
  · intro h
    cases h with
    | last _ => exact absurd rfl hne
    | dot h hs => exact ⟨_, _, h, hs, rfl⟩
  · rintro ⟨xs, ys, h, hs, rfl⟩
    exact .dot h hs

/-- **A position may be written behind a last step without one.** -/
theorem Written.item {cs ds : List Char} {container : List PathStep} {name : String} {n : Nat}
    (h : Written cs (container ++ [⟨name, none⟩])) (hn : PathStep.IsPosition ds n) :
    Written (cs ++ '[' :: (ds ++ [']'])) (container ++ [⟨name, some n⟩]) := by
  induction container generalizing cs with
  | nil =>
    cases h with
    | last h =>
      cases h with
      | word h => exact .last (.item h hn)
    | dot _ hs => cases hs
  | cons step container ih =>
    have hne : ∀ last : PathStep, container ++ [last] ≠ [] := fun _ => List.append_ne_nil_of_right_ne_nil _ (by simp)
    obtain ⟨xs, ys, hstep, hs, rfl⟩ := (written_cons_iff (hne _)).1 h
    rw [List.append_assoc, List.cons_append]
    exact .dot hstep (ih hs)

end Path
end Muster
