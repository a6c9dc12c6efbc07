/-
# Direction names behind minuses

A direction is written as minuses in front of a name, and blanks may stand at both ends and
around each minus (`Direction.Spelled`):

| text | minuses | direction |
| --- | ---: | --- |
| `ne`, ` ne ` | 0 | `ne` |
| `-ne`, `- ne` | 1 | `sw` |
| `--ne`, ` - -ne` | 2 | `ne` |
| `n e`, `n-`, `up`, `-` | | none |

`Direction.parse?` looks at all signs at once.  Read step by step, a text is trimmed, and if it
starts with a minus then, the rest is read and what it names is turned around
(`Direction.Reads`).  Each step takes a minus off (`count_lt_of_minus`), so there are at most as
many steps as the text has minuses (`exists_reads`), and they end with what `parse?` gives
(`Reads.parse?_eq`).  A spelled text is read as the direction of its name, turned around once for
each minus, and no other text is read as a direction (`parse?_eq_some_iff`).
-/

import Muster.Direction
import Muster.Proofs.Text.Items

namespace Muster

open Text

namespace Direction

/-! ### Turning around -/

/-- The direction after `k` turns: itself if `k` is even, and its opposite if `k` is odd. -/
def turned (k : Nat) (d : Direction) : Direction := if k % 2 = 0 then d else d.opposite

/-- No minus turns nothing round. -/
@[simp] theorem turned_zero (d : Direction) : turned 0 d = d := rfl

/-- **One more turn** leads to the opposite. -/
theorem turned_succ (k : Nat) (d : Direction) : turned (k + 1) d = (turned k d).opposite := by
  rcases Nat.mod_two_eq_zero_or_one k with hk | hk
  · rw [turned, turned, if_neg (by omega), if_pos hk]
  · rw [turned, turned, if_pos (by omega), if_neg (by omega), opposite_opposite]

/-! ### Names -/

/-- A name is read as the direction of that name. -/
theorem named?_eq_some_iff {s : String} {d : Direction} : named? s = some d ↔ s = d.name := by
  refine ⟨fun h => ?_, fun h => h ▸ named?_name d⟩
  have hname : (d.name == s) = true := @List.find?_some _ (fun e : Direction => e.name == s) d all h
  exact (eq_of_beq hname).symm

/-- A name has no blanks to trim. -/
theorem trim_name (d : Direction) : trim d.name.toList = d.name.toList := by cases d <;> decide

/-- A name starts with no minus. -/
theorem head?_name (d : Direction) : d.name.toList.head? ≠ some '-' := by cases d <;> decide

/-! ### One step -/

variable {cs rest : List Char}

/-- A direction is the name behind the signs, turned around once for each minus. -/
theorem parse?_ofList (cs : List Char) : parse? (String.ofList cs) =
    (named? (String.ofList ((trim cs).dropWhile isLead))).map (turned (((trim cs).takeWhile isLead).count '-')) := by
  rw [parse?, String.toList_ofList]
  split
  · next heven =>
    have hturned : turned _ = id := funext fun _ => if_pos heven
    rw [hturned, Option.map_id, id]
  · next hodd =>
    have hturned : turned _ = opposite := funext fun _ => if_neg hodd
    rw [hturned]

/-- Only the trimmed text counts. -/
theorem parse?_congr {ds : List Char} (h : trim cs = trim ds) : parse? (String.ofList cs) = parse? (String.ofList ds) := by
  rw [parse?_ofList, parse?_ofList, h]

/-- **Without a minus in front** a text is looked up among the names. -/
theorem parse?_of_no_minus (h : (trim cs).head? ≠ some '-') :
    parse? (String.ofList cs) = named? (String.ofList (trim cs)) := by
  have hturned : turned 0 = id := rfl
  cases hcs : trim cs with
  | nil =>
    rw [parse?_ofList, hcs]
    rfl
  | cons c ds =>
    have hhead : (trim cs).head? = some c := by rw [hcs, List.head?_cons]
    have hminus : c ≠ '-' := fun hc => h (hc ▸ hhead)
    have hlead : ¬ isLead c = true := by simp [isLead, head?_trim hhead, hminus]
    rw [parse?_ofList, hcs, List.dropWhile_cons_of_neg hlead, List.takeWhile_cons_of_neg hlead, List.count_nil, hturned,
      Option.map_id, id]

/-- Blanks among the signs count for nothing. -/
theorem signs_append {before : List Char} (hbefore : ∀ c ∈ before, isBlank c = true) (cs : List Char) :
    (before ++ cs).dropWhile isLead = cs.dropWhile isLead ∧
      ((before ++ cs).takeWhile isLead).count '-' = (cs.takeWhile isLead).count '-' := by
  have hlead : ∀ c ∈ before, isLead c = true := fun c hc => by rw [isLead, hbefore c hc, Bool.or_true]
  have hnone : before.count '-' = 0 := List.count_eq_zero.2 fun hmem => absurd (hbefore _ hmem) (by decide)
  refine ⟨List.dropWhile_append_of_pos hlead, ?_⟩
  rw [List.takeWhile_append_of_pos hlead, List.count_append, hnone, Nat.zero_add]

/-- **With a minus in front** a text is read as the opposite of what the rest of it is read as. -/
theorem parse?_of_minus (h : trim cs = '-' :: rest) :
    parse? (String.ofList cs) = (parse? (String.ofList rest)).map opposite := by
  have hlast : ∀ c, rest.getLast? = some c → isBlank c = false := fun c hc => by
    have hcs : (trim cs).getLast? = some c := by rw [h, List.getLast?_cons, hc, Option.getD_some]
    exact getLast?_trim hcs
  -- what trimming takes off the rest stands behind the minus, among the signs
  obtain ⟨before, hbefore, hrest⟩ := exists_padding_front hlast
  obtain ⟨hdrop, hcount⟩ := signs_append hbefore (trim rest)
  rw [← hrest] at hdrop hcount
  rw [parse?_ofList, parse?_ofList, h, List.dropWhile_cons_of_pos rfl, List.takeWhile_cons_of_pos rfl,
    List.count_cons_self, hdrop, hcount, Option.map_map]
  exact congrArg (Option.map · _) (funext (turned_succ _))

/-- **Each step takes a minus off.** -/
theorem count_lt_of_minus (h : trim cs = '-' :: rest) : rest.count '-' < cs.count '-' := by
  have hcount := (trim_sublist cs).count_le '-'
  rw [h, List.count_cons_self] at hcount
  exact hcount

/-! ### All steps -/

/-- A text read step by step.  It is trimmed; if there is a minus in front then, the rest is read
in the same way and what it names is turned around, and otherwise the text is looked up among the
names.  The number is that of the minuses taken off. -/
inductive Reads : Nat → List Char → Option Direction → Prop where
  | name {cs : List Char} (h : (trim cs).head? ≠ some '-') : Reads 0 cs (named? (String.ofList (trim cs)))
  | minus {k : Nat} {cs rest : List Char} {found : Option Direction} (h : trim cs = '-' :: rest)
      (hrest : Reads k rest found) : Reads (k + 1) cs (found.map opposite)

/-- **The steps come to an end,** with what `parse?` gives. -/
theorem exists_reads (cs : List Char) : ∃ k ≤ cs.count '-', Reads k cs (parse? (String.ofList cs)) := by
  induction hn : cs.count '-' using Nat.strongRecOn generalizing cs with
  | _ n ih =>
    by_cases h : (trim cs).head? = some '-'
    · obtain ⟨rest, hrest⟩ := List.head?_eq_some_iff.1 h
      have hcount := hn ▸ count_lt_of_minus hrest
      obtain ⟨k, hk, hreads⟩ := ih _ hcount rest rfl
      refine ⟨k + 1, by omega, ?_⟩
      rw [parse?_of_minus hrest]
      exact .minus hrest hreads
    · refine ⟨0, Nat.zero_le _, ?_⟩
      rw [parse?_of_no_minus h]
      exact .name h

/-- **The steps end with one answer only.** -/
theorem Reads.parse?_eq {k : Nat} {found : Option Direction} (h : Reads k cs found) :
    parse? (String.ofList cs) = found := by
  induction h with
  | name h => exact parse?_of_no_minus h
  | minus h _ ih => rw [parse?_of_minus h, ih]

/-! ### Spelling -/

/-- The texts of `k` minuses and then the name of `d`, apart from blanks at both ends and around
each minus. -/
inductive Spelled (d : Direction) : Nat → List Char → Prop where
  | name {before after : List Char} (hbefore : ∀ c ∈ before, isBlank c = true)
      (hafter : ∀ c ∈ after, isBlank c = true) : Spelled d 0 (before ++ (d.name.toList ++ after))
  | minus {k : Nat} {before cs : List Char} (hbefore : ∀ c ∈ before, isBlank c = true) (rest : Spelled d k cs) :
      Spelled d (k + 1) (before ++ '-' :: cs)

variable {d : Direction} {k : Nat}

/-- Blanks may be put behind a spelling. -/
theorem Spelled.append_blanks (h : Spelled d k cs) {after : List Char} (hafter : ∀ c ∈ after, isBlank c = true) :
    Spelled d k (cs ++ after) := by
  induction h with
  | name hbefore hbehind =>
    rw [List.append_assoc, List.append_assoc]
    exact .name hbefore (List.forall_mem_append.2 ⟨hbehind, hafter⟩)
  | minus hbefore _ ih =>
    rw [List.append_assoc, List.cons_append]
    exact .minus hbefore ih

/-- Trimmed, a text with a minus in front starts with this minus, and lacks blanks only. -/
theorem exists_trim_minus {before : List Char} (hbefore : ∀ c ∈ before, isBlank c = true) (cs : List Char) :
    ∃ rest after, (∀ c ∈ after, isBlank c = true) ∧ cs = rest ++ after ∧ trim (before ++ '-' :: cs) = '-' :: rest := by
  have hhead : ∀ c, ('-' :: cs).head? = some c → isBlank c = false := fun c hc => by
    obtain rfl : '-' = c := Option.some.inj hc
    decide
  obtain ⟨after, hafter, hcs⟩ := exists_padding_behind hhead
  have hpad := trim_pad hbefore (List.forall_mem_nil _) ('-' :: cs)
  rw [List.append_nil] at hpad
  cases htrim : trim ('-' :: cs) with
  | nil =>
    rw [htrim, List.nil_append] at hcs
    exact absurd (hafter '-' (hcs ▸ List.mem_cons_self ..)) (by decide)
  | cons c rest =>
    rw [htrim, List.cons_append] at hcs
    obtain ⟨rfl, hcs'⟩ := List.cons.inj hcs
    exact ⟨rest, after, hafter, hcs', hpad.trans htrim⟩

/-- **A spelled direction is read** as the one of the name, turned around for each minus. -/
theorem Spelled.parse?_eq (h : Spelled d k cs) : parse? (String.ofList cs) = some (turned k d) := by
  induction h with
  | name hbefore hafter =>
    have htrim := (trim_pad hbefore hafter _).trans d.trim_name
    have hminus := d.head?_name
    rw [← htrim] at hminus
    rw [parse?_of_no_minus hminus, htrim, String.ofList_toList, named?_name, turned_zero]
  | @minus k before cs hbefore _ ih =>
    obtain ⟨rest, after, hafter, rfl, htrim⟩ := exists_trim_minus hbefore cs
    have hrest := trim_pad (List.forall_mem_nil _) hafter rest
    rw [parse?_of_minus htrim, ← parse?_congr hrest, List.nil_append, ih, Option.map_some, turned_succ]

/-- **What is read as a direction is spelled** with a name. -/
theorem Reads.exists_spelled {found : Option Direction} (h : Reads k cs found) (hfound : found = some d) :
    ∃ e, Spelled e k cs ∧ d = turned k e := by
  induction h generalizing d with
  | @name cs h =>
    obtain ⟨before, after, hbefore, hafter, hcs⟩ := exists_padding cs
    have hname : trim cs = d.name.toList := by
      rw [← named?_eq_some_iff.1 hfound, String.toList_ofList]
    rw [hcs, hname]
    exact ⟨d, .name hbefore hafter, rfl⟩
  | @minus k cs rest found h _ ih =>
    obtain ⟨e, rfl, rfl⟩ := Option.map_eq_some_iff.1 hfound
    obtain ⟨e, hspelled, rfl⟩ := ih rfl
    obtain ⟨before, after, hbefore, hafter, hcs⟩ := exists_padding cs
    rw [hcs, h]
    exact ⟨e, .minus hbefore (hspelled.append_blanks hafter), (turned_succ k e).symm⟩

/-- **The texts that are read as a direction.** -/
theorem parse?_eq_some_iff {s : String} :
    parse? s = some d ↔ ∃ k e, Spelled e k s.toList ∧ d = turned k e := by
  constructor
  · intro h
    obtain ⟨k, -, hreads⟩ := exists_reads s.toList
    rw [String.ofList_toList] at hreads
    exact ⟨k, hreads.exists_spelled h⟩
  · rintro ⟨k, e, hspelled, rfl⟩
    have hread := hspelled.parse?_eq
    rwa [String.ofList_toList] at hread

/-- **Direction tokens.**  Reading a text step by step, each time without the blanks around it
and one minus in front, comes to an end after at most as many steps as the text has minuses,
with the answer of `parse?` and no other.  The answer is a direction exactly if the text is
spelled with some number of minuses and a name, apart from blanks at both ends and around each
minus: the direction of this name if the number is even, and the opposite one if it is odd.  A
list of directions has, in order, the answers for its items that are directions. -/
theorem direction_tokens (s : String) :
    (∀ found, (∃ k ≤ s.toList.count '-', Reads k s.toList found) ↔ parse? s = found) ∧
      (∀ d, parse? s = some d ↔ ∃ k e, Spelled e k s.toList ∧ d = turned k e) ∧
      (parseList s).map some = ((splitList s).map parse?).filter Option.isSome := by
  refine ⟨fun found => ⟨?_, ?_⟩, fun d => parse?_eq_some_iff, List.map_filterMap_some_eq_filter_map_isSome⟩
  · rintro ⟨k, -, hreads⟩
    have hread := hreads.parse?_eq
    rwa [String.ofList_toList] at hread
  · rintro rfl
    obtain ⟨k, hk, hreads⟩ := exists_reads s.toList
    rw [String.ofList_toList] at hreads
    exact ⟨k, hk, hreads⟩

/-- Spaced-out minuses, one of them behind a no-break space. -/
example : parse? " -\u00a0- -nw " = some southEast ∧ parse? "- n e" = none ∧
    parseList "n, -s,up,--" = [north, north] := by decide

end Direction
end Muster
