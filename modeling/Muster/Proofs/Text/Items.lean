/-
# The items of a comma list

The pieces of a list are trimmed.  Every text is its trimmed form with blanks around it
(`exists_padding`), and blanks put around a text are gone when it is trimmed (`trim_pad`).

A text is an *item* (`IsItem`) when it can be an item of a comma list: it is not empty,
and has no comma and no blank at either end.  Written by itself it is a list of one item
(`splitList_item`), and so is a numeral, whatever blanks stand around it
(`splitList_of_int64?`): it consists of digits and perhaps a sign.
-/

import Mathlib.Data.List.TakeWhile
import Muster.Proofs.Text.Numerals
import Muster.Text.Pieces

namespace Muster
namespace Text

/-! ### Blanks around a text -/

/-- **Blanks around a text** count for nothing when it is trimmed. -/
theorem trim_pad {before after : List Char} (hbefore : ∀ c ∈ before, isBlank c = true)
    (hafter : ∀ c ∈ after, isBlank c = true) (cs : List Char) : trim (before ++ (cs ++ after)) = trim cs := by
  have hright : ∀ ds, trimRight (ds ++ after) = trimRight ds := fun ds => by
    rw [trimRight, List.reverse_append, List.dropWhile_append_of_pos fun c hc => hafter c (List.mem_reverse.1 hc), trimRight]
  have hleft : trimLeft (before ++ (cs ++ after)) = trimLeft (cs ++ after) := List.dropWhile_append_of_pos hbefore
  rw [trim, hleft, trimLeft, List.dropWhile_append]
  split
  · next hempty =>
    have hcs : trimLeft cs = [] := List.isEmpty_iff.1 hempty
    rw [List.dropWhile_eq_nil_iff.2 hafter, trim, hcs]
  · exact hright _

/-- **Trimming leaves a text alone** exactly when it has no blank at either end. -/
theorem trim_eq_self_iff {cs : List Char} : trim cs = cs ↔
    (∀ c, cs.head? = some c → isBlank c = false) ∧ ∀ c, cs.getLast? = some c → isBlank c = false :=
  ⟨fun h => ⟨fun _ hc => head?_trim (h.symm ▸ hc), fun _ hc => getLast?_trim (h.symm ▸ hc)⟩,
    fun h => trim_eq_self h.1 h.2⟩

/-- A text is trimmed if its characters are. -/
theorem trimmed_eq_self_iff {s : String} : trimmed s = s ↔ trim s.toList = s.toList := by
  rw [← String.toList_inj, trimmed, String.toList_ofList]

/-- Trimming only takes characters off. -/
theorem trim_sublist (cs : List Char) : (trim cs).Sublist cs :=
  (trimRight_isPrefixOf _).sublist.trans (List.dropWhile_sublist _)

/-- **A text is its trimmed form with blanks around it.** -/
theorem exists_padding (cs : List Char) :
    ∃ before after, (∀ c ∈ before, isBlank c = true) ∧ (∀ c ∈ after, isBlank c = true) ∧
      cs = before ++ (trim cs ++ after) := by
  have hblank : ∀ ds : List Char, ∀ c ∈ ds.takeWhile isBlank, isBlank c = true := fun _ =>
    List.all_eq_true.1 List.all_takeWhile
  refine ⟨cs.takeWhile isBlank, ((trimLeft cs).reverse.takeWhile isBlank).reverse, hblank cs,
    fun c hc => hblank _ c (List.mem_reverse.1 hc), ?_⟩
  have hright : trim cs ++ ((trimLeft cs).reverse.takeWhile isBlank).reverse = trimLeft cs := by
    rw [trim, trimRight, ← List.reverse_append, List.takeWhile_append_dropWhile, List.reverse_reverse]
  rw [hright, trimLeft, List.takeWhile_append_dropWhile]

/-- Without a blank in front, the blanks are behind. -/
theorem exists_padding_behind {cs : List Char} (hhead : ∀ c, cs.head? = some c → isBlank c = false) :
    ∃ after, (∀ c ∈ after, isBlank c = true) ∧ cs = trim cs ++ after := by
  obtain ⟨before, after, hbefore, hafter, hcs⟩ := exists_padding cs
  cases before with
  | nil => exact ⟨after, hafter, hcs⟩
  | cons d ds =>
    have hd : cs.head? = some d := by rw [hcs]; rfl
    exact absurd (hbefore d (List.mem_cons_self ..)) (by simp [hhead d hd])

/-- Without a blank behind, the blanks are in front. -/
theorem exists_padding_front {cs : List Char} (hlast : ∀ c, cs.getLast? = some c → isBlank c = false) :
    ∃ before, (∀ c ∈ before, isBlank c = true) ∧ cs = before ++ trim cs := by
  obtain ⟨before, after, hbefore, hafter, hcs⟩ := exists_padding cs
  rcases List.eq_nil_or_concat after with rfl | ⟨ds, d, rfl⟩
  · exact ⟨before, hbefore, by rwa [List.append_nil] at hcs⟩
  · have hd : cs.getLast? = some d := by
      rw [hcs, List.concat_eq_append, ← List.append_assoc, ← List.append_assoc, List.getLast?_concat]
    exact absurd (hafter d (by simp)) (by simp [hlast d hd])

/-- Trimming takes off blanks only. -/
theorem mem_trim_or_isBlank {c : Char} {cs : List Char} (h : c ∈ cs) : c ∈ trim cs ∨ isBlank c = true := by
  obtain ⟨before, after, hbefore, hafter, hcs⟩ := exists_padding cs
  rw [hcs, List.mem_append, List.mem_append] at h
  rcases h with h | h | h
  · exact .inr (hbefore c h)
  · exact .inl h
  · exact .inr (hafter c h)

/-! ### Up to a character -/

section

variable {c : Char} {cs left : List Char}

/-- Characters without a given one are all different from it. -/
theorem forall_ne_of_notMem (h : c ∉ cs) : ∀ d ∈ cs, decide (d ≠ c) = true :=
  fun _ hd => decide_eq_true fun heq => h (heq ▸ hd)

/-- Without the separator nothing is left behind it. -/
theorem dropWhile_ne_of_notMem (h : c ∉ cs) : cs.dropWhile (· ≠ c) = [] :=
  List.dropWhile_eq_nil_iff.2 (forall_ne_of_notMem h)

/-- **The first occurrence of a character** starts what is left when all before it is dropped. -/
theorem dropWhile_ne_append (h : c ∉ left) (right : List Char) :
    (left ++ c :: right).dropWhile (· ≠ c) = c :: right := by
  rw [List.dropWhile_append_of_pos (forall_ne_of_notMem h), List.dropWhile_cons_of_neg (by simp)]

/-- In front of the first separator stands what has none. -/
theorem takeWhile_ne_append (h : c ∉ left) (right : List Char) : (left ++ c :: right).takeWhile (· ≠ c) = left := by
  rw [List.takeWhile_append_of_pos (forall_ne_of_notMem h), List.takeWhile_cons_of_neg (by simp), List.append_nil]

end

/-! ### Pieces and items -/

/-- A text that is neither empty nor has a comma or a blank at either end. -/
structure IsItem (s : String) : Prop where
  ne_empty : s ≠ ""
  no_comma : ',' ∉ s.toList
  trimmed_eq : trimmed s = s

/-- **A piece between separators** has characters of the whole, and no separator. -/
theorem mem_and_ne_of_mem_splitOn {c separator : Char} {piece cs : List Char} (h : piece ∈ cs.splitOn separator)
    (hc : c ∈ piece) : c ∈ cs ∧ c ≠ separator := by
  induction cs generalizing piece with
  | nil =>
    rw [List.splitOn_nil, List.mem_singleton] at h
    exact absurd (h ▸ hc) List.not_mem_nil
  | cons d cs ih =>
    have htail : ∀ piece ∈ cs.splitOn separator, c ∈ piece → c ∈ d :: cs ∧ c ≠ separator := fun _ h hc =>
      (ih h hc).imp_left (List.mem_cons_of_mem d)
    rw [List.splitOn_cons_eq_if_modifyHead] at h
    split at h
    · rcases List.mem_cons.1 h with rfl | h
      · exact absurd hc List.not_mem_nil
      · exact htail _ h hc
    · next hd =>
      cases hpieces : cs.splitOn separator with
      | nil => exact absurd hpieces (List.splitOn_ne_nil _ _)
      | cons first pieces =>
        rw [hpieces, List.modifyHead_cons] at h
        rw [hpieces] at htail
        rcases List.mem_cons.1 h with rfl | h
        · rcases List.mem_cons.1 hc with rfl | hc
          · exact ⟨List.mem_cons_self .., fun heq => hd (heq ▸ BEq.rfl)⟩
          · exact htail first (List.mem_cons_self ..) hc
        · exact htail _ (List.mem_cons_of_mem _ h) hc

/-- **A text without commas** is one piece. -/
theorem commaPieces_of_no_comma {s : String} (hcomma : ',' ∉ s.toList) : commaPieces s = [trim s.toList] := by
  rw [commaPieces, List.splitOn_eq_singleton hcomma]
  rfl

/-- A text without commas that is not blank is a list of one item. -/
theorem splitList_of_no_comma {s : String} (hcomma : ',' ∉ s.toList) (hs : trim s.toList ≠ []) :
    splitList s = [trimmed s] := by
  have hkept : (!(trim s.toList).isEmpty) = true := by
    rw [List.isEmpty_eq_false_iff.2 hs]
    rfl
  rw [splitList, commaPieces_of_no_comma hcomma, List.filter_cons, hkept]
  rfl

/-- **An item by itself is a list of one item.** -/
theorem splitList_item {s : String} (h : IsItem s) : splitList s = [s] := by
  have htrim := trimmed_eq_self_iff.1 h.trimmed_eq
  have hs : trim s.toList ≠ [] := by
    rw [htrim]
    exact fun hnil => h.ne_empty (String.toList_eq_nil_iff.1 hnil)
  rw [splitList_of_no_comma h.no_comma hs, h.trimmed_eq]

namespace Numerals

variable {k : Numerals} {cs : List Char}

/-- **What reads as a number** is not empty and consists of digits and signs. -/
theorem chars_of_read? {n : Int} (h : k.read? cs = some n) :
    cs ≠ [] ∧ ∀ c ∈ cs, c.isDigit = true ∨ c = '+' ∨ c = '-' := by
  obtain ⟨hsigned, -⟩ := Option.filter_eq_some_iff.1 h
  cases Signed.of_signed? hsigned with
  | plain hne hds => exact ⟨hne, fun c hc => .inl (hds c hc)⟩
  | plus _ hds => exact ⟨List.cons_ne_nil _ _, List.forall_mem_cons.2 ⟨.inr (.inl rfl), fun c hc => .inl (hds c hc)⟩⟩
  | minus _ hds => exact ⟨List.cons_ne_nil _ _, List.forall_mem_cons.2 ⟨.inr (.inr rfl), fun c hc => .inl (hds c hc)⟩⟩

/-- **A numeral is an item.** -/
theorem isItem_write (n : Int) : IsItem (String.ofList (write n)) where
  ne_empty h := by
    have hnil : write n = [] := by
      rw [← String.toList_ofList (l := write n)]
      exact String.toList_eq_nil_iff.2 h
    cases n with
    | ofNat n => exact Nat.toDigits_ne_nil hnil
    | negSucc n => exact List.cons_ne_nil _ _ hnil
  no_comma h := by
    rw [String.toList_ofList] at h
    rcases isDigit_or_of_mem_write h with hdigit | hminus
    · exact absurd hdigit (by decide)
    · exact absurd hminus (by decide)
  trimmed_eq := by rw [trimmed, String.toList_ofList, trim_write]

/-- **A numeral is one piece of a comma list.** -/
theorem commaPieces_write (n : Int) : commaPieces (String.ofList (write n)) = [write n] := by
  rw [commaPieces_of_no_comma (isItem_write n).no_comma, String.toList_ofList, trim_write]

/-- Different 64-bit integers have different numerals. -/
theorem write_inj {n m : Int64} : write n.toInt = write m.toInt ↔ n = m := by
  refine ⟨fun h => ?_, fun h => h ▸ rfl⟩
  have hread := int64?_write n
  rw [h, int64?_write] at hread
  exact (Option.some.inj hread).symm

end Numerals

/-- **A text that reads as a number as a whole** is a list of one item, itself without the
blanks around it. -/
theorem splitList_of_int64? {s : String} {n : Int64} (h : Numerals.int64? (trim s.toList) = some n) :
    splitList s = [trimmed s] := by
  obtain ⟨m, hm, -⟩ := Option.map_eq_some_iff.1 h
  obtain ⟨hne, hchars⟩ := Numerals.chars_of_read? hm
  refine splitList_of_no_comma (fun hcomma => ?_) hne
  rcases mem_trim_or_isBlank hcomma with hmem | hblank
  · rcases hchars ',' hmem with hdigit | hplus | hminus
    · exact absurd hdigit (by decide)
    · exact absurd hplus (by decide)
    · exact absurd hminus (by decide)
  · exact absurd hblank (by decide)

end Text
end Muster
