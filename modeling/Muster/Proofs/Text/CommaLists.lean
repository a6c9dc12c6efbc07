/-
# Comma lists split and joined

Blanks around the pieces of a comma list and empty pieces do not count, so many texts have
the same items:

| text | items |
| --- | --- |
| `scout,dark archer` and ` scout ,, dark archer,` | `scout` and `dark archer` |
| the empty text and `, ,` | none |

One of these texts has the items and the commas between them and nothing else.  Splitting
gives back texts that are joined with commas exactly when each of them is *listable*: not
empty, without a comma, and without white space at either end (`split_inverts_join`).  Nothing
else is ever an item.

Two facts carry the inverse: a comma separates the items before it from those behind it
(`splitList_append`), and an item is a list by itself (`splitList_item`).
-/

import Muster.Proofs.Text.Items

namespace Muster
namespace Text

/-! ### White space -/

/-- The code points with the Unicode property White_Space, one by one. -/
def whiteSpace : List Nat :=
  [0x0009, 0x000A, 0x000B, 0x000C, 0x000D, 0x0020, 0x0085, 0x00A0, 0x1680, 0x2000, 0x2001, 0x2002, 0x2003, 0x2004,
    0x2005, 0x2006, 0x2007, 0x2008, 0x2009, 0x200A, 0x2028, 0x2029, 0x202F, 0x205F, 0x3000]

/-- The blanks are the characters of Unicode white space. -/
theorem isBlank_iff {c : Char} : isBlank c = true ↔ c.toNat ∈ whiteSpace := by
  simp only [isBlank, blankRanges, List.any_cons, List.any_nil, Bool.or_eq_true, Bool.and_eq_true, decide_eq_true_eq,
    Bool.false_eq_true, whiteSpace, List.mem_cons, List.not_mem_nil, or_false]
  omega

/-- All other characters are no blanks. -/
theorem isBlank_eq_false_iff {c : Char} : isBlank c = false ↔ c.toNat ∉ whiteSpace := by
  rw [← isBlank_iff, Bool.not_eq_true]

/-- A text that is not empty, has no comma, and neither starts nor ends with white space. -/
structure Listable (s : String) : Prop where
  ne_empty : s ≠ ""
  no_comma : ',' ∉ s.toList
  head : ∀ c, s.toList.head? = some c → c.toNat ∉ whiteSpace
  last : ∀ c, s.toList.getLast? = some c → c.toNat ∉ whiteSpace

/-- **The items of lists** are the listable texts. -/
theorem isItem_iff_listable {s : String} : IsItem s ↔ Listable s := by
  constructor
  · intro h
    obtain ⟨hhead, hlast⟩ := trim_eq_self_iff.1 (trimmed_eq_self_iff.1 h.trimmed_eq)
    exact ⟨h.ne_empty, h.no_comma, fun c hc => isBlank_eq_false_iff.1 (hhead c hc),
      fun c hc => isBlank_eq_false_iff.1 (hlast c hc)⟩
  · intro h
    have htrim := trim_eq_self_iff.2
      ⟨fun c hc => isBlank_eq_false_iff.2 (h.head c hc), fun c hc => isBlank_eq_false_iff.2 (h.last c hc)⟩
    exact ⟨h.ne_empty, h.no_comma, trimmed_eq_self_iff.2 htrim⟩

/-! ### Splitting -/

/-- **What is split off is an item.** -/
theorem isItem_of_mem_splitList {s item : String} (h : item ∈ splitList s) : IsItem item := by
  obtain ⟨piece, hpiece, rfl⟩ := List.mem_map.1 h
  obtain ⟨hmem, hkept⟩ := List.mem_filter.1 hpiece
  obtain ⟨cs, hcs, rfl⟩ := List.mem_map.1 hmem
  refine ⟨fun hempty => ?_, fun hcomma => ?_, ?_⟩
  · rw [← String.toList_eq_nil_iff, String.toList_ofList] at hempty
    simp [hempty] at hkept
  · rw [String.toList_ofList] at hcomma
    exact (mem_and_ne_of_mem_splitOn hcs ((trim_sublist cs).mem hcomma)).2 rfl
  · rw [trimmed_eq_self_iff, String.toList_ofList, trim_trim]

/-- **A comma separates** the items before it from those behind it. -/
theorem splitList_append (before after : String) :
    splitList (before ++ "," ++ after) = splitList before ++ splitList after := by
  have hsplit : (before ++ "," ++ after).toList.splitOn ',' = before.toList.splitOn ',' ++ after.toList.splitOn ',' := by
    rw [String.toList_append, String.toList_append, List.append_assoc]
    exact List.splitOn_append_cons_self _ _
  simp only [splitList, commaPieces, hsplit, List.map_append, List.filter_append]

/-- **Items joined with commas** are the items of the list. -/
theorem splitList_intercalate {items : List String} (h : ∀ item ∈ items, IsItem item) :
    splitList (",".intercalate items) = items := by
  induction items with
  | nil => rfl
  | cons item items ih =>
    obtain ⟨hitem, hitems⟩ := List.forall_mem_cons.1 h
    cases items with
    | nil => rw [String.intercalate_singleton, splitList_item hitem]
    | cons next items =>
      rw [String.intercalate_cons_cons, splitList_append, splitList_item hitem, ih hitems, List.singleton_append]

/-- **Splitting a list is the inverse of joining one.**  Some texts are the items of the list
that has commas between them exactly when they are listable: not empty, without a comma, and
without white space at either end.  Whatever text is split, all its items are listable.  And if
two texts are put together with a comma between them, the items of the first are followed by the
items of the second. -/
theorem split_inverts_join :
    (∀ items, splitList (",".intercalate items) = items ↔ ∀ item ∈ items, Listable item) ∧
      (∀ s, ∀ item ∈ splitList s, Listable item) ∧
      ∀ before after, splitList (before ++ "," ++ after) = splitList before ++ splitList after := by
  have hlistable : ∀ s, ∀ item ∈ splitList s, Listable item := fun _ _ h =>
    isItem_iff_listable.1 (isItem_of_mem_splitList h)
  refine ⟨fun items => ⟨fun h item hitem => ?_, fun h => ?_⟩, hlistable, splitList_append⟩
  · rw [← h] at hitem
    exact hlistable _ item hitem
  · exact splitList_intercalate fun item hitem => isItem_iff_listable.2 (h item hitem)

/-- A list with an ideographic space in front, an empty piece, and a zero width space, which is
no white space, behind the last name. -/
def enlisted : String := "\u3000dark archer ,,scout\u200b"

/-- What `split_inverts_join` says of `enlisted`. -/
theorem split_inverts_join_enlisted :
    "dark archer" ∈ splitList enlisted ∧ Listable "dark archer" ∧ Listable "scout\u200b" ∧
      splitList (",".intercalate ["dark archer", "scout\u200b"]) = ["dark archer", "scout\u200b"] ∧
      splitList (enlisted ++ "," ++ enlisted) = ["dark archer", "scout\u200b", "dark archer", "scout\u200b"] := by
  obtain ⟨hjoin, hitems, happend⟩ := split_inverts_join
  have hsplit : splitList enlisted = ["dark archer", "scout\u200b"] := by decide
  have harcher : "dark archer" ∈ splitList enlisted := by decide
  have hlistable := hitems enlisted
  rw [hsplit] at hlistable
  refine ⟨harcher, hitems enlisted _ harcher, hlistable _ (by decide), (hjoin _).2 hlistable, ?_⟩
  rw [happend, hsplit]
  rfl

end Text
end Muster
