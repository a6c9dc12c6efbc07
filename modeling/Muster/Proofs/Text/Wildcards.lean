/-
# What a wildcard pattern accepts

A pattern *yields* the texts that come of it by putting some text, perhaps the empty
one, in place of each star.  `Wildcard.accepts` takes the pieces between the stars from
left to right, each where it is found first, and never goes back on a choice.  All the
same it accepts every text that the pattern yields, and no other
(`Wildcard.accepts_iff_yields`).

That it accepts no other is seen from what it finds: the text before each piece goes in
place of a star.  That it accepts them all is an exchange: wherever a piece stands, what
follows it is the end of what follows the piece where it stands first
(`Wildcard.exists_afterFirst`), and the next star takes up what lies between
(`Wildcard.Yields.star_of_suffix`).
-/

import Mathlib.Data.List.Basic
import Muster.Proofs.Text.Items
import Muster.Text.Wildcard

namespace Muster
namespace Text
namespace Wildcard

/-- The texts that come of a pattern by putting a text in place of each star. -/
inductive Yields : List Char → List Char → Prop
  | nil : Yields [] []
  | char {c : Char} {pattern text : List Char} (hc : c ≠ '*') (h : Yields pattern text) :
      Yields (c :: pattern) (c :: text)
  | star (run : List Char) {pattern text : List Char} (h : Yields pattern text) :
      Yields ('*' :: pattern) (run ++ text)

/-! ### Stars and the pieces between them -/

section Yields

variable {pattern piece text : List Char}

/-- A pattern without characters yields the empty text. -/
theorem yields_nil_iff : Yields [] text ↔ text = [] :=
  ⟨fun h => by cases h; rfl, fun h => h ▸ .nil⟩

/-- A star yields any run of characters. -/
theorem yields_star_iff : Yields ('*' :: pattern) text ↔ ∃ run rest, run ++ rest = text ∧ Yields pattern rest := by
  constructor
  · intro h
    cases h with
    | char hc _ => exact absurd rfl hc
    | star run h => exact ⟨run, _, rfl, h⟩
  · rintro ⟨run, rest, rfl, h⟩
    exact .star run h

/-- **A piece without stars** stands for itself. -/
theorem yields_append_iff (hpiece : '*' ∉ piece) :
    Yields (piece ++ pattern) text ↔ ∃ rest, piece ++ rest = text ∧ Yields pattern rest := by
  induction piece generalizing text with
  | nil => simp
  | cons c piece ih =>
    obtain ⟨hc, htail⟩ := not_or.1 (mt List.mem_cons.2 hpiece)
    constructor
    · intro h
      cases h with
      | char _ h =>
        obtain ⟨rest, rfl, hrest⟩ := (ih htail).1 h
        exact ⟨rest, rfl, hrest⟩
      | star _ _ => exact absurd rfl hc
    · rintro ⟨rest, rfl, h⟩
      exact .char (Ne.symm hc) ((ih htail).2 ⟨rest, rfl, h⟩)

/-- A pattern without stars yields itself. -/
theorem yields_piece_iff (hpiece : '*' ∉ piece) : Yields piece text ↔ piece = text := by
  have h : Yields (piece ++ []) text ↔ ∃ rest, piece ++ rest = text ∧ Yields [] rest := yields_append_iff hpiece
  simpa [yields_nil_iff] using h

/-- **A star takes up whatever comes before.** -/
theorem Yields.star_of_suffix {rest : List Char} (h : Yields ('*' :: pattern) rest) (hsuffix : rest <:+ text) :
    Yields ('*' :: pattern) text := by
  obtain ⟨before, rfl⟩ := hsuffix
  obtain ⟨run, rest, rfl, hrest⟩ := yields_star_iff.1 h
  rw [← List.append_assoc]
  exact .star (before ++ run) hrest

/-- Between the stars of a pattern stand pieces without stars. -/
theorem star_notMem_of_mem_splitOn (h : piece ∈ pattern.splitOn '*') : '*' ∉ piece := fun hstar =>
  (mem_and_ne_of_mem_splitOn h hstar).2 rfl

end Yields

/-! ### The search for one piece -/

/-- **What is found stands there.** -/
theorem exists_of_afterFirst {piece cs rest : List Char} (h : afterFirst piece cs = some rest) :
    ∃ run, run ++ (piece ++ rest) = cs := by
  induction cs with
  | nil =>
    obtain ⟨hempty, hrest⟩ := Option.ite_none_right_eq_some.1 h
    obtain rfl := Option.some.inj hrest
    exact ⟨[], by simpa using hempty⟩
  | cons c cs ih =>
    rw [afterFirst] at h
    split at h
    · next found hfound =>
      obtain rfl := Option.some.inj h
      have hhere : piece ++ found = c :: cs := List.isPrefixOf?_eq_some_iff_append_eq.1 hfound
      exact ⟨[], hhere⟩
    · obtain ⟨run, rfl⟩ := ih h
      exact ⟨c :: run, rfl⟩

/-- **The leftmost occurrence leaves the most.**  What follows any occurrence of a piece is
the end of what follows the first. -/
theorem exists_afterFirst (run piece rest : List Char) :
    ∃ most, afterFirst piece (run ++ (piece ++ rest)) = some most ∧ rest <:+ most := by
  induction run with
  | nil =>
    rw [List.nil_append]
    cases hcs : piece ++ rest with
    | nil =>
      obtain ⟨rfl, rfl⟩ := List.append_eq_nil_iff.1 hcs
      exact ⟨[], rfl, List.suffix_rfl⟩
    | cons c cs =>
      have hfound : piece.isPrefixOf? (c :: cs) = some rest := List.isPrefixOf?_eq_some_iff_append_eq.2 hcs
      exact ⟨rest, by rw [afterFirst, hfound], List.suffix_rfl⟩
  | cons c run ih =>
    rw [List.cons_append, afterFirst]
    split
    · next most hmost =>
      -- the piece stands here already, so the occurrence at hand lies further right
      have hhere : piece ++ most = c :: run ++ (piece ++ rest) := List.isPrefixOf?_eq_some_iff_append_eq.1 hmost
      have hlength : rest.length ≤ most.length := by
        have h := congrArg List.length hhere
        simp only [List.length_append, List.length_cons] at h
        omega
      have hrest : rest <:+ c :: run ++ (piece ++ rest) :=
        (List.suffix_append piece rest).trans (List.suffix_append _ _)
      have hmost : most <:+ c :: run ++ (piece ++ rest) := hhere ▸ List.suffix_append piece most
      exact ⟨most, rfl, List.suffix_of_suffix_length_le hrest hmost hlength⟩
    · exact ih

/-! ### The search for all pieces -/

/-- **Pieces found one after the other** are what stars with these pieces behind them yield. -/
theorem holdsPieces_iff_yields {pieces : List (List Char)} (hne : pieces ≠ [])
    (hpieces : ∀ piece ∈ pieces, '*' ∉ piece) {cs : List Char} :
    holdsPieces pieces cs = true ↔ Yields ('*' :: ['*'].intercalate pieces) cs := by
  induction pieces generalizing cs with
  | nil => exact absurd rfl hne
  | cons piece pieces ih =>
    obtain ⟨hpiece, hrest⟩ := List.forall_mem_cons.1 hpieces
    cases pieces with
    | nil =>
      simp only [holdsPieces, List.intercalate_singleton, List.isSuffixOf_iff_suffix, yields_star_iff,
        yields_piece_iff hpiece, exists_eq_right']
      rfl
    | cons next pieces =>
      have ih := @ih (List.cons_ne_nil _ _) hrest
      rw [List.intercalate_cons_cons, List.append_assoc, List.singleton_append, yields_star_iff, holdsPieces]
      constructor
      · intro h
        split at h
        · next rest hfound =>
          obtain ⟨run, rfl⟩ := exists_of_afterFirst hfound
          exact ⟨run, piece ++ rest, rfl, (yields_append_iff hpiece).2 ⟨rest, rfl, ih.1 h⟩⟩
        · exact absurd h Bool.false_ne_true
      · rintro ⟨run, text, rfl, h⟩
        obtain ⟨rest, rfl, hyields⟩ := (yields_append_iff hpiece).1 h
        obtain ⟨most, hmost, hsuffix⟩ := exists_afterFirst run piece rest
        rw [hmost]
        exact ih.2 (hyields.star_of_suffix hsuffix)

/-- **The pieces of a pattern** are found in a text exactly if the pattern yields it. -/
theorem acceptsPieces_iff_yields {pieces : List (List Char)} (hne : pieces ≠ [])
    (hpieces : ∀ piece ∈ pieces, '*' ∉ piece) {code : List Char} :
    acceptsPieces pieces code = true ↔ Yields (['*'].intercalate pieces) code := by
  match pieces with
  | [] => exact absurd rfl hne
  | [only] =>
    rw [List.intercalate_singleton, yields_piece_iff (hpieces only (List.mem_singleton.2 rfl)), acceptsPieces,
      beq_iff_eq]
  | first :: next :: rest =>
    obtain ⟨hfirst, hrest⟩ := List.forall_mem_cons.1 hpieces
    rw [List.intercalate_cons_cons, List.append_assoc, List.singleton_append, yields_append_iff hfirst]
    simp only [acceptsPieces]
    constructor
    · intro h
      split at h
      · next remaining hfound =>
        have hremaining := (holdsPieces_iff_yields (List.cons_ne_nil _ _) hrest).1 h
        exact ⟨remaining, List.isPrefixOf?_eq_some_iff_append_eq.1 hfound, hremaining⟩
      · exact absurd h Bool.false_ne_true
    · rintro ⟨remaining, hcode, h⟩
      rw [List.isPrefixOf?_eq_some_iff_append_eq.2 hcode]
      exact (holdsPieces_iff_yields (List.cons_ne_nil _ _) hrest).2 h

/-- **A pattern accepts what it yields.**  Whatever the pattern and the code, the search for
the leftmost occurrence of one piece after the other succeeds exactly when the code comes of
the pattern, without the blanks around it, by putting some text in place of each star. -/
theorem accepts_iff_yields (pattern code : String) :
    accepts pattern code = true ↔ Yields (trim pattern.toList) code.toList := by
  have hpieces : ∀ piece ∈ (trim pattern.toList).splitOn '*', '*' ∉ piece := fun _ => star_notMem_of_mem_splitOn
  rw [accepts, acceptsPieces_iff_yields (List.splitOn_ne_nil _ _) hpieces, List.intercalate_splitOn]

/-- The texts before and behind a star do not share a character. -/
example : accepts "ab*ba" "aba" = false := by decide

end Wildcard
end Text
end Muster
