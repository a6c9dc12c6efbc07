/-
# Configs in print

Configs are compared by the printed forms of their attributes, so one of each class of
configs that agree has texts only: the config *in print* (`agrees_iff_printed_eq`).
What reads a scalar does not always read the same off its print:

| reading | the print reads the same |
| --- | --- |
| text, list | always |
| integer | unless the scalar is a floating-point number |
| truth value, else true | unless the scalar is a floating-point number |
| truth value, else false | unless it is such a number, or an integer other than 0 and 1 |
| match with a pattern | always |

An integer such as `5` is a true value while the text `5` is none, so in the fourth row
they differ, and in the third they do not.
-/

import Muster.Proofs.Config.RoundTrip
import Muster.Proofs.Text.Numerals
import Muster.Config.Match

namespace Muster

/-! ### Scalars -/

namespace Scalar

/-- The scalar in print. -/
def printed (a : Scalar) : Scalar := .str a.text

/-- Scalars are equal if they are the same in print. -/
theorem agrees_iff_printed_eq {a b : Scalar} : a.agrees b = true ↔ a.printed = b.printed := by
  rw [agrees, beq_iff_eq, printed, printed, Scalar.str.injEq]

/-- The text of an integer has no blanks around it. -/
theorem trim_text_int (n : Int64) : Text.trim (text (.int n)).toList = Text.Numerals.write n.toInt := by
  rw [text, String.toList_ofList, Text.Numerals.trim_write]

/-- **The print of a scalar that is no floating-point number** reads as the same integer. -/
theorem toInt?_printed {a : Scalar} (h : a.isReal = false) : a.printed.toInt? = a.toInt? := by
  cases a with
  | bool b => cases b <;> decide
  | int n =>
    change Text.Numerals.int64? (Text.trim (text (.int n)).toList) = some n
    rw [trim_text_int, Text.Numerals.int64?_write]
  | real r => cases h
  | str s => rfl

/-- Whether a scalar is 0 or 1, if it is an integer. -/
def isFlag : Scalar → Bool
  | int n => n = 0 || n = 1
  | _ => true

/-- **The print of a truth value, of 0, of 1 or of a text** reads as the same truth value. -/
theorem toBool?_printed {a : Scalar} (h : a.isReal = false) (hflag : a.isFlag = true) :
    a.printed.toBool? = a.toBool? := by
  cases a with
  | bool b => cases b <;> decide
  | int n =>
    rw [isFlag, Bool.or_eq_true, decide_eq_true_eq, decide_eq_true_eq] at hflag
    obtain rfl | rfl := hflag <;> decide
  | real r => cases h
  | str s => rfl

/-- An integer other than 0 and 1 is a true value, and its print is none. -/
example : toBool? (.int 5) = some true ∧ (printed (.int 5)).toBool? = none := by decide

/-- The words for false denote no integer but 0. -/
theorem text_int_ne_word {n : Int64} (h : n ≠ 0) {word : String} (hword : word ∈ ["no", "false", "off", "0"]) :
    String.ofList (Text.Numerals.write n.toInt) ≠ word := by
  intro htext
  have hread : Text.Numerals.int64? word.toList = some n := by
    rw [← htext, String.toList_ofList, Text.Numerals.int64?_write]
  have hwords : ∀ w ∈ ["no", "false", "off", "0"], Text.Numerals.int64? w.toList = none ∨
      Text.Numerals.int64? w.toList = some 0 := by decide
  rcases hwords word hword with hnone | hzero
  · rw [hnone] at hread
    contradiction
  · rw [hzero] at hread
    exact h (Option.some.inj hread).symm

/-- **The print of a scalar that is no floating-point number** reads as the same truth
value where true is the default: the numeral of an integer other than 0 is true or no
word at all. -/
theorem toBool_printed {a : Scalar} (h : a.isReal = false) :
    Value.toBool (some a.printed) true = Value.toBool (some a) true := by
  cases a with
  | int n =>
    by_cases hzero : n = 0
    · subst hzero
      decide
    have hword : ["no", "false", "off", "0"].contains (String.ofList (Text.Numerals.write n.toInt)) = false := by
      rw [List.contains_eq_mem, decide_eq_false_iff_not]
      exact fun hmem => text_int_ne_word hzero hmem rfl
    have htrimmed : Text.trimmed (text (.int n)) = String.ofList (Text.Numerals.write n.toInt) := by
      rw [Text.trimmed, trim_text_int]
    simp only [Value.toBool, Option.bind_some, printed, toBool?, htrimmed, truthOfWord?, hword]
    split <;> simp [hzero]
  | bool b => cases b <;> decide
  | real r => cases h
  | str s => rfl

end Scalar

/-- The value in print. -/
def Value.printed (v : Value) : Value := v.map Scalar.printed

/-! ### Configs -/

namespace Config

mutual

/-- The config in print. -/
def printed : Config → Config
  | node as cs => node (as.mapValues Scalar.printed) (printedAll cs)

/-- Several children in print. -/
def printedAll : List (String × Config) → List (String × Config)
  | [] => []
  | (tag, c) :: cs => (tag, c.printed) :: printedAll cs

end

/-- Several children in print are each in print. -/
theorem printedAll_eq_map : ∀ cs : List (String × Config), printedAll cs = cs.map fun e => (e.1, e.2.printed)
  | [] => rfl
  | (_, _) :: cs => congrArg _ (printedAll_eq_map cs)

/-- Each attribute of a config in print is the attribute in print. -/
theorem get_printed (c : Config) (key : String) : c.printed.get key = (c.get key).printed := by
  cases c
  exact Table.get?_mapValues ..

/-- Attributes agree if the keys are the same and the scalars are so in print. -/
theorem attributesAgree_iff {as bs : List (String × Scalar)} :
    attributesAgree as bs = true ↔
      as.map (fun e => (e.1, e.2.printed)) = bs.map fun e => (e.1, e.2.printed) := by
  induction as generalizing bs with
  | nil => cases bs <;> simp [attributesAgree]
  | cons a as ih =>
    cases bs with
    | nil => simp [attributesAgree]
    | cons b bs =>
      rw [attributesAgree, Bool.and_eq_true, Bool.and_eq_true, beq_iff_eq, Scalar.agrees_iff_printed_eq, ih,
        List.map_cons, List.map_cons, List.cons.injEq, Prod.mk.injEq]

/-- Children agree if the tags are the same and the configs agree, which they do in print. -/
theorem childrenAgree_iff {cs ds : List (String × Config)}
    (h : ∀ e ∈ cs, ∀ d : Config, e.2.agrees d = true ↔ e.2.printed = d.printed) :
    childrenAgree cs ds = true ↔ printedAll cs = printedAll ds := by
  induction cs generalizing ds with
  | nil => cases ds <;> simp [childrenAgree, printedAll]
  | cons e cs ih =>
    cases ds with
    | nil => simp [childrenAgree, printedAll]
    | cons d ds =>
      rw [childrenAgree, Bool.and_eq_true, Bool.and_eq_true, beq_iff_eq, h e (List.mem_cons_self ..),
        ih fun e' he' => h e' (List.mem_cons_of_mem _ he'), printedAll, printedAll, List.cons.injEq, Prod.mk.injEq]

/-- **Configs agree** if and only if they are the same in print. -/
theorem agrees_iff_printed_eq (c d : Config) : c.agrees d = true ↔ c.printed = d.printed := by
  induction c using Config.induct generalizing d with
  | node as cs ih =>
    obtain ⟨bs, ds⟩ := d
    have htable : as.mapValues Scalar.printed = bs.mapValues Scalar.printed ↔
        as.entries.map (fun e => (e.1, e.2.printed)) = bs.entries.map fun e => (e.1, e.2.printed) := by
      rw [Table.mapValues, Table.mapValues, Table.mk.injEq]
    rw [agrees, attributes_node, children_node, Bool.and_eq_true, attributesAgree_iff, childrenAgree_iff ih, printed,
      printed, node.injEq, htable]

mutual

/-- **A pattern in print is matched by the same configs.** -/
theorem matchesPattern_printed (c : Config) : ∀ p : Config, c.matchesPattern p.printed = c.matchesPattern p
  | node as cs => by
    rw [printed, matchesPattern, matchesPattern, matchesChildren_printed c cs, Table.mapValues, List.all_map]
    rfl

/-- A config matches the children of a pattern in print as it matches them. -/
theorem matchesChildren_printed (c : Config) :
    ∀ ps : List (String × Config), c.matchesChildren (printedAll ps) = c.matchesChildren ps
  | [] => rfl
  | (tag, p) :: ps => by
    have hany : ((c.childrenAt tag).any fun d => d.matchesPattern p.printed) =
        (c.childrenAt tag).any fun d => d.matchesPattern p :=
      congrArg _ (funext fun d => matchesPattern_printed d p)
    rw [printedAll, matchesChildren, matchesChildren, matchesPattern_printed c p, hany, matchesChildren_printed c ps]

end

end Config
end Muster
