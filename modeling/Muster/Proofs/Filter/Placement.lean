/-
# Troops as if they stood elsewhere

The verdict on a troop at a location should be the one that the troop would get if
it stood there.  Without plug-ins it is, but for one test: a snapshot shows where
the troop really stands, whatever location it is checked at.  So the two verdicts
may differ as soon as a pattern asks for the coordinates
(`Query.exists_matchesAt_ne_matchesTroop`), and they agree for every query none of
whose own patterns does (`Query.matchesAt_eq_matchesTroop`).

The patterns of a query are its own where they are matched against the troop that
the query is asked about: those of its clauses about neighbours, occupants and
members of a side are matched against troops where these stand.
-/

import Muster.Proofs.Filter.Items
import Muster.Proofs.Filter.Origin

namespace Muster

/-- The troop at another location. -/
def Troop.movedTo (t : Troop) (l : Location) : Troop := { t with location := l }

/-! ### Patterns -/

namespace Config

mutual

/-- Whether a pattern asks for the coordinates of what is matched against it.  Only
children tagged `not` are matched against the whole once more. -/
def asksPlace : Config → Bool
  | node as cs => as.entries.any (fun e => isCoordinate e.1) || asksPlaceWithin cs

/-- Whether one of the children of a pattern asks for the coordinates. -/
def asksPlaceWithin : List (String × Config) → Bool
  | [] => false
  | (tag, p) :: ps => (tag == "not" && asksPlace p) || asksPlaceWithin ps

end

/-- Two configs that differ in their coordinates only. -/
structure AlikeElsewhere (c d : Config) : Prop where
  children : c.children = d.children
  get : ∀ key, isCoordinate key = false → c.get key = d.get key

mutual

/-- **A pattern that does not ask for coordinates does not tell them apart.** -/
theorem AlikeElsewhere.matchesPattern {c d : Config} (h : c.AlikeElsewhere d) :
    ∀ p : Config, p.asksPlace = false → c.matchesPattern p = d.matchesPattern p
  | node as cs, hp => by
    rw [asksPlace, Bool.or_eq_false_iff, List.any_eq_false] at hp
    have hattributes : (as.entries.all fun e => c.showsAttribute e.1 e.2) =
        as.entries.all fun e => d.showsAttribute e.1 e.2 := by
      rw [Bool.eq_iff_iff, List.all_eq_true, List.all_eq_true]
      refine forall₂_congr fun e he => ?_
      rw [showsAttribute, showsAttribute, h.get e.1 (by simpa using hp.1 e he)]
    rw [Config.matchesPattern, Config.matchesPattern, hattributes, matchesChildren h cs hp.2]

/-- Snapshots that differ in the place alone match alike what does not ask for it. -/
theorem AlikeElsewhere.matchesChildren {c d : Config} (h : c.AlikeElsewhere d) :
    ∀ cs : List (String × Config), asksPlaceWithin cs = false → c.matchesChildren cs = d.matchesChildren cs
  | [], _ => rfl
  | (tag, p) :: ps, hps => by
    rw [asksPlaceWithin, Bool.or_eq_false_iff] at hps
    rw [Config.matchesChildren, Config.matchesChildren, matchesChildren h ps hps.2, childrenAt, childrenAt, h.children]
    split
    · next htag =>
      have hp : p.asksPlace = false := by simpa [htag] using hps.1
      rw [matchesPattern h p hp]
    · rfl

end

end Config

/-- What a snapshot shows apart from the coordinates does not tell the location. -/
theorem Troop.get_snapshot (t : Troop) {key : String} (hkey : isCoordinate key = false) :
    t.snapshot.get key = (Table.ofList (t.commonAttributes ++ t.optionalAttributes)).get? key := by
  simp only [isCoordinate, Bool.or_eq_false_iff, beq_eq_false_iff_ne] at hkey
  change (Table.ofList (_ ++ _ ++ t.placeAttributes)).get? key = _
  rw [Table.ofList, List.foldl_append, placeAttributes]
  split <;>
    simp only [List.foldl_cons, List.foldl_nil, Table.get?_insert, Std.LawfulEqOrd.compare_eq_iff_eq, hkey.1, hkey.2,
      if_false] <;> rfl

/-- **Moving a troop changes the coordinates of its snapshot only.** -/
theorem Troop.snapshot_movedTo (t : Troop) (l : Location) : (t.movedTo l).snapshot.AlikeElsewhere t.snapshot where
  children := rfl
  get key hkey := by
    rw [get_snapshot _ hkey, get_snapshot _ hkey]
    rfl

/-! ### The patterns that are matched against the troop itself -/

/-- The patterns that a filter matches against the snapshot of the troop it is asked about. -/
def Filter.ownPatterns : {s : Subject} → Filter s → List Config
  | _, both f g => f.ownPatterns ++ g.ownPatterns
  | _, joined _ f g => f.ownPatterns ++ g.ownPatterns
  | _, bound f => f.ownPatterns
  | _, troopTest (.snapshot pattern) => [pattern]
  | _, _ => []

namespace Query

mutual

/-- The patterns of a query and of its conditionals, at any depth. -/
def ownPatterns : Config → List Config
  | .node _ cs => ownPatternsOf cs

/-- The patterns among children of a query and in its conditionals, at any depth. -/
def ownPatternsOf : List (String × Config) → List Config
  | [] => []
  | (tag, child) :: rest =>
    (if tag = "filter_wml" then [child] else if tag ∈ ["and", "or", "not"] then ownPatterns child else []) ++
      ownPatternsOf rest

end

/-- A pattern below a child is an own one if the child is a pattern or a conditional. -/
theorem mem_ownPatternsOf {cs : List (String × Config)} {tag : String} {child p : Config} (hmem : (tag, child) ∈ cs)
    (hp : p ∈ if tag = "filter_wml" then [child] else if tag ∈ ["and", "or", "not"] then ownPatterns child else []) :
    p ∈ ownPatternsOf cs := by
  induction cs with
  | nil => exact absurd hmem List.not_mem_nil
  | cons e cs ih =>
    obtain ⟨tag', child'⟩ := e
    rw [ownPatternsOf]
    rcases List.mem_cons.1 hmem with h | h
    · cases h
      exact List.mem_append_left _ hp
    · exact List.mem_append_right _ (ih h)

/-- A pattern is matched against the variables or against the snapshot. -/
theorem patternTest_eq (pattern : Config) :
    (∃ inner, patternTest pattern = .stored inner) ∨ patternTest pattern = .snapshot pattern := by
  unfold patternTest
  split
  · exact .inl ⟨_, rfl⟩
  · exact .inr rfl

end Query

namespace Oracle

/-- **The own patterns of a filter** are among those of its query. -/
theorem inherits_ownPatterns (o : Oracle) (flat : Bool) (made : Scope) :
    o.Inherits flat made fun q f => ∀ p ∈ f.ownPatterns, p ∈ Query.ownPatterns q where
  closed q := {
    pass := fun _ hp => absurd hp List.not_mem_nil
    both := fun hf hg => List.forall_mem_append.2 ⟨hf, hg⟩
    joined := fun hf hg => List.forall_mem_append.2 ⟨hf, hg⟩
    bound := fun hf => hf
    teamed := fun _ _ hp => absurd hp List.not_mem_nil
    onMap := fun _ _ hp => absurd hp List.not_mem_nil }
  fields q := by
    refine Query.forall_mem_fieldTests (P := fun f => ∀ p ∈ f.ownPatterns, p ∈ Query.ownPatterns q)
      (fun {test} htest p hp => ?_) ?_ ?_ ?_ ?_
    · cases test <;> first | exact absurd hp List.not_mem_nil | exact absurd rfl (htest _)
    all_goals exact fun _ hp => absurd hp List.not_mem_nil
  pattern {q child} hmem := by
    obtain ⟨as, cs⟩ := q
    rcases Query.patternTest_eq child with ⟨inner, hinner⟩ | hsnapshot
    · rw [hinner]
      exact fun _ hp => absurd hp List.not_mem_nil
    · rw [hsnapshot]
      exact List.forall_mem_singleton.2 (Query.mem_ownPatternsOf hmem (List.mem_singleton_self child))
  part {s inner q child} p f hmem hf := by
    obtain ⟨as, cs⟩ := q
    cases p with
    | conditional c =>
      -- The patterns of a conditional are matched against the same troop.
      intro pattern hp
      refine Query.mem_ownPatternsOf hmem ?_
      cases c <;> exact hf pattern hp
    | _ => exact fun _ hp => absurd hp List.not_mem_nil

/-! ### Moving the troop -/

/-- The oracle of a board without plug-ins: no formula holds, and every script does. -/
def plain (b : Board) : Oracle := ⟨b, fun _ _ _ _ => false, fun _ _ _ => true⟩

/-- **The verdict at a location does not tell where the troop really stands,** if
neither its own patterns nor the plug-ins do. -/
theorem verdict_movedTo {o : Oracle} {t : Troop} {l' : Location}
    (hformula : ∀ text l, o.formula text l (t.movedTo l') = o.formula text l t)
    (hscript : ∀ name, o.script name (t.movedTo l') = o.script name t) (l : Location) :
    ∀ (f : Filter .troop) (_ : ∀ p ∈ f.ownPatterns, p.asksPlace = false) (sc : Scope),
      o.verdict f (t.movedTo l', l) sc = o.verdict f (t, l) sc
  | .pass, _, _ => rfl
  | .both f g, h, sc => by
    obtain ⟨hf, hg⟩ := List.forall_mem_append.1 h
    rw [verdict_both, verdict_both, verdict_movedTo hformula hscript l f hf, verdict_movedTo hformula hscript l g hg]
  | .joined c f g, h, sc => by
    obtain ⟨hf, hg⟩ := List.forall_mem_append.1 h
    rw [verdict_joined, verdict_joined, verdict_movedTo hformula hscript l f hf,
      verdict_movedTo hformula hscript l g hg]
  | .troopTest test, h, sc => by
    rw [verdict_troopTest, verdict_troopTest]
    cases test with
    | snapshot pattern => exact (t.snapshot_movedTo l').matchesPattern pattern (h pattern (List.mem_singleton_self _))
    | _ => rfl
  | .formula text, _, sc => congrFun (hformula text l) sc
  | .script name, _, sc => congrFun (hscript name) sc
  | .bound own, h, sc => verdict_movedTo hformula hscript l own h (sc.under t l)
  -- The other clauses look at the location asked about, at the side, or at other troops.
  | .standing _, _, _ => rfl
  | .ofSide _, _, _ => rfl
  | .adjacent a f, _, sc => by
    rw [verdict_adjacent, verdict_adjacent]
    rfl

end Oracle

/-- **A context without plug-ins follows the plain oracle.** -/
theorem Context.follows_plain {σ : Type} {ctx : Context σ} (hformula : ctx.formula = none)
    (hscript : ctx.script = none) : ctx.Follows (.plain ctx.toBoard) where
  board := rfl
  formula text l t := by
    simp only [setting, hformula]
    exact fun _ => ⟨rfl, rfl⟩
  script name t := by
    simp only [setting, hscript]
    exact fun _ => ⟨rfl, rfl⟩
  testing _ _ := Run.Answers.testing

namespace Query

variable {σ : Type} {ctx : Context σ}

/-- **A troop is checked at a location as if it stood there,** if there are no
plug-ins and none of the query's own patterns asks for coordinates. -/
theorem matchesAt_eq_matchesTroop (hformula : ctx.formula = none) (hscript : ctx.script = none) {flat : Bool}
    {q : Config} (hq : ∀ p ∈ ownPatterns q, p.asksPlace = false) (start : Session σ) {f : Filter .troop}
    (hf : ((build q (some ctx) flat).run.run start).1 = .ok f) (t : Troop) (l : Location) (s : Session σ) :
    ((f.matchesAt ctx t l).run s).1 = ((f.matchesTroop ctx (t.movedTo l)).run s).1 := by
  have h := Context.follows_plain hformula hscript
  have hcompiled : (Oracle.plain ctx.toBoard).compiled flat .troop q start.scope = .ok f := by
    rw [← (h.compile flat .troop q start).1]
    exact hf
  have hown := Oracle.compiled_of_inherits (Oracle.inherits_ownPatterns _ flat start.scope) q hcompiled
  have hmoved : (Oracle.plain ctx.toBoard).verdict f (t.movedTo l, l) s.scope =
      (Oracle.plain ctx.toBoard).verdict f (t, l) s.scope :=
    Oracle.verdict_movedTo (fun _ _ => rfl) (fun _ => rfl) l f (fun p hp => hq p (hown p hp)) s.scope
  calc ((f.matchesAt ctx t l).run s).1 = (Oracle.plain ctx.toBoard).verdict f (t, l) s.scope := (h.run f _ s).1
    _ = (Oracle.plain ctx.toBoard).verdict f (t.movedTo l, l) s.scope := hmoved.symm
    _ = ((f.matchesTroop ctx (t.movedTo l)).run s).1 := (h.run (s := .troop) f _ s).1.symm

/-- A meadow of nine hexes without plug-ins. -/
def meadow : Context PUnit where
  map := Grid.filled 3 3 "Gg"

/-- A session in which nothing is under inspection. -/
def idle : Session PUnit := ⟨.empty, ⟨⟩⟩

/-- A troop in the second column of the first row. -/
def picket : Troop := { id := "picket", type := "Spearman", location := ⟨1, 0⟩ }

/-- A pattern that asks for the second column. -/
def columnPattern : Config := .ofAttributes [("x", .int 2)]

/-- A query whose own pattern asks for the id, while that of its neighbours asks for the column. -/
def sentryQuery : Config :=
  .node (Table.ofList [("y", .str "1")])
    [("filter_wml", .ofAttributes [("id", .str "picket")]),
      ("not", .wrap "filter_adjacent" (.wrap "filter_wml" columnPattern))]

/-- The hypotheses of `matchesAt_eq_matchesTroop` are met by `sentryQuery`. -/
theorem matchesAt_eq_matchesTroop_sentryQuery :
    meadow.formula.isNone ∧ meadow.script.isNone ∧ (∀ p ∈ ownPatterns sentryQuery, p.asksPlace = false) ∧
      ∃ f, ((build sentryQuery (some meadow) false).run.run idle).1 = .ok f ∧
        ((f.matchesAt meadow picket ⟨0, 0⟩).run idle).1 =
          ((f.matchesTroop meadow (picket.movedTo ⟨0, 0⟩)).run idle).1 := by
  have hq : ∀ p ∈ ownPatterns sentryQuery, p.asksPlace = false := by decide
  exact ⟨rfl, rfl, hq, _, rfl, matchesAt_eq_matchesTroop rfl rfl hq idle rfl picket ⟨0, 0⟩ idle⟩

/-- **A pattern that asks for coordinates tells where the troop really stands.**  The
picket passes as if it stood in the first column, and would not if it did. -/
theorem exists_matchesAt_ne_matchesTroop :
    ∃ f, ((build (.wrap "filter_wml" columnPattern) (some meadow) false).run.run idle).1 = .ok f ∧
      ((f.matchesAt meadow picket ⟨0, 0⟩).run idle).1 = true ∧
      ((f.matchesTroop meadow (picket.movedTo ⟨0, 0⟩)).run idle).1 = false :=
  ⟨_, rfl, by decide, by decide⟩

end Query
end Muster
