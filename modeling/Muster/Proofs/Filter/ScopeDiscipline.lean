/-
# The scope during a run

Bindings are pushed and popped all over a run, yet the scope tells exactly which
troops are under test.  At every call of the formula evaluator the scope is the
initial one with a binding for each troop at a valid location whose own tests are
in progress (`Call.Sees`), and in the end it is the initial one again.

Two things carry the induction.  A compiled filter asks its formulas only within
the own tests of the troop that they are about (`Filter.Binds`).  And a troop that
is asked about within the tests of another one stands on the map, hence at a
valid location; one at an invalid location is therefore asked about first
(`Free`).
-/

import Muster.Proofs.Filter.Verdict
import Muster.Proofs.Filter.Watch

namespace Muster

/-- The scope in which all of several troops are tested, the innermost first. -/
def Scope.underAll (sc : Scope) (nodes : List (Troop × Location)) : Scope :=
  nodes.foldr (fun n sc => sc.under n.1 n.2) sc

/-- A filter asks its formulas only within the own tests of a troop, and starts
those only once; `inside` says whether they have started. -/
def Filter.Binds : {s : Subject} → Filter s → (inside : Bool) → Prop
  | _, pass, _ => True
  | _, both f g, b => f.Binds b ∧ g.Binds b
  | _, joined _ f g, b => f.Binds b ∧ g.Binds b
  | _, troopTest _, _ => True
  | _, sideTest _, _ => True
  | _, placeTest _, _ => True
  | _, formula _, b => b = true
  | _, script _, _ => True
  | _, bound own, b => b = false ∧ own.Binds true
  | _, standing f, _ => f.Binds false
  | _, ofSide f, _ => f.Binds false
  | _, adjacent _ f, _ => f.Binds false
  | _, teamed f, _ => f.Binds false
  | _, enemyOf f, _ => f.Binds false
  | _, alliedWith f, _ => f.Binds false
  | _, hasTroop f, _ => f.Binds false
  | _, onMap f, _ => f.Binds false
  | _, occupied f, _ => f.Binds false

variable {σ : Type}

/-- A context whose plug-ins leave the scope as they found it. -/
structure Context.KeepsScope (ctx : Context σ) : Prop where
  formula : ∀ evaluate ∈ ctx.formula, ∀ text l t (s : Session σ),
    ((evaluate ctx.toBoard text l t).run s).2.scope = s.scope
  script : ∀ call ∈ ctx.script, ∀ name t (s : Session σ), ((call name t).run s).2.scope = s.scope

section Invariant

variable (start : Scope)

/-- A troop at the location may be asked about while the own tests of others are
in progress: there are none, or the location is valid. -/
def Free (nodes : List (Troop × Location)) (l : Location) : Prop := nodes = [] ∨ l.isValid = true

/-- A candidate that may be asked about: within its own tests these are the
innermost ones in progress. -/
def Ready (nodes : List (Troop × Location)) : (inside : Bool) → (s : Subject) → s.Candidate → Prop
  | true, .troop, (t, l) => ∃ outer, nodes = (t, l) :: outer ∧ Free outer l
  | false, .troop, (_, l) => Free nodes l
  | _, .side, _ => True
  | _, .place, _ => True

/-- A call sees the initial scope with a binding for each troop at a valid
location whose own tests are in progress; the innermost of these troops is the one
that the call is about. -/
def Call.Sees (c : Call) : Prop :=
  c.scope = start.underAll c.inProgress ∧
    ∃ outer, c.inProgress = (c.troop, c.location) :: outer ∧ Free outer c.location

/-- A watched computation that begins in the scope of the tests in progress leaves
the scope as it is, makes calls that see it, and has a result with a given property. -/
def Watched.Keeps {α : Type} (nodes : List (Troop × Location)) (Q : α → Prop) (w : Watched σ α) : Prop :=
  ∀ s : Session σ, s.scope = start.underAll nodes →
    ((w nodes).run s).2.scope = s.scope ∧ (∀ c ∈ ((w nodes).run s).1.2, c.Sees start) ∧
      Q ((w nodes).run s).1.1

end Invariant

namespace Watched.Keeps

variable {ctx : Context σ} {start : Scope} {nodes : List (Troop × Location)} {α β : Type}

/-- Giving something back calls nothing. -/
theorem pure {Q : α → Prop} {a : α} (h : Q a) : Keeps start nodes Q (Pure.pure a : Watched σ α) := fun _ _ =>
  ⟨rfl, fun _ hc => absurd hc List.not_mem_nil, h⟩

/-- **Two steps in turn** keep the scope if each of them does. -/
theorem bind {Q : α → Prop} {Q' : β → Prop} {w : Watched σ α} {f : α → Watched σ β}
    (hw : Keeps start nodes Q w) (hf : ∀ a, Q a → Keeps start nodes Q' (f a)) :
    Keeps start nodes Q' (w >>= f) := by
  intro s hs
  obtain ⟨hscope, hcalls, ha⟩ := hw s hs
  obtain ⟨hscope', hcalls', hb⟩ := hf _ ha _ (hscope.trans hs)
  rw [run_bind]
  refine ⟨hscope'.trans hscope, fun c hc => ?_, hb⟩
  exact (List.mem_append.1 hc).elim (hcalls c) (hcalls' c)

/-- Asking each of several candidates keeps the scope. -/
theorem select {p : α → Watched σ Bool} :
    ∀ {as : List α}, (∀ a ∈ as, Keeps start nodes (fun _ => True) (p a)) →
      Keeps start nodes (fun _ => True) (Run.select p as)
  | [], _ => pure trivial
  | a :: _, h => bind (h a (List.mem_cons_self ..)) fun _ _ =>
      bind (select fun b hb => h b (List.mem_cons_of_mem _ hb)) fun _ _ => pure trivial

/-- Asking several candidates until one passes keeps the scope. -/
theorem first? {p : α → Watched σ Bool} :
    ∀ {as : List α}, (∀ a ∈ as, Keeps start nodes (fun _ => True) (p a)) →
      Keeps start nodes (fun _ => True) (Run.first? p as)
  | [], _ => pure trivial
  | a :: _, h => by
    refine bind (h a (List.mem_cons_self ..)) fun b _ => ?_
    cases b with
    | false => exact first? fun c hc => h c (List.mem_cons_of_mem _ hc)
    | true => exact pure trivial

/-- A formula asked about the troop under test sees what it should. -/
theorem formula (hctx : ctx.KeepsScope) (text : String) {t : Troop} {l : Location}
    (h : Ready nodes true .troop (t, l)) :
    Keeps start nodes (fun _ => True) (ctx.watched.formula text l t) := by
  intro s hs
  simp only [Context.watched]
  cases he : ctx.formula with
  | none => exact ⟨rfl, fun _ hc => absurd hc List.not_mem_nil, trivial⟩
  | some evaluate =>
    refine ⟨hctx.formula evaluate he text l t s, fun c hc => ?_, trivial⟩
    obtain rfl := List.mem_singleton.1 hc
    exact ⟨hs, h⟩

/-- A script keeps the scope if the plug-in does. -/
theorem script (hctx : ctx.KeepsScope) (name : String) (t : Troop) :
    Keeps start nodes (fun _ => True) (ctx.watched.script name t) := by
  intro s _
  refine ⟨?_, fun _ hc => absurd hc List.not_mem_nil, trivial⟩
  change ((ctx.setting.script name t).run s).2.scope = s.scope
  simp only [Context.setting]
  cases he : ctx.script with
  | none => rfl
  | some call => exact hctx.script call he name t s

/-- The own tests of a troop are asked in one more binding, which is gone afterwards. -/
theorem testing {t : Troop} {l : Location} {own : Watched σ Bool}
    (h : Keeps start ((t, l) :: nodes) (fun _ => True) own) :
    Keeps start nodes (fun _ => True) (ctx.watched.testing t l own) := by
  intro s hs
  simp only [Context.watched]
  have hunder : start.underAll ((t, l) :: nodes) = (start.underAll nodes).under t l := rfl
  by_cases hl : l.isValid = true
  · have hpush : s.scope.push ⟨Scope.thisUnit, t.id, l⟩ = start.underAll ((t, l) :: nodes) := by
      rw [hunder, Scope.under, if_pos hl, hs]
    obtain ⟨hscope, hcalls, -⟩ := h { s with scope := s.scope.push ⟨Scope.thisUnit, t.id, l⟩ } hpush
    rw [if_pos hl, Run.run_withThisUnit]
    exact ⟨congrArg Scope.pop hscope, hcalls, trivial⟩
  · rw [if_neg hl]
    exact h s (by rw [hunder, Scope.under, if_neg hl, hs])

end Watched.Keeps

/-- **Asking keeps the discipline.** -/
theorem Filter.ask_keeps {ctx : Context σ} (hctx : ctx.KeepsScope) (hroster : ctx.roster.Reachable) (start : Scope) :
    ∀ {s : Subject} (f : Filter s) (b : Bool) (_ : f.Binds b) (x : s.Candidate)
      (nodes : List (Troop × Location)) (_ : Ready nodes b s x),
      Watched.Keeps start nodes (fun _ => True) (f.ask ctx.watched x)
  | _, .pass, _, _, _, _, _ => .pure trivial
  | _, .both f g, b, hf, x, nodes, hx => by
    refine .bind (ask_keeps hctx hroster start f b hf.1 x nodes hx) fun v _ => ?_
    cases v with
    | false => exact .pure trivial
    | true => exact ask_keeps hctx hroster start g b hf.2 x nodes hx
  | _, .joined _ f g, b, hf, x, nodes, hx =>
    .bind (ask_keeps hctx hroster start f b hf.1 x nodes hx) fun _ _ =>
      .bind (ask_keeps hctx hroster start g b hf.2 x nodes hx) fun _ _ => .pure trivial
  | _, .troopTest _, _, _, (_, _), _, _ => .pure trivial
  | _, .sideTest _, _, _, _, _, _ => .pure trivial
  | _, .placeTest _, _, _, _, _, _ => .pure trivial
  | _, .formula text, b, hf, (_, _), _, hx => by
    obtain rfl : b = true := hf
    exact .formula hctx text hx
  | _, .script name, _, _, (t, _), _, _ => .script hctx name t
  | _, .bound own, b, hf, (t, l), nodes, hx => by
    obtain ⟨rfl, hown⟩ := hf
    exact .testing (ask_keeps hctx hroster start own true hown (t, l) _ ⟨nodes, rfl, hx⟩)
  | _, .standing f, _, hf, (_, l), nodes, _ => ask_keeps hctx hroster start f false hf l nodes trivial
  | _, .ofSide f, _, hf, (t, _), nodes, _ => ask_keeps hctx hroster start f false hf t.side nodes trivial
  | _, .adjacent _ f, _, hf, (_, l), nodes, _ => by
    refine .bind (.select fun n hn => ?_) fun _ _ => .pure trivial
    refine ask_keeps hctx hroster start f false hf (n, n.location) nodes ?_
    obtain ⟨d, -, hd⟩ := List.mem_filterMap.1 hn
    exact .inr (hroster.isValid n (Roster.mem_of_at? hd))
  | _, .teamed f, _, hf, side, nodes, _ => by
    simp only [Filter.ask]
    split
    · exact ask_keeps hctx hroster start f false hf side nodes trivial
    · exact .pure trivial
  | _, .enemyOf f, _, hf, _, nodes, _ =>
    .bind (.select fun other _ => ask_keeps hctx hroster start f false hf other nodes trivial) fun _ _ => .pure trivial
  | _, .alliedWith f, _, hf, _, nodes, _ =>
    .bind (.select fun other _ => ask_keeps hctx hroster start f false hf other nodes trivial) fun _ _ => .pure trivial
  | _, .hasTroop f, _, hf, _, nodes, _ =>
    .bind (.first? fun t ht => ask_keeps hctx hroster start f false hf (t, t.location) nodes
      (.inr (hroster.isValid t (List.mem_filter.1 ht).1))) fun _ _ => .pure trivial
  | _, .onMap f, _, hf, l, nodes, _ => by
    simp only [Filter.ask]
    split
    · exact ask_keeps hctx hroster start f false hf l nodes trivial
    · exact .pure trivial
  | _, .occupied f, _, hf, l, nodes, _ => by
    simp only [Filter.ask]
    split
    · next t ht =>
      exact ask_keeps hctx hroster start f false hf (t, t.location) nodes
        (.inr (hroster.isValid t (Roster.mem_of_at? ht)))
    · exact .pure trivial

/-- **Selecting sides keeps the discipline.** -/
theorem Filter.sidesIn_keeps {ctx : Context σ} (hctx : ctx.KeepsScope) (hroster : ctx.roster.Reachable)
    (start : Scope) {f : Filter .side} (hf : f.Binds false) (nodes : List (Troop × Location)) :
    Watched.Keeps start nodes (fun _ => True) (f.sidesIn ctx.watched) :=
  .bind (.select fun other _ => f.ask_keeps hctx hroster start false hf other nodes trivial) fun _ _ => .pure trivial

/-! ### What compiling gives -/

/-- A compiled child asks its formulas within the own tests of a troop. -/
def Clause.Binds {s : Subject} : Clause s → Prop
  | .conditional _ f => f.Binds false
  | .own _ f => ∀ b, f.Binds b

namespace Query

variable {s : Subject}

/-- A conjunction binds as its parts do. -/
theorem binds_all {b : Bool} : ∀ {fs : List (Filter s)}, (∀ f ∈ fs, f.Binds b) → (Filter.all fs).Binds b
  | [], _ => trivial
  | f :: _, h => ⟨h f (List.mem_cons_self ..), binds_all fun g hg => h g (List.mem_cons_of_mem _ hg)⟩

/-- Conditionals bind for themselves. -/
theorem binds_joinConditionals {f : Filter s} (hf : f.Binds false) {cs : List (Clause s)} (hcs : ∀ c ∈ cs, c.Binds) :
    (Clause.joinConditionals f cs).Binds false := by
  induction cs generalizing f with
  | nil => exact hf
  | cons c cs ih =>
    have hc := hcs c (List.mem_cons_self ..)
    have hrest : ∀ d ∈ cs, d.Binds := fun d hd => hcs d (List.mem_cons_of_mem _ hd)
    cases c with
    | conditional c g => exact ih ⟨hf, hc⟩ hrest
    | own slot g => exact ih hf hrest

/-- What is in a slot binds as its clauses do. -/
theorem binds_inSlot {slot : Slot} {cs : List (Clause s)} (hcs : ∀ c ∈ cs, c.Binds) (b : Bool) :
    ∀ f ∈ Clause.inSlot slot cs, f.Binds b := by
  intro f hf
  obtain ⟨c, hc, hcf⟩ := List.mem_filterMap.1 hf
  cases c with
  | conditional => simp at hcf
  | own slot' g =>
    simp only [Option.ite_none_right_eq_some, Option.some.injEq] at hcf
    exact hcf.2 ▸ hcs _ hc b

/-- What is last in a slot binds as its clauses do. -/
theorem binds_lastInSlot {slot : Slot} {cs : List (Clause s)} (hcs : ∀ c ∈ cs, c.Binds) (b : Bool) :
    ∀ f ∈ Clause.lastInSlot slot cs, f.Binds b := fun f hf =>
  binds_inSlot hcs b f (List.mem_of_getLast? (Option.mem_toList.1 hf))

/-- The own tests of a troop may ask formulas, those of a side or a place do not. -/
theorem binds_ownTests (flat : Bool) (get : String → Value) {cs : List (Clause s)} (hcs : ∀ c ∈ cs, c.Binds) :
    ∀ f ∈ ownTests flat get s cs, f.Binds (s = .troop) := by
  cases s with
  | troop =>
    simp only [ownTests, lookupTests, List.forall_mem_append, List.forall_mem_map]
    have hlookups : ∀ {v : Value} {test : String → Filter .troop}, (∀ text, (test text).Binds true) →
        ∀ f ∈ textTest v test, f.Binds true := by
      intro v test htest f hf
      obtain ⟨a, -, rfl⟩ := Option.map_eq_some_iff.1 (Option.mem_toList.1 hf)
      exact htest _
    exact ⟨⟨⟨⟨⟨⟨⟨fun _ _ => trivial, binds_inSlot hcs _⟩, binds_inSlot hcs _⟩, fun _ _ => trivial⟩,
      binds_inSlot hcs _⟩, binds_inSlot hcs _⟩, binds_inSlot hcs _⟩,
      ⟨hlookups fun _ => trivial, hlookups fun _ => rfl⟩, hlookups fun _ => trivial⟩
  | side =>
    simp only [ownTests, List.forall_mem_append, List.forall_mem_map]
    exact ⟨⟨⟨fun _ _ => trivial, binds_lastInSlot hcs _⟩, binds_lastInSlot hcs _⟩, binds_lastInSlot hcs _⟩
  | place =>
    simp only [ownTests, List.forall_mem_append, List.forall_mem_map]
    exact ⟨fun _ _ => trivial, binds_inSlot hcs _⟩

/-- **A compiled query asks its formulas within the own tests of a troop.** -/
theorem binds_assemble (flat : Bool) (get : String → Value) {cs : List (Clause s)} (hcs : ∀ c ∈ cs, c.Binds) :
    (assemble flat get s cs).Binds false := by
  have hown := binds_all (binds_ownTests flat get hcs)
  cases s with
  | troop =>
    have hbound : (Filter.bound (Filter.all (ownTests flat get .troop cs))).Binds false := by
      rw [Filter.Binds]
      exact ⟨rfl, hown⟩
    exact binds_joinConditionals hbound hcs
  | side => exact binds_joinConditionals hown hcs
  | place => exact binds_joinConditionals hown hcs

end Query

/-- A child that is no query asks no formula. -/
theorem TagMeaning.binds_of_pattern {s : Subject} {tag : String} {test : Config → Filter s}
    (h : TagMeaning.ofTag s tag = .pattern test) (child : Config) (b : Bool) : (test child).Binds b := by
  unfold TagMeaning.ofTag TagMeaning.ofOwnTag at h
  split at h
  · cases h
  · split at h <;> cases h
    exact trivial

/-- A property of a result, if there is one. -/
def Outcome {ε α : Type} (Q : α → Prop) : Except ε α → Prop
  | .ok a => Q a
  | .error _ => True

namespace Watched.Keeps

variable {ctx : Context σ} {start : Scope} {nodes : List (Troop × Location)} {ε α β : Type}

/-- Two steps in turn, each of which may fail, keep the scope. -/
theorem bindExcept {Q : α → Prop} {Q' : β → Prop} {x : ExceptT ε (Watched σ) α} {f : α → ExceptT ε (Watched σ) β}
    (hx : Keeps start nodes (Outcome Q) x.run) (hf : ∀ a, Q a → Keeps start nodes (Outcome Q') (f a).run) :
    Keeps start nodes (Outcome Q') (x >>= f).run := by
  refine bind hx fun r hr => ?_
  cases r with
  | ok a => exact hf a hr
  | error e => exact pure trivial

/-- Making a clause keeps the scope; only a vision clause asks anything. -/
theorem ofPart (hctx : ctx.KeepsScope) (hroster : ctx.roster.Reachable) (get : String → Value) :
    ∀ {s inner : Subject} (p : Part s inner) {f : Filter inner} (_ : f.Binds false),
      Keeps start nodes Clause.Binds (Clause.ofPart ctx.watched get p f)
  | _, _, .vision, _, hf => bind (Filter.sidesIn_keeps hctx hroster start hf nodes) fun _ _ => pure fun _ => trivial
  | _, _, .conditional _, _, hf => pure hf
  | _, _, .location, _, hf => pure fun _ => hf
  | _, _, .side, _, hf => pure fun _ => hf
  | _, _, .adjacent, _, hf => pure fun _ => hf
  | _, _, .enemyOf, _, hf => pure fun _ => hf
  | _, _, .alliedWith, _, hf => pure fun _ => hf
  | _, _, .hasTroop, _, hf => pure fun _ => hf
  | _, _, .occupant, _, hf => pure fun _ => hf

end Watched.Keeps

namespace Query

variable {ctx : Context σ}

mutual

/-- **Compiling keeps the discipline,** and gives a filter that does. -/
theorem compileIn_keeps (hctx : ctx.KeepsScope) (hroster : ctx.roster.Reachable) (start : Scope)
    (nodes : List (Troop × Location)) (flat : Bool) (s : Subject) : ∀ q : Config,
      Watched.Keeps start nodes (Outcome fun f => f.Binds false) (compileIn ctx.watched flat s q).run
  | .node as cs => by
    simp only [compileIn]
    split
    · exact .pure trivial
    · exact .bindExcept (compileChildren_keeps hctx hroster start nodes flat s [] cs) fun cl hcl =>
        .pure (binds_assemble flat as.get? hcl)

/-- **Compiling the children** of a query keeps the scope and makes clauses that bind. -/
theorem compileChildren_keeps (hctx : ctx.KeepsScope) (hroster : ctx.roster.Reachable) (start : Scope)
    (nodes : List (Troop × Location)) (flat : Bool) (s : Subject) (seen : List Slot) : ∀ cs : List (String × Config),
      Watched.Keeps start nodes (Outcome fun cl => ∀ c ∈ cl, c.Binds)
        (compileChildren ctx.watched flat s seen cs).run
  | [] => .pure fun _ hc => absurd hc List.not_mem_nil
  | (tag, child) :: rest => by
    simp only [compileChildren]
    split
    · exact compileChildren_keeps hctx hroster start nodes flat s seen rest
    · next test hm =>
      refine .bindExcept (compileChildren_keeps hctx hroster start nodes flat s seen rest) fun cl hcl => .pure ?_
      exact List.forall_mem_cons.2 ⟨TagMeaning.binds_of_pattern hm child, hcl⟩
    · next inner p _ =>
      refine .bindExcept (Q := fun _ => True) ?_ fun seen' _ => ?_
      · cases checkOnce seen p <;> exact .pure trivial
      refine .bindExcept (compileIn_keeps hctx hroster start nodes flat inner child) fun f hf => ?_
      refine .bindExcept (Q := Clause.Binds) ?_ fun c hc => ?_
      · exact .bind (.ofPart hctx hroster child.get p hf) fun c hc => .pure hc
      exact .bindExcept (compileChildren_keeps hctx hroster start nodes flat s seen' rest) fun cl hcl =>
        .pure (List.forall_mem_cons.2 ⟨hc, hcl⟩)

end

end Query

/-! ### What a call sees -/

/-- Binding a troop makes the scope one deeper, if the location is valid. -/
theorem Scope.depth_under (sc : Scope) (t : Troop) (l : Location) :
    (sc.under t l).depth = sc.depth + if l.isValid then 1 else 0 := by
  rw [Scope.under]
  split <;> rfl

/-- The scope is as much deeper as there are troops at valid locations. -/
theorem Scope.depth_underAll (sc : Scope) (nodes : List (Troop × Location)) :
    (sc.underAll nodes).depth = sc.depth + nodes.countP fun n => n.2.isValid := by
  induction nodes with
  | nil => rfl
  | cons n nodes ih =>
    change ((sc.underAll nodes).under n.1 n.2).depth = _
    rw [Scope.depth_under, ih, List.countP_cons, Nat.add_assoc]

/-- What holds of a call when the scope was `start` at first: the troop that it is
about is the one whose own tests began last; at a valid location this troop is the
innermost `this_unit`, at an invalid one the scope is as it was at first; and the
depth counts the troops at valid locations whose own tests are in progress. -/
structure Call.Disciplined (start : Scope) (c : Call) : Prop where
  innermost : c.inProgress.head? = some (c.troop, c.location)
  bound : c.location.isValid = true →
    c.scope.current? Scope.thisUnit = some ⟨Scope.thisUnit, c.troop.id, c.location⟩
  unbound : c.location.isValid = false → c.scope = start
  depth : c.scope.depth = start.depth + c.inProgress.countP fun n => n.2.isValid

/-- A call that sees the troops under test sees a disciplined scope. -/
theorem Call.Sees.disciplined {start : Scope} {c : Call} (h : c.Sees start) : c.Disciplined start := by
  obtain ⟨hscope, outer, hprogress, hfree⟩ := h
  have hunder : c.scope = (start.underAll outer).under c.troop c.location := by rw [hscope, hprogress]; rfl
  refine ⟨by rw [hprogress]; rfl, fun hl => ?_, fun hl => ?_, ?_⟩
  · rw [hunder, Scope.under, if_pos hl, Scope.current?_push, if_pos rfl]
  · have houter : outer = [] := hfree.resolve_right (by simp [hl])
    rw [hunder, Scope.under, if_neg (by simp [hl]), houter]
    rfl
  · rw [hscope, Scope.depth_underAll]

namespace Query

/-- **The discipline of the scope.**  Where the plug-ins leave the scope as they
found it, compiling a query and asking its filter of any candidate leave it as it
was, whatever comes out, and every call of the formula evaluator on the way, also
one made while compiling, is disciplined.  The calls are those of the watched run,
which apart from recording them is the run. -/
theorem scope_discipline {ctx : Context σ} (hctx : ctx.KeepsScope) (hroster : ctx.roster.Reachable) (flat : Bool)
    (s : Subject) (q : Config) (start : Session σ) :
    let made := ((compileIn ctx.watched flat s q).run []).run start
    (made.1.1, made.2) = (compile ctx flat s q).run.run start ∧ made.2.scope = start.scope ∧
      (∀ c ∈ made.1.2, c.Disciplined start.scope) ∧
      ∀ f, made.1.1 = .ok f → ∀ (x : s.Candidate) (asked : Session σ),
        let answer := (f.ask ctx.watched x []).run asked
        (answer.1.1, answer.2) = (f.run ctx x).run asked ∧ answer.2.scope = asked.scope ∧
          ∀ c ∈ answer.1.2, c.Disciplined asked.scope := by
  intro made
  obtain ⟨hscope, hcalls, hbinds⟩ := compileIn_keeps hctx hroster start.scope [] flat s q start rfl
  refine ⟨compileIn_watched ctx flat s q [] start, hscope, fun c hc => (hcalls c hc).disciplined, ?_⟩
  intro f hf x asked answer
  rw [hf] at hbinds
  have hready : Ready [] false s x := by
    cases s with
    | troop => exact .inl rfl
    | side => exact trivial
    | place => exact trivial
  obtain ⟨hscope', hcalls', -⟩ := f.ask_keeps hctx hroster asked.scope false hbinds x [] hready asked rfl
  exact ⟨f.ask_watched ctx x [] asked, hscope', fun c hc => (hcalls' c hc).disciplined⟩

/-- A troop on the map. -/
def sentry : Troop := { id := "sentry", type := "Pikeman", location := ⟨1, 0⟩ }

/-- A map with one troop, and an evaluator that counts its calls and says yes. -/
def sentryContext : Context Nat where
  map := Grid.filled 3 3 "Gg"
  roster := ⟨[sentry], Table.empty.insert ⟨1, 0⟩ 0⟩
  formula := some fun _ _ _ _ => do
    modify fun s => { s with host := s.host + 1 }
    return true

/-- The plug-ins of the sentries leave the scope alone. -/
theorem sentryContext_keepsScope : sentryContext.KeepsScope where
  formula evaluate he text l t s := by
    obtain rfl := Option.some.inj he
    rfl
  script call hc := by simp [sentryContext] at hc

/-- A formula. -/
def formulaQuery : Config := .node (Table.ofList [("formula", .str "ours")]) []

/-- A formula asked about a troop, about a neighbour within its own tests, and once more after them. -/
def nestedQuery : Config :=
  .node (Table.ofList [("formula", .str "ours")]) [("filter_adjacent", formulaQuery), ("and", formulaQuery)]

/-- The hypotheses of `scope_discipline` are met by `nestedQuery`: the neighbour is
asked about first, in two bindings, and the troop then twice, in one. -/
theorem scope_discipline_nestedQuery :
    sentryContext.KeepsScope ∧ sentryContext.roster.Reachable ∧
      ∃ f, (((compileIn sentryContext.watched false .troop nestedQuery).run []).run ⟨.empty, 0⟩).1.1 = .ok f ∧
        let answer := (f.ask sentryContext.watched (sentry, ⟨1, 1⟩) []).run ⟨.empty, 0⟩
        answer.2.scope = .empty ∧ (∀ c ∈ answer.1.2, c.Disciplined .empty) ∧
          answer.1.2.map (·.scope.depth) = [2, 1, 1] := by
  have hroster : sentryContext.roster.Reachable := .insert .empty (t := sentry) rfl
  obtain ⟨-, -, -, hask⟩ := scope_discipline sentryContext_keepsScope hroster false .troop nestedQuery ⟨.empty, 0⟩
  obtain ⟨-, hscope, hcalls⟩ := hask _ rfl (sentry, ⟨1, 1⟩) ⟨.empty, 0⟩
  exact ⟨sentryContext_keepsScope, hroster, _, rfl, hscope, hcalls, rfl⟩

end Query
end Muster
