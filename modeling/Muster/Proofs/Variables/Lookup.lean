/-
# Looking variables up

A path leads through the store step by step: each step but the last goes to the child of
its name at its position, the first where it has none, and the last step names what is
looked up there.  As an array, that is the children of its name, or the one at its
position; as a scalar, the attribute of its name.

So paths compose (`Variables.lookup_join`): what stands behind a dot is looked up in the
first item of the array before the dot, and a position behind a path picks that item of
its array.

A lookup that fails says why (`Variables.lookup_errors`):

| error | array | scalar |
| --- | --- | --- |
| `invalidName` | the text is no path | the text is no path |
| `notAContainer` | a scalar is there, and no child of the name | never |
| `notFound` | in every other case | in every other case |
-/

import Muster.Proofs.Variables.Paths

namespace Muster

/-- The same error about another path. -/
def VariableError.about (path : String) : VariableError → VariableError
  | invalidName _ => invalidName path
  | notFound _ => notFound path
  | notAContainer _ => notAContainer path

namespace Path

/-- One path behind another. -/
def join (p q : String) : String := p ++ "." ++ q

/-- The path of an item of an array. -/
def item (p : String) (n : Nat) : String := p ++ "[" ++ String.ofList (Text.Numerals.write n) ++ "]"

/-- The characters of two paths with a dot between them. -/
theorem toList_join (p q : String) : (join p q).toList = p.toList ++ '.' :: q.toList := by
  simp [join]

/-- The characters of a path with a position behind it. -/
theorem toList_item (p : String) (n : Nat) :
    (item p n).toList = p.toList ++ '[' :: (Nat.toDigits 10 n ++ [']']) := by
  simp [item, Text.Numerals.write]

/-- A dot joins two paths to a path, and nothing else to one. -/
theorem isPath_join {p q : String} : IsPath (join p q) ↔ IsPath p ∧ IsPath q := by
  simp only [IsPath, toList_join, written_dot_iff]
  constructor
  · rintro ⟨_, xs, ys, hxs, hys, -⟩
    exact ⟨⟨xs, hxs⟩, ys, hys⟩
  · rintro ⟨⟨xs, hxs⟩, ys, hys⟩
    exact ⟨xs ++ ys, xs, ys, hxs, hys, rfl⟩

/-- A number below 2⁶⁴ is written as a position by its digits. -/
theorem isPosition_toDigits {n : Nat} (h : n < 0x10000000000000000) : PathStep.IsPosition (Nat.toDigits 10 n) n := by
  have hadmits : Text.Numerals.index.admits (n : Int) = true := by
    rw [Text.Numerals.admits_iff]
    simp only [Text.Numerals.index]
    omega
  exact .plain (PathStep.isNumeral_iff.2 ⟨Text.Numerals.magnitude?_toDigits n, hadmits⟩)

end Path

namespace Variables

/-! ### The way to the container -/

/-- The way along two lists of steps, one after the other. -/
theorem descend?_append (node : Config) (xs ys : List PathStep) :
    descend? node (xs ++ ys) = (descend? node xs).bind fun node => descend? node ys := List.foldlM_append

/-- A step on the way leads to the first item of its array. -/
theorem child?_eq_head? (node : Config) (step : PathStep) : child? node step = (arrayAt node step).head? := by
  obtain ⟨name, position⟩ := step
  cases position with
  | none => rw [child?, arrayAt, Option.getD_none, List.head?_eq_getElem?]
  | some n =>
    rw [arrayAt]
    cases child? node ⟨name, some n⟩ <;> rfl

section Locate

variable (v : Variables) {path : String} {container : List PathStep} {last : PathStep}

/-- **The container of a path** is where all steps but the last lead. -/
theorem locate_of_written (h : Path.Written path.toList (container ++ [last])) :
    v.locate path =
      (descend? v.root container).elim (.error (.notFound path)) fun node => .ok (node, last) := by
  have hread : Path.read? path = some ⟨container, last⟩ := Path.read?_eq_some_iff.2 h
  simp only [locate, hread]
  cases descend? v.root container <;> rfl

/-- A text that is no path leads nowhere, whatever the store holds. -/
theorem locate_of_not_isPath (h : ¬ Path.IsPath path) : v.locate path = .error (.invalidName path) := by
  have hread : Path.read? path = none := by
    rw [Option.eq_none_iff_forall_ne_some]
    exact fun p hp => h (Path.isPath_iff.2 ⟨p, hp⟩)
  rw [locate, hread]

end Locate

/-! ### The end of the way -/

/-- What the last step of a path gives as an array. -/
def arrayEnd (path : String) (node : Config) (step : PathStep) : Except VariableError (List Config) :=
  if !(arrayAt node step).isEmpty then .ok (arrayAt node step)
  else if (scalarAt? node step).isSome then .error (.notAContainer path)
  else .error (.notFound path)

/-- What the last step of a path gives as a scalar. -/
def scalarEnd (path : String) (node : Config) (step : PathStep) : Except VariableError Scalar :=
  (scalarAt? node step).elim (.error (.notFound path)) .ok

/-- An array is looked up in two parts: the container, and the last step there. -/
theorem array_eq (v : Variables) (path : String) :
    v.array path = (v.locate path).bind fun place => arrayEnd path place.1 place.2 := rfl

/-- A scalar is looked up in the same two parts. -/
theorem scalar_eq (v : Variables) (path : String) :
    v.scalar path = (v.locate path).bind fun place => scalarEnd path place.1 place.2 := by
  cases hplace : v.locate path with
  | error => simp only [scalar, hplace]; rfl
  | ok place =>
    obtain ⟨node, step⟩ := place
    change v.scalar path = scalarEnd path node step
    cases hscalar : scalarAt? node step <;> simp only [scalar, hplace, scalarEnd, bind, Except.bind, hscalar] <;> rfl

/-- The last step of an array lookup puts the path into its errors, and uses it for nothing else. -/
theorem about_arrayEnd (path path' : String) (node : Config) (step : PathStep) :
    (arrayEnd path node step).mapError (.about path') = arrayEnd path' node step := by
  rw [arrayEnd, arrayEnd]
  split
  · rfl
  · split <;> rfl

/-- The last step of a scalar lookup uses the path for its errors only, too. -/
theorem about_scalarEnd (path path' : String) (node : Config) (step : PathStep) :
    (scalarEnd path node step).mapError (.about path') = scalarEnd path' node step := by
  rw [scalarEnd, scalarEnd]
  cases scalarAt? node step <;> rfl

/-- With a position the last step gives one item, and has no complaint of a scalar. -/
theorem arrayEnd_position (path : String) (node : Config) (name : String) (n : Nat) :
    arrayEnd path node ⟨name, some n⟩ =
      ((node.childrenAt name)[n]?).elim (.error (.notFound path)) fun item => .ok [item] := by
  rw [arrayEnd, arrayAt, child?, Option.getD_some]
  cases (node.childrenAt name)[n]? <;> rfl

/-- **A scalar is complained of** where the step has no position and no child its name. -/
theorem arrayEnd_eq_notAContainer_iff {path : String} {node : Config} {step : PathStep} :
    arrayEnd path node step = .error (.notAContainer path) ↔
      step.position = none ∧ node.childrenAt step.name = [] ∧ ∃ a, scalarEnd path node step = .ok a := by
  obtain ⟨name, position⟩ := step
  cases position with
  | some n =>
    rw [arrayEnd_position]
    cases (node.childrenAt name)[n]? <;> simp
  | none =>
    rw [arrayEnd, scalarEnd, arrayAt]
    cases node.childrenAt name with
    | cons first rest => simp
    | nil => cases scalarAt? node ⟨name, none⟩ <;> simp

/-- An array lookup fails in two ways once it has come to the container. -/
theorem arrayEnd_error {path : String} {node : Config} {step : PathStep} {e : VariableError}
    (h : arrayEnd path node step = .error e) : e = .notAContainer path ∨ e = .notFound path := by
  rw [arrayEnd] at h
  split at h
  · cases h
  · split at h
    · exact .inl (Except.error.inj h).symm
    · exact .inr (Except.error.inj h).symm

/-- A scalar lookup fails in one way there: nothing was found. -/
theorem scalarEnd_error {path : String} {node : Config} {step : PathStep} {e : VariableError}
    (h : scalarEnd path node step = .error e) : e = .notFound path := by
  rw [scalarEnd] at h
  cases hscalar : scalarAt? node step with
  | none =>
    rw [hscalar] at h
    exact (Except.error.inj h).symm
  | some a =>
    rw [hscalar] at h
    cases h

/-- The last step gives no empty array. -/
theorem arrayEnd_ne_nil (path : String) (node : Config) (step : PathStep) : arrayEnd path node step ≠ .ok [] := by
  rw [arrayEnd]
  split
  · next hitems =>
    intro h
    rw [Except.ok.inj h] at hitems
    cases hitems
  · split <;> exact nofun

/-! ### Paths behind paths -/

/-- The first item of an array that was looked up. -/
def first? : Except VariableError (List Config) → Option Config
  | .ok items => items.head?
  | .error _ => none

/-- The item of an array at a position, as an array of its own. -/
def pick (path : String) (n : Nat) : Except VariableError (List Config) → Except VariableError (List Config)
  | .ok items => (items[n]?).elim (.error (.notFound path)) fun item => .ok [item]
  | .error _ => .error (.notFound path)

/-- What is looked up at `q` behind `p`: the same as at `q` in a store of its own, made of the
first item of the array at `p`. -/
def behind {α : Type} (look : Variables → String → Except VariableError α) (v : Variables) (p q : String) :
    Except VariableError α :=
  if Path.IsPath p ∧ Path.IsPath q then
    (first? (v.array p)).elim (.error (.notFound (Path.join p q))) fun first =>
      (look ⟨first⟩ q).mapError (.about (Path.join p q))
  else .error (.invalidName (Path.join p q))

/-- The first item of the array at a step is where the step leads on the way. -/
theorem first?_arrayEnd (path : String) (node : Config) (step : PathStep) :
    first? (arrayEnd path node step) = child? node step := by
  rw [child?_eq_head?, arrayEnd]
  cases arrayAt node step with
  | nil => cases (scalarAt? node step).isSome <;> rfl
  | cons first rest => rfl

/-- **The steps of a path lead to the first item of its array.** -/
theorem descend?_eq_first? (v : Variables) {p : String} {steps : List PathStep} (h : Path.Written p.toList steps) :
    descend? v.root steps = first? (v.array p) := by
  obtain ⟨⟨container, last⟩, rfl⟩ := Path.exists_steps h.ne_nil
  rw [array_eq, locate_of_written v h, Path.steps, descend?_append]
  cases descend? v.root container with
  | none => rfl
  | some node =>
    have hlast : descend? node [last] = child? node last := bind_pure (child? node last)
    exact hlast.trans (first?_arrayEnd p node last).symm

/-- **Behind a dot a lookup starts over.** -/
theorem lookup_eq_behind {α : Type} {look : Variables → String → Except VariableError α}
    {finish : String → Config → PathStep → Except VariableError α}
    (hlook : ∀ v path, look v path = (v.locate path).bind fun place => finish path place.1 place.2)
    (habout : ∀ path path' node step, (finish path node step).mapError (.about path') = finish path' node step)
    (v : Variables) (p q : String) : look v (Path.join p q) = behind look v p q := by
  rw [hlook, behind]
  split
  · next hpaths =>
    obtain ⟨⟨xs, hxs⟩, ys, hys⟩ := hpaths
    obtain ⟨⟨container, last⟩, rfl⟩ := Path.exists_steps hys.ne_nil
    have hjoin : Path.Written (Path.join p q).toList ((xs ++ container) ++ [last]) := by
      rw [Path.toList_join, List.append_assoc]
      exact Path.written_dot_iff.2 ⟨xs, _, hxs, hys, rfl⟩
    rw [locate_of_written v hjoin, descend?_append, descend?_eq_first? v hxs]
    cases first? (v.array p) with
    | none => rfl
    | some first =>
      rw [Option.elim_some, hlook, locate_of_written ⟨first⟩ hys, Option.bind_some]
      cases descend? first container with
      | none => rfl
      | some node => exact (habout _ _ _ _).symm
  · next hpaths =>
    rw [locate_of_not_isPath v (mt Path.isPath_join.1 hpaths)]
    rfl

/-- A position behind a path picks an item of its array, where the last step has none so far. -/
theorem array_item (v : Variables) {p : String} {container : List PathStep} {name : String} {n : Nat}
    (h : Path.Written p.toList (container ++ [⟨name, none⟩])) (hn : n < 0x10000000000000000) :
    v.array (Path.item p n) = pick (Path.item p n) n (v.array p) := by
  have hitem : Path.Written (Path.item p n).toList (container ++ [⟨name, some n⟩]) := by
    rw [Path.toList_item]
    exact h.item (Path.isPosition_toDigits hn)
  rw [array_eq, array_eq, locate_of_written v hitem, locate_of_written v h]
  cases descend? v.root container with
  | none => rfl
  | some node =>
    change arrayEnd (Path.item p n) node ⟨name, some n⟩ = pick (Path.item p n) n (arrayEnd p node ⟨name, none⟩)
    rw [arrayEnd_position, arrayEnd, arrayAt]
    cases node.childrenAt name with
    | nil => cases (scalarAt? node ⟨name, none⟩).isSome <;> rfl
    | cons first rest => rfl

/-- **No array that is looked up is empty.** -/
theorem array_ne_nil (v : Variables) (p : String) : v.array p ≠ .ok [] := by
  rw [array_eq]
  cases v.locate p with
  | error e => exact nofun
  | ok place => exact arrayEnd_ne_nil p place.1 place.2

/-- **Paths compose.**  In every store, and for all texts `p` and `q`, looking up `q` behind a
dot behind `p` gives, as an array and as a scalar, what looking up `q` gives in a store made
of the first item of the array at `p`, an error being about the whole path.  Where there is
no such item nothing is found, and where `p` or `q` is no path by itself, neither is the whole.

A position behind a path whose last step has none picks that item of the array at the path.
No array that is found is empty. -/
theorem lookup_join (v : Variables) (p q : String) :
    v.array (Path.join p q) = behind array v p q ∧
    v.scalar (Path.join p q) = behind scalar v p q ∧
    (∀ container name, Path.Written p.toList (container ++ [⟨name, none⟩]) → ∀ n < 0x10000000000000000,
      v.array (Path.item p n) = pick (Path.item p n) n (v.array p)) ∧
    v.array p ≠ .ok [] :=
  ⟨lookup_eq_behind array_eq about_arrayEnd v p q, lookup_eq_behind scalar_eq about_scalarEnd v p q,
    fun _ _ h _ hn => v.array_item h hn, v.array_ne_nil p⟩

/-- A member of a party. -/
def member (id : String) : Config := .ofAttributes [("id", .str id)]

/-- A store with a number and a party of two. -/
def camp : Variables where
  root := .node (Table.ofList [("turns", .int 7)])
    [("party", .node Table.empty [("members", member "Kalenz"), ("members", member "Delfador")])]

/-- What `lookup_join` says of the members of the party. -/
theorem lookup_join_camp :
    Path.Written "party.members".toList ([⟨"party", none⟩] ++ [⟨"members", none⟩]) ∧ 1 < 0x10000000000000000 ∧
      camp.array "party.members[1]" = .ok [member "Delfador"] ∧
      camp.scalar "party.members.id" = .ok (.str "Kalenz") ∧
      camp.array "party.members.id" = .error (.notAContainer "party.members.id") := by
  have hwritten : Path.Written "party.members".toList ([⟨"party", none⟩] ++ [⟨"members", none⟩]) :=
    Path.readSteps?_eq_some_iff.1 (by decide)
  have hn : 1 < 0x10000000000000000 := by decide
  obtain ⟨harray, hscalar, hitem, -⟩ := camp.lookup_join "party.members" "id"
  exact ⟨hwritten, hn, (hitem _ _ hwritten 1 hn).trans rfl, hscalar.trans rfl, harray.trans rfl⟩

/-! ### Errors -/

/-- **Why a lookup fails.**  A text that is no path is an invalid name for both lookups, and
for a path neither complains about its name.  An array lookup complains of a scalar exactly
where the last step of the path has no position, the container has no child of its name, and
the scalar lookup succeeds.  In every other case in which a lookup fails nothing was found. -/
theorem lookup_errors (v : Variables) (path : String) :
    (¬ Path.IsPath path →
      v.array path = .error (.invalidName path) ∧ v.scalar path = .error (.invalidName path)) ∧
    ∀ container last, Path.Written path.toList (container ++ [last]) →
      (v.array path = .error (.notAContainer path) ↔
        last.position = none ∧
          (∃ node, descend? v.root container = some node ∧ node.childrenAt last.name = []) ∧
          ∃ a, v.scalar path = .ok a) ∧
      (∀ e, v.array path = .error e → e = .notAContainer path ∨ e = .notFound path) ∧
      ∀ e, v.scalar path = .error e → e = .notFound path := by
  constructor
  · intro h
    rw [array_eq, scalar_eq, locate_of_not_isPath v h]
    exact ⟨rfl, rfl⟩
  · intro container last h
    rw [array_eq, scalar_eq, locate_of_written v h]
    cases descend? v.root container with
    | none =>
      refine ⟨⟨nofun, fun ⟨_, ⟨_, hnode, _⟩, _⟩ => nomatch hnode⟩, fun e he => ?_, fun e he => ?_⟩
      · exact .inr (Except.error.inj he).symm
      · exact (Except.error.inj he).symm
    | some node =>
      refine ⟨?_, fun e => arrayEnd_error, fun e => scalarEnd_error⟩
      simp only [Option.some.injEq, exists_eq_left']
      exact arrayEnd_eq_notAContainer_iff

/-- What `lookup_errors` says of a text that is no path, of a scalar looked up as an array, and of a
member that is not there. -/
theorem lookup_errors_camp :
    ¬ Path.IsPath "party[x]" ∧ camp.scalar "party[x]" = .error (.invalidName "party[x]") ∧
      Path.Written "party.members[1].id".toList ([⟨"party", none⟩, ⟨"members", some 1⟩] ++ [⟨"id", none⟩]) ∧
      camp.array "party.members[1].id" = .error (.notAContainer "party.members[1].id") ∧
      camp.scalar "party.members[2].id" = .error (.notFound "party.members[2].id") := by
  have hno : ¬ Path.IsPath "party[x]" := by decide
  have hmember : Path.Written "party.members[1].id".toList ([⟨"party", none⟩, ⟨"members", some 1⟩] ++ [⟨"id", none⟩]) :=
    Path.readSteps?_eq_some_iff.1 (by decide)
  have hnobody : Path.Written "party.members[2].id".toList ([⟨"party", none⟩, ⟨"members", some 2⟩] ++ [⟨"id", none⟩]) :=
    Path.readSteps?_eq_some_iff.1 (by decide)
  obtain ⟨hinvalid, -⟩ := camp.lookup_errors "party[x]"
  obtain ⟨-, hmember'⟩ := camp.lookup_errors "party.members[1].id"
  obtain ⟨-, hnobody'⟩ := camp.lookup_errors "party.members[2].id"
  obtain ⟨e, he⟩ : ∃ e, camp.scalar "party.members[2].id" = .error e := ⟨_, rfl⟩
  refine ⟨hno, (hinvalid hno).2, hmember, (hmember' _ _ hmember).1.2 ⟨rfl, ⟨_, rfl, rfl⟩, _, rfl⟩, ?_⟩
  exact he.trans (congrArg _ ((hnobody' _ _ hnobody).2.2 e he))

end Variables
end Muster
