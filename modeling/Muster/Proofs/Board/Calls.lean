/-
# A roster under a run of calls

A roster is changed by two calls only:

| call | when | reply | afterwards |
| --- | --- | --- | --- |
| `insert t` | the location of `t` is valid and free | `placed` | `t` comes last |
| | otherwise | `refused t` | unchanged |
| `extract l` | `t` stands at `l` | `took t` | without `t` |
| | nobody stands at `l` | `took none` | unchanged |

Whatever calls an empty roster has served, its index and its troops fit together
(`Sound`), so that the table holds of the next call as well, and its troops can be
read off the calls and the replies to them: those that were placed and not taken
since, in the order in which they came (`remaining`).  A board passes on the
insertions on its map, and refuses all others (`Board.place?_eq_some_iff`).
-/

import Muster.Proofs.Board.Roster

namespace Muster
namespace Roster

/-! ### Calls -/

/-- A call on a roster. -/
inductive Call where
  | insert (t : Troop)
  | extract (l : Location)

/-- What a call gives back. -/
inductive Reply where
  | placed
  /-- The troop is given back. -/
  | refused (t : Troop)
  | took (t : Option Troop)

/-- The reply to a call, and the roster after it. -/
def serve (r : Roster) : Call → Reply × Roster
  | .insert t =>
    match r.insert? t with
    | some r' => (.placed, r')
    | none => (.refused t, r)
  | .extract l =>
    match r.extract? l with
    | some (t, r') => (.took (some t), r')
    | none => (.took none, r)

/-- The roster after several calls. -/
def after (r : Roster) (calls : List Call) : Roster := calls.foldl (fun r c => (r.serve c).2) r

/-- Several calls, each with the reply to it. -/
def history (r : Roster) : List Call → List (Call × Reply)
  | [] => []
  | c :: calls => (c, (r.serve c).1) :: history (r.serve c).2 calls

/-- Whether a troop has been taken from a location. -/
def vacated (l : Location) (events : List (Call × Reply)) : Bool :=
  events.any fun
    | (.extract l', .took (some _)) => l == l'
    | _ => false

/-- The troops that were placed and not taken since, in the order in which they came. -/
def remaining : List (Call × Reply) → List Troop
  | [] => []
  | (.insert t, .placed) :: later => if vacated t.location later then remaining later else t :: remaining later
  | _ :: later => remaining later

/-- A roster whose index and troops fit together. -/
structure Sound (r : Roster) : Prop where
  /-- What is indexed is a position of the list, and a troop that stands there. -/
  inside : ∀ l i, r.index.get? l = some i → ∃ h : i < r.troops.length, r.troops[i].location = l
  /-- Every troop is indexed at its location. -/
  indexed : ∀ i (h : i < r.troops.length), r.index.get? r.troops[i].location = some i
  found : ∀ l t, r.at? l = some t ↔ t ∈ r.troops ∧ t.location = l
  valid : ∀ t ∈ r.troops, t.location.isValid = true
  distinct : r.troops.Pairwise fun t u => t.location ≠ u.location

/-- A roster has room for a troop whose location is valid and free. -/
def Admits (r : Roster) (t : Troop) : Prop := t.location.isValid = true ∧ r.at? t.location = none

/-- A roster that serves the next call as its troops tell. -/
structure Serves (r : Roster) : Prop where
  placed : ∀ t, r.Admits t → ∃ r', r.serve (.insert t) = (.placed, r') ∧ r'.troops = r.troops ++ [t]
  refused : ∀ t, ¬ r.Admits t → r.serve (.insert t) = (.refused t, r)
  took : ∀ l t, r.at? l = some t →
    ∃ r', r.serve (.extract l) = (.took (some t), r') ∧ r'.troops = r.troops.filter (·.location != l)
  nobody : ∀ l, r.at? l = none → r.serve (.extract l) = (.took none, r)

variable {r r' : Roster} {l : Location} {t : Troop}

/-! ### One call -/

/-- No troop is found at a location exactly if none stands there. -/
theorem Indexed.at?_eq_none_iff (hr : r.Indexed) : r.at? l = none ↔ ∀ t ∈ r.troops, t.location ≠ l := by
  rw [Option.eq_none_iff_forall_ne_some]
  constructor
  · intro h t ht hl
    exact h t (hr.at?_eq_some_iff.2 ⟨ht, hl⟩)
  · intro h t ht
    obtain ⟨hmem, hl⟩ := hr.at?_eq_some_iff.1 ht
    exact h t hmem hl

/-- A troop that may be inserted is, and comes last. -/
theorem Admits.insert?_eq_some (hr : r.Indexed) (h : r.Admits t) :
    ∃ r', r.insert? t = some r' ∧ r'.troops = r.troops ++ [t] :=
  hr.insert?_eq_some h.1 (hr.at?_eq_none_iff.1 h.2)

/-- A troop that may not be inserted is refused. -/
theorem insert?_eq_none_of_not_admits (hr : r.Indexed) (h : ¬ r.Admits t) : r.insert? t = none := by
  rw [insert?, if_pos]
  rw [Bool.or_eq_true, Bool.not_eq_true']
  by_cases hvalid : t.location.isValid = true
  · obtain ⟨u, hu⟩ := Option.ne_none_iff_exists'.1 fun hfree => h ⟨hvalid, hfree⟩
    exact .inr (hr.contains_iff.2 ⟨u, hr.at?_eq_some_iff.1 hu⟩)
  · exact .inl (by simpa using hvalid)

/-- **A troop that finds room is placed,** behind the others. -/
theorem serve_insert_of_admits (hr : r.Indexed) (h : r.Admits t) :
    ∃ r', r.serve (.insert t) = (.placed, r') ∧ r'.troops = r.troops ++ [t] := by
  obtain ⟨r', hinsert, htroops⟩ := h.insert?_eq_some hr
  exact ⟨r', by rw [serve, hinsert], htroops⟩

/-- **A troop that finds no room is given back.** -/
theorem serve_insert_of_not_admits (hr : r.Indexed) (h : ¬ r.Admits t) : r.serve (.insert t) = (.refused t, r) := by
  rw [serve, insert?_eq_none_of_not_admits hr h]

/-- Taking a position out of a list is taking out what stands at no other position. -/
theorem eraseIdx_eq_filter {α : Type} {p : α → Bool} {as : List α} {i : Nat}
    (h : ∀ j a, as[j]? = some a → (p a = false ↔ j = i)) : as.eraseIdx i = as.filter p := by
  induction as generalizing i with
  | nil => rfl
  | cons a as ih =>
    have ha := h 0 a rfl
    cases i with
    | zero =>
      have hrest : as.filter p = as := List.filter_eq_self.2 fun b hb => by
        obtain ⟨j, hj⟩ := List.mem_iff_getElem?.1 hb
        have hpb := h (j + 1) b hj
        simpa using hpb
      rw [List.eraseIdx_cons_zero, List.filter_cons, ha.2 rfl, hrest]
      rfl
    | succ i =>
      have hpa : p a = true := by simpa using ha
      have hrest := ih fun j b hj => by simpa using h (j + 1) b hj
      rw [List.eraseIdx_cons_succ, List.filter_cons, if_pos hpa, hrest]

/-- **The troop at a location is taken,** and no other. -/
theorem serve_extract_of_some (hr : r.Indexed) (h : r.at? l = some t) :
    ∃ r', r.serve (.extract l) = (.took (some t), r') ∧ r'.troops = r.troops.filter (·.location != l) := by
  obtain ⟨i, hi, ht⟩ := Option.bind_eq_some_iff.1 h
  have hextract : r.extract? l = some (t, ⟨r.troops.eraseIdx i, (r.index.erase l).mapValues (closeUp i)⟩) := by
    rw [extract?, hi, Option.bind_some, ht]
    rfl
  refine ⟨_, by rw [serve, hextract], eraseIdx_eq_filter fun j u hu => ?_⟩
  rw [bne_eq_false_iff_eq]
  constructor
  · rintro rfl
    exact Option.some.inj (((hr u.location j).2 ⟨u, hu, rfl⟩).symm.trans hi)
  · rintro rfl
    obtain ⟨v, hv, hl⟩ := (hr l j).1 hi
    obtain rfl := Option.some.inj (hu.symm.trans hv)
    exact hl

/-- An extraction where no troop stands changes nothing. -/
theorem serve_extract_of_none (hr : r.Indexed) (h : r.at? l = none) : r.serve (.extract l) = (.took none, r) := by
  have hextract : r.extract? l = none := by
    rw [extract?]
    cases hi : r.index.get? l with
    | none => rfl
    | some i =>
      obtain ⟨t, ht, hl⟩ := (hr l i).1 hi
      exact absurd hl (hr.at?_eq_none_iff.1 h t (List.mem_of_getElem? ht))
  rw [serve, hextract]

/-! ### Runs of calls -/

/-- A call leads from a roster that calls have made to another one. -/
theorem Reachable.serve (hr : r.Reachable) (c : Call) : (r.serve c).2.Reachable := by
  cases c with
  | insert t =>
    rw [Roster.serve]
    split
    · next h => exact hr.insert h
    · exact hr
  | extract l =>
    rw [Roster.serve]
    split
    · next h => exact hr.extract h
    · exact hr

/-- A run of calls leads there too, by induction on the calls. -/
theorem Reachable.after (hr : r.Reachable) (calls : List Call) : (r.after calls).Reachable := by
  induction calls generalizing r with
  | nil => exact hr
  | cons c calls ih => exact ih (hr.serve c)

/-- **Rosters that calls make are sound.** -/
theorem Reachable.sound (hr : r.Reachable) : r.Sound where
  inside l i hi := by
    obtain ⟨t, ht, hl⟩ := (hr.indexed l i).1 hi
    obtain ⟨h, rfl⟩ := List.getElem?_eq_some_iff.1 ht
    exact ⟨h, hl⟩
  indexed i h := (hr.indexed _ i).2 ⟨_, List.getElem?_eq_getElem h, rfl⟩
  found _ _ := hr.indexed.at?_eq_some_iff
  valid := hr.isValid
  distinct := by
    refine List.pairwise_iff_getElem.2 fun i j hi hj hij hl => ?_
    have hi' := (hr.indexed _ i).2 ⟨_, List.getElem?_eq_getElem hi, rfl⟩
    have hj' := (hr.indexed _ j).2 ⟨_, List.getElem?_eq_getElem hj, rfl⟩
    rw [hl, hj'] at hi'
    exact Nat.ne_of_gt hij (Option.some.inj hi')

/-- **Rosters that calls make serve the next call.** -/
theorem Reachable.serves (hr : r.Reachable) : r.Serves where
  placed _ := serve_insert_of_admits hr.indexed
  refused _ := serve_insert_of_not_admits hr.indexed
  took _ _ := serve_extract_of_some hr.indexed
  nobody _ := serve_extract_of_none hr.indexed

section Events

variable {events : List (Call × Reply)} {reply : Reply}

/-- An insertion vacates no location. -/
@[simp] theorem vacated_insert : vacated l ((.insert t, reply) :: events) = vacated l events := rfl

/-- An extraction that took a troop vacates its location. -/
@[simp] theorem vacated_took_some {l' : Location} :
    vacated l ((.extract l', .took (some t)) :: events) = (l == l' || vacated l events) := rfl

/-- An extraction that took none vacates nothing. -/
@[simp] theorem vacated_took_none {l' : Location} :
    vacated l ((.extract l', .took none) :: events) = vacated l events := rfl

/-- A placed troop remains unless its location is vacated later. -/
@[simp] theorem remaining_placed :
    remaining ((.insert t, .placed) :: events) =
      [t].filter (fun t => !vacated t.location events) ++ remaining events := by
  rw [remaining]
  cases h : vacated t.location events <;> simp [h]

/-- A refused troop does not remain. -/
@[simp] theorem remaining_refused {u : Troop} : remaining ((.insert t, .refused u) :: events) = remaining events := rfl

/-- An extraction adds no troop to those that remain. -/
@[simp] theorem remaining_extract : remaining ((.extract l, reply) :: events) = remaining events := rfl

end Events

/-- **The troops after a run** are those from before that were not taken, and behind
them those that the run has brought. -/
theorem troops_after (hr : r.Reachable) (calls : List Call) :
    (r.after calls).troops =
      (r.troops.filter fun t => !vacated t.location (r.history calls)) ++ remaining (r.history calls) := by
  induction calls generalizing r with
  | nil =>
    rw [history, remaining, List.append_nil]
    exact (List.filter_eq_self.2 fun _ _ => rfl).symm
  | cons c calls ih =>
    have hrest : (r.after (c :: calls)).troops = _ := ih (hr.serve c)
    rw [hrest, history]
    cases c with
    | insert t =>
      by_cases h : r.Admits t
      · obtain ⟨r', hserve, htroops⟩ := serve_insert_of_admits hr.indexed h
        simp only [hserve, htroops, List.filter_append, vacated_insert, remaining_placed, List.append_assoc]
      · simp only [serve_insert_of_not_admits hr.indexed h, vacated_insert, remaining_refused]
    | extract l =>
      cases h : r.at? l with
      | some t =>
        obtain ⟨r', hserve, htroops⟩ := serve_extract_of_some hr.indexed h
        simp only [hserve, htroops, vacated_took_some, remaining_extract, List.filter_filter, Bool.not_or, bne,
          Bool.and_comm]
      | none => simp only [serve_extract_of_none hr.indexed h, vacated_took_none, remaining_extract]

end Roster

/-! ### Boards -/

/-- The troops on a grid when others come one after the other: each that comes to a
location of the grid where none of those kept before it stands. -/
def Grid.settle (g : Grid) (kept : List Troop) : List Troop → List Troop
  | [] => kept
  | t :: ts => g.settle (if g.holds t.location && kept.all (·.location != t.location) then kept ++ [t] else kept) ts

namespace Board

variable {b b' : Board} {t : Troop}

/-- On the map, placing is inserting into the roster. -/
theorem place?_of_holds (h : b.map.holds t.location = true) :
    b.place? t = (b.roster.insert? t).map fun r => { b with roster := r } := if_pos h

/-- **A board refuses what its roster refuses, and whatever is off the map.** -/
theorem place?_eq_some_iff (hb : b.roster.Reachable) :
    b.place? t = some b' ↔
      (b.map.holds t.location = true ∧ b.roster.Admits t) ∧ b' = { b with roster := (b.roster.serve (.insert t)).2 } := by
  by_cases hmap : b.map.holds t.location = true
  · rw [place?_of_holds hmap, Roster.serve]
    by_cases h : b.roster.Admits t
    · obtain ⟨r', hinsert, -⟩ := h.insert?_eq_some hb.indexed
      simp [hinsert, hmap, h, eq_comm]
    · simp [Roster.insert?_eq_none_of_not_admits hb.indexed h, h]
  · rw [place?, if_neg hmap]
    simp [hmap]

/-- Whether a board places a troop can be told from its map and its troops. -/
theorem admits_iff (hb : b.roster.Reachable) (hmap : b.map.holds t.location = true) :
    b.roster.Admits t ↔ b.roster.troops.all (·.location != t.location) = true := by
  rw [Roster.Admits, hb.indexed.at?_eq_none_iff, List.all_eq_true]
  simp [Grid.isValid_of_holds hmap]

/-- Placing a troop adds it at the end if its location is free and on the map, and changes nothing
otherwise. -/
theorem troops_place_eq (hb : b.roster.Reachable) :
    (b.place t).roster.troops =
      if b.map.holds t.location && b.roster.troops.all (·.location != t.location) then b.roster.troops ++ [t]
      else b.roster.troops := by
  rw [place]
  split
  · next h =>
    obtain ⟨hmap, hfree⟩ := (Bool.and_eq_true _ _).mp h
    obtain ⟨r', hinsert, htroops⟩ := ((admits_iff hb hmap).2 hfree).insert?_eq_some hb.indexed
    rw [place?_of_holds hmap, hinsert]
    exact htroops
  · next h =>
    have hnone : b.place? t = none := by
      refine Option.eq_none_iff_forall_ne_some.2 fun b' hb' => h ?_
      obtain ⟨⟨hmap, hadmits⟩, -⟩ := (place?_eq_some_iff hb).1 hb'
      rw [hmap, (admits_iff hb hmap).1 hadmits]
      rfl
    rw [hnone]
    rfl

/-- **The troops of a board** are those that settle on its map, in the order in which they came. -/
theorem troops_placeAll_eq_settle (hb : b.roster.Reachable) (ts : List Troop) :
    (b.placeAll ts).roster.troops = b.map.settle b.roster.troops ts := by
  induction ts generalizing b with
  | nil => rfl
  | cons t ts ih =>
    have hrest : (b.placeAll (t :: ts)).roster.troops = _ := ih (reachable_place hb t)
    have hmap : (b.place t).map = b.map := by rw [place_eq]
    rw [hrest, hmap, troops_place_eq hb, Grid.settle]

end Board

namespace Roster

/-- **A roster keeps its books.**  After any calls on an empty roster its index and
its troops fit together, and the next call is served as the troops tell: an
insertion is refused exactly where the location is invalid or occupied, and then the
troop is given back; an extraction takes the troop that stands there and no other.
The troops are those that were placed and not taken since, in order.  A board with
the roster places what the roster would place, on its map only, and a board made
from a list of troops has those that settle on its map. -/
theorem sound_after_calls (calls : List Call) :
    (empty.after calls).Sound ∧ (empty.after calls).Serves ∧
      (empty.after calls).troops = remaining (empty.history calls) ∧
      (∀ (b b' : Board) t, ({ b with roster := empty.after calls } : Board).place? t = some b' ↔
        (b.map.holds t.location = true ∧ (empty.after calls).Admits t) ∧
          b' = { b with roster := ((empty.after calls).serve (.insert t)).2 }) ∧
      ∀ (b : Board) ts, (({ b with roster := empty } : Board).placeAll ts).roster.troops = b.map.settle [] ts := by
  have hr : (empty.after calls).Reachable := Reachable.empty.after calls
  refine ⟨hr.sound, hr.serves, ?_, fun b b' t => ?_, fun b ts => ?_⟩
  · exact troops_after .empty calls
  · exact Board.place?_eq_some_iff hr
  · exact Board.troops_placeAll_eq_settle .empty ts

/-- The positions behind a troop that leaves move up, and who comes back comes last. -/
example :
    let troop (id : String) (x : Int) : Troop := { id, type := "Spearman", location := ⟨x, 0⟩ }
    let r := empty.after
      [.insert (troop "a" 0), .insert (troop "b" 1), .insert (troop "c" 2), .insert (troop "d" 1), .extract ⟨0, 0⟩,
        .insert (troop "a" 0)]
    r.troops.map Troop.id = ["b", "c", "a"] ∧ (r.at? ⟨2, 0⟩).map Troop.id = some "c" := ⟨rfl, rfl⟩

end Roster
end Muster
