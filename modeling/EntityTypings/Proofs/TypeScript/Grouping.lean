import EntityTypings.Proofs.TypeScript.Written

/-!
# Where types keep their structure

`TypeExpr.tree` is the type that an expression stands for. `TypeExpr.render_reads_iff` says when its text is read as
that type: `TypeExpr.Grouped` has to hold everywhere in it, since parentheses are put around unions of several members
in intersections only.
-/

namespace EntityTypings.TypeScript

open TypeTree (parts join Flat parts_join join_flat join_singleton parts_cases)

/-! ### Lists that are joined -/

section

variable {α β : Type} {f g : α → List β} {l : List α}

theorem length_flatMap_le (shorter : ∀ x ∈ l, (f x).length ≤ (g x).length) :
    (l.flatMap f).length ≤ (l.flatMap g).length := by
  induction l with
  | nil => exact Nat.le_refl 0
  | cons x l ih =>
    obtain ⟨first, rest⟩ := List.forall_mem_cons.mp shorter
    rw [List.flatMap_cons, List.flatMap_cons, List.length_append, List.length_append]
    exact Nat.add_le_add first (ih rest)

theorem length_le_flatMap (some_entry : ∀ x ∈ l, f x ≠ []) : l.length ≤ (l.flatMap f).length := by
  induction l with
  | nil => exact Nat.le_refl 0
  | cons x l ih =>
    obtain ⟨first, rest⟩ := List.forall_mem_cons.mp some_entry
    rw [List.flatMap_cons, List.length_append, List.length_cons, Nat.add_comm]
    exact Nat.add_le_add (List.length_pos_iff.mpr first) (ih rest)

/-- Lists that are joined in the same order are equal if none of the first ones is longer than its counterpart. -/
theorem flatMap_inj (shorter : ∀ x ∈ l, (f x).length ≤ (g x).length) :
    l.flatMap f = l.flatMap g ↔ ∀ x ∈ l, f x = g x := by
  refine ⟨fun same => ?_, List.flatMap_congr⟩
  induction l with
  | nil => exact List.forall_mem_nil _
  | cons x l ih =>
    obtain ⟨first, rest⟩ := List.forall_mem_cons.mp shorter
    have later := length_flatMap_le rest
    have total := congrArg List.length same
    simp only [List.flatMap_cons, List.length_append] at total same
    obtain ⟨own, others⟩ := List.append_inj same (by omega)
    exact List.forall_mem_cons.mpr ⟨own, ih rest others⟩

end

/-! ### Parts of joined types -/

theorem parts_join_map {α : Type} {op : Operator} {f : α → TypeTree} {l : List α} (flat : ∀ x ∈ l, Flat (f x))
    (some_member : l ≠ []) : parts op (join op (l.map f)) = l.flatMap fun x => parts op (f x) := by
  rw [parts_join (List.forall_mem_map.mpr flat) (mt List.map_eq_nil_iff.mp some_member), List.flatMap_map]

theorem parts_other {op op' : Operator} {t : TypeTree} (several : 2 ≤ (parts op t).length) (other : op ≠ op') :
    parts op' t = [t] := by
  rcases parts_cases op t with joined | single
  · rw [joined]
    exact if_neg other
  · rw [single] at several
    exact absurd several (by simp)

theorem parts_join_several {α : Type} {op op' : Operator} {f : α → TypeTree} {l : List α} (flat : ∀ x ∈ l, Flat (f x))
    (several : 2 ≤ l.length) (other : op ≠ op') : parts op' (join op (l.map f)) = [join op (l.map f)] := by
  have count : 2 ≤ (parts op (join op (l.map f))).length := by
    rw [parts_join_map flat (List.ne_nil_of_length_pos (by omega))]
    exact Nat.le_trans several (length_le_flatMap fun x listed => (flat x listed).parts_ne_nil)
  exact parts_other count other

theorem length_single_le {op : Operator} {t u : TypeTree} (single : parts op t = [t]) (flat : Flat u) :
    (parts op t).length ≤ (parts op u).length := by
  rw [single]
  exact List.length_pos_iff.mpr flat.parts_ne_nil

/-! ### How loosely alternatives are bound -/

/-- Alternatives that are bound so loosely. -/
inductive Spread : Nat → List (List TypeTree) → Prop
  | operand (x : TypeTree) : Spread 0 [[x]]
  | operands {xs : List TypeTree} (several : 2 ≤ xs.length) : Spread 1 [xs]
  | alternatives {terms : List (List TypeTree)} (several : 2 ≤ terms.length) : Spread 2 terms

variable {a b : Nat} {first later : List (List TypeTree)}

theorem Spread.ne_nil (spread : Spread a first) : first ≠ [] := by
  cases spread with
  | operand x => exact List.cons_ne_nil _ _
  | operands several => exact List.cons_ne_nil _ _
  | alternatives several => exact List.ne_nil_of_length_pos (by omega)

theorem Spread.indexLast (spread : Spread a first) (key : TypeTree) : Spread a (indexLast key first) := by
  unfold TypeScript.indexLast
  cases spread with
  | operand x => exact .operand _
  | operands several => exact .operands (by rwa [length_onLast])
  | alternatives several => exact .alternatives (by rwa [length_onLast])

theorem Spread.meet (spread : Spread a first) (spread' : Spread b later) :
    Spread (max 1 (max a b)) (meet first later) := by
  have length := length_meet spread.ne_nil spread'.ne_nil
  cases spread with
  | operand x =>
    cases spread' with
    | operand y => exact .operands (Nat.le_refl 2)
    | operands several' => exact .operands (by rw [List.singleton_append, List.length_cons]; omega)
    | alternatives several' => exact .alternatives (by rw [List.length_singleton] at length; omega)
  | operands several =>
    cases spread' with
    | operand y => exact .operands (by rw [List.length_append]; omega)
    | operands several' => exact .operands (by rw [List.length_append]; omega)
    | alternatives several' => exact .alternatives (by rw [List.length_singleton] at length; omega)
  | alternatives several =>
    have bound : max 1 (max 2 b) = 2 := by cases spread' <;> rfl
    have some_later := List.length_pos_iff.mpr spread'.ne_nil
    rw [bound]
    exact .alternatives (by omega)

theorem Spread.single (spread : Spread a first) (tight : a ≤ 1) : ∃ xs, first = [xs] := by
  cases spread with
  | operand x => exact ⟨_, rfl⟩
  | operands several => exact ⟨_, rfl⟩
  | alternatives several => exact absurd tight (by decide)

theorem Spread.single_operand (spread : Spread 0 first) : ∃ x, first = [[x]] := by
  cases spread with
  | operand x => exact ⟨x, rfl⟩

theorem Spread.several (spread : Spread a first) (loose : ¬a ≤ 1) : 2 ≤ first.length := by
  cases spread with
  | operand x => exact absurd (Nat.zero_le 1) loose
  | operands several => exact absurd (Nat.le_refl 1) loose
  | alternatives several => exact several

/-! ### Alternatives of flat types -/

def Proper (terms : List (List TypeTree)) : Prop := ∀ xs ∈ terms, xs ≠ [] ∧ ∀ x ∈ xs, Flat x

theorem proper_single {x : TypeTree} (flat : Flat x) : Proper [[x]] := by
  intro xs listed
  rw [List.mem_singleton.mp listed]
  exact ⟨List.cons_ne_nil x [], List.forall_mem_singleton.mpr flat⟩

theorem Proper.meet (proper : Proper first) (proper' : Proper later) : Proper (meet first later) := by
  induction first with
  | nil => exact proper'
  | cons xs first ih =>
    obtain ⟨⟨some_operand, flat⟩, rest⟩ := List.forall_mem_cons.mp proper
    cases first with
    | nil =>
      cases later with
      | nil => exact proper
      | cons ys later =>
        obtain ⟨⟨some_operand', flat'⟩, rest'⟩ := List.forall_mem_cons.mp proper'
        refine List.forall_mem_cons.mpr ⟨⟨List.append_ne_nil_of_left_ne_nil some_operand ys, ?_⟩, rest'⟩
        exact List.forall_mem_append.mpr ⟨flat, flat'⟩
    | cons xs' first => exact List.forall_mem_cons.mpr ⟨⟨some_operand, flat⟩, ih rest⟩

theorem Proper.indexLast (proper : Proper first) (key : TypeTree) : Proper (indexLast key first) := by
  refine forall_mem_onLast proper fun xs ⟨some_operand, flat⟩ => ⟨?_, forall_mem_onLast flat fun _ _ => trivial⟩
  rw [← List.length_pos_iff, length_onLast]
  exact List.length_pos_iff.mpr some_operand

theorem ofAlternatives_flat (proper : Proper first) : Flat (ofAlternatives first) := by
  refine join_flat (List.forall_mem_map.mpr fun xs listed => join_flat (proper xs listed).2)

theorem parts_ofAlternatives (proper : Proper first) (some_alternative : first ≠ []) :
    parts .union (ofAlternatives first) = first.flatMap fun xs => parts .union (join .intersection xs) :=
  parts_join_map (fun xs listed => join_flat (proper xs listed).2) some_alternative

theorem ofAlternatives_single {xs : List TypeTree} (proper : Proper [xs]) :
    ofAlternatives [xs] = join .intersection xs :=
  join_singleton (join_flat (proper xs List.mem_cons_self).2)

namespace TypeExpr

/-! ### Types and their operators -/

mutual

def tree : TypeExpr → TypeTree
  | .reference name => .name name
  | .keyword k => .name k.text
  | .literal s => .literal s
  | .array item => .apply "Array" [item.tree]
  | .union ts => join .union (treeEach ts)
  | .object fields => .object (treeFields fields)
  | .record key value => .apply "Record" [key.tree, value.tree]
  | .intersection ts => join .intersection (treeEach ts)
  | .generic name ts => .apply name (treeEach ts)
  | .indexed owner key => .index owner.tree (.literal key)

def treeEach : List TypeExpr → List TypeTree
  | [] => []
  | t :: ts => t.tree :: treeEach ts

def treeFields : List (String × TypeExpr) → List (String × TypeTree)
  | [] => []
  | f :: fields => (f.1, f.2.tree) :: treeFields fields

end

theorem treeEach_eq_map (ts : List TypeExpr) : treeEach ts = ts.map tree := by
  induction ts with
  | nil => rfl
  | cons t ts ih => rw [treeEach, List.map_cons, ih]

theorem treeFields_eq_map (fields : List (String × TypeExpr)) :
    treeFields fields = fields.map fun f => (f.1, f.2.tree) := by
  induction fields with
  | nil => rfl
  | cons f fields ih => rw [treeFields, List.map_cons, ih]

mutual

/-- How loosely the text of a type is bound outside of brackets: 2 by `|`, 1 by `&`, 0 by none of them. -/
def looseness : TypeExpr → Nat
  | .union [t] => t.looseness
  | .union (_ :: _ :: _) => 2
  | .intersection [t] => operandsLooseness [t]
  | .intersection (t :: u :: ts) => max 1 (operandsLooseness (t :: u :: ts))
  | .indexed owner _ => owner.looseness
  | _ => 0

def operandsLooseness : List TypeExpr → Nat
  | [] => 0
  | t :: ts => max (if t.isWideUnion then 0 else t.looseness) (operandsLooseness ts)

end

def operandLooseness (t : TypeExpr) : Nat := if t.isWideUnion then 0 else t.looseness

/-- No operand is bound more loosely than the operator or the index behind it. -/
def Grouped : TypeExpr → Prop
  | .intersection (t :: u :: ts) => operandsLooseness (t :: u :: ts) ≤ 1
  | .indexed owner _ => owner.looseness = 0
  | _ => True

variable {t u : TypeExpr} {ts : List TypeExpr}

theorem max_looseness (t : TypeExpr) (ts : List TypeExpr) :
    max 1 (intersection (t :: ts)).looseness = max 1 (operandsLooseness (t :: ts)) := by
  cases ts with
  | nil => rw [looseness]
  | cons u ts => rw [looseness, ← Nat.max_assoc, Nat.max_self]

theorem spread_operand (spread : Spread t.looseness t.terms) :
    Spread (operandLooseness t) (operand t) := by
  unfold operandLooseness operand
  split
  · exact .operand _
  · exact spread

theorem spread_intersection (some_operand : ts ≠ [])
    (each : ∀ t ∈ ts, Spread t.looseness t.terms) :
    Spread (intersection ts).looseness (intersection ts).terms := by
  induction ts with
  | nil => exact absurd rfl some_operand
  | cons t ts ih =>
    obtain ⟨first, each⟩ := List.forall_mem_cons.mp each
    have own := spread_operand first
    cases ts with
    | nil =>
      rw [looseness, operandsLooseness, operandsLooseness, Nat.max_zero, terms, operandTerms, operandTerms,
        List.foldr_cons, List.foldr_nil, meet_nil]
      exact own
    | cons u ts =>
      have both := own.meet (ih (List.cons_ne_nil u ts) each)
      rw [looseness, operandsLooseness, Nat.max_left_comm, ← max_looseness, Nat.max_left_comm]
      exact both

theorem spread_union (t u : TypeExpr) (ts : List TypeExpr) (first : t.terms ≠ []) (second : u.terms ≠ []) :
    Spread 2 (union (t :: u :: ts)).terms := by
  have some_term := List.length_pos_iff.mpr first
  have other_term := List.length_pos_iff.mpr second
  refine .alternatives ?_
  rw [terms, termsEach, termsEach, List.flatten_cons, List.flatten_cons, List.length_append, List.length_append]
  omega

theorem spread (t : TypeExpr) (filled : t.Everywhere Filled) : Spread t.looseness t.terms := by
  induction t using byChildren with
  | step t ih =>
    have inside (c : TypeExpr) (child : c ∈ t.children) : Spread c.looseness c.terms :=
      ih c child ((everywhere_iff.mp filled).2 c child)
    cases t with
    | reference | keyword | literal | array | object | record | generic => exact .operand _
    | union ts =>
      match ts with
      | [] => exact .operand _
      | [t] =>
        rw [looseness, terms, termsEach, termsEach, List.flatten_singleton]
        exact inside t List.mem_cons_self
      | t :: u :: ts =>
        obtain ⟨first, each⟩ := List.forall_mem_cons.mp inside
        exact spread_union t u ts first.ne_nil (each u List.mem_cons_self).ne_nil
    | intersection ts => exact spread_intersection (everywhere_iff.mp filled).1 inside
    | indexed owner key => exact (inside owner List.mem_cons_self).indexLast _

theorem proper_operand (proper : Proper t.terms) : Proper t.operand := by
  unfold operand
  split
  · exact proper_single (ofAlternatives_flat proper)
  · exact proper

theorem proper_terms (t : TypeExpr) : Proper t.terms := by
  induction t using byChildren with
  | step t ih =>
    cases t with
    | reference | keyword | literal | array | object | record | generic => exact proper_single trivial
    | union ts =>
      cases ts with
      | nil => exact proper_single trivial
      | cons t ts =>
        rw [terms, termsEach_eq_map]
        intro xs listed
        obtain ⟨terms, member, inside⟩ := List.mem_flatten.mp listed
        obtain ⟨u, child, rfl⟩ := List.mem_map.mp member
        exact ih u child xs inside
    | intersection ts =>
      change ∀ t ∈ ts, Proper t.terms at ih
      rw [terms]
      induction ts with
      | nil => exact List.forall_mem_nil _
      | cons t ts rest =>
        obtain ⟨first, ih⟩ := List.forall_mem_cons.mp ih
        exact (proper_operand first).meet (rest ih)
    | indexed owner key => exact (ih owner List.mem_cons_self).indexLast _

theorem reading_flat (t : TypeExpr) : Flat t.reading := ofAlternatives_flat t.proper_terms

theorem tree_flat (t : TypeExpr) : Flat t.tree := by
  induction t using byChildren with
  | step t ih =>
    cases t with
    | union ts =>
      rw [tree, treeEach_eq_map]
      exact join_flat (List.forall_mem_map.mpr ih)
    | intersection ts =>
      rw [tree, treeEach_eq_map]
      exact join_flat (List.forall_mem_map.mpr ih)
    | _ => trivial

/-! ### Parts of types -/

theorem parts_tree_union (some_member : ts ≠ []) :
    parts .union (union ts).tree = ts.flatMap fun t => parts .union t.tree := by
  rw [tree, treeEach_eq_map, parts_join_map (fun t _ => t.tree_flat) some_member]

theorem parts_tree_intersection (some_operand : ts ≠ []) :
    parts .intersection (intersection ts).tree = ts.flatMap fun t => parts .intersection t.tree := by
  rw [tree, treeEach_eq_map, parts_join_map (fun t _ => t.tree_flat) some_operand]

theorem parts_reading_union (some_member : ts ≠ []) (filled : ∀ t ∈ ts, t.Everywhere Filled) :
    parts .union (union ts).reading = ts.flatMap fun t => parts .union t.reading := by
  have each (t : TypeExpr) (listed : t ∈ ts) :=
    parts_ofAlternatives t.proper_terms (t.spread (filled t listed)).ne_nil
  have whole : (union ts).terms = ts.flatMap terms := by
    cases ts with
    | nil => exact absurd rfl some_member
    | cons t ts => rw [terms, termsEach_eq_map, List.flatMap_def]
  have some_term : ts.flatMap terms ≠ [] := by
    obtain ⟨t, listed⟩ := List.exists_mem_of_ne_nil ts some_member
    exact fun empty => (t.spread (filled t listed)).ne_nil (List.flatMap_eq_nil_iff.mp empty t listed)
  rw [reading, parts_ofAlternatives (proper_terms _) (whole ▸ some_term), whole, List.flatMap_assoc]
  exact List.flatMap_congr fun t listed => (each t listed).symm

theorem reading_operand (t : TypeExpr) : ofAlternatives t.operand = t.reading := by
  unfold operand
  split
  · exact (ofAlternatives_single (proper_single t.reading_flat)).trans (join_singleton t.reading_flat)
  · rfl

theorem parts_reading_single {xs : List TypeTree} (single : t.operand = [xs]) :
    parts .intersection t.reading = xs.flatMap (parts .intersection) := by
  have proper := proper_operand t.proper_terms
  rw [single] at proper
  obtain ⟨some_operand, flat⟩ := proper xs List.mem_cons_self
  rw [← reading_operand, single, ofAlternatives_single proper, parts_join flat some_operand]

theorem operandsLooseness_le {n : Nat} :
    operandsLooseness ts ≤ n ↔ ∀ t ∈ ts, t.operandLooseness ≤ n := by
  induction ts with
  | nil => simp [operandsLooseness]
  | cons t ts ih => rw [operandsLooseness, Nat.max_le, ih, List.forall_mem_cons, operandLooseness]

theorem parts_reading_intersection (some_operand : ts ≠ [])
    (filled : ∀ t ∈ ts, t.Everywhere Filled) (tight : ∀ t ∈ ts, t.operandLooseness ≤ 1) :
    parts .intersection (intersection ts).reading = ts.flatMap fun t => parts .intersection t.reading := by
  have whole : ∃ xs, (operandTerms ts).foldr meet [] = [xs] ∧
      xs.flatMap (parts .intersection) = ts.flatMap fun t => parts .intersection t.reading := by
    induction ts with
    | nil => exact absurd rfl some_operand
    | cons t ts ih =>
      obtain ⟨own, filled⟩ := List.forall_mem_cons.mp filled
      obtain ⟨first, tight⟩ := List.forall_mem_cons.mp tight
      obtain ⟨xs, single⟩ := (spread_operand (t.spread own)).single first
      rw [operandTerms, List.foldr_cons, ← operand, single, List.flatMap_cons, parts_reading_single single]
      cases ts with
      | nil => exact ⟨xs, rfl, (List.append_nil _).symm⟩
      | cons u ts =>
        obtain ⟨ys, rest, same⟩ := ih (List.cons_ne_nil u ts) filled tight
        exact ⟨xs ++ ys, by rw [rest, meet], by rw [List.flatMap_append, same]⟩
  obtain ⟨xs, single, same⟩ := whole
  have proper := (intersection ts).proper_terms
  rw [terms, single] at proper
  obtain ⟨some_term, flat⟩ := proper xs List.mem_cons_self
  rw [reading, terms, single, ofAlternatives_single proper, parts_join flat some_term, same]

theorem tree_union_single (t : TypeExpr) : (union [t]).tree = t.tree := by
  rw [tree, treeEach, treeEach, join_singleton t.tree_flat]

theorem tree_intersection_single (t : TypeExpr) : (intersection [t]).tree = t.tree := by
  rw [tree, treeEach, treeEach, join_singleton t.tree_flat]

theorem reading_union_single (t : TypeExpr) : (union [t]).reading = t.reading := by
  rw [reading, terms, termsEach, termsEach, List.flatten_singleton, reading]

theorem reading_intersection_single (t : TypeExpr) : (intersection [t]).reading = t.reading := by
  rw [reading, terms, operandTerms, operandTerms, List.foldr_cons, List.foldr_nil, meet_nil, ← operand,
    reading_operand]

theorem tree_union_several (t u : TypeExpr) (ts : List TypeExpr) :
    parts .intersection (union (t :: u :: ts)).tree = [(union (t :: u :: ts)).tree] := by
  rw [tree, treeEach_eq_map]
  exact parts_join_several (fun t _ => t.tree_flat) (Nat.le_add_left 2 ts.length) (by decide)

theorem tree_intersection_several (t u : TypeExpr) (ts : List TypeExpr) :
    parts .union (intersection (t :: u :: ts)).tree = [(intersection (t :: u :: ts)).tree] := by
  rw [tree, treeEach_eq_map]
  exact parts_join_several (fun t _ => t.tree_flat) (Nat.le_add_left 2 ts.length) (by decide)

/-- What is read has at least as many parts as what is meant, so that no part is made up for by another one. -/
theorem union_parts_le (t : TypeExpr) (filled : t.Everywhere Filled) :
    (parts .union t.tree).length ≤ (parts .union t.reading).length := by
  induction t using byChildren with
  | step t ih =>
    have inside (c : TypeExpr) (child : c ∈ t.children) := ih c child ((everywhere_iff.mp filled).2 c child)
    cases t with
    | union ts =>
      by_cases empty : ts = []
      · subst empty
        exact Nat.le_refl 1
      · rw [parts_tree_union empty, parts_reading_union empty (everywhere_iff.mp filled).2]
        exact length_flatMap_le inside
    | intersection ts =>
      match ts with
      | [] => exact absurd rfl (everywhere_iff.mp filled).1
      | [t] =>
        rw [tree_intersection_single, reading_intersection_single]
        exact inside t List.mem_cons_self
      | t :: u :: ts => exact length_single_le (tree_intersection_several t u ts) (reading_flat _)
    | _ => exact length_single_le rfl (reading_flat _)

theorem tree_wide (wide : t.isWideUnion = true) : parts .intersection t.tree = [t.tree] := by
  unfold isWideUnion at wide
  split at wide
  · exact tree_union_several _ _ _
  · cases wide

theorem operand_parts_le
    (own : t.looseness ≤ 1 → (parts .intersection t.tree).length ≤ (parts .intersection t.reading).length)
    (tight : t.operandLooseness ≤ 1) :
    (parts .intersection t.tree).length ≤ (parts .intersection t.reading).length := by
  unfold operandLooseness at tight
  split at tight
  next wide => exact length_single_le (tree_wide wide) t.reading_flat
  · exact own tight

theorem looseness_intersection_le (some_operand : ts ≠ []) :
    (intersection ts).looseness ≤ 1 ↔ ∀ t ∈ ts, t.operandLooseness ≤ 1 := by
  obtain ⟨t, ts, rfl⟩ := List.exists_cons_of_ne_nil some_operand
  have bound := max_looseness t ts
  rw [← operandsLooseness_le]
  omega

theorem intersection_parts_le (t : TypeExpr) (filled : t.Everywhere Filled) (tight : t.looseness ≤ 1) :
    (parts .intersection t.tree).length ≤ (parts .intersection t.reading).length := by
  induction t using byChildren with
  | step t ih =>
    have inside (c : TypeExpr) (child : c ∈ t.children) := ih c child ((everywhere_iff.mp filled).2 c child)
    cases t with
    | union ts =>
      match ts with
      | [] => exact Nat.le_refl 1
      | [t] =>
        rw [looseness] at tight
        rw [tree_union_single, reading_union_single]
        exact inside t List.mem_cons_self tight
      | _ :: _ :: _ => exact absurd tight (by rw [looseness]; decide)
    | intersection ts =>
      obtain ⟨some_operand, filled⟩ := everywhere_iff.mp filled
      have each := (looseness_intersection_le some_operand).mp tight
      rw [parts_tree_intersection some_operand, parts_reading_intersection some_operand filled each]
      exact length_flatMap_le fun t listed => operand_parts_le (inside t listed) (each t listed)
    | _ => exact length_single_le rfl (reading_flat _)

/-! ### Types that are read as they are meant -/

theorem several_alternatives (several : 2 ≤ t.terms.length) : 2 ≤ (parts .union t.reading).length := by
  rw [reading, parts_ofAlternatives t.proper_terms (List.ne_nil_of_length_pos (by omega))]
  have flat (xs : List TypeTree) (listed : xs ∈ t.terms) : Flat (join .intersection xs) :=
    join_flat (t.proper_terms xs listed).2
  exact Nat.le_trans several (length_le_flatMap fun xs listed => (flat xs listed).parts_ne_nil)

theorem several_operands {xs : List TypeTree} (single : t.terms = [xs]) (several : 2 ≤ xs.length) :
    2 ≤ (parts .intersection t.reading).length := by
  have proper := t.proper_terms
  rw [single] at proper
  obtain ⟨some_operand, flat⟩ := proper xs List.mem_cons_self
  rw [reading, single, ofAlternatives_single proper, parts_join flat some_operand]
  exact Nat.le_trans several (length_le_flatMap fun x listed => (flat x listed).parts_ne_nil)

theorem loose_reading (spread : Spread a t.terms) (loose : a ≠ 0) :
    2 ≤ (parts .union t.reading).length ∨ 2 ≤ (parts .intersection t.reading).length := by
  generalize written : t.terms = terms at spread
  cases spread with
  | operand x => exact absurd rfl loose
  | operands several => exact .inr (several_operands written several)
  | alternatives several => exact .inl (several_alternatives (written ▸ several))

theorem reading_generic (name : String) (ts : List TypeExpr) :
    (generic name ts).reading = .apply name (ts.map reading) := by
  rw [reading, terms, termsEach_eq_map, List.map_map]
  rfl

theorem reading_object (fields : List (String × TypeExpr)) :
    (object fields).reading = .object (fields.map fun f => (f.1, f.2.reading)) := by
  rw [reading, terms, fieldTerms_eq_map]
  rfl

theorem reading_indexed {owner : TypeExpr} {x : TypeTree} (single : owner.terms = [[x]]) (key : String) :
    (indexed owner key).reading = .index owner.reading (.literal key) := by
  have proper := owner.proper_terms
  rw [single] at proper
  have own : owner.reading = x := by
    rw [reading, single, ofAlternatives_single proper]
    exact join_singleton ((proper [x] List.mem_cons_self).2 x List.mem_cons_self)
  rw [own, reading, terms, single]
  rfl

theorem reading_eq_iff_parts (op : Operator) (t : TypeExpr) :
    t.reading = t.tree ↔ parts op t.tree = parts op t.reading :=
  ⟨fun same => congrArg (parts op) same.symm, fun same => (t.tree_flat.parts_inj t.reading_flat same).symm⟩

theorem reading_intersection_iff (some_operand : ts ≠ [])
    (filled : ∀ t ∈ ts, t.Everywhere Filled) (tight : ∀ t ∈ ts, t.operandLooseness ≤ 1) :
    (intersection ts).reading = (intersection ts).tree ↔ ∀ t ∈ ts, t.reading = t.tree := by
  rw [reading_eq_iff_parts .intersection, parts_tree_intersection some_operand,
    parts_reading_intersection some_operand filled tight, flatMap_inj]
  · simp only [reading_eq_iff_parts .intersection]
  · exact fun t listed =>
      operand_parts_le (t.intersection_parts_le (filled t listed)) (tight t listed)

theorem reading_union_iff (filled : ∀ t ∈ ts, t.Everywhere Filled) :
    (union ts).reading = (union ts).tree ↔ ∀ t ∈ ts, t.reading = t.tree := by
  by_cases empty : ts = []
  · subst empty
    exact iff_of_true rfl (List.forall_mem_nil _)
  · rw [reading_eq_iff_parts .union, parts_tree_union empty, parts_reading_union empty filled, flatMap_inj]
    · simp only [reading_eq_iff_parts .union]
    · exact fun t listed => t.union_parts_le (filled t listed)

theorem reading_several_iff
    (filled : (intersection (t :: u :: ts)).Everywhere Filled) :
    (intersection (t :: u :: ts)).reading = (intersection (t :: u :: ts)).tree ↔
      operandsLooseness (t :: u :: ts) ≤ 1 ∧ ∀ c ∈ t :: u :: ts, c.reading = c.tree := by
  obtain ⟨some_operand, filled_inside⟩ := everywhere_iff.mp filled
  by_cases tight : operandsLooseness (t :: u :: ts) ≤ 1
  · have each := operandsLooseness_le.mp tight
    exact (reading_intersection_iff some_operand filled_inside each).trans (and_iff_right tight).symm
  · -- the text is a union then
    refine iff_of_false (fun same => ?_) fun both => tight both.1
    have loose : ¬(intersection (t :: u :: ts)).looseness ≤ 1 := by
      rw [looseness]
      omega
    have several := several_alternatives ((spread _ filled).several loose)
    rw [same, tree_intersection_several] at several
    exact absurd several (by simp)

theorem reading_indexed_iff {owner : TypeExpr} (filled : owner.Everywhere Filled) (key : String) :
    (indexed owner key).reading = (indexed owner key).tree ↔ owner.looseness = 0 ∧ owner.reading = owner.tree := by
  have spread := owner.spread filled
  by_cases tight : owner.looseness = 0
  · rw [tight] at spread
    obtain ⟨x, single⟩ := spread.single_operand
    rw [reading_indexed single, tree]
    simp [tight]
  · -- the index belongs to the last operand then
    refine iff_of_false (fun same => ?_) fun both => tight both.1
    have several := loose_reading (t := indexed owner key) (spread.indexLast _) tight
    rw [same] at several
    exact absurd several (by simp [tree, parts])

theorem reading_eq_tree_iff (t : TypeExpr) (filled : t.Everywhere Filled) :
    t.reading = t.tree ↔ t.Everywhere Grouped := by
  induction t using byChildren with
  | step t ih =>
    have filled_inside := (everywhere_iff.mp filled).2
    have inside (c : TypeExpr) (child : c ∈ t.children) : c.reading = c.tree ↔ c.Everywhere Grouped :=
      ih c child (filled_inside c child)
    rw [everywhere_iff, ← forall₂_congr inside]
    cases t with
    | reference | keyword | literal => exact iff_of_true rfl ⟨trivial, List.forall_mem_nil _⟩
    | array item =>
      have own : (array item).reading = .apply "Array" [item.reading] := rfl
      rw [own, tree]
      simp [Grouped, children]
    | union ts => exact (reading_union_iff filled_inside).trans (and_iff_right trivial).symm
    | object fields =>
      rw [reading_object, tree, treeFields_eq_map]
      simp only [TypeTree.object.injEq, List.map_inj_left, Prod.mk.injEq, true_and, Grouped, children,
        List.forall_mem_map]
    | record key value =>
      have own : (record key value).reading = .apply "Record" [key.reading, value.reading] := rfl
      rw [own, tree]
      simp [Grouped, children]
    | intersection ts =>
      cases ts with
      | nil => exact absurd rfl (everywhere_iff.mp filled).1
      | cons t ts =>
        cases ts with
        | nil =>
          rw [tree_intersection_single, reading_intersection_single]
          simp [Grouped, children]
        | cons u ts => exact reading_several_iff filled
    | generic name ts =>
      rw [reading_generic, tree, treeEach_eq_map]
      simp [Grouped, children]
    | indexed owner key =>
      rw [reading_indexed_iff (filled_inside owner List.mem_cons_self)]
      simp [Grouped, children]

/-- With identifiers for names, and with operands and arguments where they are needed, a type is read from its text
exactly if every operand is bound tightly enough and no carriage return stands in a literal or the name of a field.
No text is read as two types, and such a text as none only if there is a carriage return. -/
theorem render_reads_iff (named : t.Named IsName) (filled : t.Everywhere Filled) :
    (Reads t.render t.tree ↔ t.Everywhere Grouped ∧ t.Everywhere Unbroken) ∧
    ((∃ tree, Reads t.render tree) ↔ t.Everywhere Unbroken) ∧
    ∀ tree tree', Reads t.render tree → Reads t.render tree' → tree = tree' := by
  refine ⟨?_, ⟨fun ⟨_, reads⟩ => ?_, fun unbroken => ?_⟩, fun _ _ => Reads.unique⟩
  · rw [reads_render named filled, eq_comm, reading_eq_tree_iff t filled, and_comm]
  · exact ((reads_render named filled).mp reads).1
  · exact ⟨_, (reads_render named filled).mpr ⟨unbroken, rfl⟩⟩

theorem guarded_union_read :
    Reads (intersection [union [string, reference "Ω"], indexed (reference "Value") "a\"b"]).render
      (intersection [union [string, reference "Ω"], indexed (reference "Value") "a\"b"]).tree := by
  have letter : IsName "Ω" := ⟨'Ω', [], rfl, by decide, List.forall_mem_nil _⟩
  have word : IsName "Value" := isName_of_identifier (by decide)
  have parts {p : TypeExpr → Prop} :
      Everywhere p (intersection [union [string, reference "Ω"], indexed (reference "Value") "a\"b"]) ↔
        p (intersection [union [string, reference "Ω"], indexed (reference "Value") "a\"b"]) ∧
        (p (union [string, reference "Ω"]) ∧ p string ∧ p (reference "Ω")) ∧
        p (indexed (reference "Value") "a\"b") ∧ p (reference "Value") := by
    simp [everywhere_iff (t := intersection _), everywhere_iff (t := union _), everywhere_iff (t := indexed _ _),
      everywhere_iff (t := reference _), everywhere_iff (t := keyword _), string, children]
  refine (render_reads_iff ?_ (parts.mpr ?_)).1.mpr ⟨parts.mpr ?_, parts.mpr ?_⟩
  · exact ⟨⟨trivial, letter, trivial⟩, word, trivial⟩
  · simp [Filled, string]
  · simp [Grouped, looseness, operandsLooseness, isWideUnion, string]
  · simp [Unbroken, string]

/-- An index behind a union is read as one of its last member. -/
theorem indexed_union_misread :
    (indexed (union [string, number]) "key").Named IsName ∧
    (indexed (union [string, number]) "key").Everywhere Filled ∧
    (indexed (union [string, number]) "key").render = "string | number[\"key\"]" ∧
    ¬Reads (indexed (union [string, number]) "key").render (indexed (union [string, number]) "key").tree := by
  have named : (indexed (union [string, number]) "key").Named IsName := ⟨trivial, trivial, trivial⟩
  have filled : (indexed (union [string, number]) "key").Everywhere Filled := by
    simp [everywhere_iff (t := indexed _ _), everywhere_iff (t := union _), everywhere_iff (t := keyword _), string,
      number, children, Filled]
  refine ⟨named, filled, by decide, fun reads => ?_⟩
  have same := ((reads_render named filled).mp reads).2
  cases same

end TypeExpr

end EntityTypings.TypeScript
