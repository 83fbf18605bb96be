import EntityTypings.NameTable
import EntityTypings.TypeScript.Narrowing
import Mathlib.Data.List.Destutter
import Mathlib.Data.List.Sort

/-!
# Keys and value types of an entity

The members of narrowed attributes are a set that is listed in one way. `Narrowing.mem_pairs` says which pairs
are listed, `Narrowing.pairs_ordered` that they stand in strictly ascending order, and `Narrowing.pairs_ext` that
two lists of attributes with the same pairs for an entity give one list. Sorting all pairs and then dropping those
that repeat the one in front of them gives the same list: `Narrowing.pairs_eq_sorted`.
-/

namespace EntityTypings

open TypeScript

/-- The key of an attribute and the type of its values. -/
def Attribute.pair (a : Attribute) : String × ValueType := (a.key, .ofKind a.kind)

/-- Some attribute with this key and this value type applies to the entity. -/
def Attribute.Offers (attributes : List Attribute) (entity : String) (pair : String × ValueType) : Prop :=
  ∃ a ∈ attributes, a.appliesTo entity = true ∧ a.pair = pair

namespace TypeScript

/-! ### Texts of value types -/

theorem ValueType.expr_of_ne_inherited {v : ValueType} (known : v ≠ .inherited) (element : Option String) :
    v.expr element = v.expr none := by
  cases v with
  | inherited => exact absurd rfl known
  | _ => rfl

theorem ValueType.render_expr_none {v w : ValueType} (same : (v.expr none).render = (w.expr none).render) :
    v = w := by
  revert same
  cases v <;> cases w <;> decide

/-- No other value type ends with a bracket, whatever the element is called. -/
theorem ValueType.render_inherited (v : ValueType) (name : String) :
    (v.expr (some name)).render.toList.getLast? = some ']' ↔ v = .inherited := by
  by_cases inherited : v = .inherited
  · subst inherited
    have text : (ValueType.inherited.expr (some name)).render = name ++ "[" ++ quote valueField ++ "]" := rfl
    rw [text, String.toList_append, List.getLast?_append]
    exact ⟨fun _ => rfl, fun _ => rfl⟩
  · rw [expr_of_ne_inherited inherited]
    revert inherited
    cases v <;> decide

theorem ValueType.render_expr_injective {element : Option String} {v w : ValueType}
    (same : (v.expr element).render = (w.expr element).render) : v = w := by
  cases element with
  | none => exact render_expr_none same
  | some name =>
    have last := congrArg (fun text => text.toList.getLast? = some ']') same
    simp only [render_inherited, eq_iff_iff] at last
    by_cases inherited : v = .inherited
    · exact inherited.trans (last.mp inherited).symm
    · have other : w ≠ .inherited := mt last.mpr inherited
      rw [expr_of_ne_inherited inherited, expr_of_ne_inherited other] at same
      exact render_expr_none same

namespace Narrowing

variable {n : Narrowing} {a b c : String × ValueType} {entity : String}

/-! ### The order of pairs -/

theorem precedes_iff : n.precedes a b = true ↔
    a.1 < b.1 ∨ a.1 = b.1 ∧ (a.2.expr n.element).render < (b.2.expr n.element).render := by
  simp [precedes]

theorem precedes_irrefl (a : String × ValueType) : ¬n.precedes a a = true := by
  rw [precedes_iff]
  rintro (key | ⟨_, value⟩)
  · exact String.lt_irrefl _ key
  · exact String.lt_irrefl _ value

theorem precedes_trans (first : n.precedes a b = true) (second : n.precedes b c = true) :
    n.precedes a c = true := by
  rw [precedes_iff] at *
  rcases first with key | ⟨same, value⟩ <;> rcases second with key' | ⟨same', value'⟩
  · exact .inl (String.lt_trans key key')
  · exact .inl (same' ▸ key)
  · exact .inl (same.symm ▸ key')
  · exact .inr ⟨same.trans same', String.lt_trans value value'⟩

theorem precedes_of_not (apart : ¬n.precedes a b = true) (different : a ≠ b) : n.precedes b a = true := by
  rw [precedes_iff, not_or, not_and] at apart
  obtain ⟨key, value⟩ := apart
  rw [precedes_iff]
  by_cases same : a.1 = b.1
  · refine .inr ⟨same.symm, lt_of_not_lt_of_ne (value same) fun texts => different ?_⟩
    exact Prod.ext same (ValueType.render_expr_injective texts)
  · exact .inl (lt_of_not_lt_of_ne key same)

/-! ### Pairs of an entity -/

theorem mem_insertPair {pair : String × ValueType} {pairs : List (String × ValueType)} :
    a ∈ n.insertPair pair pairs ↔ a = pair ∨ a ∈ pairs := by
  induction pairs with
  | nil => exact List.mem_singleton.trans (by simp)
  | cons p rest ih =>
    unfold insertPair
    split
    · exact List.mem_cons
    · split
      next same => simp [same]
      · rw [List.mem_cons, ih, List.mem_cons]
        exact or_left_comm

theorem insertPair_ordered {pair : String × ValueType} {pairs : List (String × ValueType)}
    (ordered : pairs.Pairwise fun a b => n.precedes a b = true) :
    (n.insertPair pair pairs).Pairwise fun a b => n.precedes a b = true := by
  induction pairs with
  | nil => exact List.pairwise_singleton _ _
  | cons p rest ih =>
    obtain ⟨first, tail⟩ := List.pairwise_cons.mp ordered
    unfold insertPair
    split
    next before =>
      refine List.pairwise_cons.mpr ⟨fun other listed => ?_, ordered⟩
      rcases List.mem_cons.mp listed with rfl | listed
      · exact before
      · exact precedes_trans before (first other listed)
    next apart =>
      split
      · exact ordered
      next different =>
        refine List.pairwise_cons.mpr ⟨fun other listed => ?_, ih tail⟩
        rcases mem_insertPair.mp listed with rfl | listed
        · exact precedes_of_not apart different
        · exact first other listed

theorem mem_pairs {pair : String × ValueType} : pair ∈ n.pairs entity ↔ Attribute.Offers n.attributes entity pair := by
  have folded (attributes : List Attribute) :
      pair ∈ attributes.foldr (fun a => n.insertPair (a.key, .ofKind a.kind)) [] ↔
        ∃ a ∈ attributes, a.pair = pair := by
    induction attributes with
    | nil => simp
    | cons a rest ih =>
      rw [List.foldr_cons, mem_insertPair, ih]
      simp only [List.mem_cons, exists_eq_or_imp]
      exact or_congr_left eq_comm
  rw [pairs, folded]
  simp only [applicable, List.mem_filter, Attribute.Offers, and_assoc]

theorem pairs_ordered (n : Narrowing) (entity : String) :
    (n.pairs entity).Pairwise fun a b => n.precedes a b = true := by
  unfold pairs
  induction n.applicable entity with
  | nil => exact List.Pairwise.nil
  | cons a rest ih => exact insertPair_ordered ih

/-- In ascending order a set of pairs has one list. -/
theorem ordered_ext {pairs pairs' : List (String × ValueType)}
    (ordered : pairs.Pairwise fun a b => n.precedes a b = true)
    (ordered' : pairs'.Pairwise fun a b => n.precedes a b = true) (same : ∀ pair, pair ∈ pairs ↔ pair ∈ pairs') :
    pairs = pairs' := by
  have irreflexive : Std.Irrefl fun a b => n.precedes a b = true := ⟨precedes_irrefl⟩
  have antisymmetric : Std.Antisymm fun a b => n.precedes a b = true :=
    ⟨fun a b first second => absurd (precedes_trans first second) (precedes_irrefl a)⟩
  exact ordered.eq_of_mem_iff ordered' same

theorem pairs_ext {n' : Narrowing} {entity' : String} (element : n.element = n'.element)
    (same : ∀ pair, Attribute.Offers n.attributes entity pair ↔ Attribute.Offers n'.attributes entity' pair) :
    n.pairs entity = n'.pairs entity' := by
  have order : n'.precedes = n.precedes := by
    funext a b
    unfold precedes
    rw [element]
  have ordered := pairs_ordered n' entity'
  rw [order] at ordered
  refine ordered_ext (pairs_ordered n entity) ordered fun pair => ?_
  rw [mem_pairs, mem_pairs, same]

/-! ### Sorting all pairs -/

/-- A pair for each attribute that applies, sorted by key and written value type, and then without the pairs that
repeat the one in front of them. -/
def sortedPairs (n : Narrowing) (entity : String) : List (String × ValueType) :=
  (((n.applicable entity).map Attribute.pair).mergeSort fun a b => !n.precedes b a).destutter (· ≠ ·)

theorem mem_destutter {α : Type} [DecidableEq α] {a : α} {l : List α} : a ∈ l.destutter (· ≠ ·) ↔ a ∈ l := by
  have behind (last : α) (rest : List α) : a ∈ rest.destutter' (· ≠ ·) last ↔ a = last ∨ a ∈ rest := by
    induction rest generalizing last with
    | nil => simp
    | cons next rest ih =>
      by_cases repeated : last = next
      · subst repeated
        rw [List.destutter'_cons_neg _ (not_not.mpr rfl), ih, List.mem_cons, or_self_left]
      · rw [List.destutter'_cons_pos _ repeated, List.mem_cons, ih, List.mem_cons]
  cases l with
  | nil => rfl
  | cons first rest => rw [List.destutter_cons', behind, List.mem_cons]

theorem mem_sortedPairs {pair : String × ValueType} :
    pair ∈ n.sortedPairs entity ↔ Attribute.Offers n.attributes entity pair := by
  rw [sortedPairs, mem_destutter, List.mem_mergeSort, List.mem_map]
  simp only [applicable, List.mem_filter, Attribute.Offers, and_assoc]

theorem sortedPairs_ordered (n : Narrowing) (entity : String) :
    (n.sortedPairs entity).Pairwise fun a b => n.precedes a b = true := by
  have sorted : (((n.applicable entity).map Attribute.pair).mergeSort fun a b => !n.precedes b a).Pairwise
      fun a b => (!n.precedes b a) = true := by
    refine List.pairwise_mergeSort (fun a b c first second => ?_) (fun a b => ?_) _
    · simp only [Bool.not_eq_true', ← Bool.not_eq_true] at *
      intro after
      by_cases same : b = a
      · exact second (same ▸ after)
      · exact second (precedes_trans after (precedes_of_not first same))
    · simp only [Bool.or_eq_true, Bool.not_eq_true', ← Bool.not_eq_true]
      exact not_and_or.mp fun both => precedes_irrefl b (precedes_trans both.1 both.2)
  have ascending : (n.sortedPairs entity).Pairwise fun a b => (!n.precedes b a) = true :=
    sorted.sublist (List.destutter_sublist _ _)
  have apart : (n.sortedPairs entity).IsChain (· ≠ ·) := List.isChain_destutter _ _
  have transitive : Trans (fun a b => n.precedes a b = true) (fun a b => n.precedes a b = true)
      (fun a b => n.precedes a b = true) := ⟨precedes_trans⟩
  -- Neighbours are in order and differ, so they are in strict order, and this passes on to all pairs.
  refine List.IsChain.pairwise (List.isChain_iff_getElem.mpr fun i within => ?_)
  have order := List.pairwise_iff_getElem.mp ascending i (i + 1) (by omega) within (by omega)
  simp only [Bool.not_eq_true', ← Bool.not_eq_true] at order
  exact precedes_of_not order (List.isChain_iff_getElem.mp apart i within).symm

theorem pairs_eq_sorted (n : Narrowing) (entity : String) : n.pairs entity = n.sortedPairs entity :=
  ordered_ext (pairs_ordered n entity) (sortedPairs_ordered n entity) fun _ => mem_pairs.trans mem_sortedPairs.symm

theorem member_congr {n' : Narrowing} (element : n.element = n'.element) : n.member = n'.member := by
  funext pair
  unfold member
  rw [element]

theorem fieldType_congr {n' : Narrowing} {entity' : String} (element : n.element = n'.element)
    (same : n.pairs entity = n'.pairs entity') : n.fieldType entity = n'.fieldType entity' := by
  rw [fieldType, fieldType, same, member_congr element]

end Narrowing

end TypeScript

end EntityTypings
