import EntityTypings.Proofs.Inheritance.Catalog
import EntityTypings.Proofs.Inheritance.Chain
import EntityTypings.Proofs.Schema.Consistency
import Mathlib.Logic.Relation

/-!
# Cycles of inheritance

The check of a listing looks at one reference at a time and lets cycles pass. An interface has at most one
base, and the other edges all lead to the typed context, so that a consistent listing is free of cycles
exactly if every chain of bases ends and that of the typed context meets no alias: `acyclic_iff`.
-/

namespace EntityTypings

open Relation

/-- The id of the schema whose declaration is extended. -/
def Parent.schemaId : Parent → String
  | .base id => id
  | .typedContext => Dialect.typedContext

namespace Catalog

/-- The interface of one entry extends that of another. -/
def Extends (c : Catalog) (a b : CatalogEntry) : Prop :=
  a ∈ c.entries ∧ ∃ parent ∈ a.parents, c.find? parent.schemaId = some b

/-- The entry of the base that the interface of an entry extends. -/
def baseOf? (c : Catalog) (e : CatalogEntry) : Option CatalogEntry := e.base?.bind c.find?

variable {schemas : List EntitySchema} {a b e x : CatalogEntry}

/-! ### The edges -/

theorem extends_iff : (ofSchemas schemas).Extends a b ↔ a ∈ (ofSchemas schemas).entries ∧
    ((ofSchemas schemas).baseOf? a = some b ∨
      a.isAlias = true ∧ (ofSchemas schemas).typedContext? = some b) := by
  refine and_congr_right fun listed => ?_
  constructor
  · rintro ⟨parent, extended, found⟩
    cases parent with
    | base id => exact .inl (Option.bind_eq_some_iff.mpr ⟨id, (base?_eq_some listed).mpr extended, found⟩)
    | typedContext => exact .inr ⟨isAlias_iff.mpr extended, found⟩
  · rintro (based | ⟨specialises, found⟩)
    · obtain ⟨id, base, found⟩ := Option.bind_eq_some_iff.mp based
      exact ⟨.base id, (base?_eq_some listed).mp base, found⟩
    · exact ⟨.typedContext, isAlias_iff.mp specialises, found⟩

theorem baseOf?_listed {c : Catalog} (based : c.baseOf? a = some b) : b ∈ c.entries := by
  obtain ⟨_, _, found⟩ := Option.bind_eq_some_iff.mp based
  exact (find?_eq_some found).1

theorem chain_listed {c : Catalog} {n : Nat} (listed : a ∈ c.entries)
    (reached : after? c.baseOf? n a = some b) : b ∈ c.entries :=
  after?_mem (fun _ _ _ => baseOf?_listed) listed reached

/-- A consistent listing has every base that a schema asks for. -/
theorem baseOf?_eq_none (consistent : ConsistentListing schemas) (listed : e ∈ (ofSchemas schemas).entries) :
    (ofSchemas schemas).baseOf? e = none ↔ e.schema.mixin = none := by
  obtain ⟨s, member, rfl⟩ := List.mem_map.mp listed
  cases mixin : s.mixin with
  | none =>
    have no_base : CatalogEntry.base? ⟨s, parentsIn schemas s⟩ = none := by
      refine Option.eq_none_iff_forall_ne_some.mpr fun id base => ?_
      have extended := base_mem_parentsIn.mp ((base?_eq_some listed).mp base)
      cases mixin.symm.trans extended.1
    simp [baseOf?, no_base]
  | some target =>
    have known : target ∈ listedIds schemas := (consistent.closed s member).mixin target mixin
    obtain ⟨base, found⟩ := found_iff_listed.mpr known
    have extended := (base?_eq_some listed).mpr (base_mem_parentsIn.mpr ⟨mixin, known⟩)
    simp [baseOf?, extended, found]

/-! ### Paths -/

theorem extends_of_chain {n : Nat} (listed : a ∈ (ofSchemas schemas).entries)
    (reached : after? (ofSchemas schemas).baseOf? (n + 1) a = some b) :
    TransGen (ofSchemas schemas).Extends a b := by
  induction n generalizing b with
  | zero =>
    obtain ⟨next, based, same⟩ := Option.bind_eq_some_iff.mp reached
    obtain rfl := Option.some.inj same
    exact .single (extends_iff.mpr ⟨listed, .inl based⟩)
  | succ n ih =>
    rw [after?_succ] at reached
    obtain ⟨before, reached, based⟩ := Option.bind_eq_some_iff.mp reached
    exact .tail (ih reached) (extends_iff.mpr ⟨chain_listed listed reached, .inl based⟩)

/-- A path goes through bases alone, or it leaves them at an alias and ends on the chain of the typed
context. -/
theorem chain_of_extends (path : TransGen (ofSchemas schemas).Extends a b) :
    (∃ n, after? (ofSchemas schemas).baseOf? (n + 1) a = some b) ∨
      ∃ t, (ofSchemas schemas).typedContext? = some t ∧
        (∃ n, after? (ofSchemas schemas).baseOf? n t = some b) ∧
        ∃ n x, after? (ofSchemas schemas).baseOf? n a = some x ∧ x.isAlias = true := by
  induction path with
  | single edge =>
    rcases (extends_iff.mp edge).2 with based | ⟨specialises, found⟩
    · exact .inl ⟨0, by simp [after?, based]⟩
    · exact .inr ⟨_, found, ⟨0, rfl⟩, 0, a, rfl, specialises⟩
  | tail _ edge ih =>
    rcases (extends_iff.mp edge).2 with based | ⟨specialises, found⟩
    · rcases ih with ⟨n, reached⟩ | ⟨t, typed, ⟨n, reached⟩, left⟩
      · exact .inl ⟨n + 1, by rw [after?_succ, reached]; exact based⟩
      · exact .inr ⟨t, typed, ⟨n + 1, by rw [after?_succ, reached]; exact based⟩, left⟩
    · rcases ih with ⟨n, reached⟩ | ⟨_, _, _, left⟩
      · exact .inr ⟨_, found, ⟨0, rfl⟩, n + 1, _, reached, specialises⟩
      · exact .inr ⟨_, found, ⟨0, rfl⟩, left⟩

/-! ### Cycles -/

/-- Without cycles each chain of bases ends, and at a schema that asks for no base. -/
theorem chain_ends_of_acyclic (consistent : ConsistentListing schemas)
    (acyclic : ∀ e, ¬TransGen (ofSchemas schemas).Extends e e) (listed : e ∈ (ofSchemas schemas).entries) :
    ∃ n < schemas.length, ∃ x, after? (ofSchemas schemas).baseOf? n e = some x ∧
      x.schema.mixin = none := by
  have size : (ofSchemas schemas).entries.length = schemas.length := List.length_map _
  rcases chain_ends_or_repeats (fun _ _ _ => baseOf?_listed) listed with
    ⟨n, bound, x, reached, ended⟩ | ⟨m, n, x, earlier, first, second⟩
  · have last := chain_listed listed reached
    exact ⟨n, size ▸ bound, x, reached, (baseOf?_eq_none consistent last).mp ended⟩
  · have member := chain_listed listed first
    have between : after? (ofSchemas schemas).baseOf? (n - m - 1 + 1) x = some x := by
      rw [show n = m + (n - m - 1 + 1) by omega, after?_add, first] at second
      exact second
    exact absurd (extends_of_chain member between) (acyclic x)

theorem plain_of_acyclic (acyclic : ∀ e, ¬TransGen (ofSchemas schemas).Extends e e) {t : CatalogEntry}
    {n : Nat} (typed : (ofSchemas schemas).typedContext? = some t)
    (reached : after? (ofSchemas schemas).baseOf? n t = some x) : x.isAlias = false := by
  have entry := (find?_eq_some typed).1
  have member := chain_listed entry reached
  apply Bool.eq_false_iff.mpr
  intro specialises
  have back := extends_iff.mpr ⟨member, .inr ⟨specialises, typed⟩⟩
  cases n with
  | zero =>
    obtain rfl := Option.some.inj reached
    exact acyclic t (.single back)
  | succ n => exact acyclic t (.tail (extends_of_chain entry reached) back)

/-- A consistent listing is free of cycles exactly if each chain of bases arrives at a schema without a
mixin, and no schema on the chain of the typed context is an alias. -/
theorem acyclic_iff (consistent : checkListing schemas = .ok ()) :
    (∀ e, ¬TransGen (ofSchemas schemas).Extends e e) ↔
      (∀ e ∈ (ofSchemas schemas).entries, ∃ n < schemas.length, ∃ x,
        after? (ofSchemas schemas).baseOf? n e = some x ∧ x.schema.mixin = none) ∧
      ∀ t n x, (ofSchemas schemas).typedContext? = some t →
        after? (ofSchemas schemas).baseOf? n t = some x → x.isAlias = false := by
  have listing := checkListing_eq_ok.mp consistent
  constructor
  · intro acyclic
    exact ⟨fun _ listed => chain_ends_of_acyclic listing acyclic listed,
      fun _ _ _ typed reached => plain_of_acyclic acyclic typed reached⟩
  · rintro ⟨ending, plain⟩ e cycle
    obtain ⟨_, edge, _⟩ := TransGen.head'_iff.mp cycle
    have listed : e ∈ (ofSchemas schemas).entries := edge.1
    obtain ⟨n, _, x, reached, bare⟩ := ending e listed
    have ended := (baseOf?_eq_none listing (chain_listed listed reached)).mpr bare
    rcases chain_of_extends cycle with ⟨k, back⟩ | ⟨t, typed, ⟨m, above⟩, k, y, further, specialises⟩
    · exact never_back_of_ended reached ended k back
    · -- Round such a cycle, the alias at which it leaves the bases lies on the chain of the typed context.
      have onward : after? (ofSchemas schemas).baseOf? (m + k) t = some y := by
        rw [after?_add, above]
        exact further
      rw [plain t (m + k) y typed onward] at specialises
      cases specialises

end Catalog

theorem layered_acyclic : checkListing layered = .ok () ∧
    ∀ e, ¬TransGen (Catalog.ofSchemas layered).Extends e e := by
  have consistent : checkListing layered = .ok () := rfl
  refine ⟨consistent, (Catalog.acyclic_iff consistent).mpr ⟨?_, ?_⟩⟩
  · intro e listed
    obtain ⟨index, bound, rfl⟩ := List.mem_iff_getElem.mp listed
    rcases index with _ | _ | _ | index
    · exact ⟨0, by decide, _, rfl, rfl⟩
    · exact ⟨1, by decide, _, rfl, rfl⟩
    · exact ⟨0, by decide, _, rfl, rfl⟩
    · exact absurd bound (by simp [Catalog.ofSchemas, layered])
  · intro t n x typed reached
    obtain rfl := Option.some.inj typed
    rcases n with _ | _ | n
    · obtain rfl := Option.some.inj reached
      rfl
    · obtain rfl := Option.some.inj reached
      rfl
    · have ended : none = some x := reached
      cases ended

/-- A schema that is its own mixin. -/
def selfMixed : List EntitySchema := [{ EntitySchema.named "Context" with mixin := some "Context" }]

/-- A consistent listing may have an interface that extends itself. -/
theorem consistent_cycle : checkListing selfMixed = .ok () ∧
    ∃ e, TransGen (Catalog.ofSchemas selfMixed).Extends e e := by
  have context := List.mem_of_getElem? (show (Catalog.ofSchemas selfMixed).entries[0]? = some _ from rfl)
  exact ⟨rfl, _, .single ⟨context, .base "Context", by decide, rfl⟩⟩

end EntityTypings
