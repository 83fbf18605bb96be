import EntityTypings.TypeScript.Interface

/-!
# Texts of interfaces

The text of an interface spelled out, from its header to its last line: `Interface.render_eq`. Any of its members
stands between those in front of it and those behind it: `Interface.render_split`.
-/

namespace EntityTypings.TypeScript

/-! ### Headers -/

theorem TypeExpr.render_generic (name : String) (ts : List TypeExpr) :
    (TypeExpr.generic name ts).render = name ++ "<" ++ ", ".intercalate (ts.map TypeExpr.render) ++ ">" := by
  rw [TypeExpr.render, renderEach_eq_map]

theorem TypeExpr.render_without_metaMembers (t : TypeExpr) :
    (t.without Dialect.metaMembers).render = "Omit<" ++ t.render ++ ", \"__entity_type__\" | \"__permissions\">" := by
  have keys : (TypeExpr.union (Dialect.metaMembers.map .literal)).render =
      "\"__entity_type__\" | \"__permissions\"" := by decide
  rw [without, render_generic, List.map_cons, List.map_singleton, keys, String.intercalate_cons_cons,
    String.intercalate_singleton, show "Omit<" = "Omit" ++ "<" from rfl,
    show ", \"__entity_type__\" | \"__permissions\">" =
      ", " ++ ("\"__entity_type__\" | \"__permissions\"" ++ ">") from rfl]
  simp only [String.append_assoc]

/-- The name by which an interface with this id extends a parent. -/
def parentName (id : String) : Parent → String
  | .base base => base
  | .typedContext => "TypedContext<" ++ quote id ++ ">"

theorem parentType_render (id : String) (parent : Parent) : (parentType id parent).render =
    "Omit<" ++ parentName id parent ++ ", \"__entity_type__\" | \"__permissions\">" := by
  cases parent with
  | base base => exact (TypeExpr.reference base).render_without_metaMembers
  | typedContext =>
    have extended : (TypeExpr.generic Dialect.typedContext [.literal id]).render = parentName id .typedContext := by
      rw [TypeExpr.render_generic, List.map_singleton, String.intercalate_singleton]
      rfl
    rw [← extended]
    exact TypeExpr.render_without_metaMembers _

theorem omit_typedContext (id : String) :
    "Omit<" ++ parentName id .typedContext ++ ", \"__entity_type__\" | \"__permissions\">" =
      "Omit<TypedContext<" ++ quote id ++ ">, \"__entity_type__\" | \"__permissions\">" := by
  rw [parentName, show "Omit<TypedContext<" = "Omit<" ++ "TypedContext<" from rfl,
    show ">, \"__entity_type__\" | \"__permissions\">" =
      ">" ++ ", \"__entity_type__\" | \"__permissions\">" from rfl]
  simp only [String.append_assoc]

theorem extendsClause_eq (id : String) (parents : List Parent) : extendsClause id parents =
    if parents = [] then "" else " extends " ++ ", ".intercalate (parents.map fun parent =>
      "Omit<" ++ parentName id parent ++ ", \"__entity_type__\" | \"__permissions\">") := by
  cases parents with
  | nil => rfl
  | cons parent rest =>
    simp only [extendsClause, parentType_render]
    rfl

theorem mem_intercalate (separator : String) {s : String} {parts : List String} (listed : s ∈ parts) :
    ∃ before after, separator.intercalate parts = before ++ s ++ after := by
  induction parts with
  | nil => exact absurd listed List.not_mem_nil
  | cons part rest ih =>
    by_cases last : rest = []
    · subst last
      obtain rfl := List.mem_singleton.mp listed
      exact ⟨"", "", by simp⟩
    · rw [String.intercalate_cons_of_ne_nil last]
      rcases List.mem_cons.mp listed with rfl | listed
      · exact ⟨"", separator ++ separator.intercalate rest, by simp [String.append_assoc]⟩
      · obtain ⟨before, after, split⟩ := ih listed
        exact ⟨part ++ separator ++ before, after, by rw [split]; simp only [String.append_assoc]⟩

theorem extendsClause_typedContext {id : String} {parents : List Parent} (extending : .typedContext ∈ parents) :
    ∃ before after, extendsClause id parents = before ++
      ("Omit<TypedContext<" ++ (TypeExpr.literal id).render ++ ">, \"__entity_type__\" | \"__permissions\">") ++
      after := by
  have listed : (parentType id .typedContext).render ∈ parents.map fun p => (parentType id p).render :=
    List.mem_map_of_mem extending
  obtain ⟨before, after, split⟩ := mem_intercalate ", " listed
  refine ⟨" extends " ++ before, after, ?_⟩
  cases parents with
  | nil => exact absurd extending List.not_mem_nil
  | cons parent rest =>
    rw [extendsClause, split, parentType_render, omit_typedContext, TypeExpr.render]
    · simp only [String.append_assoc]
    · exact List.cons_ne_nil _ _

theorem declarationName_eq (id : String) : declarationName id =
    if id = "TypedContext" then "TypedContext<K extends TypedContextSubtype = TypedContextSubtype>" else id := by
  unfold declarationName
  split
  next typed =>
    subst typed
    rfl
  next plain => exact (if_neg plain).symm

/-! ### Members -/

theorem renderMembers_append (members others : List Member) :
    renderMembers (members ++ others) = renderMembers members ++ renderMembers others := by
  rw [renderMembers, List.map_append, String.join_append]
  rfl

theorem renderMembers_cons (m : Member) (members : List Member) :
    renderMembers (m :: members) = m.render ++ renderMembers members := by
  rw [renderMembers, List.map_cons, String.join_cons]
  rfl

theorem Interface.render_eq (i : Interface) : i.render = "export interface " ++
    (if i.id = "TypedContext" then "TypedContext<K extends TypedContextSubtype = TypedContextSubtype>" else i.id) ++
    (if i.parents = [] then "" else " extends " ++ ", ".intercalate (i.parents.map fun parent =>
      "Omit<" ++ parentName i.id parent ++ ", \"__entity_type__\" | \"__permissions\">")) ++ " \x7b\n" ++
    String.join (i.members.map fun m => m.doc.getD "" ++ ("  " ++ (if m.readOnly then "readonly " else "") ++
      propertyKey m.name ++ (if m.required then "" else "?") ++ ": " ++ m.type.render ++ ";\n")) ++ "\x7d\n" := by
  unfold render
  rw [declarationName_eq, extendsClause_eq]
  rfl

theorem Interface.render_plain {i : Interface} (other : i.id ≠ "TypedContext") (parents : i.parents = []) :
    i.render = "export interface " ++ i.id ++ " \x7b\n" ++
      String.join (i.members.map fun m => m.doc.getD "" ++ ("  " ++ (if m.readOnly then "readonly " else "") ++
        propertyKey m.name ++ (if m.required then "" else "?") ++ ": " ++ m.type.render ++ ";\n")) ++ "\x7d\n" := by
  rw [render_eq, if_neg other, if_pos parents, String.append_empty]

theorem Interface.render_specialised {i : Interface} (other : i.id ≠ "TypedContext")
    (parents : i.parents = [.typedContext]) : i.render = "export interface " ++ i.id ++
      " extends Omit<TypedContext<" ++ quote i.id ++ ">, \"__entity_type__\" | \"__permissions\"> \x7b\n" ++
      String.join (i.members.map fun m => m.doc.getD "" ++ ("  " ++ (if m.readOnly then "readonly " else "") ++
        propertyKey m.name ++ (if m.required then "" else "?") ++ ": " ++ m.type.render ++ ";\n")) ++ "\x7d\n" := by
  have clause : (if i.parents = [] then "" else " extends " ++ ", ".intercalate (i.parents.map fun parent =>
      "Omit<" ++ parentName i.id parent ++ ", \"__entity_type__\" | \"__permissions\">")) =
      " extends Omit<TypedContext<" ++ quote i.id ++ ">, \"__entity_type__\" | \"__permissions\">" := by
    rw [parents, if_neg (List.cons_ne_nil _ _), List.map_singleton, String.intercalate_singleton, omit_typedContext,
      show " extends Omit<TypedContext<" = " extends " ++ "Omit<TypedContext<" from rfl]
    simp only [String.append_assoc]
  rw [render_eq, if_neg other, clause, show ">, \"__entity_type__\" | \"__permissions\"> \x7b\n" =
    ">, \"__entity_type__\" | \"__permissions\">" ++ " \x7b\n" from rfl]
  simp only [String.append_assoc]

/-- One of the members between the others. -/
theorem Interface.render_split {i : Interface} {earlier later : List Member} {m : Member}
    (split : i.members = earlier ++ m :: later) : i.render = "export interface " ++
    (if i.id = "TypedContext" then "TypedContext<K extends TypedContextSubtype = TypedContextSubtype>" else i.id) ++
    (if i.parents = [] then "" else " extends " ++ ", ".intercalate (i.parents.map fun parent =>
      "Omit<" ++ parentName i.id parent ++ ", \"__entity_type__\" | \"__permissions\">")) ++ " \x7b\n" ++
    (renderMembers earlier ++ (m.doc.getD "" ++ ("  " ++ (if m.readOnly then "readonly " else "") ++
      propertyKey m.name ++ (if m.required then "" else "?") ++ ": " ++ m.type.render ++ ";\n") ++
      renderMembers later)) ++ "\x7d\n" := by
  unfold render
  rw [declarationName_eq, extendsClause_eq, split, renderMembers_append, renderMembers_cons]
  rfl

/-- The header of a specialisation instantiates the typed context with the id. -/
theorem Interface.render_extending {i : Interface} (extending : .typedContext ∈ i.parents) :
    ∃ before after, i.render = before ++ ("TypedContext<" ++ quote i.id ++ ">") ++ after := by
  obtain ⟨before, after, clause⟩ := @extendsClause_typedContext i.id _ extending
  refine ⟨"export interface " ++ declarationName i.id ++ before ++ "Omit<",
    ", \"__entity_type__\" | \"__permissions\">" ++ after ++ " \x7b\n" ++ renderMembers i.members ++ "\x7d\n", ?_⟩
  unfold render
  rw [clause, TypeExpr.render, ← omit_typedContext, parentName]
  simp only [String.append_assoc]

end EntityTypings.TypeScript
