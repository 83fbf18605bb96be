/-!
# The first of several faults

Faults stand at places, and places are in order. `First` is the fault in front of all others, and `Finds` says that a
search ends with it. Searches one after another are a search for the whole: `Finds.orElse`, `Finds.findSome?`.
-/

namespace EntityTypings

variable {κ ε α : Type} {before : κ → κ → Prop} {faulty faulty' : κ → ε → Prop} {place : κ} {fault : ε}

/-- There is a fault at a place, and every other fault stands behind it. -/
structure First (before : κ → κ → Prop) (faulty : κ → ε → Prop) (place : κ) (fault : ε) : Prop where
  found : faulty place fault
  least : ∀ place' fault', faulty place' fault' → (place' = place ∧ fault' = fault) ∨ before place place'

/-- A search ends with the first fault, and with none only if there is none. -/
def Finds (before : κ → κ → Prop) (faulty : κ → ε → Prop) : Option ε → Prop
  | none => ∀ place fault, ¬faulty place fault
  | some fault => ∃ place, First before faulty place fault

theorem First.unique (asymm : ∀ {a b}, before a b → ¬before b a) {place' : κ} {fault' : ε}
    (first : First before faulty place fault) (first' : First before faulty place' fault') : fault = fault' := by
  rcases first.least place' fault' first'.found with ⟨_, same⟩ | behind
  · exact same.symm
  · rcases first'.least place fault first.found with ⟨_, same⟩ | behind'
    · exact same
    · exact absurd behind' (asymm behind)

namespace Finds

variable {result : Option ε}

theorem eq_none_iff (search : Finds before faulty result) :
    result = none ↔ ∀ place fault, ¬faulty place fault := by
  cases result with
  | none => exact ⟨fun _ => search, fun _ => rfl⟩
  | some fault =>
    obtain ⟨place, first⟩ := search
    exact ⟨nofun, fun faultless => absurd first.found (faultless place fault)⟩

theorem eq_some_iff (asymm : ∀ {a b}, before a b → ¬before b a) (search : Finds before faulty result) :
    result = some fault ↔ ∃ place, First before faulty place fault := by
  cases result with
  | none => exact ⟨nofun, fun ⟨place, first⟩ => absurd first.found (search place fault)⟩
  | some met =>
    obtain ⟨place, first⟩ := search
    constructor
    · intro same
      exact ⟨place, Option.some.inj same ▸ first⟩
    · rintro ⟨_, first'⟩
      rw [first.unique asymm first']

theorem congr (search : Finds before faulty result)
    (same : ∀ place fault, faulty place fault ↔ faulty' place fault) : Finds before faulty' result := by
  obtain rfl : faulty = faulty' := funext fun place => funext fun fault => propext (same place fault)
  exact search

/-- One test, whose result tells the place. -/
theorem single (at' : ε → κ) (result : Option ε) :
    Finds before (fun place fault => place = at' fault ∧ result = some fault) result := by
  cases result with
  | none =>
    rintro _ _ ⟨_, absent⟩
    cases absent
  | some fault =>
    refine ⟨at' fault, ⟨rfl, rfl⟩, ?_⟩
    rintro place fault' ⟨rfl, same⟩
    obtain rfl := Option.some.inj same
    exact .inl ⟨rfl, rfl⟩

/-- One search and, where it finds nothing, another one further on. -/
theorem orElse {first second : Option ε} (search : Finds before faulty first)
    (search' : first = none → Finds before faulty' second)
    (apart : ∀ {a e b e'}, faulty a e → faulty' b e' → before a b) :
    Finds before (fun place fault => faulty place fault ∨ faulty' place fault) (first.or second) := by
  cases first with
  | some fault =>
    obtain ⟨place, here, least⟩ := search
    refine ⟨place, .inl here, fun place' fault' other => ?_⟩
    rcases other with early | late
    · exact least place' fault' early
    · exact .inr (apart here late)
  | none => exact (search' rfl).congr fun place fault => (or_iff_right (search place fault)).symm

/-- A search through a list whose items have their places one behind the other. -/
theorem findSome? {items : List α} {f : α → Option ε} {faulty : α → κ → ε → Prop}
    (each : ∀ x ∈ items, Finds before (faulty x) (f x))
    (apart : items.Pairwise fun x y => ∀ {a e b e'}, faulty x a e → faulty y b e' → before a b) :
    Finds before (fun place fault => ∃ x ∈ items, faulty x place fault) (items.findSome? f) := by
  induction items with
  | nil =>
    rintro _ _ ⟨_, listed, _⟩
    exact absurd listed List.not_mem_nil
  | cons x rest ih =>
    obtain ⟨here, each⟩ := List.forall_mem_cons.mp each
    obtain ⟨front, apart⟩ := List.pairwise_cons.mp apart
    have split : (x :: rest).findSome? f = (f x).or (rest.findSome? f) := by
      rw [List.findSome?_cons]
      cases f x <;> rfl
    rw [split]
    refine (here.orElse (fun _ => ih each apart) ?_).congr fun place fault => ?_
    · rintro a e b e' early ⟨y, listed, late⟩
      exact front y listed early late
    · simp only [List.mem_cons, exists_eq_or_imp]

/-- A search through a list at whose later positions there are later places. -/
theorem findSome?_zipIdx {items : List α} {f : Nat → α → Option ε} {faulty : Nat → α → κ → ε → Prop}
    (each : ∀ i x, items[i]? = some x → Finds before (faulty i x) (f i x))
    (apart : ∀ {i j x y a e b e'}, i < j → faulty i x a e → faulty j y b e' → before a b) :
    Finds before (fun place fault => ∃ i x, items[i]? = some x ∧ faulty i x place fault)
      (items.zipIdx.findSome? fun x => f x.2 x.1) := by
  have search : Finds before (fun place fault => ∃ x ∈ items.zipIdx, faulty x.2 x.1 place fault)
      (items.zipIdx.findSome? fun x => f x.2 x.1) := by
    refine findSome? (fun x listed => each x.2 x.1 (List.mem_zipIdx_iff_getElem?.mp listed)) ?_
    refine List.pairwise_iff_getElem.mpr fun i j _ _ less _ _ _ _ early late => ?_
    rw [List.getElem_zipIdx, Nat.zero_add] at early late
    exact apart less early late
  refine search.congr fun place fault => ?_
  constructor
  · rintro ⟨⟨x, i⟩, listed, here⟩
    exact ⟨i, x, List.mem_zipIdx_iff_getElem?.mp listed, here⟩
  · rintro ⟨i, x, listed, here⟩
    exact ⟨(x, i), List.mem_zipIdx_iff_getElem?.mpr listed, here⟩

end Finds

theorem findSome?_zipIdx_fst (items : List α) (f : α → Option ε) :
    (items.zipIdx.findSome? fun x => f x.1) = items.findSome? f := by
  have mapped := List.findSome?_map (p := f) (f := Prod.fst) (l := items.zipIdx)
  rw [List.zipIdx_map_fst] at mapped
  exact mapped.symm

/-! ### Refusals -/

/-- What a check refuses with. -/
def refusal? {β : Type} : Except ε β → Option ε
  | .error reason => some reason
  | .ok _ => none

theorem refusal?_eq_some {β : Type} {check : Except ε β} : refusal? check = some fault ↔ check = .error fault := by
  cases check <;> simp [refusal?]

theorem refusal?_map {β γ : Type} (f : β → γ) (check : Except ε β) : refusal? (check.map f) = refusal? check := by
  cases check <;> rfl

theorem refusal?_andThen (first second : Except ε Unit) :
    refusal? (do first; second) = (refusal? first).or (refusal? second) := by
  cases first <;> rfl

theorem refusal?_forM (check : α → Except ε Unit) (items : List α) :
    refusal? (items.forM check) = items.findSome? fun x => refusal? (check x) := by
  induction items with
  | nil => rfl
  | cons x rest ih =>
    have unfolded : (x :: rest).forM check = (do check x; rest.forM check) := rfl
    rw [unfolded, refusal?_andThen, ih, List.findSome?_cons]
    cases refusal? (check x) <;> rfl

end EntityTypings
