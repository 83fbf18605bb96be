/-!
# Name tables

A finite map from names to values, listed in ascending name order. The order on names is the
lexicographic order of their code points. `Ascending.insertNamed` keeps the listing in order;
`NameTable.lookup_insert_self` and `NameTable.lookup_insert_other` say what an insertion does to
look-ups.
-/

namespace EntityTypings

/-- Puts a value under a name into an ascending listing; a value already under that name is replaced. -/
def insertNamed {α : Type} (name : String) (value : α) : List (String × α) → List (String × α)
  | [] => [(name, value)]
  | (n, v) :: rest =>
    if name < n then (name, value) :: (n, v) :: rest
    else if name = n then (name, value) :: rest
    else (n, v) :: insertNamed name value rest

/-- The names of a listing are strictly ascending. -/
def Ascending {α : Type} (entries : List (String × α)) : Prop :=
  entries.Pairwise (fun a b => a.1 < b.1)

theorem mem_insertNamed {α : Type} {name : String} {value : α} {entries : List (String × α)}
    {e : String × α} (h : e ∈ insertNamed name value entries) : e = (name, value) ∨ e ∈ entries := by
  induction entries with
  | nil => simpa [insertNamed] using h
  | cons x rest ih =>
    obtain ⟨n, v⟩ := x
    unfold insertNamed at h
    split at h
    · simpa using h
    · split at h
      · rcases List.mem_cons.mp h with rfl | h
        · exact .inl rfl
        · exact .inr (List.mem_cons_of_mem _ h)
      · rcases List.mem_cons.mp h with rfl | h
        · exact .inr List.mem_cons_self
        · exact (ih h).imp id (List.mem_cons_of_mem _)

theorem lt_of_not_lt_of_ne {a b : String} (h : ¬a < b) (ne : a ≠ b) : b < a := by
  by_cases lt : b < a
  · exact lt
  · exact absurd (String.le_antisymm (String.not_lt.mp lt) (String.not_lt.mp h)) ne

theorem Ascending.insertNamed {α : Type} {entries : List (String × α)} (h : Ascending entries)
    (name : String) (value : α) : Ascending (insertNamed name value entries) := by
  induction entries with
  | nil => exact List.pairwise_singleton _ _
  | cons x rest ih =>
    obtain ⟨n, v⟩ := x
    obtain ⟨below, tail⟩ := List.pairwise_cons.mp h
    unfold EntityTypings.insertNamed
    split
    · next lt =>
      refine List.pairwise_cons.mpr ⟨fun e he => ?_, h⟩
      rcases List.mem_cons.mp he with rfl | he
      · exact lt
      · exact String.lt_trans lt (below e he)
    · next notLt =>
      split
      · next eq => exact List.pairwise_cons.mpr ⟨fun e he => eq ▸ below e he, tail⟩
      · next ne =>
        refine List.pairwise_cons.mpr ⟨fun e he => ?_, ih tail⟩
        rcases mem_insertNamed he with rfl | he
        · exact lt_of_not_lt_of_ne notLt ne
        · exact below e he

theorem lookup_cons_self {α : Type} (name : String) (value : α) (rest : List (String × α)) :
    ((name, value) :: rest).lookup name = some value := by simp

theorem lookup_cons_of_ne {α : Type} {name key : String} (value : α) (rest : List (String × α))
    (different : key ≠ name) : ((name, value) :: rest).lookup key = rest.lookup key := by
  simp [List.lookup_cons, beq_false_of_ne different]

theorem lookup_insertNamed_self {α : Type} (name : String) (value : α) (entries : List (String × α)) :
    (insertNamed name value entries).lookup name = some value := by
  induction entries with
  | nil => exact lookup_cons_self _ _ _
  | cons x rest ih =>
    obtain ⟨n, v⟩ := x
    unfold insertNamed
    split
    · exact lookup_cons_self _ _ _
    · split
      · exact lookup_cons_self _ _ _
      · next ne => rw [lookup_cons_of_ne _ _ ne, ih]

theorem lookup_insertNamed_other {α : Type} {name key : String} (value : α)
    (entries : List (String × α)) (different : key ≠ name) :
    (insertNamed name value entries).lookup key = entries.lookup key := by
  induction entries with
  | nil => exact lookup_cons_of_ne _ _ different
  | cons x rest ih =>
    obtain ⟨n, v⟩ := x
    unfold insertNamed
    split
    · exact lookup_cons_of_ne _ _ different
    · split
      · next eq => subst eq; rw [lookup_cons_of_ne _ _ different, lookup_cons_of_ne _ _ different]
      · by_cases hn : key = n
        · subst hn; rw [lookup_cons_self, lookup_cons_self]
        · rw [lookup_cons_of_ne _ _ hn, lookup_cons_of_ne _ _ hn, ih]

/-- A finite map from names to values, listed in strictly ascending name order. -/
structure NameTable (α : Type) where
  entries : List (String × α)
  ascending : Ascending entries

namespace NameTable

def empty {α : Type} : NameTable α := ⟨[], List.Pairwise.nil⟩

instance {α : Type} : Inhabited (NameTable α) := ⟨empty⟩

def insert {α : Type} (t : NameTable α) (name : String) (value : α) : NameTable α :=
  ⟨insertNamed name value t.entries, t.ascending.insertNamed name value⟩

def lookup {α : Type} (t : NameTable α) (name : String) : Option α := t.entries.lookup name

def contains {α : Type} (t : NameTable α) (name : String) : Bool := (t.lookup name).isSome

/-- Collects named values; of two with one name the later stays. -/
def ofList {α : Type} (entries : List (String × α)) : NameTable α :=
  entries.foldl (fun t e => t.insert e.1 e.2) empty

theorem lookup_insert_self {α : Type} (t : NameTable α) (name : String) (value : α) :
    (t.insert name value).lookup name = some value :=
  lookup_insertNamed_self _ _ _

theorem lookup_insert_other {α : Type} (t : NameTable α) {name key : String} (value : α)
    (different : key ≠ name) : (t.insert name value).lookup key = t.lookup key :=
  lookup_insertNamed_other _ _ different

end NameTable

end EntityTypings
