import EntityTypings.NameTable
import Mathlib.Data.List.Induction

/-!
# Tables of listed names

`NameTable.ofList` keeps a listing that is in order as it is (`entries_ofList`), puts one whose names are distinct
in order (`ofList_perm`), adds nothing to a listing (`mem_ofList`), and of two entries with one name finds the later
(`lookup_ofList`). Names alone decide on the order, whatever stands under them (`ofList_mapValues`).
-/

namespace EntityTypings

variable {α : Type} {entries : List (String × α)} {e : String × α}

theorem insertNamed_of_above {name : String} (value : α) (above : ∀ e ∈ entries, e.1 < name) :
    insertNamed name value entries = entries ++ [(name, value)] := by
  induction entries with
  | nil => rfl
  | cons x rest ih =>
    obtain ⟨n, v⟩ := x
    obtain ⟨lt, above⟩ := List.forall_mem_cons.mp above
    rw [insertNamed, if_neg (String.lt_asymm lt), if_neg (String.ne_of_lt lt).symm, ih above, List.cons_append]

theorem insertNamed_perm {name : String} (value : α) (new : name ∉ entries.map Prod.fst) :
    (insertNamed name value entries).Perm ((name, value) :: entries) := by
  induction entries with
  | nil => exact List.Perm.refl _
  | cons x rest ih =>
    obtain ⟨n, v⟩ := x
    obtain ⟨different, new⟩ := List.ne_and_not_mem_of_not_mem_cons new
    rw [insertNamed, if_neg different]
    split
    · exact List.Perm.refl _
    · exact ((ih new).cons _).trans (List.Perm.swap _ _ _)

theorem insertNamed_mapValues {β : Type} (f : α → β) (name : String) (value : α) (entries : List (String × α)) :
    insertNamed name (f value) (entries.map fun e => (e.1, f e.2)) =
      (insertNamed name value entries).map fun e => (e.1, f e.2) := by
  induction entries with
  | nil => rfl
  | cons x rest ih =>
    obtain ⟨n, v⟩ := x
    rw [List.map_cons]
    unfold insertNamed
    split
    · rfl
    · split
      · rfl
      · rw [ih, List.map_cons]

/-- In an ascending listing the entries in front of one are those with lesser names. -/
theorem Ascending.front {passed rest : List (String × α)} {entry : String × α}
    (ascending : Ascending (passed ++ entry :: rest)) :
    (passed ++ entry :: rest).filter (·.1 < entry.1) = passed := by
  obtain ⟨_, behind, above⟩ := List.pairwise_append.mp ascending
  have before : passed.filter (·.1 < entry.1) = passed := by
    rw [List.filter_eq_self]
    exact fun x listed => decide_eq_true (above x listed entry List.mem_cons_self)
  have after : (entry :: rest).filter (·.1 < entry.1) = [] := by
    rw [List.filter_eq_nil_iff, List.forall_mem_cons]
    exact ⟨mt of_decide_eq_true (String.lt_irrefl _),
      fun x listed => mt of_decide_eq_true (String.lt_asymm ((List.pairwise_cons.mp behind).1 x listed))⟩
  rw [List.filter_append, before, after, List.append_nil]

namespace NameTable

theorem ofList_concat (entries : List (String × α)) (e : String × α) :
    ofList (entries ++ [e]) = (ofList entries).insert e.1 e.2 := by
  rw [ofList, List.foldl_append]
  rfl

theorem entries_ofList (ascending : Ascending entries) : (ofList entries).entries = entries := by
  induction entries using List.reverseRecOn with
  | nil => rfl
  | append_singleton entries e ih =>
    obtain ⟨front, _, above⟩ := List.pairwise_append.mp ascending
    rw [ofList_concat]
    show insertNamed e.1 e.2 (ofList entries).entries = entries ++ [e]
    rw [ih front]
    exact insertNamed_of_above e.2 fun x listed => above x listed e List.mem_cons_self

theorem eq_of_entries {t u : NameTable α} (same : t.entries = u.entries) : t = u := by
  cases t
  cases u
  cases same
  rfl

theorem ofList_entries (t : NameTable α) : ofList t.entries = t := eq_of_entries (entries_ofList t.ascending)

theorem mem_ofList (listed : e ∈ (ofList entries).entries) : e ∈ entries := by
  induction entries using List.reverseRecOn with
  | nil => cases listed
  | append_singleton entries x ih =>
    rw [ofList_concat] at listed
    rcases mem_insertNamed listed with rfl | earlier
    · exact List.mem_append_right _ List.mem_cons_self
    · exact List.mem_append_left _ (ih earlier)

theorem ofList_perm (distinct : (entries.map Prod.fst).Nodup) : (ofList entries).entries.Perm entries := by
  induction entries using List.reverseRecOn with
  | nil => exact List.Perm.refl _
  | append_singleton entries e ih =>
    rw [List.map_append] at distinct
    obtain ⟨earlier, -, apart⟩ := List.nodup_append.mp distinct
    have sorted := ih earlier
    have new : e.1 ∉ (ofList entries).entries.map Prod.fst := by
      rw [(sorted.map Prod.fst).mem_iff]
      exact fun listed => apart e.1 listed e.1 List.mem_cons_self rfl
    rw [ofList_concat]
    exact (insertNamed_perm e.2 new).trans ((sorted.cons e).trans (List.perm_append_singleton e entries).symm)

theorem ofList_mapValues {β : Type} (f : α → β) (entries : List (String × α)) :
    (ofList (entries.map fun e => (e.1, f e.2))).entries = (ofList entries).entries.map fun e => (e.1, f e.2) := by
  induction entries using List.reverseRecOn with
  | nil => rfl
  | append_singleton entries e ih =>
    rw [List.map_append, List.map_singleton, ofList_concat, ofList_concat]
    show insertNamed e.1 (f e.2) (ofList (entries.map fun e => (e.1, f e.2))).entries = _
    rw [ih]
    exact insertNamed_mapValues f e.1 e.2 _

theorem lookup_ofList (entries : List (String × α)) (name : String) :
    (ofList entries).lookup name = entries.reverse.lookup name := by
  induction entries using List.reverseRecOn with
  | nil => rfl
  | append_singleton entries e ih =>
    rw [ofList_concat, List.reverse_concat]
    by_cases same : name = e.1
    · rw [same, lookup_insert_self, lookup_cons_self]
    · rw [lookup_insert_other _ _ same, lookup_cons_of_ne _ _ same, ih]

end NameTable

end EntityTypings
