/-!
# Declared types

The type names a property may declare. `ofName?_eq_some` says that names and types determine each other.
-/

namespace EntityTypings

inductive DeclaredType where
  | object
  | string
  | number
  | boolean
  | integer
  | variable
  | array
  | mappedArray
  deriving DecidableEq, Repr

namespace DeclaredType

def name : DeclaredType → String
  | .object => "object"
  | .string => "string"
  | .number => "number"
  | .boolean => "boolean"
  | .integer => "integer"
  | .variable => "variable"
  | .array => "array"
  | .mappedArray => "mapped_array"

def all : List DeclaredType :=
  [.object, .string, .number, .boolean, .integer, .variable, .array, .mappedArray]

def ofName? (name : String) : Option DeclaredType := all.find? (fun t => t.name == name)

/-- The types whose values hold items. -/
def isArrayLike : DeclaredType → Bool
  | .array | .mappedArray => true
  | _ => false

theorem ofName?_name (t : DeclaredType) : ofName? t.name = some t := by cases t <;> decide

theorem ofName?_eq_some {s : String} {t : DeclaredType} : ofName? s = some t ↔ t.name = s := by
  constructor
  · intro h
    simpa using List.find?_some h
  · rintro rfl
    exact ofName?_name t

theorem ofName?_eq_none {s : String} : ofName? s = none ↔ ∀ t : DeclaredType, t.name ≠ s := by
  rw [Option.eq_none_iff_forall_ne_some]
  exact forall_congr' fun t => not_congr ofName?_eq_some

end DeclaredType

end EntityTypings
