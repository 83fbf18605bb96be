import EntityTypings.NameTable

/-!
# JSON values

An object is the list of its members. Objects that were read have their names in ascending order, the
last of two members with one name standing for both (`Value.ofPairs`).
-/

namespace EntityTypings.Json

/-- Integers are exact where they fit 64 bits, signed or unsigned; other numbers are doubles. -/
inductive Number where
  | int (n : Int)
  | float (x : Float)

inductive Value where
  | null
  | bool (b : Bool)
  | num (n : Number)
  | str (s : String)
  | arr (items : List Value)
  | obj (members : List (String × Value))

instance : Inhabited Value := ⟨.null⟩

/-- The object with these members, given in the order they were met. -/
def Value.ofPairs (pairs : List (String × Value)) : Value :=
  .obj (NameTable.ofList pairs).entries

end EntityTypings.Json
