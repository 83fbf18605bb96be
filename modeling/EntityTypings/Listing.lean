import EntityTypings.Attribute.Codec
import EntityTypings.Json.Reader
import EntityTypings.Schema.Codec

/-!
# Listings

A listing is a JSON list of objects, one for each entry. The earliest bad entry decides what is wrong
with it.
-/

namespace EntityTypings

open Json (Value Mismatch)

inductive ListingError where
  | json (error : Json.Error)
  | notList (entries : String)
  | entryNotObject (entries : String) (index : Nat)

def ListingError.message : ListingError → String
  | .json error => "JSON parsing error: " ++ error.message
  | .notList entries => "invalid schema structure: expected a JSON array of " ++ entries ++ " entries"
  | .entryNotObject entries index =>
    "invalid schema structure: " ++ entries ++ " entry at index " ++ toString index ++
      " is not an object"

namespace Listing

/-- Reads the entries of a listing from position `index` on. -/
def decodeEntries {α : Type} (entries : String) (decode : List (String × Value) → Except Mismatch α) :
    Nat → List Value → Except ListingError (List α)
  | _, [] => .ok []
  | index, .obj ms :: vs => do
    let entry ← (decode ms).mapError fun m => .json ⟨.mismatch m, none⟩
    let rest ← decodeEntries entries decode (index + 1) vs
    .ok (entry :: rest)
  | index, _ :: _ => .error (.entryNotObject entries index)

def decode {α : Type} (entries : String) (decodeEntry : List (String × Value) → Except Mismatch α) :
    Value → Except ListingError (List α)
  | .arr vs => decodeEntries entries decodeEntry 0 vs
  | _ => .error (.notList entries)

def read {α : Type} (entries : String) (decodeEntry : List (String × Value) → Except Mismatch α)
    (text : String) : Except ListingError (List α) := do
  let v ← (Value.read text).mapError .json
  decode entries decodeEntry v

end Listing

def readSchemas (text : String) : Except ListingError (List EntitySchema) :=
  Listing.read "schema" EntitySchema.ofMembers text

def readAttributes (text : String) : Except ListingError (List Attribute) :=
  Listing.read "custom attribute configuration" Attribute.ofMembers text

end EntityTypings
