import EntityTypings.Settings.Timestamp

/-!
# Settings

What a pass is asked for besides its listings, and the banner that tells where declarations come from.
-/

namespace EntityTypings

/-- A comment ahead of the declarations. -/
structure Banner where
  product : String
  serverVersion : Option String
  generatedAt : Option Timestamp
  deriving DecidableEq, Repr

/-- The lines of a banner, and the blank line after them. -/
def Banner.render (b : Banner) : String :=
  "// " ++ b.product ++ " entity types\n" ++
    ((b.serverVersion.map fun version => "// Server version: " ++ version ++ "\n").getD "") ++
    ((b.generatedAt.map fun time => "// Generated at: " ++ time.render ++ "\n").getD "") ++
    "// Do not edit by hand; regenerate from the server schema.\n\n"

structure Settings where
  banner : Option Banner
  /-- Whether properties get doc comments. -/
  emitDocs : Bool
  emitEntityTypeMap : Bool
  /-- Whether an inconsistent listing is refused. -/
  strict : Bool
  deriving DecidableEq, Repr

def Settings.standard : Settings := ⟨none, true, true, false⟩

end EntityTypings
