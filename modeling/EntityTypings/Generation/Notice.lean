import EntityTypings.Generation.Report
import EntityTypings.Text.Escaped

/-!
# Notices

What a pass tells about its course, in the order of events.
-/

namespace EntityTypings

inductive Level where
  | warn
  | info
  | debug
  deriving DecidableEq, Repr

inductive Notice where
  | softError (error : SoftError)
  /-- A mixin that the listing lacks. -/
  | missingMixin (id : Option String) (mixin : String)
  /-- An interface that extends a base and specialises the typed context. -/
  | dual (id : String)
  | declared (id : String)
  | finished (interfaces schemas errors : Nat)
  deriving DecidableEq, Repr

namespace Notice

def level : Notice → Level
  | .declared _ => .debug
  | .finished .. => .info
  | _ => .warn

/-- An optional id as a message shows it. -/
def shownId : Option String → String
  | none => "None"
  | some id => "Some(" ++ Text.shown id ++ ")"

def message : Notice → String
  | .softError error => error.message
  | .missingMixin id mixin =>
    "Schema " ++ shownId id ++ " extends unknown schema '" ++ mixin ++ "', ignoring mixin"
  | .dual id =>
    "Schema '" ++ id ++ "' both extends a mixin and aliases " ++ Dialect.aliasedEntity ++
      ", emitting both"
  | .declared id => "Generated interface " ++ id
  | .finished interfaces schemas errors =>
    "Generated " ++ toString interfaces ++ " interfaces from " ++ toString schemas ++ " schemas (" ++
      toString errors ++ " errors)"

end Notice

/-- The notices of making a catalog. -/
def catalogNotices (schemas : List EntitySchema) : List Notice :=
  schemas.filterMap fun s => (missingMixin? schemas s).map (.missingMixin s.id?)

def Report.notices (r : Report) : List Notice :=
  r.skipped.map .softError ++
    match r.result with
    | .ok (some i) => (if Parent.isDual i.parents then [.dual i.id] else []) ++ [.declared i.id]
    | _ => []

end EntityTypings
