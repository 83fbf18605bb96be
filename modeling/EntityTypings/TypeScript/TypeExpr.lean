import EntityTypings.TypeScript.Literal

/-!
# Type expressions

The TypeScript types that declarations are made of, and their text.
-/

namespace EntityTypings.TypeScript

inductive Keyword where
  | string
  | number
  | boolean
  | unknown
  | any
  | object
  | never
  deriving DecidableEq, Repr

def Keyword.text : Keyword → String
  | .string => "string"
  | .number => "number"
  | .boolean => "boolean"
  | .unknown => "unknown"
  | .any => "any"
  | .object => "object"
  | .never => "never"

inductive TypeExpr where
  /-- A declared name. -/
  | reference (name : String)
  | keyword (k : Keyword)
  | literal (s : String)
  | array (item : TypeExpr)
  /-- A union; one without members is `never`. -/
  | union (members : List TypeExpr)
  | object (fields : List (String × TypeExpr))
  | record (key value : TypeExpr)
  | intersection (members : List TypeExpr)
  /-- A generic type with its arguments. -/
  | generic (name : String) (arguments : List TypeExpr)
  /-- The type of a member of another type. -/
  | indexed (owner : TypeExpr) (key : String)

namespace TypeExpr

def string : TypeExpr := .keyword .string

def number : TypeExpr := .keyword .number

def boolean : TypeExpr := .keyword .boolean

def unknown : TypeExpr := .keyword .unknown

/-- What a property of varying type may hold. -/
def varying : TypeExpr := .union [string, number, boolean, .array string]

/-- A type without some of its members. -/
def without (t : TypeExpr) (keys : List String) : TypeExpr :=
  .generic "Omit" [t, .union (keys.map .literal)]

def openRecord : TypeExpr := .record string (.keyword .any)

/-- A union that needs parentheses inside an intersection. -/
def isWideUnion : TypeExpr → Bool
  | .union (_ :: _ :: _) => true
  | _ => false

mutual

def render : TypeExpr → String
  | .reference name => name
  | .keyword k => k.text
  | .literal s => quote s
  | .array item => "Array<" ++ item.render ++ ">"
  | .union [] => "never"
  | .union (t :: ts) => " | ".intercalate (renderEach (t :: ts))
  | .object fields => "\x7b " ++ "; ".intercalate (renderFields fields) ++ " \x7d"
  | .record key value => "Record<" ++ key.render ++ ", " ++ value.render ++ ">"
  | .intersection ts => " & ".intercalate (renderOperands ts)
  | .generic name ts => name ++ "<" ++ ", ".intercalate (renderEach ts) ++ ">"
  | .indexed owner key => owner.render ++ "[" ++ quote key ++ "]"

def renderEach : List TypeExpr → List String
  | [] => []
  | t :: ts => t.render :: renderEach ts

def renderFields : List (String × TypeExpr) → List String
  | [] => []
  | (name, t) :: fields => (propertyKey name ++ ": " ++ t.render) :: renderFields fields

/-- The members of an intersection. -/
def renderOperands : List TypeExpr → List String
  | [] => []
  | t :: ts => (if t.isWideUnion then "(" ++ t.render ++ ")" else t.render) :: renderOperands ts

end

theorem renderEach_eq_map (ts : List TypeExpr) : renderEach ts = ts.map render := by
  induction ts with
  | nil => rfl
  | cons t ts ih => rw [renderEach, List.map_cons, ih]

theorem renderFields_eq_map (fields : List (String × TypeExpr)) :
    renderFields fields = fields.map fun f => propertyKey f.1 ++ ": " ++ f.2.render := by
  induction fields with
  | nil => rfl
  | cons f fields ih => rw [renderFields, List.map_cons, ih]

example : (TypeExpr.intersection [varying, number]).render =
    "(string | number | boolean | Array<string>) & number" := by decide

end TypeExpr

end EntityTypings.TypeScript
