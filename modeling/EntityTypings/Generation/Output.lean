import EntityTypings.Generation.SoftError

/-!
# Outputs

The declarations made so far, the soft errors met, and the ids of the declared interfaces. Blocks of
code stand apart by a blank line.
-/

namespace EntityTypings

structure Output where
  code : String
  errors : List SoftError
  interfaces : List String
  deriving DecidableEq, Repr

/-- Whether a text ends with a blank line. -/
def endsBlank (s : String) : Bool := ['\n', '\n'].isSuffixOf s.toList

/-- What stands between a text and the block behind it. -/
def separator (code : String) : String := if code.isEmpty || endsBlank code then "" else "\n"

namespace Output

def empty : Output := ⟨"", [], []⟩

def pushError (o : Output) (e : SoftError) : Output := { o with errors := o.errors ++ [e] }

def pushErrors (o : Output) (es : List SoftError) : Output := { o with errors := o.errors ++ es }

def pushCode (o : Output) (block : String) : Output :=
  { o with code := o.code ++ separator o.code ++ block }

/-- Adds the declaration of an interface. -/
def pushDeclaration (o : Output) (id declaration : String) : Output :=
  { o.pushCode declaration with interfaces := o.interfaces ++ [id] }

def hasErrors (o : Output) : Bool := !o.errors.isEmpty

theorem pushErrors_nil (o : Output) : o.pushErrors [] = o := by simp [pushErrors]

theorem pushErrors_cons (o : Output) (e : SoftError) (es : List SoftError) :
    o.pushErrors (e :: es) = (o.pushError e).pushErrors es := by simp [pushErrors, pushError]

end Output

end EntityTypings
