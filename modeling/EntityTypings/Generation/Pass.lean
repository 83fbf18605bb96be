import EntityTypings.Generation.Notice
import EntityTypings.Listing
import EntityTypings.Schema.Consistency
import EntityTypings.TypeScript.Registry

/-!
# Passes

A pass declares one interface for each entry of a catalog and then what stands over the whole listing. It
stops at the first hard failure, and then has no output.
-/

namespace EntityTypings

open TypeScript

/-- Why a file's content is no text. -/
inductive Unreadable where
  | noFile
  | notUtf8
  deriving DecidableEq, Repr

def Unreadable.message : Unreadable → String
  | .noFile => "No such file or directory (os error 2)"
  | .notUtf8 => "stream did not contain valid UTF-8"

inductive Failure where
  | unreadable (reason : Unreadable)
  | listing (error : ListingError)
  | inconsistent (reason : Inconsistency)
  | mapping (failure : MappingFailure)

def Failure.message : Failure → String
  | .unreadable reason => "IO error: " ++ reason.message
  | .listing error => "schema parse error: " ++ error.message
  | .inconsistent reason => "schema error: " ++ reason.message
  | .mapping failure => failure.message

/-- What a pass told, and how it ended. -/
structure Pass where
  notices : List Notice
  result : Except Failure Output

namespace Job

/-- The reports of the entries, by position. -/
def reports (j : Job) : List Report := j.catalog.entries.mapIdx j.report

/-- The output before the first declaration. -/
def opening (j : Job) : Output :=
  { Output.empty with code := (j.settings.banner.map Banner.render).getD "" }

/-- Adds the declarations over the whole listing. -/
def close (j : Job) (o : Output) : Output :=
  let o := match subtypeUnion? j.catalog with
    | none => o
    | some block => o.pushCode block
  match if j.settings.emitEntityTypeMap then entityTypeMap? o.interfaces else none with
  | none => o
  | some block => o.pushCode block

/-- The output of a pass all of whose reports succeeded. -/
def output (j : Job) : Output := j.close (j.reports.foldl Output.record j.opening)

end Job

/-- The first failure among reports. -/
def firstFailure? : List Report → Option MappingFailure
  | [] => none
  | r :: rs =>
    match r.result with
    | .error failure => some failure
    | .ok _ => firstFailure? rs

/-- The reports up to the first that failed, and that one. -/
def untilFailure : List Report → List Report
  | [] => []
  | r :: rs =>
    match r.result with
    | .error _ => [r]
    | .ok _ => r :: untilFailure rs

namespace Job

/-- The pass over a catalog that is not empty and need not be consistent. -/
def runLenient (j : Job) : Pass :=
  let told := (untilFailure j.reports).flatMap Report.notices
  match firstFailure? j.reports with
  | some failure => ⟨told, .error (.mapping failure)⟩
  | none =>
    let o := j.output
    ⟨told ++ [.finished o.interfaces.length j.catalog.entries.length o.errors.length], .ok o⟩

def run (j : Job) : Pass :=
  if j.catalog.entries.isEmpty then
    ⟨[.softError .noSchemas], .ok (Output.empty.pushError .noSchemas)⟩
  else if j.settings.strict then
    match checkListing j.catalog.schemas with
    | .error reason => ⟨[], .error (.inconsistent reason)⟩
    | .ok () => j.runLenient
  else j.runLenient

end Job

/-- The declarations of a listing. -/
def generate (schemas : List EntitySchema) (attributes : List Attribute) (settings : Settings) :
    Except Failure Output :=
  (Job.mk (.ofSchemas schemas) attributes settings).run.result

/-- The declarations of listings in JSON, with standard settings. -/
def generateFromText (schemas attributes : String) : Except Failure Output := do
  let schemas ← (readSchemas schemas).mapError .listing
  let attributes ← (readAttributes attributes).mapError .listing
  generate schemas attributes .standard

/-- What reading a file gave; `none` if there is no file. -/
abbrev FileContent := Option ByteArray

def FileContent.text (content : FileContent) : Except Unreadable String :=
  match content with
  | none => .error .noFile
  | some bytes =>
    match String.fromUTF8? bytes with
    | none => .error .notUtf8
    | some text => .ok text

/-- The declarations of listings in files. Both files are read before either is looked into. -/
def generateFromFiles (schemas : FileContent) (attributes : Option FileContent) :
    Except Failure Output := do
  let schemas ← schemas.text.mapError .unreadable
  let attributes ← match attributes with
    | none => pure "[]"
    | some content => content.text.mapError .unreadable
  generateFromText schemas attributes

end EntityTypings
