import EntityTypings.Json.TextRecord
import EntityTypings.Settings.Basic
import EntityTypings.Settings.TimestampText

/-!
# Reading settings

Settings are a record that is read from text. All of its fields have standard values; a banner needs a
product.
-/

namespace EntityTypings

open Json (Stop Read TextField TextRecord)

def textTimestamp (s : List Char) : Except Stop (Read Timestamp) := do
  let (text, rest) ← Json.textString .timestamp s
  match Timestamp.read text with
  | .ok t => .ok (t, rest)
  | .error fault => Json.mismatchAt (.refused fault.message) rest

namespace Banner

/-- The fields of a banner that have been read. -/
structure Draft where
  product : Option String
  serverVersion : Option String
  generatedAt : Option Timestamp

def fields : List (TextField Draft) :=
  [⟨"product", fun s d => do
      let (product, rest) ← Json.textString .string s
      .ok ({ d with product := some product }, rest)⟩,
   ⟨"server_version", fun s d => do
      let (serverVersion, rest) ← Json.textNullable (Json.textString .string) s
      .ok ({ d with serverVersion }, rest)⟩,
   ⟨"generated_at", fun s d => do
      let (generatedAt, rest) ← Json.textNullable textTimestamp s
      .ok ({ d with generatedAt }, rest)⟩]

def ofDraft (missing : Json.Mismatch) (d : Draft) : Except Json.Mismatch Banner :=
  match d.product with
  | none => .error missing
  | some product => .ok { product, serverVersion := d.serverVersion, generatedAt := d.generatedAt }

def record : TextRecord Draft Banner :=
  ⟨"Banner", ⟨none, none, none⟩, fields, ofDraft (.missingField "product"),
    ofDraft (.tooShort 0 "Banner" 3)⟩

end Banner

namespace Settings

def fields : List (TextField Settings) :=
  [⟨"banner", fun s d => do
      let (banner, rest) ← Json.textNullable Banner.record.read s
      .ok ({ d with banner }, rest)⟩,
   ⟨"emit_docs", fun s d => do
      let (emitDocs, rest) ← Json.textBool s
      .ok ({ d with emitDocs }, rest)⟩,
   ⟨"emit_entity_type_map", fun s d => do
      let (emitEntityTypeMap, rest) ← Json.textBool s
      .ok ({ d with emitEntityTypeMap }, rest)⟩,
   ⟨"strict", fun s d => do
      let (strict, rest) ← Json.textBool s
      .ok ({ d with strict }, rest)⟩]

def record : TextRecord Settings Settings := ⟨"GeneratorConfig", standard, fields, .ok, .ok⟩

def read (text : String) : Except Json.Error Settings := record.readText text

end Settings

end EntityTypings
