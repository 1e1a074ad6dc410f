import Schemata.CatalogError
import Schemata.Json.Scan

/-!
# Settings of a replay

The settings say which database family the migrations target and which schema unqualified names
belong to.  They are read from JSON, as an object with the members `database_family` and
`default_schema`, or as an array of the two values in that order.  Missing values take their
defaults, unknown members are stepped over, and a repeated member is refused.

The values that were read so far are a `Settings.Draft`, which tells a missing value from one that
is written and happens to be the default.  Only settings with a default schema are let in
(`Settings.validate`): reading refuses others, and so does a replay.
-/

namespace Schemata

/-- What a replay depends on. -/
structure Settings where
  /-- The database family. -/
  family : Family
  /-- The schema of unqualified names. -/
  defaultSchema : String
  deriving DecidableEq, Repr, Inhabited

namespace Settings

/-- The default schema when none is given. -/
def publicSchema : String := "public"

/-- The settings when nothing is given. -/
def standard : Settings := ⟨.postgres, publicSchema⟩

/-- Refuses settings without a default schema. -/
def validate (settings : Settings) : Except CatalogError Unit :=
  if (Text.trim settings.defaultSchema).isEmpty then .error .emptyDefaultSchema else .ok ()

/-! ## Reading -/

/-- The values read so far. -/
structure Draft where
  family : Option Family
  defaultSchema : Option String
  deriving DecidableEq, Repr, Inhabited

/-- The settings of a draft. -/
def Draft.settings (draft : Draft) : Settings :=
  ⟨draft.family.getD standard.family, draft.defaultSchema.getD standard.defaultSchema⟩

/-- Scans a family: its name, or an object with the name as its only member and null as its
value. -/
def scanFamily? (text : List Char) : Option (Family × List Char) :=
  match Json.expect? '\x7b' text with
  | none => do
      let (name, behind) ← Json.scanString? text
      return (← Family.ofName? name, behind)
  | some inside => do
      let (name, behind) ← Json.scanString? inside
      let family ← Family.ofName? name
      let value ← Json.expect? ':' behind
      let behind ← Json.expectText? "null".toList (Json.skipBlanks value)
      return (family, ← Json.expect? '\x7d' behind)

/-- Scans the value of a member into the draft. -/
def scanMember? (draft : Draft) (name : String) (text : List Char) :
    Option (Draft × List Char) :=
  match name with
  | "database_family" =>
      if draft.family.isSome then none
      else do
        let (family, behind) ← scanFamily? text
        return ({ draft with family := some family }, behind)
  | "default_schema" =>
      if draft.defaultSchema.isSome then none
      else do
        let (schema, behind) ← Json.scanString? text
        return ({ draft with defaultSchema := some schema }, behind)
  | _ => do return (draft, ← Json.skipValue? text)

/-- Scans members up to the closing brace; each takes a character at least. -/
def scanMembers? : Nat → Draft → List Char → Option (Draft × List Char)
  | 0, _, _ => none
  | fuel + 1, draft, text => do
      let (name, behind) ← Json.scanString? text
      let (draft, behind) ← scanMember? draft name (← Json.expect? ':' behind)
      match Json.skipBlanks behind with
      | ',' :: rest => scanMembers? fuel draft rest
      | '\x7d' :: rest => some (draft, rest)
      | _ => none

/-- Scans the values of the array form up to the closing bracket. -/
def scanArray? (text : List Char) : Option (Draft × List Char) :=
  match Json.expect? ']' text with
  | some behind => some (⟨none, none⟩, behind)
  | none => do
      let (family, behind) ← scanFamily? text
      match Json.expect? ',' behind with
      | none => return (⟨some family, none⟩, ← Json.expect? ']' behind)
      | some next =>
          let (schema, behind) ← Json.scanString? next
          return (⟨some family, some schema⟩, ← Json.expect? ']' behind)

/-- Scans the object form behind its opening brace. -/
def scanObject? (text : List Char) : Option (Draft × List Char) :=
  match Json.expect? '\x7d' text with
  | some behind => some (⟨none, none⟩, behind)
  | none => scanMembers? text.length ⟨none, none⟩ text

/-- The settings that a text holds, checked or not. -/
def scan? (text : String) : Option Settings := do
  let (draft, behind) ←
    match Json.skipBlanks text.toList with
    | '\x7b' :: inside => scanObject? inside
    | '[' :: inside => scanArray? inside
    | _ => none
  if (Json.skipBlanks behind).isEmpty then some draft.settings else none

/-- Reads settings and checks them. -/
def read (text : String) : Except CatalogError Settings :=
  match scan? text with
  | none => .error .malformedSettings
  | some settings => do
      settings.validate
      return settings

end Settings

end Schemata
