import NodeSchema.Fault

namespace NodeSchema

open Text (isIdentifier)

mutual

def TypeExpr.ofJson? : Json → Except TypeFault TypeExpr
  | .string text => (TypeExpr.ofText? text).mapError (.unreadable text)
  | .array (.string container :: args) =>
    if args.isEmpty then .error (.noApplication (.array [.string container]))
    else if isIdentifier container then do
      let args ← TypeExpr.ofJsons? args
      return .generic container args
    else .error (.containerName (.array (.string container :: args)) container)
  | .array items => .error (.noApplication (.array items))
  | value => .error (.noType value)

/-- Reads types one after the other up to the first that fails. -/
def TypeExpr.ofJsons? : List Json → Except TypeFault (List TypeExpr)
  | [] => .ok []
  | value :: values => do
    let e ← TypeExpr.ofJson? value
    let es ← TypeExpr.ofJsons? values
    return e :: es

end

def Field.ofJson? (record : String) (value : Json) : Except Fault Field :=
  match value with
  | .array [.string name, type] =>
    if isIdentifier name then do
      let type ← (TypeExpr.ofJson? type).mapError .type
      return ⟨name, type⟩
    else .error (.declaration (.badField record value))
  | value => .error (.declaration (.badField record value))

def Variant.ofJson? (union : String) (value : Json) : Except Fault Variant :=
  match value with
  | .array (.string name :: payload) =>
    if isIdentifier name then do
      let payload ← (TypeExpr.ofJsons? payload).mapError .type
      return ⟨name, payload⟩
    else .error (.variant (.badForm union value))
  | value => .error (.variant (.badForm union value))

/-- The identifier at the front of the entries of a declaration, and the entries after it. -/
def Declaration.nameOf? (declaration : Json) (part : NamePart) :
    List Json → Except Fault (String × List Json)
  | .string name :: rest =>
    if isIdentifier name then .ok (name, rest)
    else .error (.declaration (.badName declaration part))
  | _ => .error (.declaration (.badName declaration part))

def Declaration.tagOf? (declaration : Json) (value : Json) : Except Fault String := do
  let (tag, _) ← Declaration.nameOf? declaration .tag [value]
  return tag

/-- A record is `["ast", "struct", Name, [field, type], ...]`, a union is
`["ast", "enum", Name, [Variant, type, ...], ...]` and a plain union `["enum", Name, Tag, ...]`. -/
def Declaration.ofJson? (value : Json) : Except Fault Declaration :=
  match value with
  | .array (.string "ast" :: .string "struct" :: entries) => do
    let (name, fields) ← nameOf? value .structName entries
    let fields ← fields.mapM (Field.ofJson? name)
    return .record name fields
  | .array (.string "ast" :: .string "enum" :: entries) => do
    let (name, variants) ← nameOf? value .enumName entries
    let variants ← variants.mapM (Variant.ofJson? name)
    return .union name variants
  | .array (.string "enum" :: entries) => do
    let (name, tags) ← nameOf? value .enumName entries
    let tags ← tags.mapM (tagOf? value)
    return .plain name tags
  | .array items => .error (.declaration (.unknownForm (.array items)))
  | value => .error (.declaration (.noList value))

def Schema.ofJson? (value : Json) : Except Fault Schema :=
  match value with
  | .array items => do
    let declarations ← items.mapM Declaration.ofJson?
    return ⟨declarations⟩
  | _ => .error (.declaration .schemaNoList)

end NodeSchema
