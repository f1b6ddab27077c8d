import NodeSchema.Json.Basic
import NodeSchema.Schema.Basic

namespace NodeSchema

def Field.toRaw (field : Field) : Json :=
  .array [.string field.name, .string field.type.toText]

def Variant.toRaw (variant : Variant) : Json :=
  .array (.string variant.name :: variant.payload.map fun type => .string type.toText)

def Declaration.toRaw : Declaration → Json
  | .record name fields =>
    .array ([.string "ast", .string "struct", .string name] ++ fields.map (·.toRaw))
  | .union name variants =>
    .array ([.string "ast", .string "enum", .string name] ++ variants.map (·.toRaw))
  | .plain name tags => .array ([.string "enum", .string name] ++ tags.map .string)

/-- A schema in the JSON form in which it is read, with every type in its text form. -/
def Schema.toRaw (schema : Schema) : Json :=
  .array (schema.declarations.map (·.toRaw))

mutual

def TypeExpr.toJson : TypeExpr → Json
  | .atomic name => .object [("Atomic", .string name)]
  | .generic container args =>
    .object [("Generic", .array [.string container, .array (TypeExpr.toJsons args)])]

def TypeExpr.toJsons : List TypeExpr → List Json
  | [] => []
  | arg :: args => arg.toJson :: TypeExpr.toJsons args

end

def Field.toJson (field : Field) : Json :=
  .object [("name", .string field.name), ("type", field.type.toJson)]

def Variant.toJson (variant : Variant) : Json :=
  .object [("name", .string variant.name), ("payload", .array (variant.payload.map (·.toJson)))]

def Declaration.toJson : Declaration → Json
  | .record name fields =>
    .object [("Record", .object
      [("name", .string name), ("fields", .array (fields.map (·.toJson)))])]
  | .union name variants =>
    .object [("Union", .object
      [("name", .string name), ("variants", .array (variants.map (·.toJson)))])]
  | .plain name tags =>
    .object [("PlainUnion", .object
      [("name", .string name), ("tags", .array (tags.map .string))])]

/-- A schema as objects, with a single member for every choice among several forms. -/
def Schema.toJson (schema : Schema) : Json :=
  .object [("declarations", .array (schema.declarations.map (·.toJson)))]

end NodeSchema
