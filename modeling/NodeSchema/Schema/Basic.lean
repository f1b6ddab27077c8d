import NodeSchema.TypeExpr.Basic

namespace NodeSchema

structure Field where
  name : String
  type : TypeExpr
deriving DecidableEq

/-- A variant of a union with the types of its slots. -/
structure Variant where
  name : String
  payload : List TypeExpr
deriving DecidableEq

/-- Records and unions are nodes: each of their values carries a span. A plain union is a closed
choice of tags and no node. -/
inductive Declaration where
  | record (name : String) (fields : List Field)
  | union (name : String) (variants : List Variant)
  | plain (name : String) (tags : List String)
deriving DecidableEq

structure Schema where
  declarations : List Declaration
deriving DecidableEq

namespace Declaration

def name : Declaration → String
  | record name _ => name
  | union name _ => name
  | plain name _ => name

def isNode : Declaration → Bool
  | record _ _ => true
  | union _ _ => true
  | plain _ _ => false

/-- The types of the fields or of all slots, in their order. -/
def memberTypes : Declaration → List TypeExpr
  | record _ fields => fields.map (·.type)
  | union _ variants => variants.flatMap (·.payload)
  | plain _ _ => []

end Declaration

/-- The declarations that are nodes, in schema order. -/
def Schema.nodes (schema : Schema) : List Declaration :=
  schema.declarations.filter (·.isNode)

end NodeSchema
