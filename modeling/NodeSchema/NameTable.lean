import NodeSchema.Options.Basic
import NodeSchema.Schema.Basic

namespace NodeSchema

inductive Meaning where
  /-- Text borrowed from the source. -/
  | textAlias
  /-- A record or a union. -/
  | node
  /-- A plain union. -/
  | plain
  /-- A primitive type or one that the options name; it is written as it is. -/
  | foreign
deriving DecidableEq

def primitiveTypes : List String :=
  ["bool", "char", "str", "String", "u8", "u16", "u32", "u64", "u128", "usize", "i8", "i16", "i32",
   "i64", "i128", "isize", "f32", "f64"]

/-- Names that the generated code defines, imports or takes for containers itself. -/
def reservedNames : List String :=
  [TypeExpr.sequence, TypeExpr.optional, TypeExpr.owned, "Span", "Visitor"]

/-- What the names in a schema mean. A later entry stands before the earlier ones and hides them. -/
structure NameTable where
  meanings : List (String × Meaning)
  /-- The lifetime of the source text with its quote. -/
  lifetime : String

def Declaration.meaning (declaration : Declaration) : Meaning :=
  if declaration.isNode then .node else .plain

namespace NameTable

/-- The names that have a meaning before anything is declared. The text alias hides an opaque or
primitive type of its name. -/
def ofOptions (options : Options) : List (String × Meaning) :=
  (options.textAlias, .textAlias) :: (options.opaqueTypes ++ primitiveTypes).map (·, .foreign)

def ofSchema (schema : Schema) (options : Options) : NameTable where
  meanings := schema.declarations.reverse.map (fun d => (d.name, d.meaning)) ++ ofOptions options
  lifetime := options.quotedLifetime

def meaning? (table : NameTable) (name : String) : Option Meaning := table.meanings.lookup name

def isNode (table : NameTable) (name : String) : Bool := table.meaning? name == some .node

mutual

/-- Whether a value of the type can hold a node. -/
def containsNode (table : NameTable) : TypeExpr → Bool
  | .atomic name => table.isNode name
  | .generic _ args => table.anyContainsNode args

def anyContainsNode (table : NameTable) : List TypeExpr → Bool
  | [] => false
  | arg :: args => table.containsNode arg || table.anyContainsNode args

end

@[simp] theorem anyContainsNode_eq_any (table : NameTable) (args : List TypeExpr) :
    table.anyContainsNode args = args.any table.containsNode := by
  induction args with
  | nil => rfl
  | cons arg args ih => simp [anyContainsNode, ih]

end NameTable

end NodeSchema
