import Mathlib.Logic.Relation
import NodeSchema.Proofs.TypeExpr.Spelling
import NodeSchema.Verification

namespace NodeSchema

open Text (escapeKeyword isIdentifier isUsable snakeCase)

/-- A declaration mentions the names in the types of its members, at any depth. -/
def Declaration.Mentions (d : Declaration) (name : String) : Prop :=
  ∃ type ∈ d.memberTypes, name ∈ type.atoms

/-- The name under which a field is written. -/
def Field.written (field : Field) : String := escapeKeyword field.name

/-- The members of a declaration have usable names that differ from one another, and a union has
members at all. The names of fields count as they are written, next to the span of the record. -/
def Declaration.MembersApart : Declaration → Prop
  | .record _ fields => (fields.map (·.written)).Nodup ∧ ∀ f ∈ fields, f.written ≠ "span"
  | .union _ variants =>
    variants ≠ [] ∧ (variants.map (·.name)).Nodup ∧ ∀ v ∈ variants, isUsable v.name
  | .plain _ tags => tags.Nodup ∧ ∀ tag ∈ tags, isUsable tag

/-- The fields of a record. -/
def Declaration.fields : Declaration → List Field
  | .record _ fields => fields
  | .union _ _ => []
  | .plain _ _ => []

namespace Schema

/-- The fields of records have identifiers for names. -/
def FieldsNamed (schema : Schema) : Prop :=
  ∀ name fields, .record name fields ∈ schema.declarations → ∀ f ∈ fields, isIdentifier f.name

theorem fieldsNamed_iff {schema : Schema} :
    schema.FieldsNamed ↔ ∀ d ∈ schema.declarations, ∀ f ∈ d.fields, isIdentifier f.name := by
  constructor
  · intro h d hd
    cases d with
    | record name fields => exact h name fields hd
    | union name variants => exact List.forall_mem_nil _
    | plain name tags => exact List.forall_mem_nil _
  · intro h name fields hd
    exact h _ hd

instance (schema : Schema) : Decidable schema.FieldsNamed :=
  decidable_of_iff _ fieldsNamed_iff.symm

/-- The names that a member type may mention. -/
def Knows (schema : Schema) (options : Options) (name : String) : Prop :=
  (∃ d ∈ schema.declarations, d.name = name) ∨ name = options.textAlias ∨
    name ∈ options.opaqueTypes ∨ name ∈ primitiveTypes

/-- A reference to a node of the schema. -/
def Refers (schema : Schema) (d e : Declaration) : Prop := e ∈ schema.nodes ∧ d.Mentions e.name

/-- A finite chain of references to nodes starts at the declaration and ends at one that mentions
the name. -/
def LeadsTo (schema : Schema) (d : Declaration) (name : String) : Prop :=
  ∃ e, Relation.ReflTransGen schema.Refers d e ∧ e.Mentions name

/-- A declared name is usable and stands for nothing else. -/
structure FreeName (options : Options) (name : String) : Prop where
  usable : isUsable name
  not_reserved : name ∉ reservedNames
  ne_textAlias : name ≠ options.textAlias
  not_primitive : name ∉ primitiveTypes
  not_opaque : name ∉ options.opaqueTypes

structure Sound (schema : Schema) (options : Options) : Prop where
  lifetime : isUsable options.lifetime
  textAlias : isUsable options.textAlias
  freeNames : ∀ d ∈ schema.declarations, FreeName options d.name
  declaredOnce : (schema.declarations.map (·.name)).Nodup
  methodsApart : (schema.nodes.map fun d => snakeCase d.name).Nodup
  membersApart : ∀ d ∈ schema.declarations, d.MembersApart
  wellNamed : ∀ d ∈ schema.declarations, ∀ type ∈ d.memberTypes, type.WellNamed
  known : ∀ d ∈ schema.declarations, ∀ name, d.Mentions name → schema.Knows options name
  borrows : ∀ d ∈ schema.nodes, schema.LeadsTo d options.textAlias

end Schema

end NodeSchema
