import NodeSchema.Code.Basic
import NodeSchema.Options.Basic
import NodeSchema.Text.Word

namespace NodeSchema.Code

open Text (escapeKeyword)

/-- A field as it is written. -/
structure FieldLine where
  name : String
  type : String
deriving DecidableEq

/-- A variant with the types of its slots after the span. -/
structure VariantLine where
  name : String
  slots : List String
deriving DecidableEq

/-- One block of the file. -/
inductive Definition where
  | record (name : String) (fields : List FieldLine)
  | union (name : String) (variants : List VariantLine)
  | plain (name : String) (tags : List String)
deriving DecidableEq

def FieldLine.ofField? (table : NameTable) (field : Field) : Except TypeFault FieldLine := do
  let type ← field.type.toCode table
  return ⟨escapeKeyword field.name, type⟩

def VariantLine.ofVariant? (table : NameTable) (variant : Variant) :
    Except TypeFault VariantLine := do
  let slots ← TypeExpr.toCodes table variant.payload
  return ⟨variant.name, slots⟩

def Definition.ofDeclaration? (table : NameTable) : Declaration → Except TypeFault Definition
  | .record name fields => do
    let fields ← fields.mapM (FieldLine.ofField? table)
    return .record name fields
  | .union name variants => do
    let variants ← variants.mapM (VariantLine.ofVariant? table)
    return .union name variants
  | .plain name tags => return .plain name tags

def FieldLine.line (field : FieldLine) : String :=
  indent 1 ("pub " ++ field.name ++ ": " ++ field.type ++ ",")

def VariantLine.line (variant : VariantLine) : String :=
  indent 1 (variant.name ++ "(" ++ ", ".intercalate ("Span" :: variant.slots) ++ "),")

/-- The arm of a union's span accessor for one of its variants. -/
def VariantLine.spanArm (union : String) (variant : VariantLine) : String :=
  indent 3 (union ++ "::" ++ variant.name ++ "(span, ..) => *span,")

/-- The accessor of the span of a node. -/
def spanAccessor (name : String) (body : List String) : List String :=
  ["impl " ++ name ++ "<'_> \x7b", indent 1 "pub fn span(&self) -> Span \x7b"]
    ++ body ++ [indent 1 "\x7d", "\x7d"]

def Definition.lines (lifetime : String) : Definition → List String
  | .record name fields =>
    ["#[derive(Debug)]", "pub struct " ++ name ++ "<" ++ lifetime ++ "> \x7b",
      indent 1 "pub span: Span,"]
      ++ fields.map (·.line) ++ ["\x7d"]
      ++ spanAccessor name [indent 2 "self.span"]
  | .union name variants =>
    ["#[derive(Debug)]", "pub enum " ++ name ++ "<" ++ lifetime ++ "> \x7b"]
      ++ variants.map (·.line) ++ ["\x7d"]
      ++ spanAccessor name
        ([indent 2 "match self \x7b"] ++ variants.map (·.spanArm name) ++ [indent 2 "\x7d"])
  | .plain name tags =>
    ["#[derive(Debug, Clone, Copy, PartialEq, Eq)]", "pub enum " ++ name ++ " \x7b"]
      ++ tags.map (fun tag => indent 1 (tag ++ ",")) ++ ["\x7d"]

/-- The whole file. -/
structure DefinitionsFile where
  command : String
  spanImport : String
  textAlias : String
  lifetime : String
  definitions : List Definition

namespace DefinitionsFile

def ofSchema? (schema : Schema) (table : NameTable) (options : Options) :
    Except TypeFault DefinitionsFile := do
  let definitions ← schema.declarations.mapM (Definition.ofDeclaration? table)
  return ⟨options.astCommand, options.spanImport, options.textAlias, table.lifetime, definitions⟩

def header (file : DefinitionsFile) : List String :=
  heading file.command
    ++ ["use " ++ file.spanImport ++ ";", "",
      "pub type " ++ file.textAlias ++ "<" ++ file.lifetime ++ "> = &" ++ file.lifetime ++ " str;"]

/-- An empty line stands before each block. -/
def lines (file : DefinitionsFile) : List String :=
  file.header ++ file.definitions.flatMap fun d => "" :: d.lines file.lifetime

def text (file : DefinitionsFile) : String := Code.text file.lines

end DefinitionsFile

end NodeSchema.Code
