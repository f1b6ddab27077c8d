import NodeSchema.Code.Basic
import NodeSchema.Options.Basic
import NodeSchema.Text.Word

namespace NodeSchema.Code

open Text (escapeKeyword snakeCase)

/-- What the pattern of an arm does with a slot. -/
inductive Binding where
  | hole
  | slot (index : Nat)
deriving DecidableEq

def Binding.text : Binding → String
  | hole => "_"
  | slot index => "f" ++ toString index

/-- An arm of a union's walker; a leaf holds no nodes. -/
inductive Arm where
  | leaf (variant : String)
  | walk (variant : String) (slots : List Binding) (body : List Step)
deriving DecidableEq

def Arm.isLeaf : Arm → Bool
  | leaf _ => true
  | walk _ _ _ => false

inductive Walker where
  | record (name : String) (body : List Step)
  | union (name : String) (arms : List Arm)
deriving DecidableEq

def Walker.node : Walker → String
  | record name _ => name
  | union name _ => name

/-- The steps for the slots of a variant from the given index on. -/
def slotSteps? (table : NameTable) (payload : List TypeExpr) : Except TypeFault (List Step) := do
  let steps ← payload.zipIdx.mapM fun (type, i) => Step.ofType? table (.slot i) type
  return steps.filterMap id

def Arm.ofVariant? (table : NameTable) (variant : Variant) : Except TypeFault Arm :=
  if variant.payload.any table.containsNode then do
    let body ← slotSteps? table variant.payload
    let slots := variant.payload.zipIdx.map fun (type, i) =>
      if table.containsNode type then Binding.slot i else .hole
    return .walk variant.name slots body
  else return .leaf variant.name

def fieldSteps? (table : NameTable) (fields : List Field) : Except TypeFault (List Step) := do
  let steps ← fields.mapM fun field =>
    Step.ofType? table (.field (escapeKeyword field.name)) field.type
  return steps.filterMap id

/-- The walker of a declaration, none for a plain union. -/
def Walker.ofDeclaration? (table : NameTable) : Declaration → Except TypeFault (Option Walker)
  | .record name fields => do
    let body ← fieldSteps? table fields
    return some (.record name body)
  | .union name variants => do
    let arms ← variants.mapM (Arm.ofVariant? table)
    return some (.union name arms)
  | .plain _ _ => return none

def Arm.lines (union : String) : Arm → List String
  | leaf variant => [indent 2 (union ++ "::" ++ variant ++ "(..) => \x7b\x7d")]
  | walk variant slots body =>
    [indent 2 (union ++ "::" ++ variant ++ "("
        ++ ", ".intercalate ((Binding.hole :: slots).map Binding.text) ++ ") => \x7b")]
      ++ body.flatMap (Step.lines 3) ++ [indent 2 "\x7d"]

/-- The body of a walker uses its parameters in any case. -/
def Walker.body : Walker → List String
  | record _ steps =>
    if steps.isEmpty then [indent 1 "let _ = (visitor, node);"] else steps.flatMap (Step.lines 1)
  | union name arms =>
    (if arms.all (·.isLeaf) then [indent 1 "let _ = visitor;"] else [])
      ++ [indent 1 "match node \x7b"] ++ arms.flatMap (Arm.lines name) ++ [indent 1 "\x7d"]

def Walker.lines (lifetime : String) (walker : Walker) : List String :=
  ["pub fn walk_" ++ snakeCase walker.node ++ "<" ++ lifetime ++ ", V: Visitor<" ++ lifetime
      ++ ">>(visitor: &mut V, node: &" ++ walker.node ++ "<" ++ lifetime ++ ">) \x7b"]
    ++ walker.body ++ ["\x7d"]

/-- The method that visits a node, by default with its walker. -/
def methodLines (lifetime node : String) : List String :=
  [indent 1 ("fn visit_" ++ snakeCase node ++ "(&mut self, node: &" ++ node ++ "<" ++ lifetime
      ++ ">) \x7b"),
    indent 2 ("walk_" ++ snakeCase node ++ "(self, node)"), indent 1 "\x7d"]

/-- The whole file. -/
structure VisitorFile where
  command : String
  astModule : String
  lifetime : String
  methods : List String
  walkers : List Walker

namespace VisitorFile

def ofSchema? (schema : Schema) (table : NameTable) (options : Options) :
    Except TypeFault VisitorFile := do
  let walkers ← schema.declarations.mapM (Walker.ofDeclaration? table)
  return ⟨options.visitorCommand, options.astModule, table.lifetime,
    schema.nodes.map (·.name), walkers.filterMap id⟩

def header (file : VisitorFile) : List String :=
  heading file.command ++ ["use " ++ file.astModule ++ "::*;", ""]

/-- The trait, with an empty line between two methods. -/
def traitLines (file : VisitorFile) : List String :=
  ["pub trait Visitor<" ++ file.lifetime ++ ">: Sized \x7b"]
    ++ [""].intercalate (file.methods.map (methodLines file.lifetime)) ++ ["\x7d"]

/-- An empty line stands before each walker. -/
def lines (file : VisitorFile) : List String :=
  file.header ++ file.traitLines
    ++ file.walkers.flatMap fun walker => "" :: walker.lines file.lifetime

def text (file : VisitorFile) : String := Code.text file.lines

end VisitorFile

end NodeSchema.Code
