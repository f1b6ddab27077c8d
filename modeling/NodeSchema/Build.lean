import NodeSchema.Code.Definitions
import NodeSchema.Code.Visitor
import NodeSchema.Fault
import NodeSchema.FileTree
import NodeSchema.Json.Reader
import NodeSchema.Options.Reader
import NodeSchema.Schema.Reader
import NodeSchema.Verification

namespace NodeSchema

/-- Both generated files. -/
structure GeneratedCode where
  definitions : String
  visitor : String
deriving DecidableEq

namespace Schema

/-- The text of the definitions, with the names taken from a given table. -/
def definitionsText (schema : Schema) (table : NameTable) (options : Options) :
    Except Fault String := do
  let file ← (Code.DefinitionsFile.ofSchema? schema table options).mapError .type
  return file.text

/-- The text of the visitor, with the names taken from a given table. -/
def visitorText (schema : Schema) (table : NameTable) (options : Options) :
    Except Fault String := do
  let file ← (Code.VisitorFile.ofSchema? schema table options).mapError .type
  return file.text

def generateDefinitions (schema : Schema) (options : Options) : Except Fault String := do
  let table ← schema.verify options
  schema.definitionsText table options

def generateVisitor (schema : Schema) (options : Options) : Except Fault String := do
  let table ← schema.verify options
  schema.visitorText table options

/-- Both files after a single verification. -/
def generate (schema : Schema) (options : Options) : Except Fault GeneratedCode := do
  let table ← schema.verify options
  let definitions ← schema.definitionsText table options
  let visitor ← schema.visitorText table options
  return ⟨definitions, visitor⟩

end Schema

/-- Everything that a run can stumble on, from the files to the schema. -/
inductive Problem where
  | file (fault : FileFault)
  | schemaText (fault : Text.Located Json.Fault)
  | optionsText (fault : Text.Located Options.ReadFault)
  | schema (fault : Fault)

def Problem.message : Problem → String
  | file fault => "I/O error: " ++ fault.message
  | schemaText fault => "JSON error: " ++ fault.message Json.Fault.message
  | optionsText fault => "JSON error: " ++ fault.message Options.ReadFault.message
  | schema fault => fault.message

/-- Reads a schema from the text of its JSON form. -/
def Schema.ofText? (text : String) : Except Problem Schema := do
  let value ← (Json.ofText? text).mapError .schemaText
  (Schema.ofJson? value).mapError .schema

def definitionsFileName : String := "ast.rs"

def visitorFileName : String := "visitor.rs"

/-- Writes the definitions and then the visitor. What has been written stays when a later step
fails. -/
def GeneratedCode.write (generated : GeneratedCode) (tree : FileTree) (directory : String) :
    FileTree × Except FileFault Unit :=
  match tree.makeDirectories directory with
  | (tree, .error fault) => (tree, .error fault)
  | (tree, .ok ()) =>
    match tree.write (joinPath directory definitionsFileName) generated.definitions with
    | .error fault => (tree, .error fault)
    | .ok tree =>
      match tree.write (joinPath directory visitorFileName) generated.visitor with
      | .error fault => (tree, .error fault)
      | .ok tree => (tree, .ok ())

/-- Writes both generated files into a directory. Nothing is touched unless both can be
generated. -/
def Schema.build (schema : Schema) (options : Options) (tree : FileTree) (directory : String) :
    FileTree × Except Problem GeneratedCode :=
  match schema.generate options with
  | .error fault => (tree, .error (.schema fault))
  | .ok generated =>
    match generated.write tree directory with
    | (tree, .error fault) => (tree, .error (.file fault))
    | (tree, .ok ()) => (tree, .ok generated)

end NodeSchema
