import NodeSchema.Build
import NodeSchema.Command.Arguments
import NodeSchema.JavaScript
import NodeSchema.Json.Printer
import NodeSchema.Schema.Writer

namespace NodeSchema

namespace Command

/-- Where the schema and the options come from. -/
structure Source where
  schema : Option String
  options : Option String
  lifetime : Option String
  spanImport : Option String
  astModule : Option String
deriving DecidableEq

/-- What to do with the schema. -/
inductive Action where
  | ast (output : Option String)
  | visitor (output : Option String)
  | check (dump : Bool)
deriving DecidableEq

end Command

structure Command where
  source : Command.Source
  action : Command.Action
deriving DecidableEq

namespace Command

def Source.ofGiven (given : Given) : Source where
  schema := given.lookup .schema
  options := given.lookup .options
  lifetime := given.lookup .lifetime
  spanImport := given.lookup .spanImport
  astModule := given.lookup .astModule

def sourceFlags : List Flag := [.schema, .options, .lifetime, .spanImport, .astModule]

/-- The command in the arguments of a program, none if they cannot be understood. -/
def ofArguments? : List String → Option Command
  | "ast" :: arguments =>
    (readFlags (sourceFlags ++ [.output]) [] arguments).map fun given =>
      ⟨.ofGiven given, .ast (given.lookup .output)⟩
  | "visitor" :: arguments =>
    (readFlags (sourceFlags ++ [.output]) [] arguments).map fun given =>
      ⟨.ofGiven given, .visitor (given.lookup .output)⟩
  | "check" :: arguments =>
    (readFlags (sourceFlags ++ [.dump]) [] arguments).map fun given =>
      ⟨.ofGiven given, .check (given.lookup .dump).isSome⟩
  | _ => none

/-- Settings from the command line replace those of the options. -/
def Source.override (source : Source) (options : Options) : Options :=
  { options with
    lifetime := source.lifetime.getD options.lifetime
    spanImport := source.spanImport.getD options.spanImport
    astModule := source.astModule.getD options.astModule }

/-- The schema in the file of a source, or else the built-in one. -/
def Source.readSchema (source : Source) (read : String → Except FileFault String) :
    Except Problem Schema :=
  match source.schema with
  | some path => do
    let text ← (read path).mapError .file
    Schema.ofText? text
  | none => .ok JavaScript.schema

/-- The options in the file of a source, or else the default ones. -/
def Source.readOptions (source : Source) (read : String → Except FileFault String) :
    Except Problem Options :=
  match source.options with
  | some path => do
    let text ← (read path).mapError .file
    (Options.ofText? text).mapError .optionsText
  | none => .ok .default

/-- The schema and the options. The file of the schema is read first. -/
def Source.load (source : Source) (read : String → Except FileFault String) :
    Except Problem (Schema × Options) := do
  let schema ← source.readSchema read
  let options ← source.readOptions read
  return (schema, source.override options)

/-- What a successful command leaves behind. -/
inductive Effect where
  | print (text : String)
  | save (path text : String)
  | report (schema : Schema) (dump : Bool)

def deliver (output : Option String) (code : String) : Effect :=
  match output with
  | some path => .save path code
  | none => .print code

/-- The effect of a command, given how files are read. -/
def effect (command : Command) (read : String → Except FileFault String) :
    Except Problem Effect := do
  let (schema, options) ← command.source.load read
  match command.action with
  | .ast output => do
    let code ← (schema.generateDefinitions options).mapError .schema
    return deliver output code
  | .visitor output => do
    let code ← (schema.generateVisitor options).mapError .schema
    return deliver output code
  | .check dump => do
    let _ ← (schema.verify options).mapError .schema
    return .report schema dump

/-- How a terminal control character is shown in the log. -/
def logChar (c : Char) : List Char :=
  if c = '\x1b' || c = '\x07' || c = '\x08' || c = '\x0c' || c = '\x7f' then
    ['\\', 'x', Nat.digitChar (c.toNat / 16), Nat.digitChar (c.toNat % 16)]
  else if 0x80 ≤ c.toNat && c.toNat ≤ 0x9f then
    ['\\', 'u', '\x7b'] ++ Nat.toDigits 16 c.toNat ++ ['\x7d']
  else [c]

def logText (message : String) : String := String.ofList (message.toList.flatMap logChar)

/-- An entry of the log, which may go over several lines. -/
inductive LogEntry where
  | error (problem : Problem)
  | written (path : String)
  | valid (schema : Schema)

def LogEntry.text : LogEntry → String
  | error problem => "ERROR astgen: " ++ logText problem.message
  | written path => "INFO astgen: generated code written to " ++ logText path
  | valid schema =>
    "INFO astgen: schema is valid declarations=" ++ toString schema.declarations.length
      ++ " nodes=" ++ toString schema.nodes.length

def LogEntry.lines (entry : LogEntry) : List String := entry.text.splitOn "\n"

structure Outcome where
  status : Nat
  output : String
  log : List LogEntry

/-- A command that failed prints nothing. -/
def Outcome.failure (problem : Problem) : Outcome := ⟨1, "", [.error problem]⟩

/-- The outcome of arguments that make no command. -/
def Outcome.misuse : Outcome := ⟨2, "", []⟩

def dumpText (schema : Schema) : String := schema.toJson.pretty ++ "\n"

def Effect.run (effect : Effect) (tree : FileTree) : Outcome × FileTree :=
  match effect with
  | .print text => (⟨0, text, []⟩, tree)
  | .save path text =>
    match tree.write path text with
    | .ok tree => (⟨0, "", [.written path]⟩, tree)
    | .error fault => (.failure (.file fault), tree)
  | .report schema dump => (⟨0, if dump then dumpText schema else "", [.valid schema]⟩, tree)

/-- What a command prints and logs and how it ends, with the tree of files afterwards. -/
def run (command : Command) (tree : FileTree) : Outcome × FileTree :=
  match command.effect tree.read with
  | .ok effect => effect.run tree
  | .error problem => (.failure problem, tree)

def runArguments (arguments : List String) (tree : FileTree) : Outcome × FileTree :=
  match ofArguments? arguments with
  | some command => command.run tree
  | none => (.misuse, tree)

end Command

end NodeSchema
