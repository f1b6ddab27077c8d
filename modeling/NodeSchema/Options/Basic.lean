namespace NodeSchema

/-- What can be chosen about the generated code. -/
structure Options where
  /-- The lifetime of the source text, without its quote. -/
  lifetime : String
  /-- The name that stands for text borrowed from the source. -/
  textAlias : String
  /-- The path that the definitions import spans from. -/
  spanImport : String
  /-- The module that the visitor imports the definitions from. -/
  astModule : String
  /-- Further names that are written as they are. -/
  opaqueTypes : List String
  /-- The command named at the top of the definitions. -/
  astCommand : String
  /-- The command named at the top of the visitor. -/
  visitorCommand : String
deriving DecidableEq

namespace Options

def default : Options where
  lifetime := "src"
  textAlias := "Ident"
  spanImport := "crate::Span"
  astModule := "crate::ast"
  opaqueTypes := []
  astCommand := "cargo run -p astgen-cli -- ast"
  visitorCommand := "cargo run -p astgen-cli -- visitor"

/-- The lifetime as it stands in the generated code. -/
def quotedLifetime (options : Options) : String := "'" ++ options.lifetime

end Options

end NodeSchema
