import NodeSchema.Json.Printer
import NodeSchema.Schema.Basic
import NodeSchema.TypeExpr.Reader

namespace NodeSchema

open Text (quote)

/-- Where a type stands in a schema. -/
inductive Place where
  | field (name record : String)
  | slot (index : Nat) (union variant : String)
deriving DecidableEq

def Place.describe : Place → String
  | field name record => "field " ++ quote name ++ " of " ++ quote record
  | slot index union variant =>
    "slot " ++ toString index ++ " of " ++ union ++ "::" ++ variant

/-- Why a type cannot be resolved. -/
inductive TypeFault where
  /-- The text of a type does not read as one. -/
  | unreadable (text : String) (cause : TypeExpr.ReadFault)
  /-- A list in place of a type starts with a name that is none. -/
  | containerName (value : Json) (name : String)
  /-- A list in place of a type is not a container with arguments. -/
  | noApplication (value : Json)
  /-- A value in place of a type is neither text nor a list. -/
  | noType (value : Json)
  | noTypeName (name : String) (place : Place)
  | undeclared (name : String) (place : Place)
  /-- A container that is no identifier or has no arguments. -/
  | badApplication (type : TypeExpr) (place : Place)
  /-- A name without a meaning cannot be written in the generated code. -/
  | unknownName (name : String)
  | noArguments (type : TypeExpr)
  /-- A container over nodes that the visitor does not know how to enter. -/
  | notWalked (type : TypeExpr) (container : String)

/-- Why a variant is refused. -/
inductive VariantFault where
  | badForm (union : String) (value : Json)
  | noVariants (union : String)
  | noIdentifier (union variant : String)
  | declaredTwice (union variant : String)

/-- The identifiers that a raw declaration needs. -/
inductive NamePart where
  | structName
  | enumName
  | tag
deriving DecidableEq

def NamePart.describe : NamePart → String
  | structName => "the struct name"
  | enumName => "the enum name"
  | tag => "every tag"

/-- The options that become part of the generated code. -/
inductive NameOption where
  | lifetime
  | textAlias
deriving DecidableEq

def NameOption.key : NameOption → String
  | lifetime => "lifetime"
  | textAlias => "text_alias"

/-- Why a declaration, a whole schema or an option is refused. -/
inductive DeclarationFault where
  | schemaNoList
  | noList (value : Json)
  | badName (value : Json) (part : NamePart)
  | badField (record : String) (value : Json)
  | unknownForm (value : Json)
  | unusableOption (option : NameOption) (value : String)
  | noIdentifier (name : String)
  | reserved (name : String)
  | declaredTwice (name : String)
  | isTextAlias (name : String)
  | isOpaque (name : String)
  /-- The visitor would get one method for two nodes. -/
  | sharedMethod (name method other : String)
  | fieldTwice (record field written : String)
  | badTag (union tag : String)
  /-- No text is borrowed by a node, so that it cannot carry the lifetime. -/
  | unusedLifetime (name textAlias lifetime : String)

/-- Everything that can be wrong with a schema. -/
inductive Fault where
  | type (cause : TypeFault)
  | variant (cause : VariantFault)
  | declaration (cause : DeclarationFault)

def TypeExpr.Expected.describe : TypeExpr.Expected → String
  | identifier => "identifier"
  | separator => "\",\" or \">\""
  | endOfInput => "end of input"

def TypeExpr.ReadFault.reason : TypeExpr.ReadFault → String
  | stray fault => "unexpected " ++ quote fault.fragment ++ " at offset " ++ toString fault.offset
  | unexpected fault =>
    "expected " ++ fault.expected.describe ++ " but found "
      ++ (match fault.found with
        | some lexeme => quote lexeme.text
        | none => "end of input")
      ++ " at offset " ++ toString fault.offset

/-- The type in question, as it was given. -/
def TypeFault.subject : TypeFault → String
  | unreadable text _ => quote text
  | containerName value _ => value.compact
  | noApplication value => value.compact
  | noType value => value.compact
  | noTypeName name _ => quote name
  | undeclared name _ => quote name
  | badApplication type _ => quote type.toText
  | unknownName name => quote name
  | noArguments type => quote type.toText
  | notWalked type _ => quote type.toText

def TypeFault.reason : TypeFault → String
  | unreadable _ cause => cause.reason
  | containerName _ name => "container " ++ quote name ++ " is not an identifier"
  | noApplication _ => "expected [container, arg, ...] with at least one argument"
  | noType _ => "expected a type name or a [container, arg, ...] list"
  | noTypeName _ place => place.describe ++ " is not a type name"
  | undeclared _ place => place.describe ++ " refers to an undeclared node"
  | badApplication _ place => place.describe ++ " is not a container applied to arguments"
  | unknownName _ => "not a declared node, the text alias, or a primitive"
  | noArguments _ => "a container needs at least one argument"
  | notWalked _ container =>
    "cannot traverse " ++ quote container ++ " holding nodes; only " ++ TypeExpr.sequence
      ++ "<T>, " ++ TypeExpr.optional ++ "<T> and " ++ TypeExpr.owned ++ "<T> are walked"

def VariantFault.message : VariantFault → String
  | badForm union value =>
    value.compact ++ " in " ++ quote union ++ ": expected [VariantName, type, ...]"
  | noVariants union => "<none> in " ++ quote union ++ ": a union needs at least one variant"
  | noIdentifier union variant =>
    quote variant ++ " in " ++ quote union ++ ": the variant name is not an identifier"
  | declaredTwice union variant =>
    quote variant ++ " in " ++ quote union ++ ": the variant is declared twice"

/-- The declaration in question, by its name or as it was given. -/
def DeclarationFault.subject : DeclarationFault → String
  | schemaNoList => "<schema>"
  | noList value => value.compact
  | badName value _ => value.compact
  | badField record _ => quote record
  | unknownForm value => value.compact
  | unusableOption option _ => "<options>." ++ option.key
  | noIdentifier name => quote name
  | reserved name => quote name
  | declaredTwice name => quote name
  | isTextAlias name => quote name
  | isOpaque name => quote name
  | sharedMethod name _ _ => quote name
  | fieldTwice record _ _ => quote record
  | badTag union _ => quote union
  | unusedLifetime name _ _ => quote name

def DeclarationFault.reason : DeclarationFault → String
  | schemaNoList => "expected a list of declarations"
  | noList _ => "expected a declaration list"
  | badName _ part => "expected " ++ part.describe ++ " to be an identifier"
  | badField _ value => "field " ++ value.compact ++ " is not a [name, type] pair"
  | unknownForm _ => "expected [\"ast\", \"struct\" | \"enum\", ...] or [\"enum\", ...]"
  | unusableOption _ value =>
    quote value ++ " is not a usable identifier (the lifetime is given without its quote)"
  | noIdentifier _ => "the name is not an identifier"
  | reserved _ => "the name is reserved"
  | declaredTwice _ => "the name is declared twice"
  | isTextAlias _ => "the name is the text alias"
  | isOpaque _ => "the name is a primitive or opaque type"
  | sharedMethod _ method other =>
    "visit_" ++ method ++ " would also be generated for " ++ quote other
  | fieldTwice _ field written =>
    "field " ++ quote field ++ " is emitted as " ++ quote written
      ++ " twice (every node has an implicit span)"
  | badTag _ tag => "tag " ++ quote tag ++ " is not a unique identifier"
  | unusedLifetime _ textAlias lifetime =>
    "nothing it holds leads to " ++ quote textAlias ++ ", so its " ++ lifetime
      ++ " parameter would be unused"

def Fault.message : Fault → String
  | type cause => "Unresolved type shape " ++ cause.subject ++ ": " ++ cause.reason
  | variant cause => "Unrecognized variant form " ++ cause.message
  | declaration cause => "Malformed declaration " ++ cause.subject ++ ": " ++ cause.reason

end NodeSchema
