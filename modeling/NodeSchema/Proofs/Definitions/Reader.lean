import NodeSchema.Proofs.Visitor.Reader
import NodeSchema.Schema.Basic

namespace NodeSchema

open Program (Token closes expect readAll readWord tokens)

/-- A type definition in the generated code. -/
inductive Item where
  /-- A struct over the lifetime; the span is one of its fields. -/
  | struct (name : String) (fields : List Field)
  /-- An enum over the lifetime, with the union and the variant that each arm of its span accessor
  names; the span is one of the slots of a variant. -/
  | enum (name : String) (variants : List Variant) (arms : List (String × String))
  /-- An enum without a lifetime. -/
  | plain (name : String) (tags : List String)
deriving DecidableEq

namespace Item

def name : Item → String
  | struct name _ => name
  | enum name _ _ => name
  | plain name _ => name

def isNode : Item → Bool
  | struct _ _ => true
  | enum _ _ _ => true
  | plain _ _ => false

/-- Reads one or more things with commas between them, up to a mark. -/
def readList {α : Type} (close : Char) (read : List Token → Option (α × List Token))
    (ts : List Token) : Option (List α × List Token) := do
  let (first, ts) ← read ts
  let (others, ts) ← readAll (· == some (.mark close)) (fun ts => expect "," ts >>= read) ts
  return (first :: others, ts)

/-- Reads a type in which arguments may lie in one another as deep as given. -/
def readType (lifetime : String) : Nat → List Token → Option (TypeExpr × List Token)
  | 0, _ => none
  | depth + 1, ts =>
    match ts with
    | .word name :: .mark '<' :: ts =>
      match expect lifetime ts with
      | some ts => do
        let ts ← expect ">" ts
        return (.atomic name, ts)
      | none => do
        let (args, ts) ← readList '>' (readType lifetime depth) ts
        let ts ← expect ">" ts
        return (.generic name args, ts)
    | .word name :: ts => some (.atomic name, ts)
    | _ => none

def readField (lifetime : String) (ts : List Token) : Option (Field × List Token) := do
  let ts ← expect "pub " ts
  let (name, ts) ← readWord ts
  let ts ← expect ": " ts
  let (type, ts) ← readType lifetime ts.length ts
  let ts ← expect "," ts
  return (⟨name, type⟩, ts)

def readVariant (lifetime : String) (ts : List Token) : Option (Variant × List Token) := do
  let (name, ts) ← readWord ts
  let ts ← expect "(" ts
  let (slots, ts) ← readList ')' (readType lifetime ts.length) ts
  let ts ← expect ")," ts
  return (⟨name, slots⟩, ts)

def readTag (ts : List Token) : Option (String × List Token) := do
  let (tag, ts) ← readWord ts
  let ts ← expect "," ts
  return (tag, ts)

/-- Reads an arm of a span accessor. -/
def readSpanArm (ts : List Token) : Option ((String × String) × List Token) := do
  let (union, ts) ← readWord ts
  let ts ← expect "::" ts
  let (variant, ts) ← readWord ts
  let ts ← expect "(span, ..) => *span," ts
  return ((union, variant), ts)

/-- Reads the head of a type over the lifetime, up to its members. -/
def readHead (lifetime : String) (ts : List Token) : Option (String × List Token) := do
  let (name, ts) ← readWord ts
  let ts ← expect "<" ts
  let ts ← expect lifetime ts
  let ts ← expect "> \x7b" ts
  return (name, ts)

/-- Reads the head of the span accessor of a given type. -/
def readAccessor (name : String) (ts : List Token) : Option (List Token) := do
  let ts ← expect "impl " ts
  let (owner, ts) ← readWord ts
  let ts ← expect "<'_> \x7b" ts
  let ts ← expect "pub fn span(&self) -> Span \x7b" ts
  if owner = name then return ts else none

def readStruct (lifetime : String) (ts : List Token) : Option (Item × List Token) := do
  let ts ← expect "#[derive(Debug)]" ts
  let ts ← expect "pub struct " ts
  let (name, ts) ← readHead lifetime ts
  let (fields, ts) ← readAll closes (readField lifetime) ts
  let ts ← expect "\x7d" ts
  let ts ← readAccessor name ts
  let ts ← expect "self.span \x7d \x7d" ts
  return (.struct name fields, ts)

def readEnum (lifetime : String) (ts : List Token) : Option (Item × List Token) := do
  let ts ← expect "#[derive(Debug)]" ts
  let ts ← expect "pub enum " ts
  let (name, ts) ← readHead lifetime ts
  let (variants, ts) ← readAll closes (readVariant lifetime) ts
  let ts ← expect "\x7d" ts
  let ts ← readAccessor name ts
  let ts ← expect "match self \x7b" ts
  let (arms, ts) ← readAll closes readSpanArm ts
  let ts ← expect "\x7d \x7d \x7d" ts
  return (.enum name variants arms, ts)

def readPlain (ts : List Token) : Option (Item × List Token) := do
  let ts ← expect "#[derive(Debug, Clone, Copy, PartialEq, Eq)]" ts
  let ts ← expect "pub enum " ts
  let (name, ts) ← readWord ts
  let ts ← expect " \x7b" ts
  let (tags, ts) ← readAll closes readTag ts
  let ts ← expect "\x7d" ts
  return (.plain name tags, ts)

/-- Reads a definition whose types take the given lifetime. -/
def read (lifetime : String) (ts : List Token) : Option (Item × List Token) :=
  readStruct lifetime ts <|> readEnum lifetime ts <|> readPlain ts

/-- The text alias and the definitions behind it, none if the text is of another form or goes on
behind them. The lifetime is the one of the text alias. -/
def ofText? (text : String) : Option (String × List Item) := do
  let ts ← expect "pub type " (tokens text)
  let (textAlias, ts) ← readWord ts
  let ts ← expect "<'" ts
  let (lifetime, ts) ← readWord ts
  let ts ← expect "> = &" ts
  let ts ← expect ("'" ++ lifetime) ts
  let ts ← expect " str;" ts
  let (items, ts) ← readAll Option.isNone (read ("'" ++ lifetime)) ts
  if ts.isEmpty then return (textAlias, items) else none

end Item

end NodeSchema
