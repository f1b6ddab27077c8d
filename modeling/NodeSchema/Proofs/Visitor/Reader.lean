import NodeSchema.Proofs.Visitor.Program
import NodeSchema.TypeExpr.Token

namespace NodeSchema.Program

open Text (isBlank)

inductive Token where
  | word (text : String)
  | mark (c : Char)
deriving DecidableEq

def Token.ofPiece? : TypeExpr.Piece → Option Token
  | .word cs => some (.word (String.ofList cs))
  | .mark c => if isBlank c then none else some (.mark c)

/-- The words and marks of a text, without the white space between them. -/
def tokens (text : String) : List Token :=
  (TypeExpr.Piece.split text.toList).filterMap Token.ofPiece?

/-- What remains of a list behind given tokens. -/
def behind? : List Token → List Token → Option (List Token)
  | [], ts => some ts
  | _ :: _, [] => none
  | expected :: more, t :: ts => if t = expected then behind? more ts else none

/-- Reads a given text. -/
def expect (text : String) (ts : List Token) : Option (List Token) := behind? (tokens text) ts

def readWord : List Token → Option (String × List Token)
  | .word text :: ts => some (text, ts)
  | _ => none

/-- Reads one thing after the other up to a token that is no part of any. -/
def readMany {α : Type} (stop : Option Token → Bool)
    (read : List Token → Option (α × List Token)) : Nat → List Token → Option (List α × List Token)
  | 0, _ => none
  | fuel + 1, ts =>
    if stop ts.head? then some ([], ts)
    else do
      let (x, ts) ← read ts
      let (xs, ts) ← readMany stop read fuel ts
      return (x :: xs, ts)

/-- Everything that is read takes a token at least, so that as many steps as tokens suffice. -/
def readAll {α : Type} (stop : Option Token → Bool)
    (read : List Token → Option (α × List Token)) (ts : List Token) :
    Option (List α × List Token) :=
  readMany stop read (ts.length + 1) ts

def readExpression : List Token → Option (Expression × List Token)
  | .mark '&' :: .mark '*' :: .mark '*' :: ts =>
    (readExpression ts).map fun (boxed, ts) => (.unboxed boxed, ts)
  | .mark '&' :: .word node :: .mark '.' :: .word name :: ts => some (.field node name, ts)
  | .word name :: ts => some (.variable name, ts)
  | _ => none

/-- Statements end where their block closes or where a `match` begins. -/
def endsBody (t : Option Token) : Bool := t == some (.mark '}') || t == some (.word "match")

def closes (t : Option Token) : Bool := t == some (.mark '}')

/-- Reads a statement in which blocks may lie in one another as deep as given. -/
def readStatement : Nat → List Token → Option (Statement × List Token)
  | 0, _ => none
  | depth + 1, ts =>
    match ts with
    | .word "visitor" :: ts => do
      let ts ← expect "." ts
      let (method, ts) ← readWord ts
      let ts ← expect "(" ts
      let (argument, ts) ← readExpression ts
      let ts ← expect ");" ts
      return (.visit method argument, ts)
    | .word "for" :: ts => do
      let (item, ts) ← readWord ts
      let ts ← expect " in " ts
      let (values, ts) ← readExpression ts
      let ts ← expect " \x7b" ts
      let (body, ts) ← readAll endsBody (readStatement depth) ts
      let ts ← expect "\x7d" ts
      return (.each item values body, ts)
    | .word "if" :: ts => do
      let ts ← expect "let Some(" ts
      let (item, ts) ← readWord ts
      let ts ← expect ") = " ts
      let (value, ts) ← readExpression ts
      let ts ← expect " \x7b" ts
      let (body, ts) ← readAll endsBody (readStatement depth) ts
      let ts ← expect "\x7d" ts
      return (.ifPresent item value body, ts)
    | .word "let" :: ts => do
      let ts ← expect "_ = visitor;" ts <|> expect "_ = (visitor, node);" ts
      return (.discard, ts)
    | _ => none

def readBody (ts : List Token) : Option (List Statement × List Token) :=
  readAll endsBody (readStatement ts.length) ts

/-- The name that a word in a pattern binds. -/
def bound? (word : String) : Option String := if word = "_" then none else some word

/-- Reads the words of a pattern, with commas between them. -/
def readPattern : List Token → Option (List (Option String) × List Token)
  | .word first :: .mark ',' :: ts =>
    (readPattern ts).map fun (others, ts) => (bound? first :: others, ts)
  | .word last :: ts => some ([bound? last], ts)
  | _ => none

def readArm (ts : List Token) : Option (Arm × List Token) := do
  let (union, ts) ← readWord ts
  let ts ← expect "::" ts
  let (variant, ts) ← readWord ts
  let ts ← expect "(" ts
  match ts with
  | .mark '.' :: ts => do
    let ts ← expect ".) => \x7b\x7d" ts
    return (⟨union, variant, none, []⟩, ts)
  | ts => do
    let (pattern, ts) ← readPattern ts
    let ts ← expect ") => \x7b" ts
    let (body, ts) ← readBody ts
    let ts ← expect "\x7d" ts
    return (⟨union, variant, some pattern, body⟩, ts)

def readMatch (ts : List Token) : Option (Option (List Arm) × List Token) :=
  match ts with
  | .word "match" :: ts => do
    let ts ← expect "node \x7b" ts
    let (arms, ts) ← readAll closes readArm ts
    let ts ← expect "\x7d" ts
    return (some arms, ts)
  | ts => some (none, ts)

/-- Reads a walker for nodes of a lifetime. -/
def readRoutine (lifetime : String) (ts : List Token) : Option (Routine × List Token) := do
  let ts ← expect "pub fn " ts
  let (name, ts) ← readWord ts
  let ts ← expect "<" ts
  let ts ← expect lifetime ts
  let ts ← expect ", V: Visitor<" ts
  let ts ← expect lifetime ts
  let ts ← expect ">>(visitor: &mut V, node: &" ts
  let (node, ts) ← readWord ts
  let ts ← expect "<" ts
  let ts ← expect lifetime ts
  let ts ← expect ">) \x7b" ts
  let (body, ts) ← readBody ts
  let (arms, ts) ← readMatch ts
  let ts ← expect "\x7d" ts
  return (⟨name, node, body, arms⟩, ts)

/-- Reads a method for nodes of a lifetime. -/
def readMethod (lifetime : String) (ts : List Token) : Option (Method × List Token) := do
  let ts ← expect "fn " ts
  let (name, ts) ← readWord ts
  let ts ← expect "(&mut self, node: &" ts
  let (node, ts) ← readWord ts
  let ts ← expect "<" ts
  let ts ← expect lifetime ts
  let ts ← expect ">) \x7b" ts
  let (routine, ts) ← readWord ts
  let ts ← expect "(self, node)" ts
  let ts ← expect "\x7d" ts
  return (⟨name, node, routine⟩, ts)

/-- The program that a text is, none if it is no such program or goes on behind it. -/
def ofText? (lifetime text : String) : Option Program := do
  let ts ← expect "pub trait Visitor<" (tokens text)
  let ts ← expect lifetime ts
  let ts ← expect ">: Sized \x7b" ts
  let (methods, ts) ← readAll closes (readMethod lifetime) ts
  let ts ← expect "\x7d" ts
  let (routines, ts) ← readAll Option.isNone (readRoutine lifetime) ts
  if ts.isEmpty then return ⟨methods, routines⟩ else none

end NodeSchema.Program
