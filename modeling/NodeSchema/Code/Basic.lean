import NodeSchema.Fault
import NodeSchema.NameTable
import NodeSchema.Text.LetterCase

namespace NodeSchema.TypeExpr

mutual

/-- A type in the generated code: nodes and the text alias take the lifetime of the source, every
other name stands as it is. -/
def toCode (table : NameTable) : TypeExpr → Except TypeFault String
  | .atomic name =>
    match table.meaning? name with
    | some .textAlias => .ok (name ++ "<" ++ table.lifetime ++ ">")
    | some .node => .ok (name ++ "<" ++ table.lifetime ++ ">")
    | some .plain => .ok name
    | some .foreign => .ok name
    | none => .error (.unknownName name)
  | .generic container args =>
    if args.isEmpty then .error (.noArguments (.generic container args))
    else do
      let args ← toCodes table args
      return container ++ "<" ++ ", ".intercalate args ++ ">"

def toCodes (table : NameTable) : List TypeExpr → Except TypeFault (List String)
  | [] => .ok []
  | arg :: args => do
    let text ← arg.toCode table
    let texts ← toCodes table args
    return text :: texts

end

theorem toCodes_eq_mapM (table : NameTable) (args : List TypeExpr) :
    toCodes table args = args.mapM (toCode table) := by
  induction args with
  | nil => rfl
  | cons arg args ih => rw [toCodes, List.mapM_cons, ih]

end NodeSchema.TypeExpr

namespace NodeSchema.Code

open Text (snakeCase)

/-- Every line ends with a line break. -/
def text (lines : List String) : String := String.join (lines.map (· ++ "\n"))

theorem text_cons (line : String) (lines : List String) :
    text (line :: lines) = line ++ "\n" ++ text lines := by
  simp [text]

@[simp] theorem text_append (a b : List String) : text (a ++ b) = text a ++ text b := by
  simp [text]

/-- Four blanks for each level. -/
def indent (level : Nat) (line : String) : String :=
  String.ofList (List.replicate (4 * level) ' ') ++ line

/-- The first line is what tools recognise generated code by. -/
def heading (command : String) : List String :=
  ["// @generated by astgen. DO NOT EDIT.", "// Regenerate with: " ++ command]

/-- A reference to a value in the body of a walker. -/
inductive Operand where
  /-- A field of the node itself. -/
  | field (name : String)
  /-- A slot that the pattern of an arm has bound. -/
  | slot (index : Nat)
  /-- What the innermost loop or test has bound. -/
  | item
  | unboxed (boxed : Operand)
deriving DecidableEq

def Operand.text : Operand → String
  | field name => "&node." ++ name
  | slot index => "f" ++ toString index
  | item => "item"
  | unboxed boxed => "&**" ++ boxed.text

/-- A statement of a walker. The bodies of loops and tests are single statements about `item`. -/
inductive Step where
  | visit (node : String) (value : Operand)
  | each (values : Operand) (body : Step)
  | ifPresent (value : Operand) (body : Step)
deriving DecidableEq

def Step.lines (level : Nat) : Step → List String
  | visit node value =>
    [indent level ("visitor.visit_" ++ snakeCase node ++ "(" ++ value.text ++ ");")]
  | each values body =>
    [indent level ("for item in " ++ values.text ++ " \x7b")] ++ body.lines (level + 1)
      ++ [indent level "\x7d"]
  | ifPresent value body =>
    [indent level ("if let Some(item) = " ++ value.text ++ " \x7b")] ++ body.lines (level + 1)
      ++ [indent level "\x7d"]

/-- The step that walks a value of a type, none if it cannot hold a node. A boxed node is visited
through its box, any other boxed value is taken out of it first. -/
def Step.ofType? (table : NameTable) (value : Operand) : TypeExpr → Except TypeFault (Option Step)
  | .atomic name => .ok (if table.isNode name then some (.visit name value) else none)
  | .generic container [arg] =>
    if !table.containsNode (.generic container [arg]) then .ok none
    else if container = TypeExpr.sequence then do
      let body ← Step.ofType? table .item arg
      return body.map (.each value)
    else if container = TypeExpr.optional then do
      let body ← Step.ofType? table .item arg
      return body.map (.ifPresent value)
    else if container = TypeExpr.owned then
      Step.ofType? table (if arg.isAtomic then value else .unboxed value) arg
    else .error (.notWalked (.generic container [arg]) container)
  | .generic container args =>
    if table.containsNode (.generic container args) then
      .error (.notWalked (.generic container args) container)
    else .ok none

end NodeSchema.Code
