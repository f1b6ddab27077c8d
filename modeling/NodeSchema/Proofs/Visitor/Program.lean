import NodeSchema.Proofs.Visitor.Value

namespace NodeSchema

namespace Program

inductive Expression where
  | variable (name : String)
  /-- `&node.name` -/
  | field (node name : String)
  /-- `&**boxed` -/
  | unboxed (boxed : Expression)
deriving DecidableEq

inductive Statement where
  /-- `visitor.method(argument);` -/
  | visit (method : String) (argument : Expression)
  /-- `for item in values { body }` -/
  | each (item : String) (values : Expression) (body : List Statement)
  /-- `if let Some(item) = value { body }` -/
  | ifPresent (item : String) (value : Expression) (body : List Statement)
  /-- `let _ = …;` -/
  | discard

/-- An arm with the names that its pattern binds, none for the pattern `(..)`. -/
structure Arm where
  union : String
  variant : String
  pattern : Option (List (Option String))
  body : List Statement

/-- A walker: statements, then in some walkers a `match` on the node. -/
structure Routine where
  name : String
  /-- The type of its parameter. -/
  node : String
  body : List Statement
  arms : Option (List Arm)

/-- A method with the walker that it calls by default. -/
structure Method where
  name : String
  /-- The type of its parameter. -/
  node : String
  routine : String

/-- Inner names stand before the outer ones and hide them. -/
abbrev Environment := List (String × Value)

/-- A call of a method with the node that it gets. -/
abbrev Call := String × Value

def Expression.eval (env : Environment) : Expression → Option Value
  | .variable name => env.lookup name
  | .field node name => do
    let .record _ labels values ← env.lookup node | none
    (labels.zip values).lookup name
  | .unboxed boxed => do
    let .boxed value ← boxed.eval env | none
    return value

mutual

/-- The calls that a statement makes, where the calls under a call of a method are given. -/
def Statement.run (call : String → Value → Option (List Call)) (env : Environment) :
    Statement → Option (List Call)
  | .visit method argument => do
    let value ← argument.eval env
    call method value
  | .each item values body => do
    let .sequence items ← values.eval env | none
    let calls ← items.mapM fun value => runAll call ((item, value) :: env) body
    return calls.flatten
  | .ifPresent item value body => do
    match ← value.eval env with
    | .present value => runAll call ((item, value) :: env) body
    | .absent => return []
    | _ => none
  | .discard => return []

def runAll (call : String → Value → Option (List Call)) (env : Environment) :
    List Statement → Option (List Call)
  | [] => return []
  | statement :: statements => do
    let calls ← statement.run call env
    let more ← runAll call env statements
    return calls ++ more

end

/-- What a pattern binds, slot by slot. -/
def bind? : List (Option String) → List Value → Option Environment
  | [], [] => some []
  | none :: pattern, _ :: slots => bind? pattern slots
  | some name :: pattern, slot :: slots => do
    let env ← bind? pattern slots
    return (name, slot) :: env
  | _, _ => none

/-- The first arm of the variant is taken. -/
def runArms (call : String → Value → Option (List Call)) (env : Environment)
    (union variant : String) (slots : List Value) : List Arm → Option (List Call)
  | [] => none
  | arm :: arms =>
    if arm.union = union ∧ arm.variant = variant then
      match arm.pattern with
      | none => runAll call env arm.body
      | some pattern => do
        let bound ← bind? pattern slots
        runAll call (bound ++ env) arm.body
    else runArms call env union variant slots arms

def Routine.run (routine : Routine) (call : String → Value → Option (List Call)) (node : Value) :
    Option (List Call) := do
  let env := [("node", node)]
  let calls ← runAll call env routine.body
  match routine.arms with
  | none => return calls
  | some arms => do
    let .union name variant slots := node | none
    let more ← runArms call env name variant slots arms
    return calls ++ more

/-- The node that an argument becomes where one of the given name is expected: boxes around it are
passed through. -/
def receive? (name : String) : Value → Option Value
  | .boxed value => receive? name value
  | .record node labels values => if node = name then some (.record node labels values) else none
  | .union node variant slots => if node = name then some (.union node variant slots) else none
  | _ => none

end Program

structure Program where
  methods : List Program.Method
  routines : List Program.Routine

open Program in
/-- The calls that a call of a method makes, itself in front, where calls may lie in one another as
deep as given. No method is overridden. -/
def Program.visit (program : Program) : Nat → String → Value → Option (List Call)
  | 0, _, _ => none
  | depth + 1, name, value => do
    let method ← program.methods.find? (·.name == name)
    let node ← receive? method.node value
    let routine ← program.routines.find? (·.name == method.routine)
    if routine.node = method.node then do
      let calls ← routine.run (program.visit depth) node
      return (name, node) :: calls
    else none

end NodeSchema
