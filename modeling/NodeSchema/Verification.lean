import NodeSchema.Borrowing
import NodeSchema.Fault
import NodeSchema.Text.LetterCase

namespace NodeSchema

open Text (isIdentifier isUsable escapeKeyword snakeCase)

def Options.faults (options : Options) : List Fault :=
  [(NameOption.lifetime, options.lifetime), (NameOption.textAlias, options.textAlias)].filterMap
    fun (option, value) =>
      if isUsable value then none else some (.declaration (.unusableOption option value))

namespace Declaration

/-- What is wrong with a declared name, given the declarations before it. -/
def nameFault? (options : Options) (earlier : List Declaration) (d : Declaration) :
    Option DeclarationFault :=
  if !isUsable d.name then some (.noIdentifier d.name)
  else if reservedNames.contains d.name then some (.reserved d.name)
  else if earlier.any (·.name == d.name) then some (.declaredTwice d.name)
  else
    match (NameTable.ofOptions options).lookup d.name with
    | some .textAlias => some (.isTextAlias d.name)
    | some _ => some (.isOpaque d.name)
    | none =>
      if d.isNode then
        (earlier.find? fun e => e.isNode && snakeCase e.name == snakeCase d.name).map
          fun e => .sharedMethod d.name (snakeCase d.name) e.name
      else none

def nameFaults (options : Options) (earlier : List Declaration) : List Declaration → List Fault
  | [] => []
  | d :: ds =>
    (d.nameFault? options earlier).toList.map .declaration ++ nameFaults options (d :: earlier) ds

end Declaration

namespace TypeExpr

mutual

/-- What is wrong with a type, from left to right. The arguments of a container that is refused
itself are not looked at. -/
def faults (table : NameTable) (place : Place) : TypeExpr → List TypeFault
  | .atomic name =>
    if !isIdentifier name then [.noTypeName name place]
    else if (table.meaning? name).isNone then [.undeclared name place]
    else []
  | .generic container args =>
    if !isIdentifier container || args.isEmpty then
      [.badApplication (.generic container args) place]
    else faultsOf table place args

def faultsOf (table : NameTable) (place : Place) : List TypeExpr → List TypeFault
  | [] => []
  | arg :: args => arg.faults table place ++ faultsOf table place args

end

@[simp] theorem faultsOf_eq_flatMap (table : NameTable) (place : Place) (args : List TypeExpr) :
    faultsOf table place args = args.flatMap (·.faults table place) := by
  induction args with
  | nil => rfl
  | cons arg args ih => simp [faultsOf, ih]

end TypeExpr

/-- What is wrong with the fields of a record after those whose written names are given. -/
def Field.faults (table : NameTable) (record : String) (earlier : List String) :
    List Field → List Fault
  | [] => []
  | f :: fs =>
    let written := escapeKeyword f.name
    (if written == "span" || earlier.contains written then
        [.declaration (.fieldTwice record f.name written)]
      else (f.type.faults table (.field f.name record)).map .type)
      ++ Field.faults table record (written :: earlier) fs

def Variant.slotFaults (table : NameTable) (union : String) (v : Variant) : List Fault :=
  v.payload.zipIdx.flatMap fun (type, i) =>
    (type.faults table (.slot i union v.name)).map .type

/-- What is wrong with the variants of a union after those whose names are given. -/
def Variant.faults (table : NameTable) (union : String) (earlier : List String) :
    List Variant → List Fault
  | [] => []
  | v :: vs =>
    (if !isUsable v.name then [.variant (.noIdentifier union v.name)]
      else if earlier.contains v.name then [.variant (.declaredTwice union v.name)]
      else v.slotFaults table union)
      ++ Variant.faults table union (v.name :: earlier) vs

/-- What is wrong with the tags of a plain union after those given. -/
def tagFaults (union : String) (earlier : List String) : List String → List Fault
  | [] => []
  | tag :: tags =>
    (if !isUsable tag || earlier.contains tag then [.declaration (.badTag union tag)] else [])
      ++ tagFaults union (tag :: earlier) tags

def Declaration.memberFaults (table : NameTable) : Declaration → List Fault
  | .record name fields => Field.faults table name [] fields
  | .union name variants =>
    if variants.isEmpty then [.variant (.noVariants name)]
    else Variant.faults table name [] variants
  | .plain name tags => tagFaults name [] tags

namespace Schema

/-- The nodes that could not use the lifetime which every node carries. -/
def lifetimeFaults (schema : Schema) (options : Options) (table : NameTable) : List Fault :=
  let borrowing := schema.borrowing table
  (schema.nodes.filter fun d => !borrowing.contains d.name).map fun d =>
    .declaration (.unusedLifetime d.name options.textAlias table.lifetime)

/-- All faults in four stages: the options, the declared names, the members with the types they
refer to, and the nodes that borrow nothing. -/
def faults (schema : Schema) (options : Options) : List Fault :=
  let table := NameTable.ofSchema schema options
  options.faults
    ++ Declaration.nameFaults options [] schema.declarations
    ++ schema.declarations.flatMap (·.memberFaults table)
    ++ schema.lifetimeFaults options table

/-- The meaning of all names in a schema without faults, or its first fault. -/
def verify (schema : Schema) (options : Options) : Except Fault NameTable :=
  match schema.faults options with
  | [] => .ok (NameTable.ofSchema schema options)
  | fault :: _ => .error fault

theorem verify_eq_ok_iff {schema : Schema} {options : Options} {table : NameTable} :
    schema.verify options = .ok table ↔
      schema.faults options = [] ∧ table = NameTable.ofSchema schema options := by
  unfold verify
  split
  · next h => simp [h, eq_comm]
  · next h => simp [h]

theorem verify_eq_error_iff {schema : Schema} {options : Options} {fault : Fault} :
    schema.verify options = .error fault ↔ (schema.faults options).head? = some fault := by
  unfold verify
  split
  · next h => simp [h]
  · next h => simp [h]

end Schema

end NodeSchema
