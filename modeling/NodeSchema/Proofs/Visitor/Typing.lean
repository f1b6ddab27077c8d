import NodeSchema.Proofs.Definitions.ReadBack
import NodeSchema.Proofs.Visitor.Traversal

namespace NodeSchema

open Code (Operand Step Walker Walks)

namespace Program

/-- Variables with their types. Inner names stand before the outer ones and hide them. -/
abbrev Scope := List (String × TypeExpr)

/-- The type of an expression. A field has one if it is defined under its name in the struct of the
node that it is read from. -/
def Expression.type? (items : List Item) (scope : Scope) : Expression → Option TypeExpr
  | .variable name => scope.lookup name
  | .field node name => do
    let .atomic record ← scope.lookup node | none
    let .struct _ fields ← items.find? (·.name == record) | none
    let field ← fields.find? (·.name == name)
    return field.type
  | .unboxed boxed => do
    let .generic container [type] ← boxed.type? items scope | none
    if container = TypeExpr.owned then return type else none

/-- A statement that is well typed, given the definitions and the methods. A node is passed to a
method with or without a box around it. -/
inductive Statement.Fits (items : List Item) (methods : List Method) :
    Scope → Statement → Prop where
  | visit {scope : Scope} {method : Method} {argument : Expression} {type : TypeExpr}
      (hm : method ∈ methods) (ht : argument.type? items scope = some type)
      (hn : type = .atomic method.node ∨ type = .generic TypeExpr.owned [.atomic method.node]) :
    Fits items methods scope (.visit method.name argument)
  | each {scope : Scope} {item : String} {values : Expression} {type : TypeExpr}
      {body : List Statement}
      (ht : values.type? items scope = some (.generic TypeExpr.sequence [type]))
      (hb : ∀ s ∈ body, Fits items methods ((item, type) :: scope) s) :
    Fits items methods scope (.each item values body)
  | ifPresent {scope : Scope} {item : String} {value : Expression} {type : TypeExpr}
      {body : List Statement}
      (ht : value.type? items scope = some (.generic TypeExpr.optional [type]))
      (hb : ∀ s ∈ body, Fits items methods ((item, type) :: scope) s) :
    Fits items methods scope (.ifPresent item value body)
  | discard {scope : Scope} : Fits items methods scope .discard

/-- What a pattern binds, with the types of the slots. -/
def boundTypes (pattern : List (Option String)) (slots : List TypeExpr) : Scope :=
  (pattern.zip slots).filterMap fun (name, type) => name.map (·, type)

/-- An arm for a variant of a defined enum, whose pattern has an entry for every slot. -/
inductive Arm.Fits (items : List Item) (methods : List Method) (scope : Scope) : Arm → Prop where
  | skip {union : String} {variants : List Variant} {arms : List (String × String)}
      (variant : Variant)
      (hi : items.find? (·.name == union) = some (.enum union variants arms))
      (hv : variants.find? (·.name == variant.name) = some variant) :
    Fits items methods scope ⟨union, variant.name, none, []⟩
  | bind {union : String} {variants : List Variant} {arms : List (String × String)}
      (variant : Variant) {pattern : List (Option String)} {body : List Statement}
      (hi : items.find? (·.name == union) = some (.enum union variants arms))
      (hv : variants.find? (·.name == variant.name) = some variant)
      (hl : pattern.length = variant.payload.length)
      (hb : ∀ s ∈ body, s.Fits items methods (boundTypes pattern variant.payload ++ scope)) :
    Fits items methods scope ⟨union, variant.name, some pattern, body⟩

/-- A walker whose statements and arms are well typed, where its parameter is a node. -/
structure Routine.Fits (items : List Item) (methods : List Method) (routine : Routine) : Prop where
  body : ∀ s ∈ routine.body, s.Fits items methods [("node", .atomic routine.node)]
  arms : ∀ arms ∈ routine.arms, ∀ arm ∈ arms, arm.union = routine.node ∧
    arm.Fits items methods [("node", .atomic routine.node)]

section Roots

/-- The variable or the field that an expression starts from. -/
def Expression.root : Expression → Expression
  | .unboxed boxed => boxed.root
  | .variable name => .variable name
  | .field node name => .field node name

def Expression.reads (name : String) : Expression → Bool
  | .variable name' => name' == name
  | .field node _ => node == name
  | .unboxed boxed => boxed.reads name

mutual

/-- What the expressions in a statement start from, but for the names that it binds itself. -/
def Statement.roots : Statement → List Expression
  | .visit _ argument => [argument.root]
  | .each item values body => values.root :: (rootsAll body).filter (!·.reads item)
  | .ifPresent item value body => value.root :: (rootsAll body).filter (!·.reads item)
  | .discard => []

def rootsAll : List Statement → List Expression
  | [] => []
  | statement :: statements => statement.roots ++ rootsAll statements

end

theorem rootsAll_eq_flatMap (statements : List Statement) :
    rootsAll statements = statements.flatMap Statement.roots := by
  induction statements with
  | nil => rfl
  | cons s statements ih => rw [rootsAll, ih, List.flatMap_cons]

end Roots

end Program

namespace Code

open Program (Arm.Fits Method Scope Statement.Fits rootsAll rootsAll_eq_flatMap)

variable {table : NameTable} {items : List Item} {methods : List Method}

theorem Walks.isSome_eq {operand : Operand} {type : TypeExpr} {step : Option Step}
    (h : Walks table operand type step) : step.isSome = table.containsNode type := by
  induction h with
  | leaf hc => exact hc.symm
  | node hn => exact hn.symm
  | each _ _ ih => simpa using ih
  | ifPresent _ _ ih => simpa using ih
  | boxedNode hn => simpa [NameTable.containsNode] using hn.symm
  | boxed _ _ ih => simpa using ih

theorem Walks.roots {operand : Operand} {type : TypeExpr} {step : Option Step}
    (h : Walks table operand type step) :
    ∀ s ∈ step, s.statement.roots = [operand.expression.root] := by
  intro s hs
  obtain rfl : step = some s := hs
  induction h using Walks.step_induction with
  | node hn => rfl
  | each hc h ih =>
    rw [Step.statement, Program.Statement.roots, rootsAll_eq_flatMap, List.flatMap_singleton, ih]
    rfl
  | ifPresent hc h ih =>
    rw [Step.statement, Program.Statement.roots, rootsAll_eq_flatMap, List.flatMap_singleton, ih]
    rfl
  | boxedNode hn => rfl
  | boxed hc h ih => exact ih

/-- A step is well typed where its operand has the type that is walked. -/
theorem Walks.fits (hm : ∀ name, table.isNode name → method name ∈ methods) {operand : Operand}
    {type : TypeExpr} {step : Option Step} (h : Walks table operand type step) {scope : Scope}
    (ho : table.containsNode type → operand.expression.type? items scope = some type) :
    ∀ s ∈ step, s.statement.Fits items methods scope := by
  intro s hs
  obtain rfl : step = some s := hs
  induction h using Walks.step_induction generalizing scope with
  | node hn => exact .visit (hm _ hn) (ho hn) (.inl rfl)
  | @each operand arg body hc _ ih =>
    have hbody : body.statement.Fits items methods (("item", arg) :: scope) := ih fun _ => rfl
    exact .each (ho (by simpa using hc)) (List.forall_mem_singleton.2 hbody)
  | @ifPresent operand arg body hc _ ih =>
    have hbody : body.statement.Fits items methods (("item", arg) :: scope) := ih fun _ => rfl
    exact .ifPresent (ho (by simpa using hc)) (List.forall_mem_singleton.2 hbody)
  | boxedNode hn =>
    exact .visit (hm _ hn) (ho (by simpa [NameTable.containsNode] using hn)) (.inr rfl)
  | boxed hc h ih =>
    apply ih
    intro _
    rw [Operand.expression, Program.Expression.type?, ho (by simpa using hc)]
    rfl

section Members

variable {α : Type} {as : List α} {operand : α → Operand} {type : α → TypeExpr}
  {steps : List (Option Step)}

theorem exists_of_mem_statements
    (hs : List.Forall₂ (fun a step => Walks table (operand a) (type a) step) as steps)
    {s : Program.Statement} (hm : s ∈ (steps.filterMap id).map (·.statement)) :
    ∃ a ∈ as, ∃ step, Walks table (operand a) (type a) (some step) ∧ s = step.statement := by
  obtain ⟨step, hstep, rfl⟩ := List.mem_map.1 hm
  obtain ⟨step', hstep', rfl⟩ := List.mem_filterMap.1 hstep
  obtain ⟨a, ha, hwalks⟩ := exists_of_mem_right hs hstep'
  exact ⟨a, ha, step, hwalks, rfl⟩

theorem fits_members (hm : ∀ name, table.isNode name → method name ∈ methods)
    (hs : List.Forall₂ (fun a step => Walks table (operand a) (type a) step) as steps)
    {scope : Scope} (ho : ∀ a ∈ as, table.containsNode (type a) →
      (operand a).expression.type? items scope = some (type a)) :
    ∀ s ∈ (steps.filterMap id).map (·.statement), s.Fits items methods scope := by
  intro s hstatement
  obtain ⟨a, ha, step, hwalks, rfl⟩ := exists_of_mem_statements hs hstatement
  exact hwalks.fits hm (ho a ha) step rfl

theorem rootsAll_members
    (hs : List.Forall₂ (fun a step => Walks table (operand a) (type a) step) as steps) :
    rootsAll ((steps.filterMap id).map (·.statement)) =
      (as.filter fun a => table.containsNode (type a)).map fun a =>
        (operand a).expression.root := by
  rw [rootsAll_eq_flatMap]
  induction hs with
  | nil => rfl
  | @cons a step as steps h _ ih =>
    have hstep := h.isSome_eq
    cases step with
    | none =>
      rw [List.filter_cons, ← hstep]
      exact ih
    | some step =>
      have hc : table.containsNode (type a) = true := hstep.symm
      rw [List.filter_cons, if_pos hc, List.map_cons, ← ih]
      exact congrArg (· ++ _) (h.roots step rfl)

end Members

end Code

namespace Program

variable {table : NameTable}

theorem boundTypes_bindings_cons (type : TypeExpr) (payload : List TypeExpr) (k : Nat) :
    boundTypes ((bindings table (type :: payload) k).map (·.bound?)) (type :: payload) =
      (if table.containsNode type then [("f" ++ toString k, type)] else []) ++
        boundTypes ((bindings table payload (k + 1)).map (·.bound?)) payload := by
  rw [bindings_cons]
  split
  · rfl
  · rfl

theorem lookup_boundTypes (payload : List TypeExpr) (k : Nat) (scope : Scope) :
    ∀ p ∈ payload.zipIdx k, table.containsNode p.1 →
      (boundTypes ((bindings table payload k).map (·.bound?)) payload ++ scope).lookup
        ("f" ++ toString p.2) = some p.1 := by
  induction payload generalizing k with
  | nil => exact List.forall_mem_nil _
  | cons type payload ih =>
    rw [List.zipIdx_cons, List.forall_mem_cons, boundTypes_bindings_cons]
    constructor
    · intro hc
      rw [if_pos hc]
      simp only [List.cons_append, List.lookup_cons, beq_self_eq_true]
    · intro p hp hc
      have hne : ("f" ++ toString p.2 == "f" ++ toString k) = false := by
        apply beq_eq_false_iff_ne.2
        intro he
        have := List.le_snd_of_mem_zipIdx hp
        have := Text.index_injective he
        omega
      split
      · simp only [List.cons_append, List.lookup_cons, hne]
        exact ih (k + 1) p hp hc
      · exact ih (k + 1) p hp hc

section Declared

variable {schema : Schema} {options : Options} {methods : List Method}

theorem find?_item (hn : (schema.declarations.map (·.name)).Nodup) {d : Declaration}
    (hd : d ∈ schema.declarations) :
    (schema.declarations.map Item.ofDeclaration).find? (·.name == d.name) =
      some (Item.ofDeclaration d) := by
  have hname (d : Declaration) : (Item.ofDeclaration d).name = d.name := by
    cases d with
    | record name fields => rfl
    | union name variants => rfl
    | plain name tags => rfl
  have hnames : ((schema.declarations.map Item.ofDeclaration).map (·.name)).Nodup := by
    rw [List.map_map]
    simpa only [Function.comp_def, hname] using hn
  have hitem := find?_eq_some_of_nodup hnames (List.mem_map_of_mem hd)
  rwa [hname] at hitem

theorem type?_field (hs : schema.Sound options) {name : String} {fields : List Field}
    (hd : .record name fields ∈ schema.declarations) {f : Field} (hf : f ∈ fields) :
    (Operand.field f.written).expression.type? (schema.declarations.map Item.ofDeclaration)
      [("node", .atomic name)] = some f.type := by
  have hapart := hs.membersApart _ hd
  have hnames : ((⟨"span", .atomic "Span"⟩ :: fields.map fun f =>
      (⟨f.written, f.type⟩ : Field)).map (·.name)).Nodup := by
    rw [List.map_cons, List.map_map, List.nodup_cons]
    refine ⟨?_, hapart.1⟩
    rw [List.mem_map]
    intro h
    obtain ⟨g, hg, he⟩ := h
    exact hapart.2 g hg he
  have hfield : List.find? (fun g : Field => g.name == f.written) _ = _ :=
    find?_eq_some_of_nodup hnames (List.mem_cons_of_mem _ (List.mem_map_of_mem hf))
  have hitem : _ = some (Item.struct name _) := find?_item hs.declaredOnce hd
  rw [Declaration.name] at hitem
  rw [Operand.expression, Expression.type?]
  simp only [List.lookup_cons, beq_self_eq_true, Option.bind_eq_bind, Option.bind_some, hitem,
    hfield]
  rfl

theorem fits_arm (hs : schema.Sound options)
    (hm : ∀ n, (NameTable.ofSchema schema options).isNode n → Code.method n ∈ methods)
    {name : String} {variants : List Variant} (hd : .union name variants ∈ schema.declarations)
    {variant : Variant} (hv : variant ∈ variants) {arm : Code.Arm}
    (h : Code.Arm.ofVariant? (.ofSchema schema options) variant = .ok arm) (scope : Scope) :
    (arm.toProgram name).Fits (schema.declarations.map Item.ofDeclaration) methods scope := by
  have hitem := find?_item hs.declaredOnce hd
  have hnames : ((variants.map fun v =>
      (⟨v.name, .atomic "Span" :: v.payload⟩ : Variant)).map (·.name)).Nodup := by
    rw [List.map_map]
    exact (hs.membersApart _ hd).2.1
  have hvariant := find?_eq_some_of_nodup hnames (List.mem_map_of_mem hv)
  let slots : Variant := ⟨variant.name, .atomic "Span" :: variant.payload⟩
  rcases arm_of_ofVariant? h with ⟨-, rfl⟩ | ⟨steps, hsteps, rfl⟩
  · exact .skip slots hitem hvariant
  · obtain ⟨found, rfl, hwalks⟩ := Code.walks_of_slotSteps? hsteps
    apply Arm.Fits.bind slots hitem hvariant
    · simp [bindings, slots]
    · exact Code.fits_members hm hwalks (lookup_boundTypes variant.payload 0 scope)

/-- The walkers of a sound schema are well typed against the definitions of the schema. -/
theorem fits_walker (hs : schema.Sound options)
    (hm : ∀ n, (NameTable.ofSchema schema options).isNode n → Code.method n ∈ methods)
    {d : Declaration} (hd : d ∈ schema.declarations) {walker : Walker}
    (h : Walker.ofDeclaration? (.ofSchema schema options) d = .ok (some walker)) :
    walker.routine.Fits (schema.declarations.map Item.ofDeclaration) methods := by
  cases d with
  | record name fields =>
    obtain ⟨steps, hsteps, h⟩ := bind_eq_ok_iff.1 h
    obtain rfl := Option.some.inj (Except.ok.inj h)
    obtain ⟨found, rfl, hwalks⟩ := Code.walks_of_fieldSteps? hsteps
    constructor
    case body =>
      rw [Walker.routine]
      split
      · exact List.forall_mem_singleton.2 .discard
      · exact Code.fits_members hm hwalks fun f hf _ => type?_field hs hd hf
    case arms =>
      intro arms he
      cases he
  | union name variants =>
    obtain ⟨arms, harms, h⟩ := bind_eq_ok_iff.1 h
    obtain rfl := Option.some.inj (Except.ok.inj h)
    constructor
    case body =>
      rw [Walker.routine]
      split
      · exact List.forall_mem_singleton.2 .discard
      · exact List.forall_mem_nil _
    case arms =>
      intro arms' he arm' hm'
      obtain rfl := Option.some.inj he
      obtain ⟨arm, harm, rfl⟩ := List.mem_map.1 hm'
      obtain ⟨variant, hv, h⟩ :=
        exists_of_mem_right ((mapM_eq_ok_iff (fun _ _ _ => Iff.rfl) arms).1 harms) harm
      have hunion : (arm.toProgram name).union = name := by
        cases arm with
        | leaf variant => rfl
        | walk variant slots body => rfl
      exact ⟨hunion, fits_arm hs hm hd hv h _⟩
  | plain name tags => cases h

end Declared

end Program

end NodeSchema
