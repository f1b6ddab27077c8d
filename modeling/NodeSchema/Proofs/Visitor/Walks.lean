import NodeSchema.Proofs.Success
import NodeSchema.Proofs.Visitor.ReadFile

namespace NodeSchema

open Text (snakeCase)

namespace Code

/-- The step, if any, that walks an operand of a type. -/
inductive Walks (table : NameTable) : Operand → TypeExpr → Option Step → Prop where
  | leaf {value : Operand} {type : TypeExpr} (h : table.containsNode type = false) :
    Walks table value type none
  | node {value : Operand} {name : String} (h : table.isNode name) :
    Walks table value (.atomic name) (some (.visit name value))
  | each {value : Operand} {arg : TypeExpr} {body : Option Step} (hc : table.containsNode arg)
      (h : Walks table .item arg body) :
    Walks table value (.generic TypeExpr.sequence [arg]) (body.map (.each value))
  | ifPresent {value : Operand} {arg : TypeExpr} {body : Option Step} (hc : table.containsNode arg)
      (h : Walks table .item arg body) :
    Walks table value (.generic TypeExpr.optional [arg]) (body.map (.ifPresent value))
  | boxedNode {value : Operand} {name : String} (h : table.isNode name) :
    Walks table value (.generic TypeExpr.owned [.atomic name]) (some (.visit name value))
  | boxed {value : Operand} {arg : TypeExpr} {step : Option Step} (hc : table.containsNode arg)
      (h : Walks table (.unboxed value) arg step) :
    Walks table value (.generic TypeExpr.owned [arg]) step

theorem walks_of_ofType? {table : NameTable} {value : Operand} {type : TypeExpr}
    {step : Option Step} (h : Step.ofType? table value type = .ok step) :
    Walks table value type step := by
  induction type using TypeExpr.induction generalizing value step with
  | atomic name =>
    rw [Step.ofType?] at h
    obtain rfl := Except.ok.inj h
    split
    next hn => exact .node hn
    next hn => exact .leaf (by simpa [NameTable.containsNode] using hn)
  | generic container args ih =>
    rw [Step.ofType?.eq_def] at h
    split at h
    next he => cases he
    next container' arg he =>
      cases he
      have iha := @ih arg List.mem_cons_self
      split at h
      next hc =>
        obtain rfl := Except.ok.inj h
        exact .leaf (by simpa using hc)
      next hne =>
      have hc : table.containsNode arg := by simpa using hne
      split at h
      next hs =>
        obtain ⟨body, hb, h⟩ := bind_eq_ok_iff.1 h
        obtain rfl := Except.ok.inj h
        exact hs ▸ .each hc (iha hb)
      split at h
      next hs =>
        obtain ⟨body, hb, h⟩ := bind_eq_ok_iff.1 h
        obtain rfl := Except.ok.inj h
        exact hs ▸ .ifPresent hc (iha hb)
      split at h
      next hs =>
        subst hs
        cases arg with
        | atomic name =>
          rw [TypeExpr.isAtomic, if_pos rfl, Step.ofType?] at h
          have hn : table.isNode name := hc
          rw [if_pos hn] at h
          obtain rfl := Except.ok.inj h
          exact .boxedNode hn
        | generic inner args => exact .boxed hc (iha h)
      · cases h
    next container' args' _ he =>
      cases he
      split at h
      · cases h
      next hc =>
        obtain rfl := Except.ok.inj h
        exact .leaf (by simpa using hc)

/-- Induction on how a step comes about. -/
@[elab_as_elim] theorem Walks.step_induction {table : NameTable}
    {motive : (operand : Operand) → (type : TypeExpr) → (step : Step) →
      Walks table operand type (some step) → Prop}
    (node : ∀ {value : Operand} {name : String} (hn : table.isNode name),
      motive value (.atomic name) (.visit name value) (.node hn))
    (each : ∀ {value : Operand} {arg : TypeExpr} {body : Step} (hc : table.containsNode arg)
      (h : Walks table .item arg (some body)), motive .item arg body h →
      motive value (.generic TypeExpr.sequence [arg]) (.each value body) (.each hc h))
    (ifPresent : ∀ {value : Operand} {arg : TypeExpr} {body : Step} (hc : table.containsNode arg)
      (h : Walks table .item arg (some body)), motive .item arg body h →
      motive value (.generic TypeExpr.optional [arg]) (.ifPresent value body) (.ifPresent hc h))
    (boxedNode : ∀ {value : Operand} {name : String} (hn : table.isNode name),
      motive value (.generic TypeExpr.owned [.atomic name]) (.visit name value) (.boxedNode hn))
    (boxed : ∀ {value : Operand} {arg : TypeExpr} {step : Step} (hc : table.containsNode arg)
      (h : Walks table (.unboxed value) arg (some step)), motive (.unboxed value) arg step h →
      motive value (.generic TypeExpr.owned [arg]) step (.boxed hc h))
    {operand : Operand} {type : TypeExpr} {step : Step}
    (h : Walks table operand type (some step)) : motive operand type step h := by
  have hfound {operand : Operand} {type : TypeExpr} {found : Option Step} {step : Step}
      (h : Walks table operand type found) (hs : found = some step) :
      motive operand type step (hs ▸ h) := by
    induction h generalizing step with
    | leaf => cases hs
    | node hn =>
      cases hs
      exact node hn
    | @each value arg body hc h ih =>
      cases body with
      | none => cases hs
      | some body =>
        cases hs
        exact each hc h (ih rfl)
    | @ifPresent value arg body hc h ih =>
      cases body with
      | none => cases hs
      | some body =>
        cases hs
        exact ifPresent hc h (ih rfl)
    | boxedNode hn =>
      cases hs
      exact boxedNode hn
    | boxed hc h ih =>
      cases hs
      exact boxed hc h (ih rfl)
  exact hfound h rfl

theorem Walks.worded {table : NameTable} {value : Operand} {type : TypeExpr} {step : Option Step}
    (h : Walks table value type step) (hv : value.Worded) (ht : type.WellNamed) :
    ∀ s ∈ step, s.Worded := by
  have harg {container : String} {arg : TypeExpr}
      (ht : (TypeExpr.generic container [arg]).WellNamed) : arg.WellNamed := by
    cases ht with
    | generic _ _ ha => exact ha arg List.mem_cons_self
  have hname {name : String} (ht : (TypeExpr.atomic name).WellNamed) : Text.isIdentifier name := by
    cases ht with
    | atomic hn => exact hn
  intro s hs
  obtain rfl : step = some s := hs
  induction h using Walks.step_induction with
  | node hn => exact ⟨hname ht, hv⟩
  | each hc h ih => exact ⟨hv, ih trivial (harg ht)⟩
  | ifPresent hc h ih => exact ⟨hv, ih trivial (harg ht)⟩
  | boxedNode hn => exact ⟨hname (harg ht), hv⟩
  | boxed hc h ih => exact ih hv (harg ht)

theorem walks_of_fieldSteps? {table : NameTable} {fields : List Field} {steps : List Step}
    (h : fieldSteps? table fields = .ok steps) :
    ∃ found, steps = found.filterMap id ∧
      List.Forall₂ (fun f step => Walks table (.field f.written) f.type step) fields found := by
  obtain ⟨found, hfound, h⟩ := bind_eq_ok_iff.1 h
  exact ⟨found, (Except.ok.inj h).symm,
    ((mapM_eq_ok_iff (fun _ _ _ => Iff.rfl) found).1 hfound).imp fun _ _ h => walks_of_ofType? h⟩

theorem walks_of_slotSteps? {table : NameTable} {payload : List TypeExpr} {steps : List Step}
    (h : slotSteps? table payload = .ok steps) :
    ∃ found, steps = found.filterMap id ∧
      List.Forall₂ (fun p step => Walks table (.slot p.2) p.1 step) payload.zipIdx found := by
  obtain ⟨found, hfound, h⟩ := bind_eq_ok_iff.1 h
  exact ⟨found, (Except.ok.inj h).symm,
    ((mapM_eq_ok_iff (fun _ _ _ => Iff.rfl) found).1 hfound).imp fun _ _ h => walks_of_ofType? h⟩

end Code

namespace Value

/-- The calls that visit the nodes of a value, in their order. -/
def calls (value : Value) : List Program.Call :=
  value.nodes.map fun (name, node) => ("visit_" ++ snakeCase name, node)

theorem calls_sequence (items : List Value) : (sequence items).calls = items.flatMap calls := by
  rw [calls, nodes, nodesOf_eq_flatMap, List.map_flatMap]
  rfl

theorem calls_record (name : String) (labels : List String) (span : String)
    (values : List Value) :
    (record name labels (.leaf span :: values)).calls =
      ("visit_" ++ snakeCase name, record name labels (.leaf span :: values)) ::
        values.flatMap calls := by
  rw [calls, nodes_record, List.map_cons, List.map_flatMap]
  rfl

theorem calls_union (name variant span : String) (slots : List Value) :
    (union name variant (.leaf span :: slots)).calls =
      ("visit_" ++ snakeCase name, union name variant (.leaf span :: slots)) ::
        slots.flatMap calls := by
  rw [calls, nodes_union, List.map_cons, List.map_flatMap]
  rfl

theorem calls_eq_nil {value : Value} (h : value.nodes = []) : value.calls = [] := by
  rw [calls, h, List.map_nil]

end Value

section Run

open Program (runAll)

variable {schema : Schema} {table : NameTable} {call : String → Value → Option (List Program.Call)}
  {depth : Nat}

theorem Program.runAll_single (env : Program.Environment) (statement : Program.Statement) :
    runAll call env [statement] = statement.run call env := by
  rw [runAll, runAll]
  cases statement.run call env with
  | none => rfl
  | some calls => exact congrArg some (List.append_nil calls)

theorem Program.runAll_some (env : Program.Environment) (step : Code.Step) :
    runAll call env ((some step).toList.map (·.statement)) = step.statement.run call env :=
  runAll_single env step.statement

/-- A call of a method visits the nodes of a value that has not too many of them, and passes
through boxes. -/
structure Program.Faithful (schema : Schema) (table : NameTable)
    (call : String → Value → Option (List Program.Call)) (depth : Nat) : Prop where
  isNode : ∀ d ∈ schema.nodes, table.isNode d.name
  visit : ∀ name value, table.isNode name → schema.HasType (.atomic name) value →
    value.nodes.length ≤ depth → call ("visit_" ++ snakeCase name) value = some value.calls
  boxed : ∀ method value, call method (.boxed value) = call method value

/-- A step makes the calls for the nodes of its operand. -/
theorem Code.Walks.run (hf : Program.Faithful schema table call depth)
    {operand : Operand} {type : TypeExpr} {step : Option Step} (h : Walks table operand type step)
    {env : Program.Environment} {value : Value}
    (he : table.containsNode type → operand.expression.eval env = some value)
    (hv : schema.HasType type value) (hd : value.nodes.length ≤ depth) :
    runAll call env (step.toList.map (·.statement)) = some value.calls := by
  induction h generalizing env value with
  | leaf hc =>
    rw [Value.calls_eq_nil (hv.nodes_eq_nil hf.isNode hc)]
    rfl
  | node hn =>
    rw [Program.runAll_some, Step.statement, Program.Statement.run, he hn]
    exact hf.visit _ _ hn hv hd
  | @each operand arg body hc _ ih =>
    obtain ⟨items, rfl, hi⟩ := hv.sequence_inv
    rw [Value.nodes, Value.nodesOf_eq_flatMap] at hd
    have hitem : ∀ item ∈ items,
        runAll call (("item", item) :: env) (body.toList.map (·.statement)) = some item.calls :=
      fun item hm => ih (fun _ => rfl) (hi item hm) ((Value.length_nodes_le hm).trans hd)
    rw [Value.calls_sequence]
    cases body with
    | none =>
      have hnil : ∀ item ∈ items, item.calls = [] := fun item hm =>
        (Option.some.inj (hitem item hm)).symm
      rw [List.flatMap_eq_nil_iff.2 hnil]
      rfl
    | some body =>
      rw [Option.map_some, Program.runAll_some, Step.statement, Program.Statement.run,
        he (by simpa using hc)]
      have hall := mapM_eq_some_map hitem
      simp only [Option.toList_some, List.map_cons, List.map_nil] at hall
      simp only [Option.bind_eq_bind, Option.bind_some, hall]
      rfl
  | @ifPresent operand arg body hc _ ih =>
    rcases hv.optional_inv with rfl | ⟨inner, rfl, hi⟩
    · cases body with
      | none => rfl
      | some body =>
        rw [Option.map_some, Program.runAll_some, Step.statement, Program.Statement.run,
          he (by simpa using hc)]
        rfl
    · have hinner : runAll call (("item", inner) :: env) (body.toList.map (·.statement)) =
          some inner.calls := ih (fun _ => rfl) hi hd
      cases body with
      | none => exact hinner
      | some body =>
        rw [Option.map_some, Program.runAll_some, Step.statement, Program.Statement.run,
          he (by simpa using hc)]
        exact hinner
  | boxedNode hn =>
    obtain ⟨inner, rfl, hi⟩ := hv.owned_inv
    rw [Program.runAll_some, Step.statement, Program.Statement.run,
      he (by simpa [NameTable.containsNode] using hn)]
    exact (hf.boxed _ inner).trans (hf.visit _ _ hn hi hd)
  | @boxed operand arg step hc _ ih =>
    obtain ⟨inner, rfl, hi⟩ := hv.owned_inv
    have heval : table.containsNode arg → operand.unboxed.expression.eval env = some inner := by
      intro hc
      rw [Operand.expression, Program.Expression.eval, he (by simpa using hc)]
      rfl
    have hinner : runAll call env (step.toList.map (·.statement)) = some inner.calls :=
      ih heval hi hd
    exact hinner

end Run

end NodeSchema
