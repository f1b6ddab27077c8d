import NodeSchema.Proofs.Generation.Arms
import NodeSchema.Proofs.Visitor.Blocks

namespace NodeSchema

open Code (Arm ArmLines Binding Block BodyLines Operand Step VisitorFile Walker indent parameters
  visitLine)
open Program (bindings boundTypes)
open Text (snakeCase)

namespace Code

section Patterns

variable {locals : Locals} {pattern : List (Option String)} {slots payload : List TypeExpr}
  {name : String} {type : TypeExpr} {table : NameTable}

theorem lookup_values (scope : Program.Scope) (name : String) :
    (scope.map fun (name, type) => (name, Local.value type)).lookup name =
      (scope.lookup name).map .value := by
  induction scope with
  | nil => rfl
  | cons bound scope ih =>
    rw [List.map_cons, List.lookup_cons, List.lookup_cons, ih]
    split
    · rfl
    · rfl

theorem lookup_patternLocals (h : (boundTypes pattern slots).lookup name = some type) :
    (patternLocals pattern slots ++ locals).lookup name = some (.value type) := by
  rw [patternLocals, List.lookup_append, lookup_values, h]
  rfl

theorem lookup_patternLocals_append (h : some name ∉ pattern) :
    (patternLocals pattern slots ++ locals).lookup name = locals.lookup name := by
  have hnone : (boundTypes pattern slots).lookup name = none := by
    rw [List.lookup_eq_none_iff]
    intro bound hm
    obtain ⟨⟨entry, type⟩, hzip, he⟩ := List.mem_filterMap.1 hm
    obtain ⟨name', rfl, rfl⟩ := Option.map_eq_some_iff.1 he
    have hbound := (List.of_mem_zip hzip).1
    apply bne_iff_ne.2
    intro hname
    exact h (hname ▸ hbound)
  rw [patternLocals, List.lookup_append, lookup_values, hnone]
  rfl

/-- The pattern of an arm that walks slots. -/
def slotBindings (table : NameTable) (payload : List TypeExpr) : List (Option String) :=
  none :: (bindings table payload 0).map (·.bound?)

theorem filterMap_slotBindings (table : NameTable) (payload : List TypeExpr) :
    (slotBindings table payload).filterMap id =
      (payload.zipIdx.filter fun p => table.containsNode p.1).map fun p => "f" ++ toString p.2 := by
  rw [slotBindings, List.filterMap_cons_none rfl, bindings]
  induction payload.zipIdx with
  | nil => rfl
  | cons p ps ih =>
    rw [List.map_cons, List.map_cons, List.filter_cons]
    cases hc : table.containsNode p.1 with
    | false => simpa [hc, Binding.bound?] using ih
    | true => simpa [hc, Binding.bound?] using ih

theorem mem_slotBindings_iff :
    some name ∈ slotBindings table payload ↔
      ∃ p ∈ payload.zipIdx, table.containsNode p.1 ∧ name = "f" ++ toString p.2 := by
  have hm (pattern : List (Option String)) : some name ∈ pattern ↔ name ∈ pattern.filterMap id := by
    rw [List.mem_filterMap]
    simp only [id, exists_eq_right]
  rw [hm, filterMap_slotBindings]
  simp only [List.mem_map, List.mem_filter, and_assoc, eq_comm]

theorem nodup_slotBindings (table : NameTable) (payload : List TypeExpr) :
    ((slotBindings table payload).filterMap id).Nodup := by
  have hvariables := Schema.nodup_slotVariables table payload
  rw [Schema.slotVariables] at hvariables
  rw [filterMap_slotBindings]
  apply List.Nodup.of_map Program.Expression.variable
  rwa [List.map_map]

end Patterns

section Arms

variable {nodes : String → Prop} {fieldType : String → String → TypeExpr → Prop}
  {table : NameTable} {union : String}

theorem map_text_bindings (table : NameTable) (payload : List TypeExpr) :
    (Binding.hole :: bindings table payload 0).map Binding.text =
      (slotBindings table payload).map (·.getD "_") := by
  have htext (b : Binding) : b.text = b.bound?.getD "_" := by
    cases b with
    | hole => rfl
    | slot index => rfl
  rw [slotBindings, List.map_cons, List.map_cons, List.map_map]
  exact congrArg (_ :: ·) (List.map_congr_left fun b _ => htext b)

theorem visitor_not_bound (table : NameTable) (payload : List TypeExpr) :
    some "visitor" ∉ slotBindings table payload := by
  intro h
  obtain ⟨p, -, -, he⟩ := mem_slotBindings_iff.1 h
  have hfirst := congrArg (·.toList.head?) he
  simp only [String.toList_append] at hfirst
  cases hfirst

theorem refers_slot (payload : List TypeExpr) (locals : Locals) {p : TypeExpr × Nat}
    (hp : p ∈ payload.zipIdx) (hc : table.containsNode p.1) :
    Refers fieldType
      (patternLocals (slotBindings table payload) (.atomic "Span" :: payload) ++ locals)
      (Operand.slot p.2).text p.1 ("f" ++ toString p.2) := by
  have hlookup := Program.lookup_boundTypes payload 0 [] p hp hc
  rw [List.append_nil] at hlookup
  exact .variable (lookup_patternLocals hlookup)

/-- The body of an arm uses the visitor and all that the pattern binds, and nothing else. -/
theorem block_arm (hm : ∀ name, table.isNode name → nodes name) {payload : List TypeExpr}
    {steps : List Step} (hany : payload.any table.containsNode)
    (hs : slotSteps? table payload = .ok steps) :
    ∃ inner, Block nodes fieldType
        (patternLocals (slotBindings table payload) (.atomic "Span" :: payload) ++ parameters union)
        3 (steps.flatMap (Step.lines 3)) inner ∧
      ∀ name, name ∈ inner ↔ name = "visitor" ∨ some name ∈ slotBindings table payload := by
  obtain ⟨found, rfl, hwalks⟩ := walks_of_slotSteps? hs
  have hv : (patternLocals (slotBindings table payload) (.atomic "Span" :: payload)
      ++ parameters union).lookup "visitor" = some .visitor :=
    lookup_patternLocals_append (visitor_not_bound table payload)
  obtain ⟨inner, hblock, hinner⟩ := block_members hm hwalks hv fun p hp hc =>
    refers_slot payload (parameters union) hp hc
  obtain ⟨type, htype, hc⟩ := List.any_eq_true.1 hany
  rw [← List.zipIdx_map_fst 0 payload] at htype
  obtain ⟨p, hp, rfl⟩ := List.mem_map.1 htype
  use inner, hblock
  intro name
  rw [hinner, mem_slotBindings_iff]
  constructor
  · intro h
    obtain ⟨q, hq, hc, hname | hname⟩ := h
    · exact .inl hname
    · exact .inr ⟨q, hq, hc, hname⟩
  · intro h
    rcases h with hname | ⟨q, hq, hc, hname⟩
    · exact ⟨p, hp, hc, .inl hname⟩
    · exact ⟨q, hq, hc, .inr hname⟩

theorem armLines (hm : ∀ name, table.isNode name → nodes name) {variants : List Variant}
    {arms : List Arm}
    (h : List.Forall₂ (fun v arm => Arm.ofVariant? table v = .ok arm) variants arms) :
    ∃ used, ArmLines nodes fieldType union (parameters union) variants
      (arms.flatMap (Arm.lines union)) used ∧
      ∀ name, name ∈ used ↔ name = "visitor" ∧ arms.all (·.isLeaf) = false := by
  induction h with
  | nil => exact ⟨[], .nil, by simp⟩
  | @cons v arm variants arms h _ ih =>
    obtain ⟨used, hlines, hused⟩ := ih
    rw [Arm.ofVariant?] at h
    split at h
    next hany =>
      obtain ⟨steps, hs, h⟩ := bind_eq_ok_iff.1 h
      obtain rfl : .walk v.name (bindings table v.payload 0) steps = arm := Except.ok.inj h
      obtain ⟨inner, hblock, hinner⟩ := block_arm hm hany hs
      have hl : (slotBindings table v.payload).length = v.payload.length + 1 := by
        simp [slotBindings, bindings]
      have hi : ∀ name, some name ∈ slotBindings table v.payload → name ∈ inner :=
        fun name hname => (hinner name).2 (.inr hname)
      have hfree (name : String) :
          name ∈ inner.filter (some · ∉ slotBindings table v.payload) ↔ name = "visitor" := by
        rw [List.mem_filter, hinner, decide_eq_true_eq]
        constructor
        · intro h
          exact h.1.resolve_right h.2
        · intro h
          subst h
          exact ⟨.inl rfl, visitor_not_bound table v.payload⟩
      have harm := ArmLines.bind hl (nodup_slotBindings table v.payload) hblock hi hlines
      rw [List.flatMap_cons, Arm.lines, map_text_bindings]
      refine ⟨_, harm, fun name => ?_⟩
      rw [List.mem_append, hfree, hused]
      simp only [List.all_cons, Arm.isLeaf, Bool.false_and, and_true]
      exact ⟨fun h => h.elim id And.left, .inl⟩
    next hany =>
      obtain rfl := Except.ok.inj h
      exact ⟨used, .skip hlines, hused⟩

end Arms

end Code

namespace Schema

/-- The type of a field of a record, by the name under which the field is written. -/
def FieldHasType (schema : Schema) (record name : String) (type : TypeExpr) : Prop :=
  ∃ fields, .record record fields ∈ schema.declarations ∧
    ∃ f ∈ fields, f.written = name ∧ f.type = type

/-- The lines are the walker of a node: a head with both parameters, and a body in their scope that
uses both of them. -/
def ScopedWalker (schema : Schema) (lifetime : String) (d : Declaration) (lines : List String) :
    Prop :=
  ∃ body used,
    lines = ["pub fn walk_" ++ snakeCase d.name ++ "<" ++ lifetime ++ ", V: Visitor<" ++ lifetime
        ++ ">>(visitor: &mut V, node: &" ++ d.name ++ "<" ++ lifetime ++ ">) \x7b"]
      ++ body ++ ["\x7d"] ∧
    BodyLines (fun name => ∃ e ∈ schema.nodes, e.name = name) schema.FieldHasType d body used ∧
    ∀ name, name ∈ used ↔ name = "visitor" ∨ name = "node"

variable {schema : Schema} {options : Options}

theorem Sound.exists_node (hs : schema.Sound options) (name : String)
    (h : (NameTable.ofSchema schema options).isNode name) : ∃ e ∈ schema.nodes, e.name = name :=
  (hs.knowsNodes name).1 h

/-- The fields are read from `node`; where none of them is, both parameters are discarded. -/
theorem Sound.scopedWalker_record (hs : schema.Sound options) {name : String}
    {fields : List Field} (hd : .record name fields ∈ schema.declarations) {steps : List Step}
    (h : Code.fieldSteps? (.ofSchema schema options) fields = .ok steps) (lifetime : String) :
    schema.ScopedWalker lifetime (.record name fields)
      ((Walker.record name steps).lines lifetime) := by
  cases steps with
  | nil => exact ⟨_, _, rfl, .discardBoth, fun name => by simp⟩
  | cons step steps =>
    obtain ⟨found, he, hwalks⟩ := Code.walks_of_fieldSteps? h
    have hfield : ∀ f ∈ fields, (NameTable.ofSchema schema options).containsNode f.type →
        Code.Refers schema.FieldHasType (parameters name) (Operand.field f.written).text f.type
          "node" :=
      fun f hf _ => .field rfl ⟨fields, hd, f, hf, rfl, rfl⟩
    have hv : (parameters name).lookup "visitor" = some .visitor := rfl
    obtain ⟨used, hblock, hused⟩ := Code.block_members hs.exists_node hwalks hv hfield
    rw [← he] at hblock
    have hstep : some step ∈ found := by
      have hm : step ∈ found.filterMap id := he ▸ List.mem_cons_self
      obtain ⟨step', hm, rfl⟩ := List.mem_filterMap.1 hm
      exact hm
    obtain ⟨f, hf, hwalk⟩ := exists_of_mem_right hwalks hstep
    have hc : (NameTable.ofSchema schema options).containsNode f.type := hwalk.isSome_eq.symm
    refine ⟨_, used, rfl, .record hblock, fun name => ?_⟩
    rw [hused]
    exact ⟨fun ⟨_, _, _, h⟩ => h, fun h => ⟨f, hf, hc, h⟩⟩

/-- The match reads `node`; the visitor is discarded where no arm uses it. -/
theorem Sound.scopedWalker_union (hs : schema.Sound options) {name : String}
    {variants : List Variant} {arms : List Arm}
    (h : variants.mapM (Arm.ofVariant? (.ofSchema schema options)) = .ok arms) (lifetime : String) :
    schema.ScopedWalker lifetime (.union name variants)
      ((Walker.union name arms).lines lifetime) := by
  have hall := (mapM_eq_ok_iff (fun _ _ _ => Iff.rfl) arms).1 h
  obtain ⟨used, hlines, hused⟩ := Code.armLines hs.exists_node hall
  have hmatch : BodyLines _ schema.FieldHasType (.union name variants) _ _ := .union hlines
  cases hleaf : arms.all (·.isLeaf) with
  | true =>
    have hbody : (Walker.union name arms).body = indent 1 "let _ = visitor;" ::
        ([indent 1 "match node \x7b"] ++ arms.flatMap (Arm.lines name) ++ [indent 1 "\x7d"]) := by
      rw [Walker.body, if_pos hleaf]
      rfl
    refine ⟨_, _, by rw [Walker.lines, hbody]; rfl, .discardVisitor hmatch, fun name => ?_⟩
    simp [hused, hleaf]
  | false =>
    have hbody : (Walker.union name arms).body =
        [indent 1 "match node \x7b"] ++ arms.flatMap (Arm.lines name) ++ [indent 1 "\x7d"] := by
      rw [Walker.body, if_neg (by simp [hleaf])]
      rfl
    refine ⟨_, _, by rw [Walker.lines, hbody]; rfl, hmatch, fun name => ?_⟩
    simp [hused, hleaf, or_comm]

theorem Sound.scopedWalker (hs : schema.Sound options) {d : Declaration}
    (hd : d ∈ schema.declarations) {walker : Walker}
    (h : Walker.ofDeclaration? (.ofSchema schema options) d = .ok (some walker))
    (lifetime : String) : schema.ScopedWalker lifetime d (walker.lines lifetime) := by
  cases d with
  | record name fields =>
    obtain ⟨steps, hsteps, h⟩ := bind_eq_ok_iff.1 h
    obtain rfl := Option.some.inj (Except.ok.inj h)
    exact hs.scopedWalker_record hd hsteps lifetime
  | union name variants =>
    obtain ⟨arms, harms, h⟩ := bind_eq_ok_iff.1 h
    obtain rfl := Option.some.inj (Except.ok.inj h)
    exact hs.scopedWalker_union harms lifetime
  | plain name tags => cases h

/-- What is emitted for a value is a well typed block wherever the value has its type: it has lines
if and only if the type has a node in it, and then one of them is a visit. Of a generated visitor,
every walker is made of such blocks in the scope of its parameters; these and all that is bound
inside are used. -/
theorem traversal_scoped_and_typed :
    (∀ (table : NameTable) (type : TypeExpr) (value : Operand) (level : Nat) (step : Option Step),
      Step.ofType? table value type = .ok step →
      let lines := step.toList.flatMap (Step.lines level)
      (∀ fieldType locals root, locals.lookup "visitor" = some .visitor →
        Code.Refers fieldType locals value.text type root →
        ∃ used, Block (table.isNode ·) fieldType locals level lines used ∧
          ∀ name ∈ used, name = "visitor" ∨ name = root) ∧
      (lines = [] ↔ ∀ name ∈ type.atoms, ¬table.isNode name) ∧
      (lines ≠ [] → ∃ deeper node text, table.isNode node ∧
        visitLine deeper node text ∈ lines)) ∧
    ∀ (schema : Schema) (options : Options) (text : String),
      schema.generateVisitor options = .ok text →
      ∃ walkers, text = Code.text (VisitorFile.lines ⟨options.visitorCommand, options.astModule,
          options.quotedLifetime, schema.nodes.map (·.name), []⟩ ++ walkers.flatMap ("" :: ·)) ∧
        List.Forall₂ (schema.ScopedWalker options.quotedLifetime) schema.nodes walkers := by
  constructor
  · intro table type value level step h lines
    have hwalks := Code.walks_of_ofType? h
    refine ⟨?_, hwalks.lines_eq_nil_iff, ?_⟩
    · intro fieldType locals root hv hx
      cases step with
      | none => exact ⟨[], .nil, List.forall_mem_nil _⟩
      | some step =>
        obtain ⟨used, hblock, hused⟩ := hwalks.block (fun _ h => h) hv (fun _ => hx) step rfl
        have hlines : lines = step.lines level := List.flatMap_singleton ..
        exact ⟨used, hlines ▸ hblock, fun name => (hused name).1⟩
    · intro hne
      cases step with
      | none => exact absurd rfl hne
      | some step =>
        have hlines : lines = step.lines level := List.flatMap_singleton ..
        rw [hlines]
        exact hwalks.exists_visitLine level step rfl
  · intro schema options text h
    obtain ⟨hs, -⟩ := exists_visitorFile h
    obtain ⟨walkers, hw, htext⟩ := exists_walker_blocks h
    rw [← List.flatMap_map] at htext
    use walkers.map (·.lines options.quotedLifetime), htext
    rw [List.forall₂_map_right_iff]
    apply ((List.forall₂_and_left _ _).2 ⟨fun _ hm => hm, hw⟩).imp
    intro d walker h
    exact hs.scopedWalker (List.mem_of_mem_filter h.1) h.2.1 options.quotedLifetime

theorem boxes_in_sequence_scoped :
    let type : TypeExpr := .generic "Vec" [.generic "Box" [.generic "Option"
      [.generic "Box" [.generic "Box" [.atomic "Expr"]]]]]
    let schema : Schema := ⟨[.union "Expr" [⟨"Name", [.atomic "Ident"]⟩, ⟨"Holes", [type]⟩],
      .record "Label" [⟨"text", .atomic "Ident"⟩]]⟩
    let table := NameTable.ofSchema schema .default
    let lines := ["            for item in f0 \x7b",
      "                if let Some(item) = &**item \x7b",
      "                    visitor.visit_expr(&**item);", "                \x7d",
      "            \x7d"]
    (∃ used, Block (table.isNode ·) (fun _ _ _ => False)
        [("f0", .value type), ("visitor", .visitor)] 3 lines used ∧
      ∀ name ∈ used, name = "visitor" ∨ name = "f0") ∧
    (∃ deeper node text, table.isNode node ∧ visitLine deeper node text ∈ lines) ∧
    ∃ walkers, schema.generateVisitor .default = .ok (Code.text (VisitorFile.lines
          ⟨Options.default.visitorCommand, "crate::ast", "'src", ["Expr", "Label"], []⟩
        ++ walkers.flatMap ("" :: ·))) ∧
      List.Forall₂ (schema.ScopedWalker "'src") schema.nodes walkers := by
  intro type schema table lines
  have hverify : schema.verify .default = .ok table :=
    verify_of_passes 1 (by decide) (by decide) (by decide)
  obtain ⟨text, htext⟩ : ∃ text, schema.generateVisitor .default = .ok text := by
    rw [generateVisitor, hverify]
    exact ⟨_, rfl⟩
  let step : Step := .each (.slot 0) (.ifPresent (.unboxed .item) (.visit "Expr" (.unboxed .item)))
  have hstep : Step.ofType? table (.slot 0) type = .ok (some step) := rfl
  obtain ⟨hvalues, hvisitors⟩ := traversal_scoped_and_typed
  obtain ⟨hblock, hnil, hvisit⟩ := hvalues table type (.slot 0) 3 _ hstep
  have hlines : (some step).toList.flatMap (Step.lines 3) = lines := by decide
  rw [hlines] at hblock hvisit
  obtain ⟨walkers, hwalkers, hscoped⟩ := hvisitors schema .default text htext
  rw [hwalkers] at htext
  exact ⟨hblock _ _ "f0" rfl (.variable rfl), hvisit (List.cons_ne_nil _ _), walkers, htext,
    hscoped⟩

end Schema

end NodeSchema
