import NodeSchema.Proofs.Definitions.ReadFile
import NodeSchema.Proofs.Generation.Agreement
import NodeSchema.Proofs.Visitor.Typing

namespace NodeSchema

open Code (Definition DefinitionsFile Step VisitorFile Walker)
open Program (Expression bindings rootsAll tokens)
open Text (snakeCase)

namespace Schema

/-- The pattern of an arm: a hole for the span, then the slots that can hold nodes under names made
of their indices in the payload, and holes for the others. -/
def slotPattern (schema : Schema) (payload : List TypeExpr) : List (Option String) :=
  none :: payload.mapIdx fun i type =>
    if schema.HoldsNode type then some ("f" ++ toString i) else none

/-- The arm of a walker for a variant. -/
structure ArmFor (schema : Schema) (union : String) (v : Variant) (arm : Program.Arm) : Prop where
  union : arm.union = union
  variant : arm.variant = v.name
  skips : arm.pattern = none ↔ ∀ type ∈ v.payload, ¬schema.HoldsNode type
  binds : ∀ pattern ∈ arm.pattern, pattern = schema.slotPattern v.payload
  body : arm.body = [] ↔ arm.pattern = none
  reads : ∀ root ∈ rootsAll arm.body, ∃ name, root = .variable name
  uses : ∀ name, (rootsAll arm.body).count (.variable name) =
    if some name ∈ arm.pattern.getD [] then 1 else 0

/-- The lines are the enum of a union: a definition for every variant, its span in front of its
payload, and an arm of the span accessor for every variant. -/
def DefinesUnion (lifetime name : String) (variants : List Variant) (lines : List String) : Prop :=
  Item.read lifetime (tokens (Code.text lines)) =
    some (.enum name (variants.map fun v => ⟨v.name, .atomic "Span" :: v.payload⟩)
      (variants.map fun v => (name, v.name)), [])

/-- The line of a walker that uses its visitor nowhere else. -/
def discardLine : String := Code.indent 1 "let _ = visitor;"

/-- The lines are the walker of a union, which leaves its visitor unused only where no arm has a
body. -/
def WalksUnion (schema : Schema) (lifetime name : String) (variants : List Variant)
    (lines : List String) : Prop :=
  ∃ body arms, Program.readRoutine lifetime (tokens (Code.text lines)) =
      some (⟨"walk_" ++ snakeCase name, name, body, some arms⟩, []) ∧
    List.Forall₂ (schema.ArmFor name) variants arms ∧
    (discardLine ∈ lines ↔ ∀ arm ∈ arms, arm.body = [])

variable {schema : Schema} {options : Options} {table : NameTable}

section Arms

theorem map_bound?_bindings (ht : table.KnowsNodes schema) (payload : List TypeExpr) :
    none :: (bindings table payload 0).map (·.bound?) = schema.slotPattern payload := by
  rw [slotPattern, bindings, List.map_map, List.mapIdx_eq_zipIdx_map]
  congr 1
  apply List.map_congr_left
  intro p _
  cases p with
  | mk type i =>
    simp only [Function.comp, ← ht.containsNode_iff]
    split
    · rfl
    · rfl

/-- The slots that can hold nodes, as variables. -/
def slotVariables (table : NameTable) (payload : List TypeExpr) : List Expression :=
  (payload.zipIdx.filter fun p => table.containsNode p.1).map fun p =>
    .variable ("f" ++ toString p.2)

theorem nodup_slotVariables (table : NameTable) (payload : List TypeExpr) :
    (slotVariables table payload).Nodup := by
  have hindices : ((payload.zipIdx.filter fun p => table.containsNode p.1).map Prod.snd).Nodup := by
    have hall : (payload.zipIdx.map Prod.snd).Nodup := by
      rw [List.zipIdx_map_snd]
      exact List.nodup_range'
    exact hall.sublist (List.filter_sublist.map _)
  have hinj : Function.Injective fun i : Nat => Expression.variable ("f" ++ toString i) :=
    fun _ _ h => Text.index_injective (Expression.variable.inj h)
  have hvariables := hindices.map hinj
  rwa [List.map_map] at hvariables

theorem mem_slotVariables_iff (ht : table.KnowsNodes schema) {payload : List TypeExpr}
    {name : String} :
    .variable name ∈ slotVariables table payload ↔ some name ∈ schema.slotPattern payload := by
  rw [slotVariables, slotPattern, List.mapIdx_eq_zipIdx_map]
  simp only [List.mem_cons, List.mem_map, List.mem_filter, reduceCtorEq, false_or,
    Expression.variable.injEq, ht.containsNode_iff, Option.ite_none_right_eq_some,
    Option.some.injEq, and_assoc]

/-- The arm of a variant passes over the variant, or binds its nodes and uses each of them once. -/
theorem armFor_of_ofVariant? (ht : table.KnowsNodes schema) (union : String) {v : Variant}
    {arm : Code.Arm} (h : Code.Arm.ofVariant? table v = .ok arm) :
    schema.ArmFor union v (arm.toProgram union) := by
  rw [Code.Arm.ofVariant?] at h
  split at h
  next hany =>
    obtain ⟨steps, hs, h⟩ := bind_eq_ok_iff.1 h
    obtain rfl : .walk v.name (bindings table v.payload 0) steps = arm := Except.ok.inj h
    obtain ⟨found, rfl, hwalks⟩ := Code.walks_of_slotSteps? hs
    have hroots : rootsAll ((found.filterMap id).map (·.statement)) =
        slotVariables table v.payload := Code.rootsAll_members hwalks
    obtain ⟨type, htype, hc⟩ := List.any_eq_true.1 hany
    have hheld := ht.containsNode_iff.1 hc
    have hpattern : ((Code.Arm.walk v.name (bindings table v.payload 0)
        (found.filterMap id)).toProgram union).pattern = some (schema.slotPattern v.payload) :=
      congrArg some (map_bound?_bindings ht v.payload)
    constructor
    case union => rfl
    case variant => rfl
    case skips =>
      apply iff_of_false
      · intro hnone
        cases hnone
      · exact fun hnone => hnone type htype hheld
    case binds => exact fun pattern hp => Option.some.inj (hp.symm.trans hpattern)
    case body =>
      apply iff_of_false
      · intro he
        rw [← List.zipIdx_map_fst 0 v.payload] at htype
        obtain ⟨p, hp, rfl⟩ := List.mem_map.1 htype
        have hused : .variable ("f" ++ toString p.2) ∈ slotVariables table v.payload :=
          List.mem_map_of_mem (List.mem_filter.2 ⟨hp, hc⟩)
        rw [← hroots, List.map_eq_nil_iff.1 he] at hused
        cases hused
      · intro hleaf
        cases hleaf
    case reads =>
      have hvariables : ∀ root ∈ slotVariables table v.payload,
          ∃ name, root = .variable name := by
        rw [slotVariables, List.forall_mem_map]
        exact fun p _ => ⟨_, rfl⟩
      exact hroots ▸ hvariables
    case uses =>
      intro name
      have hcount := (nodup_slotVariables table v.payload).count (a := .variable name)
      rw [hpattern, Option.getD_some, ← if_congr (mem_slotVariables_iff ht) rfl rfl, ← hcount]
      exact congrArg (List.count _) hroots
  next hany =>
    obtain rfl := Except.ok.inj h
    have hnone : ∀ type ∈ v.payload, ¬schema.HoldsNode type := by
      intro type htype hheld
      exact hany (List.any_eq_true.2 ⟨type, htype, ht.containsNode_iff.2 hheld⟩)
    constructor
    case union => rfl
    case variant => rfl
    case skips => exact iff_of_true rfl hnone
    case binds =>
      intro pattern hp
      cases hp
    case body => exact iff_of_true rfl rfl
    case reads => exact List.forall_mem_nil _
    case uses => exact fun _ => rfl

end Arms

section Discard

theorem indent_ne_discardLine {level : Nat} (h : 2 ≤ level) (line : String) :
    Code.indent level line ≠ discardLine := by
  intro he
  have hfifth := congrArg (·.toList[4]?) he
  have hblank : 4 < (List.replicate (4 * level) ' ').length := by
    rw [List.length_replicate]
    omega
  simp only [Code.indent, String.toList_append, String.toList_ofList,
    List.getElem?_append_left hblank, List.getElem?_replicate] at hfifth
  rw [if_pos (by omega)] at hfifth
  exact absurd hfifth (by decide)

theorem exists_indent_of_mem_lines {step : Step} {level : Nat} {line : String}
    (h : line ∈ step.lines level) : ∃ deeper ≥ level, ∃ s, line = Code.indent deeper s := by
  have hblock {first last : String} {body : Step} {level : Nat}
      (ih : line ∈ body.lines (level + 1) → ∃ deeper ≥ level + 1, ∃ s, line = Code.indent deeper s)
      (h : line ∈ [Code.indent level first] ++ body.lines (level + 1) ++ [Code.indent level last]) :
      ∃ deeper ≥ level, ∃ s, line = Code.indent deeper s := by
    rw [List.mem_append, List.mem_append, List.mem_singleton, List.mem_singleton] at h
    rcases h with (h | h) | h
    · exact ⟨level, le_rfl, first, h⟩
    · obtain ⟨deeper, hd, h⟩ := ih h
      exact ⟨deeper, Nat.le_of_succ_le hd, h⟩
    · exact ⟨level, le_rfl, last, h⟩
  induction step generalizing level with
  | visit node value => exact ⟨level, le_rfl, _, List.mem_singleton.1 h⟩
  | each values body ih => exact hblock ih h
  | ifPresent value body ih => exact hblock ih h

theorem discardLine_not_mem_arm (union : String) (arm : Code.Arm) :
    discardLine ∉ arm.lines union := by
  have hne {level : Nat} (h : 2 ≤ level) (line : String) :
      discardLine ≠ Code.indent level line := (indent_ne_discardLine h line).symm
  cases arm with
  | leaf variant =>
    rw [Code.Arm.lines, List.mem_singleton]
    exact hne le_rfl _
  | walk variant slots body =>
    rw [Code.Arm.lines, List.mem_append, List.mem_append, List.mem_singleton, List.mem_singleton,
      List.mem_flatMap]
    intro h
    rcases h with (h | ⟨step, -, h⟩) | h
    · exact hne le_rfl _ h
    · obtain ⟨deeper, hd, line, h⟩ := exists_indent_of_mem_lines h
      exact hne (Nat.le_of_succ_le hd) line h
    · exact hne le_rfl _ h

theorem discardLine_mem_lines_iff (lifetime name : String) (arms : List Code.Arm) :
    discardLine ∈ (Walker.union name arms).lines lifetime ↔ arms.all (·.isLeaf) := by
  have hhead (rest : String) : discardLine ≠ "pub fn walk_" ++ rest := by
    intro he
    have hfirst := congrArg (·.toList.head?) he
    rw [String.toList_append] at hfirst
    cases hfirst
  simp only [Walker.lines, Walker.body, List.mem_append, List.mem_singleton, List.mem_flatMap,
    String.append_assoc]
  constructor
  · intro h
    rcases h with (h | ((h | h) | ⟨arm, -, h⟩) | h) | h
    · exact absurd h (hhead _)
    · split at h
      next hall => exact hall
      next => cases h
    · exact absurd h (by decide)
    · exact absurd h (discardLine_not_mem_arm name arm)
    · exact absurd h (by decide)
    · exact absurd h (by decide)
  · intro hall
    rw [if_pos hall]
    exact .inl (.inr (.inl (.inl (.inl (List.mem_singleton.2 rfl)))))

end Discard

section Blocks

variable {text : String}

theorem exists_definition_blocks (h : schema.generateDefinitions options = .ok text) :
    ∃ definitions, List.Forall₂ (fun d definition =>
        Definition.ofDeclaration? (.ofSchema schema options) d = .ok definition)
        schema.declarations definitions ∧
      text = Code.text (DefinitionsFile.lines ⟨options.astCommand, options.spanImport,
          options.textAlias, options.quotedLifetime, []⟩ ++
        definitions.flatMap fun d => "" :: d.lines options.quotedLifetime) := by
  obtain ⟨-, file, rfl, hfile⟩ := exists_definitionsFile h
  obtain ⟨definitions, hd, hfile⟩ := bind_eq_ok_iff.1 hfile
  obtain rfl := Except.ok.inj hfile
  use definitions, (mapM_eq_ok_iff (fun _ _ _ => Iff.rfl) definitions).1 hd
  rw [DefinitionsFile.text, DefinitionsFile.lines, DefinitionsFile.lines, List.flatMap_nil,
    List.append_nil]
  rfl

theorem exists_walker_blocks (h : schema.generateVisitor options = .ok text) :
    ∃ walkers, List.Forall₂ (fun d w =>
        Walker.ofDeclaration? (.ofSchema schema options) d = .ok (some w) ∧ w.node = d.name)
        schema.nodes walkers ∧
      text = Code.text (VisitorFile.lines ⟨options.visitorCommand, options.astModule,
          options.quotedLifetime, schema.nodes.map (·.name), []⟩ ++
        walkers.flatMap fun w => "" :: w.lines options.quotedLifetime) := by
  obtain ⟨-, file, rfl, hfile⟩ := exists_visitorFile h
  obtain ⟨walkers, hw, rfl⟩ := VisitorFile.eq_of_ofSchema? hfile
  use walkers, hw
  rw [VisitorFile.text, VisitorFile.lines, VisitorFile.lines, List.flatMap_nil, List.append_nil]
  rfl

theorem definesUnion_of_ofDeclaration? (hs : schema.Sound options) {name : String}
    {variants : List Variant} (hd : .union name variants ∈ schema.declarations)
    {definition : Definition}
    (h : Definition.ofDeclaration? (.ofSchema schema options) (.union name variants) =
      .ok definition) :
    DefinesUnion options.quotedLifetime name variants
      (definition.lines options.quotedLifetime) := by
  have hl : Item.IsLifetime (NameTable.ofSchema schema options).lifetime :=
    Item.isLifetime_quote options.lifetime
  have hread := Item.read_declaration hl (hs.worded hd nofun) h []
  rwa [List.append_nil] at hread

theorem walksUnion_of_ofDeclaration? (hs : schema.Sound options) {name : String}
    {variants : List Variant} (hd : .union name variants ∈ schema.declarations) {walker : Walker}
    (h : Walker.ofDeclaration? (.ofSchema schema options) (.union name variants) =
      .ok (some walker)) :
    schema.WalksUnion options.quotedLifetime name variants
      (walker.lines options.quotedLifetime) := by
  obtain ⟨arms, harms, h⟩ := bind_eq_ok_iff.1 h
  obtain rfl := Option.some.inj (Except.ok.inj h)
  have hall := (mapM_eq_ok_iff (fun _ _ _ => Iff.rfl) arms).1 harms
  have hread := Program.readRoutine_walker (Walker.worded_union hs hd harms)
    options.quotedLifetime []
  rw [List.append_nil] at hread
  have harmsFor : List.Forall₂ (schema.ArmFor name) variants (arms.map (·.toProgram name)) := by
    rw [List.forall₂_map_right_iff]
    exact hall.imp fun v arm h => armFor_of_ofVariant? hs.knowsNodes name h
  have hleaf : ∀ arm ∈ arms, (arm.toProgram name).body = [] ↔ arm.isLeaf := by
    intro arm hm
    obtain ⟨v, -, h⟩ := exists_of_mem_right hall hm
    rw [(armFor_of_ofVariant? hs.knowsNodes name h).body]
    cases arm with
    | leaf variant => exact iff_of_true rfl rfl
    | walk variant slots body => exact iff_of_false nofun nofun
  have hdiscard : discardLine ∈ (Walker.union name arms).lines options.quotedLifetime ↔
      ∀ arm ∈ arms.map (·.toProgram name), arm.body = [] := by
    rw [discardLine_mem_lines_iff, List.forall_mem_map, List.all_eq_true]
    exact forall₂_congr fun arm hm => (hleaf arm hm).symm
  exact ⟨_, _, hread, harmsFor, hdiscard⟩

end Blocks

/-- Both files have a block for every union, in the place of its declaration. -/
theorem unions_defined_and_walked {code : GeneratedCode}
    (h : schema.generate options = .ok code) :
    (∀ name variants, .union name variants ∈ schema.declarations →
      (variants.map (·.name)).Nodup) ∧
    ∃ definitions walkers,
      code.definitions = Code.text (DefinitionsFile.lines ⟨options.astCommand, options.spanImport,
          options.textAlias, options.quotedLifetime, []⟩ ++ definitions.flatMap ("" :: ·)) ∧
      List.Forall₂ (fun d lines => ∀ name variants, d = .union name variants →
        DefinesUnion options.quotedLifetime name variants lines)
        schema.declarations definitions ∧
      code.visitor = Code.text (VisitorFile.lines ⟨options.visitorCommand, options.astModule,
          options.quotedLifetime, schema.nodes.map (·.name), []⟩ ++ walkers.flatMap ("" :: ·)) ∧
      List.Forall₂ (fun d lines => ∀ name variants, d = .union name variants →
        schema.WalksUnion options.quotedLifetime name variants lines) schema.nodes walkers := by
  obtain ⟨hdefinitions, hvisitor⟩ := generate_eq_ok_iff.1 h
  obtain ⟨hs, -⟩ := exists_definitionsFile hdefinitions
  obtain ⟨definitions, hd, htext⟩ := exists_definition_blocks hdefinitions
  obtain ⟨walkers, hw, htext'⟩ := exists_walker_blocks hvisitor
  have hdefined : List.Forall₂ (fun d lines => ∀ name variants, d = .union name variants →
      DefinesUnion options.quotedLifetime name variants lines) schema.declarations
      (definitions.map (·.lines options.quotedLifetime)) := by
    rw [List.forall₂_map_right_iff]
    apply ((List.forall₂_and_left _ _).2 ⟨fun _ hm => hm, hd⟩).imp
    intro d definition h name variants he
    subst he
    exact definesUnion_of_ofDeclaration? hs h.1 h.2
  have hwalked : List.Forall₂ (fun d lines => ∀ name variants, d = .union name variants →
      schema.WalksUnion options.quotedLifetime name variants lines) schema.nodes
      (walkers.map (·.lines options.quotedLifetime)) := by
    rw [List.forall₂_map_right_iff]
    apply ((List.forall₂_and_left _ _).2 ⟨fun _ hm => hm, hw⟩).imp
    intro d walker h name variants he
    subst he
    exact walksUnion_of_ofDeclaration? hs (List.mem_of_mem_filter h.1) h.2.1
  rw [← List.flatMap_map] at htext htext'
  exact ⟨fun name variants hm => (hs.membersApart _ hm).2.1, _, _, htext, hdefined, htext',
    hwalked⟩

theorem call_defined_and_walked :
    let call : List TypeExpr :=
      [.generic "Box" [.atomic "Expr"], .atomic "Ident", .generic "Vec" [.atomic "Expr"]]
    let variants : List Variant := [⟨"Name", [.atomic "Ident"]⟩, ⟨"Call", call⟩]
    let schema : Schema := ⟨[.plain "Sign" ["Plus", "Minus"], .union "Expr" variants]⟩
    ∃ code sign expr walker, schema.generate .default = .ok code ∧
      code.definitions = Code.text (DefinitionsFile.lines ⟨Options.default.astCommand,
          "crate::Span", "Ident", "'src", []⟩ ++ [sign, expr].flatMap ("" :: ·)) ∧
      DefinesUnion "'src" "Expr" variants expr ∧
      code.visitor = Code.text (VisitorFile.lines ⟨Options.default.visitorCommand, "crate::ast",
          "'src", ["Expr"], []⟩ ++ [walker].flatMap ("" :: ·)) ∧
      schema.WalksUnion "'src" "Expr" variants walker ∧
      schema.slotPattern call = [none, some "f0", none, some "f2"] := by
  intro call variants schema
  have hverify : schema.verify .default = .ok (.ofSchema schema .default) :=
    verify_of_passes 1 (by decide) (by decide) (by decide)
  obtain ⟨code, hcode⟩ : ∃ code, schema.generate .default = .ok code := by
    rw [generate, hverify]
    exact ⟨_, rfl⟩
  obtain ⟨-, definitions, walkers, hd, hdefined, hv, hwalked⟩ := unions_defined_and_walked hcode
  have hnodes : schema.nodes = [.union "Expr" variants] := rfl
  rw [hnodes] at hwalked hv
  cases hdefined with
  | @cons _ sign _ _ _ hdefined =>
  cases hdefined with
  | @cons _ expr _ _ hexpr hdefined =>
  cases hdefined
  cases hwalked with
  | @cons _ walker _ _ hwalker hwalked =>
  cases hwalked
  exact ⟨code, sign, expr, walker, hcode, hd, hexpr _ _ rfl, hv, hwalker _ _ rfl, by decide⟩

end Schema

end NodeSchema
