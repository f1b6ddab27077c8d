import NodeSchema.Build
import NodeSchema.Proofs.Generation.Walkable
import NodeSchema.Proofs.Verification.Acceptance

namespace NodeSchema

open Text (quote)

namespace TypeExpr

theorem Resolves.fault?_toCode {table : NameTable} {type : TypeExpr} (h : type.Resolves table) :
    fault? (type.toCode table) = none := by
  induction type using TypeExpr.induction with
  | atomic name =>
    obtain ⟨meaning, hm⟩ := Option.isSome_iff_exists.1 (resolves_atomic.1 h).2
    rw [toCode, hm]
    cases meaning with
    | textAlias | node | plain | foreign => rfl
  | generic container args ih =>
    obtain ⟨-, hne, hargs⟩ := resolves_generic.1 h
    have hempty : ¬args.isEmpty = true := by simpa using hne
    rw [toCode, if_neg hempty, fault?_bind fun _ => rfl, toCodes_eq_mapM, fault?_mapM,
      List.findSome?_eq_none_iff]
    exact fun arg hm => ih arg hm (hargs arg hm)

end TypeExpr

namespace Code

variable {schema : Schema} {table : NameTable} {options : Options}

theorem fault?_definition {d : Declaration} (h : ∀ type ∈ d.memberTypes, type.Resolves table) :
    fault? (Definition.ofDeclaration? table d) = none := by
  cases d with
  | record name fields =>
    rw [Declaration.memberTypes, List.forall_mem_map] at h
    rw [Definition.ofDeclaration?, fault?_bind fun _ => rfl, fault?_mapM,
      List.findSome?_eq_none_iff]
    intro f hf
    rw [FieldLine.ofField?, fault?_bind fun _ => rfl]
    exact (h f hf).fault?_toCode
  | union name variants =>
    rw [Declaration.memberTypes, List.forall_mem_flatMap] at h
    rw [Definition.ofDeclaration?, fault?_bind fun _ => rfl, fault?_mapM,
      List.findSome?_eq_none_iff]
    intro v hv
    rw [VariantLine.ofVariant?, fault?_bind fun _ => rfl, TypeExpr.toCodes_eq_mapM, fault?_mapM,
      List.findSome?_eq_none_iff]
    exact fun type ht => (h v hv type ht).fault?_toCode
  | plain name tags => rfl

/-- What keeps a type from being walked, if anything does. -/
def obstruction? (table : NameTable) (type : TypeExpr) : Option TypeFault :=
  fault? (Step.ofType? table .item type)

theorem fault?_ofType? (ht : table.KnowsNodes schema) (value : Operand) (type : TypeExpr) :
    fault? (Step.ofType? table value type) = obstruction? table type := by
  apply Option.ext
  intro fault
  rw [obstruction?, Step.fault?_ofType?_eq_some_iff ht, Step.fault?_ofType?_eq_some_iff ht]

theorem fault?_slotSteps? (ht : table.KnowsNodes schema) (payload : List TypeExpr) :
    fault? (slotSteps? table payload) = payload.findSome? (obstruction? table) := by
  rw [slotSteps?, fault?_bind fun _ => rfl, fault?_mapM]
  simp only [fault?_ofType? ht]
  rw [← List.zipIdx_map_fst 0 payload, List.findSome?_map, List.zipIdx_map_fst]
  rfl

theorem fault?_arm (ht : table.KnowsNodes schema) (variant : Variant) :
    fault? (Arm.ofVariant? table variant) = variant.payload.findSome? (obstruction? table) := by
  rw [Arm.ofVariant?]
  split
  next => rw [fault?_bind fun _ => rfl, fault?_slotSteps? ht]
  next hany =>
    symm
    apply List.findSome?_eq_none_iff.2
    intro type hm
    rw [List.any_eq_true] at hany
    have hc : table.containsNode type = false :=
      Bool.eq_false_iff.2 fun hc => hany ⟨type, hm, hc⟩
    rw [obstruction?, Step.ofType?_leaf hc]
    rfl

/-- The walker of a declaration fails at its first member that cannot be walked. -/
theorem fault?_walker (ht : table.KnowsNodes schema) (d : Declaration) :
    fault? (Walker.ofDeclaration? table d) = d.memberTypes.findSome? (obstruction? table) := by
  cases d with
  | record name fields =>
    rw [Walker.ofDeclaration?, fault?_bind fun _ => rfl, fieldSteps?, fault?_bind fun _ => rfl,
      fault?_mapM, Declaration.memberTypes, List.findSome?_map]
    simp only [fault?_ofType? ht]
    rfl
  | union name variants =>
    rw [Walker.ofDeclaration?, fault?_bind fun _ => rfl, fault?_mapM, Declaration.memberTypes,
      findSome?_flatMap]
    simp only [fault?_arm ht]
  | plain name tags => rfl

theorem fault?_visitorFile (ht : table.KnowsNodes schema) :
    fault? (VisitorFile.ofSchema? schema table options) =
      (schema.declarations.flatMap (·.memberTypes)).findSome? (obstruction? table) := by
  rw [VisitorFile.ofSchema?, fault?_bind fun _ => rfl, fault?_mapM, findSome?_flatMap]
  simp only [fault?_walker ht]

end Code

namespace Schema

/-- The types of all members of nodes, in the order of the declarations and of their members. -/
def memberTypes (schema : Schema) : List TypeExpr := schema.nodes.flatMap (·.memberTypes)

/-- The first of all member types that is not walkable. -/
def FirstUnwalkable (schema : Schema) (type : TypeExpr) : Prop :=
  ∃ before after, schema.memberTypes = before ++ type :: after ∧
    (∀ earlier ∈ before, schema.Walkable earlier) ∧ ¬schema.Walkable type

/-- A fault of the visitor, which quotes the obstacle in the first type that is not walkable. -/
def UnwalkedFault (schema : Schema) (fault : Fault) : Prop :=
  ∃ type obstacle cause, schema.FirstUnwalkable type ∧ schema.BlockedBy type obstacle ∧
    fault = .type cause ∧ cause.subject = quote obstacle.toText ∧
      ∃ container args, obstacle = .generic container args ∧ cause = .notWalked obstacle container

variable {schema : Schema} {options : Options} {fault : Fault}

theorem flatMap_memberTypes (schema : Schema) :
    schema.declarations.flatMap (·.memberTypes) = schema.memberTypes := by
  rw [memberTypes, nodes]
  induction schema.declarations with
  | nil => rfl
  | cons d ds ih =>
    cases d with
    | record name fields => exact congrArg (_ ++ ·) ih
    | union name variants => exact congrArg (_ ++ ·) ih
    | plain name tags => exact ih

theorem Sound.resolves (hs : schema.Sound options) {d : Declaration}
    (hd : d ∈ schema.declarations) :
    ∀ type ∈ d.memberTypes, type.Resolves (.ofSchema schema options) :=
  (resolves_iff hs.declaredOnce).2 ⟨hs.wellNamed d hd, hs.known d hd⟩

theorem Sound.knowsNodes (hs : schema.Sound options) :
    (NameTable.ofSchema schema options).KnowsNodes schema :=
  NameTable.knowsNodes_ofSchema hs.declaredOnce

theorem sound_of_verify {table : NameTable} (h : schema.verify options = .ok table) :
    schema.Sound options ∧ table = .ofSchema schema options := by
  obtain ⟨hfaults, rfl⟩ := verify_eq_ok_iff.1 h
  exact ⟨faults_eq_nil_iff.1 hfaults, rfl⟩

theorem exists_definitionsFile {text : String} (h : schema.generateDefinitions options = .ok text) :
    schema.Sound options ∧ ∃ file, text = file.text ∧
      Code.DefinitionsFile.ofSchema? schema (.ofSchema schema options) options = .ok file := by
  obtain ⟨table, hv, h⟩ := bind_eq_ok_iff.1 h
  obtain ⟨hs, rfl⟩ := sound_of_verify hv
  obtain ⟨file, hfile, h⟩ := bind_eq_ok_iff.1 h
  rw [mapError_eq_ok_iff] at hfile
  exact ⟨hs, file, (Except.ok.inj h).symm, hfile⟩

theorem exists_visitorFile {text : String} (h : schema.generateVisitor options = .ok text) :
    schema.Sound options ∧ ∃ file, text = file.text ∧
      Code.VisitorFile.ofSchema? schema (.ofSchema schema options) options = .ok file := by
  obtain ⟨table, hv, h⟩ := bind_eq_ok_iff.1 h
  obtain ⟨hs, rfl⟩ := sound_of_verify hv
  obtain ⟨file, hfile, h⟩ := bind_eq_ok_iff.1 h
  rw [mapError_eq_ok_iff] at hfile
  exact ⟨hs, file, (Except.ok.inj h).symm, hfile⟩

theorem Sound.fault?_definitionsText (hs : schema.Sound options) :
    fault? (schema.definitionsText (.ofSchema schema options) options) = none := by
  rw [definitionsText, fault?_bind fun _ => rfl, fault?_mapError, Code.DefinitionsFile.ofSchema?,
    fault?_bind fun _ => rfl, fault?_mapM, List.findSome?_eq_none_iff.2]
  · rfl
  · exact fun d hd => Code.fault?_definition (hs.resolves hd)

/-- The visitor of a sound schema fails at the obstacle in its first type that is not walkable. -/
theorem Sound.fault?_visitorText_eq_some_iff (hs : schema.Sound options) :
    fault? (schema.visitorText (.ofSchema schema options) options) = some fault ↔
      schema.UnwalkedFault fault := by
  have ht := hs.knowsNodes
  rw [visitorText, fault?_bind fun _ => rfl, fault?_mapError, Code.fault?_visitorFile ht,
    flatMap_memberTypes, Option.map_eq_some_iff]
  simp only [List.findSome?_eq_some_iff, Code.obstruction?,
    Code.Step.fault?_ofType?_eq_some_iff ht, Code.Step.fault?_ofType?_eq_none_iff ht]
  constructor
  · intro h
    obtain ⟨cause, ⟨before, type, after, hm, ⟨container, args, hb, rfl⟩, hw⟩, rfl⟩ := h
    have hnot : ¬schema.Walkable type := fun h => walkable_iff_not_blockedBy.1 h ⟨_, hb⟩
    exact ⟨type, _, _, ⟨before, after, hm, hw, hnot⟩, hb, rfl, rfl, container, args, rfl, rfl⟩
  · intro h
    obtain ⟨type, obstacle, cause, ⟨before, after, hm, hw, -⟩, hb, rfl, -, container, args, rfl,
      rfl⟩ := h
    exact ⟨_, ⟨before, type, after, hm, ⟨container, args, hb, rfl⟩, hw⟩, rfl⟩

theorem Sound.fault?_visitorText_eq_none_iff (hs : schema.Sound options) :
    fault? (schema.visitorText (.ofSchema schema options) options) = none ↔
      ∀ type ∈ schema.memberTypes, schema.Walkable type := by
  have ht := hs.knowsNodes
  rw [visitorText, fault?_bind fun _ => rfl, fault?_mapError, Code.fault?_visitorFile ht,
    flatMap_memberTypes, Option.map_eq_none_iff, List.findSome?_eq_none_iff]
  simp only [Code.obstruction?, Code.Step.fault?_ofType?_eq_none_iff ht]

theorem fault?_generateDefinitions (schema : Schema) (options : Options) :
    fault? (schema.generateDefinitions options) = fault? (schema.verify options) := by
  rw [generateDefinitions]
  cases hv : schema.verify options with
  | error fault => rfl
  | ok table =>
    obtain ⟨hs, rfl⟩ := sound_of_verify hv
    exact hs.fault?_definitionsText

theorem generateVisitor_eq_error_iff :
    schema.generateVisitor options = .error fault ↔ schema.verify options = .error fault ∨
      (∃ table, schema.verify options = .ok table) ∧ schema.UnwalkedFault fault := by
  rw [generateVisitor]
  cases hv : schema.verify options with
  | error fault' =>
    have hnot : ¬∃ table, (.error fault' : Except Fault NameTable) = .ok table := nofun
    rw [or_iff_left fun h => hnot h.1, ← fault?_eq_some_iff, ← fault?_eq_some_iff]
    rfl
  | ok table =>
    obtain ⟨hs, rfl⟩ := sound_of_verify hv
    rw [or_iff_right nofun, and_iff_right ⟨_, rfl⟩, ← hs.fault?_visitorText_eq_some_iff]
    exact fault?_eq_some_iff.symm

theorem exists_generateVisitor_eq_error_iff :
    (∃ fault, schema.generateVisitor options = .error fault) ↔
      (∃ fault, schema.verify options = .error fault) ∨
        ∃ d ∈ schema.nodes, ∃ type ∈ d.memberTypes, ¬schema.Walkable type := by
  rw [generateVisitor]
  cases hv : schema.verify options with
  | error fault => exact iff_of_true ⟨fault, rfl⟩ (.inl ⟨fault, rfl⟩)
  | ok table =>
    obtain ⟨hs, rfl⟩ := sound_of_verify hv
    have hnone := not_congr hs.fault?_visitorText_eq_none_iff
    rw [← ne_eq, Option.ne_none_iff_exists'] at hnone
    simp only [fault?_eq_some_iff, memberTypes, List.forall_mem_flatMap, not_forall,
      exists_prop] at hnone
    rw [or_iff_right nofun]
    exact hnone

theorem generate_eq_ok_iff {code : GeneratedCode} :
    schema.generate options = .ok code ↔
      schema.generateDefinitions options = .ok code.definitions ∧
        schema.generateVisitor options = .ok code.visitor := by
  rw [generate, generateDefinitions, generateVisitor]
  cases schema.verify options with
  | error fault => exact iff_of_false nofun nofun
  | ok table =>
    simp only [bind_eq_ok_iff, Except.ok.injEq, exists_eq_left']
    constructor
    · intro h
      obtain ⟨definitions, hd, visitor, hv, h⟩ := h
      obtain rfl := Except.ok.inj h
      exact ⟨hd, hv⟩
    · intro h
      exact ⟨_, h.1, _, h.2, rfl⟩

/-- As the definitions of a verified schema never fail, both files fail as the visitor does. -/
theorem fault?_generate (schema : Schema) (options : Options) :
    fault? (schema.generate options) = fault? (schema.generateVisitor options) := by
  rw [generate, generateVisitor]
  cases hv : schema.verify options with
  | error fault => rfl
  | ok table =>
    obtain ⟨hs, rfl⟩ := sound_of_verify hv
    obtain ⟨text, ht⟩ := fault?_eq_none_iff.1 hs.fault?_definitionsText
    have hboth : fault? (schema.visitorText (.ofSchema schema options) options >>= fun visitor =>
        (pure ⟨text, visitor⟩ : Except Fault GeneratedCode)) =
          fault? (schema.visitorText (.ofSchema schema options) options) := fault?_bind fun _ => rfl
    simp only [ht, bind, Except.bind] at hboth ⊢
    exact hboth

/-- The three ways to generate code fail and succeed together, but for the types that the visitor
cannot walk. The first of them fails the visitor, and the message quotes the obstacle in it. -/
theorem generators_agree (schema : Schema) (options : Options) :
    (∀ fault, schema.generateDefinitions options = .error fault ↔
      schema.verify options = .error fault) ∧
    (∀ table, schema.verify options = .ok table →
      ∀ type ∈ schema.memberTypes, ∃ text, type.toCode table = .ok text) ∧
    (∀ fault, schema.generateVisitor options = .error fault ↔
      schema.verify options = .error fault ∨
        (∃ table, schema.verify options = .ok table) ∧ schema.UnwalkedFault fault) ∧
    ((∃ fault, schema.generateVisitor options = .error fault) ↔
      (∃ fault, schema.verify options = .error fault) ∨
        ∃ d ∈ schema.nodes, ∃ type ∈ d.memberTypes, ¬schema.Walkable type) ∧
    (∀ code, schema.generate options = .ok code ↔
      schema.generateDefinitions options = .ok code.definitions ∧
        schema.generateVisitor options = .ok code.visitor) ∧
    ∀ fault, schema.generate options = .error fault ↔
      schema.generateVisitor options = .error fault := by
  have hdefinitions : ∀ fault, schema.generateDefinitions options = .error fault ↔
      schema.verify options = .error fault := by
    intro fault
    rw [← fault?_eq_some_iff, fault?_generateDefinitions, fault?_eq_some_iff]
  have hrendered : ∀ table, schema.verify options = .ok table →
      ∀ type ∈ schema.memberTypes, ∃ text, type.toCode table = .ok text := by
    intro table hv type hm
    obtain ⟨hs, rfl⟩ := sound_of_verify hv
    obtain ⟨d, hd, ht⟩ := List.mem_flatMap.1 hm
    have hr := hs.resolves (List.mem_of_mem_filter hd) type ht
    exact fault?_eq_none_iff.1 hr.fault?_toCode
  have hboth : ∀ fault, schema.generate options = .error fault ↔
      schema.generateVisitor options = .error fault := by
    intro fault
    rw [← fault?_eq_some_iff, fault?_generate, fault?_eq_some_iff]
  exact ⟨hdefinitions, hrendered, fun _ => generateVisitor_eq_error_iff,
    exists_generateVisitor_eq_error_iff, fun _ => generate_eq_ok_iff, hboth⟩

theorem visitor_blocked_by_map :
    let scope : TypeExpr := .atomic "Scope"
    let bindings : TypeExpr := .generic "Map" [.atomic "Ident", .generic "Rc" [scope]]
    let schema : Schema := ⟨[.record "Scope" [⟨"name", .atomic "Ident"⟩,
      ⟨"parents", .generic "Vec" [.generic "Box" [scope]]⟩,
      ⟨"bindings", .generic "Option" [bindings]⟩]]⟩
    let fault : Fault := .type (.notWalked bindings "Map")
    (∃ table, schema.verify .default = .ok table ∧
      ∀ type ∈ schema.memberTypes, ∃ text, type.toCode table = .ok text) ∧
    (∃ text, schema.generateDefinitions .default = .ok text) ∧
    schema.generateVisitor .default = .error fault ∧ schema.generate .default = .error fault := by
  intro scope bindings schema fault
  have hverify : schema.verify .default = .ok (.ofSchema schema .default) :=
    verify_of_passes 1 (by decide) (by decide) (by decide)
  have hblocked : schema.BlockedBy (.generic "Option" [bindings]) bindings := by
    have ho : schema.Obstacle bindings := ⟨by decide, by decide⟩
    exact (blockedBy_entered (by decide)).2 (blockedBy_self ho)
  have hscope : schema.Walkable scope := .node (d := schema.declarations[0]) (by decide)
  have hearlier : ∀ earlier ∈ [.atomic "Ident", .generic "Vec" [.generic "Box" [scope]]],
      schema.Walkable earlier := by
    simp only [List.forall_mem_cons]
    exact ⟨.leaf (by decide), .enter (by decide) (.enter (by decide) hscope),
      List.forall_mem_nil _⟩
  have hunwalked : schema.UnwalkedFault fault := by
    have hnot : ¬schema.Walkable (.generic "Option" [bindings]) :=
      fun h => walkable_iff_not_blockedBy.1 h ⟨_, hblocked⟩
    exact ⟨_, _, _, ⟨_, [], rfl, hearlier, hnot⟩, hblocked, rfl, rfl, _, _, rfl, rfl⟩
  obtain ⟨hdefinitions, hrendered, hvisitor, -, -, hboth⟩ := generators_agree schema .default
  have hfault : schema.generateVisitor .default = .error fault :=
    (hvisitor fault).2 (.inr ⟨⟨_, hverify⟩, hunwalked⟩)
  have htext : ∃ text, schema.generateDefinitions .default = .ok text := by
    cases h : schema.generateDefinitions .default with
    | error fault' => cases hverify.symm.trans ((hdefinitions fault').1 h)
    | ok text => exact ⟨text, rfl⟩
  exact ⟨⟨_, hverify, hrendered _ hverify⟩, htext, hfault, (hboth fault).2 hfault⟩

end Schema

end NodeSchema
