import Mathlib.Data.List.Perm.Basic
import NodeSchema.Proofs.Generation.Blocks
import NodeSchema.Proofs.Generation.Meanings
import NodeSchema.Proofs.Verification.Names

namespace NodeSchema

/-- Options that differ at most in the order and the multiplicity of their opaque types. -/
structure Options.Alike (options other : Options) : Prop where
  opaqueTypes : ∀ name, name ∈ options.opaqueTypes ↔ name ∈ other.opaqueTypes
  others : { options with opaqueTypes := [] } = { other with opaqueTypes := [] }

namespace Options.Alike

variable {options other : Options}

theorem symm (h : options.Alike other) : other.Alike options :=
  ⟨fun name => (h.opaqueTypes name).symm, h.others.symm⟩

theorem lifetime (h : options.Alike other) : options.lifetime = other.lifetime :=
  (congrArg Options.lifetime h.others :)

theorem textAlias (h : options.Alike other) : options.textAlias = other.textAlias :=
  (congrArg Options.textAlias h.others :)

theorem quotedLifetime (h : options.Alike other) : options.quotedLifetime = other.quotedLifetime :=
  congrArg ("'" ++ ·) h.lifetime

theorem lookup_ofOptions (h : options.Alike other) (name : String) :
    (NameTable.ofOptions options).lookup name = (NameTable.ofOptions other).lookup name := by
  rw [NameTable.lookup_ofOptions, NameTable.lookup_ofOptions, h.textAlias]
  simp only [h.opaqueTypes]

theorem freeName (h : options.Alike other) {name : String} (hf : Schema.FreeName options name) :
    Schema.FreeName other name where
  usable := hf.usable
  not_reserved := hf.not_reserved
  ne_textAlias := h.textAlias ▸ hf.ne_textAlias
  not_primitive := hf.not_primitive
  not_opaque := fun hm => hf.not_opaque ((h.opaqueTypes name).2 hm)

end Options.Alike

namespace Schema

variable {a b : Schema} {options other : Options}

theorem mem_nodes_perm (hp : a.declarations.Perm b.declarations) {d : Declaration} :
    d ∈ a.nodes ↔ d ∈ b.nodes :=
  (hp.filter _).mem_iff

theorem knows_perm (hp : a.declarations.Perm b.declarations) (ho : options.Alike other)
    {name : String} : a.Knows options name ↔ b.Knows other name := by
  rw [Knows, Knows, ho.textAlias, ho.opaqueTypes]
  simp only [hp.mem_iff]

theorem leadsTo_perm (hp : a.declarations.Perm b.declarations) {d : Declaration} {name : String} :
    a.LeadsTo d name ↔ b.LeadsTo d name := by
  have hr : a.Refers = b.Refers :=
    funext₂ fun _ _ => propext (and_congr_left' (mem_nodes_perm hp))
  rw [LeadsTo, LeadsTo, hr]

/-- A schema stays sound when its declarations are put in another order. -/
theorem Sound.perm (hs : a.Sound options) (hp : a.declarations.Perm b.declarations)
    (ho : options.Alike other) : b.Sound other := by
  have hmem : ∀ d ∈ b.declarations, d ∈ a.declarations := fun d hd => hp.mem_iff.2 hd
  constructor
  case lifetime => exact ho.lifetime ▸ hs.lifetime
  case textAlias => exact ho.textAlias ▸ hs.textAlias
  case freeNames => exact fun d hd => ho.freeName (hs.freeNames d (hmem d hd))
  case declaredOnce => exact (hp.map _).nodup_iff.1 hs.declaredOnce
  case methodsApart => exact ((hp.filter _).map _).nodup_iff.1 hs.methodsApart
  case membersApart => exact fun d hd => hs.membersApart d (hmem d hd)
  case wellNamed => exact fun d hd => hs.wellNamed d (hmem d hd)
  case known =>
    intro d hd name hm
    exact (knows_perm hp ho).1 (hs.known d (hmem d hd) name hm)
  case borrows =>
    intro d hd
    rw [← ho.textAlias]
    exact (leadsTo_perm hp).1 (hs.borrows d ((mem_nodes_perm hp).2 hd))

/-- Every name means the same in both orders, if no name is declared twice. -/
theorem meaning?_perm (hn : (a.declarations.map (·.name)).Nodup)
    (hp : a.declarations.Perm b.declarations) (ho : options.Alike other) (name : String) :
    (NameTable.ofSchema a options).meaning? name = (NameTable.ofSchema b other).meaning? name := by
  by_cases h : ∃ d ∈ a.declarations, d.name = name
  · obtain ⟨d, hd, rfl⟩ := h
    rw [NameTable.meaning?_declared hn hd,
      NameTable.meaning?_declared ((hp.map _).nodup_iff.1 hn) (hp.mem_iff.1 hd)]
  · have hna : ∀ d ∈ a.declarations, d.name ≠ name := fun d hd he => h ⟨d, hd, he⟩
    rw [NameTable.meaning?_undeclared hna,
      NameTable.meaning?_undeclared fun d hd => hna d (hp.mem_iff.2 hd), ho.lookup_ofOptions]

open Code (Definition DefinitionsFile VisitorFile Walker)

theorem agreeOn_perm (hn : (a.declarations.map (·.name)).Nodup)
    (hp : a.declarations.Perm b.declarations) (ho : options.Alike other) (names : List String) :
    (NameTable.ofSchema a options).AgreeOn (.ofSchema b other) names :=
  ⟨ho.quotedLifetime, fun name _ => meaning?_perm hn hp ho name⟩

theorem definitionsFile_alike (ho : options.Alike other) (definitions : List Definition) :
    DefinitionsFile.under options definitions = DefinitionsFile.under other definitions :=
  (congrArg (DefinitionsFile.under · definitions) ho.others :)

theorem visitorFile_alike (ho : options.Alike other) (methods : List String)
    (walkers : List Walker) :
    VisitorFile.under options methods walkers = VisitorFile.under other methods walkers :=
  (congrArg (VisitorFile.under · methods walkers) ho.others :)

/-- The definitions of a schema in another order are the same in that order. -/
theorem Sound.generateDefinitions_perm (hs : a.Sound options)
    (hp : a.declarations.Perm b.declarations) (ho : options.Alike other)
    {definition : Declaration → Definition} (h : ∀ d ∈ a.declarations,
      Definition.ofDeclaration? (.ofSchema a options) d = .ok (definition d)) :
    b.generateDefinitions other =
      .ok (DefinitionsFile.under options (b.declarations.map definition)).text := by
  have hdefinition : ∀ d ∈ b.declarations,
      Definition.ofDeclaration? (.ofSchema b other) d = .ok (definition d) := by
    intro d hd
    rw [← h d (hp.mem_iff.2 hd)]
    exact (NameTable.definition_congr fun _ _ => agreeOn_perm hs.declaredOnce hp ho _).symm
  rw [definitionsFile_alike ho]
  exact (hs.perm hp ho).generateDefinitions_eq hdefinition

theorem Sound.generateVisitor_perm (hs : a.Sound options)
    (hp : a.declarations.Perm b.declarations) (ho : options.Alike other)
    {walker : Declaration → Walker} (h : ∀ d ∈ a.nodes,
      Walker.ofDeclaration? (.ofSchema a options) d = .ok (some (walker d))) :
    b.generateVisitor other = .ok
      (VisitorFile.under options (b.nodes.map (·.name)) (b.nodes.map walker)).text := by
  have hwalkers : ∀ d ∈ b.nodes,
      Walker.ofDeclaration? (.ofSchema b other) d = .ok (some (walker d)) := by
    intro d hd
    rw [← h d ((mem_nodes_perm hp).2 hd)]
    exact (NameTable.walker_congr fun _ _ => agreeOn_perm hs.declaredOnce hp ho _).symm
  rw [visitorFile_alike ho]
  exact (hs.perm hp ho).generateVisitor_eq hwalkers

/-- The order of the declarations and of the opaque types decides neither whether a schema is
accepted nor what its names mean. Both files of a schema in another order have the same headers and
the same blocks, which follow the declarations. -/
theorem order_does_not_matter (hp : a.declarations.Perm b.declarations)
    (ho : options.Alike other) :
    ((∃ table, a.verify options = .ok table) ↔ ∃ table, b.verify other = .ok table) ∧
    ((∃ text, a.generateVisitor options = .ok text) ↔
      ∃ text, b.generateVisitor other = .ok text) ∧
    ∀ table table', a.verify options = .ok table → b.verify other = .ok table' →
      (∀ name, table.meaning? name = table'.meaning? name) ∧
      (∃ definition : Declaration → Definition,
        (∀ d ∈ a.declarations, Definition.ofDeclaration? table d = .ok (definition d)) ∧
        a.generateDefinitions options =
          .ok (DefinitionsFile.under options (a.declarations.map definition)).text ∧
        b.generateDefinitions other =
          .ok (DefinitionsFile.under options (b.declarations.map definition)).text) ∧
      ((∃ text, a.generateVisitor options = .ok text) → ∃ walker : Declaration → Walker,
        (∀ d ∈ a.nodes, Walker.ofDeclaration? table d = .ok (some (walker d))) ∧
        a.generateVisitor options = .ok
          (VisitorFile.under options (a.nodes.map (·.name)) (a.nodes.map walker)).text ∧
        b.generateVisitor other = .ok
          (VisitorFile.under options (b.nodes.map (·.name)) (b.nodes.map walker)).text) := by
  -- The two schemas can change places, so that one direction is enough.
  have hverify {a b : Schema} {options other : Options}
      (hp : a.declarations.Perm b.declarations) (ho : options.Alike other)
      (h : ∃ table, a.verify options = .ok table) : ∃ table, b.verify other = .ok table := by
    obtain ⟨table, h⟩ := h
    exact ⟨_, ((sound_of_verify h).1.perm hp ho).verify⟩
  have hvisitor {a b : Schema} {options other : Options}
      (hp : a.declarations.Perm b.declarations) (ho : options.Alike other)
      (h : ∃ text, a.generateVisitor options = .ok text) :
      ∃ text, b.generateVisitor other = .ok text := by
    obtain ⟨text, h⟩ := h
    obtain ⟨walker, hwalker⟩ := exists_walker h
    exact ⟨_, (exists_visitorFile h).1.generateVisitor_perm hp ho hwalker⟩
  refine ⟨⟨hverify hp ho, hverify hp.symm ho.symm⟩, ⟨hvisitor hp ho, hvisitor hp.symm ho.symm⟩, ?_⟩
  intro table table' ha hb
  obtain ⟨hs, rfl⟩ := sound_of_verify ha
  obtain ⟨-, rfl⟩ := sound_of_verify hb
  obtain ⟨definition, hdefinition⟩ := hs.exists_definition
  use meaning?_perm hs.declaredOnce hp ho
  use ⟨definition, hdefinition, hs.generateDefinitions_eq hdefinition,
    hs.generateDefinitions_perm hp ho hdefinition⟩
  intro h
  obtain ⟨text, h⟩ := h
  obtain ⟨walker, hwalker⟩ := exists_walker h
  exact ⟨walker, hwalker, hs.generateVisitor_eq hwalker, hs.generateVisitor_perm hp ho hwalker⟩

/-- Turned around, this schema is found to borrow in one pass less. -/
theorem block_before_and_behind_expression :
    let schema : Schema := ⟨[
      .record "Block" [⟨"items", .generic "Vec" [.atomic "Expr"]⟩, ⟨"size", .atomic "Count"⟩],
      .plain "Sign" ["Plus", "Minus"],
      .union "Expr" [⟨"Name", [.atomic "Ident"]⟩,
        ⟨"Signed", [.atomic "Sign", .generic "Box" [.atomic "Expr"]]⟩,
        ⟨"Block", [.generic "Box" [.atomic "Block"]]⟩]]⟩
    let turned : Schema := ⟨schema.declarations.reverse⟩
    let options : Options := { Options.default with opaqueTypes := ["Count", "Flag"] }
    let other : Options := { Options.default with opaqueTypes := ["Flag", "Count", "Flag"] }
    ∃ table table', schema.verify options = .ok table ∧ turned.verify other = .ok table' ∧
      (∀ name, table.meaning? name = table'.meaning? name) ∧
      (∃ definition : Declaration → Definition,
        schema.generateDefinitions options =
          .ok (DefinitionsFile.under options (schema.declarations.map definition)).text ∧
        turned.generateDefinitions other =
          .ok (DefinitionsFile.under options (schema.declarations.map definition).reverse).text) ∧
      ∃ walker : Declaration → Walker,
        schema.generateVisitor options = .ok (VisitorFile.under options ["Block", "Expr"]
          [walker schema.declarations[0], walker schema.declarations[2]]).text ∧
        turned.generateVisitor other = .ok (VisitorFile.under options ["Expr", "Block"]
          [walker schema.declarations[2], walker schema.declarations[0]]).text := by
  intro schema turned options other
  have hverify : schema.verify options = .ok (.ofSchema schema options) :=
    verify_of_passes 2 (by decide) (by decide) (by decide)
  have hturned : turned.verify other = .ok (.ofSchema turned other) :=
    verify_of_passes 1 (by decide) (by decide) (by decide)
  have hvisitor : ∃ text, schema.generateVisitor options = .ok text := by
    rw [generateVisitor, hverify]
    exact ⟨_, rfl⟩
  have halike : options.Alike other := by
    constructor
    case opaqueTypes =>
      simp only [options, other, List.mem_cons, List.not_mem_nil]
      tauto
    case others => rfl
  obtain ⟨-, -, hsame⟩ := order_does_not_matter schema.declarations.reverse_perm.symm halike
  obtain ⟨hmeanings, ⟨definition, -, hd, hd'⟩, hw⟩ := hsame _ _ hverify hturned
  obtain ⟨walker, -, hv, hv'⟩ := hw hvisitor
  exact ⟨_, _, hverify, hturned, hmeanings, ⟨definition, hd, hd'⟩, walker, hv, hv'⟩

end Schema

end NodeSchema
