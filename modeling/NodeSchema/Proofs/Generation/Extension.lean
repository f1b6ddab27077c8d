import NodeSchema.Proofs.Generation.Blocks
import NodeSchema.Proofs.Generation.Meanings
import NodeSchema.Proofs.Verification.Table

namespace NodeSchema

open Code (Definition DefinitionsFile VisitorFile Walker)

namespace Code

theorem text_eq_intercalate {lines : List String} (h : lines ≠ []) :
    text lines = "\n".intercalate lines ++ "\n" := by
  induction lines with
  | nil => exact absurd rfl h
  | cons line lines ih =>
    cases lines with
    | nil => simp [text]
    | cons next lines =>
      have hrest := ih (List.cons_ne_nil _ _)
      rw [text, List.map_cons, String.join_cons, ← text, hrest, String.intercalate_cons_cons]
      simp only [String.append_assoc]

/-- A block of the file of definitions, without the break behind its last line. -/
def Definition.block (lifetime : String) (definition : Definition) : String :=
  "\n".intercalate (definition.lines lifetime)

theorem Definition.text_lines (lifetime : String) (definition : Definition) :
    text (definition.lines lifetime) = definition.block lifetime ++ "\n" := by
  apply text_eq_intercalate
  cases definition with
  | record name fields => exact List.cons_ne_nil _ _
  | union name variants => exact List.cons_ne_nil _ _
  | plain name tags => exact List.cons_ne_nil _ _

theorem DefinitionsFile.text_concat (options : Options) (definitions : List Definition)
    (definition : Definition) :
    (under options (definitions ++ [definition])).text =
      (under options definitions).text ++ "\n" ++ definition.block options.quotedLifetime
        ++ "\n" := by
  have hlines : (under options (definitions ++ [definition])).lines =
      (under options definitions).lines ++ [""] ++ definition.lines options.quotedLifetime := by
    simp [lines, header, under]
  have hempty : Code.text [""] = "\n" := rfl
  rw [text, hlines, text_append, text_append, hempty, Definition.text_lines, ← text,
    ← String.append_assoc]

end Code

namespace Schema

variable {a b : Schema} {options : Options}

theorem Sound.meaning?_of_subset (ha : a.Sound options) (hb : b.Sound options)
    (hs : a.declarations ⊆ b.declarations) {name : String} (hk : a.Knows options name) :
    (NameTable.ofSchema a options).meaning? name = (NameTable.ofSchema b options).meaning? name := by
  have hsome := (NameTable.isSome_meaning?_iff ha.declaredOnce).2 hk
  obtain ⟨meaning, hm⟩ := Option.isSome_iff_exists.1 hsome
  have hmeans := (ha.means_of_meaning? hm).mono hs
  rw [hm, hb.meaning?_of_means hmeans]

/-- Both tables agree on everything that a declaration of the smaller schema mentions. -/
theorem Sound.agreeOn_subset (ha : a.Sound options) (hb : b.Sound options)
    (hs : a.declarations ⊆ b.declarations) {d : Declaration} (hd : d ∈ a.declarations) :
    ∀ type ∈ d.memberTypes,
      (NameTable.ofSchema a options).AgreeOn (.ofSchema b options) type.atoms := by
  intro type ht
  constructor
  case lifetime => rfl
  case meaning? =>
    intro name hname
    exact ha.meaning?_of_subset hb hs (ha.known d hd name ⟨type, ht, hname⟩)

theorem mem_nodes_of_subset (hs : a.declarations ⊆ b.declarations) {d : Declaration}
    (hd : d ∈ a.nodes) : d ∈ b.nodes := by
  obtain ⟨hd, hi⟩ := List.mem_filter.1 hd
  exact List.mem_filter.2 ⟨hs hd, hi⟩

/-- Declarations that are added to a schema, at whatever places, change nothing in the definitions,
methods and walkers of those that it has. A visitor for the larger schema implies one for the
smaller. -/
theorem extension_keeps_code {table table' : NameTable}
    (hs : a.declarations.Sublist b.declarations) (hva : a.verify options = .ok table)
    (hvb : b.verify options = .ok table') :
    (∃ definition : Declaration → Definition,
      (∀ d ∈ a.declarations, Definition.ofDeclaration? table d = .ok (definition d)) ∧
      (∀ d ∈ b.declarations, Definition.ofDeclaration? table' d = .ok (definition d)) ∧
      a.generateDefinitions options =
        .ok (DefinitionsFile.under options (a.declarations.map definition)).text ∧
      b.generateDefinitions options =
        .ok (DefinitionsFile.under options (b.declarations.map definition)).text ∧
      ∀ d text, b.declarations = a.declarations ++ [d] →
        a.generateDefinitions options = .ok text →
        b.generateDefinitions options =
          .ok (text ++ "\n" ++ (definition d).block options.quotedLifetime ++ "\n")) ∧
    ((∃ text, b.generateVisitor options = .ok text) → ∃ walker : Declaration → Walker,
      (∀ d ∈ a.nodes, Walker.ofDeclaration? table d = .ok (some (walker d))) ∧
      (∀ d ∈ b.nodes, Walker.ofDeclaration? table' d = .ok (some (walker d))) ∧
      a.generateVisitor options = .ok
        (VisitorFile.under options (a.nodes.map (·.name)) (a.nodes.map walker)).text ∧
      b.generateVisitor options = .ok
        (VisitorFile.under options (b.nodes.map (·.name)) (b.nodes.map walker)).text) := by
  obtain ⟨ha, rfl⟩ := sound_of_verify hva
  obtain ⟨hb, rfl⟩ := sound_of_verify hvb
  have hagree {d : Declaration} := ha.agreeOn_subset hb hs.subset (d := d)
  constructor
  · obtain ⟨definition, hdefinition⟩ := hb.exists_definition
    have hsmaller : ∀ d ∈ a.declarations,
        Definition.ofDeclaration? (.ofSchema a options) d = .ok (definition d) := by
      intro d hd
      rw [NameTable.definition_congr (hagree hd)]
      exact hdefinition d (hs.subset hd)
    have hatext := ha.generateDefinitions_eq hsmaller
    have hbtext := hb.generateDefinitions_eq hdefinition
    use definition, hsmaller, hdefinition, hatext, hbtext
    intro d text hconcat htext
    obtain rfl := Except.ok.inj (hatext.symm.trans htext)
    rw [hbtext, hconcat, List.map_append, List.map_singleton, DefinitionsFile.text_concat]
  · intro h
    obtain ⟨text, h⟩ := h
    obtain ⟨walker, hwalker⟩ := exists_walker h
    have hsmaller : ∀ d ∈ a.nodes,
        Walker.ofDeclaration? (.ofSchema a options) d = .ok (some (walker d)) := by
      intro d hd
      rw [NameTable.walker_congr (hagree (List.mem_of_mem_filter hd))]
      exact hwalker d (mem_nodes_of_subset hs.subset hd)
    exact ⟨walker, hsmaller, hwalker, ha.generateVisitor_eq hsmaller,
      hb.generateVisitor_eq hwalker⟩

/-- A plain union in front and a record behind are added to two nodes that mention one another. -/
theorem statement_kept_beside_label :
    let statement : Declaration := .union "Statement" [⟨"Assign", [.atomic "Ident",
      .generic "Box" [.atomic "Value"]]⟩, ⟨"Skip", []⟩]
    let value : Declaration := .record "Value" [⟨"body", .generic "Vec" [.atomic "Statement"]⟩]
    let label : Declaration := .record "Label" [⟨"target", .generic "Option" [.atomic "Statement"]⟩,
      ⟨"kind", .atomic "Kind"⟩]
    let smaller : Schema := ⟨[statement, value]⟩
    let middle : Schema := ⟨[.plain "Kind" ["Loop"], statement, value]⟩
    let larger : Schema := ⟨[.plain "Kind" ["Loop"], statement, value, label]⟩
    ∃ (definition : Declaration → Definition) (walker : Declaration → Walker) (text : String),
      middle.generateDefinitions .default = .ok text ∧
      larger.generateDefinitions .default =
        .ok (text ++ "\n" ++ (definition label).block "'src" ++ "\n") ∧
      smaller.generateVisitor .default = .ok
        (VisitorFile.under .default ["Statement", "Value"] [walker statement, walker value]).text ∧
      larger.generateVisitor .default = .ok (VisitorFile.under .default
        ["Statement", "Value", "Label"] [walker statement, walker value, walker label]).text := by
  intro statement value label smaller middle larger
  have hsmaller : smaller.verify .default = .ok (.ofSchema smaller .default) :=
    verify_of_passes 1 (by decide) (by decide) (by decide)
  have hmiddle : middle.verify .default = .ok (.ofSchema middle .default) :=
    verify_of_passes 1 (by decide) (by decide) (by decide)
  have hlarger : larger.verify .default = .ok (.ofSchema larger .default) :=
    verify_of_passes 1 (by decide) (by decide) (by decide)
  have hvisitor : ∃ text, larger.generateVisitor .default = .ok text := by
    rw [generateVisitor, hlarger]
    exact ⟨_, rfl⟩
  have hsub : middle.declarations.Sublist larger.declarations := List.sublist_append_left _ [label]
  have hsub' : smaller.declarations.Sublist larger.declarations :=
    (List.sublist_cons_self _ _).trans hsub
  obtain ⟨⟨definition, -, -, htext, -, hconcat⟩, -⟩ := extension_keeps_code hsub hmiddle hlarger
  obtain ⟨-, hwalkers⟩ := extension_keeps_code hsub' hsmaller hlarger
  obtain ⟨walker, -, -, hwalk, hwalk'⟩ := hwalkers hvisitor
  exact ⟨definition, walker, _, htext, hconcat label _ rfl htext, hwalk, hwalk'⟩

end Schema

end NodeSchema
