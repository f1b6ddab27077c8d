import NodeSchema.Proofs.Generation.Blocks

namespace NodeSchema

namespace Code

/-- What a name in a signature can stand for. -/
inductive Reference where
  /-- A type parameter of the function. -/
  | parameter
  /-- The trait of the file. -/
  | visitor
  /-- A definition or the text alias. -/
  | imported
  /-- What the language knows everywhere. -/
  | outside
deriving DecidableEq

/-- Inner names stand before the outer ones and hide them. -/
def Reference.ofName (imports parameters : List String) (name : String) : Reference :=
  if name ∈ parameters then .parameter
  else if name = "Visitor" then .visitor
  else if name ∈ imports then .imported
  else .outside

/-- The trait and its walkers have the bounds that are meant, and take the nodes that are meant. -/
structure VisitorFile.Uncaptured (file : VisitorFile) (imports : List String) : Prop where
  supertrait : Reference.ofName imports [] "Sized" = .outside
  bound : Reference.ofName imports ["V"] "Visitor" = .visitor
  methods : ∀ node ∈ file.methods, Reference.ofName imports [] node = .imported
  walkers : ∀ walker ∈ file.walkers, Reference.ofName imports ["V"] walker.node = .imported

variable {imports parameters : List String} {name : String}

theorem Reference.ofName_eq_imported_iff : ofName imports parameters name = .imported ↔
    name ∉ parameters ∧ name ≠ "Visitor" ∧ name ∈ imports := by
  rw [ofName]
  split
  next hp => exact iff_of_false nofun fun h => h.1 hp
  next hp =>
  split
  next hv => exact iff_of_false nofun fun h => h.2.1 hv
  next hv =>
  split
  next hi => exact iff_of_true rfl ⟨hp, hv, hi⟩
  next hi => exact iff_of_false nofun fun h => hi h.2.2

theorem Reference.ofName_eq_outside_iff : ofName imports parameters name = .outside ↔
    name ∉ parameters ∧ name ≠ "Visitor" ∧ name ∉ imports := by
  rw [ofName]
  split
  next hp => exact iff_of_false nofun fun h => h.1 hp
  next hp =>
  split
  next hv => exact iff_of_false nofun fun h => h.2.1 hv
  next hv =>
  split
  next hi => exact iff_of_false nofun fun h => h.2.2 hi
  next hi => exact iff_of_true rfl ⟨hp, hv, hi⟩

end Code

namespace Schema

open Code (Reference VisitorFile)

/-- What the definitions of a schema offer to a file that imports them as a whole. -/
def exported (schema : Schema) (options : Options) : List String :=
  options.textAlias :: schema.declarations.map (·.name)

variable {schema : Schema} {options : Options}

theorem Sound.ne_visitor (hs : schema.Sound options) {d : Declaration}
    (hd : d ∈ schema.declarations) : d.name ≠ "Visitor" := by
  intro he
  have hreserved : "Visitor" ∈ reservedNames := by decide
  exact (hs.freeNames d hd).not_reserved (he ▸ hreserved)

/-- In the visitor of a sound schema a name stands for a node, unless a type parameter hides it. -/
theorem Sound.ofName_node_iff (hs : schema.Sound options) {parameters : List String}
    {d : Declaration} (hd : d ∈ schema.nodes) :
    Reference.ofName (schema.exported options) parameters d.name = .imported ↔
      d.name ∉ parameters := by
  have hd := List.mem_of_mem_filter hd
  have hexported : d.name ∈ schema.exported options :=
    List.mem_cons_of_mem _ (List.mem_map_of_mem hd)
  rw [Reference.ofName_eq_imported_iff]
  exact and_iff_left ⟨hs.ne_visitor hd, hexported⟩

theorem ofName_sized_iff : Reference.ofName (schema.exported options) [] "Sized" = .outside ↔
    options.textAlias ≠ "Sized" ∧ ∀ d ∈ schema.declarations, d.name ≠ "Sized" := by
  have hne : "Sized" ∉ [] ∧ "Sized" ≠ "Visitor" := by decide
  rw [Reference.ofName_eq_outside_iff, and_iff_right hne.1, and_iff_right hne.2, exported,
    List.mem_cons, List.mem_map, not_or, eq_comm, not_exists]
  simp only [not_and, ne_eq]

/-- The text alias is imported, but the trait of the file hides it if it is named like it. -/
theorem ofName_textAlias : Reference.ofName (schema.exported options) [] options.textAlias =
    if options.textAlias = "Visitor" then .visitor else .imported := by
  have himported : options.textAlias ∈ schema.exported options := List.mem_cons_self
  rw [Reference.ofName, if_neg List.not_mem_nil, if_pos himported]

/-- The trait, its methods and the bounds of a visitor that is generated mean what they are to mean,
but for two names: a declaration or the text alias can take the place of `Sized`, and the type
parameter of the walkers that of a node. No declaration is named `Visitor`. The text alias may be:
the trait then hides it, which changes no signature, since these name nodes only. -/
theorem visitor_uncaptured_iff {text : String} (h : schema.generateVisitor options = .ok text) :
    ∃ file, VisitorFile.ofSchema? schema (.ofSchema schema options) options = .ok file ∧
      text = file.text ∧ file.methods = schema.nodes.map (·.name) ∧
      file.walkers.map (·.node) = schema.nodes.map (·.name) ∧
      (∀ d ∈ schema.declarations, d.name ≠ "Visitor") ∧
      Reference.ofName (schema.exported options) ["V"] "Visitor" = .visitor ∧
      (∀ d ∈ schema.nodes, Reference.ofName (schema.exported options) [] d.name = .imported) ∧
      (Reference.ofName (schema.exported options) [] options.textAlias =
        if options.textAlias = "Visitor" then .visitor else .imported) ∧
      (file.Uncaptured (schema.exported options) ↔ options.textAlias ≠ "Sized" ∧
        (∀ d ∈ schema.declarations, d.name ≠ "Sized") ∧ ∀ d ∈ schema.nodes, d.name ≠ "V") := by
  obtain ⟨hs, -⟩ := exists_visitorFile h
  obtain ⟨walker, hw⟩ := exists_walker h
  obtain rfl := Except.ok.inj (h.symm.trans (hs.generateVisitor_eq hw))
  have hname : ∀ d ∈ schema.nodes, (walker d).node = d.name := by
    intro d hd
    obtain ⟨w, hsome, hnode⟩ :=
      Code.Walker.ofDeclaration?_of_isNode (List.mem_filter.1 hd).2 (hw d hd)
    exact Option.some.inj hsome ▸ hnode
  have hnodes : (schema.nodes.map walker).map (·.node) = schema.nodes.map (·.name) := by
    rw [List.map_map]
    exact List.map_congr_left hname
  have hbound : Reference.ofName (schema.exported options) ["V"] "Visitor" = .visitor := by rfl
  have hmethods : ∀ d ∈ schema.nodes,
      Reference.ofName (schema.exported options) [] d.name = .imported :=
    fun d hd => (hs.ofName_node_iff hd).2 List.not_mem_nil
  have hwalkers : ∀ d ∈ schema.nodes,
      Reference.ofName (schema.exported options) ["V"] (walker d).node = .imported ↔
        d.name ≠ "V" := by
    intro d hd
    rw [hname d hd, hs.ofName_node_iff hd, List.mem_singleton]
  use .under options (schema.nodes.map (·.name)) (schema.nodes.map walker), visitorFile_eq rfl hw
  use rfl, rfl, hnodes, fun d hd => hs.ne_visitor hd, hbound, hmethods, ofName_textAlias
  rw [← and_assoc, ← ofName_sized_iff]
  constructor
  · intro hu
    have hfree := List.forall_mem_map.1 hu.walkers
    exact ⟨hu.supertrait, fun d hd => (hwalkers d hd).1 (hfree d hd)⟩
  · intro hu
    obtain ⟨hsized, hfree⟩ := hu
    have hall : ∀ d ∈ schema.nodes,
        Reference.ofName (schema.exported options) ["V"] (walker d).node = .imported :=
      fun d hd => (hwalkers d hd).2 (hfree d hd)
    exact ⟨hsized, hbound, List.forall_mem_map.2 hmethods, List.forall_mem_map.2 hall⟩

theorem statement_visitor_uncaptured :
    let schema : Schema := ⟨[
      .record "Block" [⟨"body", .generic "Vec" [.atomic "Statement"]⟩],
      .union "Statement" [⟨"Nested", [.generic "Box" [.atomic "Block"]]⟩,
        ⟨"Name", [.atomic "Ident"]⟩]]⟩
    ∃ file : VisitorFile, schema.generateVisitor .default = .ok file.text ∧
      file.methods = ["Block", "Statement"] ∧ file.Uncaptured (schema.exported .default) := by
  intro schema
  have hverify : schema.verify .default = .ok (.ofSchema schema .default) :=
    verify_of_passes 2 (by decide) (by decide) (by decide)
  obtain ⟨text, htext⟩ : ∃ text, schema.generateVisitor .default = .ok text := by
    rw [generateVisitor, hverify]
    exact ⟨_, rfl⟩
  obtain ⟨file, -, rfl, hmethods, -, -, -, -, -, huncaptured⟩ := visitor_uncaptured_iff htext
  exact ⟨file, htext, hmethods, huncaptured.2 (by decide)⟩

/-- A record named like the type parameter of the walkers is accepted. Its method takes the record,
its walker whatever the visitor is. -/
theorem record_captured_by_type_parameter :
    let schema : Schema := ⟨[.record "V" [⟨"name", .atomic "Ident"⟩]]⟩
    ∃ file : VisitorFile, schema.generateVisitor .default = .ok file.text ∧
      (∃ d ∈ schema.nodes, d.name = "V") ∧ file.walkers.map (·.node) = ["V"] ∧
      Reference.ofName (schema.exported .default) [] "V" = .imported ∧
      Reference.ofName (schema.exported .default) ["V"] "V" = .parameter ∧
      ¬file.Uncaptured (schema.exported .default) := by
  intro schema
  have hverify : schema.verify .default = .ok (.ofSchema schema .default) :=
    verify_of_passes 1 (by decide) (by decide) (by decide)
  obtain ⟨file, hfile, hnodes⟩ : ∃ file,
      VisitorFile.ofSchema? schema (.ofSchema schema .default) .default = .ok file ∧
        file.walkers.map (·.node) = ["V"] := ⟨_, rfl, rfl⟩
  have hcaptured : ¬file.Uncaptured (schema.exported .default) := by
    intro hu
    have hfree : ∀ node ∈ file.walkers.map (·.node),
        Reference.ofName (schema.exported .default) ["V"] node = .imported :=
      List.forall_mem_map.2 hu.walkers
    rw [hnodes, List.forall_mem_singleton] at hfree
    exact absurd hfree (by decide)
  exact ⟨file, generateVisitor_of_file hverify hfile, ⟨_, List.mem_cons_self, rfl⟩, hnodes,
    by decide, by decide, hcaptured⟩

end Schema

end NodeSchema
