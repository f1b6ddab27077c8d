import NodeSchema.Proofs.Generation.Agreement
import NodeSchema.Proofs.Visitor.Traversal

namespace NodeSchema

open Code (Definition DefinitionsFile VisitorFile Walker)

namespace Code

/-- The file of some definitions under the given options. -/
def DefinitionsFile.under (options : Options) (definitions : List Definition) :
    DefinitionsFile where
  command := options.astCommand
  spanImport := options.spanImport
  textAlias := options.textAlias
  lifetime := options.quotedLifetime
  definitions := definitions

/-- The file of some methods and walkers under the given options. -/
def VisitorFile.under (options : Options) (methods : List String) (walkers : List Walker) :
    VisitorFile where
  command := options.visitorCommand
  astModule := options.astModule
  lifetime := options.quotedLifetime
  methods := methods
  walkers := walkers

theorem filterMap_walkers (ds : List Declaration) (walker : Declaration → Walker) :
    (ds.map fun d => if d.isNode then some (walker d) else none).filterMap id =
      (ds.filter (·.isNode)).map walker := by
  induction ds with
  | nil => rfl
  | cons d ds ih =>
    by_cases hd : d.isNode
    · simpa [hd] using ih
    · simpa [hd] using ih

end Code

namespace Schema

variable {schema : Schema} {options : Options}

theorem Sound.verify (hs : schema.Sound options) :
    schema.verify options = .ok (.ofSchema schema options) :=
  verify_eq_ok_iff.2 ⟨faults_eq_nil_iff.2 hs, rfl⟩

theorem Sound.exists_definition (hs : schema.Sound options) :
    ∃ definition : Declaration → Definition, ∀ d ∈ schema.declarations,
      Definition.ofDeclaration? (.ofSchema schema options) d = .ok (definition d) := by
  have h : ∀ d ∈ schema.declarations, ∃ definition,
      Definition.ofDeclaration? (.ofSchema schema options) d = .ok definition :=
    fun d hd => fault?_eq_none_iff.1 (Code.fault?_definition (hs.resolves hd))
  have : Nonempty Definition := ⟨.plain "" []⟩
  choose! definition h using h
  exact ⟨definition, h⟩

theorem generateDefinitions_of_file {table : NameTable} {file : DefinitionsFile}
    (hv : schema.verify options = .ok table)
    (hfile : DefinitionsFile.ofSchema? schema table options = .ok file) :
    schema.generateDefinitions options = .ok file.text :=
  bind_eq_ok_iff.2 ⟨table, hv, bind_eq_ok_iff.2 ⟨file, mapError_eq_ok_iff.2 hfile, rfl⟩⟩

theorem generateVisitor_of_file {table : NameTable} {file : VisitorFile}
    (hv : schema.verify options = .ok table)
    (hfile : VisitorFile.ofSchema? schema table options = .ok file) :
    schema.generateVisitor options = .ok file.text :=
  bind_eq_ok_iff.2 ⟨table, hv, bind_eq_ok_iff.2 ⟨file, mapError_eq_ok_iff.2 hfile, rfl⟩⟩

theorem definitionsFile_eq {table : NameTable} (ht : table.lifetime = options.quotedLifetime)
    {definition : Declaration → Definition} (h : ∀ d ∈ schema.declarations,
      Definition.ofDeclaration? table d = .ok (definition d)) :
    DefinitionsFile.ofSchema? schema table options =
      .ok (.under options (schema.declarations.map definition)) := by
  have hblocks : schema.declarations.mapM (Definition.ofDeclaration? table) =
      .ok (schema.declarations.map definition) := by
    rw [mapM_eq_ok_iff (fun _ _ _ => Iff.rfl), List.forall₂_map_right_iff, List.forall₂_same]
    exact h
  rw [DefinitionsFile.ofSchema?, hblocks, ht]
  rfl

theorem visitorFile_eq {table : NameTable} (ht : table.lifetime = options.quotedLifetime)
    {walker : Declaration → Walker} (h : ∀ d ∈ schema.nodes,
      Walker.ofDeclaration? table d = .ok (some (walker d))) :
    VisitorFile.ofSchema? schema table options =
      .ok (.under options (schema.nodes.map (·.name)) (schema.nodes.map walker)) := by
  have hwalkers : schema.declarations.mapM (Walker.ofDeclaration? table) =
      .ok (schema.declarations.map fun d => if d.isNode then some (walker d) else none) := by
    rw [mapM_eq_ok_iff (fun _ _ _ => Iff.rfl), List.forall₂_map_right_iff, List.forall₂_same]
    intro d hd
    cases d with
    | record name fields => exact h _ (List.mem_filter.2 ⟨hd, rfl⟩)
    | union name variants => exact h _ (List.mem_filter.2 ⟨hd, rfl⟩)
    | plain name tags => rfl
  rw [nodes, ← Code.filterMap_walkers, VisitorFile.ofSchema?, hwalkers, ht]
  rfl

theorem Sound.generateDefinitions_eq (hs : schema.Sound options)
    {definition : Declaration → Definition} (h : ∀ d ∈ schema.declarations,
      Definition.ofDeclaration? (.ofSchema schema options) d = .ok (definition d)) :
    schema.generateDefinitions options =
      .ok (DefinitionsFile.under options (schema.declarations.map definition)).text :=
  generateDefinitions_of_file hs.verify (definitionsFile_eq rfl h)

theorem Sound.generateVisitor_eq (hs : schema.Sound options) {walker : Declaration → Walker}
    (h : ∀ d ∈ schema.nodes,
      Walker.ofDeclaration? (.ofSchema schema options) d = .ok (some (walker d))) :
    schema.generateVisitor options = .ok
      (VisitorFile.under options (schema.nodes.map (·.name)) (schema.nodes.map walker)).text :=
  generateVisitor_of_file hs.verify (visitorFile_eq rfl h)

theorem exists_walker {text : String} (h : schema.generateVisitor options = .ok text) :
    ∃ walker : Declaration → Walker, ∀ d ∈ schema.nodes,
      Walker.ofDeclaration? (.ofSchema schema options) d = .ok (some (walker d)) := by
  obtain ⟨-, file, -, hfile⟩ := exists_visitorFile h
  obtain ⟨walkers, hw, -⟩ := VisitorFile.eq_of_ofSchema? hfile
  have h : ∀ d ∈ schema.nodes, ∃ walker,
      Walker.ofDeclaration? (.ofSchema schema options) d = .ok (some walker) := by
    intro d hd
    obtain ⟨walker, -, hwalker, -⟩ := exists_of_mem_left hw hd
    exact ⟨walker, hwalker⟩
  have : Nonempty Walker := ⟨.record "" []⟩
  choose! walker h using h
  exact ⟨walker, h⟩

end Schema

end NodeSchema
