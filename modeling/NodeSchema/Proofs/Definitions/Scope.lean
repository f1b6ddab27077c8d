import NodeSchema.Proofs.Generation.Blocks

namespace NodeSchema

namespace Code

def Definition.name : Definition → String
  | record name _ => name
  | union name _ => name
  | plain name _ => name

theorem Definition.name_of_ofDeclaration? {table : NameTable} {d : Declaration}
    {definition : Definition} (h : Definition.ofDeclaration? table d = .ok definition) :
    definition.name = d.name := by
  cases d with
  | record name fields =>
    obtain ⟨lines, -, h⟩ := bind_eq_ok_iff.1 h
    exact Except.ok.inj h ▸ rfl
  | union name variants =>
    obtain ⟨lines, -, h⟩ := bind_eq_ok_iff.1 h
    exact Except.ok.inj h ▸ rfl
  | plain name tags => exact Except.ok.inj h ▸ rfl

/-- What a type name in the file of the definitions can stand for. -/
inductive Entity where
  | span
  | textAlias (name : String)
  | defined (definition : Definition)

def Entity.name : Entity → String
  | span => "Span"
  | textAlias name => name
  | defined definition => definition.name

namespace DefinitionsFile

/-- What stands at the top level of the file. -/
def entities (file : DefinitionsFile) : List Entity :=
  .span :: .textAlias file.textAlias :: file.definitions.map .defined

def resolve? (file : DefinitionsFile) (name : String) : Option Entity :=
  file.entities.find? (·.name == name)

/-- No two entities share a name, and none has the name of a container. -/
structure Apart (file : DefinitionsFile) : Prop where
  once : (file.entities.map (·.name)).Nodup
  containers : ∀ name ∈ file.entities.map (·.name), name ∉ TypeExpr.entered

theorem resolve?_of_mem {file : DefinitionsFile} (h : file.Apart) {entity : Entity}
    (hm : entity ∈ file.entities) : file.resolve? entity.name = some entity :=
  Program.find?_eq_some_of_nodup h.once hm

theorem resolve?_eq_none {file : DefinitionsFile} {name : String}
    (h : name ∉ file.entities.map (·.name)) : file.resolve? name = none := by
  rw [resolve?, List.find?_eq_none]
  intro entity hm he
  exact h (beq_iff_eq.1 he ▸ List.mem_map_of_mem hm)

end DefinitionsFile

end Code

namespace Schema

open Code (Definition DefinitionsFile)

/-- A name stands in the file for what it means in the schema. A foreign name is looked for outside,
unless it is the one of the span. -/
inductive Denotes (schema : Schema) (table : NameTable) (file : DefinitionsFile) (name : String) :
    Prop where
  | textAlias (hm : table.meaning? name = some .textAlias)
      (hr : file.resolve? name = some (.textAlias name)) : Denotes schema table file name
  | declared {d : Declaration} {definition : Definition} (hd : d ∈ schema.declarations)
      (hn : d.name = name) (hm : table.meaning? name = some d.meaning)
      (hw : Definition.ofDeclaration? table d = .ok definition)
      (hr : file.resolve? name = some (.defined definition)) : Denotes schema table file name
  | span (hm : table.meaning? name = some .foreign) (hn : name = "Span")
      (hr : file.resolve? name = some .span) : Denotes schema table file name
  | outside (hm : table.meaning? name = some .foreign) (hr : file.resolve? name = none) :
    Denotes schema table file name

variable {schema : Schema} {options : Options}

section Scope

variable {definition : Declaration → Definition}

theorem names_entities (hn : ∀ d ∈ schema.declarations, (definition d).name = d.name) :
    (DefinitionsFile.under options (schema.declarations.map definition)).entities.map (·.name) =
      "Span" :: options.textAlias :: schema.declarations.map (·.name) := by
  have hnames : ((schema.declarations.map definition).map Code.Entity.defined).map (·.name) =
      schema.declarations.map (·.name) := by
    rw [List.map_map, List.map_map]
    exact List.map_congr_left hn
  exact congrArg (["Span", options.textAlias] ++ ·) hnames

/-- The text alias is the only entity of a sound schema that can have the name of another one, or
of a container. -/
theorem Sound.apart_iff (hs : schema.Sound options)
    (hn : ∀ d ∈ schema.declarations, (definition d).name = d.name) :
    (DefinitionsFile.under options (schema.declarations.map definition)).Apart ↔
      options.textAlias ∉ "Span" :: TypeExpr.entered := by
  have hnames : (DefinitionsFile.under options (schema.declarations.map definition)).entities.map
      (·.name) = _ := names_entities hn
  have hreserved : ∀ name ∈ schema.declarations.map (·.name),
      name ∉ "Span" :: TypeExpr.entered := by
    rw [List.forall_mem_map]
    intro d hd hm
    have hall : ∀ name ∈ "Span" :: TypeExpr.entered, name ∈ reservedNames := by decide
    exact (hs.freeNames d hd).not_reserved (hall _ hm)
  constructor
  · intro h hm
    obtain ⟨honce, hcontainers⟩ := h
    rw [hnames] at honce hcontainers
    rcases List.mem_cons.1 hm with he | hm
    · exact (List.nodup_cons.1 honce).1 (he ▸ List.mem_cons_self)
    · exact hcontainers _ (List.mem_cons_of_mem _ List.mem_cons_self) hm
  · intro h
    constructor
    case once =>
      have hspan : "Span" ∉ options.textAlias :: schema.declarations.map (·.name) := by
        intro hm
        rcases List.mem_cons.1 hm with he | hm
        · exact h (he ▸ List.mem_cons_self)
        · exact hreserved _ hm List.mem_cons_self
      have halias : options.textAlias ∉ schema.declarations.map (·.name) := by
        intro hm
        obtain ⟨d, hd, he⟩ := List.mem_map.1 hm
        exact (hs.freeNames d hd).ne_textAlias he
      rw [hnames, List.nodup_cons, List.nodup_cons]
      exact ⟨hspan, halias, hs.declaredOnce⟩
    case containers =>
      rw [hnames, List.forall_mem_cons, List.forall_mem_cons]
      have hcontainers : ∀ name ∈ schema.declarations.map (·.name), name ∉ TypeExpr.entered :=
        fun name hm he => hreserved name hm (List.mem_cons_of_mem _ he)
      exact ⟨by decide, fun hm => h (List.mem_cons_of_mem _ hm), hcontainers⟩

/-- Where the entities are apart, every known name stands for what it means. -/
theorem Sound.denotes (hs : schema.Sound options) (hw : ∀ d ∈ schema.declarations,
      Definition.ofDeclaration? (.ofSchema schema options) d = .ok (definition d))
    (h : (DefinitionsFile.under options (schema.declarations.map definition)).Apart)
    {name : String} (hk : schema.Knows options name) :
    schema.Denotes (.ofSchema schema options)
      (.under options (schema.declarations.map definition)) name := by
  by_cases hd : ∃ d ∈ schema.declarations, d.name = name
  · obtain ⟨d, hd, rfl⟩ := hd
    have hm : Code.Entity.defined (definition d) ∈
        (DefinitionsFile.under options (schema.declarations.map definition)).entities :=
      List.mem_append_right [_, _] (List.mem_map_of_mem (List.mem_map_of_mem hd))
    have hr := DefinitionsFile.resolve?_of_mem h hm
    rw [Code.Entity.name, Definition.name_of_ofDeclaration? (hw d hd)] at hr
    exact .declared hd rfl (NameTable.meaning?_declared hs.declaredOnce hd) (hw d hd) hr
  have hne : ∀ d ∈ schema.declarations, d.name ≠ name := fun d hm he => hd ⟨d, hm, he⟩
  have hmeaning : (NameTable.ofSchema schema options).meaning? name = _ :=
    (NameTable.meaning?_undeclared hne).trans (NameTable.lookup_ofOptions options name)
  by_cases ha : name = options.textAlias
  · subst ha
    exact .textAlias (hmeaning.trans (if_pos rfl))
      (DefinitionsFile.resolve?_of_mem h (List.mem_cons_of_mem _ List.mem_cons_self))
  rw [if_neg ha, if_pos ((hk.resolve_left hd).resolve_left ha)] at hmeaning
  by_cases hspan : name = "Span"
  · subst hspan
    exact .span hmeaning rfl (DefinitionsFile.resolve?_of_mem h List.mem_cons_self)
  · have hnone : name ∉ "Span" :: options.textAlias :: schema.declarations.map (·.name) := by
      rw [List.mem_cons, List.mem_cons, List.mem_map, not_or, not_or]
      exact ⟨hspan, ha, hd⟩
    rw [← names_entities fun d hd => Definition.name_of_ofDeclaration? (hw d hd)] at hnone
    exact .outside hmeaning (DefinitionsFile.resolve?_eq_none hnone)

end Scope

/-- In the definitions of a verified schema no two names clash, unless the text alias has the name
of the span or of a container; then every type name stands for what it means in the schema. -/
theorem definitions_apart_iff {table : NameTable} (h : schema.verify options = .ok table) :
    ∃ file, DefinitionsFile.ofSchema? schema table options = .ok file ∧
      schema.generateDefinitions options = .ok file.text ∧
      file.entities.map (·.name) =
        "Span" :: options.textAlias :: schema.declarations.map (·.name) ∧
      (file.Apart ↔ options.textAlias ∉ "Span" :: TypeExpr.entered) ∧
      (file.Apart → file.resolve? "Span" = some .span ∧
        (∀ container ∈ TypeExpr.entered, file.resolve? container = none) ∧
        ∀ d ∈ schema.declarations, ∀ type ∈ d.memberTypes, ∀ name ∈ type.atoms,
          schema.Denotes table file name) := by
  obtain ⟨hs, rfl⟩ := sound_of_verify h
  obtain ⟨definition, hw⟩ := hs.exists_definition
  have hn : ∀ d ∈ schema.declarations, (definition d).name = d.name :=
    fun d hd => Definition.name_of_ofDeclaration? (hw d hd)
  use .under options (schema.declarations.map definition), definitionsFile_eq rfl hw
  use hs.generateDefinitions_eq hw, names_entities hn, hs.apart_iff hn
  intro hapart
  use DefinitionsFile.resolve?_of_mem hapart List.mem_cons_self
  use fun container hc => DefinitionsFile.resolve?_eq_none fun hm => hapart.containers _ hm hc
  intro d hd type ht name hm
  exact hs.denotes hw hapart (hs.known d hd name ⟨type, ht, hm⟩)

theorem token_definitions_apart :
    let schema : Schema := ⟨[
      .record "Token" [⟨"text", .atomic "Ident"⟩, ⟨"size", .generic "Option" [.atomic "u32"]⟩,
        ⟨"kind", .generic "Vec" [.generic "Box" [.atomic "Kind"]]⟩],
      .plain "Kind" ["Word", "Mark"]]⟩
    ∃ table file, schema.verify .default = .ok table ∧
      schema.generateDefinitions .default = .ok file.text ∧
      file.entities.map (·.name) = ["Span", "Ident", "Token", "Kind"] ∧ file.Apart ∧
      ∀ name ∈ ["Ident", "u32", "Kind"], schema.Denotes table file name := by
  intro schema
  have hverify : schema.verify .default = .ok (.ofSchema schema .default) :=
    verify_of_passes 1 (by decide) (by decide) (by decide)
  obtain ⟨file, -, htext, hnames, happart, hdenotes⟩ := definitions_apart_iff hverify
  have hapart := happart.2 (by decide)
  have hmembers := (hdenotes hapart).2.2 schema.declarations[0] List.mem_cons_self
  use .ofSchema schema .default, file, hverify, htext, hnames, hapart
  rw [List.forall_mem_cons, List.forall_mem_cons, List.forall_mem_singleton]
  exact ⟨hmembers _ List.mem_cons_self _ List.mem_cons_self,
    hmembers (.generic "Option" [.atomic "u32"]) (by decide) _ (by decide),
    hmembers (.generic "Vec" [.generic "Box" [.atomic "Kind"]]) (by decide) _ (by decide)⟩

/-- A text alias named like the span is accepted, and clashes with it. -/
theorem text_alias_clashes_with_span :
    let schema : Schema := ⟨[.record "Foo" [⟨"name", .atomic "Span"⟩]]⟩
    let options : Options := { Options.default with textAlias := "Span" }
    ∃ table file, schema.verify options = .ok table ∧
      DefinitionsFile.ofSchema? schema table options = .ok file ∧
      schema.generateDefinitions options = .ok file.text ∧
      file.entities.map (·.name) = ["Span", "Span", "Foo"] ∧ ¬file.Apart := by
  intro schema options
  have hverify : schema.verify options = .ok (.ofSchema schema options) :=
    verify_of_passes 1 (by decide) (by decide) (by decide)
  obtain ⟨file, hfile, hnames⟩ : ∃ file,
      DefinitionsFile.ofSchema? schema (.ofSchema schema options) options = .ok file ∧
        file.entities.map (·.name) = ["Span", "Span", "Foo"] := ⟨_, rfl, rfl⟩
  have hclash : ¬file.Apart := by
    intro h
    have honce := hnames ▸ h.once
    exact absurd honce (by decide)
  exact ⟨_, file, hverify, hfile, generateDefinitions_of_file hverify hfile, hnames, hclash⟩

end Schema

end NodeSchema
