import NodeSchema.Proofs.Generation.Agreement

namespace NodeSchema

namespace Schema

/-- What a name means by the declarations and the options, whatever table they are entered into. -/
def Means (schema : Schema) (options : Options) (name : String) : Meaning → Prop
  | .node => (∃ fields, .record name fields ∈ schema.declarations) ∨
      ∃ variants, .union name variants ∈ schema.declarations
  | .plain => ∃ tags, .plain name tags ∈ schema.declarations
  | .textAlias => name = options.textAlias
  | .foreign => (name ∈ primitiveTypes ∨ name ∈ options.opaqueTypes) ∧ name ≠ options.textAlias

variable {schema : Schema} {options : Options} {name : String} {meaning other : Meaning}

theorem means_of_mem {d : Declaration} (hd : d ∈ schema.declarations) :
    schema.Means options d.name d.meaning := by
  cases d with
  | record name fields => exact .inl ⟨fields, hd⟩
  | union name variants => exact .inr ⟨variants, hd⟩
  | plain name tags => exact ⟨tags, hd⟩

theorem means_node_iff : schema.Means options name .node ↔ ∃ d ∈ schema.nodes, d.name = name := by
  constructor
  · intro h
    rcases h with ⟨fields, hd⟩ | ⟨variants, hd⟩
    · exact ⟨_, List.mem_filter.2 ⟨hd, rfl⟩, rfl⟩
    · exact ⟨_, List.mem_filter.2 ⟨hd, rfl⟩, rfl⟩
  · intro h
    obtain ⟨d, hd, rfl⟩ := h
    obtain ⟨hd, hi⟩ := List.mem_filter.1 hd
    have hm : d.meaning = .node := if_pos hi
    rw [← hm]
    exact means_of_mem hd

theorem Means.mono {larger : Schema} (h : schema.Means options name meaning)
    (hs : schema.declarations ⊆ larger.declarations) : larger.Means options name meaning := by
  cases meaning with
  | node =>
    rcases h with ⟨fields, hd⟩ | ⟨variants, hd⟩
    · exact .inl ⟨fields, hs hd⟩
    · exact .inr ⟨variants, hs hd⟩
  | plain =>
    obtain ⟨tags, hd⟩ := h
    exact ⟨tags, hs hd⟩
  | textAlias => exact h
  | foreign => exact h

theorem Sound.meaning?_of_means (hs : schema.Sound options)
    (h : schema.Means options name meaning) :
    (NameTable.ofSchema schema options).meaning? name = some meaning := by
  cases meaning with
  | node =>
    rcases h with ⟨fields, hd⟩ | ⟨variants, hd⟩
    · exact NameTable.meaning?_declared hs.declaredOnce hd
    · exact NameTable.meaning?_declared hs.declaredOnce hd
  | plain =>
    obtain ⟨tags, hd⟩ := h
    exact NameTable.meaning?_declared hs.declaredOnce hd
  | textAlias =>
    have hne := fun d hd => (hs.freeNames d hd).ne_textAlias
    exact (NameTable.meaning?_eq_textAlias_iff hs.declaredOnce hne).2 h
  | foreign =>
    obtain ⟨hf, hne⟩ := h
    have hfree : ∀ d ∈ schema.declarations, d.name ≠ name := by
      intro d hd he
      have hname := hs.freeNames d hd
      rcases hf with hp | ho
      · exact hname.not_primitive (he ▸ hp)
      · exact hname.not_opaque (he ▸ ho)
    rw [NameTable.meaning?_undeclared hfree, NameTable.lookup_ofOptions, if_neg hne,
      if_pos hf.symm]

theorem Sound.means_of_meaning? (hs : schema.Sound options)
    (h : (NameTable.ofSchema schema options).meaning? name = some meaning) :
    schema.Means options name meaning := by
  by_cases hd : ∃ d ∈ schema.declarations, d.name = name
  · obtain ⟨d, hd, rfl⟩ := hd
    rw [NameTable.meaning?_declared hs.declaredOnce hd] at h
    obtain rfl := Option.some.inj h
    exact means_of_mem hd
  · have hfree : ∀ d ∈ schema.declarations, d.name ≠ name := fun d hm he => hd ⟨d, hm, he⟩
    rw [NameTable.meaning?_undeclared hfree, NameTable.lookup_ofOptions] at h
    split at h
    next ha =>
      obtain rfl := Option.some.inj h
      exact ha
    next hne =>
    split at h
    next hf =>
      obtain rfl := Option.some.inj h
      exact ⟨hf.symm, hne⟩
    next => cases h

theorem Sound.meaning?_eq_some_iff (hs : schema.Sound options) :
    (NameTable.ofSchema schema options).meaning? name = some meaning ↔
      schema.Means options name meaning :=
  ⟨hs.means_of_meaning?, hs.meaning?_of_means⟩

/-- In a sound schema no name has two meanings. -/
theorem Sound.means_unique (hs : schema.Sound options) (h : schema.Means options name meaning)
    (h' : schema.Means options name other) : meaning = other :=
  Option.some.inj ((hs.meaning?_of_means h).symm.trans (hs.meaning?_of_means h'))

theorem Sound.meaning?_eq_none_iff (hs : schema.Sound options) :
    (NameTable.ofSchema schema options).meaning? name = none ↔
      ∀ meaning, ¬schema.Means options name meaning := by
  rw [Option.eq_none_iff_forall_ne_some]
  exact forall_congr' fun meaning => not_congr hs.meaning?_eq_some_iff

/-- The table of a verified schema gives each name the one meaning that it has by the declarations
and the options, and none to any other name. No member type mentions a name without a meaning, and
it holds a node where it mentions the name of one. -/
theorem table_exact {table : NameTable} (h : schema.verify options = .ok table) :
    (∀ name meaning, table.meaning? name = some meaning ↔ schema.Means options name meaning) ∧
    (∀ name, table.meaning? name = none ↔ ∀ meaning, ¬schema.Means options name meaning) ∧
    (∀ name meaning other, schema.Means options name meaning → schema.Means options name other →
      meaning = other) ∧
    ∀ d ∈ schema.declarations, ∀ type ∈ d.memberTypes,
      (∀ name ∈ type.atoms, ∃ meaning, table.meaning? name = some meaning) ∧
      (table.containsNode type ↔ ∃ name ∈ type.atoms, schema.Means options name .node) := by
  obtain ⟨hs, rfl⟩ := sound_of_verify h
  use fun _ _ => hs.meaning?_eq_some_iff, fun _ => hs.meaning?_eq_none_iff,
    fun _ _ _ => hs.means_unique
  intro d hd type ht
  constructor
  · intro name hname
    exact Option.isSome_iff_exists.1 ((hs.resolves hd type ht).2 name hname)
  · rw [hs.knowsNodes.containsNode_iff, HoldsNode]
    simp only [means_node_iff]
    constructor
    · intro hn
      obtain ⟨e, he, hname⟩ := hn
      exact ⟨e.name, hname, e, he, rfl⟩
    · intro hn
      obtain ⟨name, hname, e, he, rfl⟩ := hn
      exact ⟨e, he, hname⟩

/-- The text alias and a primitive type are listed as opaque types too. -/
theorem tree_table_exact :
    let pair : TypeExpr := .generic "Pair" [.atomic "Count", .generic "Box" [.atomic "Tree"]]
    let schema : Schema := ⟨[.plain "Shape" ["Round", "Flat"],
      .record "Tree" [⟨"label", .atomic "Word"⟩, ⟨"shape", .atomic "Shape"⟩, ⟨"child", pair⟩]]⟩
    let options : Options :=
      { Options.default with textAlias := "Word", opaqueTypes := ["Count", "Word", "u32"] }
    ∃ table, schema.verify options = .ok table ∧ table.meaning? "Tree" = some .node ∧
      table.meaning? "Shape" = some .plain ∧ table.meaning? "Word" = some .textAlias ∧
      table.meaning? "Count" = some .foreign ∧ table.meaning? "u32" = some .foreign ∧
      table.meaning? "Pair" = none ∧ table.containsNode pair := by
  intro pair schema options
  have hverify : schema.verify options = .ok (.ofSchema schema options) :=
    verify_of_passes 1 (by decide) (by decide) (by decide)
  obtain ⟨hsome, hnone, -, hmembers⟩ := table_exact hverify
  have hshape : schema.Means options "Shape" .plain := ⟨_, .head _⟩
  have htree : schema.Means options "Tree" .node := .inl ⟨_, .tail _ (.head _)⟩
  have hcount : schema.Means options "Count" .foreign := ⟨.inr (by decide), by decide⟩
  have hprimitive : schema.Means options "u32" .foreign := ⟨.inl (by decide), by decide⟩
  have hpair : ∀ meaning, ¬schema.Means options "Pair" meaning := by
    intro meaning
    cases meaning with
    | node | plain => simp [Means, schema]
    | textAlias => exact (by decide : "Pair" ≠ "Word")
    | foreign =>
      intro h
      exact absurd h.1 (by decide)
  have hnode := (hmembers _ (.tail _ (.head _)) pair (by decide)).2.2 ⟨"Tree", by decide, htree⟩
  exact ⟨_, hverify, (hsome _ _).2 htree, (hsome _ _).2 hshape, (hsome _ _).2 rfl,
    (hsome _ _).2 hcount, (hsome _ _).2 hprimitive, (hnone _).2 hpair, hnode⟩

end Schema

end NodeSchema
