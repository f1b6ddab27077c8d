import NodeSchema.JavaScript
import NodeSchema.Proofs.Generation.Agreement
import NodeSchema.Proofs.Schema.Writing
import NodeSchema.Proofs.Verification.Regular

namespace NodeSchema

open Text (isUsable)

namespace Schema

variable {schema : Schema} {base options : Options}

theorem exists_generate_eq_ok_iff : (∃ code, schema.generate options = .ok code) ↔
    schema.Sound options ∧ ∀ type ∈ schema.memberTypes, schema.Walkable type := by
  rw [← fault?_eq_none_iff, fault?_generate, generateVisitor]
  cases hv : schema.verify options with
  | error fault =>
    apply iff_of_false (Option.some_ne_none fault)
    intro h
    cases hv.symm.trans (verify_eq_ok_iff.2 ⟨faults_eq_nil_iff.2 h.1, rfl⟩)
  | ok table =>
    obtain ⟨hs, rfl⟩ := sound_of_verify hv
    rw [and_iff_right hs]
    exact hs.fault?_visitorText_eq_none_iff

theorem Knows.under {name : String} (h : schema.Knows base name)
    (ha : options.textAlias = base.textAlias) (ho : base.opaqueTypes ⊆ options.opaqueTypes) :
    schema.Knows options name := by
  rcases h with h | h | h | h
  · exact .inl h
  · exact .inr (.inl (h.trans ha.symm))
  · exact .inr (.inr (.inl (ho h)))
  · exact .inr (.inr (.inr h))

theorem Sound.under (hs : schema.Sound base) (hl : isUsable options.lifetime)
    (ha : options.textAlias = base.textAlias) (ho : base.opaqueTypes ⊆ options.opaqueTypes)
    (hd : ∀ d ∈ schema.declarations, d.name ∉ options.opaqueTypes) : schema.Sound options where
  lifetime := hl
  textAlias := ha ▸ hs.textAlias
  freeNames d hm :=
    { hs.freeNames d hm with
      ne_textAlias := ha ▸ (hs.freeNames d hm).ne_textAlias
      not_opaque := hd d hm }
  declaredOnce := hs.declaredOnce
  methodsApart := hs.methodsApart
  membersApart := hs.membersApart
  wellNamed := hs.wellNamed
  known d hm name hname := (hs.known d hm name hname).under ha ho
  borrows := ha ▸ hs.borrows

/-- A node that mentions a single name, and this no node, borrows text by it. -/
theorem Sound.textAlias_eq (hs : schema.Sound options) {leaf : Declaration} {name : String}
    (hleaf : leaf ∈ schema.nodes) (hm : ∀ mentioned, leaf.Mentions mentioned → mentioned = name)
    (hn : ∀ d ∈ schema.nodes, d.name ≠ name) : options.textAlias = name := by
  obtain ⟨last, hchain, hlast⟩ := hs.borrows leaf hleaf
  rcases hchain.cases_head with rfl | ⟨next, hr, -⟩
  · exact hm _ hlast
  · exact absurd (hm _ hr.2) (hn next hr.1)

/-- Which options a schema supports, by one of them: there must be a node that mentions the text
alias only, and nothing that the visitor cannot walk. -/
theorem Sound.exists_generate_iff (hs : schema.Sound base)
    (hw : ∀ type ∈ schema.memberTypes, schema.Walkable type) {leaf : Declaration}
    (hleaf : leaf ∈ schema.nodes) (hm : ∀ name, leaf.Mentions name → name = base.textAlias)
    (ho : base.opaqueTypes ⊆ options.opaqueTypes) :
    (∃ code, schema.generate options = .ok code) ↔
      isUsable options.lifetime ∧ options.textAlias = base.textAlias ∧
        ∀ d ∈ schema.declarations, d.name ∉ options.opaqueTypes := by
  rw [exists_generate_eq_ok_iff, and_iff_left hw]
  constructor
  · intro h
    have hn : ∀ d ∈ schema.nodes, d.name ≠ base.textAlias :=
      fun d hd => (hs.freeNames d (List.mem_of_mem_filter hd)).ne_textAlias
    have ho : ∀ d ∈ schema.declarations, d.name ∉ options.opaqueTypes :=
      fun d hd => FreeName.not_opaque (h.freeNames d hd)
    exact ⟨h.lifetime, h.textAlias_eq hleaf hm hn, ho⟩
  · intro h
    obtain ⟨hl, ha, hd⟩ := h
    exact hs.under hl ha ho hd

end Schema

open Text (isIdentifier isKeyword)

namespace JavaScript

set_option maxRecDepth 4000 in
theorem regular : schema.Regular .default 3 where
  capital := by decide +kernel
  free := by decide +kernel
  declaredOnce := by decide +kernel
  methodsApart := by decide +kernel
  fieldsNamed := by decide +kernel
  fieldsApart := by decide +kernel
  choicesApart := by decide +kernel
  nested := by decide +kernel
  known := by decide +kernel
  found := by decide +kernel

theorem sound : schema.Sound .default := regular.sound (by decide) (by decide)

theorem walkable : ∀ type ∈ schema.memberTypes, schema.Walkable type := by
  intro type ht
  obtain ⟨d, hd, ht⟩ := List.mem_flatMap.1 ht
  exact regular.walkable hd ht

/-- The node that keeps nothing but text. -/
def text : Declaration := .record "Text" [⟨"text", ident⟩]

theorem text_mem_nodes : text ∈ schema.nodes :=
  List.mem_filter.2 ⟨List.mem_cons_of_mem _ List.mem_cons_self, rfl⟩

theorem eq_of_text_mentions {name : String} (h : text.Mentions name) : name = "Ident" := by
  obtain ⟨type, ht, hname⟩ := h
  obtain rfl := List.mem_singleton.1 ht
  exact List.mem_singleton.1 hname

/-- The JSON form of the schema is read as the schema. Code is generated for it just under the
options whose lifetime is an identifier and no keyword, whose text alias is the one that the schema
uses, and whose opaque types leave out the declared names. -/
theorem options_supported :
    Schema.ofJson? schema.toRaw = .ok schema ∧
    ∀ options : Options, (∃ code, schema.generate options = .ok code) ↔
      (isIdentifier options.lifetime ∧ ¬isKeyword options.lifetime) ∧
        options.textAlias = "Ident" ∧
        ∀ name ∈ options.opaqueTypes, ∀ d ∈ schema.declarations, d.name ≠ name := by
  refine ⟨sound.ofJson?_toRaw regular.fieldsNamed, ?_⟩
  intro options
  have husable : isUsable options.lifetime ↔
      isIdentifier options.lifetime ∧ ¬isKeyword options.lifetime := by
    simp [isUsable]
  have hopaque : (∀ d ∈ schema.declarations, d.name ∉ options.opaqueTypes) ↔
      ∀ name ∈ options.opaqueTypes, ∀ d ∈ schema.declarations, d.name ≠ name := by
    constructor
    · rintro h name hm d hd rfl
      exact h d hd hm
    · intro h d hd hm
      exact h d.name hm d hd rfl
  rw [← husable, ← hopaque]
  exact sound.exists_generate_iff walkable text_mem_nodes (fun _ => eq_of_text_mentions)
    (List.nil_subset _)

end JavaScript

end NodeSchema
