import NodeSchema.Proofs.Definitions.ReadFile
import NodeSchema.Proofs.Generation.Agreement

namespace NodeSchema

open Code (Definition DefinitionsFile FieldLine)
open Text (escapeKeyword isKeyword keywords)

section Names

/-- Names of fields that are written alike: equal ones, and a keyword beside the name that it is
written as. -/
inductive NamesAlike : String → String → Prop where
  | same (name : String) : NamesAlike name name
  | escaped {keyword : String} (h : keyword ∈ keywords) : NamesAlike keyword (keyword ++ "_")
  | unescaped {keyword : String} (h : keyword ∈ keywords) : NamesAlike (keyword ++ "_") keyword

theorem isKeyword_iff {name : String} : isKeyword name ↔ name ∈ keywords := List.contains_iff_mem

theorem not_isKeyword_escaped {name : String} (h : isKeyword name) :
    isKeyword (name ++ "_") = false := by
  have hall : ∀ keyword ∈ keywords, isKeyword (keyword ++ "_") = false := by decide
  exact hall name (isKeyword_iff.1 h)

theorem escapeKeyword_escapeKeyword (name : String) :
    escapeKeyword (escapeKeyword name) = escapeKeyword name := by
  by_cases h : isKeyword name
  · have hescaped := not_isKeyword_escaped h
    simp [escapeKeyword, h, hescaped]
  · simp [escapeKeyword, h]

theorem escapeKeyword_eq_iff {m n : String} :
    escapeKeyword m = escapeKeyword n ↔ NamesAlike m n := by
  constructor
  · intro h
    by_cases hm : isKeyword m
    · by_cases hn : isKeyword n
      · rw [escapeKeyword, escapeKeyword, if_pos hm, if_pos hn, String.append_left_inj] at h
        exact h ▸ .same m
      · rw [escapeKeyword, escapeKeyword, if_pos hm, if_neg hn] at h
        exact h ▸ .escaped (isKeyword_iff.1 hm)
    · by_cases hn : isKeyword n
      · rw [escapeKeyword, escapeKeyword, if_neg hm, if_pos hn] at h
        exact h ▸ .unescaped (isKeyword_iff.1 hn)
      · rw [escapeKeyword, escapeKeyword, if_neg hm, if_neg hn] at h
        exact h ▸ .same m
  · intro h
    have hescaped {keyword : String} (h : keyword ∈ keywords) :
        escapeKeyword (keyword ++ "_") = escapeKeyword keyword := by
      have hwritten : escapeKeyword keyword = keyword ++ "_" := if_pos (isKeyword_iff.2 h)
      rw [← hwritten, escapeKeyword_escapeKeyword]
    cases h with
    | same => rfl
    | escaped h => exact (hescaped h).symm
    | unescaped h => exact hescaped h

end Names

namespace Declaration

/-- A declaration with its fields named as they are written. -/
def written : Declaration → Declaration
  | record name fields => record name (fields.map fun f => ⟨f.written, f.type⟩)
  | union name variants => union name variants
  | plain name tags => plain name tags

/-- Declarations that differ at most in field names that are written alike. -/
inductive Alike : Declaration → Declaration → Prop where
  | record {name : String} {fields others : List Field}
      (h : List.Forall₂ (fun f g => NamesAlike f.name g.name ∧ f.type = g.type) fields others) :
    Alike (.record name fields) (.record name others)
  | union (name : String) (variants : List Variant) :
    Alike (.union name variants) (.union name variants)
  | plain (name : String) (tags : List String) : Alike (.plain name tags) (.plain name tags)

theorem name_written (d : Declaration) : d.written.name = d.name := by
  cases d <;> rfl

theorem meaning_written (d : Declaration) : d.written.meaning = d.meaning := by
  cases d <;> rfl

theorem written_eq_iff {d e : Declaration} : d.written = e.written ↔ d.Alike e := by
  have hfields {fields others : List Field} :
      (fields.map fun f => (⟨f.written, f.type⟩ : Field)) =
          others.map (fun f => ⟨f.written, f.type⟩) ↔
        List.Forall₂ (fun f g => NamesAlike f.name g.name ∧ f.type = g.type) fields others := by
    rw [← List.forall₂_eq_eq_eq, List.forall₂_map_left_iff, List.forall₂_map_right_iff]
    simp only [Field.mk.injEq, Field.written, escapeKeyword_eq_iff]
  constructor
  · intro h
    cases d with
    | record name fields =>
      cases e with
      | record name' others =>
        obtain ⟨rfl, hsame⟩ := Declaration.record.inj h
        exact .record (hfields.1 hsame)
      | union name' variants => cases h
      | plain name' tags => cases h
    | union name variants =>
      cases e with
      | record name' others => cases h
      | union name' variants' =>
        obtain ⟨rfl, rfl⟩ := Declaration.union.inj h
        exact .union name variants
      | plain name' tags => cases h
    | plain name tags =>
      cases e with
      | record name' others => cases h
      | union name' variants => cases h
      | plain name' tags' =>
        obtain ⟨rfl, rfl⟩ := Declaration.plain.inj h
        exact .plain name tags
  · intro h
    cases h with
    | record h => exact congrArg (Declaration.record _) (hfields.2 h)
    | union => rfl
    | plain => rfl

end Declaration

/-- The declaration that an item stands for: its span is not declared. -/
def Item.declaration : Item → Declaration
  | .struct name fields => .record name fields.tail
  | .enum name variants _ => .union name (variants.map fun v => ⟨v.name, v.payload.tail⟩)
  | .plain name tags => .plain name tags

theorem Item.declaration_ofDeclaration (d : Declaration) :
    (Item.ofDeclaration d).declaration = d.written := by
  cases d with
  | record name fields => rfl
  | union name variants =>
    rw [ofDeclaration, declaration, List.map_map]
    exact congrArg (Declaration.union name) (List.map_id variants)
  | plain name tags => rfl

/-- What is written for a declaration depends on the written names of fields only. -/
theorem Code.Definition.ofDeclaration?_written (table : NameTable) (d : Declaration) :
    Definition.ofDeclaration? table d.written = Definition.ofDeclaration? table d := by
  cases d with
  | record name fields =>
    have hfield (f : Field) :
        FieldLine.ofField? table ⟨f.written, f.type⟩ = FieldLine.ofField? table f := by
      rw [FieldLine.ofField?, Field.written, escapeKeyword_escapeKeyword, FieldLine.ofField?]
    rw [Declaration.written, ofDeclaration?, ofDeclaration?, List.mapM_map]
    simp only [Function.comp_def, hfield]
  | union name variants => rfl
  | plain name tags => rfl

namespace Schema

/-- The schema with all fields named as they are written. -/
def written (schema : Schema) : Schema := ⟨schema.declarations.map (·.written)⟩

/-- The declarations that a text of definitions was generated for under given options. -/
def declarationsOf? (options : Options) (text : String) : Option (List Declaration) := do
  let behind := text.toList.drop (DefinitionsFile.imports options).toList.length
  let (_, items) ← Item.ofText? (String.ofList behind)
  return items.map (·.declaration)

variable {schema : Schema} {options : Options} {table : NameTable}

theorem ofSchema_written (schema : Schema) (options : Options) :
    NameTable.ofSchema schema.written options = NameTable.ofSchema schema options := by
  rw [NameTable.ofSchema, NameTable.ofSchema, written, ← List.map_reverse, List.map_map]
  simp only [Function.comp_def, Declaration.name_written, Declaration.meaning_written]

theorem definitionsText_written (schema : Schema) (table : NameTable) (options : Options) :
    schema.written.definitionsText table options = schema.definitionsText table options := by
  rw [definitionsText, definitionsText, DefinitionsFile.ofSchema?, DefinitionsFile.ofSchema?,
    written, List.mapM_map]
  simp only [Function.comp_def, Definition.ofDeclaration?_written]

theorem generateDefinitions_eq_written (h : schema.verify options = .ok table) :
    schema.generateDefinitions options =
      schema.written.definitionsText (.ofSchema schema.written options) options := by
  obtain ⟨-, rfl⟩ := verify_eq_ok_iff.1 h
  rw [ofSchema_written, definitionsText_written, generateDefinitions, h]
  rfl

theorem exists_items {text : String} (h : schema.generateDefinitions options = .ok text)
    (hf : schema.FieldsNamed) :
    ∃ code, text = DefinitionsFile.imports options ++ code ∧
      Item.ofText? code =
        some (options.textAlias, schema.declarations.map Item.ofDeclaration) := by
  obtain ⟨hs, file, rfl, hfile⟩ := exists_definitionsFile h
  exact ⟨file.code, DefinitionsFile.text_of_ofSchema? hfile,
    DefinitionsFile.ofText?_code hs hf hfile⟩

/-- The declarations of a verified schema are decoded from its definitions. -/
theorem exists_declarationsOf? (h : schema.verify options = .ok table) (hf : schema.FieldsNamed) :
    ∃ text, schema.generateDefinitions options = .ok text ∧
      declarationsOf? options text = some schema.written.declarations := by
  have hgenerated := fault?_generateDefinitions schema options
  rw [h, fault?_eq_none_iff.2 ⟨_, rfl⟩, fault?_eq_none_iff] at hgenerated
  obtain ⟨text, htext⟩ := hgenerated
  obtain ⟨code, he, hitems⟩ := exists_items htext hf
  use text, htext
  rw [declarationsOf?, he, String.toList_append, List.drop_left, String.ofList_toList, hitems, written]
  simp only [Option.bind_eq_bind, Option.bind_some, List.map_map, Function.comp_def,
    Item.declaration_ofDeclaration]
  rfl

/-- The definitions of a verified schema can be generated, and its declarations can be decoded from
them. Two schemas have the same definitions if and only if they have the same declarations in the
same order, up to how keywords among the names of fields are escaped. -/
theorem definitions_lose_nothing {a b : Schema} {options : Options} {table table' : NameTable}
    (ha : a.verify options = .ok table) (hb : b.verify options = .ok table')
    (hfa : a.FieldsNamed) (hfb : b.FieldsNamed) :
    (∃ text, a.generateDefinitions options = .ok text ∧
      declarationsOf? options text = some a.written.declarations) ∧
    (a.generateDefinitions options = b.generateDefinitions options ↔
      List.Forall₂ Declaration.Alike a.declarations b.declarations) := by
  have hwritten : a.written.declarations = b.written.declarations ↔
      List.Forall₂ Declaration.Alike a.declarations b.declarations := by
    rw [written, written, ← List.forall₂_eq_eq_eq, List.forall₂_map_left_iff,
      List.forall₂_map_right_iff]
    simp only [Declaration.written_eq_iff]
  obtain ⟨text, htext, hdecoded⟩ := exists_declarationsOf? ha hfa
  obtain ⟨text', htext', hdecoded'⟩ := exists_declarationsOf? hb hfb
  use ⟨text, htext, hdecoded⟩
  rw [← hwritten]
  constructor
  · intro h
    obtain rfl := Except.ok.inj (htext.symm.trans (h.trans htext'))
    exact Option.some.inj (hdecoded.symm.trans hdecoded')
  · intro h
    have hsame : a.written = b.written := congrArg Schema.mk h
    rw [generateDefinitions_eq_written ha, generateDefinitions_eq_written hb, hsame]

theorem type_field_written_as_type_ :
    let schema (field : String) : Schema := ⟨[
      .record "Token" [⟨field, .atomic "Ident"⟩,
        ⟨"kinds", .generic "Vec" [.generic "Box" [.atomic "Kind"]]⟩],
      .union "Kind" [⟨"Empty", []⟩,
        ⟨"Name", [.atomic "Token", .generic "Map" [.atomic "Mode", .atomic "bool"]]⟩],
      .plain "Mode" ["On", "Off"]]⟩
    (∃ text, (schema "type").generateDefinitions .default = .ok text ∧
      declarationsOf? .default text = some (schema "type_").declarations) ∧
    (schema "type").generateDefinitions .default =
      (schema "type_").generateDefinitions .default ∧
    (schema "type").generateDefinitions .default ≠
      (schema "kind").generateDefinitions .default := by
  intro schema
  have hverify : ∀ field ∈ ["type", "type_", "kind"],
      (schema field).verify .default = .ok (.ofSchema (schema field) .default) ∧
        (schema field).FieldsNamed := by
    simp only [List.forall_mem_cons]
    exact ⟨⟨verify_of_passes 1 (by decide) (by decide) (by decide), by decide⟩,
      ⟨verify_of_passes 1 (by decide) (by decide) (by decide), by decide⟩,
      ⟨verify_of_passes 1 (by decide) (by decide) (by decide), by decide⟩, List.forall_mem_nil _⟩
  have hescaped :
      Declaration.Alike (schema "type").declarations[0] (schema "type_").declarations[0] :=
    .record (.cons ⟨.escaped (by decide), rfl⟩ (.cons ⟨.same _, rfl⟩ .nil))
  have hlost (field : String) (hm : field ∈ ["type", "type_", "kind"]) :=
    definitions_lose_nothing (hverify "type" List.mem_cons_self).1 (hverify field hm).1
      (hverify "type" List.mem_cons_self).2 (hverify field hm).2
  obtain ⟨hdecoded, hsame⟩ := hlost "type_" (by decide)
  have hrest : ∀ d ∈ (schema "type").declarations.tail, d.Alike d := by
    simp only [schema, List.tail_cons, List.forall_mem_cons]
    exact ⟨.union _ _, .plain _ _, List.forall_mem_nil _⟩
  have hother : ¬List.Forall₂ Declaration.Alike (schema "type").declarations
      (schema "kind").declarations := by
    intro h
    cases h with
    | cons h _ =>
    cases h with
    | record h =>
    cases h with
    | cons h _ => exact absurd (escapeKeyword_eq_iff.2 h.1) (by decide)
  exact ⟨hdecoded, hsame.2 (.cons hescaped (List.forall₂_same.2 hrest)),
    fun h => hother ((hlost "kind" (by decide)).2.1 h)⟩

end Schema

end NodeSchema
