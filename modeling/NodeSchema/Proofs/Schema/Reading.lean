import Mathlib.Data.List.Forall2
import NodeSchema.Proofs.Success
import NodeSchema.Proofs.TypeExpr.Reading
import NodeSchema.Schema.Reader

namespace NodeSchema

open Text (isIdentifier)

namespace Json

/-- A type is spelled by its text form, or by a list of its container and of values that spell its
arguments. -/
inductive SpellsType : Json → TypeExpr → Prop where
  | text {text : String} {e : TypeExpr} (h : TypeExpr.ofText? text = .ok e) :
      SpellsType (.string text) e
  | list {container : String} {values : List Json} {args : List TypeExpr}
      (hc : isIdentifier container) (hne : values ≠ []) (ha : List.Forall₂ SpellsType values args) :
      SpellsType (.array (.string container :: values)) (.generic container args)

inductive SpellsField : Json → Field → Prop where
  | pair {name : String} {value : Json} {type : TypeExpr} (hn : isIdentifier name)
      (ht : value.SpellsType type) : SpellsField (.array [.string name, value]) ⟨name, type⟩

inductive SpellsVariant : Json → Variant → Prop where
  | entry {name : String} {values : List Json} {payload : List TypeExpr} (hn : isIdentifier name)
      (hp : List.Forall₂ SpellsType values payload) :
      SpellsVariant (.array (.string name :: values)) ⟨name, payload⟩

inductive SpellsDeclaration : Json → Declaration → Prop where
  | record {name : String} {entries : List Json} {fields : List Field} (hn : isIdentifier name)
      (hf : List.Forall₂ SpellsField entries fields) :
      SpellsDeclaration (.array ([.string "ast", .string "struct", .string name] ++ entries))
        (.record name fields)
  | union {name : String} {entries : List Json} {variants : List Variant} (hn : isIdentifier name)
      (hv : List.Forall₂ SpellsVariant entries variants) :
      SpellsDeclaration (.array ([.string "ast", .string "enum", .string name] ++ entries))
        (.union name variants)
  | plain {name : String} {tags : List String} (hn : isIdentifier name)
      (ht : ∀ tag ∈ tags, isIdentifier tag) :
      SpellsDeclaration (.array ([.string "enum", .string name] ++ tags.map .string))
        (.plain name tags)

inductive SpellsSchema : Json → Schema → Prop where
  | list {entries : List Json} {declarations : List Declaration}
      (h : List.Forall₂ SpellsDeclaration entries declarations) :
      SpellsSchema (.array entries) ⟨declarations⟩

end Json

theorem Json.SpellsType.of_isIdentifier {name : String} (h : isIdentifier name) :
    Json.SpellsType (.string name) (.atomic name) := by
  have hspells : TypeExpr.Spells [.name name] (name.toList ++ []) :=
    .lexeme (.nil rfl) (.name name)
  rw [List.append_nil] at hspells
  exact .text (TypeExpr.reads_iff_spells.2 ⟨.atomic h, hspells⟩)

theorem TypeExpr.ofJson?_list {container : String} {values : List Json} (hne : values ≠ [])
    (hc : isIdentifier container) :
    TypeExpr.ofJson? (.array (.string container :: values)) =
      TypeExpr.ofJsons? values >>= fun args => .ok (.generic container args) := by
  obtain ⟨v, vs, rfl⟩ := List.exists_cons_of_ne_nil hne
  rw [TypeExpr.ofJson?, if_neg (by simp), if_pos hc]
  rfl

theorem TypeExpr.ofJsons?_eq_mapM (values : List Json) :
    TypeExpr.ofJsons? values = values.mapM TypeExpr.ofJson? := by
  induction values with
  | nil => rfl
  | cons value values ih =>
    rw [TypeExpr.ofJsons?, List.mapM_cons, ih]

theorem TypeExpr.ofJson?_eq_ok_iff (value : Json) (e : TypeExpr) :
    TypeExpr.ofJson? value = .ok e ↔ value.SpellsType e := by
  induction value using TypeExpr.ofJson?.induct
    (motive_2 := fun values => ∀ value ∈ values, ∀ e, TypeExpr.ofJson? value = .ok e ↔
      value.SpellsType e) generalizing e with
  | case1 text =>
    rw [TypeExpr.ofJson?, mapError_eq_ok_iff]
    constructor
    · exact .text
    · intro h
      cases h with
      | text h => exact h
  | case2 container values hne =>
    rw [TypeExpr.ofJson?, if_pos hne]
    constructor
    · intro h
      cases h
    · intro h
      cases h with
      | list _ h _ => exact absurd (List.isEmpty_iff.1 hne) h
  | case3 container values hne hc ih =>
    have hne' : values ≠ [] := fun he => hne (List.isEmpty_iff.2 he)
    rw [TypeExpr.ofJson?_list hne' hc, TypeExpr.ofJsons?_eq_mapM]
    constructor
    · intro h
      obtain ⟨args, ha, ⟨⟩⟩ := bind_eq_ok_iff.1 h
      exact .list hc hne' ((mapM_eq_ok_iff ih args).1 ha)
    · intro h
      cases h with
      | list _ _ ha => exact bind_eq_ok_iff.2 ⟨_, (mapM_eq_ok_iff ih _).2 ha, rfl⟩
  | case4 container values hne hc =>
    rw [TypeExpr.ofJson?, if_neg hne, if_neg hc]
    constructor
    · intro h
      cases h
    · intro h
      cases h with
      | list h _ _ => exact absurd h hc
  | case5 items hi =>
    rw [TypeExpr.ofJson?.eq_3 _ hi]
    constructor
    · intro h
      cases h
    · intro h
      cases h with
      | list => exact (hi _ _ rfl).elim
  | case6 value ht hl hi =>
    rw [TypeExpr.ofJson?.eq_4 _ ht hl hi]
    constructor
    · intro h
      cases h
    · intro h
      cases h with
      | text => exact (ht _ rfl).elim
      | list => exact (hl _ _ rfl).elim
  | case7 v hm => cases hm
  | case8 value values ih ihs v hm e =>
    rcases List.mem_cons.1 hm with rfl | hm
    · exact ih e
    · exact ihs v hm e

theorem TypeExpr.ofJsons?_eq_ok_iff (values : List Json) (es : List TypeExpr) :
    TypeExpr.ofJsons? values = .ok es ↔ List.Forall₂ Json.SpellsType values es := by
  rw [TypeExpr.ofJsons?_eq_mapM]
  exact mapM_eq_ok_iff (fun value _ => TypeExpr.ofJson?_eq_ok_iff value) es

theorem Field.ofJson?_eq_ok_iff (record : String) (value : Json) (field : Field) :
    Field.ofJson? record value = .ok field ↔ value.SpellsField field := by
  constructor
  · intro h
    rw [Field.ofJson?.eq_def] at h
    split at h
    · next name type =>
      by_cases hn : isIdentifier name
      · rw [if_pos hn] at h
        obtain ⟨e, he, ⟨⟩⟩ := bind_eq_ok_iff.1 h
        exact .pair hn ((TypeExpr.ofJson?_eq_ok_iff type e).1 (mapError_eq_ok_iff.1 he))
      · rw [if_neg hn] at h
        cases h
    · cases h
  · intro h
    obtain ⟨hn, ht⟩ := h
    rw [Field.ofJson?, if_pos hn]
    exact bind_eq_ok_iff.2 ⟨_, mapError_eq_ok_iff.2 ((TypeExpr.ofJson?_eq_ok_iff _ _).2 ht), rfl⟩

theorem Variant.ofJson?_eq_ok_iff (union : String) (value : Json) (variant : Variant) :
    Variant.ofJson? union value = .ok variant ↔ value.SpellsVariant variant := by
  constructor
  · intro h
    rw [Variant.ofJson?.eq_def] at h
    split at h
    · next name values =>
      by_cases hn : isIdentifier name
      · rw [if_pos hn] at h
        obtain ⟨payload, hp, ⟨⟩⟩ := bind_eq_ok_iff.1 h
        exact .entry hn ((TypeExpr.ofJsons?_eq_ok_iff values payload).1 (mapError_eq_ok_iff.1 hp))
      · rw [if_neg hn] at h
        cases h
    · cases h
  · intro h
    obtain ⟨hn, hp⟩ := h
    rw [Variant.ofJson?, if_pos hn]
    exact bind_eq_ok_iff.2 ⟨_, mapError_eq_ok_iff.2 ((TypeExpr.ofJsons?_eq_ok_iff _ _).2 hp), rfl⟩

namespace Declaration

theorem nameOf?_eq_ok_iff {declaration : Json} {part : NamePart} {entries : List Json}
    {name : String} {rest : List Json} :
    nameOf? declaration part entries = .ok (name, rest) ↔
      entries = .string name :: rest ∧ isIdentifier name := by
  constructor
  · intro h
    rw [nameOf?.eq_def] at h
    split at h
    · next name' rest' =>
      by_cases hn : isIdentifier name'
      · rw [if_pos hn] at h
        cases h
        exact ⟨rfl, hn⟩
      · rw [if_neg hn] at h
        cases h
    · cases h
  · intro h
    obtain ⟨rfl, hn⟩ := h
    rw [nameOf?, if_pos hn]

theorem tagOf?_eq_ok_iff (declaration value : Json) (tag : String) :
    tagOf? declaration value = .ok tag ↔ value = .string tag ∧ isIdentifier tag := by
  rw [tagOf?]
  constructor
  · intro h
    obtain ⟨⟨name, rest⟩, hn, ⟨⟩⟩ := bind_eq_ok_iff.1 h
    obtain ⟨he, hi⟩ := nameOf?_eq_ok_iff.1 hn
    exact ⟨(List.cons.inj he).1, hi⟩
  · intro h
    obtain ⟨rfl, hi⟩ := h
    exact bind_eq_ok_iff.2 ⟨(tag, []), nameOf?_eq_ok_iff.2 ⟨rfl, hi⟩, rfl⟩

theorem mapM_tagOf?_eq_ok_iff (declaration : Json) (values : List Json) (tags : List String) :
    values.mapM (tagOf? declaration) = .ok tags ↔
      values = tags.map .string ∧ ∀ tag ∈ tags, isIdentifier tag := by
  rw [mapM_eq_ok_iff fun value _ => tagOf?_eq_ok_iff declaration value]
  constructor
  · intro h
    induction h with
    | nil => exact ⟨rfl, fun tag hm => nomatch hm⟩
    | cons ht _ ih =>
      obtain ⟨rfl, hi⟩ := ht
      constructor
      · rw [ih.1, List.map_cons]
      · intro tag hm
        rcases List.mem_cons.1 hm with rfl | hm
        · exact hi
        · exact ih.2 tag hm
  · intro h
    obtain ⟨rfl, hi⟩ := h
    rw [List.forall₂_map_left_iff, List.forall₂_same]
    intro tag hm
    exact ⟨rfl, hi tag hm⟩

theorem ofJson?_eq_ok_iff (value : Json) (d : Declaration) :
    ofJson? value = .ok d ↔ value.SpellsDeclaration d := by
  constructor
  · intro h
    rw [ofJson?.eq_def] at h
    split at h
    · obtain ⟨⟨name, rest⟩, hn, h⟩ := bind_eq_ok_iff.1 h
      obtain ⟨fields, hf, ⟨⟩⟩ := bind_eq_ok_iff.1 h
      obtain ⟨rfl, hi⟩ := nameOf?_eq_ok_iff.1 hn
      exact .record hi ((mapM_eq_ok_iff (fun v _ => Field.ofJson?_eq_ok_iff name v) fields).1 hf)
    · obtain ⟨⟨name, rest⟩, hn, h⟩ := bind_eq_ok_iff.1 h
      obtain ⟨variants, hv, ⟨⟩⟩ := bind_eq_ok_iff.1 h
      obtain ⟨rfl, hi⟩ := nameOf?_eq_ok_iff.1 hn
      exact .union hi
        ((mapM_eq_ok_iff (fun v _ => Variant.ofJson?_eq_ok_iff name v) variants).1 hv)
    · obtain ⟨⟨name, rest⟩, hn, h⟩ := bind_eq_ok_iff.1 h
      obtain ⟨tags, ht, ⟨⟩⟩ := bind_eq_ok_iff.1 h
      obtain ⟨rfl, hi⟩ := nameOf?_eq_ok_iff.1 hn
      obtain ⟨rfl, hti⟩ := (mapM_tagOf?_eq_ok_iff _ rest tags).1 ht
      exact .plain hi hti
    · cases h
    · cases h
  · intro h
    cases h with
    | @record name entries fields hi hf =>
      have hf := (mapM_eq_ok_iff (fun v _ => Field.ofJson?_eq_ok_iff name v) fields).2 hf
      exact bind_eq_ok_iff.2 ⟨_, nameOf?_eq_ok_iff.2 ⟨rfl, hi⟩, bind_eq_ok_iff.2 ⟨_, hf, rfl⟩⟩
    | @union name entries variants hi hv =>
      have hv := (mapM_eq_ok_iff (fun v _ => Variant.ofJson?_eq_ok_iff name v) variants).2 hv
      exact bind_eq_ok_iff.2 ⟨_, nameOf?_eq_ok_iff.2 ⟨rfl, hi⟩, bind_eq_ok_iff.2 ⟨_, hv, rfl⟩⟩
    | plain hi ht =>
      have hts (declaration : Json) := (mapM_tagOf?_eq_ok_iff declaration _ _).2 ⟨rfl, ht⟩
      exact bind_eq_ok_iff.2 ⟨_, nameOf?_eq_ok_iff.2 ⟨rfl, hi⟩, bind_eq_ok_iff.2 ⟨_, hts _, rfl⟩⟩

end Declaration

theorem Schema.reads_iff_spells (value : Json) (schema : Schema) :
    Schema.ofJson? value = .ok schema ↔ value.SpellsSchema schema := by
  constructor
  · intro h
    rw [Schema.ofJson?.eq_def] at h
    split at h
    · obtain ⟨declarations, hd, ⟨⟩⟩ := bind_eq_ok_iff.1 h
      exact .list ((mapM_eq_ok_iff
        (fun v _ => Declaration.ofJson?_eq_ok_iff v) declarations).1 hd)
    · cases h
  · intro h
    cases h with
    | list h =>
      have hd := (mapM_eq_ok_iff (fun v _ => Declaration.ofJson?_eq_ok_iff v) _).2 h
      exact bind_eq_ok_iff.2 ⟨_, hd, rfl⟩

end NodeSchema
