import NodeSchema.Proofs.Definitions.Names
import NodeSchema.Proofs.Generation.Blocks
import NodeSchema.Proofs.Generation.Pairing
import NodeSchema.Proofs.Schema.Reading
import NodeSchema.Proofs.TypeExpr.Reading

namespace NodeSchema

open Code (DefinitionsFile VisitorFile)
open Text (isIdentifier isIdentifier_of_isUsable isKeyword isUsable keywords snakeCase)

namespace Text

theorem isUsable_append_snakeCase {start s : String} (hs : start ∈ ["visit_", "walk_"])
    (h : isIdentifier s) : isUsable (start ++ snakeCase s) := by
  have hstart : ∀ start ∈ ["visit_", "walk_"], isIdentifier start := by decide
  have hkeywords : ∀ start ∈ ["visit_", "walk_"], ∀ keyword ∈ keywords,
      ¬start.toList <+: keyword.toList := by decide
  have hne : start ++ snakeCase s ∉ keywords := by
    intro hm
    apply hkeywords start hs _ hm
    rw [String.toList_append]
    exact List.prefix_append _ _
  rw [isUsable_iff]
  exact ⟨isIdentifier_append (hstart start hs) (all_isAsciiWordChar_snakeCase h),
    Bool.eq_false_iff.2 fun hk => hne (isKeyword_iff.1 hk)⟩

end Text

namespace Program

/-- The fields that an expression reads. -/
def Expression.fields : Expression → List String
  | .variable _ => []
  | .field _ name => [name]
  | .unboxed boxed => boxed.fields

mutual

/-- The methods that a statement calls, and the fields that it reads. -/
def Statement.names : Statement → List String
  | .visit method argument => method :: argument.fields
  | .each _ values body => values.fields ++ namesAll body
  | .ifPresent _ value body => value.fields ++ namesAll body
  | .discard => []

def namesAll : List Statement → List String
  | [] => []
  | statement :: statements => statement.names ++ namesAll statements

end

theorem namesAll_eq_flatMap (statements : List Statement) :
    namesAll statements = statements.flatMap Statement.names := by
  induction statements with
  | nil => rfl
  | cons s statements ih => rw [namesAll, ih, List.flatMap_cons]

def Arm.names (arm : Arm) : List String := arm.union :: arm.variant :: namesAll arm.body

def Routine.names (routine : Routine) : List String :=
  [routine.name, routine.node] ++ namesAll routine.body
    ++ routine.arms.toList.flatten.flatMap Arm.names

def Method.names (method : Method) : List String := [method.name, method.node, method.routine]

end Program

/-- The names in a program but for its variables. -/
def Program.names (program : Program) : List String :=
  program.methods.flatMap (·.names) ++ program.routines.flatMap (·.names)

namespace Program

section Fits

variable {items : List Item} {methods : List Method} {scope : Scope}

theorem Expression.exists_item {e : Expression} {type : TypeExpr}
    (h : e.type? items scope = some type) :
    ∀ name ∈ e.fields, ∃ item ∈ items, name ∈ item.labels := by
  induction e generalizing type with
  | «variable» name => exact List.forall_mem_nil _
  | field node name =>
    rw [Expression.type?] at h
    obtain ⟨t, ht, h⟩ := Option.bind_eq_some_iff.1 h
    split at h
    next record =>
      obtain ⟨item, hitem, h⟩ := Option.bind_eq_some_iff.1 h
      split at h
      next record fields =>
        obtain ⟨f, hf, -⟩ := Option.bind_eq_some_iff.1 h
        obtain rfl : f.name = name := by simpa using List.find?_some hf
        have hlabel : f.name ∈ (Item.struct record fields).labels :=
          List.mem_cons_of_mem _ (List.mem_map_of_mem (List.mem_of_find?_eq_some hf))
        intro name' hname
        obtain rfl := List.mem_singleton.1 hname
        exact ⟨_, List.mem_of_find?_eq_some hitem, hlabel⟩
      next => cases h
    next => cases h
  | unboxed boxed ih =>
    rw [Expression.type?] at h
    obtain ⟨t, ht, -⟩ := Option.bind_eq_some_iff.1 h
    exact ih ht

variable (hm : ∀ method ∈ methods, isUsable method.name)
  (hi : ∀ item ∈ items, ∀ label ∈ item.labels, isUsable label)

include hm hi

theorem Statement.Fits.isUsable_names {s : Statement} (h : s.Fits items methods scope) :
    ∀ name ∈ s.names, isUsable name := by
  have hfields {scope : Scope} {e : Expression} {type : TypeExpr}
      (h : e.type? items scope = some type) : ∀ name ∈ e.fields, isUsable name := by
    intro name hname
    obtain ⟨item, hitem, hl⟩ := Expression.exists_item h name hname
    exact hi item hitem name hl
  induction h with
  | visit hmethod ht _ => exact List.forall_mem_cons.2 ⟨hm _ hmethod, hfields ht⟩
  | each ht _ ih =>
    rw [Statement.names, namesAll_eq_flatMap, List.forall_mem_append, List.forall_mem_flatMap]
    exact ⟨hfields ht, ih⟩
  | ifPresent ht _ ih =>
    rw [Statement.names, namesAll_eq_flatMap, List.forall_mem_append, List.forall_mem_flatMap]
    exact ⟨hfields ht, ih⟩
  | discard => exact List.forall_mem_nil _

theorem Arm.Fits.isUsable_names {arm : Arm} (h : arm.Fits items methods scope) :
    ∀ name ∈ arm.names, isUsable name := by
  have henum {union : String} {variants : List Variant} {arms : List (String × String)}
      (hfound : items.find? (·.name == union) = some (.enum union variants arms)) :
      ∀ label ∈ (Item.enum union variants arms).labels, isUsable label :=
    hi _ (List.mem_of_find?_eq_some hfound)
  have hvariant {union : String} {variants : List Variant} {arms : List (String × String)}
      {variant : Variant} (hv : variants.find? (·.name == variant.name) = some variant) :
      variant.name ∈ (Item.enum union variants arms).labels := by
    apply List.mem_cons_of_mem
    exact List.mem_append_left _ (List.mem_map_of_mem (List.mem_of_find?_eq_some hv))
  cases h with
  | skip variant hfound hv =>
    rw [Arm.names, List.forall_mem_cons, List.forall_mem_cons]
    exact ⟨henum hfound _ List.mem_cons_self, henum hfound _ (hvariant hv), List.forall_mem_nil _⟩
  | bind variant hfound hv _ hb =>
    rw [Arm.names, List.forall_mem_cons, List.forall_mem_cons, namesAll_eq_flatMap,
      List.forall_mem_flatMap]
    exact ⟨henum hfound _ List.mem_cons_self, henum hfound _ (hvariant hv),
      fun s hs => (hb s hs).isUsable_names hm hi⟩

theorem Routine.Fits.isUsable_names {routine : Routine} (h : routine.Fits items methods)
    (hname : isUsable routine.name) (hnode : isUsable routine.node) :
    ∀ name ∈ routine.names, isUsable name := by
  have hhead : ∀ name ∈ [routine.name, routine.node], isUsable name :=
    List.forall_mem_cons.2 ⟨hname, List.forall_mem_singleton.2 hnode⟩
  rw [Routine.names, List.forall_mem_append, List.forall_mem_append, namesAll_eq_flatMap,
    List.forall_mem_flatMap, List.forall_mem_flatMap]
  use ⟨hhead, fun s hs => (h.body s hs).isUsable_names hm hi⟩
  intro arm harm
  obtain ⟨arms, harms, harm⟩ := List.mem_flatten.1 harm
  exact (h.arms arms (Option.mem_toList.1 harms) arm harm).2.isUsable_names hm hi

end Fits

end Program

namespace Schema

variable {schema : Schema} {options : Options}

theorem fieldsNamed_of_ofJson? {value : Json} (h : Schema.ofJson? value = .ok schema) :
    schema.FieldsNamed := by
  rw [Schema.reads_iff_spells] at h
  intro name fields hd f hf
  cases h with
  | list h =>
  obtain ⟨entry, -, hentry⟩ := exists_of_mem_right h hd
  cases hentry with
  | record _ hfields =>
  obtain ⟨entry, -, hentry⟩ := exists_of_mem_right hfields hf
  cases hentry with
  | pair hn => exact hn

/-- The visitor of a sound schema names only what is declared, under usable names. -/
theorem Paired.isUsable_names {items : List Item} {program : Program}
    (hp : schema.Paired items program) (hs : schema.Sound options) (hf : schema.FieldsNamed) :
    ∀ name ∈ program.names, isUsable name := by
  have hnodes : ∀ d ∈ schema.nodes, isUsable d.name :=
    fun d hd => (hs.freeNames d (List.mem_of_mem_filter hd)).usable
  have hsnake : ∀ start ∈ ["visit_", "walk_"], ∀ d ∈ schema.nodes,
      isUsable (start ++ snakeCase d.name) := fun start hstart d hd =>
    Text.isUsable_append_snakeCase hstart (isIdentifier_of_isUsable (hnodes d hd))
  have hvisit := hsnake "visit_" (by decide)
  have hwalk := hsnake "walk_" (by decide)
  have hlabels : ∀ item ∈ items, ∀ label ∈ item.labels, isUsable label := by
    rw [hp.defined, List.forall_mem_map]
    exact fun d hd => hs.isUsable_labels hf hd
  have hmethods : ∀ method ∈ program.methods, ∀ name ∈ method.names, isUsable name := by
    rw [hp.methods, List.forall_mem_map]
    intro d hd
    rw [Program.Method.names, List.forall_mem_cons, List.forall_mem_cons,
      List.forall_mem_singleton]
    exact ⟨hvisit d hd, hnodes d hd, hwalk d hd⟩
  have hroutines : ∀ routine ∈ program.routines,
      isUsable routine.name ∧ isUsable routine.node := by
    intro routine hr
    have hpair : (routine.name, routine.node) ∈ _ :=
      List.mem_map_of_mem (f := fun r : Program.Routine => (r.name, r.node)) hr
    rw [hp.routines] at hpair
    obtain ⟨d, hd, he⟩ := List.mem_map.1 hpair
    obtain ⟨hname, hnode⟩ := Prod.mk.inj he
    exact ⟨hname ▸ hwalk d hd, hnode ▸ hnodes d hd⟩
  rw [Program.names, List.forall_mem_append, List.forall_mem_flatMap, List.forall_mem_flatMap]
  use hmethods
  intro routine hr
  have hcalled : ∀ method ∈ program.methods, isUsable method.name :=
    fun method hm => hmethods method hm _ List.mem_cons_self
  exact (hp.fits routine hr).isUsable_names hcalled hlabels (hroutines routine hr).1
    (hroutines routine hr).2

/-- Code that is generated from JSON declares usable names only, and so does its visitor throughout.
In the definitions every name is an identifier, and the keywords among them are those that member
types have for containers or for opaque types. -/
theorem generated_names_usable {value : Json} (hl : Schema.ofJson? value = .ok schema)
    {table : NameTable} (hv : schema.verify options = .ok table) :
    (∃ text code items, schema.generateDefinitions options = .ok text ∧
      text = DefinitionsFile.imports options ++ code ∧
      Item.ofText? code = some (options.textAlias, items) ∧ isUsable options.textAlias ∧
      (∀ item ∈ items, ∀ label ∈ item.labels, isUsable label) ∧
      (∀ item ∈ items, ∀ name ∈ item.names, isIdentifier name) ∧
      ∀ name, isKeyword name → ((∃ item ∈ items, name ∈ item.names) ↔
        ∃ type ∈ schema.memberTypes,
          name ∈ type.containers ∨ name ∈ type.atoms ∧ name ∈ options.opaqueTypes)) ∧
    ∀ text, schema.generateVisitor options = .ok text → ∃ code program,
      text = Code.text (Code.heading options.visitorCommand
        ++ ["use " ++ options.astModule ++ "::*;", ""]) ++ code ∧
      Program.ofText? options.quotedLifetime code = some program ∧
      ∀ name ∈ program.names, isUsable name := by
  obtain ⟨hs, -⟩ := sound_of_verify hv
  have hf := fieldsNamed_of_ofJson? hl
  constructor
  · obtain ⟨definition, hdefinition⟩ := hs.exists_definition
    have htext := hs.generateDefinitions_eq hdefinition
    obtain ⟨code, hcode, hitems⟩ := exists_items htext hf
    have hlabels : ∀ item ∈ schema.declarations.map Item.ofDeclaration, ∀ label ∈ item.labels,
        isUsable label := List.forall_mem_map.2 fun d hd => hs.isUsable_labels hf hd
    exact ⟨_, code, _, htext, hcode, hitems, hs.textAlias, hlabels, hs.isIdentifier_names hf,
      fun name hk => hs.exists_item_of_keyword_iff hf hk⟩
  · intro text ht
    obtain ⟨code, walkers, hcode, hw, hprogram⟩ := exists_program ht hf
    exact ⟨code, _, hcode, hprogram, (paired_of_walkers hs hw).isUsable_names hs hf⟩

theorem token_names_usable :
    let value : Json := .array [
      .array [.string "ast", .string "struct", .string "Token",
        .array [.string "type", .string "Ident"],
        .array [.string "kind", .array [.string "Option", .string "Kind"]]],
      .array [.string "enum", .string "Kind", .string "Word", .string "Mark"]]
    ∃ schema table text code items, Schema.ofJson? value = .ok schema ∧
      schema.verify .default = .ok table ∧ schema.generateDefinitions .default = .ok text ∧
      text = DefinitionsFile.imports .default ++ code ∧
      Item.ofText? code = some ("Ident", items) ∧
      ∀ item ∈ items, ∀ name ∈ item.names, isUsable name := by
  intro value
  let schema : Schema := ⟨[
    .record "Token" [⟨"type", .atomic "Ident"⟩, ⟨"kind", .generic "Option" [.atomic "Kind"]⟩],
    .plain "Kind" ["Word", "Mark"]]⟩
  have hload : Schema.ofJson? value = .ok schema := by
    have hkind : Json.SpellsType (.array [.string "Option", .string "Kind"])
        (.generic "Option" [.atomic "Kind"]) :=
      .list rfl (List.cons_ne_nil _ _) (.cons (.of_isIdentifier rfl) .nil)
    have htoken : Json.SpellsDeclaration _ schema.declarations[0] :=
      .record rfl (.cons (.pair rfl (.of_isIdentifier rfl)) (.cons (.pair rfl hkind) .nil))
    have hplain : Json.SpellsDeclaration (.array [.string "enum", .string "Kind", .string "Word",
        .string "Mark"]) schema.declarations[1] :=
      @Json.SpellsDeclaration.plain "Kind" ["Word", "Mark"] rfl (by decide)
    exact (Schema.reads_iff_spells value schema).2 (.list (.cons htoken (.cons hplain .nil)))
  have hverify : schema.verify .default = .ok (.ofSchema schema .default) :=
    verify_of_passes 1 (by decide) (by decide) (by decide)
  obtain ⟨⟨text, code, items, htext, hcode, hitems, -, -, hidentifiers, hkeywords⟩, -⟩ :=
    generated_names_usable hload hverify
  have hcontainers : ∀ type ∈ schema.memberTypes, ∀ name ∈ type.containers,
      isKeyword name = false := by decide
  have husable : ∀ item ∈ items, ∀ name ∈ item.names, isUsable name := by
    intro item hitem name hname
    rw [Text.isUsable_iff, ← Bool.not_eq_true]
    use hidentifiers item hitem name hname
    intro hk
    obtain ⟨type, ht, hm⟩ := (hkeywords name hk).1 ⟨item, hitem, hname⟩
    rcases hm with hm | ⟨-, hm⟩
    · exact absurd hk (Bool.eq_false_iff.1 (hcontainers type ht name hm))
    · exact absurd hm List.not_mem_nil
  exact ⟨schema, _, text, code, items, hload, hverify, htext, hcode, hitems, husable⟩

/-- A keyword is accepted for a container, and written into the definitions. -/
theorem keyword_written_as_container :
    let value : Json := .array [.array [.string "ast", .string "struct", .string "Foo",
      .array [.string "name", .string "Ident"], .array [.string "body", .string "match<u32>"]]]
    ∃ schema table text code items, Schema.ofJson? value = .ok schema ∧
      schema.verify .default = .ok table ∧ schema.generateDefinitions .default = .ok text ∧
      text = DefinitionsFile.imports .default ++ code ∧
      Item.ofText? code = some ("Ident", items) ∧
      isKeyword "match" ∧ ∃ item ∈ items, "match" ∈ item.names := by
  intro value
  let body : TypeExpr := .generic "match" [.atomic "u32"]
  let schema : Schema := ⟨[.record "Foo" [⟨"name", .atomic "Ident"⟩, ⟨"body", body⟩]]⟩
  have hbody : TypeExpr.ofText? "match<u32>" = .ok body := by
    have hwell : body.WellNamed := .generic rfl (List.cons_ne_nil _ _)
      (List.forall_mem_singleton.2 (.atomic rfl))
    have hspells : TypeExpr.Spells body.lexemes "match<u32>".toList :=
      .lexeme (.lexeme (.lexeme (.lexeme (.nil rfl) _) _) _) _
    exact TypeExpr.reads_iff_spells.2 ⟨hwell, hspells⟩
  have hload : Schema.ofJson? value = .ok schema := by
    have hfoo : Json.SpellsDeclaration _ schema.declarations[0] :=
      .record rfl (.cons (.pair rfl (.of_isIdentifier rfl)) (.cons (.pair rfl (.text hbody)) .nil))
    exact (Schema.reads_iff_spells value schema).2 (.list (.cons hfoo .nil))
  have hverify : schema.verify .default = .ok (.ofSchema schema .default) :=
    verify_of_passes 1 (by decide) (by decide) (by decide)
  obtain ⟨text, htext⟩ : ∃ text, schema.generateDefinitions .default = .ok text := by
    rw [generateDefinitions, hverify]
    exact ⟨_, rfl⟩
  obtain ⟨code, hcode, hitems⟩ := exists_items htext (fieldsNamed_of_ofJson? hload)
  exact ⟨schema, _, text, code, _, hload, hverify, htext, hcode, hitems, by decide, _,
    List.mem_cons_self, by decide⟩

end Schema

end NodeSchema
