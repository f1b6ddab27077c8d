import NodeSchema.Proofs.Definitions.ReadBack

namespace NodeSchema

open Code (Definition DefinitionsFile FieldLine VariantLine text)
open Program (Token expect_append readAll readWord tokens tokens_append_mark tokens_between
  tokens_mark_append tokens_of_isWord tokens_text tokens_text_append tokens_text_blank
  tokens_text_flatMap tokens_text_singleton)
open Text (IsWord isIdentifier isIdentifier_of_isUsable isUsable isWord_escapeKeyword
  isWord_of_isIdentifier)

/-- The names of the members, as they are written. -/
def Declaration.memberNames : Declaration → List String
  | .record _ fields => fields.map (·.written)
  | .union _ variants => variants.map (·.name)
  | .plain _ tags => tags

/-- A declaration whose names are words, over types with identifiers for names. -/
structure Declaration.Worded (d : Declaration) : Prop where
  name : IsWord d.name
  members : ∀ name ∈ d.memberNames, IsWord name
  types : ∀ type ∈ d.memberTypes, type.WellNamed

theorem Schema.Sound.worded {schema : Schema} {options : Options} (hs : schema.Sound options)
    {d : Declaration} (hd : d ∈ schema.declarations)
    (hf : ∀ name fields, d = .record name fields → ∀ f ∈ fields, isIdentifier f.name) :
    d.Worded := by
  have hword {name : String} (h : isUsable name) : IsWord name :=
    isWord_of_isIdentifier (isIdentifier_of_isUsable h)
  have hmembers : ∀ name ∈ d.memberNames, IsWord name := by
    have hm := hs.membersApart d hd
    cases d with
    | record name fields =>
      rw [Declaration.memberNames, List.forall_mem_map]
      exact fun f hfield => isWord_escapeKeyword (hf name fields rfl f hfield)
    | union name variants =>
      rw [Declaration.memberNames, List.forall_mem_map]
      exact fun v hv => hword (hm.2.2 v hv)
    | plain name tags => exact fun tag ht => hword (hm.2 tag ht)
  exact ⟨hword (hs.freeNames d hd).usable, hmembers, hs.wellNamed d hd⟩

namespace Item

variable {table : NameTable}

theorem isField_of_ofField? (hl : IsLifetime table.lifetime) {f : Field} {line : FieldLine}
    (hn : IsWord f.written) (ht : f.type.WellNamed) (h : FieldLine.ofField? table f = .ok line) :
    IsField table.lifetime ⟨f.written, f.type⟩ line := by
  obtain ⟨type, htext, h⟩ := bind_eq_ok_iff.1 h
  obtain rfl := Except.ok.inj h
  exact ⟨rfl, hn, .of_toCode hl ht htext⟩

theorem isVariant_of_ofVariant? (hl : IsLifetime table.lifetime) {v : Variant} {line : VariantLine}
    (hn : IsWord v.name) (ht : ∀ type ∈ v.payload, type.WellNamed)
    (h : VariantLine.ofVariant? table v = .ok line) :
    IsVariant table.lifetime ⟨v.name, .atomic "Span" :: v.payload⟩ line := by
  obtain ⟨slots, hslots, h⟩ := bind_eq_ok_iff.1 h
  obtain rfl := Except.ok.inj h
  rw [TypeExpr.toCodes_eq_mapM, mapM_eq_ok_iff fun _ _ _ => Iff.rfl] at hslots
  have htypes : List.Forall₂ (IsText table.lifetime) v.payload slots :=
    ((List.forall₂_and_left _ _).2 ⟨ht, hslots⟩).imp fun _ _ h => .of_toCode hl h.1 h.2
  exact ⟨rfl, hn, .cons isText_span htypes⟩

theorem read_declaration (hl : IsLifetime table.lifetime) {d : Declaration} (hw : d.Worded)
    {definition : Definition} (h : Definition.ofDeclaration? table d = .ok definition)
    (ts : List Token) :
    read table.lifetime (tokens (text (definition.lines table.lifetime)) ++ ts) =
      some (ofDeclaration d, ts) := by
  obtain ⟨hname, hmembers, htypes⟩ := hw
  cases d with
  | record name fields =>
    obtain ⟨lines, hlines, h⟩ := bind_eq_ok_iff.1 h
    obtain rfl := Except.ok.inj h
    rw [Declaration.memberNames, List.forall_mem_map] at hmembers
    rw [Declaration.memberTypes, List.forall_mem_map] at htypes
    have hall := (mapM_eq_ok_iff (fun _ _ _ => Iff.rfl) lines).1 hlines
    have hfields : List.Forall₂ (IsField table.lifetime)
        (fields.map fun f => ⟨f.written, f.type⟩) lines := by
      rw [List.forall₂_map_left_iff]
      exact ((List.forall₂_and_left _ _).2 ⟨fun _ hm => hm, hall⟩).imp fun f line h =>
        isField_of_ofField? hl (hmembers f h.1) (htypes f h.1) h.2
    exact read_struct hname hfields ts
  | union name variants =>
    obtain ⟨lines, hlines, h⟩ := bind_eq_ok_iff.1 h
    obtain rfl := Except.ok.inj h
    rw [Declaration.memberNames, List.forall_mem_map] at hmembers
    rw [Declaration.memberTypes, List.forall_mem_flatMap] at htypes
    have hall := (mapM_eq_ok_iff (fun _ _ _ => Iff.rfl) lines).1 hlines
    have hvariants : List.Forall₂ (IsVariant table.lifetime)
        (variants.map fun v => ⟨v.name, .atomic "Span" :: v.payload⟩) lines := by
      rw [List.forall₂_map_left_iff]
      exact ((List.forall₂_and_left _ _).2 ⟨fun _ hm => hm, hall⟩).imp fun v line h =>
        isVariant_of_ofVariant? hl (hmembers v h.1) (htypes v h.1) h.2
    have harms : (lines.map fun line => (name, line.name)) =
        variants.map fun v => (name, v.name) := by
      rw [← List.forall₂_eq_eq_eq, List.forall₂_map_left_iff, List.forall₂_map_right_iff]
      rw [List.forall₂_map_left_iff] at hvariants
      exact hvariants.flip.imp fun line v h => congrArg (name, ·) h.name
    rw [ofDeclaration, ← harms]
    exact read_enum hname hvariants ts
  | plain name tags =>
    obtain rfl := Except.ok.inj h
    exact read_plain hname hmembers ts

theorem isNone_definition (definition : Definition) (lifetime : String) (ts : List Token) :
    (tokens (text (definition.lines lifetime)) ++ ts).head?.isNone = false := by
  cases definition with
  | record name fields => rw [Definition.lines, tokens_text]; rfl
  | union name variants => rw [Definition.lines, tokens_text]; rfl
  | plain name tags => rw [Definition.lines, tokens_text]; rfl

end Item

namespace Code.DefinitionsFile

/-- The text alias and the definitions. -/
def code (file : DefinitionsFile) : String :=
  Code.text (["", "pub type " ++ file.textAlias ++ "<" ++ file.lifetime ++ "> = &" ++ file.lifetime
    ++ " str;"] ++ file.definitions.flatMap fun d => "" :: d.lines file.lifetime)

/-- The lines in front of the code. -/
def imports (options : Options) : String :=
  Code.text (heading options.astCommand ++ ["use " ++ options.spanImport ++ ";"])

variable {schema : Schema} {options : Options} {file : DefinitionsFile}

theorem text_of_ofSchema?
    (h : ofSchema? schema (.ofSchema schema options) options = .ok file) :
    file.text = imports options ++ file.code := by
  obtain ⟨definitions, -, h⟩ := bind_eq_ok_iff.1 h
  obtain rfl := Except.ok.inj h
  rw [imports, code, ← text_append, DefinitionsFile.text, lines, header]
  simp only [List.append_assoc, List.cons_append, List.nil_append]

theorem tokens_textAlias {name lifetime : String} (hn : IsWord name) (hl : IsWord lifetime) :
    tokens ("pub type " ++ name ++ "<" ++ ("'" ++ lifetime) ++ "> = &" ++ ("'" ++ lifetime)
        ++ " str;") =
      tokens "pub type " ++ .word name :: (tokens "<'" ++ .word lifetime ::
        (tokens "> = &" ++ (tokens ("'" ++ lifetime) ++ tokens " str;"))) := by
  have hquote : tokens "<" ++ tokens ("'" ++ lifetime) = tokens "<'" ++ [.word lifetime] := by
    rw [tokens_mark_append (by decide), tokens_of_isWord hl]
    rfl
  rw [tokens_append_mark (by decide), tokens_between (by decide) (by decide),
    tokens_between (by decide) (by decide), tokens_mark_append (by decide), tokens_of_isWord hn,
    List.append_assoc (tokens "pub type " ++ _), hquote]
  simp only [List.append_assoc, List.cons_append, List.nil_append]

theorem tokens_code (file : DefinitionsFile) (ha : IsWord file.textAlias) {lifetime : String}
    (hl : file.lifetime = "'" ++ lifetime) (hw : IsWord lifetime) :
    tokens file.code = tokens "pub type " ++ .word file.textAlias :: (tokens "<'" ++
      .word lifetime :: (tokens "> = &" ++ (tokens ("'" ++ lifetime) ++ (tokens " str;" ++
        file.definitions.flatMap fun d => tokens (Code.text (d.lines file.lifetime)))))) := by
  rw [code, tokens_text_append, tokens_text_blank, tokens_text_singleton, tokens_text_flatMap, hl,
    tokens_textAlias ha hw]
  simp only [tokens_text_blank, List.append_assoc, List.cons_append]

/-- The code of a sound schema is read as the items of its declarations. -/
theorem ofText?_code (hs : schema.Sound options) (hf : schema.FieldsNamed)
    (h : ofSchema? schema (.ofSchema schema options) options = .ok file) :
    Item.ofText? file.code =
      some (options.textAlias, schema.declarations.map Item.ofDeclaration) := by
  obtain ⟨definitions, hd, h⟩ := bind_eq_ok_iff.1 h
  obtain rfl := Except.ok.inj h
  rw [mapM_eq_ok_iff fun _ _ _ => Iff.rfl] at hd
  have hquoted : (NameTable.ofSchema schema options).lifetime = "'" ++ options.lifetime := rfl
  have hl : Item.IsLifetime (NameTable.ofSchema schema options).lifetime :=
    Item.isLifetime_quote options.lifetime
  have hall : List.Forall₂ (fun item p => ∀ ts, True →
      Item.read ("'" ++ options.lifetime) (p ++ ts) = some (item, ts))
      (schema.declarations.map Item.ofDeclaration) (definitions.map fun d =>
        tokens (Code.text (d.lines (NameTable.ofSchema schema options).lifetime))) := by
    rw [List.forall₂_map_left_iff, List.forall₂_map_right_iff]
    apply ((List.forall₂_and_left _ _).2 ⟨fun _ hm => hm, hd⟩).imp
    intro d definition h ts _
    obtain ⟨hm, h⟩ := h
    have hw : d.Worded := hs.worded hm fun name fields he => hf name fields (he ▸ hm)
    exact Item.read_declaration hl hw h ts
  have hstop : ∀ p ∈ definitions.map fun d =>
      tokens (Code.text (d.lines (NameTable.ofSchema schema options).lifetime)),
      ∀ ts, (p ++ ts).head?.isNone = false := by
    rw [List.forall_mem_map]
    exact fun d _ ts => Item.isNone_definition d _ ts
  have hitems : readAll Option.isNone (Item.read ("'" ++ options.lifetime)) (_ ++ []) = _ :=
    Program.readAll_flatten hall (fun _ _ _ => trivial) hstop trivial rfl
  rw [List.append_nil, ← List.flatMap_def] at hitems
  rw [Item.ofText?, tokens_code _ (isWord_of_isIdentifier (isIdentifier_of_isUsable hs.textAlias))
    hquoted (isWord_of_isIdentifier (isIdentifier_of_isUsable hs.lifetime))]
  simp only [expect_append, readWord, hitems, Option.bind_eq_bind, Option.bind_some]
  rfl

end Code.DefinitionsFile

end NodeSchema
