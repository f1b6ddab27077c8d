import NodeSchema.Proofs.Definitions.Decoding

namespace NodeSchema

open Text (escapeKeyword isIdentifier isIdentifier_of_isUsable isKeyword isUsable)

namespace Text

theorem isUsable_iff {s : String} : isUsable s ↔ isIdentifier s ∧ isKeyword s = false := by
  rw [isUsable, Bool.and_eq_true, Bool.not_eq_true']

theorem isIdentifier_append {s t : String} (hs : isIdentifier s)
    (ht : t.toList.all isAsciiWordChar) : isIdentifier (s ++ t) := by
  rw [isIdentifier] at hs ⊢
  rw [String.toList_append]
  cases hc : s.toList with
  | nil =>
    rw [hc] at hs
    cases hs
  | cons c cs =>
    rw [hc, isName, Bool.and_eq_true] at hs
    rw [List.cons_append, isName, List.all_append, hs.1, hs.2, ht]
    rfl

theorem isUsable_escapeKeyword {s : String} (h : isIdentifier s) : isUsable (escapeKeyword s) := by
  rw [escapeKeyword, isUsable_iff]
  split
  next hk => exact ⟨isIdentifier_append h (by decide), not_isKeyword_escaped hk⟩
  next hk => exact ⟨h, Bool.eq_false_iff.2 hk⟩

end Text

namespace TypeExpr

mutual

/-- The containers that are applied, at any depth. -/
def containers : TypeExpr → List String
  | .atomic _ => []
  | .generic container args => container :: containersOf args

def containersOf : List TypeExpr → List String
  | [] => []
  | arg :: args => arg.containers ++ containersOf args

end

@[simp] theorem containersOf_eq_flatMap (args : List TypeExpr) :
    containersOf args = args.flatMap containers := by
  induction args with
  | nil => rfl
  | cons arg args ih => rw [containersOf, ih, List.flatMap_cons]

def names (type : TypeExpr) : List String := type.containers ++ type.atoms

theorem mem_names_generic {container name : String} {args : List TypeExpr} :
    name ∈ (generic container args).names ↔ name = container ∨ ∃ arg ∈ args, name ∈ arg.names := by
  simp only [names, containers, atoms, containersOf_eq_flatMap, atomsOf_eq_flatMap, List.mem_append,
    List.mem_cons, List.mem_flatMap, or_assoc, ← exists_or, ← and_or_left]

theorem WellNamed.isIdentifier_names {type : TypeExpr} (h : type.WellNamed) :
    ∀ name ∈ type.names, isIdentifier name := by
  induction h with
  | atomic hn => exact List.forall_mem_singleton.2 hn
  | generic hn hne _ ih =>
    intro name hm
    rcases mem_names_generic.1 hm with rfl | ⟨arg, harg, hm⟩
    · exact hn
    · exact ih arg harg name hm

end TypeExpr

namespace Item

/-- What is named in an item besides the types. -/
def labels : Item → List String
  | struct name fields => name :: fields.map (·.name)
  | enum name variants arms =>
    name :: (variants.map (·.name) ++ arms.flatMap fun (union, variant) => [union, variant])
  | plain name tags => name :: tags

def types : Item → List TypeExpr
  | struct _ fields => fields.map (·.type)
  | enum _ variants _ => variants.flatMap (·.payload)
  | plain _ _ => []

def names (item : Item) : List String := item.labels ++ item.types.flatMap (·.names)

theorem mem_types_ofDeclaration {d : Declaration} {type : TypeExpr}
    (h : type ∈ (ofDeclaration d).types) : type = .atomic "Span" ∨ type ∈ d.memberTypes := by
  cases d with
  | record name fields =>
    rw [ofDeclaration, types, List.map_cons, List.map_map] at h
    exact List.mem_cons.1 h
  | union name variants =>
    rw [ofDeclaration, types, List.flatMap_map, List.mem_flatMap] at h
    obtain ⟨v, hv, hm⟩ := h
    exact (List.mem_cons.1 hm).imp_right fun hm => List.mem_flatMap.2 ⟨v, hv, hm⟩
  | plain name tags => cases h

theorem mem_types_of_mem_memberTypes {d : Declaration} {type : TypeExpr}
    (h : type ∈ d.memberTypes) : type ∈ (ofDeclaration d).types := by
  cases d with
  | record name fields =>
    rw [ofDeclaration, types, List.map_cons, List.map_map]
    exact List.mem_cons_of_mem _ h
  | union name variants =>
    obtain ⟨v, hv, hm⟩ := List.mem_flatMap.1 h
    rw [ofDeclaration, types, List.flatMap_map, List.mem_flatMap]
    exact ⟨v, hv, List.mem_cons_of_mem _ hm⟩
  | plain name tags => cases h

end Item

namespace Schema

variable {schema : Schema} {options : Options}

theorem Sound.isUsable_labels (hs : schema.Sound options) (hf : schema.FieldsNamed)
    {d : Declaration} (hd : d ∈ schema.declarations) :
    ∀ label ∈ (Item.ofDeclaration d).labels, isUsable label := by
  have hname := (hs.freeNames d hd).usable
  have hmembers := hs.membersApart d hd
  cases d with
  | record name fields =>
    rw [Item.ofDeclaration, Item.labels, List.map_cons, List.map_map, List.forall_mem_cons,
      List.forall_mem_cons, List.forall_mem_map]
    exact ⟨hname, by decide, fun f hm => Text.isUsable_escapeKeyword (hf name fields hd f hm)⟩
  | union name variants =>
    obtain ⟨-, -, hvariants⟩ := hmembers
    rw [Item.ofDeclaration, Item.labels, List.map_map, List.flatMap_map, List.forall_mem_cons,
      List.forall_mem_append, List.forall_mem_map, List.forall_mem_flatMap]
    use hname, hvariants
    intro v hv
    rw [List.forall_mem_cons, List.forall_mem_singleton]
    exact ⟨hname, hvariants v hv⟩
  | plain name tags =>
    rw [Item.ofDeclaration, Item.labels, List.forall_mem_cons]
    exact ⟨hname, hmembers.2⟩

theorem isUsable_of_mem_primitiveTypes : ∀ name ∈ primitiveTypes, isUsable name := by
  decide

/-- Only the names of opaque types are not looked at. -/
theorem Sound.isUsable_or_mem_opaqueTypes (hs : schema.Sound options) {d : Declaration}
    (hd : d ∈ schema.declarations) {name : String} (hm : d.Mentions name) :
    isUsable name ∨ name ∈ options.opaqueTypes := by
  rcases hs.known d hd name hm with ⟨e, he, rfl⟩ | rfl | ho | hp
  · exact .inl (hs.freeNames e he).usable
  · exact .inl hs.textAlias
  · exact .inr ho
  · exact .inl (isUsable_of_mem_primitiveTypes name hp)

theorem Sound.isIdentifier_names (hs : schema.Sound options) (hf : schema.FieldsNamed) :
    ∀ item ∈ schema.declarations.map Item.ofDeclaration, ∀ name ∈ item.names,
      isIdentifier name := by
  rw [List.forall_mem_map]
  intro d hd
  rw [Item.names, List.forall_mem_append, List.forall_mem_flatMap]
  constructor
  · exact fun label hl => isIdentifier_of_isUsable (hs.isUsable_labels hf hd label hl)
  · intro type ht
    rcases Item.mem_types_ofDeclaration ht with rfl | ht
    · exact List.forall_mem_singleton.2 (by decide)
    · exact (hs.wellNamed d hd type ht).isIdentifier_names

/-- A keyword in the definitions is a container or an opaque type in one of the member types. -/
theorem Sound.exists_item_of_keyword_iff (hs : schema.Sound options) (hf : schema.FieldsNamed)
    {name : String} (hk : isKeyword name) :
    (∃ item ∈ schema.declarations.map Item.ofDeclaration, name ∈ item.names) ↔
      ∃ type ∈ schema.memberTypes,
        name ∈ type.containers ∨ name ∈ type.atoms ∧ name ∈ options.opaqueTypes := by
  have hunusable : ¬isUsable name := by
    intro hu
    have hkeyword := (Text.isUsable_iff.1 hu).2
    rw [hk] at hkeyword
    cases hkeyword
  rw [← flatMap_memberTypes]
  constructor
  · intro h
    obtain ⟨item, hitem, hm⟩ := h
    obtain ⟨d, hd, rfl⟩ := List.mem_map.1 hitem
    rcases List.mem_append.1 hm with hm | hm
    · exact absurd (hs.isUsable_labels hf hd name hm) hunusable
    · obtain ⟨type, ht, hm⟩ := List.mem_flatMap.1 hm
      rcases Item.mem_types_ofDeclaration ht with rfl | ht
      · obtain rfl := List.mem_singleton.1 hm
        exact absurd (by decide) hunusable
      · use type, List.mem_flatMap.2 ⟨d, hd, ht⟩
        rcases List.mem_append.1 hm with hm | hm
        · exact .inl hm
        · exact .inr ⟨hm, (hs.isUsable_or_mem_opaqueTypes hd ⟨type, ht, hm⟩).resolve_left hunusable⟩
  · intro h
    obtain ⟨type, ht, hm⟩ := h
    obtain ⟨d, hd, ht⟩ := List.mem_flatMap.1 ht
    have hname : name ∈ type.names := List.mem_append.2 (hm.imp_right And.left)
    use Item.ofDeclaration d, List.mem_map_of_mem hd
    exact List.mem_append_right _
      (List.mem_flatMap.2 ⟨type, Item.mem_types_of_mem_memberTypes ht, hname⟩)

end Schema

end NodeSchema
