import NodeSchema.Proofs.FirstFault
import NodeSchema.Proofs.Schema.Reading

namespace NodeSchema

open Text (isIdentifier)

namespace Json

mutual

/-- A value in place of a type and all values in it that stand for types, a list before its
arguments and these from left to right. -/
def typeParts : Json → List Json
  | .array (container :: args) => .array (container :: args) :: typePartsOf args
  | value => [value]

def typePartsOf : List Json → List Json
  | [] => []
  | arg :: args => arg.typeParts ++ typePartsOf args

end

@[simp] theorem typePartsOf_eq_flatMap (args : List Json) :
    typePartsOf args = args.flatMap typeParts := by
  induction args with
  | nil => rfl
  | cons arg args ih => simp [typePartsOf, ih]

/-- What may be wrong with a value in place of a type, its arguments left aside. -/
inductive HasPartFault : Json → TypeFault → Prop where
  | unreadable {text : String} {cause : TypeExpr.ReadFault}
      (h : TypeExpr.ofText? text = .error cause) :
    HasPartFault (.string text) (.unreadable text cause)
  | noApplication {items : List Json}
      (h : ∀ container args, args ≠ [] → items ≠ .string container :: args) :
    HasPartFault (.array items) (.noApplication (.array items))
  | containerName {container : String} {args : List Json} (hne : args ≠ [])
      (h : ¬isIdentifier container) :
    HasPartFault (.array (.string container :: args))
      (.containerName (.array (.string container :: args)) container)
  | noType {value : Json} (hs : ∀ text, value ≠ .string text)
      (ha : ∀ items, value ≠ .array items) : HasPartFault value (.noType value)

/-- What is wrong with the first part that is wrong, in reading order. -/
def HasTypeFault (value : Json) : TypeFault → Prop :=
  FirstFault (fun _ => HasPartFault) value.typeParts

/-- What may be wrong with an entry that stands for a field: its form, or else its type. -/
inductive HasFieldFault (record : String) : Json → NodeSchema.Fault → Prop where
  | badField {value : Json}
      (h : ∀ name type, isIdentifier name → value ≠ .array [.string name, type]) :
    HasFieldFault record value (.declaration (.badField record value))
  | type {name : String} {type : Json} {cause : TypeFault} (hn : isIdentifier name)
      (h : type.HasTypeFault cause) :
    HasFieldFault record (.array [.string name, type]) (.type cause)

/-- What may be wrong with an entry that stands for a variant: its form, or else the first of its
types that is wrong. -/
inductive HasVariantFault (union : String) : Json → NodeSchema.Fault → Prop where
  | badForm {value : Json}
      (h : ∀ name payload, isIdentifier name → value ≠ .array (.string name :: payload)) :
    HasVariantFault union value (.variant (.badForm union value))
  | type {name : String} {payload : List Json} {cause : TypeFault} (hn : isIdentifier name)
      (h : FirstFault (fun _ => HasTypeFault) payload cause) :
    HasVariantFault union (.array (.string name :: payload)) (.type cause)

/-- What may be wrong with an entry that stands for a tag; the declaration is quoted. -/
inductive HasTagFault (declaration : Json) : Json → NodeSchema.Fault → Prop where
  | badName {value : Json} (h : ∀ tag, isIdentifier tag → value ≠ .string tag) :
    HasTagFault declaration value (.declaration (.badName declaration .tag))

/-- The three forms of a declaration. -/
inductive Form where
  | record
  | union
  | plain
deriving DecidableEq

namespace Form

/-- What a declaration begins with. -/
def tags : Form → List Json
  | record => [.string "ast", .string "struct"]
  | union => [.string "ast", .string "enum"]
  | plain => [.string "enum"]

/-- What the name behind the tags is called. -/
def part : Form → NamePart
  | record => .structName
  | union => .enumName
  | plain => .enumName

/-- What may be wrong with an entry behind the name. -/
def HasEntryFault (declaration : Json) (name : String) : Form → Json → NodeSchema.Fault → Prop
  | record => HasFieldFault name
  | union => HasVariantFault name
  | plain => HasTagFault declaration

end Form

/-- What is wrong with a value in place of a declaration: that it is no list or begins in no known
way, else that no name follows, else the fault of the first entry that has one. -/
inductive HasDeclarationFault : Json → NodeSchema.Fault → Prop where
  | noList {value : Json} (h : ∀ items, value ≠ .array items) :
    HasDeclarationFault value (.declaration (.noList value))
  | unknownForm {items : List Json} (h : ∀ form : Form, ¬form.tags <+: items) :
    HasDeclarationFault (.array items) (.declaration (.unknownForm (.array items)))
  | badName {form : Form} {rest : List Json}
      (h : ∀ name entries, isIdentifier name → rest ≠ .string name :: entries) :
    HasDeclarationFault (.array (form.tags ++ rest))
      (.declaration (.badName (.array (form.tags ++ rest)) form.part))
  | entry {form : Form} {name : String} {entries : List Json} {fault : NodeSchema.Fault}
      (hn : isIdentifier name)
      (h : FirstFault
        (fun _ => form.HasEntryFault (.array (form.tags ++ .string name :: entries)) name)
        entries fault) :
    HasDeclarationFault (.array (form.tags ++ .string name :: entries)) fault

theorem Form.tags_append_inj {form form' : Form} {rest rest' : List Json}
    (h : form.tags ++ rest = form'.tags ++ rest') : form = form' ∧ rest = rest' := by
  cases form <;> cases form' <;> simp_all [tags]

/-- Behind known tags only the name and the entries can be wrong. -/
theorem hasDeclarationFault_tagged_iff {form : Form} {rest : List Json} {fault : NodeSchema.Fault} :
    HasDeclarationFault (.array (form.tags ++ rest)) fault ↔
      ((∀ name entries, isIdentifier name → rest ≠ .string name :: entries) ∧
        fault = .declaration (.badName (.array (form.tags ++ rest)) form.part)) ∨
      ∃ name entries, (rest = .string name :: entries ∧ isIdentifier name) ∧
        FirstFault (fun _ => form.HasEntryFault (.array (form.tags ++ rest)) name) entries
          fault := by
  constructor
  · intro h
    generalize hitems : form.tags ++ rest = items at h ⊢
    generalize hvalue : Json.array items = value at h ⊢
    cases h with
    | noList h => exact absurd hvalue.symm (h items)
    | unknownForm h =>
      cases hvalue
      exact absurd ⟨rest, hitems⟩ (h form)
    | badName h =>
      cases hvalue
      obtain ⟨rfl, rfl⟩ := Form.tags_append_inj hitems
      exact .inl ⟨h, rfl⟩
    | entry hn h =>
      cases hvalue
      obtain ⟨rfl, rfl⟩ := Form.tags_append_inj hitems
      exact .inr ⟨_, _, ⟨rfl, hn⟩, h⟩
  · intro h
    rcases h with ⟨h, rfl⟩ | ⟨name, entries, ⟨rfl, hn⟩, h⟩
    · exact .badName h
    · exact .entry hn h

/-- What the reader of types finds at a part, its arguments left aside. -/
def partFault? : Json → Option TypeFault
  | .string text => (fault? (TypeExpr.ofText? text)).map (.unreadable text)
  | .array (.string container :: args) =>
    if args.isEmpty then some (.noApplication (.array [.string container]))
    else if isIdentifier container then none
    else some (.containerName (.array (.string container :: args)) container)
  | .array items => some (.noApplication (.array items))
  | value => some (.noType value)

theorem hasPartFault_of_partFault? {value : Json} {fault : TypeFault}
    (h : value.partFault? = some fault) : value.HasPartFault fault := by
  rw [partFault?.eq_def] at h
  split at h
  next text =>
    obtain ⟨cause, hc, rfl⟩ := Option.map_eq_some_iff.1 h
    exact .unreadable (fault?_eq_some_iff.1 hc)
  next container args =>
    split at h
    next he =>
      obtain rfl := List.isEmpty_iff.1 he
      obtain rfl := Option.some.inj h
      apply HasPartFault.noApplication
      intro container' args' hne h
      exact hne (List.cons.inj h).2.symm
    next he =>
    split at h
    next => cases h
    next hc =>
      obtain rfl := Option.some.inj h
      exact .containerName (fun ha => he (List.isEmpty_iff.2 ha)) hc
  next items hi =>
    obtain rfl := Option.some.inj h
    exact .noApplication fun container args _ => hi container args
  next ht hl ha =>
    obtain rfl := Option.some.inj h
    exact .noType ht ha

theorem HasPartFault.partFault?_eq {value : Json} {fault : TypeFault}
    (h : value.HasPartFault fault) : value.partFault? = some fault := by
  cases h with
  | unreadable h => rw [partFault?, fault?_eq_some_iff.2 h, Option.map_some]
  | noApplication h =>
    rw [partFault?.eq_def]
    split
    next ht => cases ht
    next container args heq =>
      cases heq
      by_cases hne : args = []
      · subst hne
        rfl
      · exact absurd rfl (h container args hne)
    next items hi heq =>
      cases heq
      rfl
    next ht hl ha => exact absurd rfl (ha _)
  | containerName hne h =>
    rw [partFault?, if_neg fun he => hne (List.isEmpty_iff.1 he), if_neg h]
  | noType hs ha => exact partFault?.eq_4 _ hs (fun _ _ => ha _) ha

theorem partFault?_eq_some_iff {value : Json} {fault : TypeFault} :
    value.partFault? = some fault ↔ value.HasPartFault fault :=
  ⟨hasPartFault_of_partFault?, HasPartFault.partFault?_eq⟩

end Json

/-- A value that is refused itself is refused before its parts are looked at. -/
theorem Json.findSome?_typeParts {value : Json} {cause : TypeFault}
    (h : value.partFault? = some cause) : value.typeParts.findSome? partFault? = some cause := by
  obtain ⟨rest, hrest⟩ : ∃ rest, value.typeParts = value :: rest := by
    rw [typeParts.eq_def]
    split
    · exact ⟨_, rfl⟩
    · exact ⟨_, rfl⟩
  rw [hrest, List.findSome?_cons, h]

section Readers

variable {fault : Fault}

theorem TypeExpr.fault?_ofJson? (value : Json) :
    fault? (TypeExpr.ofJson? value) = value.typeParts.findSome? Json.partFault? := by
  induction value using TypeExpr.ofJson?.induct
    (motive_2 := fun values => ∀ value ∈ values,
      fault? (TypeExpr.ofJson? value) = value.typeParts.findSome? Json.partFault?) with
  | case1 text =>
    rw [TypeExpr.ofJson?, fault?_mapError]
    simp [Json.typeParts, Json.partFault?]
  | case2 container args hne =>
    rw [TypeExpr.ofJson?, if_pos hne]
    exact (Json.findSome?_typeParts (by rw [Json.partFault?, if_pos hne])).symm
  | case3 container args hne hc ih =>
    have hne' : args ≠ [] := fun he => hne (List.isEmpty_iff.2 he)
    have hself : Json.partFault? (.array (.string container :: args)) = none := by
      rw [Json.partFault?, if_neg hne, if_pos hc]
    rw [TypeExpr.ofJson?_list hne' hc, fault?_bind fun _ => rfl, TypeExpr.ofJsons?_eq_mapM,
      fault?_mapM, findSome?_congr ih, Json.typeParts, Json.typePartsOf_eq_flatMap,
      List.findSome?_cons, hself, findSome?_flatMap]
  | case4 container args hne hc =>
    rw [TypeExpr.ofJson?, if_neg hne, if_neg hc]
    exact (Json.findSome?_typeParts (by rw [Json.partFault?, if_neg hne, if_neg hc])).symm
  | case5 items hi =>
    rw [TypeExpr.ofJson?.eq_3 _ hi]
    exact (Json.findSome?_typeParts (Json.partFault?.eq_3 _ hi)).symm
  | case6 value ht hl hi =>
    rw [TypeExpr.ofJson?.eq_4 _ ht hl hi]
    exact (Json.findSome?_typeParts (Json.partFault?.eq_4 _ ht hl hi)).symm
  | case7 v hm => cases hm
  | case8 value values ih ihs v hm =>
    rcases List.mem_cons.1 hm with rfl | hm
    · exact ih
    · exact ihs v hm

theorem TypeExpr.ofJson?_eq_error_iff {value : Json} {cause : TypeFault} :
    TypeExpr.ofJson? value = .error cause ↔ value.HasTypeFault cause := by
  rw [← fault?_eq_some_iff, fault?_ofJson?]
  exact findSome?_eq_some_iff_firstFault fun _ _ => Json.partFault?_eq_some_iff

theorem TypeExpr.ofJsons?_eq_error_iff {values : List Json} {cause : TypeFault} :
    TypeExpr.ofJsons? values = .error cause ↔
      FirstFault (fun _ => Json.HasTypeFault) values cause := by
  rw [ofJsons?_eq_mapM]
  exact mapM_eq_error_iff fun _ _ => ofJson?_eq_error_iff

theorem bind_mapError_eq_error_iff {α β : Type} {x : Except TypeFault α} {f : α → β} :
    (x.mapError Fault.type >>= fun a => (pure (f a) : Except Fault β)) = .error fault ↔
      ∃ cause, x = .error cause ∧ fault = .type cause := by
  rw [← fault?_eq_some_iff, fault?_bind fun _ => rfl, fault?_mapError, Option.map_eq_some_iff]
  simp only [fault?_eq_some_iff, eq_comm]

theorem Field.ofJson?_eq_error_iff {record : String} {value : Json} :
    Field.ofJson? record value = .error fault ↔ value.HasFieldFault record fault := by
  constructor
  · intro h
    rw [Field.ofJson?.eq_def] at h
    split at h
    next name type =>
      split at h
      next hn =>
        obtain ⟨cause, hc, rfl⟩ := bind_mapError_eq_error_iff.1 h
        exact .type hn (TypeExpr.ofJson?_eq_error_iff.1 hc)
      next hn =>
        obtain rfl := Except.error.inj h
        apply Json.HasFieldFault.badField
        rintro name' type' hn' h
        cases h
        exact hn hn'
    next hpair =>
      obtain rfl := Except.error.inj h
      exact .badField fun name type _ => hpair name type
  · intro h
    cases h with
    | badField h =>
      rw [Field.ofJson?.eq_def]
      split
      next name type => exact if_neg fun hn => h name type hn rfl
      next => rfl
    | type hn h =>
      rw [Field.ofJson?, if_pos hn]
      exact bind_mapError_eq_error_iff.2 ⟨_, TypeExpr.ofJson?_eq_error_iff.2 h, rfl⟩

theorem Variant.ofJson?_eq_error_iff {union : String} {value : Json} :
    Variant.ofJson? union value = .error fault ↔ value.HasVariantFault union fault := by
  constructor
  · intro h
    rw [Variant.ofJson?.eq_def] at h
    split at h
    next name payload =>
      split at h
      next hn =>
        obtain ⟨cause, hc, rfl⟩ := bind_mapError_eq_error_iff.1 h
        exact .type hn (TypeExpr.ofJsons?_eq_error_iff.1 hc)
      next hn =>
        obtain rfl := Except.error.inj h
        apply Json.HasVariantFault.badForm
        rintro name' payload' hn' h
        cases h
        exact hn hn'
    next hentry =>
      obtain rfl := Except.error.inj h
      exact .badForm fun name payload _ => hentry name payload
  · intro h
    cases h with
    | badForm h =>
      rw [Variant.ofJson?.eq_def]
      split
      next name payload => exact if_neg fun hn => h name payload hn rfl
      next => rfl
    | type hn h =>
      rw [Variant.ofJson?, if_pos hn]
      exact bind_mapError_eq_error_iff.2 ⟨_, TypeExpr.ofJsons?_eq_error_iff.2 h, rfl⟩

namespace Declaration

theorem nameOf?_eq_error_iff {declaration : Json} {part : NamePart} {entries : List Json} :
    nameOf? declaration part entries = .error fault ↔
      (∀ name rest, isIdentifier name → entries ≠ .string name :: rest) ∧
        fault = .declaration (.badName declaration part) := by
  rw [nameOf?.eq_def]
  split
  next name rest =>
    split
    next hn =>
      apply iff_of_false
      · intro h
        cases h
      · intro h
        exact h.1 name rest hn rfl
    next hn =>
      rw [Except.error.injEq, eq_comm, iff_and_self]
      rintro rfl name' rest' hn' h
      cases h
      exact hn hn'
  next hentries =>
    rw [Except.error.injEq, eq_comm, iff_and_self]
    rintro rfl name rest -
    exact hentries name rest

theorem tagOf?_eq_error_iff {declaration value : Json} :
    tagOf? declaration value = .error fault ↔ Json.HasTagFault declaration value fault := by
  rw [tagOf?, ← fault?_eq_some_iff, fault?_bind fun _ => rfl, fault?_eq_some_iff,
    nameOf?_eq_error_iff]
  constructor
  · intro h
    obtain ⟨h, rfl⟩ := h
    exact .badName fun tag hn he => h tag [] hn (congrArg ([·]) he)
  · intro h
    cases h with
    | badName h => exact ⟨fun name rest hn he => h name hn (List.cons.inj he).1, rfl⟩

/-- Behind its tags, a declaration is refused for its name or else for its first wrong entry. -/
theorem ofJson?_tagged_eq_error_iff {form : Json.Form} {rest : List Json} :
    ofJson? (.array (form.tags ++ rest)) = .error fault ↔
      nameOf? (.array (form.tags ++ rest)) form.part rest = .error fault ∨
        ∃ name entries, nameOf? (.array (form.tags ++ rest)) form.part rest = .ok (name, entries) ∧
          FirstFault (fun _ => form.HasEntryFault (.array (form.tags ++ rest)) name) entries
            fault := by
  have hbuild {α : Type} {build : String → α → Declaration} {name : String} (x : Except Fault α) :
      (x >>= fun members => pure (build name members)) = .error fault ↔ x = .error fault := by
    rw [← fault?_eq_some_iff, fault?_bind fun _ => rfl, fault?_eq_some_iff]
  cases form with
  | record =>
    refine bind_eq_error_iff.trans (or_congr_right ?_)
    simp only [Prod.exists, hbuild, mapM_eq_error_iff fun _ _ => Field.ofJson?_eq_error_iff]
    rfl
  | union =>
    refine bind_eq_error_iff.trans (or_congr_right ?_)
    simp only [Prod.exists, hbuild, mapM_eq_error_iff fun _ _ => Variant.ofJson?_eq_error_iff]
    rfl
  | plain =>
    refine bind_eq_error_iff.trans (or_congr_right ?_)
    simp only [Prod.exists, hbuild, mapM_eq_error_iff fun _ _ => tagOf?_eq_error_iff]
    rfl

theorem ofJson?_eq_error_iff {value : Json} :
    ofJson? value = .error fault ↔ value.HasDeclarationFault fault := by
  by_cases htagged : ∃ (form : Json.Form) (rest : List Json), value = .array (form.tags ++ rest)
  · obtain ⟨form, rest, rfl⟩ := htagged
    rw [ofJson?_tagged_eq_error_iff, Json.hasDeclarationFault_tagged_iff]
    simp only [nameOf?_eq_error_iff, nameOf?_eq_ok_iff]
  have hnot (form : Json.Form) (rest : List Json) : value ≠ .array (form.tags ++ rest) :=
    fun h => htagged ⟨form, rest, h⟩
  by_cases hlist : ∃ items, value = .array items
  · obtain ⟨items, rfl⟩ := hlist
    have hforms : ∀ form : Json.Form, ¬form.tags <+: items := by
      intro form h
      obtain ⟨rest, rfl⟩ := h
      exact hnot form rest rfl
    have hitems (form : Json.Form) (rest : List Json) (h : items = form.tags ++ rest) : False :=
      hnot form rest (congrArg Json.array h)
    rw [ofJson?.eq_4 items (hitems .record) (hitems .union) (hitems .plain)]
    constructor
    · intro h
      obtain rfl := Except.error.inj h
      exact .unknownForm hforms
    · intro h
      generalize hvalue : Json.array items = value at h ⊢
      cases h with
      | noList h => exact absurd hvalue.symm (h items)
      | unknownForm h => rfl
      | badName h => exact absurd hvalue (hnot _ _)
      | entry hn h => exact absurd hvalue (hnot _ _)
  · have hlist : ∀ items, value ≠ .array items := fun items h => hlist ⟨items, h⟩
    have hread : ofJson? value = .error (.declaration (.noList value)) := by
      cases value with
      | array items => exact absurd rfl (hlist items)
      | null | bool | integer | real | string | object => rfl
    rw [hread]
    constructor
    · intro h
      obtain rfl := Except.error.inj h
      exact .noList hlist
    · intro h
      cases h with
      | noList h => rfl
      | unknownForm h => exact absurd rfl (hlist _)
      | badName h => exact absurd rfl (hlist _)
      | entry hn h => exact absurd rfl (hlist _)

end Declaration

theorem Schema.ofJson?_list_eq_error_iff {items : List Json} :
    Schema.ofJson? (.array items) = .error fault ↔
      FirstFault (fun _ => Json.HasDeclarationFault) items fault := by
  rw [Schema.ofJson?, ← fault?_eq_some_iff, fault?_bind fun _ => rfl, fault?_eq_some_iff]
  exact mapM_eq_error_iff fun _ _ => Declaration.ofJson?_eq_error_iff

end Readers

namespace Json.Form

variable {form : Form} {name : String} {entries : List Json} {fault : NodeSchema.Fault}

theorem hasEntryFault_eq (h : form ≠ .plain) (declaration declaration' : Json) (name : String) :
    form.HasEntryFault declaration name = form.HasEntryFault declaration' name := by
  cases form with
  | record => rfl
  | union => rfl
  | plain => exact absurd rfl h

theorem ofJson?_named_eq_error_iff (hn : isIdentifier name) :
    Declaration.ofJson? (.array (form.tags ++ .string name :: entries)) = .error fault ↔
      FirstFault
        (fun _ => form.HasEntryFault (.array (form.tags ++ .string name :: entries)) name)
        entries fault := by
  rw [Declaration.ofJson?_eq_error_iff, hasDeclarationFault_tagged_iff]
  constructor
  · intro h
    rcases h with ⟨h, -⟩ | ⟨name', entries', ⟨h, -⟩, hf⟩
    · exact absurd rfl (h name entries hn)
    · cases h
      exact hf
  · intro h
    exact .inr ⟨name, entries, ⟨rfl, hn⟩, h⟩

end Json.Form

/-- A list of declarations is refused for the first of them that is refused by itself, and this for
the first fault that it has in reading order. Where that is the fault of a field or a variant, the
entries behind it play no part. -/
theorem Schema.loader_reports_first_fault :
    (∀ items fault, Schema.ofJson? (.array items) = .error fault ↔
      ∃ before value after, items = before ++ value :: after ∧
        (∀ earlier ∈ before, ∃ d, Declaration.ofJson? earlier = .ok d) ∧
        Declaration.ofJson? value = .error fault) ∧
    (∀ value fault, Declaration.ofJson? value = .error fault ↔
      Json.HasDeclarationFault value fault) ∧
    ∀ (form : Json.Form) name entries fault, form ≠ .plain → isIdentifier name →
      Declaration.ofJson? (.array (form.tags ++ .string name :: entries)) = .error fault →
      ∃ before entry after, entries = before ++ entry :: after ∧
        (∀ earlier ∈ before, ∀ fault, ¬form.HasEntryFault
          (.array (form.tags ++ .string name :: entries)) name earlier fault) ∧
        form.HasEntryFault (.array (form.tags ++ .string name :: entries)) name entry fault ∧
        ∀ after', Declaration.ofJson?
          (.array (form.tags ++ .string name :: (before ++ entry :: after'))) = .error fault := by
  refine ⟨?_, fun _ _ => Declaration.ofJson?_eq_error_iff, ?_⟩
  · intro items fault
    rw [Schema.ofJson?_list_eq_error_iff, FirstFault]
    simp only [faultless_const_iff, ← Declaration.ofJson?_eq_error_iff, ← fault?_eq_none_iff,
      Option.eq_none_iff_forall_ne_some, ne_eq, fault?_eq_some_iff]
  · intro form name entries fault hform hn h
    obtain ⟨before, entry, after, hentries, hbefore, hentry⟩ :=
      (Json.Form.ofJson?_named_eq_error_iff hn).1 h
    refine ⟨before, entry, after, hentries, faultless_const_iff.1 hbefore, hentry, ?_⟩
    intro after'
    rw [Json.Form.ofJson?_named_eq_error_iff hn]
    rw [Json.Form.hasEntryFault_eq hform _
      (.array (form.tags ++ .string name :: (before ++ entry :: after')))] at hbefore hentry
    exact ⟨before, entry, after', rfl, hbefore, hentry⟩

/-- The box without an argument is blamed, neither the types and entries behind it nor the number in
place of a declaration. -/
theorem Schema.empty_box_blamed :
    let call : Json := .array [.string "Call", .array [.string "Vec", .array [.string "Box"],
      .string "Map<"], .integer 7]
    let union (after : List Json) : Json := .array (Json.Form.union.tags ++ .string "Expr" ::
      ([.array [.string "Null"]] ++ call :: after))
    let fault : Fault := .type (.noApplication (.array [.string "Box"]))
    Schema.ofJson? (.array [.array [.string "enum", .string "Op", .string "Add"],
      union [.string "Bin"], .integer 42]) = .error fault ∧
    (union [.string "Bin"]).HasDeclarationFault fault ∧
    ∀ after, Declaration.ofJson? (union after) = .error fault := by
  intro call union fault
  have hunion : Declaration.ofJson? (union [.string "Bin"]) = .error fault := rfl
  obtain ⟨hlist, hvalue, hafter⟩ := loader_reports_first_fault
  have hschema := (hlist [.array [.string "enum", .string "Op", .string "Add"],
    union [.string "Bin"], .integer 42] fault).2 ⟨[_], _, _, rfl,
      List.forall_mem_singleton.2 ⟨.plain "Op" ["Add"], rfl⟩, hunion⟩
  refine ⟨hschema, (hvalue _ _).1 hunion, ?_⟩
  obtain ⟨before, entry, after, hentries, hbefore, hentry, hrest⟩ :=
    hafter .union "Expr" _ fault (by decide) (by decide) hunion
  have hnull : ¬Json.HasVariantFault "Expr" (.array [.string "Null"]) fault :=
    fun h => nomatch Variant.ofJson?_eq_error_iff.2 h
  have hcall : Json.HasVariantFault "Expr" call fault := Variant.ofJson?_eq_error_iff.1 rfl
  rcases before with _ | ⟨first, _ | ⟨second, before⟩⟩
  · obtain ⟨rfl, -⟩ := List.cons.inj hentries
    exact absurd hentry hnull
  · obtain ⟨rfl, hentries'⟩ := List.cons.inj hentries
    obtain ⟨rfl, -⟩ := List.cons.inj hentries'
    exact hrest
  · obtain ⟨rfl, hentries'⟩ := List.cons.inj hentries
    obtain ⟨rfl, -⟩ := List.cons.inj hentries'
    exact absurd hcall (hbefore _ (List.mem_cons_of_mem _ List.mem_cons_self) fault)

end NodeSchema
