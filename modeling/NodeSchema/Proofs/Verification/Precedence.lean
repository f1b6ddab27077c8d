import NodeSchema.Proofs.Verification.Borrowing
import NodeSchema.Proofs.Verification.Stages

namespace NodeSchema

open Text (isIdentifier isUsable snakeCase)

namespace TypeExpr

variable {table : NameTable} {knows : String → Prop} {place : Place} {type : TypeExpr}

/-- What the check of a type finds at a part, its arguments left aside. -/
def partFault? (table : NameTable) (place : Place) : TypeExpr → Option TypeFault
  | .atomic name =>
    if !isIdentifier name then some (.noTypeName name place)
    else if (table.meaning? name).isNone then some (.undeclared name place)
    else none
  | .generic container args =>
    if !isIdentifier container || args.isEmpty then
      some (.badApplication (.generic container args) place)
    else none

theorem partFault?_eq_some_iff (hk : ∀ name, (table.meaning? name).isSome ↔ knows name)
    {fault : TypeFault} :
    type.partFault? table place = some fault ↔ PartFault knows place type fault := by
  cases type with
  | atomic name =>
    have hnone : (table.meaning? name).isNone ↔ ¬knows name := by
      rw [← hk, Option.not_isSome_iff_eq_none, Option.isNone_iff_eq_none]
    rw [partFault?]
    split
    next hn =>
      rw [Bool.not_eq_true'] at hn
      constructor
      · intro h
        obtain rfl := Option.some.inj h
        exact .noTypeName (by simp [hn])
      · intro h
        cases h with
        | noTypeName h => rfl
        | undeclared hn' h => simp [hn] at hn'
    next hn =>
    have hn : isIdentifier name := by simpa using hn
    split
    next hm =>
      constructor
      · intro h
        obtain rfl := Option.some.inj h
        exact .undeclared hn (hnone.1 hm)
      · intro h
        cases h with
        | noTypeName h => exact absurd hn h
        | undeclared hn' h => rfl
    next hm =>
      apply iff_of_false nofun
      intro h
      cases h with
      | noTypeName h => exact h hn
      | undeclared hn' h => exact hm (hnone.2 h)
  | generic container args =>
    rw [partFault?]
    split
    next hb =>
      constructor
      · intro h
        obtain rfl := Option.some.inj h
        exact .badApplication (by simpa using hb)
      · intro h
        cases h with
        | badApplication h => rfl
    next hb =>
      apply iff_of_false nofun
      intro h
      cases h with
      | badApplication h => exact hb (by simpa using h)

/-- The arguments of a refused container are parts as well, but no fault in them is the first. -/
theorem head?_faults : (type.faults table place).head? =
    type.parts.findSome? (partFault? table place) := by
  induction type using TypeExpr.induction with
  | atomic name =>
    rw [faults, parts, List.findSome?_singleton, partFault?]
    split
    · rfl
    split
    · rfl
    · rfl
  | generic container args ih =>
    rw [faults, parts, List.findSome?_cons, partFault?]
    split
    · rfl
    · rw [faultsOf_eq_flatMap, partsOf_eq_flatMap, List.head?_flatMap, findSome?_flatMap]
      exact findSome?_congr ih

theorem head?_faults_eq_some_iff (hk : ∀ name, (table.meaning? name).isSome ↔ knows name)
    {fault : TypeFault} :
    (type.faults table place).head? = some fault ↔ type.HasFault knows place fault := by
  rw [head?_faults]
  exact findSome?_eq_some_iff_firstFault fun _ _ => partFault?_eq_some_iff hk

end TypeExpr

section Members

variable {table : NameTable} {knows : String → Prop}

theorem Field.search_faults (table : NameTable) (record : String) :
    Search Field.written (fun behind f =>
      if f.written == "span" || behind.contains f.written then
        [.declaration (.fieldTwice record f.name f.written)]
      else (f.type.faults table (.field f.name record)).map .type)
      (Field.faults table record) :=
  ⟨fun _ => rfl, fun _ _ _ => rfl⟩

theorem Field.reports_faults (hk : ∀ name, (table.meaning? name).isSome ↔ knows name)
    {record : String} {fs : List Field} :
    Reports (Field.HasFault knows record) fs (Field.faults table record [] fs) := by
  apply (Field.search_faults table record).reports
  intro before f _ fault
  have htwice : (f.written == "span" || (before.map written).reverse.contains f.written) ↔
      f.written = "span" ∨ ∃ e ∈ before, e.written = f.written := by simp
  split
  next h =>
    rw [htwice] at h
    constructor
    · intro hf
      obtain rfl := Option.some.inj hf
      exact .twice h
    · intro hf
      cases hf with
      | twice h' => rfl
      | type hs hn ht =>
        obtain ⟨e, he, hw⟩ := h.resolve_left hs
        exact absurd hw (hn e he)
  next h =>
    rw [htwice, not_or] at h
    obtain ⟨hs, hn⟩ := h
    have hn : ∀ e ∈ before, e.written ≠ f.written := fun e he hw => hn ⟨e, he, hw⟩
    rw [List.head?_map, Option.map_eq_some_iff]
    simp only [TypeExpr.head?_faults_eq_some_iff hk]
    constructor
    · intro hf
      obtain ⟨cause, ht, rfl⟩ := hf
      exact .type hs hn ht
    · intro hf
      cases hf with
      | twice h' =>
        obtain ⟨e, he, hw⟩ := h'.resolve_left hs
        exact absurd hw (hn e he)
      | type _ _ ht => exact ⟨_, ht, rfl⟩

theorem Variant.search_slotFaults (table : NameTable) (union variant : String) :
    Search id (fun behind (type : TypeExpr) =>
      (type.faults table (.slot behind.length union variant)).map Fault.type)
      (fun behind types => (types.zipIdx behind.length).flatMap fun (type, i) =>
        (type.faults table (.slot i union variant)).map Fault.type) :=
  ⟨fun _ => rfl, fun _ _ _ => rfl⟩

theorem Variant.reports_slotFaults (hk : ∀ name, (table.meaning? name).isSome ↔ knows name)
    {union : String} {v : Variant} :
    Reports (Variant.SlotFault knows union v.name) v.payload (v.slotFaults table union) := by
  apply (Variant.search_slotFaults table union v.name).reports
  intro before type _ fault
  rw [List.head?_map, Option.map_eq_some_iff, List.length_reverse, List.length_map, SlotFault]
  simp only [TypeExpr.head?_faults_eq_some_iff hk, eq_comm]

theorem Variant.search_faults (table : NameTable) (union : String) :
    Search Variant.name (fun behind v =>
      if !isUsable v.name then [.variant (.noIdentifier union v.name)]
      else if behind.contains v.name then [.variant (.declaredTwice union v.name)]
      else v.slotFaults table union)
      (Variant.faults table union) :=
  ⟨fun _ => rfl, fun _ _ _ => rfl⟩

theorem Variant.reports_faults (hk : ∀ name, (table.meaning? name).isSome ↔ knows name)
    {union : String} {vs : List Variant} :
    Reports (Variant.HasFault knows union) vs (Variant.faults table union [] vs) := by
  apply (Variant.search_faults table union).reports
  intro before v _ fault
  have htwice : (before.map name).reverse.contains v.name ↔ ∃ e ∈ before, e.name = v.name := by simp
  split
  next h =>
    have h : ¬isUsable v.name := by simpa using h
    constructor
    · intro hf
      obtain rfl := Option.some.inj hf
      exact .noIdentifier h
    · intro hf
      cases hf with
      | noIdentifier _ => rfl
      | twice hu _ => exact absurd hu h
      | slot hu _ _ => exact absurd hu h
  next h =>
  have hu : isUsable v.name := by simpa using h
  split
  next h =>
    rw [htwice] at h
    constructor
    · intro hf
      obtain rfl := Option.some.inj hf
      exact .twice hu h
    · intro hf
      cases hf with
      | noIdentifier h' => exact absurd hu h'
      | twice _ _ => rfl
      | slot _ hn _ =>
        obtain ⟨e, he, hname⟩ := h
        exact absurd hname (hn e he)
  next h =>
    rw [htwice] at h
    have hn : ∀ e ∈ before, e.name ≠ v.name := fun e he hname => h ⟨e, he, hname⟩
    rw [Variant.reports_slotFaults hk fault]
    constructor
    · exact .slot hu hn
    · intro hf
      cases hf with
      | noIdentifier h' => exact absurd hu h'
      | twice _ h' => exact absurd h' h
      | slot _ _ hs => exact hs

theorem search_tagFaults (union : String) :
    Search id (fun behind tag =>
      if !isUsable tag || behind.contains tag then [.declaration (.badTag union tag)] else [])
      (tagFaults union) :=
  ⟨fun _ => rfl, fun _ _ _ => rfl⟩

theorem reports_tagFaults {union : String} {tags : List String} :
    Reports (TagFault union) tags (tagFaults union [] tags) := by
  apply (search_tagFaults union).reports
  intro before tag _ fault
  have hbad : (!isUsable tag || (before.map id).reverse.contains tag) ↔
      ¬isUsable tag ∨ tag ∈ before := by simp
  rw [TagFault, ← hbad]
  split
  next h => rw [and_iff_right h, List.head?_cons, Option.some_inj, eq_comm]
  next h => exact iff_of_false nofun fun hf => h hf.1

theorem Declaration.head?_memberFaults_eq_some_iff
    (hk : ∀ name, (table.meaning? name).isSome ↔ knows name) {d : Declaration} {fault : Fault} :
    (d.memberFaults table).head? = some fault ↔ d.HasMemberFault knows fault := by
  cases d with
  | record name fields =>
    rw [memberFaults, Field.reports_faults hk]
    constructor
    · exact .field
    · intro h
      cases h with
      | field h => exact h
  | union name variants =>
    rw [memberFaults]
    split
    next h =>
      obtain rfl := List.isEmpty_iff.1 h
      constructor
      · intro hf
        obtain rfl := Option.some.inj hf
        exact .noVariants
      · intro hf
        cases hf with
        | noVariants => rfl
        | variant h => exact absurd h not_firstFault_nil
    next h =>
      rw [Variant.reports_faults hk]
      constructor
      · exact .variant
      · intro hf
        cases hf with
        | noVariants => exact absurd rfl h
        | variant h => exact h
  | plain name tags =>
    rw [memberFaults, reports_tagFaults]
    constructor
    · exact .tag
    · intro h
      cases h with
      | tag h => exact h

end Members

namespace Declaration

variable {options : Options} {earlier : List Declaration} {d : Declaration}

theorem hasNameFault_of_nameFault? {cause : DeclarationFault}
    (h : d.nameFault? options earlier.reverse = some cause) :
    d.HasNameFault options earlier (.declaration cause) := by
  rw [nameFault?] at h
  split at h
  next hu =>
    obtain rfl := Option.some.inj h
    exact .noIdentifier (by simpa using hu)
  next hu =>
  have hu : isUsable d.name := by simpa using hu
  split at h
  next hr =>
    obtain rfl := Option.some.inj h
    exact .reserved hu (List.contains_iff_mem.1 hr)
  next hr =>
  have hr : d.name ∉ reservedNames := fun hm => hr (List.contains_iff_mem.2 hm)
  split at h
  next hd =>
    obtain rfl := Option.some.inj h
    exact .declaredTwice hu hr (by simpa using hd)
  next hd =>
  have hn : ∀ e ∈ earlier, e.name ≠ d.name := by simpa using hd
  rw [NameTable.lookup_ofOptions] at h
  by_cases ha : d.name = options.textAlias
  · rw [if_pos ha] at h
    obtain rfl := Option.some.inj h
    exact .isTextAlias hu hr hn ha
  by_cases ho : d.name ∈ options.opaqueTypes ∨ d.name ∈ primitiveTypes
  · rw [if_neg ha, if_pos ho] at h
    obtain rfl := Option.some.inj h
    exact .isOpaque hu hr hn ha ho
  simp only [if_neg ha, if_neg ho] at h
  rw [not_or] at ho
  split at h
  next hi =>
    obtain ⟨e, he, rfl⟩ := Option.map_eq_some_iff.1 h
    have hsame : e.isNode ∧ snakeCase e.name = snakeCase d.name := by
      simpa using List.find?_some he
    have hm : e ∈ earlier := List.mem_reverse.1 (List.mem_of_find?_eq_some he)
    exact .sharedMethod ⟨hu, hr, ha, ho.2, ho.1⟩ hn hi hm hsame.1 hsame.2
  next => cases h

theorem find?_sharedMethod (hp : earlier.Pairwise Apart) {e : Declaration} (he : e ∈ earlier)
    (hi : e.isNode) (h : snakeCase e.name = snakeCase d.name) :
    earlier.reverse.find? (fun e => e.isNode && snakeCase e.name == snakeCase d.name) = some e := by
  have hsome : (earlier.reverse.find? fun e =>
      e.isNode && snakeCase e.name == snakeCase d.name).isSome := by
    rw [List.find?_isSome]
    exact ⟨e, List.mem_reverse.2 he, by simp [hi, h]⟩
  obtain ⟨e', he'⟩ := Option.isSome_iff_exists.1 hsome
  have hsame : e'.isNode ∧ snakeCase e'.name = snakeCase d.name := by
    simpa using List.find?_some he'
  have hm : e' ∈ earlier := List.mem_reverse.1 (List.mem_of_find?_eq_some he')
  have heq : e' = e := List.inj_on_of_nodup_map (pairwise_apart_iff.1 hp).2
    (List.mem_filter.2 ⟨hm, hsame.1⟩) (List.mem_filter.2 ⟨he, hi⟩) (hsame.2.trans h.symm)
  rw [he', heq]

theorem HasNameFault.nameFault?_eq (hp : earlier.Pairwise Apart) {fault : Fault}
    (h : d.HasNameFault options earlier fault) :
    (d.nameFault? options earlier.reverse).map .declaration = some fault := by
  have htaken : (∃ e ∈ earlier, e.name = d.name) → earlier.reverse.any (·.name == d.name) := by simp
  have hfresh (hn : ∀ e ∈ earlier, e.name ≠ d.name) :
      earlier.reverse.any (·.name == d.name) = false := by simpa using hn
  cases h with
  | noIdentifier h => simp [nameFault?, h]
  | reserved hu h => simp [nameFault?, hu, h]
  | declaredTwice hu hr h => simp [nameFault?, hu, hr, htaken h]
  | isTextAlias hu hr hn h =>
    have hl : (NameTable.ofOptions options).lookup d.name = some .textAlias := by
      rw [NameTable.lookup_ofOptions, if_pos h]
    simp [nameFault?, hu, hr, hfresh hn, hl]
  | isOpaque hu hr hn ha h =>
    have hl : (NameTable.ofOptions options).lookup d.name = some .foreign := by
      rw [NameTable.lookup_ofOptions, if_neg ha, if_pos h]
    simp [nameFault?, hu, hr, hfresh hn, hl]
  | sharedMethod hf hn hd he hi h =>
    have hl : (NameTable.ofOptions options).lookup d.name = none :=
      NameTable.lookup_ofOptions_eq_none_iff.2 ⟨hf.ne_textAlias, hf.not_primitive, hf.not_opaque⟩
    simp [nameFault?, hf.usable, hf.not_reserved, hfresh hn, hl, hd,
      find?_sharedMethod hp he hi h]

theorem search_nameFaults (options : Options) :
    Search id (fun behind d => (d.nameFault? options behind).toList.map .declaration)
      (nameFaults options) :=
  ⟨fun _ => rfl, fun _ _ _ => rfl⟩

theorem reports_nameFaults {ds : List Declaration} :
    Reports (HasNameFault options) ds (nameFaults options [] ds) := by
  apply (search_nameFaults options).reports
  intro before d hbefore fault
  have hp : before.Pairwise Apart := (nameFaults_eq_nil_iff.1 hbefore).2.1
  have hhead : ((d.nameFault? options before.reverse).toList.map Fault.declaration).head? =
      (d.nameFault? options before.reverse).map .declaration := by
    rw [List.head?_map, Option.head?_toList]
  rw [List.map_id, hhead]
  constructor
  · intro h
    obtain ⟨cause, hc, rfl⟩ := Option.map_eq_some_iff.1 h
    exact hasNameFault_of_nameFault? hc
  · exact HasNameFault.nameFault?_eq hp

end Declaration

theorem Options.reports_faults {options : Options} :
    Reports (fun _ => NameOption.HasFault)
      [(.lifetime, options.lifetime), (.textAlias, options.textAlias)] options.faults := by
  intro fault
  rw [faults, List.head?_filterMap]
  apply findSome?_eq_some_iff_firstFault
  intro given fault
  obtain ⟨option, value⟩ := given
  rw [NameOption.HasFault]
  dsimp only
  split
  next h => exact iff_of_false (Option.some_ne_none _).symm fun hf => hf.1 h
  next h => rw [and_iff_right h, Option.some_inj, eq_comm]

namespace Schema

variable {schema : Schema} {options : Options}

theorem reports_lifetimeFaults (hn : (schema.declarations.map (·.name)).Nodup)
    (ha : ∀ d ∈ schema.declarations, d.name ≠ options.textAlias) :
    Reports (fun _ d fault => ¬schema.LeadsTo d options.textAlias ∧
        fault = .declaration (.unusedLifetime d.name options.textAlias options.quotedLifetime))
      schema.nodes (schema.lifetimeFaults options (.ofSchema schema options)) := by
  intro fault
  rw [head?_lifetimeFaults_eq_some_iff]
  have hsplit {before after : List Declaration} {d : Declaration}
      (hnodes : schema.nodes = before ++ d :: after) :
      (d.name ∈ schema.borrowing (.ofSchema schema options) ↔
        schema.LeadsTo d options.textAlias) ∧
      ((∀ e ∈ before, e.name ∈ schema.borrowing (.ofSchema schema options)) ↔
        ∀ e ∈ before, schema.LeadsTo e options.textAlias) := by
    constructor
    · exact mem_borrowing_iff hn ha (hnodes ▸ List.mem_append_right _ List.mem_cons_self)
    · apply forall₂_congr
      intro e he
      exact mem_borrowing_iff hn ha (hnodes ▸ List.mem_append_left _ he)
  constructor
  · intro h
    obtain ⟨before, d, after, hnodes, hbefore, hd, rfl⟩ := h
    rw [(hsplit hnodes).1] at hd
    rw [(hsplit hnodes).2] at hbefore
    exact ⟨before, d, after, hnodes,
      faultless_const_iff.2 fun e he _ hf => hf.1 (hbefore e he), hd, rfl⟩
  · intro h
    obtain ⟨before, d, after, hnodes, hbefore, hd, rfl⟩ := h
    refine ⟨before, d, after, hnodes, (hsplit hnodes).2.2 ?_, (hsplit hnodes).1.not.2 hd, rfl⟩
    intro e he
    by_contra hnot
    exact faultless_const_iff.1 hbefore e he _ ⟨hnot, rfl⟩

/-- Each stage is entered after the earlier ones found nothing. That no name is declared twice then
tells what the types of members and the chains of references mean. -/
theorem reports_faults : Reports (fun _ => Stage.HasFault schema options) Stage.order
    (schema.faults options) := by
  have hoptions : Reports (fun _ => Stage.HasFault schema options) [Stage.options]
      options.faults :=
    reports_nil.snoc fun _ => Options.reports_faults
  have hnames : Reports (fun _ => Stage.HasFault schema options) [Stage.options, .names]
      (options.faults ++ Declaration.nameFaults options [] schema.declarations) :=
    hoptions.snoc fun _ => Declaration.reports_nameFaults
  have hdeclared
      (h : options.faults ++ Declaration.nameFaults options [] schema.declarations = []) :
      (schema.declarations.map (·.name)).Nodup ∧
        ∀ d ∈ schema.declarations, d.name ≠ options.textAlias := by
    obtain ⟨hfree, hapart, -⟩ :=
      Declaration.nameFaults_eq_nil_iff.1 (List.append_eq_nil_iff.1 h).2
    exact ⟨(Declaration.pairwise_apart_iff.1 hapart).1, fun d hd => (hfree d hd).ne_textAlias⟩
  have hmembers : Reports (fun _ => Stage.HasFault schema options)
      [Stage.options, .names, .members]
      (options.faults ++ Declaration.nameFaults options [] schema.declarations ++
        schema.declarations.flatMap (·.memberFaults (.ofSchema schema options))) := by
    apply hnames.snoc
    intro h fault
    rw [List.head?_flatMap]
    apply findSome?_eq_some_iff_firstFault
    intro d fault
    exact Declaration.head?_memberFaults_eq_some_iff fun _ =>
      NameTable.isSome_meaning?_iff (hdeclared h).1
  apply hmembers.snoc
  intro h
  obtain ⟨hn, ha⟩ := hdeclared (List.append_eq_nil_iff.1 h).1
  exact reports_lifetimeFaults hn ha

theorem verify_eq_error_iff_firstFault {fault : Fault} : schema.verify options = .error fault ↔
    FirstFault (fun _ => Stage.HasFault schema options) Stage.order fault :=
  verify_eq_error_iff.trans (reports_faults fault)

variable {fault : Fault}

theorem hasFault_of_verify {stage : Stage} (hv : schema.verify options = .error fault)
    (hs : fault.stage? = some stage) : stage.HasFault schema options fault := by
  obtain ⟨-, stage', h⟩ := (verify_eq_error_iff_firstFault.1 hv).exists_wrong
  obtain rfl := Option.some.inj (h.stage?_eq.symm.trans hs)
  exact h

/-- The options are looked at before the schema is. -/
theorem verify_of_options (h : Stage.options.HasFault schema options fault) :
    schema.verify options = .error fault :=
  verify_eq_error_iff_firstFault.2 ⟨[], .options, _, rfl, faultless_nil, h⟩

theorem verify_of_names (hoptions : ∀ fault, ¬Stage.options.HasFault schema options fault)
    (h : Stage.names.HasFault schema options fault) : schema.verify options = .error fault :=
  verify_eq_error_iff_firstFault.2 ⟨[.options], .names, _, rfl,
    faultless_const_iff.2 (List.forall_mem_singleton.2 hoptions), h⟩

/-- A schema that is refused is refused for the first fault of the first stage that has any: within
the stage that of the first declaration, and in it of the first member and the first part of a type.
A fault of the options is the same for all schemas. A fault of a declared name is the same whatever
follows the declaration, and whatever members it and the earlier ones have. -/
theorem verify_reports_first_fault (schema : Schema) (options : Options) :
    (∀ fault, schema.verify options = .error fault ↔
      FirstFault (fun _ => Stage.HasFault schema options) Stage.order fault) ∧
    (∀ stage fault, Stage.HasFault schema options stage fault → fault.stage? = some stage) ∧
    (∀ fault, schema.verify options = .error fault → fault.stage? = some .options →
      ∀ other : Schema, other.verify options = .error fault) ∧
    ∀ fault, schema.verify options = .error fault → fault.stage? = some .names →
      ∃ before d after, schema.declarations = before ++ d :: after ∧
        fault.declaredName? = some d.name ∧ d.HasNameFault options before fault ∧
        ∀ before' d' after', before'.map Declaration.head = before.map Declaration.head →
          d'.head = d.head →
          Schema.verify ⟨before' ++ d' :: after'⟩ options = .error fault := by
  refine ⟨fun _ => verify_eq_error_iff_firstFault, fun _ _ => Stage.HasFault.stage?_eq, ?_, ?_⟩
  · intro fault hv hs other
    have h : Stage.options.HasFault schema options fault := hasFault_of_verify hv hs
    exact verify_of_options h
  · intro fault hv hs
    obtain ⟨before, d, after, hds, hbefore, hd⟩ := hasFault_of_verify hv hs
    refine ⟨before, d, after, hds, hd.declaredName?_eq, hd, ?_⟩
    intro before' d' after' he hhead
    apply verify_of_names
    · intro fault' h
      have hv' : schema.verify options = .error fault' := verify_of_options h
      obtain rfl := Except.error.inj (hv.symm.trans hv')
      exact nomatch hs.symm.trans h.stage?_eq
    · exact ⟨before', d', after', rfl, Declaration.faultless_of_head_eq hbefore he,
        hd.of_head_eq he hhead⟩

/-- Two nodes that share a method hide the faults of their members and all that comes later. -/
theorem shared_method_before_members :
    let schema : Schema := ⟨[.record "Block" [⟨"span", .atomic "Missing"⟩], .union "block" [],
      .record "Vec" []]⟩
    let fault : Fault := .declaration (.sharedMethod "block" "block" "Block")
    schema.verify .default = .error fault ∧
    Stage.members.HasFault schema .default (.declaration (.fieldTwice "Block" "span" "span")) ∧
    ∀ fields variants after, Schema.verify
      ⟨.record "Block" fields :: .union "block" variants :: after⟩ .default = .error fault := by
  intro schema fault
  have hv : schema.verify .default = .error fault := rfl
  have hmembers : Stage.members.HasFault schema .default
      (.declaration (.fieldTwice "Block" "span" "span")) :=
    ⟨[], _, _, rfl, faultless_nil, .field ⟨[], _, _, rfl, faultless_nil, .twice (.inl (by decide))⟩⟩
  obtain ⟨-, -, -, hnames⟩ := verify_reports_first_fault schema .default
  obtain ⟨before, d, after, hds, hname, -, hrest⟩ := hnames fault hv rfl
  have hname : "block" = d.name := Option.some.inj hname
  have hheads : before.map Declaration.head = [("Block", true)] ∧ d.head = ("block", true) := by
    rcases before with _ | ⟨first, _ | ⟨second, before⟩⟩
    · obtain ⟨rfl, -⟩ := List.cons.inj hds
      exact absurd hname (by decide)
    · obtain ⟨rfl, hrest'⟩ := List.cons.inj hds
      obtain ⟨rfl, -⟩ := List.cons.inj hrest'
      exact ⟨rfl, rfl⟩
    · have hd : d ∈ schema.declarations.drop 2 := by simp [hds]
      obtain rfl := List.mem_singleton.1 hd
      exact absurd hname (by decide)
  refine ⟨hv, hmembers, fun fields variants after' => ?_⟩
  exact hrest [.record "Block" fields] (.union "block" variants) after' hheads.1.symm hheads.2.symm

/-- The first part that is wrong lies deep in a type; a container behind it, a later field and the
record as a whole are wrong as well. -/
example : Schema.verify ⟨[.record "Block"
    [⟨"items", .generic "Map" [.generic "Vec" [.atomic "Nope"], .generic "1" []]⟩,
      ⟨"span", .atomic "u8"⟩]]⟩ .default =
    .error (.type (.undeclared "Nope" (.field "items" "Block"))) := rfl

end Schema

end NodeSchema
