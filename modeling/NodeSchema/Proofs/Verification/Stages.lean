import NodeSchema.Proofs.FirstFault
import NodeSchema.Proofs.Verification.Sound

namespace NodeSchema

open Text (isIdentifier isUsable snakeCase)

namespace TypeExpr

mutual

/-- A type and all its parts, a container before its arguments and these from left to right. -/
def parts : TypeExpr → List TypeExpr
  | .atomic name => [.atomic name]
  | .generic container args => .generic container args :: partsOf args

def partsOf : List TypeExpr → List TypeExpr
  | [] => []
  | arg :: args => arg.parts ++ partsOf args

end

@[simp] theorem partsOf_eq_flatMap (args : List TypeExpr) : partsOf args = args.flatMap parts := by
  induction args with
  | nil => rfl
  | cons arg args ih => simp [partsOf, ih]

/-- What may be wrong with a part of a type, its arguments left aside. -/
inductive PartFault (knows : String → Prop) (place : Place) : TypeExpr → TypeFault → Prop where
  | noTypeName {name : String} (h : ¬isIdentifier name) :
    PartFault knows place (.atomic name) (.noTypeName name place)
  | undeclared {name : String} (hn : isIdentifier name) (h : ¬knows name) :
    PartFault knows place (.atomic name) (.undeclared name place)
  | badApplication {container : String} {args : List TypeExpr}
      (h : ¬isIdentifier container ∨ args = []) :
    PartFault knows place (.generic container args)
      (.badApplication (.generic container args) place)

/-- What is wrong with the first part of a type that is wrong, in reading order. -/
def HasFault (knows : String → Prop) (place : Place) (type : TypeExpr) : TypeFault → Prop :=
  FirstFault (fun _ => PartFault knows place) type.parts

end TypeExpr

section Members

variable (knows : String → Prop)

/-- What may be wrong with a field of a record after the fields before it. -/
inductive Field.HasFault (record : String) (earlier : List Field) (f : Field) : Fault → Prop where
  | twice (h : f.written = "span" ∨ ∃ e ∈ earlier, e.written = f.written) :
    HasFault record earlier f (.declaration (.fieldTwice record f.name f.written))
  | type {fault : TypeFault} (hs : f.written ≠ "span") (hn : ∀ e ∈ earlier, e.written ≠ f.written)
      (h : f.type.HasFault knows (.field f.name record) fault) :
    HasFault record earlier f (.type fault)

/-- What may be wrong with a slot of a variant, which is found by its place. -/
def Variant.SlotFault (union variant : String) (earlier : List TypeExpr) (type : TypeExpr)
    (fault : Fault) : Prop :=
  ∃ cause, type.HasFault knows (.slot earlier.length union variant) cause ∧ fault = .type cause

/-- What may be wrong with a variant of a union after the variants before it. -/
inductive Variant.HasFault (union : String) (earlier : List Variant) (v : Variant) :
    Fault → Prop where
  | noIdentifier (h : ¬isUsable v.name) :
    HasFault union earlier v (.variant (.noIdentifier union v.name))
  | twice (hu : isUsable v.name) (h : ∃ e ∈ earlier, e.name = v.name) :
    HasFault union earlier v (.variant (.declaredTwice union v.name))
  | slot {fault : Fault} (hu : isUsable v.name) (hn : ∀ e ∈ earlier, e.name ≠ v.name)
      (h : FirstFault (Variant.SlotFault knows union v.name) v.payload fault) :
    HasFault union earlier v fault

/-- What may be wrong with a tag of a plain union after the tags before it. -/
def TagFault (union : String) (earlier : List String) (tag : String) (fault : Fault) : Prop :=
  (¬isUsable tag ∨ tag ∈ earlier) ∧ fault = .declaration (.badTag union tag)

/-- What is wrong with the first member of a declaration that is wrong, or with a union that has
no members. -/
inductive Declaration.HasMemberFault : Declaration → Fault → Prop where
  | field {name : String} {fields : List Field} {fault : Fault}
      (h : FirstFault (Field.HasFault knows name) fields fault) :
    HasMemberFault (.record name fields) fault
  | noVariants {name : String} :
    HasMemberFault (.union name []) (.variant (.noVariants name))
  | variant {name : String} {variants : List Variant} {fault : Fault}
      (h : FirstFault (Variant.HasFault knows name) variants fault) :
    HasMemberFault (.union name variants) fault
  | tag {name : String} {tags : List String} {fault : Fault}
      (h : FirstFault (TagFault name) tags fault) :
    HasMemberFault (.plain name tags) fault

end Members

/-- What may be wrong with a declared name after the declarations before it. A name that is wrong in
several ways is refused as no identifier first, then as reserved, as taken and for its method. -/
inductive Declaration.HasNameFault (options : Options) (earlier : List Declaration)
    (d : Declaration) : Fault → Prop where
  | noIdentifier (h : ¬isUsable d.name) :
    HasNameFault options earlier d (.declaration (.noIdentifier d.name))
  | reserved (hu : isUsable d.name) (h : d.name ∈ reservedNames) :
    HasNameFault options earlier d (.declaration (.reserved d.name))
  | declaredTwice (hu : isUsable d.name) (hr : d.name ∉ reservedNames)
      (h : ∃ e ∈ earlier, e.name = d.name) :
    HasNameFault options earlier d (.declaration (.declaredTwice d.name))
  | isTextAlias (hu : isUsable d.name) (hr : d.name ∉ reservedNames)
      (hn : ∀ e ∈ earlier, e.name ≠ d.name) (h : d.name = options.textAlias) :
    HasNameFault options earlier d (.declaration (.isTextAlias d.name))
  | isOpaque (hu : isUsable d.name) (hr : d.name ∉ reservedNames)
      (hn : ∀ e ∈ earlier, e.name ≠ d.name) (ha : d.name ≠ options.textAlias)
      (h : d.name ∈ options.opaqueTypes ∨ d.name ∈ primitiveTypes) :
    HasNameFault options earlier d (.declaration (.isOpaque d.name))
  | sharedMethod {e : Declaration} (hf : Schema.FreeName options d.name)
      (hn : ∀ e ∈ earlier, e.name ≠ d.name) (hd : d.isNode) (he : e ∈ earlier) (hi : e.isNode)
      (h : snakeCase e.name = snakeCase d.name) :
    HasNameFault options earlier d
      (.declaration (.sharedMethod d.name (snakeCase d.name) e.name))

namespace Declaration

/-- All of a declaration that its name is judged by. -/
def head (d : Declaration) : String × Bool := (d.name, d.isNode)

variable {options : Options} {earlier earlier' : List Declaration} {d d' : Declaration}
  {fault : Fault}

theorem exists_head_eq (he : earlier'.map head = earlier.map head) {e : Declaration}
    (hm : e ∈ earlier) : ∃ e' ∈ earlier', e'.name = e.name ∧ e'.isNode = e.isNode := by
  obtain ⟨e', hm', heq⟩ := List.mem_map.1 (he ▸ List.mem_map_of_mem hm : e.head ∈ earlier'.map head)
  exact ⟨e', hm', Prod.mk.inj heq⟩

theorem HasNameFault.of_head_eq (h : d.HasNameFault options earlier fault)
    (he : earlier'.map head = earlier.map head) (hd : d'.head = d.head) :
    d'.HasNameFault options earlier' fault := by
  obtain ⟨hname, hnode⟩ := Prod.mk.inj hd
  have hfresh (hn : ∀ e ∈ earlier, e.name ≠ d.name) : ∀ e ∈ earlier', e.name ≠ d.name := by
    intro e hm
    obtain ⟨e', hm', hen, -⟩ := exists_head_eq he.symm hm
    exact hen ▸ hn e' hm'
  cases h with
  | noIdentifier h =>
    rw [← hname] at h ⊢
    exact .noIdentifier h
  | reserved hu h =>
    rw [← hname] at hu h ⊢
    exact .reserved hu h
  | declaredTwice hu hr h =>
    obtain ⟨e, hm, hen⟩ := h
    obtain ⟨e', hm', hen', -⟩ := exists_head_eq he hm
    rw [← hname] at hu hr hen ⊢
    exact .declaredTwice hu hr ⟨e', hm', hen'.trans hen⟩
  | isTextAlias hu hr hn h =>
    have hn := hfresh hn
    rw [← hname] at hu hr hn h ⊢
    exact .isTextAlias hu hr hn h
  | isOpaque hu hr hn ha h =>
    have hn := hfresh hn
    rw [← hname] at hu hr hn ha h ⊢
    exact .isOpaque hu hr hn ha h
  | sharedMethod hf hn hi hm hj h =>
    have hn := hfresh hn
    obtain ⟨e', hm', hen', hj'⟩ := exists_head_eq he hm
    rw [← hname] at hf hn h ⊢
    rw [← hen'] at h ⊢
    exact .sharedMethod hf hn (hnode.trans hi) hm' (hj'.trans hj) h

theorem faultless_of_head_eq (h : Faultless (HasNameFault options) earlier)
    (he : earlier'.map head = earlier.map head) : Faultless (HasNameFault options) earlier' := by
  intro before x after hsplit fault hx
  rw [hsplit, List.map_append, List.map_cons, eq_comm, List.map_eq_append_iff] at he
  obtain ⟨before', rest, hearlier, hbefore, hrest⟩ := he
  obtain ⟨x', after', rfl, hhead, -⟩ := List.map_eq_cons_iff.1 hrest
  exact h before' x' after' hearlier fault (hx.of_head_eq hbefore hhead)

end Declaration

/-- What may be wrong with an option and its value. -/
def NameOption.HasFault (given : NameOption × String) (fault : Fault) : Prop :=
  ¬isUsable given.2 ∧ fault = .declaration (.unusableOption given.1 given.2)

inductive Stage where
  | options
  | names
  | members
  | lifetimes
deriving DecidableEq

namespace Stage

def order : List Stage := [.options, .names, .members, .lifetimes]

/-- What is wrong with the first entry of a stage that is wrong. -/
def HasFault (schema : Schema) (options : Options) : Stage → Fault → Prop
  | .options =>
    FirstFault (fun _ => NameOption.HasFault)
      [(.lifetime, options.lifetime), (.textAlias, options.textAlias)]
  | .names => FirstFault (Declaration.HasNameFault options) schema.declarations
  | .members =>
    FirstFault (fun _ => Declaration.HasMemberFault (schema.Knows options)) schema.declarations
  | .lifetimes =>
    FirstFault (fun _ d fault => ¬schema.LeadsTo d options.textAlias ∧
        fault = .declaration (.unusedLifetime d.name options.textAlias options.quotedLifetime))
      schema.nodes

end Stage

/-- The stage that a fault of the verifier belongs to, by its kind. -/
def Fault.stage? : Fault → Option Stage
  | .declaration (.unusableOption _ _) => some .options
  | .declaration (.noIdentifier _) => some .names
  | .declaration (.reserved _) => some .names
  | .declaration (.declaredTwice _) => some .names
  | .declaration (.isTextAlias _) => some .names
  | .declaration (.isOpaque _) => some .names
  | .declaration (.sharedMethod _ _ _) => some .names
  | .declaration (.fieldTwice _ _ _) => some .members
  | .declaration (.badTag _ _) => some .members
  | .declaration (.unusedLifetime _ _ _) => some .lifetimes
  | .declaration _ => none
  | .variant (.badForm _ _) => none
  | .variant _ => some .members
  | .type (.noTypeName _ _) => some .members
  | .type (.undeclared _ _) => some .members
  | .type (.badApplication _ _) => some .members
  | .type _ => none

/-- The declared name that a fault is about. -/
def Fault.declaredName? : Fault → Option String
  | .declaration (.noIdentifier name) => some name
  | .declaration (.reserved name) => some name
  | .declaration (.declaredTwice name) => some name
  | .declaration (.isTextAlias name) => some name
  | .declaration (.isOpaque name) => some name
  | .declaration (.sharedMethod name _ _) => some name
  | _ => none

section Kinds

variable {knows : String → Prop} {fault : Fault}

theorem TypeExpr.HasFault.stage?_eq {type : TypeExpr} {place : Place} {cause : TypeFault}
    (h : type.HasFault knows place cause) : (Fault.type cause).stage? = some .members := by
  obtain ⟨-, part, h⟩ := h.exists_wrong
  cases h with
  | noTypeName h => rfl
  | undeclared hn h => rfl
  | badApplication h => rfl

theorem Field.HasFault.stage?_eq {record : String} {earlier : List Field} {f : Field}
    (h : f.HasFault knows record earlier fault) : fault.stage? = some .members := by
  cases h with
  | twice h => rfl
  | type hs hn h => exact h.stage?_eq

theorem Variant.HasFault.stage?_eq {union : String} {earlier : List Variant} {v : Variant}
    (h : v.HasFault knows union earlier fault) : fault.stage? = some .members := by
  cases h with
  | noIdentifier h => rfl
  | twice hu h => rfl
  | slot hu hn h =>
    obtain ⟨_, type, cause, hcause, rfl⟩ := h.exists_wrong
    exact hcause.stage?_eq

theorem Declaration.HasMemberFault.stage?_eq {d : Declaration} (h : d.HasMemberFault knows fault) :
    fault.stage? = some .members := by
  cases h with
  | field h =>
    obtain ⟨_, f, hf⟩ := h.exists_wrong
    exact hf.stage?_eq
  | noVariants => rfl
  | variant h =>
    obtain ⟨_, v, hv⟩ := h.exists_wrong
    exact hv.stage?_eq
  | tag h =>
    obtain ⟨-, tag, -, rfl⟩ := h.exists_wrong
    rfl

theorem Declaration.HasNameFault.stage?_eq {options : Options} {earlier : List Declaration}
    {d : Declaration} (h : d.HasNameFault options earlier fault) :
    fault.stage? = some .names := by
  cases h with
  | noIdentifier h => rfl
  | reserved hu h => rfl
  | declaredTwice hu hr h => rfl
  | isTextAlias hu hr hn h => rfl
  | isOpaque hu hr hn ha h => rfl
  | sharedMethod hf hn hd he hi h => rfl

theorem Declaration.HasNameFault.declaredName?_eq {options : Options} {earlier : List Declaration}
    {d : Declaration} (h : d.HasNameFault options earlier fault) :
    fault.declaredName? = some d.name := by
  cases h with
  | noIdentifier h => rfl
  | reserved hu h => rfl
  | declaredTwice hu hr h => rfl
  | isTextAlias hu hr hn h => rfl
  | isOpaque hu hr hn ha h => rfl
  | sharedMethod hf hn hd he hi h => rfl

theorem Stage.HasFault.stage?_eq {schema : Schema} {options : Options} {stage : Stage}
    (h : stage.HasFault schema options fault) : fault.stage? = some stage := by
  cases stage with
  | options =>
    obtain ⟨-, given, -, rfl⟩ := h.exists_wrong
    rfl
  | names =>
    obtain ⟨_, d, hd⟩ := h.exists_wrong
    exact hd.stage?_eq
  | members =>
    obtain ⟨_, d, hd⟩ := h.exists_wrong
    exact hd.stage?_eq
  | lifetimes =>
    obtain ⟨-, d, -, rfl⟩ := h.exists_wrong
    rfl

end Kinds

end NodeSchema
