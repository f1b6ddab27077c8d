import NodeSchema.Code.Definitions
import NodeSchema.Code.Visitor
import NodeSchema.Proofs.Success
import NodeSchema.Proofs.Visitor.Members

namespace NodeSchema

open Code (Arm Definition FieldLine Operand Step VariantLine Walker fieldSteps? slotSteps?)
open Program (bindings)

namespace NameTable

/-- Two tables have the same meanings for the given names. -/
def SameMeanings (table other : NameTable) (names : List String) : Prop :=
  ∀ name ∈ names, table.meaning? name = other.meaning? name

/-- Two tables have one lifetime, and the same meanings for the given names. -/
structure AgreeOn (table other : NameTable) (names : List String) : Prop where
  lifetime : table.lifetime = other.lifetime
  meaning? : ∀ name ∈ names, table.meaning? name = other.meaning? name

variable {table other : NameTable} {names : List String}

theorem SameMeanings.arg {container : String} {args : List TypeExpr}
    (h : table.SameMeanings other (TypeExpr.generic container args).atoms) {arg : TypeExpr}
    (hm : arg ∈ args) : table.SameMeanings other arg.atoms := by
  intro name hname
  apply h
  rw [TypeExpr.atoms, TypeExpr.atomsOf_eq_flatMap]
  exact List.mem_flatMap.2 ⟨arg, hm, hname⟩

theorem AgreeOn.arg {container : String} {args : List TypeExpr}
    (h : table.AgreeOn other (TypeExpr.generic container args).atoms) {arg : TypeExpr}
    (hm : arg ∈ args) : table.AgreeOn other arg.atoms :=
  ⟨h.lifetime, SameMeanings.arg h.meaning? hm⟩

theorem SameMeanings.isNode {name : String}
    (h : table.SameMeanings other (TypeExpr.atomic name).atoms) :
    table.isNode name = other.isNode name := by
  rw [NameTable.isNode, h name List.mem_cons_self, NameTable.isNode]

theorem any_containsNode_congr {types : List TypeExpr}
    (h : ∀ type ∈ types, table.containsNode type = other.containsNode type) :
    types.any table.containsNode = types.any other.containsNode := by
  have hmap : types.map table.containsNode = types.map other.containsNode := List.map_congr_left h
  have hany := congrArg (·.any id) hmap
  rwa [List.any_map, List.any_map] at hany

theorem SameMeanings.containsNode {type : TypeExpr}
    (h : table.SameMeanings other type.atoms) :
    table.containsNode type = other.containsNode type := by
  induction type using TypeExpr.induction with
  | atomic name => exact h.isNode
  | generic container args ih =>
    rw [NameTable.containsNode, NameTable.containsNode, anyContainsNode_eq_any,
      anyContainsNode_eq_any]
    exact any_containsNode_congr fun arg hm => ih arg hm (h.arg hm)

theorem AgreeOn.toCode {type : TypeExpr} (h : table.AgreeOn other type.atoms) :
    type.toCode table = type.toCode other := by
  induction type using TypeExpr.induction with
  | atomic name =>
    rw [TypeExpr.toCode, TypeExpr.toCode, h.meaning? name List.mem_cons_self, h.lifetime]
  | generic container args ih =>
    rw [TypeExpr.toCode, TypeExpr.toCode, TypeExpr.toCodes_eq_mapM, TypeExpr.toCodes_eq_mapM,
      mapM_congr fun arg hm => ih arg hm (h.arg hm)]

theorem SameMeanings.ofType? {type : TypeExpr} (h : table.SameMeanings other type.atoms)
    (value : Operand) :
    Step.ofType? table value type = Step.ofType? other value type := by
  induction type using TypeExpr.induction generalizing value with
  | atomic name => rw [Step.ofType?, Step.ofType?, h.isNode]
  | generic container args ih =>
    have hc := h.containsNode
    cases args with
    | nil => simp only [Step.ofType?, hc]
    | cons arg args =>
      cases args with
      | nil =>
        have harg := ih arg List.mem_cons_self (h.arg List.mem_cons_self)
        simp only [Step.ofType?, hc, harg]
      | cons arg' args => simp only [Step.ofType?, hc]

section Declarations

variable {d : Declaration}

theorem AgreeOn.fieldLine {field : Field} (h : table.AgreeOn other field.type.atoms) :
    FieldLine.ofField? table field = FieldLine.ofField? other field := by
  rw [FieldLine.ofField?, FieldLine.ofField?, h.toCode]

theorem variantLine_congr {variant : Variant}
    (h : ∀ type ∈ variant.payload, table.AgreeOn other type.atoms) :
    VariantLine.ofVariant? table variant = VariantLine.ofVariant? other variant := by
  rw [VariantLine.ofVariant?, VariantLine.ofVariant?, TypeExpr.toCodes_eq_mapM,
    TypeExpr.toCodes_eq_mapM, mapM_congr fun type hm => (h type hm).toCode]

/-- A declaration has the same definition under tables that agree on its member types. -/
theorem definition_congr (h : ∀ type ∈ d.memberTypes, table.AgreeOn other type.atoms) :
    Definition.ofDeclaration? table d = Definition.ofDeclaration? other d := by
  cases d with
  | record name fields =>
    rw [Declaration.memberTypes, List.forall_mem_map] at h
    rw [Definition.ofDeclaration?, Definition.ofDeclaration?,
      mapM_congr fun f hf => (h f hf).fieldLine]
  | union name variants =>
    rw [Declaration.memberTypes, List.forall_mem_flatMap] at h
    rw [Definition.ofDeclaration?, Definition.ofDeclaration?,
      mapM_congr fun v hv => variantLine_congr (h v hv)]
  | plain name tags => rfl

theorem slotSteps_congr {payload : List TypeExpr}
    (h : ∀ type ∈ payload, table.SameMeanings other type.atoms) :
    slotSteps? table payload = slotSteps? other payload := by
  have hstep : ∀ p ∈ payload.zipIdx, Step.ofType? table (.slot p.2) p.1 =
      Step.ofType? other (.slot p.2) p.1 :=
    fun p hp => (h p.1 (List.fst_mem_of_mem_zipIdx hp)).ofType? _
  rw [slotSteps?, slotSteps?]
  exact congrArg (· >>= _) (mapM_congr hstep)

theorem bindings_congr {payload : List TypeExpr}
    (h : ∀ type ∈ payload, table.containsNode type = other.containsNode type) :
    bindings table payload 0 = bindings other payload 0 := by
  apply List.map_congr_left
  intro p hp
  have hc := h p.1 (List.fst_mem_of_mem_zipIdx hp)
  exact congrArg (fun c : Bool => if c then Code.Binding.slot p.2 else .hole) hc

theorem arm_congr {variant : Variant}
    (h : ∀ type ∈ variant.payload, table.SameMeanings other type.atoms) :
    Arm.ofVariant? table variant = Arm.ofVariant? other variant := by
  have hc : ∀ type ∈ variant.payload, table.containsNode type = other.containsNode type :=
    fun type hm => (h type hm).containsNode
  have hany := any_containsNode_congr hc
  have hbindings := bindings_congr hc
  rw [bindings, bindings] at hbindings
  rw [Arm.ofVariant?, Arm.ofVariant?, hany, slotSteps_congr h, hbindings]

theorem walker_congr_of_sameMeanings
    (h : ∀ type ∈ d.memberTypes, table.SameMeanings other type.atoms) :
    Walker.ofDeclaration? table d = Walker.ofDeclaration? other d := by
  cases d with
  | record name fields =>
    rw [Declaration.memberTypes, List.forall_mem_map] at h
    rw [Walker.ofDeclaration?, Walker.ofDeclaration?, fieldSteps?, fieldSteps?,
      mapM_congr fun f hf => (h f hf).ofType? _]
  | union name variants =>
    rw [Declaration.memberTypes, List.forall_mem_flatMap] at h
    rw [Walker.ofDeclaration?, Walker.ofDeclaration?, mapM_congr fun v hv => arm_congr (h v hv)]
  | plain name tags => rfl

theorem walker_congr (h : ∀ type ∈ d.memberTypes, table.AgreeOn other type.atoms) :
    Walker.ofDeclaration? table d = Walker.ofDeclaration? other d :=
  walker_congr_of_sameMeanings fun type hm => (h type hm).meaning?

end Declarations

end NameTable

end NodeSchema
