import NodeSchema.Code.Basic
import NodeSchema.Proofs.FirstFault
import NodeSchema.Proofs.Verification.Names
import NodeSchema.Proofs.Visitor.Value

namespace NodeSchema

open Code (Operand)

namespace TypeExpr

/-- The containers that the visitor enters. -/
def entered : List String := [sequence, optional, owned]

/-- The expressions that an expression is made of, itself included. -/
inductive Within (part : TypeExpr) : TypeExpr → Prop where
  | self : Within part part
  | arg {arg : TypeExpr} {container : String} {args : List TypeExpr} (hm : arg ∈ args)
      (h : Within part arg) : Within part (.generic container args)

theorem Within.eq_or_sizeOf_lt {part whole : TypeExpr} (h : part.Within whole) :
    part = whole ∨ sizeOf part < sizeOf whole := by
  induction h with
  | self => exact .inl rfl
  | @arg arg container args hm _ ih =>
    have hargs := List.sizeOf_lt_of_mem hm
    have hlt : sizeOf arg < sizeOf (generic container args) := by
      rw [generic.sizeOf_spec]
      omega
    rcases ih with rfl | ih
    · exact .inr hlt
    · exact .inr (ih.trans hlt)

theorem Within.antisymm {a b : TypeExpr} (h : a.Within b) (h' : b.Within a) : a = b := by
  rcases h.eq_or_sizeOf_lt with rfl | hlt
  · rfl
  rcases h'.eq_or_sizeOf_lt with rfl | hlt'
  · rfl
  · omega

theorem Within.atoms_subset {part whole : TypeExpr} (h : part.Within whole) :
    part.atoms ⊆ whole.atoms := by
  induction h with
  | self => exact List.Subset.refl _
  | @arg arg container args hm _ ih =>
    intro name hname
    rw [atoms, atomsOf_eq_flatMap]
    exact List.mem_flatMap.2 ⟨arg, hm, ih hname⟩

end TypeExpr

namespace Schema

/-- A node of the schema occurs in the type. -/
def HoldsNode (schema : Schema) (type : TypeExpr) : Prop :=
  ∃ d ∈ schema.nodes, d.name ∈ type.atoms

instance (schema : Schema) (type : TypeExpr) : Decidable (schema.HoldsNode type) :=
  inferInstanceAs (Decidable (∃ d ∈ schema.nodes, d.name ∈ type.atoms))

/-- The types of values that the visitor can walk. -/
inductive Walkable (schema : Schema) : TypeExpr → Prop where
  | leaf {type : TypeExpr} (h : ¬schema.HoldsNode type) : Walkable schema type
  | node {d : Declaration} (hd : d ∈ schema.nodes) : Walkable schema (.atomic d.name)
  | enter {container : String} {arg : TypeExpr} (hc : container ∈ TypeExpr.entered)
      (h : Walkable schema arg) : Walkable schema (.generic container [arg])

/-- A container over nodes, other than one that is entered and holds values of one type. -/
def Obstacle (schema : Schema) : TypeExpr → Prop
  | .atomic _ => False
  | .generic container args =>
    schema.HoldsNode (.generic container args) ∧
      ¬(container ∈ TypeExpr.entered ∧ args.length = 1)

/-- The obstacle in a type that all its other obstacles are parts of. -/
structure BlockedBy (schema : Schema) (type obstacle : TypeExpr) : Prop where
  within : obstacle.Within type
  isObstacle : schema.Obstacle obstacle
  outermost : ∀ other, other.Within type → schema.Obstacle other → other.Within obstacle

variable {schema : Schema} {container : String} {type obstacle arg : TypeExpr}
  {args : List TypeExpr}

theorem Obstacle.holdsNode (h : schema.Obstacle type) : schema.HoldsNode type := by
  cases type with
  | atomic name => exact h.elim
  | generic container args => exact h.1

theorem Obstacle.exists_generic (h : schema.Obstacle type) :
    ∃ container args, type = .generic container args := by
  cases type with
  | atomic name => exact h.elim
  | generic container args => exact ⟨container, args, rfl⟩

theorem BlockedBy.holdsNode (h : schema.BlockedBy type obstacle) : schema.HoldsNode type := by
  obtain ⟨d, hd, hname⟩ := h.isObstacle.holdsNode
  exact ⟨d, hd, h.within.atoms_subset hname⟩

theorem blockedBy_self (h : schema.Obstacle type) : schema.BlockedBy type type :=
  ⟨.self, h, fun _ hw _ => hw⟩

theorem BlockedBy.unique {other : TypeExpr} (h : schema.BlockedBy type obstacle)
    (h' : schema.BlockedBy type other) : obstacle = other :=
  (h'.outermost _ h.within h.isObstacle).antisymm (h.outermost _ h'.within h'.isObstacle)

theorem not_blockedBy_atomic {name : String} : ¬schema.BlockedBy (.atomic name) obstacle := by
  intro h
  have ho := h.isObstacle
  cases h.within with
  | self => exact ho

theorem blockedBy_entered (hc : container ∈ TypeExpr.entered) :
    schema.BlockedBy (.generic container [arg]) obstacle ↔ schema.BlockedBy arg obstacle := by
  have hwithin {part : TypeExpr} (ho : schema.Obstacle part) :
      part.Within (.generic container [arg]) ↔ part.Within arg := by
    constructor
    · intro h
      cases h with
      | self => exact absurd ⟨hc, rfl⟩ ho.2
      | arg hm h => exact List.mem_singleton.1 hm ▸ h
    · intro h
      exact .arg List.mem_cons_self h
  constructor
  · intro h
    have hother : ∀ other, other.Within arg → schema.Obstacle other → other.Within obstacle :=
      fun other hw ho => h.outermost other ((hwithin ho).2 hw) ho
    exact ⟨(hwithin h.isObstacle).1 h.within, h.isObstacle, hother⟩
  · intro h
    have hother : ∀ other, other.Within (.generic container [arg]) → schema.Obstacle other →
        other.Within obstacle := fun other hw ho => h.outermost other ((hwithin ho).1 hw) ho
    exact ⟨(hwithin h.isObstacle).2 h.within, h.isObstacle, hother⟩

/-- A type is walkable, or it is an entered container around a type that is not, or an obstacle. -/
theorem walkable_iff_not_blockedBy :
    schema.Walkable type ↔ ¬∃ obstacle, schema.BlockedBy type obstacle := by
  induction type using TypeExpr.induction with
  | atomic name =>
    apply iff_of_true
    · by_cases h : schema.HoldsNode (.atomic name)
      · obtain ⟨d, hd, hname⟩ := h
        exact List.mem_singleton.1 hname ▸ .node hd
      · exact .leaf h
    · intro h
      obtain ⟨obstacle, h⟩ := h
      exact not_blockedBy_atomic h
  | generic container args ih =>
    by_cases hh : schema.HoldsNode (.generic container args)
    · by_cases hc : container ∈ TypeExpr.entered ∧ args.length = 1
      · obtain ⟨hc, hl⟩ := hc
        obtain ⟨arg, rfl⟩ := List.length_eq_one_iff.1 hl
        simp only [blockedBy_entered hc, ← ih arg List.mem_cons_self]
        constructor
        · intro h
          cases h with
          | leaf hn => exact absurd hh hn
          | enter _ h => exact h
        · exact .enter hc
      · apply iff_of_false
        · intro h
          cases h with
          | leaf hn => exact hn hh
          | enter hc' => exact hc ⟨hc', rfl⟩
        · intro h
          exact h ⟨_, blockedBy_self ⟨hh, hc⟩⟩
    · apply iff_of_true (.leaf hh)
      intro h
      obtain ⟨obstacle, h⟩ := h
      exact hh h.holdsNode

end Schema

namespace NameTable

/-- A table that finds the nodes of a schema, and no others, among the names. -/
def KnowsNodes (table : NameTable) (schema : Schema) : Prop :=
  ∀ name, table.isNode name ↔ ∃ d ∈ schema.nodes, d.name = name

variable {schema : Schema} {options : Options} {table : NameTable}

theorem knowsNodes_ofSchema (hn : (schema.declarations.map (·.name)).Nodup) :
    (ofSchema schema options).KnowsNodes schema := by
  intro name
  rw [isNode, beq_iff_eq, meaning?_eq_node_iff hn]

theorem KnowsNodes.containsNode_iff (ht : table.KnowsNodes schema) {type : TypeExpr} :
    table.containsNode type ↔ schema.HoldsNode type := by
  rw [NameTable.containsNode_iff, Schema.HoldsNode]
  constructor
  · intro h
    obtain ⟨name, hname, hn⟩ := h
    obtain ⟨d, hd, rfl⟩ := (ht name).1 hn
    exact ⟨d, hd, hname⟩
  · intro h
    obtain ⟨d, hd, hname⟩ := h
    exact ⟨d.name, hname, (ht d.name).2 ⟨d, hd, rfl⟩⟩

theorem KnowsNodes.containsNode_eq_false_iff (ht : table.KnowsNodes schema) {type : TypeExpr} :
    table.containsNode type = false ↔ ¬schema.HoldsNode type := by
  rw [← ht.containsNode_iff, Bool.not_eq_true]

end NameTable

namespace Code.Step

variable {schema : Schema} {table : NameTable} {value : Operand} {container : String}
  {type arg : TypeExpr} {args : List TypeExpr}

theorem ofType?_leaf (h : table.containsNode type = false) :
    ofType? table value type = .ok none := by
  cases type with
  | atomic name =>
    rw [ofType?, if_neg]
    simpa [NameTable.containsNode] using h
  | generic container args =>
    rw [ofType?.eq_def]
    split
    next he => cases he
    next he =>
      cases he
      rw [h]
      rfl
    next he =>
      cases he
      rw [if_neg (by simp [h])]

theorem exists_fault?_entered (value : Operand) (hc : container ∈ TypeExpr.entered)
    (h : table.containsNode arg) :
    ∃ operand, fault? (ofType? table value (.generic container [arg])) =
      fault? (ofType? table operand arg) := by
  have hne : ¬(!table.containsNode (.generic container [arg])) = true := by simp [h]
  simp only [TypeExpr.entered, List.mem_cons, List.not_mem_nil, or_false] at hc
  rw [ofType?, if_neg hne]
  rcases hc with rfl | rfl | rfl
  · rw [if_pos rfl, fault?_bind fun _ => rfl]
    exact ⟨_, rfl⟩
  · rw [if_neg (by decide), if_pos rfl, fault?_bind fun _ => rfl]
    exact ⟨_, rfl⟩
  · rw [if_neg (by decide), if_neg (by decide), if_pos rfl]
    exact ⟨_, rfl⟩

theorem ofType?_obstacle (h : table.containsNode (.generic container args))
    (hn : ¬(container ∈ TypeExpr.entered ∧ args.length = 1)) :
    ofType? table value (.generic container args) =
      .error (.notWalked (.generic container args) container) := by
  rw [ofType?.eq_def]
  split
  next he => cases he
  next arg he =>
    cases he
    have hc : container ∉ TypeExpr.entered := fun hc => hn ⟨hc, rfl⟩
    simp only [TypeExpr.entered, List.mem_cons, List.not_mem_nil, or_false, not_or] at hc
    rw [if_neg (by simp [h]), if_neg hc.1, if_neg hc.2.1, if_neg hc.2.2]
  next he =>
    cases he
    rw [if_pos h]

/-- The steps for a type fail at the obstacle that blocks it, whatever value they start from. -/
theorem fault?_ofType?_eq_some_iff (ht : table.KnowsNodes schema) {fault : TypeFault} :
    fault? (ofType? table value type) = some fault ↔
      ∃ container args, schema.BlockedBy type (.generic container args) ∧
        fault = .notWalked (.generic container args) container := by
  induction type using TypeExpr.induction generalizing value with
  | atomic name =>
    rw [ofType?]
    apply iff_of_false nofun
    intro h
    obtain ⟨container, args, h, -⟩ := h
    exact Schema.not_blockedBy_atomic h
  | generic container args ih =>
    by_cases hh : schema.HoldsNode (.generic container args)
    · by_cases hc : container ∈ TypeExpr.entered ∧ args.length = 1
      · obtain ⟨hc, hl⟩ := hc
        obtain ⟨arg, rfl⟩ := List.length_eq_one_iff.1 hl
        have harg : table.containsNode arg := by simpa using ht.containsNode_iff.2 hh
        obtain ⟨operand, ho⟩ := exists_fault?_entered value hc harg
        rw [ho, ih arg List.mem_cons_self]
        simp only [Schema.blockedBy_entered hc]
      · rw [ofType?_obstacle (ht.containsNode_iff.2 hh) hc, fault?, Option.some_inj]
        constructor
        · intro h
          exact ⟨container, args, Schema.blockedBy_self ⟨hh, hc⟩, h.symm⟩
        · intro h
          obtain ⟨container', args', hb, rfl⟩ := h
          cases hb.unique (Schema.blockedBy_self ⟨hh, hc⟩)
          rfl
    · rw [ofType?_leaf (ht.containsNode_eq_false_iff.2 hh)]
      apply iff_of_false
      · intro h
        cases h
      · intro h
        obtain ⟨container', args', h, -⟩ := h
        exact hh h.holdsNode

theorem fault?_ofType?_eq_none_iff (ht : table.KnowsNodes schema) :
    fault? (ofType? table value type) = none ↔ schema.Walkable type := by
  rw [Schema.walkable_iff_not_blockedBy, Option.eq_none_iff_forall_ne_some]
  simp only [ne_eq, fault?_ofType?_eq_some_iff ht]
  constructor
  · intro h hb
    obtain ⟨obstacle, hb⟩ := hb
    obtain ⟨container, args, rfl⟩ := hb.isObstacle.exists_generic
    exact h _ ⟨container, args, hb, rfl⟩
  · intro h fault hb
    obtain ⟨container, args, hb, -⟩ := hb
    exact h ⟨_, hb⟩

end Code.Step

end NodeSchema
