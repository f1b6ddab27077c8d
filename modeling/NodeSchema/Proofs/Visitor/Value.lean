import Mathlib.Data.List.Forall2
import NodeSchema.Proofs.Verification.Sound

namespace NodeSchema

inductive Value where
  /-- A value that is not looked into. -/
  | leaf (content : String)
  | record (name : String) (labels : List String) (values : List Value)
  | union (name variant : String) (slots : List Value)
  | sequence (items : List Value)
  | absent
  | present (value : Value)
  | boxed (value : Value)

namespace Value

mutual

/-- The nodes that occur in a value, each under its name: a node before what it holds, and what it
holds in order. -/
def nodes : Value → List (String × Value)
  | .leaf _ => []
  | .record name labels values => (name, .record name labels values) :: nodesOf values
  | .union name variant slots => (name, .union name variant slots) :: nodesOf slots
  | .sequence items => nodesOf items
  | .absent => []
  | .present value => value.nodes
  | .boxed value => value.nodes

def nodesOf : List Value → List (String × Value)
  | [] => []
  | value :: values => value.nodes ++ nodesOf values

end

@[simp] theorem nodesOf_eq_flatMap (values : List Value) :
    nodesOf values = values.flatMap nodes := by
  induction values with
  | nil => rfl
  | cons value values ih => rw [nodesOf, ih, List.flatMap_cons]

theorem nodes_record (name : String) (labels : List String) (span : String)
    (values : List Value) :
    (record name labels (.leaf span :: values)).nodes =
      (name, record name labels (.leaf span :: values)) :: values.flatMap nodes := by
  rw [nodes, nodesOf_eq_flatMap]
  rfl

theorem nodes_union (name variant span : String) (slots : List Value) :
    (union name variant (.leaf span :: slots)).nodes =
      (name, union name variant (.leaf span :: slots)) :: slots.flatMap nodes := by
  rw [nodes, nodesOf_eq_flatMap]
  rfl

theorem length_nodes_le {value : Value} {values : List Value} (h : value ∈ values) :
    value.nodes.length ≤ (values.flatMap nodes).length := by
  obtain ⟨before, after, rfl⟩ := List.append_of_mem h
  simp only [List.flatMap_append, List.flatMap_cons, List.length_append]
  omega

end Value

namespace NameTable

theorem containsNode_generic (table : NameTable) (container : String) (args : List TypeExpr) :
    table.containsNode (.generic container args) = args.any table.containsNode := by
  rw [containsNode, anyContainsNode_eq_any]

theorem containsNode_iff {table : NameTable} {type : TypeExpr} :
    table.containsNode type ↔ ∃ name ∈ type.atoms, table.isNode name := by
  induction type using TypeExpr.induction with
  | atomic name => simp only [containsNode, TypeExpr.atoms, List.mem_singleton, exists_eq_left]
  | generic container args ih =>
    simp only [containsNode_generic, List.any_eq_true, TypeExpr.atoms, TypeExpr.atomsOf_eq_flatMap,
      List.mem_flatMap]
    constructor
    · intro h
      obtain ⟨arg, hm, h⟩ := h
      obtain ⟨name, hname, hn⟩ := (ih arg hm).1 h
      exact ⟨name, ⟨arg, hm, hname⟩, hn⟩
    · intro h
      obtain ⟨name, ⟨arg, hm, hname⟩, hn⟩ := h
      exact ⟨arg, hm, (ih arg hm).2 ⟨name, hname, hn⟩⟩

@[simp] theorem containsNode_single (table : NameTable) (container : String) (arg : TypeExpr) :
    table.containsNode (.generic container [arg]) = table.containsNode arg := by
  rw [containsNode_generic, List.any_cons, List.any_nil, Bool.or_false]

end NameTable

namespace Schema

/-- Types whose values are not looked into: they hold no nodes, and none of the containers with a
known form stands outside. -/
def IsLeaf (schema : Schema) : TypeExpr → Prop
  | .atomic name => ∀ d ∈ schema.nodes, d.name ≠ name
  | .generic container args =>
    (∀ d ∈ schema.nodes, ∀ arg ∈ args, d.name ∉ arg.atoms) ∧
      ∀ arg, args = [arg] →
        container ≠ TypeExpr.sequence ∧ container ≠ TypeExpr.optional ∧ container ≠ TypeExpr.owned

/-- The values of a type. A record holds its span before the fields, under their written names, and
a union its span before the slots of one of its variants. -/
inductive HasType (schema : Schema) : TypeExpr → Value → Prop where
  | leaf {type : TypeExpr} {content : String} (h : schema.IsLeaf type) :
    HasType schema type (.leaf content)
  | record {name span : String} {fields : List Field} {values : List Value}
      (hd : .record name fields ∈ schema.declarations)
      (hv : List.Forall₂ (HasType schema) (fields.map (·.type)) values) :
    HasType schema (.atomic name)
      (.record name ("span" :: fields.map (·.written)) (.leaf span :: values))
  | union {name span : String} {variants : List Variant} {variant : Variant} {slots : List Value}
      (hd : .union name variants ∈ schema.declarations) (hm : variant ∈ variants)
      (hv : List.Forall₂ (HasType schema) variant.payload slots) :
    HasType schema (.atomic name) (.union name variant.name (.leaf span :: slots))
  | sequence {arg : TypeExpr} {items : List Value} (h : ∀ item ∈ items, HasType schema arg item) :
    HasType schema (.generic TypeExpr.sequence [arg]) (.sequence items)
  | absent {arg : TypeExpr} : HasType schema (.generic TypeExpr.optional [arg]) .absent
  | present {arg : TypeExpr} {value : Value} (h : HasType schema arg value) :
    HasType schema (.generic TypeExpr.optional [arg]) (.present value)
  | boxed {arg : TypeExpr} {value : Value} (h : HasType schema arg value) :
    HasType schema (.generic TypeExpr.owned [arg]) (.boxed value)

variable {schema : Schema} {arg : TypeExpr} {value : Value}

theorem HasType.sequence_inv (h : schema.HasType (.generic TypeExpr.sequence [arg]) value) :
    ∃ items, value = .sequence items ∧ ∀ item ∈ items, schema.HasType arg item := by
  generalize ht : TypeExpr.generic TypeExpr.sequence [arg] = type at h
  cases h with
  | leaf hl => exact absurd rfl ((ht ▸ hl).2 arg rfl).1
  | record => cases ht
  | union => cases ht
  | sequence h =>
    cases ht
    exact ⟨_, rfl, h⟩
  | absent => simp [TypeExpr.sequence, TypeExpr.optional] at ht
  | present => simp [TypeExpr.sequence, TypeExpr.optional] at ht
  | boxed => simp [TypeExpr.sequence, TypeExpr.owned] at ht

theorem HasType.optional_inv (h : schema.HasType (.generic TypeExpr.optional [arg]) value) :
    value = .absent ∨ ∃ inner, value = .present inner ∧ schema.HasType arg inner := by
  generalize ht : TypeExpr.generic TypeExpr.optional [arg] = type at h
  cases h with
  | leaf hl => exact absurd rfl ((ht ▸ hl).2 arg rfl).2.1
  | record => cases ht
  | union => cases ht
  | sequence => simp [TypeExpr.sequence, TypeExpr.optional] at ht
  | absent => exact .inl rfl
  | present h =>
    cases ht
    exact .inr ⟨_, rfl, h⟩
  | boxed => simp [TypeExpr.optional, TypeExpr.owned] at ht

theorem HasType.owned_inv (h : schema.HasType (.generic TypeExpr.owned [arg]) value) :
    ∃ inner, value = .boxed inner ∧ schema.HasType arg inner := by
  generalize ht : TypeExpr.generic TypeExpr.owned [arg] = type at h
  cases h with
  | leaf hl => exact absurd rfl ((ht ▸ hl).2 arg rfl).2.2
  | record => cases ht
  | union => cases ht
  | sequence => simp [TypeExpr.sequence, TypeExpr.owned] at ht
  | absent => simp [TypeExpr.optional, TypeExpr.owned] at ht
  | present => simp [TypeExpr.optional, TypeExpr.owned] at ht
  | boxed h =>
    cases ht
    exact ⟨_, rfl, h⟩

theorem HasType.nodes_ne_nil {d : Declaration} (hd : d ∈ schema.nodes)
    (h : schema.HasType (.atomic d.name) value) : value.nodes ≠ [] := by
  generalize hname : d.name = name at h
  cases h with
  | leaf hl => exact absurd hname (hl d hd)
  | record => exact List.cons_ne_nil _ _
  | union => exact List.cons_ne_nil _ _

theorem HasType.nodes_eq_nil {table : NameTable}
    (ht : ∀ d ∈ schema.nodes, table.isNode d.name) {type : TypeExpr} {value : Value}
    (h : schema.HasType type value) (hc : table.containsNode type = false) : value.nodes = [] := by
  induction type using TypeExpr.induction generalizing value with
  | atomic name =>
    have hnot : ∀ d ∈ schema.declarations, d.isNode → d.name ≠ name := by
      intro d hd hi he
      subst he
      exact absurd (ht d (List.mem_filter.2 ⟨hd, hi⟩)) (by simpa [NameTable.containsNode] using hc)
    cases h with
    | leaf => rfl
    | record hd => exact absurd rfl (hnot _ hd rfl)
    | union hd => exact absurd rfl (hnot _ hd rfl)
  | generic container args ih =>
    cases h with
    | leaf => rfl
    | sequence h =>
      rw [NameTable.containsNode_single] at hc
      rw [Value.nodes, Value.nodesOf_eq_flatMap, List.flatMap_eq_nil_iff]
      intro item hi
      exact ih _ List.mem_cons_self (h item hi) hc
    | absent => rfl
    | present h =>
      rw [NameTable.containsNode_single] at hc
      rw [Value.nodes]
      exact ih _ List.mem_cons_self h hc
    | boxed h =>
      rw [NameTable.containsNode_single] at hc
      rw [Value.nodes]
      exact ih _ List.mem_cons_self h hc

end Schema

end NodeSchema
