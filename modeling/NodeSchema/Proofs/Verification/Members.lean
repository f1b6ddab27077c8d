import NodeSchema.Proofs.Verification.Sound

namespace NodeSchema

open Text (isUsable)

namespace TypeExpr

/-- An expression is written with identifiers, and all its atomic names have a meaning. -/
def Resolves (table : NameTable) (type : TypeExpr) : Prop :=
  type.WellNamed ∧ ∀ name ∈ type.atoms, (table.meaning? name).isSome

variable {table : NameTable} {place : Place}

theorem resolves_atomic {name : String} : (atomic name).Resolves table ↔
    Text.isIdentifier name ∧ (table.meaning? name).isSome := by
  constructor
  · intro h
    obtain ⟨⟨hn⟩, hm⟩ := h
    exact ⟨hn, hm name List.mem_cons_self⟩
  · intro h
    obtain ⟨hn, hm⟩ := h
    have hall : ∀ name' ∈ [name], (table.meaning? name').isSome := List.forall_mem_singleton.2 hm
    exact ⟨.atomic hn, hall⟩

theorem resolves_generic {container : String} {args : List TypeExpr} :
    (generic container args).Resolves table ↔
      Text.isIdentifier container ∧ args ≠ [] ∧ ∀ arg ∈ args, arg.Resolves table := by
  simp only [Resolves, atoms, atomsOf_eq_flatMap, List.mem_flatMap]
  constructor
  · intro h
    obtain ⟨hw, hm⟩ := h
    cases hw with
    | generic hn hne ha =>
      have hall : ∀ arg ∈ args, arg.WellNamed ∧
          ∀ name ∈ arg.atoms, (table.meaning? name).isSome := by
        intro arg harg
        exact ⟨ha arg harg, fun name hname => hm name ⟨arg, harg, hname⟩⟩
      exact ⟨hn, hne, hall⟩
  · intro h
    obtain ⟨hn, hne, ha⟩ := h
    constructor
    · exact .generic hn hne fun arg harg => (ha arg harg).1
    · intro name hname
      obtain ⟨arg, harg, hname⟩ := hname
      exact (ha arg harg).2 name hname

theorem faults_eq_nil_iff {type : TypeExpr} :
    type.faults table place = [] ↔ type.Resolves table := by
  induction type using TypeExpr.induction with
  | atomic name =>
    rw [faults, resolves_atomic]
    by_cases hn : Text.isIdentifier name <;> cases hm : table.meaning? name <;> simp [hn]
  | generic container args ih =>
    rw [faults, resolves_generic]
    split
    next h =>
      apply iff_of_false nofun
      intro h'
      obtain ⟨hn, hne, -⟩ := h'
      simp [hn, hne] at h
    next h =>
      obtain ⟨hn, hne⟩ : Text.isIdentifier container ∧ args ≠ [] := by simpa using h
      rw [faultsOf_eq_flatMap, List.flatMap_eq_nil_iff]
      constructor
      · intro h
        exact ⟨hn, hne, fun arg hm => (ih arg hm).1 (h arg hm)⟩
      · intro h arg hm
        exact (ih arg hm).2 (h.2.2 arg hm)

end TypeExpr

/-- Members that are all fine, with names that differ from one another and from the earlier ones. -/
def Distinct {α : Type} (key : α → String) (fine : α → Prop) (earlier : List String)
    (members : List α) : Prop :=
  (members.map key).Nodup ∧ ∀ m ∈ members, fine m ∧ key m ∉ earlier

theorem distinct_cons {α : Type} {key : α → String} {fine : α → Prop} {earlier : List String}
    {m : α} {members : List α} : Distinct key fine earlier (m :: members) ↔
      (fine m ∧ key m ∉ earlier) ∧ Distinct key fine (key m :: earlier) members := by
  rw [Distinct, Distinct, List.map_cons, List.nodup_cons, List.forall_mem_cons]
  constructor
  · intro h
    obtain ⟨⟨hm, hn⟩, hd, hs⟩ := h
    have hrest : ∀ m' ∈ members, fine m' ∧ key m' ∉ key m :: earlier := by
      intro m' h
      have hne : key m' ≠ key m := fun he => hm (he ▸ List.mem_map_of_mem h)
      rw [List.mem_cons, not_or]
      exact ⟨(hs m' h).1, hne, (hs m' h).2⟩
    exact ⟨hd, hn, hrest⟩
  · intro h
    obtain ⟨hd, hn, hs⟩ := h
    have hm : key m ∉ members.map key := by
      intro hm
      obtain ⟨m', h, he⟩ := List.mem_map.1 hm
      exact (hs m' h).2 (he ▸ List.mem_cons_self)
    have hrest : ∀ m' ∈ members, fine m' ∧ key m' ∉ earlier := by
      intro m' h
      exact ⟨(hs m' h).1, fun he => (hs m' h).2 (List.mem_cons_of_mem _ he)⟩
    exact ⟨⟨hm, hn⟩, hd, hrest⟩

theorem distinct_nil {α : Type} {key : α → String} {fine : α → Prop} {earlier : List String} :
    Distinct key fine earlier [] :=
  ⟨.nil, List.forall_mem_nil _⟩

variable {table : NameTable}

theorem Field.faults_eq_nil_iff {record : String} {earlier : List String} {fs : List Field} :
    Field.faults table record earlier fs = [] ↔
      Distinct (·.written) (fun f => f.written ≠ "span" ∧ f.type.Resolves table) earlier fs := by
  induction fs generalizing earlier with
  | nil => exact iff_of_true rfl distinct_nil
  | cons f fs ih =>
    rw [Field.faults, List.append_eq_nil_iff, distinct_cons]
    apply and_congr _ ih
    split
    next h =>
      apply iff_of_false nofun
      intro h'
      obtain ⟨⟨hs, -⟩, he⟩ := h'
      rcases Bool.or_eq_true_iff.1 h with h | h
      · exact hs (beq_iff_eq.1 h)
      · exact he (List.contains_iff_mem.1 h)
    next h =>
      rw [List.map_eq_nil_iff, TypeExpr.faults_eq_nil_iff]
      rw [Bool.or_eq_true_iff, not_or, beq_iff_eq, List.contains_iff_mem] at h
      exact ⟨fun ht => ⟨⟨h.1, ht⟩, h.2⟩, fun h => h.1.2⟩

theorem Variant.slotFaults_eq_nil_iff {union : String} {v : Variant} :
    v.slotFaults table union = [] ↔ ∀ type ∈ v.payload, type.Resolves table := by
  rw [slotFaults, List.flatMap_eq_nil_iff]
  simp only [List.map_eq_nil_iff, TypeExpr.faults_eq_nil_iff]
  constructor
  · intro h type ht
    obtain ⟨i, hi, rfl⟩ := List.getElem_of_mem ht
    exact h (v.payload[i], i) (List.mk_mem_zipIdx_iff_getElem?.2 (List.getElem?_eq_getElem hi))
  · intro h p hp
    exact h p.1 (List.fst_mem_of_mem_zipIdx hp)

theorem Variant.faults_eq_nil_iff {union : String} {earlier : List String} {vs : List Variant} :
    Variant.faults table union earlier vs = [] ↔
      Distinct (·.name) (fun v => isUsable v.name ∧ ∀ type ∈ v.payload, type.Resolves table)
        earlier vs := by
  induction vs generalizing earlier with
  | nil => exact iff_of_true rfl distinct_nil
  | cons v vs ih =>
    rw [Variant.faults, List.append_eq_nil_iff, distinct_cons]
    apply and_congr _ ih
    split
    next h =>
      apply iff_of_false nofun
      intro h'
      simp [h'.1.1] at h
    next hu =>
    split
    next h =>
      apply iff_of_false nofun
      intro h'
      exact h'.2 (List.contains_iff_mem.1 h)
    next he =>
      rw [slotFaults_eq_nil_iff]
      rw [List.contains_iff_mem] at he
      exact ⟨fun ht => ⟨⟨by simpa using hu, ht⟩, he⟩, fun h => h.1.2⟩

theorem tagFaults_eq_nil_iff {union : String} {earlier tags : List String} :
    tagFaults union earlier tags = [] ↔
      Distinct id (fun tag => isUsable tag) earlier tags := by
  induction tags generalizing earlier with
  | nil => exact iff_of_true rfl distinct_nil
  | cons tag tags ih =>
    rw [tagFaults, List.append_eq_nil_iff, distinct_cons]
    apply and_congr _ ih
    by_cases hu : isUsable tag <;> by_cases he : tag ∈ earlier <;> simp [hu, he]

/-- The checks of a declaration find nothing where its members are apart and their types resolve. -/
theorem Declaration.memberFaults_eq_nil_iff {d : Declaration} :
    d.memberFaults table = [] ↔
      d.MembersApart ∧ ∀ type ∈ d.memberTypes, type.Resolves table := by
  cases d with
  | record name fields =>
    rw [memberFaults, Field.faults_eq_nil_iff, MembersApart, memberTypes, List.forall_mem_map]
    constructor
    · intro h
      obtain ⟨hn, hs⟩ := h
      exact ⟨⟨hn, fun f hf => (hs f hf).1.1⟩, fun f hf => (hs f hf).1.2⟩
    · intro h
      obtain ⟨⟨hn, hs⟩, ht⟩ := h
      exact ⟨hn, fun f hf => ⟨⟨hs f hf, ht f hf⟩, List.not_mem_nil⟩⟩
  | union name variants =>
    rw [memberFaults, MembersApart, memberTypes]
    split
    next h =>
      apply iff_of_false (List.cons_ne_nil _ _)
      intro h'
      obtain ⟨⟨hne, -⟩, -⟩ := h'
      exact hne (List.isEmpty_iff.1 h)
    next h =>
      rw [List.isEmpty_iff] at h
      rw [Variant.faults_eq_nil_iff, List.forall_mem_flatMap]
      constructor
      · intro h'
        obtain ⟨hn, hs⟩ := h'
        exact ⟨⟨h, hn, fun v hv => (hs v hv).1.1⟩, fun v hv => (hs v hv).1.2⟩
      · intro h
        obtain ⟨⟨-, hn, hs⟩, ht⟩ := h
        exact ⟨hn, fun v hv => ⟨⟨hs v hv, ht v hv⟩, List.not_mem_nil⟩⟩
  | plain name tags =>
    rw [memberFaults, MembersApart, memberTypes, tagFaults_eq_nil_iff, Distinct, List.map_id]
    constructor
    · intro h
      obtain ⟨hn, hs⟩ := h
      exact ⟨⟨hn, fun tag ht => (hs tag ht).1⟩, List.forall_mem_nil _⟩
    · intro h
      obtain ⟨⟨hn, hs⟩, -⟩ := h
      exact ⟨hn, fun tag ht => ⟨hs tag ht, List.not_mem_nil⟩⟩

end NodeSchema
