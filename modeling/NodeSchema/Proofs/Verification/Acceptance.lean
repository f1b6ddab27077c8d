import NodeSchema.Proofs.Verification.Chains
import NodeSchema.Proofs.Verification.Members
import NodeSchema.Proofs.Verification.Names

namespace NodeSchema

open Text (isUsable snakeCase)

namespace Schema

variable {schema : Schema} {options : Options}

theorem refers_iff (hn : (schema.declarations.map (·.name)).Nodup) {d e : Declaration} :
    (NameTable.ofSchema schema options).Refers schema.nodes d e ↔ schema.Refers d e := by
  constructor
  · intro h
    obtain ⟨he, hm, -⟩ := h
    exact ⟨he, hm⟩
  · intro h
    obtain ⟨he, hm⟩ := h
    exact ⟨he, hm, (NameTable.meaning?_eq_node_iff hn).2 ⟨e, he, rfl⟩⟩

theorem mentionsAlias_iff (hn : (schema.declarations.map (·.name)).Nodup)
    (ha : ∀ d ∈ schema.declarations, d.name ≠ options.textAlias) {d : Declaration} :
    (NameTable.ofSchema schema options).MentionsAlias d ↔ d.Mentions options.textAlias := by
  constructor
  · intro h
    obtain ⟨name, hm, h⟩ := h
    rwa [← (NameTable.meaning?_eq_textAlias_iff hn ha).1 h]
  · intro hm
    exact ⟨options.textAlias, hm, (NameTable.meaning?_eq_textAlias_iff hn ha).2 rfl⟩

/-- The nodes whose names are found to borrow are the ones that lead to the text alias. -/
theorem mem_borrowing_iff (hn : (schema.declarations.map (·.name)).Nodup)
    (ha : ∀ d ∈ schema.declarations, d.name ≠ options.textAlias) {d : Declaration}
    (hd : d ∈ schema.nodes) :
    d.name ∈ schema.borrowing (NameTable.ofSchema schema options) ↔
      schema.LeadsTo d options.textAlias := by
  have hr : (NameTable.ofSchema schema options).Refers schema.nodes = schema.Refers :=
    funext₂ fun _ _ => propext (refers_iff hn)
  rw [borrowing, NameTable.mem_settle_iff, NameTable.Chained, LeadsTo, hr]
  simp only [mentionsAlias_iff hn ha]
  constructor
  · intro h
    obtain ⟨d', hd', he, h⟩ := h
    rwa [← List.inj_on_of_nodup_map hn (List.mem_of_mem_filter hd') (List.mem_of_mem_filter hd) he]
  · intro h
    exact ⟨d, hd, rfl, h⟩

theorem leadsTo_of_mem_passes (hn : (schema.declarations.map (·.name)).Nodup)
    (ha : ∀ d ∈ schema.declarations, d.name ≠ options.textAlias) {d : Declaration}
    (hd : d ∈ schema.nodes) {n : Nat}
    (h : d.name ∈ ((NameTable.ofSchema schema options).pass schema.nodes)^[n] []) :
    schema.LeadsTo d options.textAlias := by
  have hchained := NameTable.chained_iterate n d.name h
  exact (mem_borrowing_iff hn ha hd).1 (NameTable.mem_settle_iff.2 hchained)

theorem lifetimeFaults_eq_nil_iff (hn : (schema.declarations.map (·.name)).Nodup)
    (ha : ∀ d ∈ schema.declarations, d.name ≠ options.textAlias) :
    schema.lifetimeFaults options (NameTable.ofSchema schema options) = [] ↔
      ∀ d ∈ schema.nodes, schema.LeadsTo d options.textAlias := by
  rw [lifetimeFaults, List.map_eq_nil_iff, List.filter_eq_nil_iff]
  apply forall₂_congr
  intro d hd
  rw [← mem_borrowing_iff hn ha hd]
  simp

/-- A schema is verified if it has no other faults and a number of passes, behind which one more
adds nothing, finds all its nodes to borrow. -/
theorem verify_of_passes (n : Nat)
    (hpass : (NameTable.ofSchema schema options).pass schema.nodes
      (((NameTable.ofSchema schema options).pass schema.nodes)^[n] []) =
        ((NameTable.ofSchema schema options).pass schema.nodes)^[n] [])
    (hborrows : ∀ d ∈ schema.nodes,
      d.name ∈ ((NameTable.ofSchema schema options).pass schema.nodes)^[n] [])
    (hfaults : options.faults ++ Declaration.nameFaults options [] schema.declarations
      ++ schema.declarations.flatMap (·.memberFaults (.ofSchema schema options)) = []) :
    schema.verify options = .ok (.ofSchema schema options) := by
  have hsettle : schema.borrowing (.ofSchema schema options) =
      ((NameTable.ofSchema schema options).pass schema.nodes)^[n] [] :=
    NameTable.settle_eq_iterate n hpass
  have hlifetimes : schema.lifetimeFaults options (.ofSchema schema options) = [] := by
    rw [lifetimeFaults, hsettle, List.map_eq_nil_iff, List.filter_eq_nil_iff]
    simpa using hborrows
  apply verify_eq_ok_iff.2
  rw [faults, hlifetimes, List.append_nil]
  exact ⟨hfaults, rfl⟩

theorem resolves_iff (hn : (schema.declarations.map (·.name)).Nodup) {d : Declaration} :
    (∀ type ∈ d.memberTypes, type.Resolves (NameTable.ofSchema schema options)) ↔
      (∀ type ∈ d.memberTypes, type.WellNamed) ∧
        ∀ name, d.Mentions name → schema.Knows options name := by
  simp only [TypeExpr.Resolves, NameTable.isSome_meaning?_iff hn]
  constructor
  · intro h
    have hk : ∀ name, d.Mentions name → schema.Knows options name := by
      intro name hm
      obtain ⟨type, ht, hname⟩ := hm
      exact (h type ht).2 name hname
    exact ⟨fun type ht => (h type ht).1, hk⟩
  · intro h type ht
    obtain ⟨hw, hk⟩ := h
    exact ⟨hw type ht, fun name hname => hk name ⟨type, ht, hname⟩⟩

theorem faults_eq_nil_iff : schema.faults options = [] ↔ schema.Sound options := by
  rw [faults, List.append_eq_nil_iff, List.append_eq_nil_iff, List.append_eq_nil_iff,
    Options.faults_eq_nil_iff, Declaration.nameFaults_eq_nil_iff, Declaration.pairwise_apart_iff,
    List.flatMap_eq_nil_iff]
  simp only [Declaration.memberFaults_eq_nil_iff]
  constructor
  · intro h
    obtain ⟨⟨⟨⟨hl, ha⟩, hf, ⟨hn, hs⟩, -⟩, hm⟩, hb⟩ := h
    have ht := fun d hd => (resolves_iff hn).1 (hm d hd).2
    have hne := fun d hd => (hf d hd).ne_textAlias
    have hborrows := (lifetimeFaults_eq_nil_iff hn hne).1 hb
    exact ⟨hl, ha, hf, hn, hs, fun d hd => (hm d hd).1, fun d hd => (ht d hd).1,
      fun d hd => (ht d hd).2, hborrows⟩
  · intro h
    have hne := fun d hd => (h.freeNames d hd).ne_textAlias
    have hborrows := (lifetimeFaults_eq_nil_iff h.declaredOnce hne).2 h.borrows
    have hmembers : ∀ d ∈ schema.declarations, d.MembersApart ∧
        ∀ type ∈ d.memberTypes, type.Resolves (.ofSchema schema options) := by
      intro d hd
      have hresolves := (resolves_iff h.declaredOnce).2 ⟨h.wellNamed d hd, h.known d hd⟩
      exact ⟨h.membersApart d hd, hresolves⟩
    exact ⟨⟨⟨⟨h.lifetime, h.textAlias⟩, h.freeNames, ⟨h.declaredOnce, h.methodsApart⟩,
      List.forall_mem_nil _⟩, hmembers⟩, hborrows⟩

/-- A schema is accepted if and only if it is sound. -/
theorem verifies_iff_sound (schema : Schema) (options : Options) :
    (∃ table, schema.verify options = .ok table) ↔ schema.Sound options := by
  rw [← faults_eq_nil_iff]
  constructor
  · intro h
    obtain ⟨table, h⟩ := h
    exact (verify_eq_ok_iff.1 h).1
  · intro h
    exact ⟨_, verify_eq_ok_iff.2 ⟨h, rfl⟩⟩

end Schema

end NodeSchema
