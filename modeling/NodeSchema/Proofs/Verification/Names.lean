import Mathlib.Data.List.Nodup
import NodeSchema.Proofs.Verification.Sound

namespace NodeSchema

open Text (isUsable snakeCase)

theorem Options.faults_eq_nil_iff {options : Options} :
    options.faults = [] ↔ isUsable options.lifetime ∧ isUsable options.textAlias := by
  by_cases hl : isUsable options.lifetime <;> by_cases ha : isUsable options.textAlias <;>
    simp [faults, hl, ha]

namespace NameTable

theorem lookup_map_foreign (names : List String) (name : String) :
    (names.map (·, Meaning.foreign)).lookup name =
      if name ∈ names then some Meaning.foreign else none := by
  induction names with
  | nil => rfl
  | cons n names ih =>
    rw [List.map_cons, List.lookup_cons, ih]
    by_cases h : name = n
    · simp [h]
    · have hb : (name == n) = false := beq_eq_false_iff_ne.2 h
      simp [hb, h]

theorem lookup_ofOptions (options : Options) (name : String) :
    (ofOptions options).lookup name =
      if name = options.textAlias then some .textAlias
      else if name ∈ options.opaqueTypes ∨ name ∈ primitiveTypes then some .foreign
      else none := by
  rw [ofOptions, List.lookup_cons, lookup_map_foreign]
  by_cases h : name = options.textAlias
  · simp [h]
  · have hb : (name == options.textAlias) = false := beq_eq_false_iff_ne.2 h
    simp [hb, h]

theorem lookup_ofOptions_eq_none_iff {options : Options} {name : String} :
    (ofOptions options).lookup name = none ↔
      name ≠ options.textAlias ∧ name ∉ primitiveTypes ∧ name ∉ options.opaqueTypes := by
  rw [lookup_ofOptions]
  by_cases ha : name = options.textAlias
  · simp [ha]
  · rw [if_neg ha]
    by_cases hf : name ∈ options.opaqueTypes ∨ name ∈ primitiveTypes
    · rw [if_pos hf]
      constructor
      · intro h
        cases h
      · intro h
        obtain ⟨-, hp, ho⟩ := h
        exact absurd hf (by simp [hp, ho])
    · rw [if_neg hf]
      rw [not_or] at hf
      exact iff_of_true rfl ⟨ha, hf.2, hf.1⟩

section Declared

variable {ds : List Declaration} {rest : List (String × Meaning)}

theorem lookup_declared (hn : (ds.map (·.name)).Nodup) {d : Declaration} (hd : d ∈ ds) :
    (ds.map (fun d => (d.name, d.meaning)) ++ rest).lookup d.name = some d.meaning := by
  induction ds with
  | nil => cases hd
  | cons e ds ih =>
    rw [List.map_cons, List.nodup_cons] at hn
    rw [List.map_cons, List.cons_append, List.lookup_cons]
    rcases List.mem_cons.1 hd with rfl | hd
    · simp
    · have hne : (d.name == e.name) = false :=
        beq_eq_false_iff_ne.2 fun he => hn.1 (he ▸ List.mem_map_of_mem hd)
      rw [hne]
      exact ih hn.2 hd

theorem lookup_undeclared {name : String} (h : ∀ d ∈ ds, d.name ≠ name) :
    (ds.map (fun d => (d.name, d.meaning)) ++ rest).lookup name = rest.lookup name := by
  induction ds with
  | nil => rfl
  | cons d ds ih =>
    rw [List.forall_mem_cons] at h
    rw [List.map_cons, List.cons_append, List.lookup_cons, beq_eq_false_iff_ne.2 h.1.symm]
    exact ih h.2

end Declared

section OfSchema

variable {schema : Schema} {options : Options}

theorem meaning?_declared (hn : (schema.declarations.map (·.name)).Nodup) {d : Declaration}
    (hd : d ∈ schema.declarations) : (ofSchema schema options).meaning? d.name = some d.meaning :=
  lookup_declared (by simpa using List.nodup_reverse.2 hn) (List.mem_reverse.2 hd)

theorem meaning?_undeclared {name : String} (h : ∀ d ∈ schema.declarations, d.name ≠ name) :
    (ofSchema schema options).meaning? name = (ofOptions options).lookup name :=
  lookup_undeclared fun d hd => h d (List.mem_reverse.1 hd)

/-- A name means a node where a record or a union is declared under it. -/
theorem meaning?_eq_node_iff (hn : (schema.declarations.map (·.name)).Nodup) {name : String} :
    (ofSchema schema options).meaning? name = some .node ↔ ∃ d ∈ schema.nodes, d.name = name := by
  by_cases h : ∃ d ∈ schema.declarations, d.name = name
  · obtain ⟨d, hd, rfl⟩ := h
    rw [meaning?_declared hn hd, Option.some_inj, Declaration.meaning]
    constructor
    · intro h
      split at h
      next hi => exact ⟨d, List.mem_filter.2 ⟨hd, hi⟩, rfl⟩
      · cases h
    · intro h
      obtain ⟨e, he, heq⟩ := h
      obtain ⟨he, hi⟩ := List.mem_filter.1 he
      rw [← List.inj_on_of_nodup_map hn he hd heq, if_pos hi]
  · have hne : ∀ d ∈ schema.declarations, d.name ≠ name := fun d hd he => h ⟨d, hd, he⟩
    rw [meaning?_undeclared hne, lookup_ofOptions]
    apply iff_of_false
    · split
      · nofun
      split
      · nofun
      · nofun
    · intro h'
      obtain ⟨d, hd, he⟩ := h'
      exact hne d (List.mem_of_mem_filter hd) he

theorem meaning?_eq_textAlias_iff (hn : (schema.declarations.map (·.name)).Nodup)
    (ha : ∀ d ∈ schema.declarations, d.name ≠ options.textAlias) {name : String} :
    (ofSchema schema options).meaning? name = some .textAlias ↔ name = options.textAlias := by
  by_cases h : ∃ d ∈ schema.declarations, d.name = name
  · obtain ⟨d, hd, rfl⟩ := h
    rw [meaning?_declared hn hd, Option.some_inj, Declaration.meaning]
    apply iff_of_false _ (ha d hd)
    split
    · nofun
    · nofun
  · rw [meaning?_undeclared fun d hd he => h ⟨d, hd, he⟩, lookup_ofOptions]
    by_cases hname : name = options.textAlias
    · simp [hname]
    · apply iff_of_false _ hname
      rw [if_neg hname]
      split
      · nofun
      · nofun

theorem isSome_meaning?_iff (hn : (schema.declarations.map (·.name)).Nodup) {name : String} :
    ((ofSchema schema options).meaning? name).isSome ↔ schema.Knows options name := by
  by_cases h : ∃ d ∈ schema.declarations, d.name = name
  · apply iff_of_true _ (.inl h)
    obtain ⟨d, hd, rfl⟩ := h
    rw [meaning?_declared hn hd]
    rfl
  · rw [meaning?_undeclared fun d hd he => h ⟨d, hd, he⟩, ← Option.ne_none_iff_isSome, Ne,
      lookup_ofOptions_eq_none_iff, Schema.Knows, or_iff_right h]
    tauto

end OfSchema

end NameTable

namespace Declaration

/-- Two declarations do not claim the same name or the same method of the visitor. -/
def Apart (d e : Declaration) : Prop :=
  d.name ≠ e.name ∧ (d.isNode → e.isNode → snakeCase d.name ≠ snakeCase e.name)

theorem nameFault?_eq_none_iff {options : Options} {earlier : List Declaration} {d : Declaration} :
    d.nameFault? options earlier = none ↔
      Schema.FreeName options d.name ∧ ∀ e ∈ earlier, Apart e d := by
  have hfree (hu : isUsable d.name) (hr : d.name ∉ reservedNames) :
      Schema.FreeName options d.name ↔ (NameTable.ofOptions options).lookup d.name = none := by
    rw [NameTable.lookup_ofOptions_eq_none_iff]
    constructor
    · intro h
      exact ⟨h.ne_textAlias, h.not_primitive, h.not_opaque⟩
    · intro h
      exact ⟨hu, hr, h.1, h.2.1, h.2.2⟩
  rw [nameFault?]
  split
  next hu =>
    apply iff_of_false nofun
    intro h
    simp [h.1.usable] at hu
  next hu =>
  split
  next hr =>
    apply iff_of_false nofun
    intro h
    exact h.1.not_reserved (by simpa using hr)
  next hr =>
  split
  next hd =>
    apply iff_of_false nofun
    intro h
    obtain ⟨e, he, hn⟩ := List.any_eq_true.1 hd
    exact (h.2 e he).1 (by simpa using hn)
  next hd =>
  have hn : ∀ e ∈ earlier, e.name ≠ d.name := by simpa using hd
  rw [hfree (by simpa using hu) (by simpa using hr)]
  split
  next ho => exact iff_of_false nofun fun h => nomatch ho.symm.trans h.1
  next ho => exact iff_of_false nofun fun h => nomatch ho.symm.trans h.1
  next ho =>
  rw [ho, eq_self_iff_true, true_and]
  split
  next hi =>
    rw [Option.map_eq_none_iff, List.find?_eq_none]
    simp only [Apart, hi, Bool.and_eq_true, beq_iff_eq, not_and, true_imp_iff]
    apply forall₂_congr
    intro e he
    simp [hn e he]
  next hi =>
    apply iff_of_true rfl
    intro e he
    exact ⟨hn e he, fun _ h => absurd h hi⟩

theorem nameFaults_eq_nil_iff {options : Options} {earlier ds : List Declaration} :
    nameFaults options earlier ds = [] ↔
      (∀ d ∈ ds, Schema.FreeName options d.name) ∧ ds.Pairwise Apart ∧
        ∀ e ∈ earlier, ∀ d ∈ ds, Apart e d := by
  induction ds generalizing earlier with
  | nil =>
    have hearlier : ∀ e ∈ earlier, ∀ d ∈ [], Apart e d := fun _ _ => List.forall_mem_nil _
    exact iff_of_true rfl ⟨List.forall_mem_nil _, .nil, hearlier⟩
  | cons d ds ih =>
    rw [nameFaults, List.append_eq_nil_iff, List.map_eq_nil_iff, Option.toList_eq_nil_iff,
      nameFault?_eq_none_iff, ih, List.forall_mem_cons, List.pairwise_cons, List.forall_mem_cons]
    constructor
    · intro h
      obtain ⟨⟨hd, he⟩, hds, hp, hd', he'⟩ := h
      have hall : ∀ e ∈ earlier, Apart e d ∧ ∀ d' ∈ ds, Apart e d' :=
        fun e hm => ⟨he e hm, he' e hm⟩
      simp only [List.forall_mem_cons]
      exact ⟨⟨hd, hds⟩, ⟨hd', hp⟩, hall⟩
    · intro h
      obtain ⟨⟨hd, hds⟩, ⟨hd', hp⟩, he⟩ := h
      have hearlier : ∀ e ∈ earlier, Apart e d := fun e hm => he e hm d List.mem_cons_self
      have hrest : ∀ e ∈ earlier, ∀ d' ∈ ds, Apart e d' :=
        fun e hm d' hm' => he e hm d' (List.mem_cons_of_mem _ hm')
      exact ⟨⟨hd, hearlier⟩, hds, hp, hd', hrest⟩

theorem pairwise_apart_iff {ds : List Declaration} :
    ds.Pairwise Apart ↔ (ds.map (·.name)).Nodup ∧
      ((ds.filter (·.isNode)).map fun d => snakeCase d.name).Nodup := by
  simp only [List.nodup_iff_pairwise_ne, List.pairwise_map, List.pairwise_filter,
    ← List.pairwise_and_iff]
  rfl

end Declaration

end NodeSchema
