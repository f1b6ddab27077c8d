import NodeSchema.Proofs.Verification.Sound

namespace NodeSchema

namespace NameTable

/-- A reference to one of the nodes, under the meaning that the table gives to its name. -/
def Refers (table : NameTable) (nodes : List Declaration) (d e : Declaration) : Prop :=
  e ∈ nodes ∧ d.Mentions e.name ∧ table.meaning? e.name = some .node

def MentionsAlias (table : NameTable) (d : Declaration) : Prop :=
  ∃ name, d.Mentions name ∧ table.meaning? name = some .textAlias

/-- A chain of references among the nodes leads from one of this name to one that mentions the text
alias. -/
def Chained (table : NameTable) (nodes : List Declaration) (name : String) : Prop :=
  ∃ d ∈ nodes, d.name = name ∧
    ∃ e, Relation.ReflTransGen (table.Refers nodes) d e ∧ table.MentionsAlias e

theorem borrows_iff {table : NameTable} {known : List String} {d : Declaration} :
    table.borrows known d ↔ table.MentionsAlias d ∨
      ∃ name ∈ known, d.Mentions name ∧ table.meaning? name = some .node := by
  rw [borrows, List.any_eq_true]
  simp only [List.any_eq_true]
  constructor
  · intro h
    obtain ⟨type, ht, atom, ha, h⟩ := h
    have hm : d.Mentions atom := ⟨type, ht, ha⟩
    split at h
    · next he => exact .inl ⟨atom, hm, he⟩
    · next he => exact .inr ⟨atom, by simpa using h, hm, he⟩
    · cases h
  · intro h
    rcases h with ⟨atom, ⟨type, ht, ha⟩, he⟩ | ⟨atom, hk, ⟨type, ht, ha⟩, he⟩
    · exact ⟨type, ht, atom, ha, by simp only [he]⟩
    · exact ⟨type, ht, atom, ha, by simpa only [he, List.contains_eq_mem, decide_eq_true_eq]⟩

theorem chained_enter {table : NameTable} {nodes : List Declaration} {known : List String}
    (hk : ∀ name ∈ known, table.Chained nodes name) {d : Declaration} (hd : d ∈ nodes) :
    ∀ name ∈ table.enter known d, table.Chained nodes name := by
  intro name hm
  rw [enter] at hm
  split at hm
  · exact hk name hm
  split at hm
  · next hb =>
    rcases List.mem_cons.1 hm with rfl | hm
    · rcases borrows_iff.1 hb with ha | ⟨name, hn, hmen, he⟩
      · exact ⟨d, hd, rfl, d, .refl, ha⟩
      · obtain ⟨d', hd', rfl, e, hc, ha⟩ := hk name hn
        exact ⟨d, hd, rfl, e, .head ⟨hd', hmen, he⟩ hc, ha⟩
    · exact hk name hm
  · exact hk name hm

theorem chained_pass {table : NameTable} {nodes : List Declaration} {known : List String}
    (hk : ∀ name ∈ known, table.Chained nodes name) {ds : List Declaration}
    (hd : ∀ d ∈ ds, d ∈ nodes) : ∀ name ∈ table.pass ds known, table.Chained nodes name := by
  induction ds generalizing known with
  | nil => exact hk
  | cons d ds ih =>
    exact ih (chained_enter hk (hd d List.mem_cons_self))
      fun e he => hd e (List.mem_cons_of_mem _ he)

theorem chained_iterate {table : NameTable} {nodes : List Declaration} (n : Nat) :
    ∀ name ∈ (table.pass nodes)^[n] [], table.Chained nodes name := by
  induction n with
  | zero => exact List.forall_mem_nil _
  | succ n ih =>
    rw [Function.iterate_succ_apply']
    exact chained_pass ih fun _ hd => hd

theorem chained_settle {table : NameTable} {nodes : List Declaration} {known : List String}
    (hk : ∀ name ∈ known, table.Chained nodes name) :
    ∀ name ∈ table.settle nodes known, table.Chained nodes name := by
  induction known using settle.induct table nodes with
  | case1 known h =>
    rw [settle, if_pos h]
    exact hk
  | case2 known h ih =>
    rw [settle, if_neg h]
    exact ih (chained_pass hk fun _ hd => hd)

theorem borrows_mono {table : NameTable} {known known' : List String}
    (h : ∀ name ∈ known, name ∈ known') {d : Declaration} (hb : table.borrows known d) :
    table.borrows known' d := by
  rcases borrows_iff.1 hb with ha | ⟨name, hn, hm⟩
  · exact borrows_iff.2 (.inl ha)
  · exact borrows_iff.2 (.inr ⟨name, h name hn, hm⟩)

/-- A pass adds every node that already borrows when the pass begins. -/
theorem mem_pass_of_borrows {table : NameTable} {nodes : List Declaration} {known : List String}
    {d : Declaration} (hd : d ∈ nodes) (hb : table.borrows known d) :
    d.name ∈ table.pass nodes known := by
  induction nodes generalizing known with
  | nil => cases hd
  | cons e nodes ih =>
    rw [pass, List.foldl_cons, ← pass]
    rcases List.mem_cons.1 hd with rfl | hd
    · apply mem_pass_of_mem
      rw [enter]
      split
      · next h => simpa using h
      · exact List.mem_cons_self
    · exact ih hd (borrows_mono (fun _ => mem_enter_of_mem) hb)

theorem pass_settle (table : NameTable) (nodes : List Declaration) (known : List String) :
    table.pass nodes (table.settle nodes known) = table.settle nodes known := by
  induction known using settle.induct table nodes with
  | case1 known h => rw [settle, if_pos h, h]
  | case2 known h ih =>
    rw [settle, if_neg h]
    exact ih

/-- The settled set is reached by a number of passes behind which one more adds nothing. -/
theorem settle_eq_iterate {table : NameTable} {nodes : List Declaration} {known : List String}
    (n : Nat) (h : table.pass nodes ((table.pass nodes)^[n] known) = (table.pass nodes)^[n] known) :
    table.settle nodes known = (table.pass nodes)^[n] known := by
  induction n generalizing known with
  | zero =>
    rw [settle]
    exact if_pos h
  | succ n ih =>
    rw [settle]
    split
    next hf => exact (Function.iterate_fixed hf (n + 1)).symm
    next => exact ih h

theorem mem_settle_iff {table : NameTable} {nodes : List Declaration} {name : String} :
    name ∈ table.settle nodes [] ↔ table.Chained nodes name := by
  constructor
  · intro h
    exact chained_settle (List.forall_mem_nil _) name h
  · intro h
    obtain ⟨d, hd, rfl, e, hc, ha⟩ := h
    have hclosed {d : Declaration} (hd : d ∈ nodes)
        (hb : table.borrows (table.settle nodes []) d) : d.name ∈ table.settle nodes [] := by
      rw [← pass_settle]
      exact mem_pass_of_borrows hd hb
    induction hc using Relation.ReflTransGen.head_induction_on with
    | refl => exact hclosed hd (borrows_iff.2 (.inl ha))
    | @head d e' hr _ ih =>
      obtain ⟨he, hm, hn⟩ := hr
      exact hclosed hd (borrows_iff.2 (.inr ⟨e'.name, ih he, hm, hn⟩))

end NameTable

end NodeSchema
