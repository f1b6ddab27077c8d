import NodeSchema.NameTable

namespace NodeSchema

namespace NameTable

/-- Whether a declaration mentions borrowed text, or a node that is known to borrow. -/
def borrows (table : NameTable) (known : List String) (declaration : Declaration) : Bool :=
  declaration.memberTypes.any fun type =>
    type.atoms.any fun atom =>
      match table.meaning? atom with
      | some .textAlias => true
      | some .node => known.contains atom
      | _ => false

def enter (table : NameTable) (known : List String) (declaration : Declaration) : List String :=
  if known.contains declaration.name then known
  else if table.borrows known declaration then declaration.name :: known
  else known

/-- One pass over the nodes in their order. -/
def pass (table : NameTable) (nodes : List Declaration) (known : List String) : List String :=
  nodes.foldl table.enter known

theorem mem_enter_of_mem {table : NameTable} {known : List String} {d : Declaration} {n : String}
    (h : n ∈ known) : n ∈ table.enter known d := by
  unfold enter
  split
  · exact h
  · split
    · exact List.mem_cons_of_mem _ h
    · exact h

theorem enter_eq_or (table : NameTable) (known : List String) (d : Declaration) :
    table.enter known d = known ∨ (d.name ∉ known ∧ d.name ∈ table.enter known d) := by
  unfold enter
  split
  · exact .inl rfl
  · next h =>
    split
    · exact .inr ⟨by simpa using h, List.mem_cons_self⟩
    · exact .inl rfl

theorem mem_pass_of_mem {table : NameTable} (nodes : List Declaration) {known : List String}
    {n : String} (h : n ∈ known) : n ∈ table.pass nodes known := by
  induction nodes generalizing known with
  | nil => exact h
  | cons d nodes ih => exact ih (mem_enter_of_mem h)

theorem pass_eq_or (table : NameTable) (nodes : List Declaration) (known : List String) :
    table.pass nodes known = known ∨
      ∃ d ∈ nodes, d.name ∉ known ∧ d.name ∈ table.pass nodes known := by
  induction nodes generalizing known with
  | nil => exact .inl rfl
  | cons d nodes ih =>
    rcases enter_eq_or table known d with h | ⟨hd, hd'⟩
    · rw [pass, List.foldl_cons, h, ← pass]
      rcases ih known with h' | ⟨e, he, he'⟩
      · exact .inl h'
      · exact .inr ⟨e, List.mem_cons_of_mem _ he, he'⟩
    · exact .inr ⟨d, List.mem_cons_self, hd, mem_pass_of_mem nodes hd'⟩

/-- The nodes that are not yet in a set. -/
def missing (nodes : List Declaration) (known : List String) : List Declaration :=
  nodes.filter fun d => !known.contains d.name

theorem length_missing_lt {nodes : List Declaration} {known next : List String}
    (h : ∀ n ∈ known, n ∈ next) {d : Declaration} (hd : d ∈ nodes) (hk : d.name ∉ known)
    (hn : d.name ∈ next) : (missing nodes next).length < (missing nodes known).length := by
  have hle (l : List Declaration) : (missing l next).length ≤ (missing l known).length := by
    simp only [missing, ← List.countP_eq_length_filter]
    refine List.countP_mono_left fun e _ he => ?_
    simp only [Bool.not_eq_true', List.contains_eq_mem, decide_eq_false_iff_not] at *
    exact fun hm => he (h _ hm)
  have hcons (e : Declaration) (l : List Declaration) (k : List String) :
      (missing (e :: l) k).length = (missing l k).length + if e.name ∈ k then 0 else 1 := by
    simp only [missing, List.filter_cons, List.contains_eq_mem]
    by_cases he : e.name ∈ k <;> simp [he]
  induction nodes with
  | nil => cases hd
  | cons e nodes ih =>
    rw [hcons, hcons]
    rcases List.mem_cons.1 hd with rfl | hd
    · have := hle nodes
      simp only [hk, hn, if_true, if_false]
      omega
    · have := ih hd
      by_cases he : e.name ∈ known
      · simp only [he, h _ he, if_true]
        omega
      · simp only [he, if_false]
        split <;> omega

/-- Passes until one adds nothing. What leads to the text alias is found from below, so that a node
which leads only to itself never enters the set. -/
def settle (table : NameTable) (nodes : List Declaration) (known : List String) : List String :=
  if table.pass nodes known = known then known
  else table.settle nodes (table.pass nodes known)
termination_by (missing nodes known).length
decreasing_by
  next h =>
    obtain ⟨d, hd, hk, hn⟩ := (pass_eq_or table nodes known).resolve_left h
    exact length_missing_lt (fun _ => mem_pass_of_mem nodes) hd hk hn

end NameTable

/-- The names of the nodes that borrow text. -/
def Schema.borrowing (schema : Schema) (table : NameTable) : List String :=
  table.settle schema.nodes []

end NodeSchema
