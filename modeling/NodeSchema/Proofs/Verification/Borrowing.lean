import Mathlib.Data.List.Dedup
import Mathlib.Data.List.Perm.Subperm
import NodeSchema.Proofs.Verification.Acceptance

namespace NodeSchema

namespace NameTable

variable {table : NameTable} {nodes : List Declaration} {known : List String}

/-- Passes from given names on, each of which adds something, up to one that adds nothing. They are
counted with the last one. -/
inductive Settles (table : NameTable) (nodes : List Declaration) :
    List String → Nat → List String → Prop where
  | stop {known : List String} (h : table.pass nodes known = known) :
    Settles table nodes known 1 known
  | more {known settled : List String} {rounds : Nat} (h : table.pass nodes known ≠ known)
      (hs : Settles table nodes (table.pass nodes known) rounds settled) :
    Settles table nodes known (rounds + 1) settled

/-- The names found so far are names of nodes, each of them found once. -/
structure Collects (nodes : List Declaration) (known : List String) : Prop where
  nodup : known.Nodup
  subset : ∀ name ∈ known, name ∈ nodes.map (·.name)

theorem enter_cases (table : NameTable) (known : List String) (d : Declaration) :
    table.enter known d = known ∨
      d.name ∉ known ∧ table.enter known d = d.name :: known := by
  rw [enter]
  split
  · exact .inl rfl
  next h =>
    split
    · exact .inr ⟨by simpa using h, rfl⟩
    · exact .inl rfl

theorem Collects.enter (hk : Collects nodes known) {d : Declaration} (hd : d ∈ nodes) :
    Collects nodes (table.enter known d) := by
  rcases enter_cases table known d with h | ⟨hn, h⟩
  · rwa [h]
  · rw [h]
    constructor
    case nodup => exact List.nodup_cons.2 ⟨hn, hk.nodup⟩
    case subset => exact List.forall_mem_cons.2 ⟨List.mem_map_of_mem hd, hk.subset⟩

theorem Collects.pass (hk : Collects nodes known) {ds : List Declaration}
    (hd : ∀ d ∈ ds, d ∈ nodes) : Collects nodes (table.pass ds known) := by
  induction ds generalizing known with
  | nil => exact hk
  | cons d ds ih =>
    rw [List.forall_mem_cons] at hd
    exact ih (hk.enter hd.1) hd.2

theorem Collects.length_le (hk : Collects nodes known) :
    known.length ≤ (nodes.map (·.name)).dedup.length := by
  apply List.Subperm.length_le
  apply List.subperm_of_subset hk.nodup
  intro name hm
  exact List.mem_dedup.2 (hk.subset name hm)

theorem pass_eq_or_length_lt (table : NameTable) (nodes : List Declaration)
    (known : List String) :
    table.pass nodes known = known ∨ known.length < (table.pass nodes known).length := by
  induction nodes generalizing known with
  | nil => exact .inl rfl
  | cons d nodes ih =>
    rw [NameTable.pass, List.foldl_cons, ← NameTable.pass]
    rcases enter_cases table known d with h | ⟨-, h⟩
    · rw [h]
      exact ih known
    · have hlen : (table.enter known d).length = known.length + 1 := by
        rw [h, List.length_cons]
      rcases ih (table.enter known d) with h' | h'
      · exact .inr (by rw [h']; omega)
      · exact .inr (by omega)

/-- Each pass but the last finds a new name, so that the passes are bounded by the names. -/
theorem Collects.exists_settles (hk : Collects nodes known) :
    ∃ rounds, known.length + rounds ≤ (nodes.map (·.name)).dedup.length + 1 ∧
      table.Settles nodes known rounds (table.settle nodes known) := by
  induction known using settle.induct table nodes with
  | case1 known h =>
    rw [settle, if_pos h]
    exact ⟨1, Nat.succ_le_succ hk.length_le, .stop h⟩
  | case2 known h ih =>
    rw [settle, if_neg h]
    obtain ⟨rounds, hr, hs⟩ := ih (hk.pass fun _ hd => hd)
    have hlen := (pass_eq_or_length_lt table nodes known).resolve_left h
    exact ⟨rounds + 1, by omega, .more h hs⟩

/-- A set of nodes that mention no borrowed text and refer to one another only. -/
structure Enclosed (table : NameTable) (nodes : List Declaration) (ds : Declaration → Prop) :
    Prop where
  no_alias : ∀ d ∈ nodes, ds d → ¬table.MentionsAlias d
  refers : ∀ d ∈ nodes, ds d → ∀ e, table.Refers nodes d e → ds e

theorem Enclosed.not_chained {ds : Declaration → Prop} (hds : table.Enclosed nodes ds)
    {name : String} (hname : ∀ d ∈ nodes, d.name = name → ds d) : ¬table.Chained nodes name := by
  intro h
  obtain ⟨d, hd, hn, e, hc, ha⟩ := h
  have hlast : e ∈ nodes ∧ ds e := by
    clear ha
    induction hc with
    | refl => exact ⟨hd, hname d hd hn⟩
    | tail _ hr ih => exact ⟨hr.1, hds.refers _ ih.1 ih.2 _ hr⟩
  exact hds.no_alias e hlast.1 hlast.2 ha

end NameTable

namespace Schema

variable {schema : Schema} {options : Options}

/-- The verifier has nothing to say about the options, the names and the members. -/
def PassesEarlierChecks (schema : Schema) (options : Options) : Prop :=
  options.faults = [] ∧ Declaration.nameFaults options [] schema.declarations = [] ∧
    ∀ d ∈ schema.declarations, d.memberFaults (.ofSchema schema options) = []

instance (schema : Schema) (options : Options) : Decidable (schema.PassesEarlierChecks options) :=
  inferInstanceAs (Decidable (_ ∧ _ ∧ _))

theorem PassesEarlierChecks.faults_eq (h : schema.PassesEarlierChecks options) :
    schema.faults options = schema.lifetimeFaults options (.ofSchema schema options) := by
  obtain ⟨hoptions, hnames, hmembers⟩ := h
  rw [faults, hoptions, hnames, List.flatMap_eq_nil_iff.2 hmembers]
  rfl

theorem head?_lifetimeFaults_eq_some_iff {table : NameTable} {fault : Fault} :
    (schema.lifetimeFaults options table).head? = some fault ↔
      ∃ before d after, schema.nodes = before ++ d :: after ∧
        (∀ e ∈ before, e.name ∈ schema.borrowing table) ∧ d.name ∉ schema.borrowing table ∧
        fault = .declaration (.unusedLifetime d.name options.textAlias table.lifetime) := by
  rw [lifetimeFaults, List.head?_map, List.head?_filter, Option.map_eq_some_iff]
  simp only [List.find?_eq_some_iff_append, Bool.not_eq_true', Bool.not_eq_false',
    List.contains_eq_mem, decide_eq_false_iff_not, decide_eq_true_eq]
  constructor
  · intro h
    obtain ⟨d, ⟨hd, before, after, hnodes, hbefore⟩, rfl⟩ := h
    exact ⟨before, d, after, hnodes, hbefore, hd, rfl⟩
  · intro h
    obtain ⟨before, d, after, hnodes, hbefore, hd, rfl⟩ := h
    exact ⟨d, ⟨hd, before, after, hnodes, hbefore⟩, rfl⟩

theorem PassesEarlierChecks.verify_eq_error_iff (h : schema.PassesEarlierChecks options)
    {fault : Fault} : schema.verify options = .error fault ↔
      ∃ before d after, schema.nodes = before ++ d :: after ∧
        (∀ e ∈ before, e.name ∈ schema.borrowing (.ofSchema schema options)) ∧
        d.name ∉ schema.borrowing (.ofSchema schema options) ∧
        fault = .declaration (.unusedLifetime d.name options.textAlias options.quotedLifetime) := by
  rw [Schema.verify_eq_error_iff, h.faults_eq]
  exact head?_lifetimeFaults_eq_some_iff

theorem PassesEarlierChecks.exists_verify_eq_error_iff (h : schema.PassesEarlierChecks options) :
    (∃ fault, schema.verify options = .error fault) ↔
      ∃ d ∈ schema.nodes, d.name ∉ schema.borrowing (.ofSchema schema options) := by
  constructor
  · intro hv
    obtain ⟨fault, hv⟩ := hv
    obtain ⟨before, d, after, hnodes, -, hd, -⟩ := h.verify_eq_error_iff.1 hv
    have hmem : d ∈ schema.nodes := hnodes ▸ List.mem_append_right _ List.mem_cons_self
    exact ⟨d, hmem, hd⟩
  · intro hmissed
    obtain ⟨d, hd, hn⟩ := hmissed
    cases hv : schema.verify options with
    | error fault => exact ⟨fault, rfl⟩
    | ok table =>
      have hnone := (verify_eq_ok_iff.1 hv).1
      rw [h.faults_eq, lifetimeFaults, List.map_eq_nil_iff, List.filter_eq_nil_iff] at hnone
      exact absurd hn (by simpa using hnone d hd)

/-- The search for borrowed text stops after at most one round more than there are names of nodes.
It finds the names from which a chain of references leads to the text alias, so that nodes which
refer to one another only are never found. A schema without earlier faults is refused for the first
of its nodes that is not found, and for no other reason. -/
theorem borrowing_exact (schema : Schema) (table : NameTable) :
    (∃ rounds ≤ (schema.nodes.map (·.name)).dedup.length + 1,
      table.Settles schema.nodes [] rounds (schema.borrowing table)) ∧
    (∀ name, name ∈ schema.borrowing table ↔ table.Chained schema.nodes name) ∧
    (∀ ds, table.Enclosed schema.nodes ds → ∀ name,
      (∀ d ∈ schema.nodes, d.name = name → ds d) → name ∉ schema.borrowing table) ∧
    ∀ options, table = .ofSchema schema options → schema.PassesEarlierChecks options →
      ((∃ fault, schema.verify options = .error fault) ↔
        ∃ d ∈ schema.nodes, d.name ∉ schema.borrowing table) ∧
      ∀ fault, schema.verify options = .error fault ↔
        ∃ before d after, schema.nodes = before ++ d :: after ∧
          (∀ e ∈ before, e.name ∈ schema.borrowing table) ∧ d.name ∉ schema.borrowing table ∧
          fault = .declaration (.unusedLifetime d.name options.textAlias options.quotedLifetime) := by
  have hchained : ∀ name, name ∈ schema.borrowing table ↔ table.Chained schema.nodes name :=
    fun _ => NameTable.mem_settle_iff
  refine ⟨?_, hchained, ?_, ?_⟩
  · have hnone : NameTable.Collects schema.nodes [] := ⟨.nil, List.forall_mem_nil _⟩
    obtain ⟨rounds, hr, hs⟩ := hnone.exists_settles
    exact ⟨rounds, by simpa using hr, hs⟩
  · intro ds hds name hname
    rw [hchained]
    exact hds.not_chained hname
  · intro options ht hpasses
    subst ht
    exact ⟨hpasses.exists_verify_eq_error_iff, fun _ => hpasses.verify_eq_error_iff⟩

/-- A ring refers to itself, a left and a right half to each other, and none of them to any text. -/
theorem ring_borrows_nothing :
    let schema : Schema := ⟨[.record "Block" [⟨"items", .generic "Vec" [.atomic "Item"]⟩],
      .record "Ring" [⟨"next", .generic "Box" [.atomic "Ring"]⟩],
      .union "Item" [⟨"Name", [.atomic "Ident"]⟩, ⟨"Nested", [.generic "Box" [.atomic "Block"]]⟩],
      .record "Left" [⟨"right", .generic "Option" [.generic "Box" [.atomic "Right"]]⟩],
      .record "Right" [⟨"left", .generic "Vec" [.atomic "Left"]⟩]]⟩
    let table := NameTable.ofSchema schema .default
    schema.PassesEarlierChecks .default ∧
    (∃ rounds ≤ 6, table.Settles schema.nodes [] rounds (schema.borrowing table)) ∧
    table.Chained schema.nodes "Block" ∧
    (∀ name ∈ ["Ring", "Left", "Right"], name ∉ schema.borrowing table) ∧
    schema.verify .default = .error (.declaration (.unusedLifetime "Ring" "Ident" "'src")) := by
  intro schema table
  have hpasses : schema.PassesEarlierChecks .default := by decide
  have hpassed : (table.pass schema.nodes)^[2] [] = ["Block", "Item"] := by decide
  have hfound : schema.borrowing table = ["Block", "Item"] :=
    (NameTable.settle_eq_iterate 2 (by decide)).trans hpassed
  obtain ⟨⟨rounds, hr, hs⟩, hchained, -, hfault⟩ := borrowing_exact schema table
  rw [hfound] at hs hchained hfault
  have hverify : schema.verify .default =
      .error (.declaration (.unusedLifetime "Ring" "Ident" "'src")) := by
    rw [(hfault .default rfl hpasses).2]
    exact ⟨[schema.declarations[0]], schema.declarations[1], schema.declarations.drop 2, by decide,
      by decide, by decide, rfl⟩
  rw [hfound]
  exact ⟨hpasses, ⟨rounds, hr.trans (by decide), hs⟩, (hchained _).1 (by decide), by decide,
    hverify⟩

end Schema

end NodeSchema
