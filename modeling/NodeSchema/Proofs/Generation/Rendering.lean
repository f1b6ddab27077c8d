import NodeSchema.Proofs.Generation.Agreement
import NodeSchema.Proofs.Text.Deletion
import NodeSchema.Proofs.TypeExpr.Printing

namespace NodeSchema

open Text (Lifetimed Unquoted cuts replace unquoted_of_isIdentifier)

namespace TypeExpr

mutual

/-- The atomic names, from left to right, each with the place in the text form where it ends. -/
def atomEnds : TypeExpr → List (String × Nat)
  | .atomic name => [(name, name.length)]
  | .generic container args =>
    (atomEndsOf args).map fun atom => (atom.1, atom.2 + (container.length + 1))

def atomEndsOf : List TypeExpr → List (String × Nat)
  | [] => []
  | arg :: args =>
    arg.atomEnds ++ (atomEndsOf args).map fun atom => (atom.1, atom.2 + (arg.toText.length + 2))

end

theorem map_fst_atomEnds (e : TypeExpr) : e.atomEnds.map Prod.fst = e.atoms := by
  induction e using TypeExpr.induction with
  | atomic name => rfl
  | generic container args ih =>
    rw [atomEnds, atoms, List.map_map, atomsOf_eq_flatMap]
    change (atomEndsOf args).map Prod.fst = args.flatMap atoms
    induction args with
    | nil => rfl
    | cons arg args iha =>
      rw [List.forall_mem_cons] at ih
      have hrest : ((atomEndsOf args).map fun atom =>
          (atom.1, atom.2 + (arg.toText.length + 2))).map Prod.fst = args.flatMap atoms := by
        rw [List.map_map]
        exact iha ih.2
      rw [atomEndsOf, List.map_append, ih.1, hrest, List.flatMap_cons]

/-- A name stands in a text and ends at a place. -/
def EndsAt (text name : String) (place : Nat) : Prop :=
  ∃ before after, text = before ++ name ++ after ∧ (before ++ name).length = place

theorem EndsAt.between {text name : String} {place : Nat} (h : EndsAt text name place)
    (front back : String) : EndsAt (front ++ text ++ back) name (place + front.length) := by
  obtain ⟨before, after, rfl, rfl⟩ := h
  refine ⟨front ++ before, after ++ back, ?_, ?_⟩
  · simp only [String.append_assoc]
  · simp only [String.length_append]
    omega

theorem intercalate_cons (text : String) {texts : List String} (hne : texts ≠ []) :
    ", ".intercalate (text :: texts) = text ++ ", " ++ ", ".intercalate texts := by
  obtain ⟨text', texts, rfl⟩ := List.exists_cons_of_ne_nil hne
  exact String.intercalate_cons_cons

theorem endsAt_of_mem_atomEndsOf {args : List TypeExpr}
    (h : ∀ arg ∈ args, ∀ atom ∈ arg.atomEnds, EndsAt arg.toText atom.1 atom.2) :
    ∀ atom ∈ atomEndsOf args, EndsAt (", ".intercalate (args.map toText)) atom.1 atom.2 := by
  induction args with
  | nil => exact List.forall_mem_nil _
  | cons arg args ih =>
    rw [List.forall_mem_cons] at h
    rw [atomEndsOf, List.forall_mem_append, List.forall_mem_map]
    by_cases hne : args = []
    · subst hne
      rw [List.map_singleton, String.intercalate_singleton]
      exact ⟨h.1, List.forall_mem_nil _⟩
    · rw [List.map_cons, intercalate_cons _ (mt List.map_eq_nil_iff.1 hne)]
      constructor
      · intro atom hm
        have hend := (h.1 atom hm).between "" (", " ++ ", ".intercalate (args.map toText))
        rwa [String.empty_append, ← String.append_assoc] at hend
      · intro atom hm
        have hend := (ih h.2 atom hm).between (arg.toText ++ ", ") ""
        rwa [String.append_empty, String.length_append] at hend

theorem endsAt_of_mem_atomEnds (e : TypeExpr) :
    ∀ atom ∈ e.atomEnds, EndsAt e.toText atom.1 atom.2 := by
  induction e using TypeExpr.induction with
  | atomic name =>
    rw [atomEnds, List.forall_mem_singleton]
    exact ⟨"", "", by rw [String.empty_append, String.append_empty, toText],
      by rw [String.empty_append]⟩
  | generic container args ih =>
    rw [atomEnds, List.forall_mem_map, toText, toTexts_eq_map]
    intro atom hm
    have h := (endsAt_of_mem_atomEndsOf ih atom hm).between (container ++ "<") ">"
    rwa [String.length_append] at h

example : atomEnds (.generic "Map" [.atomic "K", .generic "Vec" [.atomic "V"]]) =
    [("K", 5), ("V", 12)] := by decide

/-- Where the atomic names of a kind end. -/
def endsOf (kind : String → Bool) (atoms : List (String × Nat)) : List Nat :=
  (atoms.filter (kind ·.1)).map Prod.snd

theorem endsOf_shifted (kind : String → Bool) (atoms : List (String × Nat)) (n : Nat) :
    endsOf kind (atoms.map fun atom => (atom.1, atom.2 + n)) =
      (endsOf kind atoms).map (· + n) := by
  rw [endsOf, endsOf, List.filter_map, List.map_map, List.map_map]
  rfl

theorem endsOf_append (kind : String → Bool) (atoms atoms' : List (String × Nat)) :
    endsOf kind (atoms ++ atoms') = endsOf kind atoms ++ endsOf kind atoms' := by
  rw [endsOf, List.filter_append, List.map_append]
  rfl

theorem length_endsOf (kind : String → Bool) (e : TypeExpr) :
    (endsOf kind e.atomEnds).length = (e.atoms.filter kind).length := by
  rw [endsOf, List.length_map, ← map_fst_atomEnds, List.filter_map, List.length_map]
  rfl

section Lifetimes

variable {table : NameTable} {lifetime : String} {kind : String → Bool}

/-- The kind of the names that take the lifetime. -/
def TakesLifetime (table : NameTable) (kind : String → Bool) : Prop :=
  ∀ name, kind name ↔ table.meaning? name = some .textAlias ∨ table.meaning? name = some .node

theorem lifetimed_toCodes {args : List TypeExpr}
    (h : ∀ arg ∈ args, ∃ code, arg.toCode table = .ok code ∧
      Lifetimed lifetime code arg.toText (endsOf kind arg.atomEnds)) :
    ∃ codes, args.mapM (toCode table) = .ok codes ∧ Lifetimed lifetime (", ".intercalate codes)
      (", ".intercalate (args.map toText)) (endsOf kind (atomEndsOf args)) := by
  induction args with
  | nil => exact ⟨[], rfl, .of_unquoted (by decide)⟩
  | cons arg args ih =>
    rw [List.forall_mem_cons] at h
    obtain ⟨⟨code, hcode, hl⟩, hargs⟩ := h
    obtain ⟨codes, hcodes, hls⟩ := ih hargs
    have hmap : (arg :: args).mapM (toCode table) = .ok (code :: codes) := by
      rw [List.mapM_cons, hcode, hcodes]
      rfl
    refine ⟨code :: codes, hmap, ?_⟩
    rw [atomEndsOf, endsOf_append, endsOf_shifted]
    by_cases hne : args = []
    · subst hne
      obtain rfl : [] = codes := Except.ok.inj hcodes
      rw [List.map_singleton, String.intercalate_singleton, String.intercalate_singleton]
      exact (List.append_nil (endsOf kind arg.atomEnds)).symm ▸ hl
    · have hcodes' : codes ≠ [] := by
        intro he
        subst he
        rw [mapM_eq_ok_iff fun _ _ _ => Iff.rfl] at hcodes
        exact hne (List.forall₂_nil_right_iff.1 hcodes)
      have hcomma : Lifetimed lifetime ", " ", " [] := .of_unquoted (by decide)
      have hall := (hl.append hcomma).append hls
      rw [List.map_nil, List.append_nil, String.length_append] at hall
      rw [List.map_cons, intercalate_cons _ (mt List.map_eq_nil_iff.1 hne),
        intercalate_cons _ hcodes']
      exact hall

/-- The code of a type is its text form with a lifetime behind every name that takes it. -/
theorem Resolves.lifetimed_toCode (hl : table.lifetime = "'" ++ lifetime)
    (hk : TakesLifetime table kind) {e : TypeExpr} (he : e.Resolves table) :
    ∃ code, e.toCode table = .ok code ∧
      Lifetimed lifetime code e.toText (endsOf kind e.atomEnds) := by
  induction e using TypeExpr.induction with
  | atomic name =>
    obtain ⟨hn, hsome⟩ := resolves_atomic.1 he
    obtain ⟨meaning, hm⟩ := Option.isSome_iff_exists.1 hsome
    have hq : Unquoted name := unquoted_of_isIdentifier hn
    have hmark : name ++ "<" ++ table.lifetime ++ ">" = name ++ ("<'" ++ lifetime ++ ">") := by
      rw [hl]
      simp only [String.append_assoc]
      rfl
    have hkind := hk name
    rw [hm] at hkind
    rw [toCode, hm, toText, atomEnds, endsOf, List.filter_singleton]
    cases meaning with
    | textAlias | node =>
      have hkind' : kind name := hkind.2 (by decide)
      rw [hkind']
      exact ⟨_, rfl, hmark ▸ .named hq⟩
    | plain | foreign =>
      have hkind' : kind name = false := Bool.eq_false_iff.2 fun h => absurd (hkind.1 h) (by decide)
      rw [hkind']
      exact ⟨_, rfl, .of_unquoted hq⟩
  | generic container args ih =>
    obtain ⟨hn, hne, hargs⟩ := resolves_generic.1 he
    obtain ⟨codes, hcodes, hls⟩ := lifetimed_toCodes fun arg hm => ih arg hm (hargs arg hm)
    have hempty : ¬args.isEmpty = true := by simpa using hne
    have hopening : Lifetimed lifetime (container ++ "<") (container ++ "<") [] :=
      .of_unquoted ((unquoted_of_isIdentifier hn).append (by decide))
    have hclosing : Lifetimed lifetime ">" ">" [] := .of_unquoted (by decide)
    have hall := (hopening.append hls).append hclosing
    rw [List.nil_append, List.map_nil, List.append_nil, String.length_append] at hall
    rw [toCode, if_neg hempty, toCodes_eq_mapM, hcodes, toText, toTexts_eq_map, atomEnds,
      endsOf_shifted]
    exact ⟨_, rfl, hall⟩

end Lifetimes

end TypeExpr

namespace Schema

/-- The names that are written with the lifetime: those of the nodes, and the text alias. -/
def TakesLifetime (schema : Schema) (options : Options) (name : String) : Prop :=
  (∃ d ∈ schema.nodes, d.name = name) ∨ name = options.textAlias

instance (schema : Schema) (options : Options) (name : String) :
    Decidable (schema.TakesLifetime options name) :=
  inferInstanceAs (Decidable (_ ∨ _))

variable {schema : Schema} {options : Options} {table : NameTable}

theorem Sound.takesLifetime (hs : schema.Sound options) :
    TypeExpr.TakesLifetime (.ofSchema schema options)
      fun name => schema.TakesLifetime options name := by
  have ha : ∀ d ∈ schema.declarations, d.name ≠ options.textAlias :=
    fun d hd => (hs.freeNames d hd).ne_textAlias
  intro name
  rw [decide_eq_true_iff, NameTable.meaning?_eq_textAlias_iff hs.declaredOnce ha,
    NameTable.meaning?_eq_node_iff hs.declaredOnce, TakesLifetime, or_comm]

/-- A type is written as its text form with lifetimes, of which there is one directly behind every
node and text alias and none elsewhere. Without them the type is read back, so that no two types are
written alike. -/
theorem code_is_text_with_lifetimes (hv : schema.verify options = .ok table) :
    let mark := "<'" ++ options.lifetime ++ ">"
    (∀ e : TypeExpr, e.Resolves table → ∃ code, e.toCode table = .ok code ∧
      replace mark "" code = e.toText ∧ TypeExpr.ofText? (replace mark "" code) = .ok e ∧
      cuts mark code =
        TypeExpr.endsOf (fun name => schema.TakesLifetime options name) e.atomEnds ∧
      (cuts mark code).length =
        (e.atoms.filter fun name => schema.TakesLifetime options name).length ∧
      ∀ place ∈ cuts mark code, ∃ name ∈ e.atoms, schema.TakesLifetime options name ∧
        TypeExpr.EndsAt e.toText name place) ∧
    ∀ e e' : TypeExpr, e.Resolves table → e'.Resolves table →
      e.toCode table = e'.toCode table → e = e' := by
  intro mark
  obtain ⟨hs, rfl⟩ := sound_of_verify hv
  have hcode (e : TypeExpr) (he : e.Resolves (.ofSchema schema options)) :
      ∃ code, e.toCode (.ofSchema schema options) = .ok code ∧ Lifetimed options.lifetime code
        e.toText (TypeExpr.endsOf (fun name => schema.TakesLifetime options name) e.atomEnds) :=
    he.lifetimed_toCode rfl hs.takesLifetime
  constructor
  · intro e he
    obtain ⟨code, hc, hl⟩ := hcode e he
    have hread : TypeExpr.ofText? (replace mark "" code) = .ok e := by
      rw [hl.replace_eq]
      exact he.1.ofText?_toText
    have hplaces : ∀ place ∈ cuts mark code, ∃ name ∈ e.atoms, schema.TakesLifetime options name ∧
        TypeExpr.EndsAt e.toText name place := by
      rw [hl.cuts_eq, TypeExpr.endsOf, List.forall_mem_map]
      intro atom hm
      obtain ⟨hm, hkind⟩ := List.mem_filter.1 hm
      have hatom : atom.1 ∈ e.atoms := e.map_fst_atomEnds ▸ List.mem_map_of_mem hm
      exact ⟨atom.1, hatom, of_decide_eq_true hkind, e.endsAt_of_mem_atomEnds atom hm⟩
    have hlength : (cuts mark code).length =
        (e.atoms.filter fun name => schema.TakesLifetime options name).length := by
      rw [hl.cuts_eq, TypeExpr.length_endsOf]
    exact ⟨code, hc, hl.replace_eq, hread, hl.cuts_eq, hlength, hplaces⟩
  · intro e e' he he' heq
    obtain ⟨code, hc, hl⟩ := hcode e he
    obtain ⟨code', hc', hl'⟩ := hcode e' he'
    obtain rfl : code = code' := Except.ok.inj (hc.symm.trans (heq.trans hc'))
    have htext : e.toText = e'.toText := hl.replace_eq.symm.trans hl'.replace_eq
    have hread := he.1.ofText?_toText
    rw [htext, he'.1.ofText?_toText] at hread
    exact (Except.ok.inj hread).symm

/-- A container with the name of a node takes no lifetime. -/
theorem container_named_like_node_bare :
    let schema : Schema := ⟨[.union "Expr" [⟨"Var", [.atomic "Ident"]⟩]]⟩
    let table := NameTable.ofSchema schema .default
    let e : TypeExpr := .generic "Map" [.atomic "Ident",
      .generic "Expr" [.atomic "u32", .atomic "Expr"]]
    schema.verify .default = .ok table ∧ e.Resolves table ∧
      e.toCode table = .ok "Map<Ident<'src>, Expr<u32, Expr<'src>>>" ∧
      replace "<'src>" "" "Map<Ident<'src>, Expr<u32, Expr<'src>>>" = e.toText ∧
      TypeExpr.ofText? e.toText = .ok e ∧
      cuts "<'src>" "Map<Ident<'src>, Expr<u32, Expr<'src>>>" = [9, 25] ∧
      ∀ e' : TypeExpr, e'.Resolves table → e.toCode table = e'.toCode table → e = e' := by
  intro schema table e
  have hv : schema.verify .default = .ok table :=
    verify_of_passes 1 (by decide) (by decide) (by decide)
  have he : e.Resolves table := by
    simp only [e, TypeExpr.resolves_generic, TypeExpr.resolves_atomic, List.forall_mem_cons]
    exact ⟨by decide, by decide, by decide, ⟨by decide, by decide, by decide, by decide,
      List.forall_mem_nil _⟩, List.forall_mem_nil _⟩
  have hcode : e.toCode table = .ok "Map<Ident<'src>, Expr<u32, Expr<'src>>>" := rfl
  obtain ⟨hall, hinjective⟩ := code_is_text_with_lifetimes hv
  obtain ⟨code, hc, hreplaced, hread, hcuts, -⟩ := hall e he
  obtain rfl := Except.ok.inj (hcode.symm.trans hc)
  exact ⟨hv, he, hcode, hreplaced, hreplaced ▸ hread, hcuts.trans (by decide),
    fun e' he' => hinjective e e' he he'⟩

end Schema

end NodeSchema
