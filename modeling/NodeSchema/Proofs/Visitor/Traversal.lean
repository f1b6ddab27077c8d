import NodeSchema.Build
import NodeSchema.Proofs.Verification.Acceptance
import NodeSchema.Proofs.Visitor.Members

namespace NodeSchema

open Code (Step VisitorFile Walker Walks)
open Program (Faithful Method Routine receive?)
open Text (isIdentifier isIdentifier_of_isUsable snakeCase)

namespace Code

variable {schema : Schema} {table : NameTable} {options : Options} {file : VisitorFile}

theorem Walker.ofDeclaration?_of_isNode {d : Declaration} (hd : d.isNode) {walker : Option Walker}
    (h : Walker.ofDeclaration? table d = .ok walker) : ∃ w, walker = some w ∧ w.node = d.name := by
  cases d with
  | record name fields =>
    obtain ⟨body, -, h⟩ := bind_eq_ok_iff.1 h
    exact ⟨_, (Except.ok.inj h).symm, rfl⟩
  | union name variants =>
    obtain ⟨arms, -, h⟩ := bind_eq_ok_iff.1 h
    exact ⟨_, (Except.ok.inj h).symm, rfl⟩
  | plain name tags => cases hd

theorem forall₂_walkers {ds : List Declaration} {walkers : List (Option Walker)}
    (h : List.Forall₂ (fun d w => Walker.ofDeclaration? table d = .ok w) ds walkers) :
    List.Forall₂ (fun d w => Walker.ofDeclaration? table d = .ok (some w) ∧ w.node = d.name)
      (ds.filter (·.isNode)) (walkers.filterMap id) := by
  induction h with
  | nil => exact .nil
  | @cons d walker ds walkers hd _ ih =>
    by_cases hn : d.isNode
    · obtain ⟨w, rfl, hw⟩ := Walker.ofDeclaration?_of_isNode hn hd
      rw [List.filter_cons_of_pos hn]
      exact .cons ⟨hd, hw⟩ ih
    · rw [List.filter_cons_of_neg hn]
      cases d with
      | record name fields => exact absurd rfl hn
      | union name variants => exact absurd rfl hn
      | plain name tags =>
        obtain rfl := Except.ok.inj hd
        exact ih

theorem VisitorFile.eq_of_ofSchema? (h : VisitorFile.ofSchema? schema table options = .ok file) :
    ∃ walkers, List.Forall₂
      (fun d w => Walker.ofDeclaration? table d = .ok (some w) ∧ w.node = d.name)
      schema.nodes walkers ∧ file = ⟨options.visitorCommand, options.astModule, table.lifetime,
        schema.nodes.map (·.name), walkers⟩ := by
  obtain ⟨walkers, hw, h⟩ := bind_eq_ok_iff.1 h
  exact ⟨_, forall₂_walkers ((mapM_eq_ok_iff (fun _ _ _ => Iff.rfl) walkers).1 hw),
    (Except.ok.inj h).symm⟩

theorem worded_of_walks {α : Type} {as : List α} {operand : α → Operand} {type : α → TypeExpr}
    {steps : List (Option Step)}
    (h : List.Forall₂ (fun a step => Walks table (operand a) (type a) step) as steps)
    (ho : ∀ a ∈ as, (operand a).Worded) (ht : ∀ a ∈ as, (type a).WellNamed) :
    ∀ step ∈ steps.filterMap id, step.Worded := by
  induction h with
  | nil => exact List.forall_mem_nil _
  | @cons a step as steps hw _ ih =>
    rw [List.forall_mem_cons] at ho ht
    intro s hs
    rw [List.mem_filterMap] at hs
    obtain ⟨step', hm, rfl⟩ := hs
    rcases List.mem_cons.1 hm with rfl | hm
    · exact hw.worded ho.1 ht.1 s rfl
    · exact ih ho.2 ht.2 s (List.mem_filterMap.2 ⟨_, hm, rfl⟩)

theorem worded_of_arm {variant : Variant} {arm : Arm} (hn : isIdentifier variant.name)
    (ht : ∀ type ∈ variant.payload, type.WellNamed)
    (h : Arm.ofVariant? table variant = .ok arm) : arm.Worded := by
  rcases Program.arm_of_ofVariant? h with ⟨-, rfl⟩ | ⟨steps, hs, rfl⟩
  · exact hn
  · obtain ⟨found, rfl, hwalks⟩ := walks_of_slotSteps? hs
    exact ⟨hn, worded_of_walks hwalks (fun _ _ => trivial)
      fun p hp => ht p.1 (List.fst_mem_of_mem_zipIdx hp)⟩

theorem Walker.worded_union (hs : schema.Sound options) {name : String} {variants : List Variant}
    (hd : .union name variants ∈ schema.declarations) {arms : List Arm}
    (h : variants.mapM (Arm.ofVariant? table) = .ok arms) : (Walker.union name arms).Worded := by
  have hvariants := (hs.membersApart _ hd).2.2
  have hall := (mapM_eq_ok_iff (fun _ _ _ => Iff.rfl) arms).1 h
  have hworded : ∀ arm ∈ arms, arm.Worded := by
    intro arm hm
    obtain ⟨variant, hv, harm⟩ := exists_of_mem_right hall hm
    have hpayload : ∀ type ∈ variant.payload, type.WellNamed := fun type htype =>
      hs.wellNamed _ hd type (List.mem_flatMap.2 ⟨variant, hv, htype⟩)
    exact worded_of_arm (isIdentifier_of_isUsable (hvariants variant hv)) hpayload harm
  exact ⟨isIdentifier_of_isUsable (hs.freeNames _ hd).usable, hworded⟩

theorem Walker.worded (hs : schema.Sound options) (hf : schema.FieldsNamed) {d : Declaration}
    (hd : d ∈ schema.declarations) {walker : Walker}
    (h : Walker.ofDeclaration? table d = .ok (some walker)) : walker.Worded := by
  cases d with
  | record name fields =>
    obtain ⟨steps, hsteps, h⟩ := bind_eq_ok_iff.1 h
    obtain rfl := Option.some.inj (Except.ok.inj h)
    obtain ⟨found, rfl, hwalks⟩ := walks_of_fieldSteps? hsteps
    have hnames : ∀ f ∈ fields, (Operand.field f.written).Worded := fun f hm =>
      Text.isWord_escapeKeyword (hf name fields hd f hm)
    have htypes : ∀ f ∈ fields, f.type.WellNamed := fun f hm =>
      hs.wellNamed _ hd f.type (List.mem_map_of_mem hm)
    exact ⟨isIdentifier_of_isUsable (hs.freeNames _ hd).usable,
      worded_of_walks hwalks hnames htypes⟩
  | union name variants =>
    obtain ⟨arms, harms, h⟩ := bind_eq_ok_iff.1 h
    obtain rfl := Option.some.inj (Except.ok.inj h)
    exact worded_union hs hd harms
  | plain name tags => cases h

end Code

namespace Program

section Visit

variable {schema : Schema} {options : Options} {file : VisitorFile}

theorem find?_eq_some_of_nodup {α : Type} {key : α → String} {as : List α}
    (hn : (as.map key).Nodup) {a : α} (ha : a ∈ as) :
    as.find? (fun b => key b == key a) = some a := by
  induction as with
  | nil => cases ha
  | cons b as ih =>
    rw [List.map_cons, List.nodup_cons] at hn
    rcases List.mem_cons.1 ha with rfl | ha
    · exact List.find?_cons_of_pos (beq_self_eq_true _)
    · have hne : (key b == key a) = false := by
        apply beq_eq_false_iff_ne.2
        intro he
        exact hn.1 (he ▸ List.mem_map_of_mem ha)
      rw [List.find?_cons, hne]
      exact ih hn.2 ha

theorem visit_succ {program : Program} {depth : Nat} {method : Method} {routine : Routine}
    {value node : Value} {calls : List Call}
    (hm : program.methods.find? (·.name == method.name) = some method)
    (hr : receive? method.node value = some node)
    (hf : program.routines.find? (·.name == method.routine) = some routine)
    (hn : routine.node = method.node)
    (hrun : routine.run (program.visit depth) node = some calls) :
    program.visit (depth + 1) method.name value = some ((method.name, node) :: calls) := by
  rw [visit, hm, Option.bind_eq_bind, Option.bind_some, hr, Option.bind_eq_bind, Option.bind_some,
    hf, Option.bind_eq_bind, Option.bind_some, if_pos hn, hrun]
  rfl

theorem visit_boxed (program : Program) (depth : Nat) (method : String) (value : Value) :
    program.visit depth method (.boxed value) = program.visit depth method value := by
  cases depth with
  | zero => rfl
  | succ depth => rfl

theorem nodup_prefixed (hs : schema.Sound options) (start : String) :
    (schema.nodes.map fun d => start ++ snakeCase d.name).Nodup := by
  have h := hs.methodsApart.map (f := (start ++ ·)) fun a b h => by simpa using h
  rwa [List.map_map] at h

theorem name_routine (walker : Walker) :
    walker.routine.name = "walk_" ++ snakeCase walker.node ∧ walker.routine.node = walker.node := by
  cases walker with
  | record name steps => exact ⟨rfl, rfl⟩
  | union name arms => exact ⟨rfl, rfl⟩

theorem exists_walker (hs : schema.Sound options) {table : NameTable}
    (hfile : VisitorFile.ofSchema? schema table options = .ok file) {d : Declaration}
    (hd : d ∈ schema.nodes) :
    file.program.methods.find? (·.name == (Code.method d.name).name) = some (Code.method d.name) ∧
      ∃ walker, Walker.ofDeclaration? table d = .ok (some walker) ∧
        file.program.routines.find? (·.name == (Code.method d.name).routine) =
          some walker.routine ∧ walker.routine.node = d.name := by
  obtain ⟨walkers, hw, rfl⟩ := VisitorFile.eq_of_ofSchema? hfile
  have hmethods : (((schema.nodes.map (·.name)).map Code.method).map (·.name)).Nodup := by
    rw [List.map_map, List.map_map]
    exact nodup_prefixed hs "visit_"
  have hroutines : ((walkers.map (·.routine)).map (·.name)).Nodup := by
    have heq : (walkers.map (·.routine)).map (·.name) =
        schema.nodes.map fun d => "walk_" ++ snakeCase d.name := by
      rw [List.map_map, ← List.forall₂_eq_eq_eq, List.forall₂_map_left_iff,
        List.forall₂_map_right_iff]
      exact hw.flip.imp fun walker d h => by rw [Function.comp, (name_routine walker).1, h.2]
    rw [heq]
    exact nodup_prefixed hs "walk_"
  obtain ⟨walker, hm, hwalker, hnode⟩ := exists_of_mem_left hw hd
  have hname : walker.routine.name = (Code.method d.name).routine := by
    rw [(name_routine walker).1, hnode]
    rfl
  have hmethod := find?_eq_some_of_nodup hmethods (List.mem_map_of_mem (List.mem_map_of_mem hd))
  have hroutine := find?_eq_some_of_nodup hroutines (List.mem_map_of_mem hm)
  rw [hname] at hroutine
  exact ⟨hmethod, walker, hwalker, hroutine, (name_routine walker).2.trans hnode⟩

theorem isNode_iff (hs : schema.Sound options) {name : String} :
    (NameTable.ofSchema schema options).isNode name ↔ ∃ d ∈ schema.nodes, d.name = name := by
  rw [← NameTable.meaning?_eq_node_iff hs.declaredOnce, NameTable.isNode, beq_iff_eq]

/-- With a stack as deep as the tree has nodes, the calls are those of all its nodes. -/
theorem visit_eq_calls (hs : schema.Sound options)
    (hfile : VisitorFile.ofSchema? schema (.ofSchema schema options) options = .ok file)
    (depth : Nat) {d : Declaration} (hd : d ∈ schema.nodes) {value : Value}
    (hv : schema.HasType (.atomic d.name) value) (hlen : value.nodes.length ≤ depth) :
    file.program.visit depth ("visit_" ++ snakeCase d.name) value = some value.calls := by
  induction depth generalizing d value with
  | zero =>
    have := hv.nodes_ne_nil hd
    exact absurd (List.length_eq_zero_iff.1 (Nat.le_zero.1 hlen)) this
  | succ depth ih =>
    have hf : Faithful schema (.ofSchema schema options) (file.program.visit depth) depth := by
      constructor
      case isNode =>
        intro d hd
        exact (isNode_iff hs).2 ⟨d, hd, rfl⟩
      case visit =>
        intro name value hn hv hlen
        obtain ⟨d, hd, rfl⟩ := (isNode_iff hs).1 hn
        exact ih hd hv hlen
      case boxed => exact visit_boxed file.program depth
    obtain ⟨hmethod, walker, hwalker, hroutine, hnode⟩ := exists_walker hs hfile hd
    have hsame {e : Declaration} (he : e ∈ schema.declarations) (hn : e.name = d.name) : e = d :=
      List.inj_on_of_nodup_map hs.declaredOnce he (List.mem_of_mem_filter hd) hn
    generalize hname : d.name = name at hv
    cases hv with
    | leaf hl => exact absurd hname (hl d hd)
    | @record _ span _ _ he hvs =>
      obtain rfl := hsame he hname.symm
      obtain ⟨steps, hsteps, hw⟩ := bind_eq_ok_iff.1 hwalker
      obtain rfl := Option.some.inj (Except.ok.inj hw)
      rw [Value.nodes_record] at hlen
      have hrun := hf.run_record span hsteps (hs.membersApart _ he) hvs
        (Nat.le_of_succ_le_succ hlen)
      rw [Value.calls_record]
      exact visit_succ hmethod (if_pos rfl) hroutine hnode hrun
    | @union name span _ _ _ he hm hvs =>
      obtain rfl := hsame he hname.symm
      obtain ⟨arms, harms, hw⟩ := bind_eq_ok_iff.1 hwalker
      obtain rfl := Option.some.inj (Except.ok.inj hw)
      rw [Value.nodes_union] at hlen
      have hrun := hf.run_union name span harms (hs.membersApart _ he).2.1 hm hvs
        (Nat.le_of_succ_le_succ hlen)
      rw [Value.calls_union]
      exact visit_succ hmethod (if_pos rfl) hroutine hnode hrun

end Visit

end Program

namespace Schema

/-- The generated visitor, read as a program, visits the nodes of every tree of values that the
schema allows: each node once, by the method of its name, before the nodes in it. -/
theorem visitor_visits_nodes_in_order {schema : Schema} {options : Options} {text : String}
    (h : schema.generateVisitor options = .ok text) (hf : schema.FieldsNamed) :
    ∃ code program,
      text = Code.text (Code.heading options.visitorCommand
        ++ ["use " ++ options.astModule ++ "::*;", ""]) ++ code ∧
      Program.ofText? options.quotedLifetime code = some program ∧
      ∀ d ∈ schema.nodes, ∀ value, schema.HasType (.atomic d.name) value →
        ∀ depth, value.nodes.length ≤ depth →
          program.visit depth ("visit_" ++ snakeCase d.name) value =
            some (value.nodes.map fun (name, node) => ("visit_" ++ snakeCase name, node)) := by
  obtain ⟨table, hv, ht⟩ := bind_eq_ok_iff.1 h
  obtain ⟨hfaults, rfl⟩ := verify_eq_ok_iff.1 hv
  obtain ⟨file, hfile, ht⟩ := bind_eq_ok_iff.1 ht
  rw [mapError_eq_ok_iff] at hfile
  obtain rfl := Except.ok.inj ht
  have hs := faults_eq_nil_iff.1 hfaults
  have hcalls : ∀ d ∈ schema.nodes, ∀ value, schema.HasType (.atomic d.name) value →
      ∀ depth, value.nodes.length ≤ depth →
        file.program.visit depth ("visit_" ++ snakeCase d.name) value = some value.calls :=
    fun d hd value hv depth hlen => Program.visit_eq_calls hs hfile depth hd hv hlen
  obtain ⟨walkers, hw, rfl⟩ := VisitorFile.eq_of_ofSchema? hfile
  have hmethods : ∀ node ∈ schema.nodes.map (·.name), isIdentifier node := by
    intro node hm
    obtain ⟨d, hd, rfl⟩ := List.mem_map.1 hm
    exact isIdentifier_of_isUsable (hs.freeNames d (List.mem_of_mem_filter hd)).usable
  have hwalkers : ∀ walker ∈ walkers, walker.Worded := by
    intro walker hm
    obtain ⟨d, hd, hwalker, -⟩ := exists_of_mem_right hw hm
    exact Walker.worded hs hf (List.mem_of_mem_filter hd) hwalker
  exact ⟨_, _, VisitorFile.text_eq_header_append_code _,
    VisitorFile.ofText?_code hmethods hwalkers, hcalls⟩

theorem visits_block_in_order :
    let schema : Schema := ⟨[
      .record "Block" [⟨"items", .generic "Vec" [.generic "Option" [.atomic "Expr"]]⟩],
      .union "Expr" [⟨"Name", [.atomic "Ident"]⟩, ⟨"Not", [.generic "Box" [.atomic "Expr"]]⟩]]⟩
    let name := Value.union "Expr" "Name" [.leaf "5..6", .leaf "x"]
    let negated := Value.union "Expr" "Not" [.leaf "4..6", .boxed name]
    let block := Value.record "Block" ["span", "items"]
      [.leaf "0..9", .sequence [.absent, .present negated, .present name]]
    ∃ text code program, schema.generateVisitor .default = .ok text ∧
      text = Code.text (Code.heading Options.default.visitorCommand
        ++ ["use crate::ast::*;", ""]) ++ code ∧
      Program.ofText? "'src" code = some program ∧
      program.visit 4 "visit_block" block = some [("visit_block", block), ("visit_expr", negated),
        ("visit_expr", name), ("visit_expr", name)] := by
  intro schema name negated block
  have hborrows : schema.lifetimeFaults .default (.ofSchema schema .default) = [] := by
    -- The first pass finds the expressions, and only then the second finds the blocks.
    rw [lifetimeFaults, borrowing, NameTable.settle, if_neg (by decide), NameTable.settle,
      if_neg (by decide), NameTable.settle, if_pos (by decide)]
    decide
  have hfaults : schema.faults .default = [] := by
    rw [faults, hborrows, List.append_nil]
    decide
  have hverify : schema.verify .default = .ok (.ofSchema schema .default) :=
    verify_eq_ok_iff.2 ⟨hfaults, rfl⟩
  obtain ⟨text, htext⟩ : ∃ text, schema.generateVisitor .default = .ok text := by
    rw [generateVisitor, hverify]
    exact ⟨_, rfl⟩
  have hfields : schema.FieldsNamed := by
    intro name fields hd f hf
    simp only [schema, List.mem_cons, Declaration.record.injEq, List.not_mem_nil, or_false,
      reduceCtorEq] at hd
    obtain ⟨-, rfl⟩ := hd
    rw [List.mem_singleton.1 hf]
    rfl
  obtain ⟨code, program, hcode, hprogram, hvisit⟩ := visitor_visits_nodes_in_order htext hfields
  have hleaf : schema.HasType (.atomic "Ident") (.leaf "x") :=
    .leaf (show ∀ d ∈ schema.nodes, d.name ≠ "Ident" by decide)
  have hname : schema.HasType (.atomic "Expr") name :=
    .union (List.mem_cons_of_mem _ List.mem_cons_self) List.mem_cons_self (.cons hleaf .nil)
  have hnegated : schema.HasType (.atomic "Expr") negated :=
    .union (List.mem_cons_of_mem _ List.mem_cons_self) (List.mem_cons_of_mem _ List.mem_cons_self)
      (.cons (.boxed hname) .nil)
  have hitems : ∀ item ∈ [.absent, .present negated, .present name],
      schema.HasType (.generic "Option" [.atomic "Expr"]) item := by
    simp only [List.forall_mem_cons]
    exact ⟨.absent, .present hnegated, .present hname, List.forall_mem_nil _⟩
  have hblock : schema.HasType (.atomic "Block") block :=
    .record List.mem_cons_self (.cons (.sequence hitems) .nil)
  have hcalls := hvisit
    (.record "Block" [⟨"items", .generic "Vec" [.generic "Option" [.atomic "Expr"]]⟩])
    List.mem_cons_self block hblock 4 (by decide)
  exact ⟨text, code, program, htext, hcode, hprogram, hcalls⟩

end Schema

end NodeSchema
