import NodeSchema.Proofs.Definitions.Decoding
import NodeSchema.Proofs.Visitor.Typing

namespace NodeSchema.Schema

open Code (DefinitionsFile VisitorFile Walker)
open Program (rootsAll)
open Text (isIdentifier isIdentifier_of_isUsable snakeCase)

/-- What is defined and how it is visited, for the nodes of a schema. -/
structure Paired (schema : Schema) (items : List Item) (program : Program) : Prop where
  defined : items = schema.declarations.map Item.ofDeclaration
  types : (items.filter (·.isNode)).map (·.name) = schema.nodes.map (·.name)
  methods : program.methods = schema.nodes.map fun d =>
    ⟨"visit_" ++ snakeCase d.name, d.name, "walk_" ++ snakeCase d.name⟩
  routines : (program.routines.map fun r => (r.name, r.node)) =
    schema.nodes.map fun d => ("walk_" ++ snakeCase d.name, d.name)
  once : (schema.nodes.map (·.name)).Nodup
  plain : ∀ name tags, .plain name tags ∈ schema.declarations →
    (∀ method ∈ program.methods, method.node ≠ name) ∧ ∀ r ∈ program.routines, r.node ≠ name
  apart : (program.methods.map (·.name) ++ program.routines.map (·.name)).Nodup
  default : ∀ method ∈ program.methods, ∃ r ∈ program.routines,
    r.name = method.routine ∧ r.node = method.node
  fits : ∀ r ∈ program.routines, r.Fits items program.methods
  /-- A walker without arms reads fields of the node only, which its struct defines. -/
  reads : ∀ r ∈ program.routines, r.arms = none → ∀ root ∈ rootsAll r.body,
    ∃ fields, .struct r.node fields ∈ items ∧ ∃ f ∈ fields, root = .field "node" f.name

variable {schema : Schema} {options : Options}

theorem exists_program {text : String} (h : schema.generateVisitor options = .ok text)
    (hf : schema.FieldsNamed) :
    ∃ code walkers, text = Code.text (Code.heading options.visitorCommand
        ++ ["use " ++ options.astModule ++ "::*;", ""]) ++ code ∧
      List.Forall₂ (fun d w => Walker.ofDeclaration? (.ofSchema schema options) d = .ok (some w) ∧
        w.node = d.name) schema.nodes walkers ∧
      Program.ofText? options.quotedLifetime code =
        some ⟨(schema.nodes.map (·.name)).map Code.method, walkers.map (·.routine)⟩ := by
  obtain ⟨hs, file, rfl, hfile⟩ := exists_visitorFile h
  obtain ⟨walkers, hw, rfl⟩ := VisitorFile.eq_of_ofSchema? hfile
  have hmethods : ∀ node ∈ schema.nodes.map (·.name), isIdentifier node := by
    rw [List.forall_mem_map]
    exact fun d hd => isIdentifier_of_isUsable (hs.freeNames d (List.mem_of_mem_filter hd)).usable
  have hworded : ∀ walker ∈ walkers, walker.Worded := by
    intro walker hm
    obtain ⟨d, hd, hwalker, -⟩ := exists_of_mem_right hw hm
    exact Walker.worded hs hf (List.mem_of_mem_filter hd) hwalker
  exact ⟨_, walkers, VisitorFile.text_eq_header_append_code _, hw,
    VisitorFile.ofText?_code hmethods hworded⟩

theorem nodes_items (schema : Schema) :
    ((schema.declarations.map Item.ofDeclaration).filter (·.isNode)).map (·.name) =
      schema.nodes.map (·.name) := by
  rw [nodes]
  induction schema.declarations with
  | nil => rfl
  | cons d ds ih =>
    cases d with
    | record name fields => exact congrArg (name :: ·) ih
    | union name variants => exact congrArg (name :: ·) ih
    | plain name tags => exact ih

theorem once_of_sound (hs : schema.Sound options) : (schema.nodes.map (·.name)).Nodup :=
  hs.declaredOnce.sublist (List.filter_sublist.map _)

theorem ne_plain (hn : (schema.declarations.map (·.name)).Nodup) {name : String}
    {tags : List String} (hp : .plain name tags ∈ schema.declarations) {d : Declaration}
    (hd : d ∈ schema.nodes) : d.name ≠ name := by
  intro he
  obtain ⟨hd, hi⟩ := List.mem_filter.1 hd
  obtain rfl := List.inj_on_of_nodup_map hn hd hp he
  cases hi

theorem visit_ne_walk {m n : String} : "visit_" ++ m ≠ "walk_" ++ n := by
  intro h
  have hhead := congrArg (·.toList.head?) h
  simp only [String.toList_append] at hhead
  cases hhead

theorem reads_of_record {table : NameTable} {d : Declaration} {walker : Walker}
    (h : Walker.ofDeclaration? table d = .ok (some walker)) (hr : walker.routine.arms = none) :
    ∀ root ∈ rootsAll walker.routine.body, ∃ fields, Item.ofDeclaration d = .struct d.name fields ∧
      ∃ f ∈ fields, root = .field "node" f.name := by
  cases d with
  | record name fields =>
    obtain ⟨steps, hsteps, h⟩ := bind_eq_ok_iff.1 h
    obtain rfl := Option.some.inj (Except.ok.inj h)
    obtain ⟨found, rfl, hwalks⟩ := Code.walks_of_fieldSteps? hsteps
    intro root hroot
    have hread : root ∈ rootsAll ((found.filterMap id).map (·.statement)) := by
      rw [Walker.routine] at hroot
      split at hroot
      · cases hroot
      · exact hroot
    rw [Code.rootsAll_members hwalks] at hread
    obtain ⟨f, hf, rfl⟩ := List.mem_map.1 hread
    have hwritten : ⟨f.written, f.type⟩ ∈ fields.map fun f => (⟨f.written, f.type⟩ : Field) :=
      List.mem_map_of_mem (List.mem_of_mem_filter hf)
    exact ⟨_, rfl, _, List.mem_cons_of_mem _ hwritten, rfl⟩
  | union name variants =>
    obtain ⟨arms, -, h⟩ := bind_eq_ok_iff.1 h
    obtain rfl := Option.some.inj (Except.ok.inj h)
    cases hr
  | plain name tags => cases h

/-- The methods and the walkers of a sound schema are paired with its definitions. -/
theorem paired_of_walkers (hs : schema.Sound options) {walkers : List Walker}
    (hw : List.Forall₂ (fun d w => Walker.ofDeclaration? (.ofSchema schema options) d =
      .ok (some w) ∧ w.node = d.name) schema.nodes walkers) :
    schema.Paired (schema.declarations.map Item.ofDeclaration)
      ⟨(schema.nodes.map (·.name)).map Code.method, walkers.map (·.routine)⟩ := by
  have hmethods : (schema.nodes.map (·.name)).map Code.method = schema.nodes.map fun d =>
      ⟨"visit_" ++ snakeCase d.name, d.name, "walk_" ++ snakeCase d.name⟩ := List.map_map
  have hroutines : ((walkers.map (·.routine)).map fun r => (r.name, r.node)) =
      schema.nodes.map fun d => ("walk_" ++ snakeCase d.name, d.name) := by
    rw [List.map_map, ← List.forall₂_eq_eq_eq, List.forall₂_map_left_iff,
      List.forall₂_map_right_iff]
    exact hw.flip.imp fun walker d h => by
      rw [Function.comp, (Program.name_routine walker).1, (Program.name_routine walker).2, h.2]
  have hmethod : ∀ name, (NameTable.ofSchema schema options).isNode name →
      Code.method name ∈ (schema.nodes.map (·.name)).map Code.method := by
    intro name hn
    obtain ⟨d, hd, rfl⟩ := (Program.isNode_iff hs).1 hn
    exact List.mem_map_of_mem (List.mem_map_of_mem hd)
  have hnode : ∀ r ∈ walkers.map (·.routine), ∃ d ∈ schema.nodes, ∃ walker,
      Walker.ofDeclaration? (.ofSchema schema options) d = .ok (some walker) ∧
        r = walker.routine ∧ r.node = d.name := by
    intro r hr
    obtain ⟨walker, hm, rfl⟩ := List.mem_map.1 hr
    obtain ⟨d, hd, hwalker, hname⟩ := exists_of_mem_right hw hm
    exact ⟨d, hd, walker, hwalker, rfl, (Program.name_routine walker).2.trans hname⟩
  constructor
  case defined => rfl
  case types => exact nodes_items schema
  case methods => exact hmethods
  case routines => exact hroutines
  case once => exact once_of_sound hs
  case plain =>
    intro name tags hp
    constructor
    · rw [hmethods, List.forall_mem_map]
      exact fun d hd => ne_plain hs.declaredOnce hp hd
    · intro r hr
      obtain ⟨d, hd, -, -, -, hname⟩ := hnode r hr
      rw [hname]
      exact ne_plain hs.declaredOnce hp hd
  case apart =>
    have hnames : (walkers.map (·.routine)).map (·.name) =
        schema.nodes.map fun d => "walk_" ++ snakeCase d.name := by
      simpa only [List.map_map, Function.comp_def] using congrArg (List.map Prod.fst) hroutines
    rw [hnames, hmethods, List.map_map, List.nodup_append]
    refine ⟨Program.nodup_prefixed hs "visit_", Program.nodup_prefixed hs "walk_", ?_⟩
    rw [List.forall_mem_map]
    intro d _
    rw [List.forall_mem_map]
    intro e _ he
    exact visit_ne_walk he
  case default =>
    rw [hmethods, List.forall_mem_map]
    intro d hd
    obtain ⟨walker, hm, -, hname⟩ := exists_of_mem_left hw hd
    have hr := Program.name_routine walker
    rw [hname] at hr
    exact ⟨walker.routine, List.mem_map_of_mem hm, hr⟩
  case fits =>
    intro r hr
    obtain ⟨d, hd, walker, hwalker, rfl, -⟩ := hnode r hr
    exact Program.fits_walker hs hmethod (List.mem_of_mem_filter hd) hwalker
  case reads =>
    intro r hr harms root hroot
    obtain ⟨d, hd, walker, hwalker, rfl, hname⟩ := hnode r hr
    obtain ⟨fields, hitem, hf⟩ := reads_of_record hwalker harms root hroot
    have hdefined := List.mem_map_of_mem (f := Item.ofDeclaration) (List.mem_of_mem_filter hd)
    rw [hitem] at hdefined
    exact ⟨fields, hname ▸ hdefined, hf⟩

/-- Both generated files, read behind their headers, are paired: the nodes that are defined are
those with a method and a walker, and every walker is well typed against the definitions. -/
theorem definitions_and_visitor_paired {code : GeneratedCode}
    (h : schema.generate options = .ok code) (hf : schema.FieldsNamed) :
    ∃ definitions items visitor program,
      code.definitions = DefinitionsFile.imports options ++ definitions ∧
      Item.ofText? definitions = some (options.textAlias, items) ∧
      code.visitor = Code.text (Code.heading options.visitorCommand
        ++ ["use " ++ options.astModule ++ "::*;", ""]) ++ visitor ∧
      Program.ofText? options.quotedLifetime visitor = some program ∧
      schema.Paired items program := by
  obtain ⟨hdefinitions, hvisitor⟩ := generate_eq_ok_iff.1 h
  obtain ⟨hs, -⟩ := exists_definitionsFile hdefinitions
  obtain ⟨definitions, hd, hitems⟩ := exists_items hdefinitions hf
  obtain ⟨visitor, walkers, ht, hw, hprogram⟩ := exists_program hvisitor hf
  exact ⟨definitions, _, visitor, _, hd, hitems, ht, hprogram, paired_of_walkers hs hw⟩

theorem block_and_expression_paired :
    let schema : Schema := ⟨[
      .record "CodeBlock" [⟨"type", .generic "Option" [.generic "Box" [.atomic "Expr"]]⟩,
        ⟨"items", .generic "Vec" [.atomic "CodeBlock"]⟩],
      .plain "Sign" ["Plus", "Minus"],
      .union "Expr" [⟨"Name", [.atomic "Ident"]⟩,
        ⟨"Signed", [.atomic "Sign", .generic "Box" [.generic "Vec" [.atomic "Expr"]]]⟩]]⟩
    ∃ code definitions items visitor program, schema.generate .default = .ok code ∧
      code.definitions = DefinitionsFile.imports .default ++ definitions ∧
      Item.ofText? definitions = some ("Ident", items) ∧
      code.visitor = Code.text (Code.heading Options.default.visitorCommand
        ++ ["use crate::ast::*;", ""]) ++ visitor ∧
      Program.ofText? "'src" visitor = some program ∧ schema.Paired items program ∧
      program.methods = [⟨"visit_code_block", "CodeBlock", "walk_code_block"⟩,
        ⟨"visit_expr", "Expr", "walk_expr"⟩] := by
  intro schema
  have hverify : schema.verify .default = .ok (.ofSchema schema .default) :=
    verify_of_passes 2 (by decide) (by decide) (by decide)
  have hfields : schema.FieldsNamed := by decide
  obtain ⟨code, hcode⟩ : ∃ code, schema.generate .default = .ok code := by
    rw [generate, hverify]
    exact ⟨_, rfl⟩
  obtain ⟨definitions, items, visitor, program, hd, hitems, hv, hprogram, hpaired⟩ :=
    definitions_and_visitor_paired hcode hfields
  have hmethods : program.methods = _ := hpaired.methods
  exact ⟨code, definitions, items, visitor, program, hcode, hd, hitems, hv, hprogram, hpaired,
    hmethods.trans rfl⟩

end NodeSchema.Schema
