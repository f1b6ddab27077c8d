import NodeSchema.Command.Run
import NodeSchema.Proofs.Files.Places
import NodeSchema.Proofs.Generation.Agreement
import NodeSchema.Proofs.Options.Reading
import NodeSchema.Proofs.Schema.Reading

namespace NodeSchema.Command

variable {source : Source} {tree : FileTree} {schema : Schema} {settings options : Options}
  {output : Option String} {code : String} {effect : Effect}

/-- The schema of a source: the one in its file, or the built-in one. -/
def Source.GivesSchema (source : Source) (tree : FileTree) (schema : Schema) : Prop :=
  match source.schema with
  | some path => ∃ text, tree.read path = .ok text ∧ Schema.ofText? text = .ok schema
  | none => schema = JavaScript.schema

/-- The options of a source before its own settings count. What its file gives for some keys holds,
the other keys are as they are by default, and so are all of them without a file. -/
def Source.GivesOptions (source : Source) (tree : FileTree) (options : Options) : Prop :=
  match source.options with
  | some path => ∃ text given, tree.read path = .ok text ∧ Options.Spells given text ∧
    Options.default.Holds given options
  | none => options = .default

/-- The settings of a source stand over those of the options. -/
structure Source.Overrides (source : Source) (settings options : Options) : Prop where
  lifetime : options.lifetime = source.lifetime.getD settings.lifetime
  spanImport : options.spanImport = source.spanImport.getD settings.spanImport
  astModule : options.astModule = source.astModule.getD settings.astModule
  textAlias : options.textAlias = settings.textAlias
  opaqueTypes : options.opaqueTypes = settings.opaqueTypes
  astCommand : options.astCommand = settings.astCommand
  visitorCommand : options.visitorCommand = settings.visitorCommand

/-- What a source stands for among the files of a tree. -/
def Source.Loads (source : Source) (tree : FileTree) (schema : Schema) (options : Options) : Prop :=
  source.GivesSchema tree schema ∧
    ∃ settings, source.GivesOptions tree settings ∧ source.Overrides settings options

theorem Source.overrides_iff : source.Overrides settings options ↔
    options = source.override settings := by
  constructor
  · intro h
    obtain ⟨hlifetime, hspan, hmodule, halias, hopaque, hast, hvisitor⟩ := h
    cases options with
    | mk => simp_all [override]
  · rintro rfl
    constructor
    all_goals rfl

theorem Source.readSchema_eq_ok_iff :
    source.readSchema tree.read = .ok schema ↔ source.GivesSchema tree schema := by
  rw [readSchema, GivesSchema]
  cases source.schema with
  | some path => simp only [bind_eq_ok_iff, mapError_eq_ok_iff]
  | none => simp only [Except.ok.injEq, eq_comm]

theorem Source.readOptions_eq_ok_iff :
    source.readOptions tree.read = .ok options ↔ source.GivesOptions tree options := by
  rw [readOptions, GivesOptions]
  cases source.options with
  | some path =>
    simp only [bind_eq_ok_iff, mapError_eq_ok_iff, Options.ofText?_eq_ok_iff, exists_and_left]
  | none => simp only [Except.ok.injEq, eq_comm]

/-- Loading succeeds with what the source stands for, and with nothing else. -/
theorem Source.load_eq_ok_iff :
    source.load tree.read = .ok (schema, options) ↔ source.Loads tree schema options := by
  simp only [load, bind_eq_ok_iff, readSchema_eq_ok_iff, readOptions_eq_ok_iff, Loads,
    overrides_iff]
  constructor
  · intro h
    obtain ⟨schema', hs, settings, ho, h⟩ := h
    cases h
    exact ⟨hs, settings, ho, rfl⟩
  · intro h
    obtain ⟨hs, settings, ho, rfl⟩ := h
    exact ⟨schema, hs, settings, ho, rfl⟩

/-- The code of an effect has been delivered: written to the file that is named, or printed. -/
def Delivered (output : Option String) (code : String) (tree : FileTree)
    (result : Outcome × FileTree) : Prop :=
  match output with
  | some path => result.1.output = "" ∧ tree.Stored path code result.2
  | none => result.1.output = code ∧ result.2 = tree

/-- Code can be delivered unless it is to be written to a file that does not take it. -/
def Deliverable (output : Option String) (code : String) (tree : FileTree) : Prop :=
  ∀ path, output = some path → ∃ after, tree.write path code = .ok after

theorem status_run_deliver :
    ((deliver output code).run tree).1.status = 0 ↔ Deliverable output code tree := by
  cases output with
  | none => exact iff_of_true rfl nofun
  | some path =>
    rw [deliver, Effect.run]
    split
    next after h =>
      apply iff_of_true rfl
      intro path' hp
      cases hp
      exact ⟨after, h⟩
    next fault h =>
      apply iff_of_false
      · nofun
      · intro hd
        obtain ⟨after, hw⟩ := hd path rfl
        cases h.symm.trans hw

theorem delivered_run (h : Deliverable output code tree) :
    Delivered output code tree ((deliver output code).run tree) := by
  cases output with
  | none => exact ⟨rfl, rfl⟩
  | some path =>
    obtain ⟨after, hw⟩ := h path rfl
    rw [deliver, Effect.run, hw]
    exact ⟨rfl, FileTree.stored_of_write hw⟩

theorem Effect.run_failed (h : (effect.run tree).1.status ≠ 0) :
    (effect.run tree).1.output = "" ∧ (effect.run tree).2 = tree := by
  cases effect with
  | print text => exact absurd rfl h
  | save path text =>
    rw [Effect.run] at h ⊢
    split
    next after hw =>
      rw [hw] at h
      exact absurd rfl h
    next => exact ⟨rfl, rfl⟩
  | report schema dump => exact absurd rfl h

theorem run_failed {command : Command} (h : (command.run tree).1.status ≠ 0) :
    (command.run tree).1.output = "" ∧ (command.run tree).2 = tree := by
  rw [run] at h ⊢
  split
  next effect he =>
    rw [he] at h
    exact effect.run_failed h
  next => exact ⟨rfl, rfl⟩

/-- A command that delivers the code of a generator. It succeeds where a schema and options are
loaded, the generator gives code for them, and this can be delivered; then it is delivered. -/
structure Delivers (generate : Schema → Options → Except Fault String) (output : Option String)
    (source : Source) (tree : FileTree) (result : Outcome × FileTree) : Prop where
  succeeds : result.1.status = 0 ↔ ∃ schema options code, source.Loads tree schema options ∧
    generate schema options = .ok code ∧ Deliverable output code tree
  delivered : result.1.status = 0 → ∀ schema options code, source.Loads tree schema options →
    generate schema options = .ok code → Delivered output code tree result

theorem run_of_effect {command : Command} (h : command.effect tree.read = .ok effect) :
    command.run tree = effect.run tree := by
  rw [run, h]

theorem status_run_iff {command : Command} : (command.run tree).1.status = 0 ↔
    ∃ effect, command.effect tree.read = .ok effect ∧ (effect.run tree).1.status = 0 := by
  cases he : command.effect tree.read with
  | ok effect =>
    rw [run_of_effect he]
    simp only [Except.ok.injEq, exists_eq_left']
  | error problem =>
    rw [run, he]
    exact iff_of_false nofun nofun

theorem effect_eq_ok_iff {α : Type} {command : Command}
    {compute : Schema → Options → Except Fault α} {conclude : Schema → α → Effect}
    (h : command.effect tree.read = command.source.load tree.read >>= fun (schema, options) =>
      (compute schema options).mapError .schema >>= fun result =>
        pure (conclude schema result)) :
    command.effect tree.read = .ok effect ↔ ∃ schema options result,
      command.source.Loads tree schema options ∧ compute schema options = .ok result ∧
        effect = conclude schema result := by
  rw [h, bind_eq_ok_iff]
  simp only [Prod.exists, Source.load_eq_ok_iff, bind_eq_ok_iff, mapError_eq_ok_iff]
  constructor
  · intro h
    obtain ⟨schema, options, hl, result, hc, he⟩ := h
    exact ⟨schema, options, result, hl, hc, (Except.ok.inj he).symm⟩
  · intro h
    obtain ⟨schema, options, result, hl, hc, rfl⟩ := h
    exact ⟨schema, options, hl, result, hc, rfl⟩

theorem effect_ast_eq_ok_iff : (⟨source, .ast output⟩ : Command).effect tree.read = .ok effect ↔
    ∃ schema options code, source.Loads tree schema options ∧
      schema.generateDefinitions options = .ok code ∧ effect = deliver output code :=
  effect_eq_ok_iff rfl

theorem effect_visitor_eq_ok_iff :
    (⟨source, .visitor output⟩ : Command).effect tree.read = .ok effect ↔
      ∃ schema options code, source.Loads tree schema options ∧
        schema.generateVisitor options = .ok code ∧ effect = deliver output code :=
  effect_eq_ok_iff rfl

theorem effect_check_eq_ok_iff {dump : Bool} :
    (⟨source, .check dump⟩ : Command).effect tree.read = .ok effect ↔
      ∃ schema options table, source.Loads tree schema options ∧
        schema.verify options = .ok table ∧ effect = .report schema dump :=
  effect_eq_ok_iff rfl

theorem delivers_of_effect {command : Command}
    {generate : Schema → Options → Except Fault String}
    (h : ∀ effect, command.effect tree.read = .ok effect ↔ ∃ schema options code,
      command.source.Loads tree schema options ∧ generate schema options = .ok code ∧
        effect = deliver output code) :
    Delivers generate output command.source tree (command.run tree) := by
  constructor
  case succeeds =>
    rw [status_run_iff]
    constructor
    · intro hs
      obtain ⟨effect, he, hs⟩ := hs
      obtain ⟨schema, options, code, hl, hg, rfl⟩ := (h effect).1 he
      exact ⟨schema, options, code, hl, hg, status_run_deliver.1 hs⟩
    · intro hs
      obtain ⟨schema, options, code, hl, hg, hd⟩ := hs
      have he := (h _).2 ⟨schema, options, code, hl, hg, rfl⟩
      exact ⟨_, he, status_run_deliver.2 hd⟩
  case delivered =>
    intro hs schema options code hl hg
    have he := (h _).2 ⟨schema, options, code, hl, hg, rfl⟩
    rw [run_of_effect he] at hs ⊢
    exact delivered_run (status_run_deliver.1 hs)

theorem delivers_ast (source : Source) (output : Option String) (tree : FileTree) :
    Delivers Schema.generateDefinitions output source tree (run ⟨source, .ast output⟩ tree) :=
  delivers_of_effect fun _ => effect_ast_eq_ok_iff

theorem delivers_visitor (source : Source) (output : Option String) (tree : FileTree) :
    Delivers Schema.generateVisitor output source tree (run ⟨source, .visitor output⟩ tree) :=
  delivers_of_effect fun _ => effect_visitor_eq_ok_iff

section Check

variable {dump : Bool}

theorem status_check_iff : (run ⟨source, .check dump⟩ tree).1.status = 0 ↔
    ∃ schema options table, source.Loads tree schema options ∧
      schema.verify options = .ok table := by
  rw [status_run_iff]
  constructor
  · intro h
    obtain ⟨effect, he, -⟩ := h
    obtain ⟨schema, options, table, hl, hv, -⟩ := effect_check_eq_ok_iff.1 he
    exact ⟨schema, options, table, hl, hv⟩
  · intro h
    obtain ⟨schema, options, table, hl, hv⟩ := h
    exact ⟨_, effect_check_eq_ok_iff.2 ⟨schema, options, table, hl, hv, rfl⟩, rfl⟩

theorem run_check_of_status (h : (run ⟨source, .check dump⟩ tree).1.status = 0) :
    ∃ schema, run ⟨source, .check dump⟩ tree =
      (⟨0, if dump then dumpText schema else "", [.valid schema]⟩, tree) := by
  obtain ⟨effect, he, -⟩ := status_run_iff.1 h
  obtain ⟨schema, -, -, -, -, rfl⟩ := effect_check_eq_ok_iff.1 he
  exact ⟨schema, run_of_effect he⟩

theorem run_check_snd : (run ⟨source, .check dump⟩ tree).2 = tree := by
  by_cases h : (run ⟨source, .check dump⟩ tree).1.status = 0
  · obtain ⟨schema, hrun⟩ := run_check_of_status h
    rw [hrun]
  · exact (run_failed h).2

theorem output_check : (run ⟨source, .check false⟩ tree).1.output = "" := by
  by_cases h : (run ⟨source, .check false⟩ tree).1.status = 0
  · obtain ⟨schema, hrun⟩ := run_check_of_status h
    rw [hrun]
    rfl
  · exact (run_failed h).1

theorem exists_generateDefinitions_iff :
    (∃ text, schema.generateDefinitions options = .ok text) ↔
      ∃ table, schema.verify options = .ok table := by
  rw [← fault?_eq_none_iff, ← fault?_eq_none_iff, Schema.fault?_generateDefinitions]

theorem status_check_iff_ast : (run ⟨source, .check dump⟩ tree).1.status = 0 ↔
    (run ⟨source, .ast none⟩ tree).1.status = 0 := by
  rw [status_check_iff, (delivers_ast source none tree).succeeds]
  constructor
  · intro h
    obtain ⟨schema, options, table, hl, hv⟩ := h
    obtain ⟨text, hg⟩ := exists_generateDefinitions_iff.2 ⟨table, hv⟩
    exact ⟨schema, options, text, hl, hg, nofun⟩
  · intro h
    obtain ⟨schema, options, text, hl, hg, -⟩ := h
    obtain ⟨table, hv⟩ := exists_generateDefinitions_iff.1 ⟨text, hg⟩
    exact ⟨schema, options, table, hl, hv⟩

theorem status_check_of_visitor (h : (run ⟨source, .visitor output⟩ tree).1.status = 0) :
    (run ⟨source, .check dump⟩ tree).1.status = 0 := by
  obtain ⟨schema, options, text, hl, hg, -⟩ := (delivers_visitor source output tree).succeeds.1 h
  obtain ⟨table, hv, -⟩ := bind_eq_ok_iff.1 hg
  exact status_check_iff.2 ⟨schema, options, table, hl, hv⟩

end Check

/-- A command that fails prints nothing and changes no file. One that succeeds delivers the code of
its generator to one place only; a check never changes a file, and succeeds where the definitions
can be printed, so that it does wherever a visitor is delivered. -/
theorem run_all_or_nothing (tree : FileTree) :
    (∀ command : Command, (command.run tree).1.status ≠ 0 →
      (command.run tree).1.output = "" ∧ (command.run tree).2 = tree) ∧
    (∀ source output,
      Delivers Schema.generateDefinitions output source tree (run ⟨source, .ast output⟩ tree)) ∧
    (∀ source output,
      Delivers Schema.generateVisitor output source tree (run ⟨source, .visitor output⟩ tree)) ∧
    ∀ source dump,
      (run ⟨source, .check dump⟩ tree).2 = tree ∧
      (dump = false → (run ⟨source, .check dump⟩ tree).1.output = "") ∧
      ((run ⟨source, .check dump⟩ tree).1.status = 0 ↔
        (run ⟨source, .ast none⟩ tree).1.status = 0) ∧
      ∀ output, (run ⟨source, .visitor output⟩ tree).1.status = 0 →
        (run ⟨source, .check dump⟩ tree).1.status = 0 := by
  use fun _ => run_failed, fun source output => delivers_ast source output tree,
    fun source output => delivers_visitor source output tree
  intro source dump
  use run_check_snd
  constructor
  · rintro rfl
    exact output_check
  · exact ⟨status_check_iff_ast, fun _ => status_check_of_visitor⟩

/-- The definitions are written over the file that the schema has been read from. -/
theorem run_over_schema :
    let schema : Schema := ⟨[.record "Token" [⟨"text", .atomic "Word"⟩]]⟩
    let options : Options := { Options.default with textAlias := "Word" }
    let settings : String := "\x7b\"text_alias\": \"Word\", \"lifetime\": \"a\"\x7d"
    let home : List String := ["home"]
    let tree : FileTree := ⟨[(home, .directory),
      (["home", "nodes"], .file "[[\"ast\",\"struct\",\"Token\",[\"text\",\"Word\"]]]"),
      (["home", "settings"], .file settings)], home⟩
    let source : Source := ⟨some "nodes", some "settings", some "src", none, none⟩
    ∃ code, schema.generateDefinitions options = .ok code ∧
      (run ⟨source, .ast (some "nodes")⟩ tree).1.status = 0 ∧
      (run ⟨source, .ast (some "nodes")⟩ tree).1.output = "" ∧
      tree.Stored "nodes" code (run ⟨source, .ast (some "nodes")⟩ tree).2 ∧
      (run ⟨source, .check true⟩ tree).1.status = 0 ∧ (run ⟨source, .check true⟩ tree).2 = tree := by
  intro schema options settings home tree source
  have hverify : schema.verify options = .ok (.ofSchema schema options) :=
    Schema.verify_of_passes 1 (by decide) (by decide) (by decide)
  have hloads : source.Loads tree schema options := by
    have hfield : (Json.array [.string "text", .string "Word"]).SpellsField
        ⟨"text", .atomic "Word"⟩ := .pair (by decide) (.of_isIdentifier (by decide))
    have hread := (Schema.reads_iff_spells _ schema).2
      (.list (.cons (.record (by decide) (.cons hfield .nil)) .nil))
    have hschema : source.GivesSchema tree schema :=
      ⟨_, rfl, bind_eq_ok_iff.2 ⟨_, mapError_eq_ok_iff.2 (by cbv), mapError_eq_ok_iff.2 hread⟩⟩
    have hgiven : Options.Spells [(.textAlias, .text "Word"), (.lifetime, .text "a")] settings := by
      have hnone : ([] : List Char).all Json.isBlank := rfl
      have hnext : Json.Gap false ([] ++ ',' :: [' ']) := .next hnone rfl
      have halias : Options.SpellsMember (.textAlias, .text "Word") _ :=
        .of_plain (by decide) (by decide)
      have hlifetime : Options.SpellsMember (.lifetime, .text "a") _ :=
        .of_plain (by decide) (by decide)
      have hitems := Json.Items.cons (.first hnone) halias (.cons hnext hlifetime (.nil hnone))
      exact ⟨[], _, [], hnone, hnone, .object (by decide) hitems, by decide⟩
    have hoptions : source.GivesOptions tree { options with lifetime := "a" } := by
      refine ⟨settings, _, rfl, hgiven, ?_⟩
      intro key
      cases key <;> rfl
    exact ⟨hschema, _, hoptions, Source.overrides_iff.2 rfl⟩
  obtain ⟨code, hcode⟩ := exists_generateDefinitions_iff.2 ⟨_, hverify⟩
  have hwritten : Deliverable (some "nodes") code tree := by
    intro path hpath
    cases hpath
    exact ⟨_, rfl⟩
  obtain ⟨-, hast, -, hcheck⟩ := run_all_or_nothing tree
  have hsucceeds := (hast source (some "nodes")).succeeds.2
    ⟨schema, options, code, hloads, hcode, hwritten⟩
  obtain ⟨houtput, hstored⟩ := (hast source (some "nodes")).delivered hsucceeds _ _ _ hloads hcode
  have hprints : Deliverable none code tree := by
    intro path hpath
    cases hpath
  have hprinted := (hast source none).succeeds.2
    ⟨schema, options, code, hloads, hcode, hprints⟩
  obtain ⟨hsame, -, hiff, -⟩ := hcheck source true
  exact ⟨code, hcode, hsucceeds, houtput, hstored, hiff.2 hprinted, hsame⟩

end NodeSchema.Command
