import NodeSchema.Proofs.Definitions.ReadFile
import NodeSchema.Proofs.Generation.Blocks
import NodeSchema.Proofs.Generation.Meanings
import NodeSchema.Proofs.Text.Replacement

namespace NodeSchema

open Code (Arm Binding Definition DefinitionsFile FieldLine Operand Step VariantLine VisitorFile
  Walker heading indent methodLines spanAccessor)
open Text (SameBut Unquoted isIdentifier isIdentifier_of_isUsable isUsable replace snakeCase
  unquoted_of_isIdentifier unquoted_snakeCase)

/-- The options with another lifetime. -/
def Options.withLifetime (options : Options) (lifetime : String) : Options :=
  { options with lifetime }

/-- No quote stands in the texts that are copied into the generated files as they are. -/
structure Options.CopiesUnquoted (options : Options) : Prop where
  spanImport : Unquoted options.spanImport
  astModule : Unquoted options.astModule
  astCommand : Unquoted options.astCommand
  visitorCommand : Unquoted options.visitorCommand

/-- Two tables with the same meaning for every name, and a lifetime each. -/
structure NameTable.Relabelled (first second : String) (table other : NameTable) : Prop where
  first : table.lifetime = "'" ++ first
  second : other.lifetime = "'" ++ second
  meaning? : ∀ name, table.meaning? name = other.meaning? name

theorem NameTable.relabelled_withLifetime (schema : Schema) (options : Options) (second : String) :
    Relabelled options.lifetime second (.ofSchema schema options)
      (.ofSchema schema (options.withLifetime second)) :=
  ⟨rfl, rfl, fun _ => rfl⟩

/-- A schema that is sound under one lifetime is sound under another. -/
theorem Schema.Sound.withLifetime {schema : Schema} {options : Options}
    (hs : schema.Sound options) {second : String} (hu : isUsable second) :
    schema.Sound (options.withLifetime second) where
  lifetime := hu
  textAlias := hs.textAlias
  freeNames := fun d hd =>
    have h := hs.freeNames d hd
    ⟨h.usable, h.not_reserved, h.ne_textAlias, h.not_primitive, h.not_opaque⟩
  declaredOnce := hs.declaredOnce
  methodsApart := hs.methodsApart
  membersApart := hs.membersApart
  wellNamed := hs.wellNamed
  known := hs.known
  borrows := hs.borrows

namespace Code

variable {table other : NameTable} {first second : String}

/-- Lines that are the same up to the lifetime. -/
abbrev SameLines (first second : String) : List String → List String → Prop :=
  List.Forall₂ (SameBut first second)

theorem SameLines.append {ls ls' ms ms' : List String} (h : SameLines first second ls ms)
    (h' : SameLines first second ls' ms') : SameLines first second (ls ++ ls') (ms ++ ms') :=
  List.rel_append h h'

theorem SameLines.of_unquoted {lines : List String} (h : ∀ line ∈ lines, Unquoted line) :
    SameLines first second lines lines :=
  List.forall₂_same.2 fun line hm => .of_unquoted (h line hm)

theorem SameLines.line (level : Nat) {cs : List Char} (h : cs.contains '\'' = false) :
    SameLines first second [indent level (String.ofList cs)] [indent level (String.ofList cs)] :=
  .cons (.indent level (.fixed h)) .nil

theorem SameLines.closing : SameLines first second ["\x7d"] ["\x7d"] := .cons (.fixed rfl) .nil

theorem SameLines.map {α β : Type} {f : α → String} {g : β → String} {xs : List α} {ys : List β}
    (h : List.Forall₂ (fun x y => SameBut first second (f x) (g y)) xs ys) :
    SameLines first second (xs.map f) (ys.map g) := by
  rwa [SameLines, List.forall₂_map_left_iff, List.forall₂_map_right_iff]

theorem SameLines.flatMap {α β : Type} {f : α → List String} {g : β → List String} {xs : List α}
    {ys : List β} (h : List.Forall₂ (fun x y => SameLines first second (f x) (g y)) xs ys) :
    SameLines first second (xs.flatMap f) (ys.flatMap g) :=
  List.rel_flatMap h fun _ _ h => h

theorem SameLines.intercalate {separator : List String}
    (hs : SameLines first second separator separator) {blocks blocks' : List (List String)}
    (h : List.Forall₂ (SameLines first second) blocks blocks') :
    SameLines first second (separator.intercalate blocks) (separator.intercalate blocks') := by
  induction h with
  | nil => exact .nil
  | @cons block block' blocks blocks' hb hrest ih =>
    cases hrest with
    | nil => rwa [List.intercalate_singleton, List.intercalate_singleton]
    | cons hb' hrest =>
      rw [List.intercalate_cons_cons, List.intercalate_cons_cons]
      exact (hb.append hs).append ih

theorem sameBut_toCode (ht : table.Relabelled first second other) {type : TypeExpr}
    (hw : type.WellNamed) {s t : String} (hs : type.toCode table = .ok s)
    (ho : type.toCode other = .ok t) : SameBut first second s t := by
  induction hw generalizing s t with
  | @atomic name hn =>
    have hname : SameBut first second name name := .of_unquoted (unquoted_of_isIdentifier hn)
    have happlied : SameBut first second (name ++ "<" ++ ("'" ++ first) ++ ">")
        (name ++ "<" ++ ("'" ++ second) ++ ">") :=
      .around ((unquoted_of_isIdentifier hn).append (.fixed rfl)) (.fixed rfl)
    rw [TypeExpr.toCode, ht.first] at hs
    rw [TypeExpr.toCode, ← ht.meaning?, ht.second] at ho
    cases hm : table.meaning? name with
    | none => rw [hm] at hs; cases hs
    | some meaning =>
      rw [hm] at hs ho
      cases meaning with
      | textAlias => cases hs; cases ho; exact happlied
      | node => cases hs; cases ho; exact happlied
      | plain => cases hs; cases ho; exact hname
      | foreign => cases hs; cases ho; exact hname
  | @generic container args hn hne ha ih =>
    obtain ⟨ss, hss, rfl⟩ := TypeExpr.exists_texts_of_toCode_generic hs
    obtain ⟨ts, hts, rfl⟩ := TypeExpr.exists_texts_of_toCode_generic ho
    rw [← mapM_eq_ok_iff fun _ _ _ => Iff.rfl] at hss hts
    have hargs : List.Forall₂ (SameBut first second) ss ts :=
      forall₂_mapM hss hts fun arg hm s t hs ht => ih arg hm hs ht
    have hcontainer : SameBut first second (container ++ "<") (container ++ "<") :=
      .of_unquoted ((unquoted_of_isIdentifier hn).append (.fixed rfl))
    exact (hcontainer.append (.intercalate (.fixed rfl) hargs)).append (.fixed rfl)

theorem sameBut_fieldLine (ht : table.Relabelled first second other) {field : Field}
    (hn : Unquoted field.written) (hw : field.type.WellNamed) {line line' : FieldLine}
    (h : FieldLine.ofField? table field = .ok line)
    (h' : FieldLine.ofField? other field = .ok line') :
    SameBut first second line.line line'.line := by
  obtain ⟨type, htype, h⟩ := bind_eq_ok_iff.1 h
  obtain ⟨type', htype', h'⟩ := bind_eq_ok_iff.1 h'
  obtain rfl := Except.ok.inj h
  obtain rfl := Except.ok.inj h'
  have hname : Unquoted ("pub " ++ field.written ++ ": ") := hn.between rfl rfl
  have htypes := sameBut_toCode ht hw htype htype'
  exact .indent 1 (((SameBut.of_unquoted hname).append htypes).append (.fixed rfl))

theorem sameBut_variantLine (ht : table.Relabelled first second other) {variant : Variant}
    (hn : Unquoted variant.name) (hw : ∀ type ∈ variant.payload, type.WellNamed)
    {line line' : VariantLine} (h : VariantLine.ofVariant? table variant = .ok line)
    (h' : VariantLine.ofVariant? other variant = .ok line') :
    SameBut first second line.line line'.line ∧ ∀ union, Unquoted union →
      SameBut first second (line.spanArm union) (line'.spanArm union) := by
  obtain ⟨slots, hslots, h⟩ := bind_eq_ok_iff.1 h
  obtain ⟨slots', hslots', h'⟩ := bind_eq_ok_iff.1 h'
  obtain rfl := Except.ok.inj h
  obtain rfl := Except.ok.inj h'
  rw [TypeExpr.toCodes_eq_mapM] at hslots hslots'
  have htypes : List.Forall₂ (SameBut first second) ("Span" :: slots) ("Span" :: slots') :=
    .cons (.fixed rfl) (forall₂_mapM hslots hslots' fun type hm _ _ hs hs' =>
      sameBut_toCode ht (hw type hm) hs hs')
  have hname : SameBut first second (variant.name ++ "(") (variant.name ++ "(") :=
    .of_unquoted (hn.append (.fixed rfl))
  constructor
  · exact .indent 1 ((hname.append (.intercalate (.fixed rfl) htypes)).append (.fixed rfl))
  · intro union hu
    exact .indent 3 (.of_unquoted (((hu.append (.fixed rfl)).append hn).append (.fixed rfl)))

theorem sameLines_spanAccessor {name : String} (hn : Unquoted name) {body body' : List String}
    (h : SameLines first second body body') :
    SameLines first second (spanAccessor name body) (spanAccessor name body') := by
  have hlifetime : SameBut first second "<'_> \x7b" "<'_> \x7b" :=
    .char (by decide) (.anonymous (.refl (by decide)))
  have himpl : SameBut first second ("impl " ++ name ++ "<'_> \x7b")
      ("impl " ++ name ++ "<'_> \x7b") :=
    (SameBut.of_unquoted (Text.Unquoted.append (.fixed rfl) hn)).append hlifetime
  have hopening : SameLines first second ["impl " ++ name ++ "<'_> \x7b",
      indent 1 "pub fn span(&self) -> Span \x7b"] ["impl " ++ name ++ "<'_> \x7b",
      indent 1 "pub fn span(&self) -> Span \x7b"] :=
    .cons himpl (SameLines.line 1 rfl)
  have hclosing : SameLines first second [indent 1 "\x7d", "\x7d"] [indent 1 "\x7d", "\x7d"] :=
    (SameLines.line 1 rfl).append .closing
  exact (hopening.append h).append hclosing

theorem sameLines_opening {derive start name : String} (hd : Unquoted derive) (hs : Unquoted start)
    (hn : Unquoted name) :
    SameLines first second [derive, start ++ name ++ "<" ++ ("'" ++ first) ++ "> \x7b"]
      [derive, start ++ name ++ "<" ++ ("'" ++ second) ++ "> \x7b"] :=
  .cons (.of_unquoted hd) (.cons (.around ((hs.append hn).append (.fixed rfl)) (.fixed rfl)) .nil)

theorem sameLines_definition (ht : table.Relabelled first second other) {d : Declaration}
    (hw : d.Worded) {definition definition' : Definition}
    (h : Definition.ofDeclaration? table d = .ok definition)
    (h' : Definition.ofDeclaration? other d = .ok definition') :
    SameLines first second (definition.lines ("'" ++ first))
      (definition'.lines ("'" ++ second)) := by
  obtain ⟨hname, hmembers, htypes⟩ := hw
  have hn : Unquoted d.name := hname.unquoted
  cases d with
  | record name fields =>
    obtain ⟨lines, hlines, h⟩ := bind_eq_ok_iff.1 h
    obtain ⟨lines', hlines', h'⟩ := bind_eq_ok_iff.1 h'
    obtain rfl := Except.ok.inj h
    obtain rfl := Except.ok.inj h'
    rw [Declaration.memberNames, List.forall_mem_map] at hmembers
    rw [Declaration.memberTypes, List.forall_mem_map] at htypes
    have hopening : SameLines first second
        ["#[derive(Debug)]", "pub struct " ++ name ++ "<" ++ ("'" ++ first) ++ "> \x7b"]
        ["#[derive(Debug)]", "pub struct " ++ name ++ "<" ++ ("'" ++ second) ++ "> \x7b"] :=
      sameLines_opening (.fixed rfl) (.fixed rfl) hn
    have hspan : SameLines first second [indent 1 "pub span: Span,"] [indent 1 "pub span: Span,"] :=
      .line 1 rfl
    have hfields : SameLines first second (lines.map (·.line)) (lines'.map (·.line)) :=
      .map (forall₂_mapM hlines hlines' fun f hf _ _ hl hl' =>
        sameBut_fieldLine ht (hmembers f hf).unquoted (htypes f hf) hl hl')
    exact (((hopening.append hspan).append hfields).append .closing).append
      (sameLines_spanAccessor hn (.line 2 rfl))
  | union name variants =>
    obtain ⟨lines, hlines, h⟩ := bind_eq_ok_iff.1 h
    obtain ⟨lines', hlines', h'⟩ := bind_eq_ok_iff.1 h'
    obtain rfl := Except.ok.inj h
    obtain rfl := Except.ok.inj h'
    rw [Declaration.memberNames, List.forall_mem_map] at hmembers
    rw [Declaration.memberTypes, List.forall_mem_flatMap] at htypes
    have hopening : SameLines first second
        ["#[derive(Debug)]", "pub enum " ++ name ++ "<" ++ ("'" ++ first) ++ "> \x7b"]
        ["#[derive(Debug)]", "pub enum " ++ name ++ "<" ++ ("'" ++ second) ++ "> \x7b"] :=
      sameLines_opening (.fixed rfl) (.fixed rfl) hn
    have hall := forall₂_mapM hlines hlines' fun v hv _ _ hl hl' =>
      sameBut_variantLine ht (hmembers v hv).unquoted (htypes v hv) hl hl'
    have hvariants : SameLines first second (lines.map (·.line)) (lines'.map (·.line)) :=
      .map (hall.imp fun _ _ h => h.1)
    have harms : SameLines first second (lines.map (·.spanArm name))
        (lines'.map (·.spanArm name)) :=
      .map (hall.imp fun _ _ h => h.2 name hn)
    have hmatch : SameLines first second [indent 2 "match self \x7b"]
        [indent 2 "match self \x7b"] := .line 2 rfl
    have hend : SameLines first second [indent 2 "\x7d"] [indent 2 "\x7d"] := .line 2 rfl
    exact ((hopening.append hvariants).append .closing).append
      (sameLines_spanAccessor hn ((hmatch.append harms).append hend))
  | plain name tags =>
    obtain rfl := Except.ok.inj h
    obtain rfl := Except.ok.inj h'
    have hhead : Unquoted ("pub enum " ++ name ++ " \x7b") := hn.between rfl rfl
    have htags : ∀ tag ∈ tags, Unquoted (indent 1 (tag ++ ",")) := fun tag ht =>
      ((hmembers tag ht).unquoted.append (.fixed rfl)).indent 1
    rw [← List.forall_mem_map] at htags
    have hopening : SameLines first second
        ["#[derive(Debug, Clone, Copy, PartialEq, Eq)]", "pub enum " ++ name ++ " \x7b"]
        ["#[derive(Debug, Clone, Copy, PartialEq, Eq)]", "pub enum " ++ name ++ " \x7b"] :=
      .cons (.fixed rfl) (.cons (.of_unquoted hhead) .nil)
    exact (hopening.append (.of_unquoted htags)).append .closing

theorem Operand.Worded.unquoted_text {value : Operand} (h : value.Worded) :
    Unquoted value.text := by
  induction value with
  | field name => exact Text.Unquoted.append (.fixed rfl) h.unquoted
  | slot index => exact (Text.isWord_index index).unquoted
  | item => exact .fixed rfl
  | unboxed boxed ih => exact Text.Unquoted.append (.fixed rfl) (ih h)

theorem Step.Worded.unquoted_lines {step : Step} (h : step.Worded) {level : Nat} :
    ∀ line ∈ step.lines level, Unquoted line := by
  have hend (level : Nat) : ∀ line ∈ [indent level "\x7d"], Unquoted line :=
    List.forall_mem_singleton.2 (.indent level (.fixed rfl))
  induction step generalizing level with
  | visit node value =>
    have hcall : Unquoted ("visitor.visit_" ++ snakeCase node ++ "(") :=
      (unquoted_snakeCase h.1).between rfl rfl
    rw [Step.lines, List.forall_mem_singleton]
    exact ((hcall.append h.2.unquoted_text).append (.fixed rfl)).indent level
  | each values body ih =>
    have hhead : Unquoted ("for item in " ++ values.text ++ " \x7b") :=
      h.1.unquoted_text.between rfl rfl
    rw [Step.lines, List.forall_mem_append, List.forall_mem_append, List.forall_mem_singleton]
    exact ⟨⟨hhead.indent level, ih h.2⟩, hend level⟩
  | ifPresent value body ih =>
    have hhead : Unquoted ("if let Some(item) = " ++ value.text ++ " \x7b") :=
      h.1.unquoted_text.between rfl rfl
    rw [Step.lines, List.forall_mem_append, List.forall_mem_append, List.forall_mem_singleton]
    exact ⟨⟨hhead.indent level, ih h.2⟩, hend level⟩

theorem unquoted_steps {steps : List Step} (h : ∀ step ∈ steps, step.Worded) (level : Nat) :
    ∀ line ∈ steps.flatMap (Step.lines level), Unquoted line :=
  List.forall_mem_flatMap.2 fun step hm => (h step hm).unquoted_lines

theorem unquoted_binding (binding : Binding) : Unquoted binding.text := by
  cases binding with
  | hole => exact .fixed rfl
  | slot index => exact (Text.isWord_index index).unquoted

theorem sameLines_arm {union : String} (hu : isIdentifier union) {arm : Arm} (h : arm.Worded) :
    SameLines first second (arm.lines union) (arm.lines union) := by
  have hpath {variant : String} (hv : isIdentifier variant) : Unquoted (union ++ "::" ++ variant) :=
    ((unquoted_of_isIdentifier hu).append (.fixed rfl)).append (unquoted_of_isIdentifier hv)
  cases arm with
  | leaf variant => exact .cons (.of_unquoted (((hpath h).append (.fixed rfl)).indent 2)) .nil
  | walk variant slots body =>
    have hslots : SameLines first second ((Binding.hole :: slots).map Binding.text)
        ((Binding.hole :: slots).map Binding.text) :=
      .of_unquoted (List.forall_mem_map.2 fun binding _ => unquoted_binding binding)
    have hhead : SameBut first second (union ++ "::" ++ variant ++ "("
          ++ ", ".intercalate ((Binding.hole :: slots).map Binding.text) ++ ") => \x7b")
        (union ++ "::" ++ variant ++ "("
          ++ ", ".intercalate ((Binding.hole :: slots).map Binding.text) ++ ") => \x7b") :=
      ((SameBut.of_unquoted ((hpath h.1).append (.fixed rfl))).append
        (.intercalate (.fixed rfl) hslots)).append (.fixed rfl)
    have hopening : SameLines first second _ _ := .cons (hhead.indent 2) .nil
    exact (hopening.append (.of_unquoted (unquoted_steps h.2 3))).append (.line 2 rfl)

/-- No lifetime is named in the body of a walker. -/
theorem sameLines_body {walker : Walker} (h : walker.Worded) :
    SameLines first second walker.body walker.body := by
  cases walker with
  | record name steps =>
    rw [Walker.body]
    split
    · exact .line 1 rfl
    · exact .of_unquoted (unquoted_steps h.2 1)
  | union name arms =>
    have hdiscard : SameLines first second
        (if arms.all (·.isLeaf) then [indent 1 "let _ = visitor;"] else [])
        (if arms.all (·.isLeaf) then [indent 1 "let _ = visitor;"] else []) := by
      split
      · exact .line 1 rfl
      · exact .nil
    have hmatch : SameLines first second [indent 1 "match node \x7b"]
        [indent 1 "match node \x7b"] := .line 1 rfl
    have harms : SameLines first second (arms.flatMap (Arm.lines name))
        (arms.flatMap (Arm.lines name)) :=
      .flatMap (List.forall₂_same.2 fun arm hm => sameLines_arm h.1 (h.2 arm hm))
    exact ((hdiscard.append hmatch).append harms).append (.line 1 rfl)

theorem Walker.Worded.isIdentifier_node {walker : Walker} (h : walker.Worded) :
    isIdentifier walker.node := by
  cases walker with
  | record name steps => exact h.1
  | union name arms => exact h.1

theorem sameLines_walker {walker : Walker} (h : walker.Worded) :
    SameLines first second (walker.lines ("'" ++ first)) (walker.lines ("'" ++ second)) := by
  have hn := h.isIdentifier_node
  have hstart : Unquoted ("pub fn walk_" ++ snakeCase walker.node ++ "<") :=
    (unquoted_snakeCase hn).between rfl rfl
  have hbound : SameBut first second
      ("pub fn walk_" ++ snakeCase walker.node ++ "<" ++ ("'" ++ first) ++ ", V: Visitor<"
        ++ ("'" ++ first))
      ("pub fn walk_" ++ snakeCase walker.node ++ "<" ++ ("'" ++ second) ++ ", V: Visitor<"
        ++ ("'" ++ second)) :=
    (SameBut.around hstart (.fixed rfl)).append .lifetime
  have hhead : SameBut first second
      ("pub fn walk_" ++ snakeCase walker.node ++ "<" ++ ("'" ++ first) ++ ", V: Visitor<"
        ++ ("'" ++ first) ++ ">>(visitor: &mut V, node: &" ++ walker.node ++ "<" ++ ("'" ++ first)
        ++ ">) \x7b")
      ("pub fn walk_" ++ snakeCase walker.node ++ "<" ++ ("'" ++ second) ++ ", V: Visitor<"
        ++ ("'" ++ second) ++ ">>(visitor: &mut V, node: &" ++ walker.node ++ "<"
        ++ ("'" ++ second) ++ ">) \x7b") :=
    ((((hbound.append (.fixed rfl)).append (.of_unquoted (unquoted_of_isIdentifier hn))).append
      (.fixed rfl)).append .lifetime).append (.fixed rfl)
  have hopening : SameLines first second _ _ := .cons hhead .nil
  exact (hopening.append (sameLines_body h)).append .closing

theorem sameLines_method {node : String} (hn : isIdentifier node) :
    SameLines first second (methodLines ("'" ++ first) node)
      (methodLines ("'" ++ second) node) := by
  have hstart : Unquoted ("fn visit_" ++ snakeCase node ++ "(&mut self, node: &" ++ node ++ "<") :=
    (((unquoted_snakeCase hn).between rfl rfl).append (unquoted_of_isIdentifier hn)).append
      (.fixed rfl)
  have hcall : Unquoted ("walk_" ++ snakeCase node ++ "(self, node)") :=
    (unquoted_snakeCase hn).between rfl rfl
  exact .cons (.indent 1 (.around hstart (.fixed rfl)))
    (.cons (.of_unquoted (hcall.indent 2)) (SameLines.line 1 rfl))

section Files

variable {options : Options}

theorem sameLines_heading {command : String} (h : Unquoted command) :
    SameLines first second (heading command) (heading command) :=
  .cons (.fixed rfl) (.cons (.of_unquoted (.append (.fixed rfl) h)) .nil)

theorem DefinitionsFile.sameBut_text (ho : options.CopiesUnquoted)
    (ha : isIdentifier options.textAlias) {ds ds' : List Definition}
    (h : List.Forall₂ (fun d d' => SameLines options.lifetime second
      (d.lines options.quotedLifetime) (d'.lines ("'" ++ second))) ds ds') :
    SameBut options.lifetime second (DefinitionsFile.under options ds).text
      (DefinitionsFile.under (options.withLifetime second) ds').text := by
  have hn := unquoted_of_isIdentifier ha
  have himport : Unquoted ("use " ++ options.spanImport ++ ";") := ho.spanImport.between rfl rfl
  have halias : SameBut options.lifetime second
      ("pub type " ++ options.textAlias ++ "<" ++ ("'" ++ options.lifetime) ++ "> = &"
        ++ ("'" ++ options.lifetime) ++ " str;")
      ("pub type " ++ options.textAlias ++ "<" ++ ("'" ++ second) ++ "> = &"
        ++ ("'" ++ second) ++ " str;") :=
    ((SameBut.around (hn.between rfl rfl) (.fixed rfl)).append .lifetime).append (.fixed rfl)
  have hempty : SameBut options.lifetime second "" "" := .fixed rfl
  have himports : SameLines options.lifetime second _ _ :=
    .cons (.of_unquoted himport) (.cons hempty (.cons halias .nil))
  have hblocks := h.imp fun _ _ hd => List.Forall₂.cons hempty hd
  exact .text (((sameLines_heading ho.astCommand).append himports).append (.flatMap hblocks))

theorem VisitorFile.sameBut_text (ho : options.CopiesUnquoted) {methods : List String}
    (hm : ∀ node ∈ methods, isIdentifier node) {walkers : List Walker}
    (hw : ∀ walker ∈ walkers, walker.Worded) :
    SameBut options.lifetime second (VisitorFile.under options methods walkers).text
      (VisitorFile.under (options.withLifetime second) methods walkers).text := by
  have himport : Unquoted ("use " ++ options.astModule ++ "::*;") := ho.astModule.between rfl rfl
  have hempty : SameBut options.lifetime second "" "" := .fixed rfl
  have himports : SameLines options.lifetime second _ _ :=
    .cons (.of_unquoted himport) (.cons hempty .nil)
  have hmethods : List.Forall₂ (SameLines options.lifetime second)
      (methods.map (methodLines ("'" ++ options.lifetime)))
      (methods.map (methodLines ("'" ++ second))) := by
    rw [List.forall₂_map_left_iff, List.forall₂_map_right_iff, List.forall₂_same]
    exact fun node hnode => sameLines_method (hm node hnode)
  have hopening : SameLines options.lifetime second
      ["pub trait Visitor<" ++ ("'" ++ options.lifetime) ++ ">: Sized \x7b"]
      ["pub trait Visitor<" ++ ("'" ++ second) ++ ">: Sized \x7b"] :=
    .cons (.around (.fixed rfl) (.fixed rfl)) .nil
  have htrait := (hopening.append (.intercalate (.cons hempty .nil) hmethods)).append .closing
  have hwalkers : List.Forall₂ (fun walker walker' => SameLines options.lifetime second
      ("" :: walker.lines options.quotedLifetime) ("" :: walker'.lines ("'" ++ second)))
      walkers walkers :=
    List.forall₂_same.2 fun walker hmem => .cons hempty (sameLines_walker (hw walker hmem))
  exact .text ((((sameLines_heading ho.visitorCommand).append himports).append htrait).append
    (.flatMap hwalkers))

end Files

end Code

namespace Schema

variable {schema : Schema} {options : Options} {second : String}

theorem Sound.sameBut_definitions (hs : schema.Sound options) (hf : schema.FieldsNamed)
    (ho : options.CopiesUnquoted) (hu : isUsable second) :
    ∃ text text', schema.generateDefinitions options = .ok text ∧
      schema.generateDefinitions (options.withLifetime second) = .ok text' ∧
      SameBut options.lifetime second text text' := by
  have hs' := hs.withLifetime hu
  obtain ⟨definition, hd⟩ := hs.exists_definition
  obtain ⟨definition', hd'⟩ := hs'.exists_definition
  have hblocks : List.Forall₂ (fun a b => Code.SameLines options.lifetime second
      (a.lines options.quotedLifetime) (b.lines ("'" ++ second)))
      (schema.declarations.map definition) (schema.declarations.map definition') := by
    rw [List.forall₂_map_left_iff, List.forall₂_map_right_iff, List.forall₂_same]
    intro d hm
    have hw : d.Worded := hs.worded hm fun name fields he => hf name fields (he ▸ hm)
    exact Code.sameLines_definition (NameTable.relabelled_withLifetime schema options second) hw
      (hd d hm) (hd' d hm)
  exact ⟨_, _, hs.generateDefinitions_eq hd, hs'.generateDefinitions_eq hd',
    DefinitionsFile.sameBut_text ho (isIdentifier_of_isUsable hs.textAlias) hblocks⟩

theorem Sound.generateVisitor_eq_map (hs : schema.Sound options) :
    schema.generateVisitor options =
      ((schema.declarations.mapM (Walker.ofDeclaration? (.ofSchema schema options))).mapError
        .type).map fun walkers =>
          (VisitorFile.under options (schema.nodes.map (·.name)) (walkers.filterMap id)).text := by
  rw [generateVisitor, hs.verify]
  cases hw : schema.declarations.mapM (Walker.ofDeclaration? (.ofSchema schema options)) with
  | error fault =>
    have hfile : VisitorFile.ofSchema? schema (.ofSchema schema options) options =
        .error fault := by
      rw [VisitorFile.ofSchema?, hw]
      rfl
    exact congrArg (fun file => (file.mapError Fault.type).map VisitorFile.text) hfile
  | ok walkers =>
    have hfile : VisitorFile.ofSchema? schema (.ofSchema schema options) options =
        .ok (.under options (schema.nodes.map (·.name)) (walkers.filterMap id)) := by
      rw [VisitorFile.ofSchema?, hw]
      rfl
    exact congrArg (fun file => (file.mapError Fault.type).map VisitorFile.text) hfile

/-- The walkers do not depend on the lifetime, so that both visitors fail alike. -/
theorem Sound.generateVisitor_withLifetime (hs : schema.Sound options) (hf : schema.FieldsNamed)
    (ho : options.CopiesUnquoted) (hu : isUsable second) :
    schema.generateVisitor (options.withLifetime second) =
      (schema.generateVisitor options).map (replace options.quotedLifetime ("'" ++ second)) := by
  have hsame : schema.declarations.mapM
        (Walker.ofDeclaration? (.ofSchema schema (options.withLifetime second))) =
      schema.declarations.mapM (Walker.ofDeclaration? (.ofSchema schema options)) :=
    mapM_congr fun d _ => NameTable.walker_congr_of_sameMeanings fun _ _ _ _ => rfl
  rw [hs.generateVisitor_eq_map, (hs.withLifetime hu).generateVisitor_eq_map, hsame]
  cases hw : schema.declarations.mapM (Walker.ofDeclaration? (.ofSchema schema options)) with
  | error fault => rfl
  | ok walkers =>
    have hmethods : ∀ node ∈ schema.nodes.map (·.name), isIdentifier node :=
      List.forall_mem_map.2 fun d hd =>
        isIdentifier_of_isUsable (hs.freeNames d (List.mem_of_mem_filter hd)).usable
    have hworded : ∀ walker ∈ walkers.filterMap id, walker.Worded := by
      intro walker hm
      obtain ⟨found, hfound, rfl⟩ := List.mem_filterMap.1 hm
      obtain ⟨d, hd, hwalker⟩ :=
        exists_of_mem_right ((mapM_eq_ok_iff (fun _ _ _ => Iff.rfl) walkers).1 hw) hfound
      exact Walker.worded hs hf hd hwalker
    have htext : SameBut options.lifetime second _ _ :=
      VisitorFile.sameBut_text ho hmethods hworded
    exact congrArg Except.ok (htext.replace_eq hs.lifetime).symm

/-- Under two usable lifetimes a schema is accepted alike, and the files under the one lifetime are
those under the other with the lifetime replaced. -/
theorem lifetime_parametric (second : String) (hf : schema.FieldsNamed)
    (ho : options.CopiesUnquoted) (hl : isUsable options.lifetime) (hu : isUsable second) :
    let other := options.withLifetime second
    ((∃ table, schema.verify options = .ok table) ↔ ∃ table, schema.verify other = .ok table) ∧
    ((∃ table, schema.verify options = .ok table) →
      (∃ text, schema.generateDefinitions options = .ok text ∧
        schema.generateDefinitions other =
          .ok (replace options.quotedLifetime other.quotedLifetime text)) ∧
      schema.generateVisitor other = (schema.generateVisitor options).map
        (replace options.quotedLifetime other.quotedLifetime)) := by
  intro other
  have hverify : (∃ table, schema.verify options = .ok table) ↔
      ∃ table, schema.verify other = .ok table := by
    constructor
    · intro h
      obtain ⟨table, h⟩ := h
      exact ⟨_, ((sound_of_verify h).1.withLifetime hu).verify⟩
    · intro h
      obtain ⟨table, h⟩ := h
      -- With the first lifetime again, the options are what they were.
      exact ⟨_, ((sound_of_verify h).1.withLifetime hl).verify⟩
  use hverify
  intro h
  obtain ⟨table, h⟩ := h
  have hs := (sound_of_verify h).1
  obtain ⟨text, text', htext, htext', hsame⟩ := hs.sameBut_definitions hf ho hu
  use ⟨text, htext, htext'.trans (congrArg Except.ok (hsame.replace_eq hl).symm)⟩
  exact hs.generateVisitor_withLifetime hf ho hu

/-- The one lifetime starts with the other, and stands beside the anonymous one. -/
theorem path_lifetime_shortened :
    let schema : Schema := ⟨[
      .record "Path" [⟨"type", .generic "Vec" [.generic "Option" [.atomic "Segment"]]⟩],
      .union "Segment" [⟨"Name", [.atomic "Ident"]⟩, ⟨"Nested", [.generic "Box" [.atomic "Path"]]⟩],
      .plain "Sign" ["Plus", "Minus"]]⟩
    let options := Options.default
    let other := options.withLifetime "s"
    schema.FieldsNamed ∧ options.CopiesUnquoted ∧ isUsable options.lifetime ∧ isUsable "s" ∧
      (∃ table, schema.verify options = .ok table) ∧ (∃ table, schema.verify other = .ok table) ∧
      (∃ text, schema.generateDefinitions options = .ok text ∧
        schema.generateDefinitions other = .ok (replace "'src" "'s" text)) ∧
      ∃ text, schema.generateVisitor options = .ok text ∧
        schema.generateVisitor other = .ok (replace "'src" "'s" text) := by
  intro schema options other
  have hf : schema.FieldsNamed := by decide
  have ho : options.CopiesUnquoted := ⟨by decide, by decide, by decide, by decide⟩
  have hverify : schema.verify options = .ok (.ofSchema schema options) :=
    verify_of_passes 2 (by decide) (by decide) (by decide)
  have hvisitor : ∃ text, schema.generateVisitor options = .ok text := by
    rw [generateVisitor, hverify]
    exact ⟨_, rfl⟩
  obtain ⟨hiff, hfiles⟩ := lifetime_parametric "s" hf ho (by decide) (by decide)
  obtain ⟨hdefinitions, hother⟩ := hfiles ⟨_, hverify⟩
  obtain ⟨text, htext⟩ := hvisitor
  rw [htext] at hother
  exact ⟨hf, ho, by decide, by decide, ⟨_, hverify⟩, hiff.1 ⟨_, hverify⟩, hdefinitions, text, htext,
    hother⟩

end Schema

end NodeSchema
