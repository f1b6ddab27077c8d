import NodeSchema.Proofs.Visitor.Typing

namespace NodeSchema

open Program (boundTypes)
open Text (snakeCase)

namespace Code

/-- What a variable of a walker holds. -/
inductive Local where
  | visitor
  /-- A reference to a value of the type. -/
  | value (type : TypeExpr)

/-- Inner variables stand before the outer ones and hide them. -/
abbrev Locals := List (String × Local)

/-- The line that visits a node. -/
def visitLine (level : Nat) (node text : String) : String :=
  indent level ("visitor.visit_" ++ snakeCase node ++ "(" ++ text ++ ");")

section Rules

variable (nodes : String → Prop) (fieldType : String → String → TypeExpr → Prop)

/-- The text is an expression for a reference to a value of the type. It starts from a variable, or
from a field of the record that `node` refers to. -/
inductive Refers (locals : Locals) : String → TypeExpr → String → Prop where
  | variable {name : String} {type : TypeExpr} (h : locals.lookup name = some (.value type)) :
      Refers locals name type name
  | field {record name : String} {type : TypeExpr}
      (hn : locals.lookup "node" = some (.value (.atomic record)))
      (hf : fieldType record name type) : Refers locals ("&node." ++ name) type "node"
  | unboxed {text name : String} {type : TypeExpr}
      (h : Refers locals text (.generic TypeExpr.owned [type]) name) :
      Refers locals ("&**" ++ text) type name

/-- Lines of well typed statements at a level, and the variables that they use. A line that ends in
a brace binds `item` for the lines up to the brace that closes it. These stand one level deeper and
make use of `item`. -/
inductive Block : Locals → Nat → List String → List String → Prop where
  | nil {locals : Locals} {level : Nat} : Block locals level [] []
  | append {locals : Locals} {level : Nat} {lines used lines' used' : List String}
      (h : Block locals level lines used) (h' : Block locals level lines' used') :
      Block locals level (lines ++ lines') (used ++ used')
  | visit {locals : Locals} {level : Nat} {node text name : String} {type : TypeExpr}
      (hv : locals.lookup "visitor" = some .visitor) (hn : nodes node)
      (ht : type = .atomic node ∨ type = .generic TypeExpr.owned [.atomic node])
      (hx : Refers fieldType locals text type name) :
      Block locals level [visitLine level node text] ["visitor", name]
  | each {locals : Locals} {level : Nat} {text name : String} {type : TypeExpr}
      {body inner : List String}
      (hx : Refers fieldType locals text (.generic TypeExpr.sequence [type]) name)
      (hb : Block (("item", .value type) :: locals) (level + 1) body inner) (hi : "item" ∈ inner) :
      Block locals level
        ([indent level ("for item in " ++ text ++ " \x7b")] ++ body ++ [indent level "\x7d"])
        (name :: inner.filter (· ≠ "item"))
  | ifPresent {locals : Locals} {level : Nat} {text name : String} {type : TypeExpr}
      {body inner : List String}
      (hx : Refers fieldType locals text (.generic TypeExpr.optional [type]) name)
      (hb : Block (("item", .value type) :: locals) (level + 1) body inner) (hi : "item" ∈ inner) :
      Block locals level
        ([indent level ("if let Some(item) = " ++ text ++ " \x7b")] ++ body
          ++ [indent level "\x7d"])
        (name :: inner.filter (· ≠ "item"))

/-- What a pattern binds to references to the slots. -/
def patternLocals (pattern : List (Option String)) (slots : List TypeExpr) : Locals :=
  (boundTypes pattern slots).map fun (name, type) => (name, .value type)

/-- The arms for the variants of a union. A pattern has an entry for the span and one for each slot,
and what it binds is used in the arm. -/
inductive ArmLines (union : String) (locals : Locals) :
    List Variant → List String → List String → Prop where
  | nil : ArmLines union locals [] [] []
  | skip {variant : Variant} {variants : List Variant} {lines used : List String}
      (h : ArmLines union locals variants lines used) :
      ArmLines union locals (variant :: variants)
        (indent 2 (union ++ "::" ++ variant.name ++ "(..) => \x7b\x7d") :: lines) used
  | bind {variant : Variant} {variants : List Variant} {pattern : List (Option String)}
      {body inner lines used : List String} (hl : pattern.length = variant.payload.length + 1)
      (hn : (pattern.filterMap id).Nodup)
      (hb : Block nodes fieldType
        (patternLocals pattern (.atomic "Span" :: variant.payload) ++ locals) 3 body inner)
      (hi : ∀ name, some name ∈ pattern → name ∈ inner)
      (h : ArmLines union locals variants lines used) :
      ArmLines union locals (variant :: variants)
        ([indent 2 (union ++ "::" ++ variant.name ++ "("
          ++ ", ".intercalate (pattern.map (·.getD "_")) ++ ") => \x7b")] ++ body
          ++ [indent 2 "\x7d"] ++ lines)
        (inner.filter (some · ∉ pattern) ++ used)

/-- The parameters of the walker of a node. -/
def parameters (node : String) : Locals := [("visitor", .visitor), ("node", .value (.atomic node))]

/-- The body of a walker, and which of its parameters it uses. -/
inductive BodyLines : Declaration → List String → List String → Prop where
  | discardBoth {d : Declaration} :
      BodyLines d [indent 1 "let _ = (visitor, node);"] ["visitor", "node"]
  | discardVisitor {d : Declaration} {lines used : List String} (h : BodyLines d lines used) :
      BodyLines d (indent 1 "let _ = visitor;" :: lines) ("visitor" :: used)
  | record {name : String} {fields : List Field} {lines used : List String}
      (h : Block nodes fieldType (parameters name) 1 lines used) :
      BodyLines (.record name fields) lines used
  | union {name : String} {variants : List Variant} {lines used : List String}
      (h : ArmLines nodes fieldType name (parameters name) variants lines used) :
      BodyLines (.union name variants) ([indent 1 "match node \x7b"] ++ lines ++ [indent 1 "\x7d"])
        ("node" :: used)

end Rules

section Steps

variable {nodes : String → Prop} {fieldType : String → String → TypeExpr → Prop}
  {table : NameTable} {locals : Locals} {level : Nat}

/-- What is emitted for a value is a block that uses the visitor and the variable that the value
starts from, and nothing else. -/
theorem Walks.block (hm : ∀ name, table.isNode name → nodes name) {operand : Operand}
    {type : TypeExpr} {step : Option Step} (h : Walks table operand type step) {root : String}
    (hv : locals.lookup "visitor" = some .visitor)
    (ho : table.containsNode type → Refers fieldType locals operand.text type root) :
    ∀ s ∈ step, ∃ used, Block nodes fieldType locals level (s.lines level) used ∧
      ∀ name, name ∈ used ↔ name = "visitor" ∨ name = root := by
  -- In a body `item` is the root, so that it is used there and nothing of it is seen outside.
  have hbody {root : String} {inner : List String}
      (h : ∀ name, name ∈ inner ↔ name = "visitor" ∨ name = "item") (name : String) :
      name ∈ root :: inner.filter (· ≠ "item") ↔ name = "visitor" ∨ name = root := by
    simp only [List.mem_cons, List.mem_filter, h, decide_eq_true_eq]
    constructor
    · intro hn
      rcases hn with hn | ⟨hn | hn, hne⟩
      · exact .inr hn
      · exact .inl hn
      · exact absurd hn hne
    · intro hn
      rcases hn with rfl | hn
      · exact .inr ⟨.inl rfl, by decide⟩
      · exact .inl hn
  intro s hs
  obtain rfl : step = some s := hs
  induction h using Walks.step_induction generalizing locals level root with
  | node hn => exact ⟨_, .visit hv (hm _ hn) (.inl rfl) (ho hn), by simp⟩
  | @each operand arg body hc _ ih =>
    obtain ⟨inner, hblock, hinner⟩ := @ih (("item", .value arg) :: locals) (level + 1) "item" hv
      fun _ => .variable rfl
    have hitem : "item" ∈ inner := (hinner "item").2 (.inr rfl)
    exact ⟨_, .each (ho (by simpa using hc)) hblock hitem, hbody hinner⟩
  | @ifPresent operand arg body hc _ ih =>
    obtain ⟨inner, hblock, hinner⟩ := @ih (("item", .value arg) :: locals) (level + 1) "item" hv
      fun _ => .variable rfl
    have hitem : "item" ∈ inner := (hinner "item").2 (.inr rfl)
    exact ⟨_, .ifPresent (ho (by simpa using hc)) hblock hitem, hbody hinner⟩
  | boxedNode hn =>
    have hx := ho (by simpa [NameTable.containsNode] using hn)
    exact ⟨_, .visit hv (hm _ hn) (.inr rfl) hx, by simp⟩
  | boxed hc h ih => exact ih hv fun _ => .unboxed (ho (by simpa using hc))

theorem block_members {α : Type} {as : List α} {operand : α → Operand} {type : α → TypeExpr}
    {root : α → String} {steps : List (Option Step)} (hm : ∀ name, table.isNode name → nodes name)
    (hs : List.Forall₂ (fun a step => Walks table (operand a) (type a) step) as steps)
    (hv : locals.lookup "visitor" = some .visitor)
    (ho : ∀ a ∈ as, table.containsNode (type a) →
      Refers fieldType locals (operand a).text (type a) (root a)) :
    ∃ used, Block nodes fieldType locals level ((steps.filterMap id).flatMap (Step.lines level))
      used ∧ ∀ name, name ∈ used ↔
        ∃ a ∈ as, table.containsNode (type a) ∧ (name = "visitor" ∨ name = root a) := by
  induction hs with
  | nil => exact ⟨[], .nil, by simp⟩
  | @cons a step as steps h _ ih =>
    rw [List.forall_mem_cons] at ho
    obtain ⟨used, hblock, hused⟩ := ih ho.2
    have hstep := h.isSome_eq
    cases step with
    | none =>
      have hc : table.containsNode (type a) = false := hstep.symm
      refine ⟨used, hblock, fun name => ?_⟩
      simp only [hused, List.exists_mem_cons_iff, hc, Bool.false_eq_true, false_and, false_or]
    | some step =>
      have hc : table.containsNode (type a) = true := hstep.symm
      obtain ⟨first, hfirst, hin⟩ := h.block hm hv ho.1 step rfl
      refine ⟨_, .append hfirst hblock, fun name => ?_⟩
      simp only [List.mem_append, hin, hused, List.exists_mem_cons_iff, hc, true_and]

theorem Walks.exists_visitLine {operand : Operand} {type : TypeExpr} {step : Option Step}
    (h : Walks table operand type step) (level : Nat) : ∀ s ∈ step, ∃ deeper node text,
      table.isNode node ∧ visitLine deeper node text ∈ s.lines level := by
  intro s hs
  obtain rfl : step = some s := hs
  induction h using Walks.step_induction generalizing level with
  | @node operand name hn => exact ⟨level, name, operand.text, hn, List.mem_singleton.2 rfl⟩
  | each hc h ih =>
    obtain ⟨deeper, node, text, hn, hline⟩ := ih (level + 1)
    exact ⟨deeper, node, text, hn, List.mem_append_left _ (List.mem_append_right _ hline)⟩
  | ifPresent hc h ih =>
    obtain ⟨deeper, node, text, hn, hline⟩ := ih (level + 1)
    exact ⟨deeper, node, text, hn, List.mem_append_left _ (List.mem_append_right _ hline)⟩
  | @boxedNode operand name hn => exact ⟨level, name, operand.text, hn, List.mem_singleton.2 rfl⟩
  | boxed hc h ih => exact ih level

/-- Lines are emitted for the types with a node in them, and for these only. -/
theorem Walks.lines_eq_nil_iff {operand : Operand} {type : TypeExpr} {step : Option Step}
    (h : Walks table operand type step) :
    step.toList.flatMap (Step.lines level) = [] ↔ ∀ name ∈ type.atoms, ¬table.isNode name := by
  have hatoms : (∀ name ∈ type.atoms, ¬table.isNode name) ↔ step = none := by
    rw [← Option.not_isSome_iff_eq_none, h.isSome_eq, NameTable.containsNode_iff]
    simp only [not_exists, not_and]
  rw [hatoms]
  cases step with
  | none => simp
  | some step =>
    obtain ⟨deeper, node, text, -, hline⟩ := h.exists_visitLine level step rfl
    apply iff_of_false
    · intro he
      rw [Option.toList_some, List.flatMap_singleton] at he
      rw [he] at hline
      cases hline
    · nofun

end Steps

end Code

end NodeSchema
