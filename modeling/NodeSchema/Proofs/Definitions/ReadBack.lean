import NodeSchema.Code.Definitions
import NodeSchema.Proofs.Definitions.ReadType
import NodeSchema.Proofs.Verification.Sound

namespace NodeSchema

open Code (Definition FieldLine VariantLine indent spanAccessor text)
open Program (Token closes expect expect_append readAll readAll_flatten readWord tokens
  tokens_append_mark tokens_between tokens_indent tokens_mark_append tokens_of_isWord tokens_text
  tokens_text_append tokens_text_indent tokens_text_singleton)
open Text (IsWord)

namespace Item

/-- The definition of a declaration, with the span in front of the fields and of the slots. -/
def ofDeclaration : Declaration → Item
  | .record name fields =>
    .struct name (⟨"span", .atomic "Span"⟩ :: fields.map fun f => ⟨f.written, f.type⟩)
  | .union name variants =>
    .enum name (variants.map fun v => ⟨v.name, .atomic "Span" :: v.payload⟩)
      (variants.map fun v => (name, v.name))
  | .plain name tags => .plain name tags

variable {lifetime name : String}

theorem isText_span : IsText lifetime (.atomic "Span") "Span" := .of_isWord (by decide)

theorem readAll_lines {α β : Type} {R : β → α → Prop} {line : α → String}
    {read : List Token → Option (β × List Token)} {as : List α} {bs : List β}
    (h : List.Forall₂ R bs as)
    (hr : ∀ b a, R b a → ∀ ts, read (tokens (line a) ++ ts) = some (b, ts))
    (hw : ∀ b a, R b a → ∃ word ts, tokens (line a) = .word word :: ts) (ts : List Token) :
    readAll closes read (tokens (text (as.map line)) ++ (tokens "\x7d" ++ ts)) =
      some (bs, tokens "\x7d" ++ ts) := by
  have hread : List.Forall₂ (fun b p => ∀ ts, True → read (p ++ ts) = some (b, ts)) bs
      (as.map (tokens <| line ·)) := by
    rw [List.forall₂_map_right_iff]
    exact h.imp fun b a hba ts _ => hr b a hba ts
  have hstop : ∀ p ∈ as.map (tokens <| line ·), ∀ ts, closes (p ++ ts).head? = false := by
    rw [List.forall_mem_map]
    intro a hm ts
    obtain ⟨b, -, hba⟩ := exists_of_mem_right h hm
    obtain ⟨word, more, hword⟩ := hw b a hba
    rw [hword]
    rfl
  rw [tokens_text, List.flatMap_map, List.flatMap_def]
  exact readAll_flatten hread (fun _ _ _ => trivial) hstop trivial rfl

section Fields

/-- A line is written for a field. -/
structure IsField (lifetime : String) (field : Field) (line : FieldLine) : Prop where
  name : line.name = field.name
  word : IsWord field.name
  type : IsText lifetime field.type line.type

theorem tokens_field {line : FieldLine} (h : IsWord line.name) :
    tokens line.line =
      tokens "pub " ++ .word line.name :: (tokens ": " ++ (tokens line.type ++ tokens ",")) := by
  rw [FieldLine.line, tokens_indent, tokens_append_mark (by decide),
    tokens_between (by decide) (by decide), tokens_mark_append (by decide), tokens_of_isWord h]
  simp only [List.append_assoc, List.cons_append, List.nil_append]

theorem IsField.read {field : Field} {line : FieldLine} (h : IsField lifetime field line)
    (ts : List Token) : readField lifetime (tokens line.line ++ ts) = some (field, ts) := by
  have htype := h.type.read (tokens line.type ++ (tokens "," ++ ts)).length (tokens "," ++ ts)
    (by simp) nofun
  rw [tokens_field (h.name ▸ h.word)]
  simp only [List.cons_append, List.append_assoc, readField, expect_append, readWord, htype,
    Option.bind_eq_bind, Option.bind_some, h.name]
  rfl

theorem readAll_fields {fields : List Field} {lines : List FieldLine}
    (h : List.Forall₂ (IsField lifetime) fields lines) (ts : List Token) :
    readAll closes (readField lifetime)
      (tokens (text (lines.map (·.line))) ++ (tokens "\x7d" ++ ts)) =
        some (fields, tokens "\x7d" ++ ts) :=
  readAll_lines h (fun _ _ h => h.read)
    (fun _ _ h => ⟨"pub", _, tokens_field (h.name ▸ h.word)⟩) ts

end Fields

section Variants

/-- A line is written for a variant that has its span among the slots. -/
structure IsVariant (lifetime : String) (variant : Variant) (line : VariantLine) : Prop where
  name : line.name = variant.name
  word : IsWord variant.name
  slots : List.Forall₂ (IsText lifetime) variant.payload ("Span" :: line.slots)

theorem tokens_variant {line : VariantLine} (h : IsWord line.name) :
    tokens line.line = .word line.name :: (tokens "(" ++
      (tokens (", ".intercalate ("Span" :: line.slots)) ++ tokens "),")) := by
  rw [VariantLine.line, tokens_indent, tokens_append_mark (by decide),
    tokens_between (by decide) (by decide), tokens_of_isWord h]
  simp only [List.append_assoc, List.cons_append, List.nil_append]

theorem IsVariant.read {variant : Variant} {line : VariantLine}
    (h : IsVariant lifetime variant line) (ts : List Token) :
    readVariant lifetime (tokens line.line ++ ts) = some (variant, ts) := by
  have hne : variant.payload ≠ [] := by
    intro he
    have := he ▸ h.slots.length_eq
    cases this
  have hmark : ')' ≠ ',' ∧ ')' ≠ '<' := by decide
  have hslots := readList_texts hmark h.slots hne
    (Nat.le_add_right _ (tokens ")," ++ ts).length) (tokens "," ++ ts)
  have hclose : tokens ")," ++ ts = .mark ')' :: (tokens "," ++ ts) := by rfl
  rw [← List.length_append, hclose] at hslots
  have hrest : expect ")," (.mark ')' :: (tokens "," ++ ts)) = some ts := expect_append ")," ts
  rw [tokens_variant (h.name ▸ h.word)]
  simp only [List.cons_append, List.append_assoc, readVariant, expect_append, readWord, hclose,
    hslots, hrest, Option.bind_eq_bind, Option.bind_some, h.name]
  rfl

theorem readAll_variants {variants : List Variant} {lines : List VariantLine}
    (h : List.Forall₂ (IsVariant lifetime) variants lines) (ts : List Token) :
    readAll closes (readVariant lifetime)
      (tokens (text (lines.map (·.line))) ++ (tokens "\x7d" ++ ts)) =
        some (variants, tokens "\x7d" ++ ts) :=
  readAll_lines h (fun _ _ h => h.read)
    (fun _ _ h => ⟨_, _, tokens_variant (h.name ▸ h.word)⟩) ts

theorem tokens_spanArm (hu : IsWord name) {line : VariantLine} (h : IsWord line.name) :
    tokens (line.spanArm name) = .word name :: (tokens "::" ++
      .word line.name :: tokens "(span, ..) => *span,") := by
  rw [VariantLine.spanArm, tokens_indent, tokens_append_mark (by decide),
    tokens_between (by decide) (by decide), tokens_of_isWord h, tokens_of_isWord hu]
  simp only [List.append_assoc, List.cons_append, List.nil_append]

theorem readAll_spanArms (hu : IsWord name) {lines : List VariantLine}
    (h : ∀ line ∈ lines, IsWord line.name) (ts : List Token) :
    readAll closes readSpanArm
      (tokens (text (lines.map (·.spanArm name))) ++ (tokens "\x7d" ++ ts)) =
        some (lines.map fun line => (name, line.name), tokens "\x7d" ++ ts) := by
  have hlines : List.Forall₂ (fun arm line => IsWord line.name ∧ arm = (name, line.name))
      (lines.map fun line => (name, line.name)) lines := by
    rw [List.forall₂_map_left_iff, List.forall₂_same]
    exact fun line hm => ⟨h line hm, rfl⟩
  apply readAll_lines hlines
  · intro arm line hline ts
    obtain ⟨hline, rfl⟩ := hline
    rw [tokens_spanArm hu hline]
    simp only [List.cons_append, List.append_assoc, readSpanArm, expect_append, readWord,
      Option.bind_eq_bind, Option.bind_some]
    rfl
  · intro arm line hline
    exact ⟨_, _, tokens_spanArm hu hline.1⟩

end Variants

section Blocks

theorem tokens_head {derived start : String} (hs : Program.IsMark start.toList.getLast?)
    (h : IsWord name) (lifetime : String) :
    tokens (text [derived, start ++ name ++ "<" ++ lifetime ++ "> \x7b"]) =
      tokens derived ++ (tokens start ++ .word name ::
        (tokens "<" ++ (tokens lifetime ++ tokens "> \x7b"))) := by
  rw [tokens_text, List.flatMap_cons, List.flatMap_singleton, tokens_append_mark (by decide),
    tokens_between (by decide) (by decide), tokens_mark_append hs, tokens_of_isWord h]
  simp only [List.append_assoc, List.cons_append, List.nil_append]

theorem readHead_tokens (ts : List Token) :
    readHead lifetime (.word name :: (tokens "<" ++ (tokens lifetime ++ (tokens "> \x7b" ++ ts)))) =
      some (name, ts) := by
  simp only [readHead, readWord, expect_append, Option.bind_eq_bind, Option.bind_some]
  rfl

theorem tokens_accessor (h : IsWord name) (body : List String) :
    tokens (text (spanAccessor name body)) =
      tokens "impl " ++ .word name :: (tokens "<'_> \x7b" ++
        (tokens "pub fn span(&self) -> Span \x7b" ++ (tokens (text body) ++
          tokens "\x7d \x7d"))) := by
  have hhead : tokens (text ["impl " ++ name ++ "<'_> \x7b",
      indent 1 "pub fn span(&self) -> Span \x7b"]) = tokens "impl " ++ .word name ::
        (tokens "<'_> \x7b" ++ tokens "pub fn span(&self) -> Span \x7b") := by
    rw [tokens_text, List.flatMap_cons, List.flatMap_singleton, tokens_indent,
      tokens_append_mark (by decide), tokens_mark_append (by decide), tokens_of_isWord h]
    simp only [List.append_assoc, List.cons_append, List.nil_append]
  have hend : tokens (text [indent 1 "\x7d", "\x7d"]) = tokens "\x7d \x7d" := by rfl
  rw [spanAccessor, tokens_text_append, tokens_text_append, hhead, hend]
  simp only [List.append_assoc, List.cons_append]

theorem readAccessor_tokens (ts : List Token) :
    readAccessor name (tokens "impl " ++ .word name :: (tokens "<'_> \x7b" ++
      (tokens "pub fn span(&self) -> Span \x7b" ++ ts))) = some ts := by
  simp only [readAccessor, readWord, expect_append, Option.bind_eq_bind, Option.bind_some,
    if_true]
  rfl

theorem read_struct (h : IsWord name) {fields : List Field} {lines : List FieldLine}
    (hf : List.Forall₂ (IsField lifetime) fields lines) (ts : List Token) :
    read lifetime (tokens (text ((Definition.record name lines).lines lifetime)) ++ ts) =
      some (.struct name (⟨"span", .atomic "Span"⟩ :: fields), ts) := by
  have hspan : IsField lifetime ⟨"span", .atomic "Span"⟩ ⟨"span", "Span"⟩ :=
    ⟨rfl, by decide, isText_span⟩
  have hfields := readAll_fields (.cons hspan hf)
  have hlines : (Definition.record name lines).lines lifetime =
      ["#[derive(Debug)]", "pub struct " ++ name ++ "<" ++ lifetime ++ "> \x7b"]
        ++ (⟨"span", "Span"⟩ :: lines).map (·.line) ++ ["\x7d"]
        ++ spanAccessor name [indent 2 "self.span"] := rfl
  have hend : expect "self.span \x7d \x7d" (tokens "self.span" ++ (tokens "\x7d \x7d" ++ ts)) =
      some ts := expect_append "self.span \x7d \x7d" ts
  rw [hlines, tokens_text_append, tokens_text_append, tokens_text_append, tokens_head (by decide) h,
    tokens_accessor h, tokens_text_singleton, tokens_text_indent]
  simp only [List.append_assoc, List.cons_append, read, readStruct, expect_append,
    readHead_tokens, hfields, readAccessor_tokens, hend, Option.bind_eq_bind, Option.bind_some]
  rfl

theorem read_enum (h : IsWord name) {variants : List Variant} {lines : List VariantLine}
    (hv : List.Forall₂ (IsVariant lifetime) variants lines) (ts : List Token) :
    read lifetime (tokens (text ((Definition.union name lines).lines lifetime)) ++ ts) =
      some (.enum name variants (lines.map fun line => (name, line.name)), ts) := by
  have hvariants := readAll_variants hv
  have hwords : ∀ line ∈ lines, IsWord line.name := by
    intro line hm
    obtain ⟨variant, -, hvariant⟩ := exists_of_mem_right hv hm
    exact hvariant.name ▸ hvariant.word
  have harms := readAll_spanArms h hwords
  have hend : expect "\x7d \x7d \x7d" (tokens "\x7d" ++ (tokens "\x7d \x7d" ++ ts)) = some ts :=
    expect_append "\x7d \x7d \x7d" ts
  have hstruct (ts : List Token) : expect "pub struct " (tokens "pub enum " ++ ts) = none := by rfl
  rw [Definition.lines, tokens_text_append, tokens_text_append, tokens_text_append,
    tokens_head (by decide) h, tokens_accessor h, tokens_text_append, tokens_text_append,
    tokens_text_singleton, tokens_text_indent, tokens_text_indent]
  simp only [List.append_assoc, List.cons_append, read, readStruct, hstruct, readEnum,
    expect_append, readHead_tokens, hvariants, readAccessor_tokens, harms, hend,
    Option.bind_eq_bind, Option.bind_some, Option.bind_none]
  rfl

theorem read_plain (h : IsWord name) {tags : List String} (ht : ∀ tag ∈ tags, IsWord tag)
    (ts : List Token) :
    read lifetime (tokens (text ((Definition.plain name tags).lines lifetime)) ++ ts) =
      some (.plain name tags, ts) := by
  have htag {tag : String} (h : IsWord tag) :
      tokens (indent 1 (tag ++ ",")) = .word tag :: tokens "," := by
    rw [tokens_indent, tokens_append_mark (by decide), tokens_of_isWord h]
    rfl
  have htags (ts : List Token) : readAll closes readTag
      (tokens (text (tags.map fun tag => indent 1 (tag ++ ","))) ++ (tokens "\x7d" ++ ts)) =
        some (tags, tokens "\x7d" ++ ts) := by
    have hall : List.Forall₂ (fun tag tag' => IsWord tag' ∧ tag = tag') tags tags :=
      List.forall₂_same.2 fun tag hm => ⟨ht tag hm, rfl⟩
    apply readAll_lines hall
    · intro tag tag' h ts
      obtain ⟨h, rfl⟩ := h
      rw [htag h]
      simp only [List.cons_append, readTag, readWord, expect_append, Option.bind_eq_bind,
        Option.bind_some]
      rfl
    · intro tag tag' h
      exact ⟨_, _, htag h.1⟩
  have hhead : tokens (text ["#[derive(Debug, Clone, Copy, PartialEq, Eq)]",
      "pub enum " ++ name ++ " \x7b"]) =
        tokens "#[derive(Debug, Clone, Copy, PartialEq, Eq)]" ++
          (tokens "pub enum " ++ .word name :: tokens " \x7b") := by
    rw [tokens_text, List.flatMap_cons, List.flatMap_singleton, tokens_append_mark (by decide),
      tokens_mark_append (by decide), tokens_of_isWord h]
    simp only [List.append_assoc, List.cons_append, List.nil_append]
  have hnode (ts : List Token) : expect "#[derive(Debug)]"
      (tokens "#[derive(Debug, Clone, Copy, PartialEq, Eq)]" ++ ts) = none := by rfl
  rw [Definition.lines, tokens_text_append, tokens_text_append, hhead, tokens_text_singleton]
  simp only [List.append_assoc, List.cons_append, read, readStruct, readEnum, hnode, readPlain,
    expect_append, readWord, htags, Option.bind_eq_bind, Option.bind_some, Option.bind_none]
  rfl

end Blocks

end Item

end NodeSchema
