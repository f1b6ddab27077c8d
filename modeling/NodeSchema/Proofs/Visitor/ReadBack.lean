import NodeSchema.Code.Visitor
import NodeSchema.Proofs.Visitor.Words

namespace NodeSchema

open Program (Expression Statement Routine Method Token tokens)
open Text (IsWord escapeKeyword isIdentifier snakeCase)

namespace Code

def Operand.expression : Operand → Expression
  | .field name => .field "node" name
  | .slot index => .variable ("f" ++ toString index)
  | .item => .variable "item"
  | .unboxed boxed => .unboxed boxed.expression

def Step.statement : Step → Statement
  | .visit node value => .visit ("visit_" ++ snakeCase node) value.expression
  | .each values body => .each "item" values.expression [body.statement]
  | .ifPresent value body => .ifPresent "item" value.expression [body.statement]

/-- The name that a slot is bound to. -/
def Binding.bound? : Binding → Option String
  | .hole => none
  | .slot index => some ("f" ++ toString index)

def Arm.toProgram (union : String) : Arm → Program.Arm
  | .leaf variant => ⟨union, variant, none, []⟩
  | .walk variant slots body =>
    ⟨union, variant, some (none :: slots.map (·.bound?)), body.map (·.statement)⟩

def Walker.routine : Walker → Routine
  | .record name steps =>
    ⟨"walk_" ++ snakeCase name, name,
      if steps.isEmpty then [.discard] else steps.map (·.statement), none⟩
  | .union name arms =>
    ⟨"walk_" ++ snakeCase name, name, if arms.all (·.isLeaf) then [.discard] else [],
      some (arms.map (·.toProgram name))⟩

/-- The method of a node. -/
def method (node : String) : Method := ⟨"visit_" ++ snakeCase node, node, "walk_" ++ snakeCase node⟩

def VisitorFile.program (file : VisitorFile) : Program :=
  ⟨file.methods.map method, file.walkers.map (·.routine)⟩

/-- The fields that are read have words for names. -/
def Operand.Worded : Operand → Prop
  | .field name => IsWord name
  | .unboxed boxed => boxed.Worded
  | _ => True

/-- The nodes that are visited have identifiers for names. -/
def Step.Worded : Step → Prop
  | .visit node value => isIdentifier node ∧ value.Worded
  | .each values body => values.Worded ∧ body.Worded
  | .ifPresent value body => value.Worded ∧ body.Worded

def Arm.Worded : Arm → Prop
  | .leaf variant => isIdentifier variant
  | .walk variant _ body => isIdentifier variant ∧ ∀ step ∈ body, step.Worded

def Walker.Worded : Walker → Prop
  | .record name steps => isIdentifier name ∧ ∀ step ∈ steps, step.Worded
  | .union name arms => isIdentifier name ∧ ∀ arm ∈ arms, arm.Worded

end Code

namespace Program

open Code (Operand Step text)

@[simp] theorem behind?_append (a b : List Token) : behind? a (a ++ b) = some b := by
  induction a with
  | nil => rfl
  | cons t a ih => rw [List.cons_append, behind?, if_pos rfl, ih]

@[simp] theorem expect_append (s : String) (ts : List Token) :
    expect s (tokens s ++ ts) = some ts :=
  behind?_append _ ts

section Many

variable {α β : Type} {stop : Option Token → Bool} {read : List Token → Option (β × List Token)}
  {ps : List (List Token)} {ts : List Token}

/-- What is read is followed by the next part or by the rest, on which reading may depend. -/
theorem readMany_flatten {next : List Token → Prop} {ys : List β}
    (hr : List.Forall₂ (fun y p => ∀ ts, next ts → read (p ++ ts) = some (y, ts)) ys ps)
    (hp : ∀ p ∈ ps, ∀ ts, next (p ++ ts))
    (hs : ∀ p ∈ ps, ∀ ts, stop (p ++ ts).head? = false) (hts : next ts) (hend : stop ts.head?)
    {fuel : Nat} (hf : ps.length < fuel) :
    readMany stop read fuel (ps.flatten ++ ts) = some (ys, ts) := by
  induction hr generalizing fuel with
  | nil =>
    obtain ⟨fuel, rfl⟩ := Nat.exists_eq_add_one_of_ne_zero (Nat.ne_zero_of_lt hf)
    rw [readMany]
    exact if_pos hend
  | @cons y p ys ps hy _ ih =>
    obtain ⟨fuel, rfl⟩ := Nat.exists_eq_add_one_of_ne_zero (Nat.ne_zero_of_lt hf)
    rw [List.forall_mem_cons] at hp hs
    have hrest := ih hp.2 hs.2 (Nat.lt_of_succ_lt_succ hf)
    have hnext : next (ps.flatten ++ ts) := by
      cases ps with
      | nil => exact hts
      | cons q ps =>
        rw [List.flatten_cons, List.append_assoc]
        exact hp.2 q List.mem_cons_self _
    rw [readMany, List.flatten_cons, List.append_assoc, hs.1, if_neg Bool.false_ne_true,
      hy _ hnext]
    simp [hrest]

theorem length_le_length_flatten (h : ∀ p ∈ ps, p ≠ []) : ps.length ≤ ps.flatten.length := by
  induction ps with
  | nil => exact Nat.zero_le _
  | cons p ps ih =>
    rw [List.forall_mem_cons] at h
    have hp := List.length_pos_iff.2 h.1
    have hps := ih h.2
    rw [List.flatten_cons, List.length_append, List.length_cons]
    omega

theorem readAll_flatten {next : List Token → Prop} {ys : List β}
    (hr : List.Forall₂ (fun y p => ∀ ts, next ts → read (p ++ ts) = some (y, ts)) ys ps)
    (hp : ∀ p ∈ ps, ∀ ts, next (p ++ ts))
    (hs : ∀ p ∈ ps, ∀ ts, stop (p ++ ts).head? = false) (hts : next ts) (hend : stop ts.head?) :
    readAll stop read (ps.flatten ++ ts) = some (ys, ts) := by
  have hne : ∀ p ∈ ps, p ≠ [] := by
    intro p hm he
    have := hs p hm ts
    rw [he, List.nil_append, hend] at this
    cases this
  apply readMany_flatten hr hp hs hts hend
  rw [List.length_append]
  exact Nat.lt_succ_of_le (Nat.le_add_right_of_le (length_le_length_flatten hne))

theorem readAll_flatMap {f : α → β} {parts : α → List Token} {xs : List α}
    (hr : ∀ x ∈ xs, ∀ ts, read (parts x ++ ts) = some (f x, ts))
    (hs : ∀ x ∈ xs, ∀ ts, stop (parts x ++ ts).head? = false) (hend : stop ts.head?) :
    readAll stop read (xs.flatMap parts ++ ts) = some (xs.map f, ts) := by
  have hall : List.Forall₂ (fun y p => ∀ ts, True → read (p ++ ts) = some (y, ts))
      (xs.map f) (xs.map parts) := by
    rw [List.forall₂_map_left_iff, List.forall₂_map_right_iff, List.forall₂_same]
    exact fun x hx ts _ => hr x hx ts
  rw [List.flatMap_def]
  apply readAll_flatten hall (fun _ _ _ => trivial) _ trivial hend
  exact List.forall_mem_map.2 hs

end Many

theorem readExpression_operand {value : Operand} (h : value.Worded) (ts : List Token) :
    readExpression (tokens value.text ++ ts) = some (value.expression, ts) := by
  induction value with
  | field name =>
    rw [Operand.text, tokens_mark_append (by decide), tokens_of_isWord h]
    rfl
  | slot index =>
    rw [Operand.text, tokens_of_isWord (Text.isWord_index index)]
    rfl
  | item => rfl
  | unboxed boxed ih =>
    have ht : tokens "&**" = [.mark '&', .mark '*', .mark '*'] := by rfl
    rw [Operand.text, tokens_mark_append (by decide), ht]
    simp only [List.cons_append, List.nil_append, readExpression]
    rw [ih h]
    rfl

theorem tokens_visit {node : String} (h : isIdentifier node) (value : Operand) (level : Nat) :
    tokens (text ((Step.visit node value).lines level)) =
      .word "visitor" :: (tokens "." ++ .word ("visit_" ++ snakeCase node) ::
        (tokens "(" ++ (tokens value.text ++ tokens ");"))) := by
  have hw : IsWord ("visit_" ++ snakeCase node) := IsWord.append_snakeCase (by decide) h
  rw [Step.lines, tokens_text_indent, tokens_append_mark (by decide),
    tokens_between (by decide) (by decide),
    tokens_literal "visitor.visit_" "visitor." "visit_" rfl (by decide) hw]
  have hv : tokens "visitor." = .word "visitor" :: tokens "." := by rfl
  rw [hv]
  simp only [List.append_assoc, List.cons_append, List.nil_append]

theorem tokens_each (values : Operand) (body : Step) (level : Nat) :
    tokens (text ((Step.each values body).lines level)) =
      .word "for" :: .word "item" :: (tokens " in " ++ (tokens values.text ++ (tokens " \x7b" ++
        (tokens (text (body.lines (level + 1))) ++ tokens "\x7d")))) := by
  have hf : tokens "for item in " = .word "for" :: .word "item" :: tokens " in " := by rfl
  rw [Step.lines, tokens_text_append, tokens_text_append, tokens_text_indent, tokens_text_indent,
    tokens_append_mark (by decide), tokens_mark_append (by decide), hf]
  simp only [List.append_assoc, List.cons_append]

theorem tokens_ifPresent (value : Operand) (body : Step) (level : Nat) :
    tokens (text ((Step.ifPresent value body).lines level)) =
      .word "if" :: (tokens "let Some(" ++ .word "item" :: (tokens ") = " ++ (tokens value.text ++
        (tokens " \x7b" ++ (tokens (text (body.lines (level + 1))) ++ tokens "\x7d"))))) := by
  have hf : tokens "if let Some(item) = " =
      .word "if" :: (tokens "let Some(" ++ .word "item" :: tokens ") = ") := by rfl
  rw [Step.lines, tokens_text_append, tokens_text_append, tokens_text_indent, tokens_text_indent,
    tokens_append_mark (by decide), tokens_mark_append (by decide), hf]
  simp only [List.append_assoc, List.cons_append]

theorem endsBody_step (step : Step) (level : Nat) (ts : List Token) (h : step.Worded) :
    endsBody (tokens (text (step.lines level)) ++ ts).head? = false := by
  cases step with
  | visit node value => rw [tokens_visit h.1]; rfl
  | each values body => rw [tokens_each]; rfl
  | ifPresent value body => rw [tokens_ifPresent]; rfl

theorem readAll_steps (steps : List Step) (h : ∀ step ∈ steps, step.Worded) {level depth : Nat}
    (hr : ∀ step ∈ steps, ∀ ts, readStatement depth (tokens (text (step.lines level)) ++ ts) =
      some (step.statement, ts)) {ts : List Token} (hend : endsBody ts.head?) :
    readAll endsBody (readStatement depth)
      (tokens (text (steps.flatMap (Step.lines level))) ++ ts) =
        some (steps.map (·.statement), ts) := by
  rw [tokens_text_flatMap]
  exact readAll_flatMap hr (fun step hs ts => endsBody_step step level ts (h step hs)) hend

theorem readStatement_step {step : Step} (h : step.Worded) {level depth : Nat}
    (hd : (tokens (text (step.lines level))).length ≤ depth) (ts : List Token) :
    readStatement depth (tokens (text (step.lines level)) ++ ts) = some (step.statement, ts) := by
  -- The body of a block has fewer tokens than the block, so that the depth left suffices for it.
  have hbody {body : Step} (hb : body.Worded) {level depth : Nat} (ts : List Token)
      (ih : ∀ ts, readStatement depth (tokens (text (body.lines level)) ++ ts) =
        some (body.statement, ts)) :
      readAll endsBody (readStatement depth)
        (tokens (text (body.lines level)) ++ (tokens "\x7d" ++ ts)) =
          some ([body.statement], tokens "\x7d" ++ ts) := by
    have hone : endsBody (tokens "\x7d" ++ ts).head? → _ :=
      readAll_steps [body] (by simpa using hb) (by simpa using ih)
    rw [List.flatMap_singleton] at hone
    exact hone rfl
  induction step generalizing level depth ts with
  | visit node value =>
    rw [tokens_visit h.1] at hd ⊢
    obtain ⟨depth, rfl⟩ := Nat.exists_eq_add_one_of_ne_zero (Nat.ne_zero_of_lt hd)
    simp only [List.cons_append, List.append_assoc, readStatement, expect_append, readWord,
      readExpression_operand h.2, Option.bind_eq_bind, Option.bind_some]
    rfl
  | each values body ih =>
    rw [tokens_each] at hd ⊢
    obtain ⟨depth, rfl⟩ := Nat.exists_eq_add_one_of_ne_zero (Nat.ne_zero_of_lt hd)
    simp only [List.length_cons, List.length_append] at hd
    have hlen : (tokens (text (body.lines (level + 1)))).length ≤ depth := by omega
    have hb := fun ts => hbody h.2 ts (ih h.2 hlen)
    simp only [List.cons_append, List.append_assoc, readStatement, expect_append, readWord,
      readExpression_operand h.1, hb, Option.bind_eq_bind, Option.bind_some]
    rfl
  | ifPresent value body ih =>
    rw [tokens_ifPresent] at hd ⊢
    obtain ⟨depth, rfl⟩ := Nat.exists_eq_add_one_of_ne_zero (Nat.ne_zero_of_lt hd)
    simp only [List.length_cons, List.length_append] at hd
    have hlen : (tokens (text (body.lines (level + 1)))).length ≤ depth := by omega
    have hb := fun ts => hbody h.2 ts (ih h.2 hlen)
    simp only [List.cons_append, List.append_assoc, readStatement, expect_append, readWord,
      readExpression_operand h.1, hb, Option.bind_eq_bind, Option.bind_some]
    rfl

theorem readBody_steps {steps : List Step} (h : ∀ step ∈ steps, step.Worded) {level : Nat}
    {ts : List Token} (hend : endsBody ts.head?) :
    readBody (tokens (text (steps.flatMap (Step.lines level))) ++ ts) =
      some (steps.map (·.statement), ts) := by
  rw [readBody]
  apply readAll_steps steps h _ hend
  intro step hs ts'
  apply readStatement_step (h step hs)
  rw [tokens_text_flatMap, List.length_append]
  obtain ⟨before, after, rfl⟩ := List.append_of_mem hs
  simp only [List.flatMap_append, List.flatMap_cons, List.length_append]
  omega

section Arms

open Code (Binding)

theorem tokens_binding (b : Binding) : tokens b.text = [.word b.text] := by
  cases b with
  | hole => exact tokens_of_isWord (by decide)
  | slot index => exact tokens_of_isWord (Text.isWord_index index)

theorem bound?_text (b : Binding) : bound? b.text = b.bound? := by
  cases b with
  | hole => rfl
  | slot index =>
    apply if_neg
    intro h
    rw [← String.toList_inj, Binding.text, String.toList_append] at h
    cases h

/-- The tokens of a pattern behind its first word. -/
def patternTokens (bs : List Binding) : List Token :=
  bs.flatMap fun b => [.mark ',', .word b.text]

theorem tokens_pattern (b : Binding) (bs : List Binding) :
    tokens (", ".intercalate ((b :: bs).map Binding.text)) = .word b.text :: patternTokens bs := by
  induction bs generalizing b with
  | nil =>
    rw [List.map_cons, List.map_nil, String.intercalate_singleton, tokens_binding]
    rfl
  | cons b' bs ih =>
    rw [List.map_cons, List.map_cons, String.intercalate_cons_cons, ← List.map_cons,
      tokens_between (by decide) (by decide), ih, tokens_binding]
    rfl

theorem readPattern_tokens (b : Binding) (bs : List Binding) (ts : List Token) :
    readPattern (.word b.text :: (patternTokens bs ++ .mark ')' :: ts)) =
      some (b.bound? :: bs.map (·.bound?), .mark ')' :: ts) := by
  induction bs generalizing b with
  | nil => simp [patternTokens, readPattern, bound?_text]
  | cons b' bs ih =>
    have hp : patternTokens (b' :: bs) = .mark ',' :: .word b'.text :: patternTokens bs := rfl
    rw [hp, List.cons_append, List.cons_append, readPattern, ih, bound?_text]
    rfl

theorem tokens_leaf {union variant : String} (hu : isIdentifier union)
    (hv : isIdentifier variant) :
    tokens (text ((Code.Arm.leaf variant).lines union)) =
      .word union :: (tokens "::" ++ .word variant :: (tokens "(" ++
        .mark '.' :: tokens ".) => \x7b\x7d")) := by
  rw [Code.Arm.lines, tokens_text_indent, tokens_append_mark (by decide),
    tokens_between (by decide) (by decide), tokens_of_isWord (Text.isWord_of_isIdentifier hu),
    tokens_of_isWord (Text.isWord_of_isIdentifier hv)]
  rfl

theorem tokens_walk {union variant : String} (hu : isIdentifier union)
    (hv : isIdentifier variant) (slots : List Binding) (body : List Step) :
    tokens (text ((Code.Arm.walk variant slots body).lines union)) =
      .word union :: (tokens "::" ++ .word variant :: (tokens "(" ++
        .word "_" :: (patternTokens slots ++ .mark ')' :: (tokens " => \x7b" ++
          (tokens (text (body.flatMap (Step.lines 3))) ++ tokens "\x7d"))))) := by
  rw [Code.Arm.lines, tokens_text_append, tokens_text_append, tokens_text_indent,
    tokens_text_indent, tokens_append_mark (by decide), tokens_between (by decide) (by decide),
    tokens_between (by decide) (by decide), tokens_pattern,
    tokens_of_isWord (Text.isWord_of_isIdentifier hu),
    tokens_of_isWord (Text.isWord_of_isIdentifier hv)]
  have he : tokens ") => \x7b" = .mark ')' :: tokens " => \x7b" := by rfl
  rw [he]
  simp only [List.append_assoc, List.cons_append, List.nil_append]
  rfl

theorem readArm_arm {union : String} (hu : isIdentifier union) {arm : Code.Arm} (h : arm.Worded)
    (ts : List Token) :
    readArm (tokens (text (arm.lines union)) ++ ts) = some (arm.toProgram union, ts) := by
  cases arm with
  | leaf variant =>
    rw [tokens_leaf hu h]
    simp only [List.cons_append, List.append_assoc, readArm, expect_append, readWord,
      Option.bind_eq_bind, Option.bind_some]
    rfl
  | walk variant slots body =>
    rw [tokens_walk hu h.1]
    have hp := fun ts => readPattern_tokens .hole slots ts
    have hb (ts : List Token) : readBody (tokens (text (body.flatMap (Step.lines 3))) ++
        (tokens "\x7d" ++ ts)) = some (body.map (·.statement), tokens "\x7d" ++ ts) :=
      readBody_steps h.2 rfl
    have he : ∀ ts, expect ") => \x7b" (.mark ')' :: (tokens " => \x7b" ++ ts)) = some ts :=
      fun ts => expect_append ") => \x7b" ts
    simp only [Binding.text] at hp
    simp only [List.cons_append, List.append_assoc, readArm, expect_append, readWord,
      Option.bind_eq_bind, Option.bind_some, hp, he, hb]
    rfl

theorem closes_arm {union : String} (hu : isIdentifier union) {arm : Code.Arm} (h : arm.Worded)
    (ts : List Token) : closes (tokens (text (arm.lines union)) ++ ts).head? = false := by
  cases arm with
  | leaf variant => rw [tokens_leaf hu h]; rfl
  | walk variant slots body => rw [tokens_walk hu h.1]; rfl

end Arms

end Program

end NodeSchema
