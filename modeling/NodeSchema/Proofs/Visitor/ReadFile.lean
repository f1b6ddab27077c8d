import NodeSchema.Proofs.Visitor.ReadBack

namespace NodeSchema.Program

open Code (Step Walker VisitorFile methodLines text)
open Text (IsWord isIdentifier snakeCase)

theorem tokens_walker_head {node : String} (h : isIdentifier node) (lifetime : String) :
    tokens ("pub fn walk_" ++ snakeCase node ++ "<" ++ lifetime ++ ", V: Visitor<" ++ lifetime
        ++ ">>(visitor: &mut V, node: &" ++ node ++ "<" ++ lifetime ++ ">) \x7b") =
      tokens "pub fn " ++ .word ("walk_" ++ snakeCase node) :: (tokens "<" ++ (tokens lifetime ++
        (tokens ", V: Visitor<" ++ (tokens lifetime ++ (tokens ">>(visitor: &mut V, node: &" ++
          .word node :: (tokens "<" ++ (tokens lifetime ++ tokens ">) \x7b"))))))) := by
  have hw : IsWord ("walk_" ++ snakeCase node) := IsWord.append_snakeCase (by decide) h
  rw [tokens_append_mark (by decide), tokens_between (by decide) (by decide),
    tokens_between (by decide) (by decide), tokens_between (by decide) (by decide),
    tokens_between (by decide) (by decide),
    tokens_literal "pub fn walk_" "pub fn " "walk_" rfl (by decide) hw,
    tokens_of_isWord (Text.isWord_of_isIdentifier h)]
  simp only [List.append_assoc, List.cons_append, List.nil_append]

theorem readBody_discard {line : String}
    (hl : line = "let _ = visitor;" ∨ line = "let _ = (visitor, node);") {ts : List Token}
    (hend : endsBody ts.head?) : readBody (tokens line ++ ts) = some ([.discard], ts) := by
  have hread {depth : Nat} (ts : List Token) :
      readStatement (depth + 1) (tokens line ++ ts) = some (.discard, ts) := by
    rcases hl with rfl | rfl
    · have ht : tokens "let _ = visitor;" = .word "let" :: tokens "_ = visitor;" := by rfl
      rw [ht]
      simp only [List.cons_append, readStatement, expect_append]
      rfl
    · have ht : tokens "let _ = (visitor, node);" =
          .word "let" :: tokens "_ = (visitor, node);" := by rfl
      have hn : expect "_ = visitor;" (tokens "_ = (visitor, node);" ++ ts) = none := by rfl
      rw [ht]
      simp only [List.cons_append, readStatement, expect_append, hn]
      rfl
  have hlet (ts : List Token) : ∃ more, tokens line ++ ts = .word "let" :: more := by
    rcases hl with rfl | rfl
    · exact ⟨_, rfl⟩
    · exact ⟨_, rfl⟩
  obtain ⟨more, hm⟩ := hlet ts
  have hall : readAll endsBody (readStatement (more.length + 1))
      ([()].flatMap (fun _ => tokens line) ++ ts) = some ([()].map fun _ => .discard, ts) := by
    apply readAll_flatMap (fun _ _ ts => hread ts) _ hend
    intro _ _ ts
    obtain ⟨more, hm⟩ := hlet ts
    rw [hm]
    rfl
  rw [List.flatMap_singleton] at hall
  rw [readBody, hm, List.length_cons, ← hm]
  exact hall

theorem readBody_nil {ts : List Token} (hend : endsBody ts.head?) :
    readBody ts = some ([], ts) := by
  rw [readBody, readAll, readMany, if_pos hend]

theorem readRoutine_head {node : String} (h : isIdentifier node) (lifetime : String)
    {body : List Statement} {arms : Option (List Arm)} {ts rest : List Token}
    (ts' ts'' : List Token) (hb : readBody ts = some (body, ts'))
    (hm : readMatch ts' = some (arms, ts'')) (hc : expect "\x7d" ts'' = some rest) :
    readRoutine lifetime (tokens ("pub fn walk_" ++ snakeCase node ++ "<" ++ lifetime
        ++ ", V: Visitor<" ++ lifetime ++ ">>(visitor: &mut V, node: &" ++ node ++ "<" ++ lifetime
        ++ ">) \x7b") ++ ts) =
      some (⟨"walk_" ++ snakeCase node, node, body, arms⟩, rest) := by
  rw [tokens_walker_head h]
  simp only [List.cons_append, List.append_assoc, readRoutine, expect_append, readWord,
    Option.bind_eq_bind, Option.bind_some, hb, hm, hc]
  rfl

theorem readRoutine_walker {walker : Walker} (h : walker.Worded) (lifetime : String)
    (ts : List Token) :
    readRoutine lifetime (tokens (text (walker.lines lifetime)) ++ ts) =
      some (walker.routine, ts) := by
  rw [Walker.lines, tokens_text_append, tokens_text_append, tokens_text_singleton,
    tokens_text_singleton, List.append_assoc, List.append_assoc]
  cases walker with
  | record name steps =>
    apply readRoutine_head h.1 lifetime (tokens "\x7d" ++ ts) _ _ rfl (expect_append _ _)
    rw [Walker.body]
    split
    · rw [tokens_text_indent]
      exact readBody_discard (.inr rfl) rfl
    · exact readBody_steps h.2 rfl
  | union name arms =>
    rw [Walker.body, tokens_text_append, tokens_text_append, tokens_text_append,
      tokens_text_indent, tokens_text_indent, tokens_text_flatMap]
    have hm : tokens "match node \x7b" = .word "match" :: tokens "node \x7b" := by rfl
    have ha : readAll closes readArm (arms.flatMap (fun arm => tokens (text (arm.lines name))) ++
        (tokens "\x7d" ++ (tokens "\x7d" ++ ts))) =
          some (arms.map (·.toProgram name), tokens "\x7d" ++ (tokens "\x7d" ++ ts)) :=
      readAll_flatMap (fun arm ha ts => readArm_arm h.1 (h.2 arm ha) ts)
        (fun arm ha ts => closes_arm h.1 (h.2 arm ha) ts) rfl
    rw [hm]
    simp only [List.append_assoc, List.cons_append]
    apply readRoutine_head h.1 lifetime (.word "match" :: (tokens "node \x7b" ++
      (arms.flatMap (fun arm => tokens (text (arm.lines name))) ++
        (tokens "\x7d" ++ (tokens "\x7d" ++ ts))))) (tokens "\x7d" ++ ts) _ _ (expect_append _ _)
    · split
      · rw [tokens_text_indent]
        exact readBody_discard (.inl rfl) rfl
      · exact readBody_nil rfl
    · simp only [readMatch, expect_append, Option.bind_eq_bind, Option.bind_some, ha]
      rfl

theorem tokens_method {node : String} (h : isIdentifier node) (lifetime : String) :
    tokens (text (methodLines lifetime node)) =
      tokens "fn " ++ .word ("visit_" ++ snakeCase node) :: (tokens "(&mut self, node: &" ++
        .word node :: (tokens "<" ++ (tokens lifetime ++ (tokens ">) \x7b" ++
          .word ("walk_" ++ snakeCase node) :: (tokens "(self, node)" ++ tokens "\x7d"))))) := by
  have hv : IsWord ("visit_" ++ snakeCase node) := IsWord.append_snakeCase (by decide) h
  have hw : IsWord ("walk_" ++ snakeCase node) := IsWord.append_snakeCase (by decide) h
  rw [methodLines, tokens_text, List.flatMap_cons, List.flatMap_cons, List.flatMap_singleton,
    tokens_indent, tokens_indent, tokens_indent, tokens_append_mark (by decide),
    tokens_between (by decide) (by decide), tokens_between (by decide) (by decide),
    tokens_literal "fn visit_" "fn " "visit_" rfl (by decide) hv, tokens_append_mark (by decide),
    tokens_of_isWord hw,
    tokens_of_isWord (Text.isWord_of_isIdentifier h)]
  simp only [List.append_assoc, List.cons_append, List.nil_append]

theorem readMethod_method {node : String} (h : isIdentifier node) (lifetime : String)
    (ts : List Token) :
    readMethod lifetime (tokens (text (methodLines lifetime node)) ++ ts) =
      some (Code.method node, ts) := by
  rw [tokens_method h]
  simp only [List.cons_append, List.append_assoc, readMethod, expect_append, readWord,
    Option.bind_eq_bind, Option.bind_some]
  rfl

theorem tokens_methods (lifetime : String) (nodes : List String) :
    tokens (text ([""].intercalate (nodes.map (methodLines lifetime)))) =
      nodes.flatMap fun node => tokens (text (methodLines lifetime node)) := by
  induction nodes with
  | nil => rfl
  | cons node nodes ih =>
    cases nodes with
    | nil => simp [List.intercalate]
    | cons node' nodes =>
      rw [List.map_cons, List.map_cons, List.intercalate_cons_cons, ← List.map_cons,
        tokens_text_append, tokens_text_append, ih, List.flatMap_cons (x := node),
        tokens_text_singleton, tokens_empty, List.append_nil]

theorem closes_brace (ts : List Token) : closes (tokens "\x7d" ++ ts).head? := rfl

theorem closes_method {node : String} (h : isIdentifier node) (lifetime : String)
    (ts : List Token) : closes (tokens (text (methodLines lifetime node)) ++ ts).head? = false := by
  rw [tokens_method h]
  rfl

theorem isNone_walker {walker : Walker} (h : walker.Worded) (lifetime : String) (ts : List Token) :
    (tokens (text (walker.lines lifetime)) ++ ts).head?.isNone = false := by
  have hn : isIdentifier walker.node := by
    cases walker with
    | record name steps => exact h.1
    | union name arms => exact h.1
  rw [Walker.lines, tokens_text_append, tokens_text_append, tokens_text_singleton,
    tokens_walker_head hn]
  rfl

end NodeSchema.Program

namespace NodeSchema.Code.VisitorFile

open Program (expect readAll readMethod readRoutine tokens tokens_text_append)
open Text (isIdentifier)

/-- The trait and the walkers. -/
def code (file : VisitorFile) : String :=
  Code.text (file.traitLines ++ file.walkers.flatMap fun walker => "" :: walker.lines file.lifetime)

theorem text_eq_header_append_code (file : VisitorFile) :
    file.text = Code.text file.header ++ file.code := by
  rw [text, lines, code, List.append_assoc, text_append]

/-- The code of the file is read as its program. -/
theorem ofText?_code {file : VisitorFile} (hm : ∀ node ∈ file.methods, isIdentifier node)
    (hw : ∀ walker ∈ file.walkers, walker.Worded) :
    Program.ofText? file.lifetime file.code = some file.program := by
  have ht : tokens file.code =
      tokens "pub trait Visitor<" ++ (tokens file.lifetime ++ (tokens ">: Sized \x7b" ++
        (file.methods.flatMap (fun node => tokens (Code.text (methodLines file.lifetime node))) ++
          (tokens "\x7d" ++ (file.walkers.flatMap (fun walker =>
            tokens (Code.text (walker.lines file.lifetime))) ++ []))))) := by
    rw [code, tokens_text_append, traitLines, tokens_text_append, tokens_text_append,
      Program.tokens_methods, Program.tokens_text_flatMap]
    simp only [Program.tokens_text_blank]
    rw [Program.tokens_text_singleton, Program.tokens_text_singleton,
      Program.tokens_append_mark (by decide), Program.tokens_mark_append (by decide)]
    simp only [List.append_assoc, List.append_nil]
  have hmethods (ts : List Program.Token) : readAll Program.closes (readMethod file.lifetime)
      (file.methods.flatMap (fun node => tokens (Code.text (methodLines file.lifetime node))) ++
        (tokens "\x7d" ++ ts)) = some (file.methods.map method, tokens "\x7d" ++ ts) :=
    Program.readAll_flatMap
      (fun node hn ts => Program.readMethod_method (hm node hn) file.lifetime ts)
      (fun node hn ts => Program.closes_method (hm node hn) file.lifetime ts)
      (Program.closes_brace ts)
  have hroutines : readAll Option.isNone (readRoutine file.lifetime)
      (file.walkers.flatMap (fun walker => tokens (Code.text (walker.lines file.lifetime))) ++ []) =
        some (file.walkers.map (·.routine), []) :=
    Program.readAll_flatMap
      (fun walker hn ts => Program.readRoutine_walker (hw walker hn) file.lifetime ts)
      (fun walker hn ts => Program.isNone_walker (hw walker hn) file.lifetime ts) rfl
  simp only [Program.ofText?, ht, Program.expect_append, Option.bind_eq_bind, Option.bind_some,
    hmethods, hroutines]
  rfl

end NodeSchema.Code.VisitorFile
