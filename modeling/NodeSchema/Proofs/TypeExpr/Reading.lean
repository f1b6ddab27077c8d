import NodeSchema.Proofs.Success
import NodeSchema.Proofs.TypeExpr.Descent
import NodeSchema.Proofs.TypeExpr.Tokenizing

namespace NodeSchema.TypeExpr

open Text (isAsciiWordChar isAsciiWordChar_eq_false isBlank isBlank_eq_false_of_mem_isName
  isIdentifier isName isWordChar isWordChar_of_isBlank all_isAsciiWordChar_of_isName
  ne_nil_of_isName)

theorem ofText?_eq_ok_iff {text : String} {e : TypeExpr} :
    ofText? text = .ok e ↔
      ∃ tokens, Tokens.ofText? text = .ok tokens ∧ ofTokens? tokens = .ok e := by
  rw [ofText?, bind_eq_ok_iff]
  simp only [mapError_eq_ok_iff]

/-- A type is read from a text exactly if the text spells it. -/
theorem reads_iff_spells {text : String} {e : TypeExpr} :
    ofText? text = .ok e ↔ e.WellNamed ∧ Spells e.lexemes text.toList := by
  rw [ofText?_eq_ok_iff]
  constructor
  · intro h
    obtain ⟨tokens, ht, he⟩ := h
    obtain ⟨hs, hn⟩ := spells_of_ofPieces ht
    rw [Piece.flatMap_chars_split] at hs
    obtain ⟨hw, hl⟩ := (ofTokens?_eq_ok_iff hn).1 he
    rw [hl] at hs
    exact ⟨hw, hs⟩
  · intro h
    obtain ⟨hw, hs⟩ := h
    have hi (name : String) (hm : .name name ∈ e.lexemes) : isIdentifier name :=
      hw.isIdentifier_of_mem hm
    obtain ⟨tokens, ht, hl⟩ := hs.exists_ofPieces hi hw.isChain 0
    have hn : tokens.Named := by
      intro name hm
      rw [hl] at hm
      exact hi name hm
    exact ⟨tokens, ht, (ofTokens?_eq_ok_iff hn).2 ⟨hw, hl⟩⟩

/-- What no text of a type contains. A word character from outside ASCII is a flaw wherever it
stands, so also next to a name. -/
inductive Flawed : List Char → Prop where
  | commaBeforeBracket {a blanks b : List Char} (hb : blanks.all isBlank) :
      Flawed (a ++ ',' :: (blanks ++ '>' :: b))
  | commaAtEnd {a blanks : List Char} (hb : blanks.all isBlank) : Flawed (a ++ ',' :: blanks)
  | noArguments {a blanks b : List Char} (hb : blanks.all isBlank) :
      Flawed (a ++ '<' :: (blanks ++ '>' :: b))
  | unclosedBracket {cs : List Char} (h : cs.count '>' < cs.count '<') : Flawed cs
  | extraBracket {a b : List Char} (h : a.count '<' < a.count '>') : Flawed (a ++ b)
  | foreignLetter {a b : List Char} {c : Char} (hw : isWordChar c)
      (hc : isAsciiWordChar c = false) : Flawed (a ++ c :: b)

theorem Spells.mem_or {ls : List Lexeme} {cs : List Char} (h : Spells ls cs) {c : Char}
    (hc : c ∈ cs) : isBlank c ∨ ∃ l ∈ ls, c ∈ l.text.toList := by
  induction h with
  | nil hb => exact .inl (List.all_eq_true.1 hb c hc)
  | @cons blanks cs l ls hb h ih =>
    rw [List.append_assoc, List.mem_append, List.mem_append] at hc
    rcases hc with hc | hc | hc
    · exact .inl (List.all_eq_true.1 hb c hc)
    · exact .inr ⟨l, List.mem_cons_self, hc⟩
    · rcases ih hc with hc | ⟨l', hl, hc⟩
      · exact .inl hc
      · exact .inr ⟨l', List.mem_cons_of_mem _ hl, hc⟩

theorem Lexeme.exists_mark {m : Lexeme} (hm : ∀ name, m ≠ .name name) :
    ∃ c, m.text.toList = [c] ∧ isBlank c = false ∧ isWordChar c = false := by
  cases m with
  | name text => exact absurd rfl (hm text)
  | less => exact ⟨'<', rfl, by decide, by decide⟩
  | greater => exact ⟨'>', rfl, by decide, by decide⟩
  | comma => exact ⟨',', rfl, by decide, by decide⟩

theorem Lexeme.eq_of_mem_text {l m : Lexeme} {c : Char} (hm : m.text.toList = [c])
    (hm' : ∀ name, m ≠ .name name) (hl : ∀ name, l ≠ .name name) (hc : c ∈ l.text.toList) :
    l = m := by
  cases l with
  | name text => exact absurd rfl (hl text)
  | less | greater | comma =>
    obtain rfl := List.mem_singleton.1 hc
    cases m with
    | name text => exact absurd rfl (hm' text)
    | less | greater | comma => simp_all [text]

theorem not_mem_of_isIdentifier {name : String} (h : isIdentifier name) {c : Char}
    (hc : isAsciiWordChar c = false) : c ∉ name.toList := by
  intro hm
  have := List.all_eq_true.1 (all_isAsciiWordChar_of_isName h) c hm
  rw [hc] at this
  cases this

/-- A mark in the text is one among the lexemes, and what stands before and behind it spells the
lexemes before and behind. -/
theorem Spells.of_mark {ls : List Lexeme} {a b : List Char} {m : Lexeme}
    (hm : ∀ name, m ≠ .name name) (h : Spells ls (a ++ (m.text.toList ++ b)))
    (hi : ∀ name, .name name ∈ ls → isIdentifier name) :
    ∃ before after, ls = before ++ m :: after ∧ Spells before a ∧ Spells after b := by
  obtain ⟨c, hc, hblank, hword⟩ := Lexeme.exists_mark hm
  have hnot {blanks : List Char} (hb : blanks.all isBlank) : c ∉ blanks := by
    intro hcm
    have := List.all_eq_true.1 hb c hcm
    rw [hblank] at this
    cases this
  rw [hc] at h
  generalize he : a ++ ([c] ++ b) = cs at h
  induction h generalizing a with
  | nil hb => exact absurd (he ▸ by simp) (hnot hb)
  | @cons blanks cs l ls hb h ih =>
    have hi' (name : String) (hn : .name name ∈ ls) : isIdentifier name :=
      hi name (List.mem_cons_of_mem _ hn)
    rcases List.append_eq_append_iff.1 he with ⟨t, ht, hbt⟩ | ⟨a', rfl, hcs⟩
    · cases t with
      | nil =>
        rw [List.append_nil] at ht
        subst ht
        obtain ⟨before, after, rfl, hs, hs'⟩ := ih hi' (a := []) hbt
        exact ⟨l :: before, after, rfl, by simpa using Spells.cons hb hs, hs'⟩
      | cons d t =>
        obtain ⟨rfl, rfl⟩ : c = d ∧ b = t ++ cs := by simpa using hbt
        -- The mark lies within this lexeme, so it is the lexeme.
        have hmem : c ∈ l.text.toList := by
          have : c ∈ blanks ++ l.text.toList := ht ▸ by simp
          exact (List.mem_append.1 this).resolve_left (hnot hb)
        have hl (name : String) (hn : l = .name name) : False := by
          subst hn
          exact not_mem_of_isIdentifier (hi name List.mem_cons_self)
            (isAsciiWordChar_eq_false hword) hmem
        obtain rfl := Lexeme.eq_of_mem_text hc hm hl hmem
        rw [hc] at ht
        rcases List.eq_nil_or_concat t with rfl | ⟨t, d, rfl⟩
        · obtain rfl := List.append_inj_left' ht rfl
          exact ⟨[], ls, rfl, .nil hb, h⟩
        · rw [List.concat_eq_append, ← List.cons_append, ← List.append_assoc] at ht
          have := List.append_inj_left' ht rfl
          exact absurd (this ▸ by simp) (hnot hb)
    · obtain ⟨before, after, rfl, hs, hs'⟩ := ih hi' hcs.symm
      exact ⟨l :: before, after, rfl, .cons hb hs, hs'⟩

theorem Lexeme.exists_not_isBlank {l : Lexeme} (hi : ∀ name, l = .name name → isIdentifier name) :
    ∃ c ∈ l.text.toList, isBlank c = false := by
  by_cases hl : ∃ name, l = .name name
  · obtain ⟨name, rfl⟩ := hl
    have hn : isName name.toList := hi name rfl
    obtain ⟨c, cs, hc⟩ := List.exists_cons_of_ne_nil (ne_nil_of_isName hn)
    have hm : c ∈ name.toList := hc ▸ List.mem_cons_self
    exact ⟨c, hm, isBlank_eq_false_of_mem_isName hn hm⟩
  · obtain ⟨c, hc, hb, -⟩ := Lexeme.exists_mark fun name he => hl ⟨name, he⟩
    exact ⟨c, hc ▸ List.mem_singleton_self c, hb⟩

theorem Spells.eq_nil {ls : List Lexeme} {cs : List Char} (h : Spells ls cs)
    (hi : ∀ name, .name name ∈ ls → isIdentifier name) (hb : cs.all isBlank) : ls = [] := by
  cases h with
  | nil => rfl
  | @cons blanks cs l ls _ h =>
    obtain ⟨c, hm, hc⟩ :=
      Lexeme.exists_not_isBlank fun name he => hi name (he ▸ List.mem_cons_self)
    have := List.all_eq_true.1 hb c (by simp [hm])
    rw [hc] at this
    cases this

theorem Spells.next_of_marks {ls : List Lexeme} {a blanks b : List Char} (m m' : Lexeme)
    (h : Spells ls (a ++ (m.text.toList ++ (blanks ++ (m'.text.toList ++ b)))))
    (hm : ∀ name, m ≠ .name name) (hm' : ∀ name, m' ≠ .name name)
    (hi : ∀ name, .name name ∈ ls → isIdentifier name) (hb : blanks.all isBlank)
    (hc : ls.IsChain Lexeme.Next) : m.Next m' := by
  obtain ⟨before, after, rfl, -, hs⟩ := h.of_mark hm hi
  have hi' (name : String) (hn : .name name ∈ after) : isIdentifier name :=
    hi name (List.mem_append_right _ (List.mem_cons_of_mem _ hn))
  obtain ⟨between, after, rfl, hs, -⟩ := hs.of_mark hm' hi'
  obtain rfl := hs.eq_nil (fun name hn => hi' name (List.mem_append_left _ hn)) hb
  exact (List.isChain_append_cons_cons.1 hc).2.1

theorem Spells.filter_isBracket {ls : List Lexeme} {cs : List Char} (h : Spells ls cs) :
    cs.filter isBracket = brackets ls := by
  have hnil {blanks : List Char} (hb : blanks.all isBlank) : blanks.filter isBracket = [] := by
    rw [List.filter_eq_nil_iff]
    intro c hc hbr
    have := List.all_eq_true.1 hb c hc
    simp only [isBracket, Bool.or_eq_true, beq_iff_eq] at hbr
    rcases hbr with rfl | rfl <;> revert this <;> decide
  induction h with
  | nil hb => exact hnil hb
  | @cons blanks cs l ls hb h ih =>
    rw [List.filter_append, List.filter_append, hnil hb, ih, ← List.singleton_append,
      brackets_append]
    simp [brackets]

theorem Flawed.not_spells {cs : List Char} (hf : Flawed cs) {e : TypeExpr} (he : e.WellNamed) :
    ¬ Spells e.lexemes cs := by
  intro h
  have hi (name : String) (hm : .name name ∈ e.lexemes) : isIdentifier name :=
    he.isIdentifier_of_mem hm
  have hnested : Nested (cs.filter isBracket) := h.filter_isBracket ▸ he.nested
  cases hf with
  | commaBeforeBracket hb =>
    exact h.next_of_marks .comma .greater nofun nofun hi hb he.isChain
  | @commaAtEnd a blanks hb =>
    obtain ⟨before, after, hl, -, hs⟩ := h.of_mark (m := .comma) nofun hi
    have hi' (name : String) (hm : .name name ∈ after) : isIdentifier name :=
      hi name (hl ▸ List.mem_append_right _ (List.mem_cons_of_mem _ hm))
    obtain rfl := hs.eq_nil hi' hb
    have hc := he.isChain_append_greater
    rw [hl, List.append_assoc] at hc
    exact (List.isChain_append_cons_cons.1 hc).2.1
  | noArguments hb =>
    exact h.next_of_marks .less .greater nofun nofun hi hb he.isChain
  | unclosedBracket hlt =>
    have := hnested.count_eq
    rw [List.count_filter rfl, List.count_filter rfl] at this
    omega
  | @extraBracket a b hlt =>
    have := hnested.count_le _ ((List.prefix_append a b).filter isBracket)
    rw [List.count_filter rfl, List.count_filter rfl] at this
    omega
  | @foreignLetter a b c hw hc =>
    rcases h.mem_or (c := c) (by simp) with hb | ⟨l, hl, hm⟩
    · rw [isWordChar_of_isBlank hb] at hw
      cases hw
    · by_cases hn : ∃ name, l = .name name
      · obtain ⟨name, rfl⟩ := hn
        exact not_mem_of_isIdentifier (hi name hl) hc hm
      · obtain ⟨d, hd, -, hw'⟩ := Lexeme.exists_mark fun name hne => hn ⟨name, hne⟩
        rw [hd] at hm
        obtain rfl := List.mem_singleton.1 hm
        rw [hw] at hw'
        cases hw'

theorem ofText?_eq_ok_iff_spells (text : String) :
    (∀ e, ofText? text = .ok e ↔ e.WellNamed ∧ Spells e.lexemes text.toList) ∧
      (∀ e e' : TypeExpr, e.WellNamed → Spells e.lexemes text.toList → e'.WellNamed →
        Spells e'.lexemes text.toList → e = e') ∧
      (Flawed text.toList → ∀ e, ofText? text ≠ .ok e) := by
  have hunique : ∀ e e' : TypeExpr, e.WellNamed → Spells e.lexemes text.toList → e'.WellNamed →
      Spells e'.lexemes text.toList → e = e' := by
    intro e e' hw hs hw' hs'
    have h := reads_iff_spells.2 ⟨hw, hs⟩
    rw [reads_iff_spells.2 ⟨hw', hs'⟩] at h
    exact (Except.ok.inj h).symm
  have hflawed : Flawed text.toList → ∀ e, ofText? text ≠ .ok e := by
    intro hf e h
    obtain ⟨hw, hs⟩ := reads_iff_spells.1 h
    exact hf.not_spells hw hs
  exact ⟨fun e => reads_iff_spells, hunique, hflawed⟩

theorem reads_spaced_map_not_final_comma :
    ofText? "Map< K ,V >" = .ok (.generic "Map" [.atomic "K", .atomic "V"]) ∧
      ∀ e, ofText? "Box<Expr,>" ≠ .ok e := by
  constructor
  · apply ((ofText?_eq_ok_iff_spells _).1 _).2
    constructor
    · apply WellNamed.generic rfl (List.cons_ne_nil _ _)
      intro arg hm
      simp only [List.mem_cons, List.not_mem_nil, or_false] at hm
      rcases hm with rfl | rfl <;> exact .atomic rfl
    · exact @Spells.cons [] _ _ _ rfl <| @Spells.cons [] _ _ _ rfl <|
        @Spells.cons [' '] _ _ _ rfl <| @Spells.cons [' '] _ _ _ rfl <|
        @Spells.cons [] _ _ _ rfl <| @Spells.cons [' '] _ _ _ rfl <| @Spells.nil [] rfl
  · have hf : Flawed "Box<Expr,>".toList := @Flawed.commaBeforeBracket "Box<Expr".toList [] [] rfl
    exact (ofText?_eq_ok_iff_spells _).2.2 hf

end NodeSchema.TypeExpr
