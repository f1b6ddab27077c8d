import NodeSchema.Proofs.TypeExpr.Reading

namespace NodeSchema.TypeExpr

open Text (isBlank isBlank_eq_false_of_mem_isName isIdentifier)

/-- How a lexeme is printed: a comma takes a space behind it. -/
def Lexeme.printed : Lexeme → List Char
  | comma => [',', ' ']
  | lexeme => lexeme.text.toList

theorem toList_intercalate_toText {args : List TypeExpr}
    (h : ∀ arg ∈ args, arg.toText.toList = arg.lexemes.flatMap Lexeme.printed) :
    (", ".intercalate (args.map toText)).toList =
      ([Lexeme.comma].intercalate (args.map lexemes)).flatMap Lexeme.printed := by
  induction args with
  | nil => rfl
  | cons arg args ih =>
    rw [List.forall_mem_cons] at h
    cases args with
    | nil =>
      rw [List.map_singleton, List.map_singleton, String.intercalate_singleton,
        List.intercalate_singleton, h.1]
    | cons arg' args =>
      have hrest := ih h.2
      rw [List.map_cons, List.map_cons] at hrest ⊢
      rw [List.map_cons, List.map_cons, String.intercalate_cons_cons, List.intercalate_cons_cons,
        String.toList_append, String.toList_append, hrest, List.flatMap_append,
        List.flatMap_append, h.1]
      rfl

theorem toList_toText (e : TypeExpr) : e.toText.toList = e.lexemes.flatMap Lexeme.printed := by
  induction e using TypeExpr.induction with
  | atomic name => exact (List.append_nil _).symm
  | generic container args ih =>
    rw [toText, toTexts_eq_map, lexemes, lexemesOf_eq_map]
    simp only [String.toList_append, toList_intercalate_toText ih, List.flatMap_append]
    rfl

theorem Spells.printed (ls : List Lexeme) : Spells ls (ls.flatMap Lexeme.printed) := by
  induction ls with
  | nil => exact .nil rfl
  | cons l ls ih =>
    cases l with
    | name text => exact ih.lexeme (.name text)
    | less => exact ih.lexeme .less
    | greater => exact ih.lexeme .greater
    | comma =>
      have hspace : Spells ls (' ' :: ls.flatMap Lexeme.printed) := ih.blank (by decide)
      exact hspace.lexeme .comma

theorem WellNamed.ofText?_toText {e : TypeExpr} (he : e.WellNamed) : ofText? e.toText = .ok e := by
  have hs : Spells e.lexemes e.toText.toList := e.toList_toText ▸ .printed e.lexemes
  exact reads_iff_spells.2 ⟨he, hs⟩

/-- One space behind a comma, and every other character as it is. -/
def spaced (c : Char) : List Char := if c = ',' then [',', ' '] else [c]

/-- A text without its white space, but with one space behind every comma. -/
def tidy (text : String) : String :=
  String.ofList ((text.toList.filter fun c => !isBlank c).flatMap spaced)

theorem Lexeme.tidy_text {l : Lexeme} (hi : ∀ name, l = .name name → isIdentifier name) :
    (l.text.toList.filter fun c => !isBlank c).flatMap spaced = l.printed := by
  cases l with
  | name text =>
    have hn := hi text rfl
    have hkept : text.toList.filter (fun c => !isBlank c) = text.toList :=
      List.filter_eq_self.2 fun c hc => by rw [isBlank_eq_false_of_mem_isName hn hc]; rfl
    have hspaced : ∀ c ∈ text.toList, spaced c = [c] := by
      intro c hc
      have hne : c ≠ ',' := fun he => not_mem_of_isIdentifier hn (c := ',') (by decide) (he ▸ hc)
      exact if_neg hne
    rw [Lexeme.text, hkept, List.flatMap_congr hspaced, List.flatMap_singleton']
    rfl
  | less => decide
  | greater => decide
  | comma => decide

/-- Tidied up, a text that spells lexemes is what is printed for them. -/
theorem Spells.tidy_eq {ls : List Lexeme} {cs : List Char} (h : Spells ls cs)
    (hi : ∀ name, .name name ∈ ls → isIdentifier name) :
    (cs.filter fun c => !isBlank c).flatMap spaced = ls.flatMap Lexeme.printed := by
  have hnil {blanks : List Char} (hb : blanks.all isBlank) :
      blanks.filter (fun c => !isBlank c) = [] := by
    apply List.filter_eq_nil_iff.2
    intro c hc
    rw [List.all_eq_true.1 hb c hc]
    exact Bool.false_ne_true
  induction h with
  | nil hb => rw [hnil hb]; rfl
  | @cons blanks cs l ls hb h ih =>
    have hl : ∀ name, l = .name name → isIdentifier name :=
      fun name he => hi name (he ▸ List.mem_cons_self)
    have hrest := ih fun name hm => hi name (List.mem_cons_of_mem _ hm)
    rw [List.filter_append, List.filter_append, hnil hb, List.nil_append, List.flatMap_append,
      Lexeme.tidy_text hl, hrest, List.flatMap_cons]

theorem toText_of_ofText? {text : String} {e : TypeExpr} (h : ofText? text = .ok e) :
    e.toText = tidy text := by
  obtain ⟨he, hs⟩ := reads_iff_spells.1 h
  have htidy := hs.tidy_eq fun name hm => he.isIdentifier_of_mem hm
  rw [tidy, htidy, ← e.toList_toText, String.ofList_toList]

/-- Reads a type and prints it again. -/
def reprint (text : String) : Except ReadFault String := (ofText? text).map toText

/-- A printed type is read back, a text that is read is printed without its white space and with one
space behind every comma, and printing it a second time changes nothing. -/
theorem printing_inverts_reading :
    (∀ e : TypeExpr, e.WellNamed → ofText? e.toText = .ok e) ∧
    (∀ text e, ofText? text = .ok e → e.toText = tidy text) ∧
    ∀ text printed, reprint text = .ok printed → reprint printed = .ok printed := by
  refine ⟨fun e he => he.ofText?_toText, fun text e h => toText_of_ofText? h, ?_⟩
  intro text printed h
  cases he : ofText? text with
  | error fault =>
    rw [reprint, he] at h
    cases h
  | ok e =>
    rw [reprint, he] at h
    obtain rfl : e.toText = printed := Except.ok.inj h
    rw [reprint, (reads_iff_spells.1 he).1.ofText?_toText]
    rfl

theorem spread_map_printed_and_read :
    let e : TypeExpr := .generic "Map" [.atomic "K", .generic "Vec" [.atomic "V"]]
    let text := " Map <K ,\n\tVec<\u3000V>> "
    e.WellNamed ∧ e.toText = "Map<K, Vec<V>>" ∧ ofText? "Map<K, Vec<V>>" = .ok e ∧
      ofText? text = .ok e ∧ tidy text = "Map<K, Vec<V>>" ∧
      reprint text = .ok "Map<K, Vec<V>>" ∧ reprint "Map<K, Vec<V>>" = .ok "Map<K, Vec<V>>" := by
  intro e text
  have htokens : ∃ tokens, Tokens.ofText? text = .ok tokens ∧ ofTokens? tokens = .ok e := by
    refine ⟨.cons (.name "Map") 1 (.cons .less 5 (.cons (.name "K") 6 (.cons .comma 8
      (.cons (.name "Vec") 11 (.cons .less 14 (.cons (.name "V") 18 (.cons .greater 19
        (.cons .greater 20 (.stop 22))))))))), by decide +kernel, ?_⟩
    cbv
  have hread : ofText? text = .ok e := ofText?_eq_ok_iff.2 htokens
  have hprint : e.toText = "Map<K, Vec<V>>" := by decide
  have hre : reprint text = .ok "Map<K, Vec<V>>" := by
    rw [reprint, hread]
    exact congrArg Except.ok hprint
  have he : e.WellNamed := (reads_iff_spells.1 hread).1
  obtain ⟨hback, htidy, hagain⟩ := printing_inverts_reading
  exact ⟨he, hprint, hprint ▸ hback e he, hread, hprint ▸ (htidy text e hread).symm, hre,
    hagain text _ hre⟩

end NodeSchema.TypeExpr
