import NodeSchema.Proofs.TypeExpr.Spelling

namespace NodeSchema.TypeExpr

open Text (isIdentifier)

namespace Tokens

theorem eq_cons_of_lexemes {tokens : Tokens} {l : Lexeme} {ls : List Lexeme}
    (h : tokens.lexemes = l :: ls) :
    ∃ offset rest, tokens = .cons l offset rest ∧ rest.lexemes = ls := by
  cases tokens with
  | stop offset => cases h
  | cons l' offset rest =>
    obtain ⟨rfl, hr⟩ := List.cons.inj h
    exact ⟨offset, rest, rfl, hr⟩

theorem eq_stop_of_lexemes {tokens : Tokens} (h : tokens.lexemes = []) :
    ∃ offset, tokens = .stop offset := by
  cases tokens with
  | stop offset => exact ⟨offset, rfl⟩
  | cons l offset rest => cases h

/-- All names among the tokens are identifiers. -/
def Named (tokens : Tokens) : Prop := ∀ name, .name name ∈ tokens.lexemes → isIdentifier name

theorem Named.of_append {tokens rest : Tokens} (ls : List Lexeme) (h : tokens.Named)
    (hl : tokens.lexemes = ls ++ rest.lexemes) : rest.Named := by
  intro name hm
  apply h name
  rw [hl]
  exact List.mem_append_right _ hm

end Tokens

theorem readExpr_name {name : String} {offset : Nat} {rest : Tokens}
    (h : rest.lexemes.head? ≠ some .less) :
    readExpr (.cons (.name name) offset rest) =
      .ok (.atomic name, ⟨rest, Nat.lt_succ_self rest.length⟩) := by
  rw [readExpr]
  · rfl
  · intro offset' inner he
    subst he
    exact h rfl

mutual

/-- What has been taken spells the expression. -/
theorem lexemes_of_readExpr (tokens : Tokens) {e : TypeExpr} {rest : tokens.Rest}
    (h : readExpr tokens = .ok (e, rest)) (hn : tokens.Named) :
    tokens.lexemes = e.lexemes ++ rest.1.lexemes ∧ e.WellNamed := by
  rw [readExpr.eq_def] at h
  split at h
  · next container offset offset' inner =>
    cases hf : readExpr inner with
    | error fault => rw [hf] at h; cases h
    | ok first =>
      obtain ⟨first, afterFirst, hlt⟩ := first
      rw [hf] at h
      cases ho : readArgs afterFirst with
      | error fault => simp only [bind, Except.bind, ho] at h; cases h
      | ok others =>
        obtain ⟨others, rest', hlt'⟩ := others
        simp only [bind, Except.bind, ho] at h
        cases h
        have hn' : inner.Named := hn.of_append [.name container, .less] rfl
        obtain ⟨hl, hw⟩ := lexemes_of_readExpr inner hf hn'
        obtain ⟨hl', hw'⟩ := lexemes_of_readArgs afterFirst ho (hn'.of_append _ hl)
        constructor
        · rw [lexemes_generic, Tokens.lexemes, Tokens.lexemes, hl, hl']
          simp
        · apply WellNamed.generic (hn _ List.mem_cons_self) (List.cons_ne_nil _ _)
          intro arg hm
          rcases List.mem_cons.1 hm with rfl | hm
          · exact hw
          · exact hw' arg hm
  · next name offset rest' _ =>
    cases h
    exact ⟨rfl, .atomic (hn _ List.mem_cons_self)⟩
  · cases h
termination_by tokens.length
decreasing_by all_goals subst_vars; simp only [Tokens.length]; omega

theorem lexemes_of_readArgs (tokens : Tokens) {args : List TypeExpr} {rest : tokens.Rest}
    (h : readArgs tokens = .ok (args, rest)) (hn : tokens.Named) :
    tokens.lexemes = moreLexemes args ++ .greater :: rest.1.lexemes ∧
      ∀ arg ∈ args, arg.WellNamed := by
  rw [readArgs.eq_def] at h
  split at h
  · next offset inner =>
    cases ha : readExpr inner with
    | error fault => rw [ha] at h; cases h
    | ok arg =>
      obtain ⟨arg, afterArg, hlt⟩ := arg
      rw [ha] at h
      cases ho : readArgs afterArg with
      | error fault => simp only [bind, Except.bind, ho] at h; cases h
      | ok others =>
        obtain ⟨others, rest', hlt'⟩ := others
        simp only [bind, Except.bind, ho] at h
        cases h
        have hn' : inner.Named := hn.of_append [.comma] rfl
        obtain ⟨hl, hw⟩ := lexemes_of_readExpr inner ha hn'
        obtain ⟨hl', hw'⟩ := lexemes_of_readArgs afterArg ho (hn'.of_append _ hl)
        constructor
        · rw [Tokens.lexemes, hl, hl', moreLexemes_cons]
          simp
        · intro e hm
          rcases List.mem_cons.1 hm with rfl | hm
          · exact hw
          · exact hw' e hm
  · next offset rest' =>
    cases h
    exact ⟨rfl, fun arg hm => nomatch hm⟩
  · cases h
termination_by tokens.length
decreasing_by all_goals subst_vars; simp only [Tokens.length]; omega

end

theorem head?_moreLexemes_append_ne (args : List TypeExpr) (ls : List Lexeme) :
    (moreLexemes args ++ Lexeme.greater :: ls).head? ≠ some .less := by
  cases args with
  | nil =>
    intro h
    cases h
  | cons arg args =>
    intro h
    cases h

theorem exists_readArgs {args : List TypeExpr}
    (ha : ∀ arg ∈ args, ∀ (tokens : Tokens) (ls : List Lexeme),
      tokens.lexemes = arg.lexemes ++ ls → ls.head? ≠ some .less →
        ∃ rest, readExpr tokens = .ok (arg, rest) ∧ rest.1.lexemes = ls)
    {tokens : Tokens} {ls : List Lexeme}
    (h : tokens.lexemes = moreLexemes args ++ .greater :: ls) :
    ∃ rest, readArgs tokens = .ok (args, rest) ∧ rest.1.lexemes = ls := by
  induction args generalizing tokens with
  | nil =>
    obtain ⟨offset, rest, rfl, hr⟩ := Tokens.eq_cons_of_lexemes h
    have hread : readArgs (.cons .greater offset rest) =
        .ok ([], ⟨rest, Nat.lt_succ_self rest.length⟩) := by
      rw [readArgs]
      rfl
    exact ⟨_, hread, hr⟩
  | cons arg args ih =>
    rw [moreLexemes_cons, List.cons_append, List.append_assoc] at h
    obtain ⟨offset, inner, rfl, hi⟩ := Tokens.eq_cons_of_lexemes h
    obtain ⟨⟨afterArg, hlt⟩, hr, hl⟩ :=
      ha arg List.mem_cons_self inner _ hi (head?_moreLexemes_append_ne args ls)
    obtain ⟨⟨rest, hlt'⟩, hr', hl'⟩ := ih (fun e hm => ha e (List.mem_cons_of_mem _ hm)) hl
    have hshort : rest.length < (Tokens.cons .comma offset inner).length :=
      Nat.lt_succ_of_lt (Nat.lt_trans hlt' hlt)
    have hread : readArgs (.cons .comma offset inner) = .ok (arg :: args, ⟨rest, hshort⟩) := by
      rw [readArgs, hr]
      simp only [bind, Except.bind, hr']
      rfl
    exact ⟨_, hread, hl'⟩

/-- An expression at the front of the tokens is taken, unless a bracket follows that would open
arguments of its last name. -/
theorem WellNamed.exists_readExpr {e : TypeExpr} (he : e.WellNamed) (tokens : Tokens)
    (ls : List Lexeme) (h : tokens.lexemes = e.lexemes ++ ls) (hls : ls.head? ≠ some .less) :
    ∃ rest, readExpr tokens = .ok (e, rest) ∧ rest.1.lexemes = ls := by
  induction he generalizing tokens ls with
  | @atomic name hn =>
    obtain ⟨offset, rest, rfl, hr⟩ := Tokens.eq_cons_of_lexemes h
    exact ⟨⟨rest, by simp [Tokens.length]⟩, readExpr_name (hr ▸ hls), hr⟩
  | @generic container args hn hne ha ih =>
    obtain ⟨first, others, rfl⟩ := List.exists_cons_of_ne_nil hne
    rw [lexemes_generic, List.cons_append, List.cons_append, List.append_assoc,
      List.append_assoc] at h
    obtain ⟨offset, opened, rfl, ho⟩ := Tokens.eq_cons_of_lexemes h
    obtain ⟨offset', inner, rfl, hi⟩ := Tokens.eq_cons_of_lexemes ho
    obtain ⟨⟨afterFirst, hlt⟩, hr, hl⟩ := ih first List.mem_cons_self inner _ hi
      (head?_moreLexemes_append_ne others ls)
    obtain ⟨⟨rest, hlt'⟩, hr', hl'⟩ :=
      exists_readArgs (fun arg hm => ih arg (List.mem_cons_of_mem _ hm)) hl
    have hshort : rest.length <
        (Tokens.cons (.name container) offset (.cons .less offset' inner)).length :=
      Nat.lt_succ_of_lt (Nat.lt_succ_of_lt (Nat.lt_trans hlt' hlt))
    have hread : readExpr (.cons (.name container) offset (.cons .less offset' inner)) =
        .ok (.generic container (first :: others), ⟨rest, hshort⟩) := by
      rw [readExpr, hr]
      simp only [bind, Except.bind, hr']
      rfl
    exact ⟨_, hread, hl'⟩

theorem ofTokens?_eq_ok_iff {tokens : Tokens} (hn : tokens.Named) {e : TypeExpr} :
    ofTokens? tokens = .ok e ↔ e.WellNamed ∧ tokens.lexemes = e.lexemes := by
  constructor
  · intro h
    cases hr : readExpr tokens with
    | error fault => rw [ofTokens?, hr] at h; cases h
    | ok r =>
      obtain ⟨e', rest, hlt⟩ := r
      obtain ⟨hl, hw⟩ := lexemes_of_readExpr tokens hr hn
      rw [ofTokens?, hr] at h
      cases rest with
      | stop offset =>
        cases h
        exact ⟨hw, hl.trans (List.append_nil _)⟩
      | cons l offset rest => cases h
  · intro h
    obtain ⟨he, hl⟩ := h
    rw [← List.append_nil e.lexemes] at hl
    obtain ⟨⟨rest, hlt⟩, hr, hrest⟩ := he.exists_readExpr tokens [] hl nofun
    obtain ⟨offset, rfl⟩ := Tokens.eq_stop_of_lexemes hrest
    rw [ofTokens?, hr]
    rfl

end NodeSchema.TypeExpr
