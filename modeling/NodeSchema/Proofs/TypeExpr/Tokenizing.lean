import NodeSchema.Proofs.Text.Characters
import NodeSchema.Proofs.TypeExpr.LexemeOrder

namespace NodeSchema.TypeExpr

open Text (byteSize byteSize_append isBlank isIdentifier isName isWordChar isWordChar_of_isBlank
  isWordChar_of_mem_isName ne_nil_of_isName)

namespace Piece

theorem split_cons_of_not_isWordChar {c : Char} (h : isWordChar c = false) (cs : List Char) :
    split (c :: cs) = .mark c :: split cs := by
  simp only [split, push, h, Bool.false_eq_true, if_false]

theorem split_append_of_isWordChar {w cs : List Char} (hne : w ≠ [])
    (hw : ∀ c ∈ w, isWordChar c) (hcs : ∀ c ∈ cs.head?, isWordChar c = false) :
    split (w ++ cs) = .word w :: split cs := by
  induction w with
  | nil => exact absurd rfl hne
  | cons c w ih =>
    have hc := hw c List.mem_cons_self
    by_cases he : w = []
    · subst he
      cases cs with
      | nil => simp only [List.cons_append, List.nil_append, split, push, hc, if_true]
      | cons d cs =>
        have hd := split_cons_of_not_isWordChar (hcs d rfl) cs
        simp only [List.cons_append, List.nil_append, split.eq_2 c, hd, push, hc, if_true]
    · have hrest := ih he fun d hd => hw d (List.mem_cons_of_mem _ hd)
      simp only [List.cons_append, split, hrest, push, hc, if_true]

end Piece

theorem Piece.role_mark_of_isBlank {c : Char} (h : isBlank c) : (Piece.mark c).role = .blank := by
  have hne (d : Char) (hd : isBlank d = false) : c ≠ d := by
    intro he
    subst he
    rw [h] at hd
    cases hd
  rw [role, if_neg (hne _ (by decide)), if_neg (hne _ (by decide)), if_neg (hne _ (by decide)),
    if_pos h]

theorem ofPieces_split_blanks {blanks : List Char} (hb : blanks.all isBlank) (cs : List Char)
    (offset : Nat) :
    Tokens.ofPieces offset (Piece.split (blanks ++ cs)) =
      Tokens.ofPieces (offset + byteSize blanks) (Piece.split cs) := by
  induction blanks generalizing offset with
  | nil => rfl
  | cons c blanks ih =>
    rw [List.all_cons, Bool.and_eq_true] at hb
    rw [List.cons_append, Piece.split_cons_of_not_isWordChar (isWordChar_of_isBlank hb.1),
      Tokens.ofPieces, Piece.role_mark_of_isBlank hb.1]
    have hsize : offset + byteSize (c :: blanks) =
        offset + byteSize (Piece.mark c).chars + byteSize blanks := by
      rw [← List.singleton_append, byteSize_append, Nat.add_assoc, Piece.chars]
    rw [hsize]
    exact ih hb.2 _

/-- The piece that a lexeme is cut out as. -/
def Lexeme.piece : Lexeme → Piece
  | .name text => .word text.toList
  | .less => .mark '<'
  | .greater => .mark '>'
  | .comma => .mark ','

theorem Lexeme.chars_piece (l : Lexeme) : l.piece.chars = l.text.toList := by
  cases l <;> rfl

theorem Lexeme.role_piece {l : Lexeme} (h : ∀ name, l = .name name → isIdentifier name) :
    l.piece.role = .token l := by
  cases l with
  | name text =>
    have hn : isName text.toList := h text rfl
    rw [piece, Piece.role, if_pos hn, String.ofList_toList]
  | less | greater | comma => rfl

/-- After a lexeme the text goes on with something that is no part of a word, unless that lexeme is
followed by a name. -/
theorem Spells.not_isWordChar_head {ls : List Lexeme} {cs : List Char} (h : Spells ls cs)
    (hl : ∀ name ∈ ls.head?, ∀ text, name ≠ .name text) :
    ∀ c ∈ cs.head?, isWordChar c = false := by
  have hblank {blanks : List Char} (hb : blanks.all isBlank) (c : Char) (hc : c ∈ blanks) :
      isWordChar c = false := isWordChar_of_isBlank (List.all_eq_true.1 hb c hc)
  intro c hc
  cases h with
  | nil hb => exact hblank hb c (List.mem_of_mem_head? hc)
  | @cons blanks cs l ls hb h =>
    cases blanks with
    | nil =>
      cases l with
      | name text => exact absurd rfl (hl _ rfl text)
      | less | greater | comma =>
        obtain rfl := Option.some.inj hc
        decide
    | cons d blanks =>
      obtain rfl := Option.some.inj hc
      exact hblank hb _ List.mem_cons_self

theorem split_lexeme_append {l : Lexeme} {ls : List Lexeme} {cs : List Char} (h : Spells ls cs)
    (hi : ∀ name, l = .name name → isIdentifier name) (hc : (l :: ls).IsChain Lexeme.Next) :
    Piece.split (l.text.toList ++ cs) = l.piece :: Piece.split cs := by
  cases l with
  | name text =>
    have hn : isName text.toList := hi text rfl
    have hword : ∀ c ∈ text.toList, isWordChar c := fun c hm => isWordChar_of_mem_isName hn hm
    apply Piece.split_append_of_isWordChar (ne_nil_of_isName hn) hword
    apply h.not_isWordChar_head
    intro l' hl' text' he
    subst he
    obtain ⟨ls', rfl⟩ : ∃ ls', ls = .name text' :: ls' := by
      cases ls with
      | nil => cases hl'
      | cons l ls =>
        obtain rfl := Option.some.inj hl'
        exact ⟨ls, rfl⟩
    exact (List.isChain_cons_cons.1 hc).1
  | less | greater | comma => exact Piece.split_cons_of_not_isWordChar (by decide) cs

/-- A text that spells lexemes in a possible order has just these for its tokens. -/
theorem Spells.exists_ofPieces {ls : List Lexeme} {cs : List Char} (h : Spells ls cs)
    (hi : ∀ name, .name name ∈ ls → isIdentifier name) (hc : ls.IsChain Lexeme.Next)
    (offset : Nat) :
    ∃ tokens, Tokens.ofPieces offset (Piece.split cs) = .ok tokens ∧ tokens.lexemes = ls := by
  induction h generalizing offset with
  | @nil blanks hb =>
    have h := ofPieces_split_blanks hb [] offset
    rw [List.append_nil] at h
    exact ⟨.stop (offset + byteSize blanks), h, rfl⟩
  | @cons blanks cs l ls hb h ih =>
    have hil (name : String) (he : l = .name name) : isIdentifier name :=
      hi name (he ▸ List.mem_cons_self)
    obtain ⟨tokens, ht, hls⟩ := ih (fun name hm => hi name (List.mem_cons_of_mem _ hm))
      hc.tail (offset + byteSize blanks + byteSize l.text.toList)
    have htokens : Tokens.ofPieces offset (Piece.split (blanks ++ l.text.toList ++ cs)) =
        .ok (.cons l (offset + byteSize blanks) tokens) := by
      rw [List.append_assoc, ofPieces_split_blanks hb, split_lexeme_append h hil hc,
        Tokens.ofPieces, Lexeme.role_piece hil, Lexeme.chars_piece]
      simp only [ht]
      rfl
    have hlexemes : (Tokens.cons l (offset + byteSize blanks) tokens).lexemes = l :: ls := by
      rw [Tokens.lexemes, hls]
    exact ⟨_, htokens, hlexemes⟩

theorem Piece.eq_piece_of_role {p : Piece} {l : Lexeme} (h : p.role = .token l) :
    p = l.piece ∧ ∀ name, l = .name name → isIdentifier name := by
  cases p with
  | word cs =>
    by_cases hn : isName cs
    · rw [role, if_pos hn] at h
      cases h
      have hcs : cs = (String.ofList cs).toList := String.toList_ofList.symm
      have hi : isIdentifier (String.ofList cs) := by
        rw [isIdentifier, ← hcs]
        exact hn
      exact ⟨congrArg Piece.word hcs, fun name he => Lexeme.name.inj he ▸ hi⟩
    · rw [role, if_neg hn] at h
      cases h
  | mark c =>
    simp only [role] at h
    split at h
    · next hc => cases h; exact ⟨by rw [hc]; rfl, nofun⟩
    split at h
    · next hc => cases h; exact ⟨by rw [hc]; rfl, nofun⟩
    split at h
    · next hc => cases h; exact ⟨by rw [hc]; rfl, nofun⟩
    split at h <;> cases h

theorem Piece.exists_mark_of_role {p : Piece} (h : p.role = .blank) :
    ∃ c, p = .mark c ∧ isBlank c := by
  cases p with
  | word cs =>
    rw [role] at h
    split at h <;> cases h
  | mark c =>
    by_cases hc : isBlank c
    · exact ⟨c, rfl, hc⟩
    · simp only [role, if_neg hc] at h
      split at h
      · cases h
      split at h
      · cases h
      split at h <;> cases h

theorem spells_of_ofPieces {ps : List Piece} {offset : Nat} {tokens : Tokens}
    (h : Tokens.ofPieces offset ps = .ok tokens) :
    Spells tokens.lexemes (ps.flatMap Piece.chars) ∧
      ∀ name, .name name ∈ tokens.lexemes → isIdentifier name := by
  induction ps generalizing offset tokens with
  | nil =>
    cases h
    exact ⟨.nil rfl, fun name hm => nomatch hm⟩
  | cons p ps ih =>
    rw [Tokens.ofPieces] at h
    rw [List.flatMap_cons]
    cases hr : p.role with
    | token l =>
      obtain ⟨rfl, hi⟩ := Piece.eq_piece_of_role hr
      simp only [hr] at h
      cases hrest : Tokens.ofPieces (offset + byteSize l.piece.chars) ps with
      | error fault => rw [hrest] at h; cases h
      | ok rest =>
        rw [hrest] at h
        cases h
        obtain ⟨hs, hn⟩ := ih hrest
        rw [Lexeme.chars_piece]
        have hall (name : String) (hm : .name name ∈ l :: rest.lexemes) : isIdentifier name := by
          rcases List.mem_cons.1 hm with he | hm
          · exact hi name he.symm
          · exact hn name hm
        exact ⟨hs.lexeme l, hall⟩
    | blank =>
      obtain ⟨c, rfl, hc⟩ := Piece.exists_mark_of_role hr
      simp only [hr] at h
      obtain ⟨hs, hn⟩ := ih h
      exact ⟨hs.blank hc, hn⟩
    | stray =>
      simp only [hr] at h
      cases h

end NodeSchema.TypeExpr
