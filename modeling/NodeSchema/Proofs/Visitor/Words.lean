import NodeSchema.Code.Basic
import NodeSchema.Proofs.TypeExpr.Tokenizing
import NodeSchema.Proofs.Visitor.Reader
import NodeSchema.Text.LetterCase

namespace NodeSchema

namespace TypeExpr.Piece

open Text (isWordChar)

theorem push_ne_nil (c : Char) (ps : List Piece) : push c ps ≠ [] := by
  unfold push
  split
  · split
    · nofun
    · nofun
  · nofun

theorem push_append {c : Char} {ps qs : List Piece} (h : ps ≠ []) :
    push c (ps ++ qs) = push c ps ++ qs := by
  unfold push
  split
  · cases ps with
    | nil => exact absurd rfl h
    | cons p ps =>
      cases p with
      | word w => rfl
      | mark d => rfl
  · rfl

theorem split_singleton (c : Char) (b : List Char)
    (h : isWordChar c = false ∨ ∀ d ∈ b.head?, isWordChar d = false) :
    split ([c] ++ b) = split [c] ++ split b := by
  by_cases hc : isWordChar c
  · have hb : ∀ d ∈ b.head?, isWordChar d = false := h.resolve_left (by simp [hc])
    have hw : ∀ d ∈ [c], isWordChar d := by simpa using hc
    have hsplit : split [c] = [.word [c]] := by simp [split, push, hc]
    rw [split_append_of_isWordChar (List.cons_ne_nil c []) hw hb, hsplit]
    rfl
  · rw [Bool.not_eq_true] at hc
    rw [List.singleton_append, split_cons_of_not_isWordChar hc, split_cons_of_not_isWordChar hc]
    rfl

/-- A text can be cut before or behind a character of no word. -/
theorem split_append {a b : List Char}
    (h : (∀ c ∈ a.getLast?, isWordChar c = false) ∨ ∀ c ∈ b.head?, isWordChar c = false) :
    split (a ++ b) = split a ++ split b := by
  induction a with
  | nil => rfl
  | cons c a ih =>
    by_cases ha : a = []
    · subst ha
      exact split_singleton c b (h.imp_left fun h => h c rfl)
    · rw [List.getLast?_cons_of_ne_nil ha] at h
      have hne : split a ≠ [] := by
        obtain ⟨d, a, rfl⟩ := List.exists_cons_of_ne_nil ha
        exact push_ne_nil d (split a)
      rw [List.cons_append, split, ih h, push_append hne, split]

end TypeExpr.Piece

namespace Text

/-- A text that is one word. -/
def IsWord (s : String) : Prop := s.toList ≠ [] ∧ s.toList.all isWordChar

instance (s : String) : Decidable (IsWord s) := inferInstanceAs (Decidable (_ ∧ _))

theorem isWord_of_isIdentifier {s : String} (h : isIdentifier s) : IsWord s :=
  ⟨ne_nil_of_isName h, List.all_eq_true.2 fun _ => isWordChar_of_mem_isName h⟩

theorem IsWord.append {s t : String} (hs : IsWord s) (ht : t.toList.all isWordChar) :
    IsWord (s ++ t) := by
  constructor
  · simp [hs.1]
  · rw [String.toList_append, List.all_append, hs.2, ht]
    rfl

theorem isWord_escapeKeyword {s : String} (h : isIdentifier s) : IsWord (escapeKeyword s) := by
  rw [escapeKeyword]
  split
  · exact (isWord_of_isIdentifier h).append (by decide)
  · exact isWord_of_isIdentifier h

theorem isAsciiWordChar_of_mem_lowerCase {c d : Char} (h : isAsciiWordChar c)
    (hd : d ∈ lowerCase c) : isAsciiWordChar d := by
  have hlower : isAsciiWordChar c → isAsciiWordChar c.toLower :=
    forall_isAsciiWordChar (p := fun c => isAsciiWordChar c → isAsciiWordChar c.toLower)
      (by decide) h
  rw [lowerCase, if_pos (toNat_lt_of_isAsciiWordChar h), List.mem_singleton] at hd
  exact hd ▸ hlower h

theorem isAsciiWordChar_of_mem_snakeFrom {before : Option Char} {cs : List Char}
    (h : ∀ c ∈ cs, isAsciiWordChar c) : ∀ d ∈ snakeFrom before cs, isAsciiWordChar d := by
  induction cs generalizing before with
  | nil => exact List.forall_mem_nil _
  | cons c cs ih =>
    rw [List.forall_mem_cons] at h
    rw [snakeFrom]
    split
    · simp only [List.mem_append]
      intro d hd
      rcases hd with (hd | hd) | hd
      · split at hd
        · rw [List.mem_singleton.1 hd]
          decide
        · cases hd
      · exact isAsciiWordChar_of_mem_lowerCase h.1 hd
      · exact ih h.2 d hd
    · exact List.forall_mem_cons.2 ⟨h.1, ih h.2⟩

theorem all_isAsciiWordChar_snakeCase {s : String} (h : isIdentifier s) :
    (snakeCase s).toList.all isAsciiWordChar := by
  apply List.all_eq_true.2
  intro c hc
  rw [toList_snakeCase] at hc
  have hall := List.all_eq_true.1 (all_isAsciiWordChar_of_isName h)
  exact isAsciiWordChar_of_mem_snakeFrom hall c hc

theorem all_isWordChar_snakeCase {s : String} (h : isIdentifier s) :
    (snakeCase s).toList.all isWordChar := by
  have hall := List.all_eq_true.1 (all_isAsciiWordChar_snakeCase h)
  exact List.all_eq_true.2 fun c hc => isWordChar_of_isAsciiWordChar (hall c hc)

theorem IsWord.append_snakeCase {start s : String} (hs : IsWord start) (h : isIdentifier s) :
    IsWord (start ++ snakeCase s) :=
  hs.append (all_isWordChar_snakeCase h)

theorem isWordChar_of_isDigit {c : Char} (h : c.isDigit) : isWordChar c := by
  apply isWordChar_of_isAsciiWordChar
  simp only [Char.isDigit, ge_iff_le, Bool.and_eq_true, decide_eq_true_eq] at h
  simp only [isAsciiWordChar, Bool.or_eq_true, Bool.and_eq_true, decide_eq_true_eq]
  exact .inl (.inr h)

theorem isWord_index (i : Nat) : IsWord ("f" ++ toString i) := by
  apply IsWord.append (by decide)
  apply List.all_eq_true.2
  intro c hc
  apply isWordChar_of_isDigit
  rw [Nat.toString_eq_repr, Nat.toList_repr] at hc
  exact Nat.isDigit_of_mem_toDigits (by decide) (by decide) hc

theorem index_injective {i j : Nat} (h : "f" ++ toString i = "f" ++ toString j) : i = j := by
  rw [← String.toList_inj, String.toList_append, String.toList_append, Nat.toString_eq_repr,
    Nat.toString_eq_repr, Nat.toList_repr, Nat.toList_repr, List.append_cancel_left_eq] at h
  rw [← Nat.ofDigitChars_ten_toDigits (n := i), h, Nat.ofDigitChars_ten_toDigits]

end Text

namespace Program

open Text (isWordChar IsWord)

theorem tokens_empty : tokens "" = [] := rfl

theorem tokens_append {a b : String}
    (h : (∀ c ∈ a.toList.getLast?, isWordChar c = false) ∨
      ∀ c ∈ b.toList.head?, isWordChar c = false) : tokens (a ++ b) = tokens a ++ tokens b := by
  rw [tokens, String.toList_append, TypeExpr.Piece.split_append h, List.filterMap_append]
  rfl

theorem tokens_of_isWord {s : String} (h : IsWord s) : tokens s = [.word s] := by
  have hend : ∀ c ∈ ([] : List Char).head?, isWordChar c = false := by
    intro c hc
    cases hc
  rw [tokens, ← List.append_nil s.toList,
    TypeExpr.Piece.split_append_of_isWordChar h.1 (List.all_eq_true.1 h.2) hend]
  simp [TypeExpr.Piece.split, Token.ofPiece?]

/-- A mark at the edge of a text is no part of a word. -/
def IsMark (c : Option Char) : Bool := c.any fun c => !isWordChar c

theorem tokens_append_mark {a b : String} (h : IsMark b.toList.head?) :
    tokens (a ++ b) = tokens a ++ tokens b := by
  apply tokens_append
  right
  intro c hc
  rw [Option.mem_def.1 hc] at h
  simpa [IsMark] using h

theorem tokens_mark_append {a b : String} (h : IsMark a.toList.getLast?) :
    tokens (a ++ b) = tokens a ++ tokens b := by
  apply tokens_append
  left
  intro c hc
  rw [Option.mem_def.1 hc] at h
  simpa [IsMark] using h

theorem tokens_between {a m b : String} (hf : IsMark m.toList.head?)
    (hl : IsMark m.toList.getLast?) : tokens (a ++ m ++ b) = tokens a ++ tokens m ++ tokens b := by
  rw [tokens_mark_append, tokens_append_mark hf]
  obtain ⟨c, hc⟩ : ∃ c, m.toList.getLast? = some c := by
    cases h : m.toList.getLast? with
    | none => rw [h] at hl; cases hl
    | some c => exact ⟨c, rfl⟩
  rw [String.toList_append, List.getLast?_append, hc, Option.some_or, ← hc]
  exact hl

theorem tokens_blanks (n : Nat) (s : String) :
    tokens (String.ofList (List.replicate n ' ') ++ s) = tokens s := by
  induction n with
  | zero => simp
  | succ n ih =>
    rw [List.replicate_succ, ← List.singleton_append, String.ofList_append, String.append_assoc,
      tokens_mark_append (by decide), ih]
    rfl

theorem tokens_indent (level : Nat) (line : String) :
    tokens (Code.indent level line) = tokens line :=
  tokens_blanks (4 * level) line

theorem tokens_literal {s : String} (literal m word : String) (hl : literal = m ++ word)
    (hm : IsMark m.toList.getLast?) (hw : IsWord (word ++ s)) :
    tokens (literal ++ s) = tokens m ++ [.word (word ++ s)] := by
  rw [hl, String.append_assoc, tokens_mark_append hm, tokens_of_isWord hw]

theorem tokens_text (lines : List String) : tokens (Code.text lines) = lines.flatMap tokens := by
  induction lines with
  | nil => rfl
  | cons line lines ih =>
    have hl : tokens (line ++ "\n") = tokens line := by
      rw [tokens_append_mark (by decide)]
      exact List.append_nil _
    have he : Code.text [line] = line ++ "\n" := by simp [Code.text]
    have hm : IsMark (line ++ "\n").toList.getLast? := by
      rw [String.toList_append, List.getLast?_append]
      rfl
    rw [← List.singleton_append, Code.text_append, he, tokens_mark_append hm, hl, ih,
      List.flatMap_append, List.flatMap_singleton]

theorem tokens_text_append (a b : List String) :
    tokens (Code.text (a ++ b)) = tokens (Code.text a) ++ tokens (Code.text b) := by
  rw [tokens_text, List.flatMap_append, tokens_text, tokens_text]

theorem tokens_text_singleton (line : String) : tokens (Code.text [line]) = tokens line := by
  rw [tokens_text, List.flatMap_singleton]

theorem tokens_text_indent (level : Nat) (line : String) :
    tokens (Code.text [Code.indent level line]) = tokens line := by
  rw [tokens_text_singleton, tokens_indent]

theorem tokens_text_blank (lines : List String) :
    tokens (Code.text ("" :: lines)) = tokens (Code.text lines) := by
  rw [tokens_text, List.flatMap_cons, tokens_empty, List.nil_append, ← tokens_text]

theorem tokens_text_flatMap {α : Type} (lines : α → List String) (xs : List α) :
    tokens (Code.text (xs.flatMap lines)) = xs.flatMap fun x => tokens (Code.text (lines x)) := by
  induction xs with
  | nil => rfl
  | cons x xs ih => rw [List.flatMap_cons, tokens_text_append, ih, List.flatMap_cons]

end Program

end NodeSchema
