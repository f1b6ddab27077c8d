import NodeSchema.Proofs.TypeExpr.Tokenizing

namespace NodeSchema.TypeExpr

open Text (isBlank isIdentifier isName isWordChar isWordChar_of_isBlank
  isWordChar_of_mem_isName ne_nil_of_isName)

namespace Piece

/-- Words consist of word characters, and marks belong to no word. -/
def Proper : Piece → Prop
  | .word cs => cs ≠ [] ∧ ∀ c ∈ cs, isWordChar c
  | .mark c => isWordChar c = false

/-- Two words are never neighbours. -/
def Apart : Piece → Piece → Prop
  | .word _, .word _ => False
  | .word _, .mark _ => True
  | .mark _, _ => True

theorem Proper.chars_ne_nil {p : Piece} (h : p.Proper) : p.chars ≠ [] := by
  cases p with
  | word cs => exact h.1
  | mark c => exact List.cons_ne_nil c []

theorem proper_push (c : Char) {ps : List Piece} (h : ∀ p ∈ ps, p.Proper) :
    ∀ p ∈ push c ps, p.Proper := by
  have hfirst {w : List Char} (hc : isWordChar c) (hw : ∀ d ∈ w, isWordChar d) :
      (Piece.word (c :: w)).Proper :=
    ⟨List.cons_ne_nil c w, List.forall_mem_cons.2 ⟨hc, hw⟩⟩
  unfold push
  split
  next hc =>
    split
    next w rest =>
      rw [List.forall_mem_cons] at h ⊢
      exact ⟨hfirst hc h.1.2, h.2⟩
    next =>
      exact List.forall_mem_cons.2 ⟨hfirst hc (List.forall_mem_nil _), h⟩
  next hc =>
    have hmark : (Piece.mark c).Proper := by simpa [Proper] using hc
    exact List.forall_mem_cons.2 ⟨hmark, h⟩

theorem isChain_push (c : Char) {ps : List Piece} (h : ps.IsChain Apart) :
    (push c ps).IsChain Apart := by
  unfold push
  split
  · split
    next w rest =>
      cases rest with
      | nil => exact .singleton _
      | cons p rest =>
        rw [List.isChain_cons_cons] at h ⊢
        cases p with
        | word w' => exact h
        | mark d => exact h
    next hne =>
      cases ps with
      | nil => exact .singleton _
      | cons p ps =>
        cases p with
        | word w => exact absurd rfl (hne w ps)
        | mark d => exact .cons_cons trivial h
  · cases ps with
    | nil => exact .singleton _
    | cons p ps => exact .cons_cons trivial h

theorem not_isWordChar_head {w : List Char} {ps : List Piece} (hp : ∀ p ∈ ps, p.Proper)
    (hc : (.word w :: ps).IsChain Apart) :
    ∀ c ∈ (ps.flatMap chars).head?, isWordChar c = false := by
  intro c h
  cases ps with
  | nil => cases h
  | cons p ps =>
    cases p with
    | word w' => exact (List.isChain_cons_cons.1 hc).1.elim
    | mark d =>
      obtain rfl := Option.some.inj h
      exact hp _ List.mem_cons_self

theorem not_isWordChar_last {w : List Char} {ps qs : List Piece} (hp : ∀ p ∈ ps, p.Proper)
    (hc : (ps ++ .word w :: qs).IsChain Apart) :
    ∀ c ∈ (ps.flatMap chars).getLast?, isWordChar c = false := by
  intro c h
  rcases List.eq_nil_or_concat ps with rfl | ⟨ps, p, rfl⟩
  · cases h
  · cases p with
    | word w' =>
      rw [List.concat_eq_append, List.append_assoc] at hc
      exact (List.isChain_cons_cons.1 hc.right_of_append).1.elim
    | mark d =>
      rw [List.concat_eq_append, List.flatMap_append, List.flatMap_singleton, chars,
        List.getLast?_concat] at h
      obtain rfl := Option.some.inj h
      exact hp (.mark d) (by simp)

/-- The only way to cut a text into words that are not neighbours and marks between them. -/
theorem split_eq_iff {cs : List Char} {ps : List Piece} :
    split cs = ps ↔ ps.flatMap chars = cs ∧ (∀ p ∈ ps, p.Proper) ∧ ps.IsChain Apart := by
  constructor
  · intro h
    subst h
    have hproper : (∀ p ∈ split cs, p.Proper) ∧ (split cs).IsChain Apart := by
      induction cs with
      | nil => exact ⟨List.forall_mem_nil _, .nil⟩
      | cons c cs ih => exact ⟨proper_push c ih.1, isChain_push c ih.2⟩
    exact ⟨flatMap_chars_split cs, hproper⟩
  · intro h
    obtain ⟨rfl, hp, hc⟩ := h
    induction ps with
    | nil => rfl
    | cons p ps ih =>
      rw [List.forall_mem_cons] at hp
      have hrest := ih hp.2 hc.tail
      rw [List.flatMap_cons]
      cases p with
      | word w =>
        rw [chars, split_append_of_isWordChar hp.1.1 hp.1.2 (not_isWordChar_head hp.2 hc), hrest]
      | mark c =>
        rw [chars, List.singleton_append, split_cons_of_not_isWordChar hp.1, hrest]

end Piece

/-- One white space character, or a token. -/
inductive Part where
  | blank (c : Char)
  | token (lexeme : Lexeme)

namespace Part

def chars : Part → List Char
  | blank c => [c]
  | token lexeme => lexeme.text.toList

/-- White space, a bracket, a comma, or an identifier. -/
def Valid : Part → Prop
  | blank c => isBlank c
  | token lexeme => ∀ name, lexeme = .name name → isIdentifier name

/-- A part may stand between two texts if it is no name, or no word character touches it. -/
structure Fits (before after : List Char) (part : Part) : Prop where
  valid : part.Valid
  untouched : ∀ name, part = token (.name name) →
    (∀ c ∈ before.getLast?, isWordChar c = false) ∧ ∀ c ∈ after.head?, isWordChar c = false

/-- A text consists of parts that fit where they stand. -/
structure Compose (parts : List Part) (text : List Char) : Prop where
  chars_eq : parts.flatMap chars = text
  fits : ∀ before part after, parts = before ++ part :: after →
    part.Fits (before.flatMap chars) (after.flatMap chars)

/-- The piece that a part is cut out as. -/
def piece : Part → Piece
  | blank c => .mark c
  | token lexeme => lexeme.piece

theorem chars_piece (part : Part) : part.piece.chars = part.chars := by
  cases part with
  | blank c => rfl
  | token l => exact l.chars_piece

theorem flatMap_chars_piece (parts : List Part) :
    (parts.map piece).flatMap Piece.chars = parts.flatMap chars := by
  rw [List.flatMap_map]
  exact congrArg (parts.flatMap ·) (funext chars_piece)

theorem Valid.proper {part : Part} (h : part.Valid) : part.piece.Proper := by
  cases part with
  | blank c => exact isWordChar_of_isBlank h
  | token l =>
    cases l with
    | name text =>
      have hn : isName text.toList := h text rfl
      exact ⟨ne_nil_of_isName hn, fun c hc => isWordChar_of_mem_isName hn hc⟩
    | less | greater | comma =>
      change isWordChar _ = false
      decide

theorem text_ne_empty {lexeme : Lexeme} (h : (token lexeme).Valid) : lexeme.text ≠ "" := by
  intro he
  have hne := h.proper.chars_ne_nil
  rw [chars_piece, chars, he] at hne
  exact hne rfl

theorem Compose.valid {parts : List Part} {text : List Char} (h : Compose parts text) :
    ∀ part ∈ parts, part.Valid := by
  intro part hm
  obtain ⟨before, after, he⟩ := List.append_of_mem hm
  exact (h.fits before part after he).valid

theorem apart_piece {a b : Part}
    (h : ∀ name other, a = token (.name name) → b ≠ token (.name other)) :
    a.piece.Apart b.piece := by
  cases a with
  | blank c => trivial
  | token l =>
    cases l with
    | less | greater | comma => trivial
    | name text =>
      cases b with
      | blank c => trivial
      | token l =>
        cases l with
        | less | greater | comma => trivial
        | name text' => exact absurd rfl (h text text' rfl)

theorem Compose.split_eq {parts : List Part} {text : List Char} (h : Compose parts text) :
    Piece.split text = parts.map piece := by
  apply Piece.split_eq_iff.2
  refine ⟨(flatMap_chars_piece parts).trans h.chars_eq, ?_, ?_⟩
  · rw [List.forall_mem_map]
    exact fun part hm => (h.valid part hm).proper
  · rw [List.isChain_map, List.isChain_iff_forall_rel_of_append_cons_cons]
    intro a b before after he
    apply apart_piece
    intro name other ha hb
    -- The other name would touch the first one with its first character.
    subst ha hb
    have hn : isName other.toList := h.valid (token (.name other)) (by simp [he]) other rfl
    obtain ⟨c, cs, hcs⟩ := List.exists_cons_of_ne_nil (ne_nil_of_isName hn)
    have hword : isWordChar c := isWordChar_of_mem_isName hn (hcs ▸ List.mem_cons_self)
    have hhead : c ∈ ((token (.name other) :: after).flatMap chars).head? := by
      rw [List.flatMap_cons, chars, Lexeme.text, hcs]
      rfl
    rw [((h.fits _ _ _ he).untouched name rfl).2 c hhead] at hword
    cases hword

theorem compose_of_split {parts : List Part} {text : List Char}
    (hs : Piece.split text = parts.map piece) (hv : ∀ part ∈ parts, part.Valid) :
    Compose parts text := by
  obtain ⟨htext, hp, hc⟩ := Piece.split_eq_iff.1 hs
  constructor
  case chars_eq => rw [← flatMap_chars_piece, htext]
  case fits =>
    intro before part after he
    subst he
    constructor
    case valid => exact hv part (by simp)
    case untouched =>
      intro name he
      subst he
      rw [List.map_append, List.map_cons] at hp hc
      rw [List.forall_mem_append, List.forall_mem_cons] at hp
      have hbefore := Piece.not_isWordChar_last hp.1 hc
      have hafter := Piece.not_isWordChar_head hp.2.2 hc.right_of_append
      rw [flatMap_chars_piece] at hbefore hafter
      exact ⟨hbefore, hafter⟩

end Part

end NodeSchema.TypeExpr
