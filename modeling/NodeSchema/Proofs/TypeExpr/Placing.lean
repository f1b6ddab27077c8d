import NodeSchema.Fault
import NodeSchema.Proofs.TypeExpr.Cutting

namespace NodeSchema.TypeExpr

open Text (byteSize byteSize_append byteSize_toList isBlank quote utf8ByteSize_ofList_singleton)

namespace Tokens

/-- The tokens among the parts of a text that starts at an offset. -/
def ofParts (offset : Nat) : List Part → Tokens
  | [] => .stop offset
  | .blank c :: parts => ofParts (offset + c.utf8Size) parts
  | .token lexeme :: parts =>
    .cons lexeme offset (ofParts (offset + lexeme.text.utf8ByteSize) parts)

theorem ofPieces_blank {c : Char} (hc : isBlank c) (offset : Nat) (ps : List Piece) :
    ofPieces offset (.mark c :: ps) = ofPieces (offset + c.utf8Size) ps := by
  rw [ofPieces, Piece.role_mark_of_isBlank hc]
  rfl

theorem ofPieces_token {l : Lexeme} (hl : ∀ name, l = .name name → Text.isIdentifier name)
    (offset : Nat) (ps : List Piece) :
    ofPieces offset (l.piece :: ps) =
      (ofPieces (offset + l.text.utf8ByteSize) ps).map (.cons l offset) := by
  rw [ofPieces, Lexeme.role_piece hl, Lexeme.chars_piece, byteSize_toList]
  cases ofPieces (offset + l.text.utf8ByteSize) ps with
  | error stray => rfl
  | ok tokens => rfl

theorem ofPieces_map_piece {parts : List Part} (hv : ∀ part ∈ parts, part.Valid) (offset : Nat) :
    ofPieces offset (parts.map Part.piece) = .ok (ofParts offset parts) := by
  induction parts generalizing offset with
  | nil => rfl
  | cons part parts ih =>
    rw [List.forall_mem_cons] at hv
    rw [List.map_cons]
    cases part with
    | blank c => exact (ofPieces_blank hv.1 offset _).trans (ih hv.2 _)
    | token l =>
      rw [Part.piece, ofPieces_token hv.1, ih hv.2]
      rfl

theorem exists_parts {ps : List Piece} {offset : Nat} {tokens : Tokens}
    (h : ofPieces offset ps = .ok tokens) :
    ∃ parts : List Part, ps = parts.map Part.piece ∧ ∀ part ∈ parts, part.Valid := by
  induction ps generalizing offset tokens with
  | nil => exact ⟨[], rfl, List.forall_mem_nil _⟩
  | cons p ps ih =>
    cases hr : p.role with
    | token l =>
      obtain ⟨rfl, hl⟩ := Piece.eq_piece_of_role hr
      rw [ofPieces_token hl] at h
      cases hrest : ofPieces (offset + l.text.utf8ByteSize) ps with
      | error stray => rw [hrest] at h; cases h
      | ok rest =>
        obtain ⟨parts, rfl, hv⟩ := ih hrest
        exact ⟨.token l :: parts, rfl, List.forall_mem_cons.2 ⟨hl, hv⟩⟩
    | blank =>
      obtain ⟨c, rfl, hc⟩ := Piece.exists_mark_of_role hr
      rw [ofPieces_blank hc] at h
      obtain ⟨parts, rfl, hv⟩ := ih h
      exact ⟨.blank c :: parts, rfl, List.forall_mem_cons.2 ⟨hc, hv⟩⟩
    | stray =>
      rw [ofPieces, hr] at h
      cases h

theorem exists_stray {ps : List Piece} {offset : Nat} {stray : Stray}
    (h : ofPieces offset ps = .error stray) :
    ∃ before strays after, ps = before ++ strays ++ after ∧ strays ≠ [] ∧
      stray = ⟨String.ofList (strays.flatMap Piece.chars),
        offset + byteSize (before.flatMap Piece.chars)⟩ ∧
      ∃ tokens, ofPieces offset before = .ok tokens := by
  induction ps generalizing offset with
  | nil => cases h
  | cons p ps ih =>
    cases hr : p.role with
    | token l =>
      obtain ⟨rfl, hl⟩ := Piece.eq_piece_of_role hr
      rw [ofPieces_token hl] at h
      cases hrest : ofPieces (offset + l.text.utf8ByteSize) ps with
      | ok rest => rw [hrest] at h; cases h
      | error stray' =>
        obtain rfl : stray' = stray := by
          rw [hrest] at h
          exact Except.error.inj h
        obtain ⟨before, strays, after, rfl, hne, rfl, tokens, ht⟩ := ih hrest
        refine ⟨l.piece :: before, strays, after, rfl, hne, ?_, .cons l offset tokens, ?_⟩
        · rw [List.flatMap_cons, byteSize_append, Lexeme.chars_piece, byteSize_toList,
            Nat.add_assoc]
        · rw [ofPieces_token hl, ht]
          rfl
    | blank =>
      obtain ⟨c, rfl, hc⟩ := Piece.exists_mark_of_role hr
      rw [ofPieces_blank hc] at h
      obtain ⟨before, strays, after, rfl, hne, rfl, tokens, ht⟩ := ih h
      refine ⟨.mark c :: before, strays, after, rfl, hne, ?_, tokens, ?_⟩
      · rw [List.flatMap_cons, byteSize_append, Nat.add_assoc]
        rfl
      · rw [ofPieces_blank hc, ht]
    | stray =>
      rw [ofPieces, hr] at h
      cases h
      have hne : (p :: ps).takeWhile (·.role = .stray) ≠ [] := by
        rw [List.takeWhile_cons_of_pos (by simpa using hr)]
        exact List.cons_ne_nil _ _
      have hps : p :: ps = [] ++ (p :: ps).takeWhile (·.role = .stray) ++
          (p :: ps).dropWhile (·.role = .stray) := by
        rw [List.nil_append, List.takeWhile_append_dropWhile]
      exact ⟨[], _, _, hps, hne, rfl, .stop offset, rfl⟩

/-- Tokens stand in their order in a text, each of them at its offset, and the marker, which alone
is empty, at the end. -/
structure Placed (tokens : Tokens) (text : String) : Prop where
  increasing : (tokens.toList.map Prod.snd).Pairwise (· < ·)
  slices : ∀ token ∈ tokens.toList, ∃ before after, text = before ++ token.1 ++ after ∧
    before.utf8ByteSize = token.2
  marker : ∃ init, tokens.toList = init ++ [("", text.utf8ByteSize)] ∧
    ∀ token ∈ init, token.1 ≠ ""

section Parts

variable {parts : List Part}

theorem le_of_mem_ofParts (parts : List Part) (offset : Nat) :
    ∀ token ∈ (ofParts offset parts).toList, offset ≤ token.2 := by
  induction parts generalizing offset with
  | nil => exact List.forall_mem_singleton.2 (Nat.le_refl offset)
  | cons part parts ih =>
    cases part with
    | blank c =>
      intro token hm
      exact Nat.le_of_add_right_le (ih _ token hm)
    | token l =>
      rw [ofParts, toList, List.forall_mem_cons]
      exact ⟨Nat.le_refl offset, fun token hm => Nat.le_of_add_right_le (ih _ token hm)⟩

theorem increasing_ofParts (hv : ∀ part ∈ parts, part.Valid) (offset : Nat) :
    ((ofParts offset parts).toList.map Prod.snd).Pairwise (· < ·) := by
  induction parts generalizing offset with
  | nil => exact List.pairwise_singleton _ _
  | cons part parts ih =>
    rw [List.forall_mem_cons] at hv
    cases part with
    | blank c => exact ih hv.2 _
    | token l =>
      rw [ofParts, toList, List.map_cons, List.pairwise_cons, List.forall_mem_map]
      refine ⟨?_, ih hv.2 _⟩
      intro token hm
      have hle := le_of_mem_ofParts parts _ token hm
      have hpos := mt String.utf8ByteSize_eq_zero_iff.1 (Part.text_ne_empty hv.1)
      omega

theorem slices_ofParts (parts : List Part) (before : String) :
    ∀ token ∈ (ofParts before.utf8ByteSize parts).toList, ∃ front after,
      before ++ String.ofList (parts.flatMap Part.chars) = front ++ token.1 ++ after ∧
      front.utf8ByteSize = token.2 := by
  induction parts generalizing before with
  | nil =>
    intro token hm
    rw [List.mem_singleton.1 hm]
    exact ⟨before, "", String.append_empty.symm, rfl⟩
  | cons part parts ih =>
    rw [List.flatMap_cons, String.ofList_append, ← String.append_assoc]
    cases part with
    | blank c =>
      have h := ih (before ++ String.ofList [c])
      rw [String.utf8ByteSize_append, utf8ByteSize_ofList_singleton] at h
      exact h
    | token l =>
      have h := ih (before ++ l.text)
      rw [String.utf8ByteSize_append] at h
      rw [ofParts, toList, List.forall_mem_cons, Part.chars, String.ofList_toList]
      exact ⟨⟨before, String.ofList (parts.flatMap Part.chars), rfl, rfl⟩, h⟩

theorem marker_ofParts (hv : ∀ part ∈ parts, part.Valid) (offset : Nat) :
    ∃ init, (ofParts offset parts).toList =
        init ++ [("", offset + (String.ofList (parts.flatMap Part.chars)).utf8ByteSize)] ∧
      ∀ token ∈ init, token.1 ≠ "" := by
  induction parts generalizing offset with
  | nil => exact ⟨[], rfl, List.forall_mem_nil _⟩
  | cons part parts ih =>
    rw [List.forall_mem_cons] at hv
    rw [List.flatMap_cons, String.ofList_append, String.utf8ByteSize_append, ← Nat.add_assoc]
    cases part with
    | blank c =>
      rw [Part.chars, utf8ByteSize_ofList_singleton]
      exact ih hv.2 (offset + c.utf8Size)
    | token l =>
      obtain ⟨init, h, hne⟩ := ih hv.2 (offset + l.text.utf8ByteSize)
      rw [ofParts, toList, h, Part.chars, String.ofList_toList]
      exact ⟨(l.text, offset) :: init, rfl,
        List.forall_mem_cons.2 ⟨Part.text_ne_empty hv.1, hne⟩⟩

/-- The tokens of the parts of a text stand in the text. -/
theorem placed_ofParts {text : String} (h : Part.Compose parts text.toList) :
    (ofParts 0 parts).Placed text := by
  have hslices := slices_ofParts parts ""
  have hmarker := marker_ofParts h.valid 0
  rw [h.chars_eq, String.ofList_toList] at hslices hmarker
  rw [String.empty_append] at hslices
  rw [Nat.zero_add] at hmarker
  exact ⟨increasing_ofParts h.valid 0, hslices, hmarker⟩

theorem ofText?_of_compose {text : String} (h : Part.Compose parts text.toList) :
    ofText? text = .ok (ofParts 0 parts) := by
  rw [ofText?, h.split_eq]
  exact ofPieces_map_piece h.valid 0

theorem exists_compose {text : String} {tokens : Tokens} (h : ofText? text = .ok tokens) :
    ∃ parts, Part.Compose parts text.toList := by
  obtain ⟨parts, hs, hv⟩ := exists_parts h
  exact ⟨parts, Part.compose_of_split hs hv⟩

end Parts

theorem ofText?_of_append {text : String} {before after : List Piece} {tokens : Tokens}
    (hs : Piece.split text.toList = before ++ after) (h : ofPieces 0 before = .ok tokens) :
    ofText? (String.ofList (before.flatMap Piece.chars)) = .ok tokens := by
  obtain ⟨-, hp, hc⟩ := Piece.split_eq_iff.1 hs
  rw [List.forall_mem_append] at hp
  have hbefore : Piece.split (before.flatMap Piece.chars) = before :=
    Piece.split_eq_iff.2 ⟨rfl, hp.1, hc.left_of_append⟩
  rw [ofText?, String.toList_ofList, hbefore, h]

/-- Stray text is a part of the text, and what stands before it has tokens. -/
theorem exists_text_before {text : String} {stray : Stray} (h : ofText? text = .error stray) :
    ∃ before after, text = before ++ stray.fragment ++ after ∧
      before.utf8ByteSize = stray.offset ∧ stray.fragment ≠ "" ∧
      ∃ tokens, ofText? before = .ok tokens := by
  obtain ⟨before, strays, after, hs, hne, rfl, tokens, ht⟩ := exists_stray h
  refine ⟨String.ofList (before.flatMap Piece.chars), String.ofList (after.flatMap Piece.chars),
    ?_, ?_, ?_, tokens, ?_⟩
  · rw [← String.ofList_append, ← String.ofList_append, ← List.flatMap_append,
      ← List.flatMap_append, ← hs, Piece.flatMap_chars_split, String.ofList_toList]
  · rw [← byteSize_toList, String.toList_ofList, Nat.zero_add]
  · obtain ⟨p, strays, rfl⟩ := List.exists_cons_of_ne_nil hne
    have hp := (Piece.split_eq_iff.1 hs).2.1 p (by simp)
    intro he
    have hnil := congrArg String.toList he
    rw [String.toList_ofList, List.flatMap_cons] at hnil
    exact hp.chars_ne_nil (List.append_eq_nil_iff.1 hnil).1
  · rw [List.append_assoc] at hs
    exact ofText?_of_append hs ht

end Tokens

/-- A text has tokens if and only if it is composed of white space, brackets, commas and identifiers
that no word character touches. Then its tokens are these, each at its offset. Any other text has a
stray part, which is reported with its offset, and up to which the text has tokens. -/
theorem tokens_exact (text : String) :
    ((∃ tokens, Tokens.ofText? text = .ok tokens) ↔ ∃ parts, Part.Compose parts text.toList) ∧
    (∀ parts, Part.Compose parts text.toList →
      Tokens.ofText? text = .ok (.ofParts 0 parts) ∧ (Tokens.ofParts 0 parts).Placed text) ∧
    ∀ stray, Tokens.ofText? text = .error stray →
      (ReadFault.stray stray).reason =
        "unexpected " ++ quote stray.fragment ++ " at offset " ++ toString stray.offset ∧
      ∃ before after, text = before ++ stray.fragment ++ after ∧
        before.utf8ByteSize = stray.offset ∧ stray.fragment ≠ "" ∧
        ∃ tokens, Tokens.ofText? before = .ok tokens := by
  refine ⟨⟨?_, ?_⟩, ?_, ?_⟩
  · intro h
    obtain ⟨tokens, h⟩ := h
    exact Tokens.exists_compose h
  · intro h
    obtain ⟨parts, h⟩ := h
    exact ⟨_, Tokens.ofText?_of_compose h⟩
  · intro parts h
    exact ⟨Tokens.ofText?_of_compose h, Tokens.placed_ofParts h⟩
  · intro stray h
    exact ⟨rfl, Tokens.exists_text_before h⟩

/-- A wide blank takes three bytes, and an accented letter touches the name before it. -/
theorem wide_blank_placed_and_accent_stray :
    let tokens : Tokens := .cons (.name "Vec") 0 (.cons .less 3 (.cons (.name "T") 7
      (.cons .greater 8 (.stop 9))))
    Tokens.ofText? "Vec<\u3000T>" = .ok tokens ∧
    (∃ parts, Part.Compose parts "Vec<\u3000T>".toList ∧ tokens = .ofParts 0 parts) ∧
    tokens.Placed "Vec<\u3000T>" ∧
    Tokens.ofText? "Vec<T\u00e9>" = .error ⟨"T\u00e9", 4⟩ ∧
    ∃ before after, "Vec<T\u00e9>" = before ++ "T\u00e9" ++ after ∧ before.utf8ByteSize = 4 ∧
      ∃ found, Tokens.ofText? before = .ok found := by
  intro tokens
  have hfound : Tokens.ofText? "Vec<\u3000T>" = .ok tokens := by decide +kernel
  have hstray : Tokens.ofText? "Vec<T\u00e9>" = .error ⟨"T\u00e9", 4⟩ := by decide
  obtain ⟨hcomposed, hplaced, -⟩ := tokens_exact "Vec<\u3000T>"
  obtain ⟨-, -, hreported⟩ := tokens_exact "Vec<T\u00e9>"
  obtain ⟨parts, hparts⟩ := hcomposed.1 ⟨tokens, hfound⟩
  obtain ⟨hok, hp⟩ := hplaced parts hparts
  have htokens : tokens = .ofParts 0 parts := Except.ok.inj (hfound.symm.trans hok)
  obtain ⟨-, before, after, htext, hsize, -, hbefore⟩ := hreported _ hstray
  exact ⟨hfound, ⟨parts, hparts, htokens⟩, htokens ▸ hp, hstray, before, after, htext, hsize,
    hbefore⟩

end NodeSchema.TypeExpr
