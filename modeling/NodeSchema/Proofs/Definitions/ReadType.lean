import NodeSchema.Code.Basic
import NodeSchema.Proofs.Definitions.Reader
import NodeSchema.Proofs.Success
import NodeSchema.Proofs.TypeExpr.Spelling
import NodeSchema.Proofs.Visitor.ReadBack

namespace NodeSchema

open Program (Token expect expect_append readAll readAll_flatten tokens tokens_append_mark
  tokens_between tokens_mark_append tokens_of_isWord)
open Text (IsWord isWord_of_isIdentifier)

namespace TypeExpr

variable {table : NameTable} {text : String}

theorem eq_or_of_toCode_atomic {name : String} (h : toCode table (.atomic name) = .ok text) :
    text = name ∨ text = name ++ "<" ++ table.lifetime ++ ">" := by
  rw [toCode] at h
  split at h
  · exact .inr (Except.ok.inj h).symm
  · exact .inr (Except.ok.inj h).symm
  · exact .inl (Except.ok.inj h).symm
  · exact .inl (Except.ok.inj h).symm
  · cases h

theorem exists_texts_of_toCode_generic {container : String} {args : List TypeExpr}
    (h : toCode table (.generic container args) = .ok text) :
    ∃ texts, List.Forall₂ (fun arg t => arg.toCode table = .ok t) args texts ∧
      text = container ++ "<" ++ ", ".intercalate texts ++ ">" := by
  rw [toCode] at h
  split at h
  · cases h
  · obtain ⟨texts, ht, h⟩ := bind_eq_ok_iff.1 h
    rw [toCodes_eq_mapM, mapM_eq_ok_iff fun _ _ _ => Iff.rfl] at ht
    exact ⟨texts, ht, (Except.ok.inj h).symm⟩

end TypeExpr

namespace Item

/-- A lifetime begins with its quote. -/
def IsLifetime (lifetime : String) : Prop := ∃ ts, tokens lifetime = .mark '\x27' :: ts

theorem isLifetime_quote (name : String) : IsLifetime ("'" ++ name) := by
  rw [IsLifetime, tokens_mark_append (by decide)]
  exact ⟨_, rfl⟩

/-- No bracket follows that would open arguments. -/
def Ends (ts : List Token) : Prop := ts.head? ≠ some (.mark '<')

/-- The text of a type starts with a word, and is read wherever it ends. -/
structure IsText (lifetime : String) (type : TypeExpr) (text : String) : Prop where
  word : ∃ name ts, tokens text = .word name :: ts
  read : ∀ depth ts, (tokens text).length ≤ depth → Ends ts →
    readType lifetime depth (tokens text ++ ts) = some (type, ts)

variable {lifetime : String} {types : List TypeExpr} {texts : List String}

theorem IsText.of_isWord {name : String} (h : IsWord name) :
    IsText lifetime (.atomic name) name := by
  constructor
  case word => exact ⟨name, [], tokens_of_isWord h⟩
  case read =>
    intro depth ts hd hts
    rw [tokens_of_isWord h] at hd ⊢
    obtain ⟨depth, rfl⟩ := Nat.exists_eq_add_one_of_ne_zero (Nat.ne_zero_of_lt hd)
    rw [List.singleton_append, readType]
    intro ts' he
    subst he
    exact hts rfl

theorem tokens_applied {name : String} (h : IsWord name) (inner : String) :
    tokens (name ++ "<" ++ inner ++ ">") =
      .word name :: .mark '<' :: (tokens inner ++ tokens ">") := by
  rw [tokens_append_mark (by decide), tokens_between (by decide) (by decide), tokens_of_isWord h]
  simp only [List.append_assoc, List.cons_append, List.nil_append]
  rfl

theorem IsText.of_lifetime {name : String} (h : IsWord name) :
    IsText lifetime (.atomic name) (name ++ "<" ++ lifetime ++ ">") := by
  constructor
  case word => exact ⟨_, _, tokens_applied h lifetime⟩
  case read =>
    intro depth ts hd _
    rw [tokens_applied h] at hd ⊢
    obtain ⟨depth, rfl⟩ := Nat.exists_eq_add_one_of_ne_zero (Nat.ne_zero_of_lt hd)
    simp only [List.cons_append, List.append_assoc, readType, expect_append]
    rfl

theorem tokens_intercalate (text : String) (texts : List String) :
    tokens (", ".intercalate (text :: texts)) =
      tokens text ++ (texts.map fun t => tokens "," ++ tokens t).flatten := by
  induction texts generalizing text with
  | nil =>
    rw [String.intercalate_singleton]
    exact (List.append_nil _).symm
  | cons text' texts ih =>
    rw [String.intercalate_cons_cons, tokens_between (by decide) (by decide), ih, List.map_cons,
      List.flatten_cons]
    simp only [List.append_assoc]
    rfl

theorem length_tokens_le_of_mem {text : String} (h : text ∈ texts) :
    (tokens text).length ≤ (tokens (", ".intercalate texts)).length := by
  obtain ⟨first, others, rfl⟩ := List.exists_cons_of_ne_nil (List.ne_nil_of_mem h)
  rw [tokens_intercalate, List.length_append]
  rcases List.mem_cons.1 h with rfl | h
  · omega
  · obtain ⟨before, after, rfl⟩ := List.append_of_mem h
    simp only [List.map_append, List.map_cons, List.flatten_append, List.flatten_cons,
      List.length_append]
    omega

theorem readList_texts {close : Char} (hc : close ≠ ',' ∧ close ≠ '<')
    (h : List.Forall₂ (IsText lifetime) types texts) (hne : types ≠ []) {depth : Nat}
    (hd : (tokens (", ".intercalate texts)).length ≤ depth) (ts : List Token) :
    readList close (readType lifetime depth)
      (tokens (", ".intercalate texts) ++ .mark close :: ts) = some (types, .mark close :: ts) := by
  cases h with
  | nil => exact absurd rfl hne
  | @cons type text types texts ht hts =>
    have hends : ∀ p ∈ texts.map fun t => tokens "," ++ tokens t, ∀ ts, Ends (p ++ ts) := by
      rw [List.forall_mem_map]
      intro t _ ts
      exact nofun
    have hstop : ∀ p ∈ texts.map fun t => tokens "," ++ tokens t, ∀ ts,
        (fun t : Option Token => t == some (.mark close)) (p ++ ts).head? = false := by
      rw [List.forall_mem_map]
      intro t _ ts
      apply beq_eq_false_iff_ne.2
      intro he
      exact hc.1 (Token.mark.inj (Option.some.inj he)).symm
    have hclose : Ends (.mark close :: ts) := by
      intro he
      exact hc.2 (Token.mark.inj (Option.some.inj he))
    have hothers : List.Forall₂ (fun type p => ∀ ts, Ends ts →
        (expect "," (p ++ ts) >>= readType lifetime depth) = some (type, ts))
        types (texts.map fun t => tokens "," ++ tokens t) := by
      rw [List.forall₂_map_right_iff]
      have hlength : ∀ t ∈ texts, (tokens t).length ≤ depth := fun t hm =>
        (length_tokens_le_of_mem (List.mem_cons_of_mem text hm)).trans hd
      apply ((List.forall₂_and_left _ _).2 ⟨hlength, hts.flip⟩).flip.imp
      intro type t ht ts hends
      obtain ⟨hlt, ht⟩ := ht
      rw [List.append_assoc, expect_append]
      exact ht.read depth ts hlt hends
    have hrest : Ends ((texts.map fun t => tokens "," ++ tokens t).flatten ++ .mark close :: ts) := by
      cases texts with
      | nil => exact hclose
      | cons t texts =>
        rw [List.map_cons, List.flatten_cons, List.append_assoc]
        exact hends _ List.mem_cons_self _
    rw [readList, tokens_intercalate, List.append_assoc,
      ht.read depth _ ((length_tokens_le_of_mem List.mem_cons_self).trans hd) hrest]
    have hread : readAll (· == some (.mark close))
        (fun ts => expect "," ts >>= readType lifetime depth)
        ((texts.map fun t => tokens "," ++ tokens t).flatten ++ .mark close :: ts) =
          some (types, .mark close :: ts) :=
      readAll_flatten hothers hends hstop hclose (beq_self_eq_true _)
    simp only [Option.bind_eq_bind, Option.bind_some] at hread ⊢
    rw [hread]
    rfl

theorem IsText.of_application (hl : IsLifetime lifetime) {container : String}
    (h : IsWord container) (ht : List.Forall₂ (IsText lifetime) types texts) (hne : types ≠ []) :
    IsText lifetime (.generic container types)
      (container ++ "<" ++ ", ".intercalate texts ++ ">") := by
  have htokens := tokens_applied h (", ".intercalate texts)
  constructor
  case word => exact ⟨_, _, htokens⟩
  case read =>
    intro depth ts hd _
    rw [htokens] at hd ⊢
    obtain ⟨depth, rfl⟩ := Nat.exists_eq_add_one_of_ne_zero (Nat.ne_zero_of_lt hd)
    simp only [List.length_cons, List.length_append] at hd
    -- The first argument starts with a word, so that it is not taken for the lifetime.
    have hfirst (ts : List Token) :
        expect lifetime (tokens (", ".intercalate texts) ++ ts) = none := by
      obtain ⟨more, hl⟩ := hl
      cases ht with
      | nil => exact absurd rfl hne
      | cons ht _ =>
        obtain ⟨name, rest, hname⟩ := ht.word
        rw [tokens_intercalate, hname, expect, hl]
        rfl
    have hlist : readList '>' (readType lifetime depth)
        (tokens (", ".intercalate texts) ++ (tokens ">" ++ ts)) =
          some (types, tokens ">" ++ ts) :=
      readList_texts (by decide) ht hne (by omega) ts
    simp only [List.cons_append, List.append_assoc, readType, hfirst, hlist, expect_append,
      Option.bind_eq_bind, Option.bind_some]
    rfl

/-- What is written for a type is read as the type. -/
theorem IsText.of_toCode {table : NameTable} (hl : IsLifetime table.lifetime) {type : TypeExpr}
    (hw : type.WellNamed) {text : String} (h : type.toCode table = .ok text) :
    IsText table.lifetime type text := by
  induction hw generalizing text with
  | @atomic name hn =>
    rcases TypeExpr.eq_or_of_toCode_atomic h with rfl | rfl
    · exact .of_isWord (isWord_of_isIdentifier hn)
    · exact .of_lifetime (isWord_of_isIdentifier hn)
  | @generic container args hn hne _ ih =>
    obtain ⟨texts, ht, rfl⟩ := TypeExpr.exists_texts_of_toCode_generic h
    have hargs : List.Forall₂ (IsText table.lifetime) args texts :=
      ((List.forall₂_and_left _ _).2 ⟨ih, ht⟩).imp fun _ _ h => h.1 h.2
    exact .of_application hl (isWord_of_isIdentifier hn) hargs hne

end Item

end NodeSchema
