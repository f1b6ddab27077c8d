import Mathlib.Order.Bounds.Defs
import NodeSchema.Proofs.FirstFault
import NodeSchema.Proofs.TypeExpr.Placing
import NodeSchema.Proofs.TypeExpr.Reading

namespace NodeSchema.TypeExpr

open Text (isIdentifier quote)

/-- What a container has behind its first argument. -/
def closing (others : List TypeExpr) : List Lexeme := moreLexemes others ++ [.greater]

theorem closing_cons (other : TypeExpr) (others : List TypeExpr) :
    closing (other :: others) = .comma :: (other.lexemes ++ closing others) := by
  rw [closing, moreLexemes_cons, List.cons_append, List.append_assoc, closing]

/-- A list that no bracket begins, so that nothing in it belongs to a name before it. -/
def NotOpening (rest : List (Option Lexeme)) : Prop := rest.head? ≠ some (some .less)

theorem notOpening_marker : NotOpening [none] := by
  intro h
  cases h

theorem notOpening_closing (others : List TypeExpr) (rest : List (Option Lexeme)) :
    NotOpening ((closing others).map some ++ rest) := by
  cases others with
  | nil => exact nofun
  | cons other others =>
    rw [closing_cons]
    exact nofun

/-- Read from its lexemes, an expression is not taken for another one, whatever follows; but a
bracket behind a name opens arguments. -/
def Unambiguous (e : TypeExpr) : Prop :=
  ∀ (e' : TypeExpr) (a b : List (Option Lexeme)), e'.WellNamed → (e.isAtomic → NotOpening a) →
    (e'.isAtomic → NotOpening b) → e.lexemes.map some ++ a = e'.lexemes.map some ++ b →
      e = e' ∧ a = b

theorem closing_inj {args others : List TypeExpr} (ha : ∀ arg ∈ args, arg.Unambiguous)
    (ho : ∀ other ∈ others, other.WellNamed) {a b : List (Option Lexeme)}
    (h : (closing args).map some ++ a = (closing others).map some ++ b) :
    args = others ∧ a = b := by
  induction args generalizing others with
  | nil =>
    cases others with
    | nil => exact ⟨rfl, List.append_cancel_left h⟩
    | cons other others =>
      rw [closing_cons] at h
      cases h
  | cons arg args ih =>
    cases others with
    | nil =>
      rw [closing_cons] at h
      cases h
    | cons other others =>
      rw [List.forall_mem_cons] at ha ho
      simp only [closing_cons, List.map_cons, List.map_append, List.cons_append,
        List.append_assoc, List.cons.injEq, true_and] at h
      obtain ⟨rfl, htail⟩ := ha.1 other _ _ ho.1 (fun _ => notOpening_closing args a)
        (fun _ => notOpening_closing others b) h
      obtain ⟨rfl, hab⟩ := ih ha.2 ho.2 htail
      exact ⟨rfl, hab⟩

theorem WellNamed.unambiguous {e : TypeExpr} (he : e.WellNamed) : e.Unambiguous := by
  induction he with
  | @atomic name hn =>
    intro e' a b he' ha hb h
    cases he' with
    | atomic hn' =>
      obtain ⟨hname, hab⟩ := List.cons.inj h
      cases hname
      exact ⟨rfl, hab⟩
    | generic hn' hne _ =>
      obtain ⟨first, others, rfl⟩ := List.exists_cons_of_ne_nil hne
      rw [lexemes_generic] at h
      exact absurd (congrArg List.head? (List.cons.inj h).2) (ha rfl)
  | @generic container args hn hne _ ih =>
    intro e' a b he' ha hb h
    obtain ⟨first, others, rfl⟩ := List.exists_cons_of_ne_nil hne
    rw [List.forall_mem_cons] at ih
    cases he' with
    | atomic hn' =>
      rw [lexemes_generic] at h
      exact absurd (congrArg List.head? (List.cons.inj h).2.symm) (hb rfl)
    | @generic container' args' hn' hne' hw =>
      obtain ⟨first', others', rfl⟩ := List.exists_cons_of_ne_nil hne'
      rw [List.forall_mem_cons] at hw
      simp only [lexemes_generic, ← closing.eq_1, List.map_cons, List.map_append,
        List.cons_append, List.append_assoc, List.cons.injEq, true_and, Option.some.injEq,
        Lexeme.name.injEq] at h
      obtain ⟨rfl, h⟩ := h
      obtain ⟨rfl, htail⟩ := ih.1 first' _ _ hw.1 (fun _ => notOpening_closing others a)
        (fun _ => notOpening_closing others' b) h
      obtain ⟨rfl, hab⟩ := closing_inj ih.2 hw.2 htail
      exact ⟨rfl, hab⟩

namespace Tokens

/-- The tokens with their offsets; the marker at the end has no lexeme. -/
def marked : Tokens → List (Option Lexeme × Nat)
  | stop offset => [(none, offset)]
  | cons lexeme offset rest => (some lexeme, offset) :: rest.marked

theorem map_fst_marked (tokens : Tokens) :
    tokens.marked.map Prod.fst = tokens.lexemes.map some ++ [none] := by
  induction tokens with
  | stop offset => rfl
  | cons lexeme offset rest ih => rw [marked, List.map_cons, ih, lexemes, List.map_cons,
      List.cons_append]

theorem exists_marked_eq (tokens : Tokens) : ∃ after, tokens.marked = tokens.head :: after := by
  cases tokens with
  | stop offset => exact ⟨[], rfl⟩
  | cons lexeme offset rest => exact ⟨rest.marked, rfl⟩

end Tokens

mutual

theorem suffix_of_readExpr (tokens : Tokens) {e : TypeExpr} {rest : tokens.Rest}
    (h : readExpr tokens = .ok (e, rest)) : rest.1.marked <:+ tokens.marked := by
  rw [readExpr.eq_def] at h
  split at h
  · next container offset offset' inner =>
    obtain ⟨⟨first, afterFirst, hlt⟩, hf, h⟩ := bind_eq_ok_iff.1 h
    obtain ⟨⟨others, rest', hlt'⟩, ho, h⟩ := bind_eq_ok_iff.1 h
    cases h
    have hinner := (suffix_of_readArgs afterFirst ho).trans (suffix_of_readExpr inner hf)
    exact hinner.trans ((List.suffix_cons _ _).trans (List.suffix_cons _ _))
  · next name offset rest' _ =>
    cases h
    exact List.suffix_cons _ _
  · cases h
termination_by tokens.length
decreasing_by all_goals subst_vars; simp only [Tokens.length]; omega

theorem suffix_of_readArgs (tokens : Tokens) {args : List TypeExpr} {rest : tokens.Rest}
    (h : readArgs tokens = .ok (args, rest)) : rest.1.marked <:+ tokens.marked := by
  rw [readArgs.eq_def] at h
  split at h
  · next offset inner =>
    obtain ⟨⟨arg, afterArg, hlt⟩, ha, h⟩ := bind_eq_ok_iff.1 h
    obtain ⟨⟨others, rest', hlt'⟩, ho, h⟩ := bind_eq_ok_iff.1 h
    cases h
    have hinner := (suffix_of_readArgs afterArg ho).trans (suffix_of_readExpr inner ha)
    exact hinner.trans (List.suffix_cons _ _)
  · next offset rest' =>
    cases h
    exact List.suffix_cons _ _
  · cases h
termination_by tokens.length
decreasing_by all_goals subst_vars; simp only [Tokens.length]; omega

end

/-- What has been taken for an expression stands before the rest, and is all of the expression. -/
theorem exists_passed_of_readExpr {tokens : Tokens} {e : TypeExpr} {rest : tokens.Rest}
    (h : readExpr tokens = .ok (e, rest)) (hn : tokens.Named) :
    ∃ passed, tokens.marked = passed ++ rest.1.marked ∧
      passed.map Prod.fst = e.lexemes.map some := by
  obtain ⟨passed, hp⟩ := suffix_of_readExpr tokens h
  have hl := congrArg (List.map Prod.fst) hp
  rw [List.map_append, Tokens.map_fst_marked, Tokens.map_fst_marked,
    (lexemes_of_readExpr tokens h hn).1, List.map_append, List.append_assoc] at hl
  exact ⟨passed, hp.symm, List.append_cancel_right hl⟩

theorem notOpening_of_readExpr {tokens : Tokens} {e : TypeExpr} {rest : tokens.Rest}
    (h : readExpr tokens = .ok (e, rest)) (ha : e.isAtomic) :
    NotOpening (rest.1.marked.map Prod.fst) := by
  rw [readExpr.eq_def] at h
  split at h
  · next container offset offset' inner =>
    obtain ⟨⟨first, afterFirst, hlt⟩, hf, h⟩ := bind_eq_ok_iff.1 h
    obtain ⟨⟨others, rest', hlt'⟩, ho, h⟩ := bind_eq_ok_iff.1 h
    cases h
    cases ha
  · next name offset rest' hne =>
    cases h
    cases rest' with
    | stop offset' => exact nofun
    | cons lexeme offset' inner =>
      intro hl
      cases hl
      exact hne offset' inner rfl
  · cases h

/-- Tokens go wrong at a token with respect to wanted lists of lexemes: what stands before it is the
start of one, and with it of none, whatever follows the wanted list. -/
def FailsAt (wanted : List Lexeme → Prop) (tokens : Tokens) (fault : Unexpected) : Prop :=
  ∃ before after, tokens.marked = before ++ (fault.found, fault.offset) :: after ∧
    (∃ ls, wanted ls ∧ before.map Prod.fst <+: ls.map some) ∧
    ∀ ls rest, wanted ls → NotOpening rest →
      ¬before.map Prod.fst ++ [fault.found] <+: ls.map some ++ rest

/-- The lexemes of an expression. -/
def IsExpr (ls : List Lexeme) : Prop := ∃ e : TypeExpr, e.WellNamed ∧ ls = e.lexemes

/-- The lexemes behind the first argument of a container. -/
def IsClosing (ls : List Lexeme) : Prop :=
  ∃ others : List TypeExpr, (∀ other ∈ others, other.WellNamed) ∧ ls = closing others

/-- The lexemes of one argument or more, up to the closing bracket. -/
def IsFilling (ls : List Lexeme) : Prop :=
  ∃ (first : TypeExpr) (others : List TypeExpr), first.WellNamed ∧
    (∀ other ∈ others, other.WellNamed) ∧ ls = first.lexemes ++ closing others

namespace FailsAt

variable {wanted wanted' : List Lexeme → Prop} {tokens inner : Tokens} {fault : Unexpected}

theorem head (hl : ∃ ls, wanted ls) (expected : Expected)
    (h : ∀ ls rest, wanted ls → NotOpening rest →
      (ls.map some ++ rest).head? ≠ some tokens.head.1) :
    FailsAt wanted tokens ⟨expected, tokens.head.1, tokens.head.2⟩ := by
  obtain ⟨after, ha⟩ := tokens.exists_marked_eq
  obtain ⟨ls, hl⟩ := hl
  refine ⟨[], after, ha, ⟨ls, hl, List.nil_prefix⟩, ?_⟩
  intro ls rest hls hr hp
  obtain ⟨t, ht⟩ := hp
  exact h ls rest hls hr (ht ▸ rfl)

theorem behind {passed : List (Option Lexeme × Nat)} (hm : tokens.marked = passed ++ inner.marked)
    (h : FailsAt wanted inner fault)
    (hright : ∀ ls, wanted ls → ∃ ls', wanted' ls' ∧
      passed.map Prod.fst ++ ls.map some <+: ls'.map some)
    (hwrong : ∀ ls' rest p, wanted' ls' → NotOpening rest → p.head? = some inner.head.1 →
      passed.map Prod.fst ++ p <+: ls'.map some ++ rest →
        ∃ ls rest', wanted ls ∧ NotOpening rest' ∧ p <+: ls.map some ++ rest') :
    FailsAt wanted' tokens fault := by
  obtain ⟨before, after, hi, ⟨ls, hls, hp⟩, hn⟩ := h
  refine ⟨passed ++ before, after, ?_, ?_, ?_⟩
  · rw [hm, hi, List.append_assoc]
  · obtain ⟨ls', hls', hp'⟩ := hright ls hls
    rw [List.map_append]
    exact ⟨ls', hls', ((List.prefix_append_right_inj _).2 hp).trans hp'⟩
  · intro ls' rest hls' hr hp'
    have hhead : (before.map Prod.fst ++ [fault.found]).head? = some inner.head.1 := by
      obtain ⟨after', ha⟩ := inner.exists_marked_eq
      rw [ha] at hi
      cases before with
      | nil => exact congrArg (some ·.1) (List.cons.inj hi).1.symm
      | cons token before => exact congrArg (some ·.1) (List.cons.inj hi).1.symm
    rw [List.map_append, List.append_assoc] at hp'
    obtain ⟨ls, rest', hls, hr', hp''⟩ := hwrong ls' rest _ hls' hr hhead hp'
    exact hn ls rest' hls hr' hp''

theorem filling_of_expr (h : FailsAt IsExpr tokens fault) : FailsAt IsFilling tokens fault := by
  have hm : tokens.marked = [] ++ tokens.marked := rfl
  apply h.behind hm
  · intro ls hls
    obtain ⟨e, he, rfl⟩ := hls
    refine ⟨_, ⟨e, [], he, List.forall_mem_nil _, rfl⟩, ?_⟩
    rw [List.map_append]
    exact List.prefix_append _ _
  · intro ls' rest p hls' hr _ hp
    obtain ⟨first, others, hf, ho, rfl⟩ := hls'
    rw [List.map_append, List.append_assoc] at hp
    exact ⟨_, _, ⟨first, hf, rfl⟩, notOpening_closing others rest, hp⟩

theorem filling_of_closing {e : TypeExpr} {rest : tokens.Rest}
    (hr : readExpr tokens = .ok (e, rest)) (hn : tokens.Named)
    (h : FailsAt IsClosing rest.1 fault) : FailsAt IsFilling tokens fault := by
  obtain ⟨passed, hm, hp⟩ := exists_passed_of_readExpr hr hn
  have he : e.WellNamed := (lexemes_of_readExpr tokens hr hn).2
  apply h.behind hm
  · intro ls hls
    obtain ⟨others, ho, rfl⟩ := hls
    exact ⟨_, ⟨e, others, he, ho, rfl⟩, [], by rw [List.append_nil, hp, List.map_append]⟩
  · intro ls' after p hls' ha hhead hprefix
    obtain ⟨first, others, hf, ho, rfl⟩ := hls'
    obtain ⟨t, ht⟩ := hprefix
    rw [hp, List.map_append, List.append_assoc, List.append_assoc] at ht
    have hopening : e.isAtomic → NotOpening (p ++ t) := by
      intro hatomic
      have hrest := notOpening_of_readExpr hr hatomic
      obtain ⟨after', ha'⟩ := rest.1.exists_marked_eq
      rw [NotOpening, ha', List.map_cons, List.head?_cons, ← hhead] at hrest
      rwa [NotOpening, List.head?_append, hhead, Option.some_or, ← hhead]
    obtain ⟨rfl, h⟩ := he.unambiguous first _ _ hf hopening
      (fun _ => notOpening_closing others after) ht
    exact ⟨_, _, ⟨others, ho, rfl⟩, ha, t, h⟩

theorem closing_of_filling {offset : Nat} (h : FailsAt IsFilling inner fault) :
    FailsAt IsClosing (.cons .comma offset inner) fault := by
  have hm : (Tokens.cons .comma offset inner).marked = [(some .comma, offset)] ++ inner.marked :=
    rfl
  apply h.behind hm
  · intro ls hls
    obtain ⟨first, others, hf, ho, rfl⟩ := hls
    refine ⟨_, ⟨first :: others, List.forall_mem_cons.2 ⟨hf, ho⟩, rfl⟩, ?_⟩
    rw [closing_cons]
    exact List.prefix_rfl
  · intro ls' rest p hls' hr _ hp
    obtain ⟨others, ho, rfl⟩ := hls'
    cases others with
    | nil => cases (List.cons_prefix_cons.1 hp).1
    | cons first others =>
      rw [closing_cons] at hp
      rw [List.forall_mem_cons] at ho
      exact ⟨_, _, ⟨first, others, ho.1, ho.2, rfl⟩, hr, (List.cons_prefix_cons.1 hp).2⟩

theorem expr_of_filling {container : String} {offset offset' : Nat} (hi : isIdentifier container)
    (h : FailsAt IsFilling inner fault) :
    FailsAt IsExpr (.cons (.name container) offset (.cons .less offset' inner)) fault := by
  have hm : (Tokens.cons (.name container) offset (.cons .less offset' inner)).marked =
      [(some (.name container), offset), (some .less, offset')] ++ inner.marked := rfl
  apply h.behind hm
  · intro ls hls
    obtain ⟨first, others, hf, ho, rfl⟩ := hls
    have he : (generic container (first :: others)).WellNamed :=
      .generic hi (List.cons_ne_nil _ _) (List.forall_mem_cons.2 ⟨hf, ho⟩)
    refine ⟨_, ⟨_, he, rfl⟩, ?_⟩
    rw [lexemes_generic]
    exact List.prefix_rfl
  · intro ls' rest p hls' hr _ hp
    obtain ⟨e, he, rfl⟩ := hls'
    obtain ⟨t, ht⟩ := hp
    cases he with
    | atomic hn => exact absurd (congrArg List.head? (List.cons.inj ht).2.symm) hr
    | generic hn hne hw =>
      obtain ⟨first, others, rfl⟩ := List.exists_cons_of_ne_nil hne
      rw [List.forall_mem_cons] at hw
      rw [lexemes_generic] at ht
      have hfilling := (List.cons.inj (List.cons.inj ht).2).2
      exact ⟨_, _, ⟨first, others, hw.1, hw.2, rfl⟩, hr, t, hfilling⟩

end FailsAt

mutual

/-- A descent that fails has gone as far as the tokens can be completed. -/
theorem failsAt_of_readExpr (tokens : Tokens) {fault : Unexpected}
    (h : readExpr tokens = .error fault) (hn : tokens.Named) : FailsAt IsExpr tokens fault := by
  rw [readExpr.eq_def] at h
  split at h
  · next container offset offset' inner =>
    have hi : isIdentifier container := hn container List.mem_cons_self
    have hn' : inner.Named := hn.of_append [.name container, .less] rfl
    apply FailsAt.expr_of_filling hi
    rcases bind_eq_error_iff.1 h with hf | ⟨⟨first, afterFirst, hlt⟩, hf, h⟩
    · exact (failsAt_of_readExpr inner hf hn').filling_of_expr
    · have ho := (bind_eq_error_iff.1 h).resolve_right nofun
      have hrest := hn'.of_append _ (lexemes_of_readExpr inner hf hn').1
      exact .filling_of_closing hf hn' (failsAt_of_readArgs afterFirst ho hrest)
  · next => cases h
  · next hgeneric hatomic =>
    cases h
    have hsome : ∃ ls, IsExpr ls := ⟨_, .atomic "_", .atomic rfl, rfl⟩
    apply FailsAt.head hsome
    intro ls rest hls _ hhead
    obtain ⟨e, -, rfl⟩ := hls
    obtain ⟨name, ls, he⟩ := e.lexemes_eq_cons
    rw [he] at hhead
    cases tokens with
    | stop offset => cases hhead
    | cons lexeme offset rest =>
      cases hhead
      exact hatomic name offset rest rfl
termination_by tokens.length
decreasing_by all_goals subst_vars; simp only [Tokens.length]; omega

theorem failsAt_of_readArgs (tokens : Tokens) {fault : Unexpected}
    (h : readArgs tokens = .error fault) (hn : tokens.Named) : FailsAt IsClosing tokens fault := by
  rw [readArgs.eq_def] at h
  split at h
  · next offset inner =>
    have hn' : inner.Named := hn.of_append [.comma] rfl
    apply FailsAt.closing_of_filling
    rcases bind_eq_error_iff.1 h with ha | ⟨⟨arg, afterArg, hlt⟩, ha, h⟩
    · exact (failsAt_of_readExpr inner ha hn').filling_of_expr
    · have ho := (bind_eq_error_iff.1 h).resolve_right nofun
      have hrest := hn'.of_append _ (lexemes_of_readExpr inner ha hn').1
      exact .filling_of_closing ha hn' (failsAt_of_readArgs afterArg ho hrest)
  · next => cases h
  · next hcomma hgreater =>
    cases h
    have hsome : ∃ ls, IsClosing ls := ⟨_, [], List.forall_mem_nil _, rfl⟩
    apply FailsAt.head hsome
    intro ls rest hls _ hhead
    obtain ⟨others, -, rfl⟩ := hls
    cases tokens with
    | stop offset =>
      cases others with
      | nil => cases hhead
      | cons other others =>
        rw [closing_cons] at hhead
        cases hhead
    | cons lexeme offset inner =>
      cases others with
      | nil =>
        cases hhead
        exact hgreater offset inner rfl
      | cons other others =>
        rw [closing_cons] at hhead
        cases hhead
        exact hcomma offset inner rfl
termination_by tokens.length
decreasing_by all_goals subst_vars; simp only [Tokens.length]; omega

end

/-- Tokens that some type starts with, where the marker ends the type. -/
def IsStart (ls : List (Option Lexeme)) : Prop :=
  ∃ e : TypeExpr, e.WellNamed ∧ ls <+: e.lexemes.map some ++ [none]

theorem IsStart.of_prefix {ls ls' : List (Option Lexeme)} (h : IsStart ls) (hp : ls' <+: ls) :
    IsStart ls' := by
  obtain ⟨e, he, hl⟩ := h
  exact ⟨e, he, hp.trans hl⟩

theorem isStart_map_some_iff {ls : List Lexeme} :
    IsStart (ls.map some) ↔ ∃ e : TypeExpr, e.WellNamed ∧ ls <+: e.lexemes := by
  have hinj : Function.Injective (some : Lexeme → Option Lexeme) := fun _ _ => Option.some.inj
  apply exists_congr
  intro e
  rw [List.prefix_concat_iff, List.prefix_map_iff_of_injective hinj]
  have hne : ls.map some ≠ e.lexemes.map some ++ [none] := by
    intro he
    have hm : none ∈ ls.map some := he ▸ by simp
    obtain ⟨l, -, hl⟩ := List.mem_map.1 hm
    cases hl
  rw [or_iff_right hne]

namespace Tokens

/-- A number of tokens start a type, and with the next one they do not. -/
def MisplacedAt (tokens : Tokens) (k : Nat) : Prop :=
  IsStart ((tokens.marked.map Prod.fst).take k) ∧
    ¬IsStart ((tokens.marked.map Prod.fst).take (k + 1))

theorem eq_of_marked_eq {tokens : Tokens} {before after : List (Option Lexeme × Nat)} {offset : Nat}
    (h : tokens.marked = before ++ (none, offset) :: after) :
    before.map Prod.fst = tokens.lexemes.map some ∧ tokens.toList.getLast? = some ("", offset) := by
  induction tokens generalizing before with
  | stop offset' =>
    cases before with
    | nil =>
      cases h
      exact ⟨rfl, rfl⟩
    | cons token before => cases before <;> cases h
  | cons lexeme offset' rest ih =>
    cases before with
    | nil => cases h
    | cons token before =>
      obtain ⟨rfl, hrest⟩ := List.cons.inj h
      obtain ⟨hl, ho⟩ := ih hrest
      have hne : rest.toList ≠ [] := by
        intro he
        rw [he] at ho
        cases ho
      rw [toList, List.getLast?_cons_of_ne_nil hne, List.map_cons, hl]
      exact ⟨rfl, ho⟩

theorem eq_size_of_marked_eq {text : String} {tokens : Tokens} (ht : ofText? text = .ok tokens)
    {before after : List (Option Lexeme × Nat)} {offset : Nat}
    (h : tokens.marked = before ++ (none, offset) :: after) : offset = text.utf8ByteSize := by
  obtain ⟨-, hlast⟩ := eq_of_marked_eq h
  obtain ⟨parts, hparts⟩ := exists_compose ht
  obtain rfl := Except.ok.inj (ht.symm.trans (ofText?_of_compose hparts))
  obtain ⟨init, hinit, -⟩ := (placed_ofParts hparts).marker
  rw [hinit, List.getLast?_concat, Option.some_inj] at hlast
  exact (congrArg Prod.snd hlast).symm

section Splits

variable {tokens : Tokens} {before after : List (Option Lexeme × Nat)} {token : Option Lexeme × Nat}

theorem isLeast_of_marked_eq (hm : tokens.marked = before ++ token :: after)
    (hright : IsStart (before.map Prod.fst))
    (hwrong : ¬IsStart (before.map Prod.fst ++ [token.1])) :
    IsLeast {k | tokens.MisplacedAt k} before.length := by
  have hmap : tokens.marked.map Prod.fst =
      before.map Prod.fst ++ token.1 :: after.map Prod.fst := by
    rw [hm, List.map_append, List.map_cons]
  have htake : (tokens.marked.map Prod.fst).take before.length = before.map Prod.fst := by
    rw [hmap, List.take_left' (List.length_map _)]
  have htake' : (tokens.marked.map Prod.fst).take (before.length + 1) =
      before.map Prod.fst ++ [token.1] := by
    rw [hmap, List.append_cons, List.take_left' (by simp)]
  constructor
  · exact ⟨htake ▸ hright, htake' ▸ hwrong⟩
  · intro k hk
    by_contra hlt
    have hp : (tokens.marked.map Prod.fst).take (k + 1) <+: before.map Prod.fst :=
      htake ▸ List.take_prefix_take_left (Nat.not_le.1 hlt)
    exact hk.2 (hright.of_prefix hp)

theorem eq_none_iff_of_marked_eq (hm : tokens.marked = before ++ token :: after)
    (hright : IsStart (before.map Prod.fst))
    (hwrong : ¬IsStart (before.map Prod.fst ++ [token.1])) :
    token.1 = none ↔ IsStart (tokens.lexemes.map some) := by
  constructor
  · intro hnone
    obtain ⟨found, offset⟩ := token
    obtain rfl : found = none := hnone
    exact (eq_of_marked_eq hm).1 ▸ hright
  · intro hstart
    have hp : before.map Prod.fst ++ [token.1] <+: tokens.lexemes.map some ++ [none] := by
      rw [← map_fst_marked, hm]
      exact ⟨after.map Prod.fst, by simp⟩
    rcases List.prefix_concat_iff.1 hp with he | hp
    · exact List.singleton_inj.1 (List.append_inj' he rfl).2
    · exact absurd (hstart.of_prefix hp) hwrong

end Splits

end Tokens

/-- The tokens before the one that is reported start a type, and with it they do not. -/
theorem exists_marked_of_ofTokens? {tokens : Tokens} {fault : Unexpected} (hn : tokens.Named)
    (h : ofTokens? tokens = .error fault) :
    ∃ before after, tokens.marked = before ++ (fault.found, fault.offset) :: after ∧
      IsStart (before.map Prod.fst) ∧ ¬IsStart (before.map Prod.fst ++ [fault.found]) := by
  rcases bind_eq_error_iff.1 h with hr | ⟨⟨e, rest, hlt⟩, hr, h⟩
  · obtain ⟨before, after, hm, ⟨ls, ⟨e, he, rfl⟩, hp⟩, hwrong⟩ :=
      failsAt_of_readExpr tokens hr hn
    refine ⟨before, after, hm, ⟨e, he, hp.trans (List.prefix_append _ _)⟩, ?_⟩
    intro hs
    obtain ⟨e', he', hp'⟩ := hs
    exact hwrong _ _ ⟨e', he', rfl⟩ notOpening_marker hp'
  · obtain ⟨passed, hm, hp⟩ := exists_passed_of_readExpr hr hn
    have he := (lexemes_of_readExpr tokens hr hn).2
    cases rest with
    | stop offset => cases h
    | cons lexeme offset inner =>
      cases h
      refine ⟨passed, inner.marked, hm, ⟨e, he, ?_⟩, ?_⟩
      · rw [hp]
        exact List.prefix_append _ _
      · -- The expression is complete, so that only the marker could follow.
        intro hs
        obtain ⟨e', he', t, ht⟩ := hs
        rw [hp, List.append_assoc] at ht
        have hopening (ha : e.isAtomic) : NotOpening (some lexeme :: t) :=
          notOpening_of_readExpr hr ha
        obtain ⟨-, hl⟩ := he.unambiguous e' _ _ he' hopening (fun _ => notOpening_marker) ht
        cases hl

/-- A text with tokens that is no type is refused at the first token with which its tokens start no
type any more. This is the end of the text if all the tokens start a longer type. -/
theorem first_misplaced_reported {text : String} {tokens : Tokens}
    (ht : Tokens.ofText? text = .ok tokens) (hr : ∀ e, ofText? text ≠ .ok e) :
    ∃ fault k, ofText? text = .error (.unexpected fault) ∧
      IsLeast {k | tokens.MisplacedAt k} k ∧
      tokens.marked[k]? = some (fault.found, fault.offset) ∧
      (fault.found = none ↔ ∃ e : TypeExpr, e.WellNamed ∧ tokens.lexemes <+: e.lexemes ∧
        tokens.lexemes ≠ e.lexemes) ∧
      (fault.found = none → fault.offset = text.utf8ByteSize) ∧
      (ReadFault.unexpected fault).reason = "expected " ++ fault.expected.describe
        ++ " but found " ++ fault.found.elim "end of input" (fun lexeme => quote lexeme.text)
        ++ " at offset " ++ toString fault.offset := by
  have hn : tokens.Named := (spells_of_ofPieces ht).2
  obtain ⟨fault, ho⟩ : ∃ fault, ofTokens? tokens = .error fault := by
    cases ho : ofTokens? tokens with
    | ok e => exact absurd (ofText?_eq_ok_iff.2 ⟨tokens, ht, ho⟩) (hr e)
    | error fault => exact ⟨fault, rfl⟩
  have hof : ofText? text = .error (.unexpected fault) := by
    rw [ofText?, ht]
    exact congrArg (Except.mapError ReadFault.unexpected) ho
  have hproper (e : TypeExpr) (he : e.WellNamed) : tokens.lexemes ≠ e.lexemes := by
    intro hl
    rw [(ofTokens?_eq_ok_iff hn).2 ⟨he, hl⟩] at ho
    cases ho
  obtain ⟨before, after, hm, hright, hwrong⟩ := exists_marked_of_ofTokens? hn ho
  have hget : tokens.marked[before.length]? = some (fault.found, fault.offset) := by
    rw [hm, List.getElem?_append_right (Nat.le_refl _), Nat.sub_self]
    rfl
  have hend : fault.found = none ↔ ∃ e : TypeExpr, e.WellNamed ∧ tokens.lexemes <+: e.lexemes ∧
      tokens.lexemes ≠ e.lexemes := by
    rw [Tokens.eq_none_iff_of_marked_eq hm hright hwrong, isStart_map_some_iff]
    exact exists_congr fun e => and_congr_right fun he => (and_iff_left (hproper e he)).symm
  have hsize (hnone : fault.found = none) : fault.offset = text.utf8ByteSize := by
    rw [hnone] at hm
    exact Tokens.eq_size_of_marked_eq ht hm
  refine ⟨fault, before.length, hof, Tokens.isLeast_of_marked_eq hm hright hwrong, hget, hend,
    hsize, ?_⟩
  cases hf : fault.found with
  | none => simp only [ReadFault.reason, hf, Option.elim_none]
  | some lexeme => simp only [ReadFault.reason, hf, Option.elim_some]

/-- A second name behind an argument is misplaced, and so is the end of the text where a bracket is
left open. -/
theorem name_and_end_misplaced :
    (∃ tokens k, Tokens.ofText? "Map<K,Vec<V> W>" = .ok tokens ∧
      ofText? "Map<K,Vec<V> W>" = .error (.unexpected ⟨.separator, some (.name "W"), 13⟩) ∧
      IsLeast {k | tokens.MisplacedAt k} k ∧ tokens.marked[k]? = some (some (.name "W"), 13)) ∧
    ∃ tokens k, Tokens.ofText? "Map<K,Vec<V>" = .ok tokens ∧
      ofText? "Map<K,Vec<V>" = .error (.unexpected ⟨.separator, none, 12⟩) ∧
      IsLeast {k | tokens.MisplacedAt k} k ∧ tokens.marked[k]? = some (none, 12) ∧
      ∃ e : TypeExpr, e.WellNamed ∧ tokens.lexemes <+: e.lexemes ∧ tokens.lexemes ≠ e.lexemes := by
  have hfails (text : String) (tokens : Tokens) (fault : Unexpected)
      (ht : Tokens.ofText? text = .ok tokens) (hr : ofTokens? tokens = .error fault) :
      ofText? text = .error (.unexpected fault) := by
    rw [ofText?, ht]
    exact congrArg (·.mapError ReadFault.unexpected) hr
  constructor
  · let tokens : Tokens := .cons (.name "Map") 0 (.cons .less 3 (.cons (.name "K") 4
      (.cons .comma 5 (.cons (.name "Vec") 6 (.cons .less 9 (.cons (.name "V") 10
        (.cons .greater 11 (.cons (.name "W") 13 (.cons .greater 14 (.stop 15))))))))))
    have ht : Tokens.ofText? "Map<K,Vec<V> W>" = .ok tokens := rfl
    have hr : ofTokens? tokens = .error ⟨.separator, some (.name "W"), 13⟩ := by
      simp [tokens, ofTokens?, readExpr, readArgs, unexpected, Tokens.head, bind, Except.bind,
        pure, Except.pure]
    have hname := hfails _ _ _ ht hr
    have hnot : ∀ e, ofText? "Map<K,Vec<V> W>" ≠ .ok e := by simp [hname]
    obtain ⟨fault, k, hf, hk, hget, -⟩ := first_misplaced_reported ht hnot
    obtain rfl := ReadFault.unexpected.inj (Except.error.inj (hf.symm.trans hname))
    exact ⟨tokens, k, ht, hname, hk, hget⟩
  · let tokens : Tokens := .cons (.name "Map") 0 (.cons .less 3 (.cons (.name "K") 4
      (.cons .comma 5 (.cons (.name "Vec") 6 (.cons .less 9 (.cons (.name "V") 10
        (.cons .greater 11 (.stop 12))))))))
    have ht : Tokens.ofText? "Map<K,Vec<V>" = .ok tokens := rfl
    have hr : ofTokens? tokens = .error ⟨.separator, none, 12⟩ := by
      simp [tokens, ofTokens?, readExpr, readArgs, unexpected, Tokens.head, bind, Except.bind,
        pure, Except.pure]
    have hend := hfails _ _ _ ht hr
    have hnot : ∀ e, ofText? "Map<K,Vec<V>" ≠ .ok e := by simp [hend]
    obtain ⟨fault, k, hf, hk, hget, hlonger, -⟩ := first_misplaced_reported ht hnot
    obtain rfl := ReadFault.unexpected.inj (Except.error.inj (hf.symm.trans hend))
    exact ⟨tokens, k, ht, hend, hk, hget, hlonger.1 rfl⟩

end NodeSchema.TypeExpr
