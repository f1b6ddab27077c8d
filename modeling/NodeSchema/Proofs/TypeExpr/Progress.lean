import NodeSchema.Proofs.TypeExpr.Cursor

namespace NodeSchema.TypeExpr

namespace Tokens

theorem length_lexemes (tokens : Tokens) : tokens.lexemes.length + 1 = tokens.length := by
  induction tokens with
  | stop offset => rfl
  | cons lexeme offset rest ih => rw [lexemes, List.length_cons, ih, length]

theorem exists_rest (tokens : Tokens) {index : Nat} (h : index < tokens.length) :
    ∃ before, ∃ rest : Tokens, before.length = index ∧ tokens.lexemes = before ++ rest.lexemes ∧
      rest.marked = tokens.marked.drop index := by
  induction tokens generalizing index with
  | stop offset =>
    obtain rfl : index = 0 := by
      rw [length] at h
      omega
    exact ⟨[], .stop offset, rfl, rfl, rfl⟩
  | cons lexeme offset inner ih =>
    cases index with
    | zero => exact ⟨[], .cons lexeme offset inner, rfl, rfl, rfl⟩
    | succ index =>
      obtain ⟨before, rest, hb, hl, hm⟩ := ih (Nat.lt_of_succ_lt_succ h)
      refine ⟨lexeme :: before, rest, ?_, ?_, hm⟩
      · rw [List.length_cons, hb]
      · rw [lexemes, hl, List.cons_append]

theorem place_eq {tokens rest : Tokens} {before : List Lexeme}
    (h : tokens.lexemes = before ++ rest.lexemes) : tokens.place rest = before.length := by
  rw [place, ← tokens.length_lexemes, ← rest.length_lexemes, h, List.length_append]
  omega

/-- Given lexemes are those from an index up to another one. -/
def Spans (tokens : Tokens) (start stop : Nat) (ls : List Lexeme) : Prop :=
  ∃ before, before.length = start ∧ before ++ ls <+: tokens.lexemes ∧ stop = start + ls.length

namespace Spans

variable {tokens : Tokens} {start mid stop : Nat} {ls ls' : List Lexeme}

theorem append (h : tokens.Spans start mid ls) (h' : tokens.Spans mid stop ls') :
    tokens.Spans start stop (ls ++ ls') := by
  obtain ⟨before, hb, hp, rfl⟩ := h
  obtain ⟨before', hb', hp', rfl⟩ := h'
  have hlength : (before ++ ls).length = before'.length := by rw [List.length_append, hb, hb']
  have hprefix : before ++ ls <+: before' :=
    List.prefix_of_prefix_length_le hp ((List.prefix_append _ _).trans hp') hlength.le
  have hbefore : before ++ ls = before' := hprefix.eq_of_length hlength
  refine ⟨before, hb, ?_, ?_⟩
  · rwa [← List.append_assoc, hbefore]
  · rw [List.length_append, Nat.add_assoc]

theorem le (h : tokens.Spans start stop ls) : stop ≤ tokens.length - 1 := by
  obtain ⟨before, rfl, hp, rfl⟩ := h
  have hle := hp.length_le
  have := tokens.length_lexemes
  rw [List.length_append] at hle
  omega

theorem lt (h : tokens.Spans start stop ls) (hne : ls ≠ []) : start < stop := by
  obtain ⟨before, rfl, hp, rfl⟩ := h
  exact Nat.lt_add_of_pos_right (List.length_pos_iff.2 hne)

theorem slice (h : tokens.Spans start stop ls) : (tokens.lexemes.take stop).drop start = ls := by
  obtain ⟨before, rfl, hp, rfl⟩ := h
  rw [← List.length_append, ← List.prefix_iff_eq_take.1 hp, List.drop_left]

end Spans

theorem spans_of_accepts {tokens : Tokens} (hn : tokens.Named) {index : Nat}
    (hi : index ≤ tokens.length - 1) (test : Test) (hstop : test.accepts "" = false)
    (h : test.accepts (tokens.current index).1) :
    ∃ l, test.lexeme? (tokens.current index).1 = some l ∧
      tokens.Spans index (index + 1) [l] := by
  obtain ⟨before, rest, rfl, hl, hm⟩ := tokens.exists_rest (Nat.lt_of_le_pred tokens.length_pos hi)
  have hs : rest.marked <:+ tokens.marked := hm ▸ List.drop_suffix _ _
  have hplace : tokens.place rest = before.length := place_eq hl
  rw [← hplace, current_place hs] at h ⊢
  cases rest with
  | stop offset => exact absurd h (Bool.eq_false_iff.1 hstop)
  | cons l offset inner =>
    have hproper : l.Proper := (hn.of_suffix hs).proper List.mem_cons_self
    refine ⟨l, (hproper.accepts_iff test).1 h, before, hplace.symm, ?_, rfl⟩
    rw [hl]
    exact ⟨inner.lexemes, (List.append_cons before l inner.lexemes).symm⟩

end Tokens

/-- What a waiting call has taken before its next argument. -/
def Pending.begun (call : Pending) : List Lexeme :=
  .name call.container :: .less :: call.args.flatMap fun arg => arg.lexemes ++ [.comma]

theorem Pending.begun_add (call : Pending) (e : TypeExpr) :
    (call.add e).begun = call.begun ++ e.lexemes ++ [.comma] := by
  simp [begun, add]

theorem flatMap_comma_append (first : TypeExpr) (others : List TypeExpr) (e : TypeExpr) :
    (first :: others).flatMap (fun arg => arg.lexemes ++ [.comma]) ++ e.lexemes =
      first.lexemes ++ moreLexemes (others ++ [e]) := by
  induction others generalizing first with
  | nil => simp [moreLexemes]
  | cons other others ih =>
    rw [List.flatMap_cons, List.append_assoc, ih, List.cons_append, moreLexemes_cons,
      List.append_assoc, List.singleton_append]

theorem Pending.lexemes_generic_add (call : Pending) (e : TypeExpr) :
    lexemes (.generic (call.add e).container (call.add e).args) =
      call.begun ++ e.lexemes ++ [.greater] := by
  obtain ⟨start, container, args⟩ := call
  cases args with
  | nil => simp [add, begun, lexemes_generic, moreLexemes]
  | cons first others =>
    have hall := flatMap_comma_append first others e
    simp only [add, begun, List.cons_append, lexemes_generic, hall, List.append_assoc]

/-- Calls that wait for an argument which begins at an index. -/
inductive Tokens.Waiting (tokens : Tokens) : List Pending → Nat → Prop where
  | nil : Waiting tokens [] 0
  | cons {call : Pending} {pending : List Pending} {index : Nat}
      (hw : Waiting tokens pending call.start) (hs : tokens.Spans call.start index call.begun) :
      Waiting tokens (call :: pending) index

theorem Tokens.Waiting.le {tokens : Tokens} {pending : List Pending} {index : Nat}
    (h : tokens.Waiting pending index) : index ≤ tokens.length - 1 := by
  cases h with
  | nil => exact Nat.zero_le _
  | cons hw hs => exact hs.le

namespace Cursor

/-- What the calls have taken is what stands before the cursor. -/
def Sound (tokens : Tokens) (c : Cursor) : Prop :=
  match c.phase with
  | .enter => tokens.Waiting c.pending c.index
  | .opening start name =>
    tokens.Waiting c.pending start ∧ tokens.Spans start c.index [.name name]
  | .leave start type => tokens.Waiting c.pending start ∧ tokens.Spans start c.index type.lexemes
  | .closing call =>
    tokens.Waiting c.pending call.start ∧ ∃ ls, tokens.Spans call.start c.index ls ∧
      lexemes (.generic call.container call.args) = ls ++ [.greater]
  | .ended _ => True

/-- The descent has not ended. -/
def Running (c : Cursor) : Prop := ∀ outcome, c.phase ≠ .ended outcome

variable {tokens : Tokens} {c : Cursor}

theorem Sound.index_le (h : c.Sound tokens) (hr : c.Running) : c.index ≤ tokens.length - 1 := by
  obtain ⟨index, pending, phase⟩ := c
  cases phase with
  | enter => exact Tokens.Waiting.le h
  | opening start name => exact h.2.le
  | leave start type => exact h.2.le
  | closing call =>
    obtain ⟨-, ls, hs, -⟩ := h
    exact hs.le
  | ended outcome => exact absurd rfl (hr outcome)

theorem Sound.step (hn : tokens.Named) (h : c.Sound tokens) : (c.step tokens).Sound tokens := by
  obtain ⟨index, pending, phase⟩ := c
  cases phase with
  | enter =>
    have hw : tokens.Waiting pending index := h
    simp only [Cursor.step]
    split
    · next haccepts =>
      obtain ⟨l, hl, hs⟩ := Tokens.spans_of_accepts hn hw.le .name rfl haccepts
      cases hl
      exact ⟨hw, hs⟩
    · trivial
  | opening start name =>
    obtain ⟨hw, hname⟩ := h
    simp only [Cursor.step]
    split
    · next haccepts =>
      obtain ⟨l, hl, hs⟩ := Tokens.spans_of_accepts hn hname.le .less rfl haccepts
      cases hl
      exact .cons hw (hname.append hs)
    · exact ⟨hw, hname⟩
  | leave start type =>
    obtain ⟨hw, htype⟩ := h
    cases hw with
    | nil =>
      simp only [Cursor.step]
      split <;> trivial
    | @cons call pending _ hw hbegun =>
      have hfilled := hbegun.append htype
      simp only [Cursor.step]
      split
      · next haccepts =>
        obtain ⟨l, hl, hs⟩ := Tokens.spans_of_accepts hn htype.le .comma rfl haccepts
        cases hl
        have hadded := hfilled.append hs
        rw [← Pending.begun_add] at hadded
        exact .cons hw hadded
      · exact ⟨hw, _, hfilled, call.lexemes_generic_add type⟩
  | closing call =>
    obtain ⟨hw, ls, hfilled, hl⟩ := h
    simp only [Cursor.step]
    split
    · next haccepts =>
      obtain ⟨l, hl', hs⟩ := Tokens.spans_of_accepts hn hfilled.le .greater rfl haccepts
      cases hl'
      have hclosed := hfilled.append hs
      rw [← hl] at hclosed
      exact ⟨hw, hclosed⟩
    · trivial
  | ended outcome => trivial

theorem sound_after (hn : tokens.Named) (k : Nat) : (after tokens k).Sound tokens := by
  induction k with
  | zero => exact Tokens.Waiting.nil
  | succ k ih =>
    rw [after, Function.iterate_succ_apply']
    exact ih.step hn

end Cursor

open Cursor

/-- A call answers as the reader does: it comes back with the type that the reader takes, and the
cursor is where the reader stops; or the descent ends with what the reader reports. -/
def Answers (tokens : Tokens) (bound : Nat) (pending : List Pending) (rest : Tokens) : Prop :=
  match readExpr rest with
  | .ok (e, behind) =>
    Reaches tokens bound ⟨tokens.place rest, pending, .enter⟩
      ⟨tokens.place behind.1, pending, .leave (tokens.place rest) e⟩
  | .error fault =>
    Ends tokens bound ⟨tokens.place rest, pending, .enter⟩ (.error fault.told)

theorem answers {tokens rest : Tokens} (hn : tokens.Named) (hs : rest.marked <:+ tokens.marked)
    (pending : List Pending) : Answers tokens (2 * rest.length) pending rest := by
  rw [Answers]
  split
  · next e behind hr =>
    apply (reaches_of_readExpr hn rest hs hr pending).mono
    omega
  · next fault hr => exact ends_of_readExpr hn rest hs hr pending

/-- The outcome of the descent is the reader's. -/
theorem ends_start {tokens : Tokens} (hn : tokens.Named) :
    Ends tokens (2 * tokens.length) start ((ofTokens? tokens).mapError Unexpected.told) := by
  have hplace : tokens.place tokens = 0 := Nat.sub_self _
  have hs : tokens.marked <:+ tokens.marked := List.suffix_rfl
  cases hr : readExpr tokens with
  | error fault =>
    have hends := ends_of_readExpr hn tokens hs hr []
    rw [hplace] at hends
    rw [ofTokens?, hr]
    exact hends
  | ok found =>
    obtain ⟨e, rest, hlt⟩ := found
    have hs' := suffix_of_readExpr tokens hr
    have hleft := reaches_of_readExpr hn tokens hs hr []
    rw [hplace] at hleft
    have hpos := rest.length_pos
    have hbound : 2 * (tokens.length - rest.length) + 1 ≤ 2 * tokens.length := by omega
    rw [ofTokens?, hr]
    cases rest with
    | stop offset => exact (hleft.ends (ends_stop 0 e hs')).mono hbound
    | cons lexeme offset inner => exact (hleft.ends (ends_left 0 e hn hs')).mono hbound

/-- The descent on the tokens of a text. A call begins at one of the tokens and comes back, or else
the descent ends; it answers as the reader does on the tokens from there on. A call that comes back
has taken the tokens of its expression, which is at least one, and not the marker. Until the descent
ends the cursor is at one of the tokens, and it ends, with the outcome of the reader. -/
theorem descent_within_tokens {text : String} {tokens : Tokens}
    (ht : Tokens.ofText? text = .ok tokens) :
    (∀ k index pending, after tokens k = ⟨index, pending, .enter⟩ →
      index ≤ tokens.length - 1 ∧
      ∃ rest : Tokens, rest.marked = tokens.marked.drop index ∧ tokens.place rest = index ∧
        Answers tokens (2 * rest.length) pending rest) ∧
    (∀ k index pending start e, after tokens k = ⟨index, pending, .leave start e⟩ →
      start + 1 ≤ index ∧ index ≤ tokens.length - 1 ∧
        (tokens.lexemes.take index).drop start = e.lexemes) ∧
    (∀ k, (after tokens k).Running →
      min (after tokens k).index (tokens.length - 1) = (after tokens k).index) ∧
    ofText? text = (ofTokens? tokens).mapError .unexpected ∧
    ∀ k ≥ 2 * tokens.length,
      (after tokens k).phase = .ended ((ofTokens? tokens).mapError Unexpected.told) := by
  have hn : tokens.Named := (spells_of_ofPieces ht).2
  refine ⟨?_, ?_, ?_, ?_, ?_⟩
  · intro k index pending hk
    have hsound := sound_after hn k
    rw [hk] at hsound
    have hi : index ≤ tokens.length - 1 := Tokens.Waiting.le hsound
    obtain ⟨before, rest, hb, hl, hm⟩ :=
      tokens.exists_rest (Nat.lt_of_le_pred tokens.length_pos hi)
    have hs : rest.marked <:+ tokens.marked := hm ▸ List.drop_suffix _ _
    exact ⟨hi, rest, hm, (Tokens.place_eq hl).trans hb, answers hn hs pending⟩
  · intro k index pending start e hk
    have hsound := sound_after hn k
    rw [hk] at hsound
    have hs : tokens.Spans start index e.lexemes := hsound.2
    obtain ⟨name, ls, hl⟩ := e.lexemes_eq_cons
    have hne : e.lexemes ≠ [] := by
      rw [hl]
      exact List.cons_ne_nil _ _
    exact ⟨hs.lt hne, hs.le, hs.slice⟩
  · intro k hr
    exact Nat.min_eq_left ((sound_after hn k).index_le hr)
  · rw [ofText?, ht]
    rfl
  · intro k hk
    exact (ends_start hn).phase_iterate hk

/-- The inner call comes back behind its closing bracket, and the descent ends with the type. -/
theorem inner_call_taken_and_ended :
    ∃ tokens, Tokens.ofText? "Map<K,Vec<V>>" = .ok tokens ∧
      after tokens 11 =
        ⟨8, [⟨0, "Map", [.atomic "K"]⟩], .leave 4 (.generic "Vec" [.atomic "V"])⟩ ∧
      (tokens.lexemes.take 8).drop 4 = lexemes (.generic "Vec" [.atomic "V"]) ∧
      (after tokens 20).phase =
        .ended (.ok (.generic "Map" [.atomic "K", .generic "Vec" [.atomic "V"]])) := by
  let tokens : Tokens := .cons (.name "Map") 0 (.cons .less 3 (.cons (.name "K") 4
    (.cons .comma 5 (.cons (.name "Vec") 6 (.cons .less 9 (.cons (.name "V") 10
      (.cons .greater 11 (.cons .greater 12 (.stop 13)))))))))
  have ht : Tokens.ofText? "Map<K,Vec<V>>" = .ok tokens := rfl
  have hr : ofTokens? tokens =
      .ok (.generic "Map" [.atomic "K", .generic "Vec" [.atomic "V"]]) := by
    simp [tokens, ofTokens?, readExpr, readArgs, bind, Except.bind, pure, Except.pure]
  have hinner : after tokens 11 =
      ⟨8, [⟨0, "Map", [.atomic "K"]⟩], .leave 4 (.generic "Vec" [.atomic "V"])⟩ := by
    simp only [after, Function.iterate_succ_apply, Function.iterate_zero_apply]
    cbv
  obtain ⟨-, hleave, -, -, hends⟩ := descent_within_tokens ht
  have hended := hends 20 (Nat.le_refl 20)
  rw [hr] at hended
  exact ⟨tokens, ht, hinner, (hleave _ _ _ _ _ hinner).2.2, hended⟩

end NodeSchema.TypeExpr
