import Mathlib.Logic.Function.Iterate
import NodeSchema.Proofs.TypeExpr.Misplaced

namespace NodeSchema.TypeExpr

open Text (isIdentifier)

/-- What the text of a token is tested for. -/
inductive Test where
  | name
  | less
  | greater
  | comma
  | stop

def Test.accepts : Test → String → Bool
  | name, text => isIdentifier text
  | less, text => text = "<"
  | greater, text => text = ">"
  | comma, text => text = ","
  | stop, text => text = ""

/-- A call that waits for one of its arguments: where it has begun, its container, and the arguments
that it has. -/
structure Pending where
  start : Nat
  container : String
  args : List TypeExpr

def Pending.add (call : Pending) (arg : TypeExpr) : Pending :=
  { call with args := call.args ++ [arg] }

/-- A test that failed: what it was for, and the token under the cursor. -/
abbrev Refusal : Type := Expected × String × Nat

/-- What the descent does next. -/
inductive Phase where
  /-- A call begins; its name is tested for. -/
  | enter
  /-- The name of a call has been taken; it may be a container. -/
  | opening (start : Nat) (name : String)
  /-- A call has come back. If no other one waits for it, the end of the input is tested for, else
  a further argument. -/
  | leave (start : Nat) (type : TypeExpr)
  /-- A call has all its arguments. -/
  | closing (call : Pending)
  | ended (outcome : Except Refusal TypeExpr)

/-- A descent on its way, with the calls that wait. No step keeps the index within the tokens. -/
structure Cursor where
  index : Nat
  pending : List Pending
  phase : Phase

namespace Tokens

theorem length_pos (tokens : Tokens) : 0 < tokens.length := by
  cases tokens with
  | stop offset => exact Nat.one_pos
  | cons lexeme offset rest => exact Nat.succ_pos _

theorem length_toList (tokens : Tokens) : tokens.toList.length = tokens.length := by
  induction tokens with
  | stop offset => rfl
  | cons lexeme offset rest ih => rw [toList, List.length_cons, ih, length]

/-- The token at an index, or else the last one. -/
def current (tokens : Tokens) (index : Nat) : String × Nat :=
  tokens.toList.get ⟨min index (tokens.length - 1), by
    have := tokens.length_pos
    rw [length_toList]
    omega⟩

end Tokens

namespace Cursor

/-- One test of a token. The cursor moves on if the token is what is tested for. -/
def step (tokens : Tokens) (c : Cursor) : Cursor :=
  let found := tokens.current c.index
  match c.phase with
  | .enter =>
    if Test.name.accepts found.1 then ⟨c.index + 1, c.pending, .opening c.index found.1⟩
    else { c with phase := .ended (.error (.identifier, found)) }
  | .opening start name =>
    if Test.less.accepts found.1 then ⟨c.index + 1, ⟨start, name, []⟩ :: c.pending, .enter⟩
    else { c with phase := .leave start (.atomic name) }
  | .leave _ type =>
    match c.pending with
    | call :: pending =>
      if Test.comma.accepts found.1 then ⟨c.index + 1, call.add type :: pending, .enter⟩
      else ⟨c.index, pending, .closing (call.add type)⟩
    | [] =>
      if Test.stop.accepts found.1 then ⟨c.index + 1, [], .ended (.ok type)⟩
      else { c with phase := .ended (.error (.endOfInput, found)) }
  | .closing call =>
    if Test.greater.accepts found.1 then
      ⟨c.index + 1, c.pending, .leave call.start (.generic call.container call.args)⟩
    else { c with phase := .ended (.error (.separator, found)) }
  | .ended _ => c

/-- The first call begins at the first token. -/
def start : Cursor := ⟨0, [], .enter⟩

/-- The cursor after a number of tests. -/
def after (tokens : Tokens) (k : Nat) : Cursor := (step tokens)^[k] start

/-- A cursor is brought to another one by a number of tests within a bound. -/
def Reaches (tokens : Tokens) (bound : Nat) (c c' : Cursor) : Prop :=
  ∃ k ≤ bound, (step tokens)^[k] c = c'

/-- Within a number of tests the descent has ended with an outcome. -/
def Ends (tokens : Tokens) (bound : Nat) (c : Cursor) (outcome : Except Refusal TypeExpr) : Prop :=
  ∃ c', Reaches tokens bound c c' ∧ c'.phase = .ended outcome

variable {tokens : Tokens} {m n : Nat} {c c' c'' : Cursor} {outcome : Except Refusal TypeExpr}

theorem Reaches.trans (h : Reaches tokens m c c') (h' : Reaches tokens n c' c'') :
    Reaches tokens (m + n) c c'' := by
  obtain ⟨k, hk, rfl⟩ := h
  obtain ⟨k', hk', rfl⟩ := h'
  exact ⟨k' + k, by omega, Function.iterate_add_apply _ _ _ _⟩

theorem Reaches.mono (h : Reaches tokens m c c') (hle : m ≤ n) : Reaches tokens n c c' := by
  obtain ⟨k, hk, hc⟩ := h
  exact ⟨k, Nat.le_trans hk hle, hc⟩

theorem Reaches.of_step (h : c.step tokens = c') : Reaches tokens 1 c c' :=
  ⟨1, Nat.le_refl 1, h⟩

theorem Reaches.ends (h : Reaches tokens m c c') (h' : Ends tokens n c' outcome) :
    Ends tokens (m + n) c outcome := by
  obtain ⟨c'', hc, hp⟩ := h'
  exact ⟨c'', h.trans hc, hp⟩

theorem Ends.mono (h : Ends tokens m c outcome) (hle : m ≤ n) : Ends tokens n c outcome := by
  obtain ⟨c', hc, hp⟩ := h
  exact ⟨c', hc.mono hle, hp⟩

theorem Ends.of_step (h : (c.step tokens).phase = .ended outcome) : Ends tokens 1 c outcome :=
  ⟨c.step tokens, .of_step rfl, h⟩

theorem Ends.phase_iterate (h : Ends tokens m c outcome) (hle : m ≤ n) :
    ((step tokens)^[n] c).phase = .ended outcome := by
  obtain ⟨c', ⟨k, hk, rfl⟩, hp⟩ := h
  have hfixed (c : Cursor) (hc : c.phase = .ended outcome) : c.step tokens = c := by
    rw [step, hc]
  obtain ⟨d, rfl⟩ := Nat.exists_eq_add_of_le (hk.trans hle)
  rw [Nat.add_comm, Function.iterate_add_apply, Function.iterate_fixed (hfixed _ hp)]
  exact hp

end Cursor

/-- A lexeme that can stand in a text: a name is an identifier. -/
def Lexeme.Proper (l : Lexeme) : Prop := ∀ name, l = .name name → isIdentifier name

theorem Tokens.Named.proper {tokens : Tokens} (h : tokens.Named) {l : Lexeme}
    (hm : l ∈ tokens.lexemes) : l.Proper := by
  rintro name rfl
  exact h name hm

/-- The lexeme that a test takes a text for. -/
def Test.lexeme? (text : String) : Test → Option Lexeme
  | name => some (.name text)
  | less => some .less
  | greater => some .greater
  | comma => some .comma
  | stop => none

namespace Lexeme.Proper

variable {l m : Lexeme}

theorem text_inj (hl : l.Proper) (hm : m.Proper) : l.text = m.text ↔ l = m := by
  constructor
  · intro h
    cases l with
    | name text =>
      have ht := hl text rfl
      cases m with
      | name text' => exact congrArg Lexeme.name h
      | less | greater | comma =>
        obtain rfl : text = _ := h
        revert ht
        decide
    | less | greater | comma =>
      cases m with
      | name text =>
        obtain rfl : _ = text := h
        have ht := hm _ rfl
        revert ht
        decide
      | less | greater | comma =>
        revert h
        decide
  · exact congrArg Lexeme.text

theorem accepts_iff (hl : l.Proper) (test : Test) :
    test.accepts l.text ↔ test.lexeme? l.text = some l := by
  have hmark (m : Lexeme) (hm : ∀ name, m ≠ .name name) :
      decide (l.text = m.text) ↔ some m = some l := by
    have hproper : m.Proper := fun name he => absurd he (hm name)
    rw [decide_eq_true_iff, hl.text_inj hproper, Option.some_inj, eq_comm]
  cases test with
  | name =>
    cases l with
    | name text => exact iff_of_true (hl text rfl) rfl
    | less | greater | comma => decide
  | less => exact hmark .less nofun
  | greater => exact hmark .greater nofun
  | comma => exact hmark .comma nofun
  | stop =>
    have hne : l.text ≠ "" := by
      intro h
      obtain ⟨c, hc, -⟩ := Lexeme.exists_not_isBlank hl
      rw [h] at hc
      cases hc
    exact iff_of_false (decide_eq_true_iff.not.2 hne) nofun

end Lexeme.Proper

/-- The index at which a rest of the tokens begins. -/
def Tokens.place (tokens rest : Tokens) : Nat := tokens.length - rest.length

/-- The text of a token and its offset; the marker has no text. -/
def written (token : Option Lexeme × Nat) : String × Nat :=
  ((token.1.map Lexeme.text).getD "", token.2)

theorem Tokens.toList_eq_map_marked (tokens : Tokens) :
    tokens.toList = tokens.marked.map written := by
  induction tokens with
  | stop offset => rfl
  | cons lexeme offset rest ih =>
    rw [toList, marked, List.map_cons, ih]
    rfl

section Rest

variable {tokens rest : Tokens} (h : rest.marked <:+ tokens.marked)
include h

theorem length_le_of_suffix : rest.length ≤ tokens.length := by
  have hle := (h.map written).length_le
  rwa [← Tokens.toList_eq_map_marked, ← Tokens.toList_eq_map_marked, Tokens.length_toList,
    Tokens.length_toList] at hle

theorem Tokens.Named.of_suffix (hn : tokens.Named) : rest.Named := by
  intro name hm
  apply hn name
  have hsub := (h.map Prod.fst).subset
  simp only [map_fst_marked] at hsub
  have := hsub (List.mem_append_left _ (List.mem_map_of_mem hm))
  simpa using this

theorem current_place : tokens.current (tokens.place rest) = written rest.head := by
  have hle := length_le_of_suffix h
  have hpos := rest.length_pos
  obtain ⟨before, hb⟩ := h.map written
  rw [← Tokens.toList_eq_map_marked, ← Tokens.toList_eq_map_marked] at hb
  have hlength := congrArg List.length hb
  rw [List.length_append, Tokens.length_toList, Tokens.length_toList] at hlength
  have hindex : min (tokens.place rest) (tokens.length - 1) = before.length := by
    rw [Tokens.place]
    omega
  obtain ⟨after, ha⟩ := rest.exists_marked_eq
  rw [Tokens.current, List.get_eq_getElem]
  simp only [hindex, ← hb]
  simp [Tokens.toList_eq_map_marked, ha]

end Rest

theorem Tokens.suffix_inner {tokens inner : Tokens} {lexeme : Lexeme} {offset : Nat}
    (h : (Tokens.cons lexeme offset inner).marked <:+ tokens.marked) :
    inner.marked <:+ tokens.marked :=
  (List.suffix_cons _ _).trans h

theorem Tokens.place_cons {tokens inner : Tokens} {lexeme : Lexeme} {offset : Nat}
    (h : (Tokens.cons lexeme offset inner).marked <:+ tokens.marked) :
    tokens.place (.cons lexeme offset inner) + 1 = tokens.place inner := by
  have hle := length_le_of_suffix h
  simp only [place, length] at hle ⊢
  omega

section Steps

variable {tokens : Tokens} {rest inner : Tokens} {offset : Nat}

open Cursor

theorem refuses_place (test : Test) (hn : tokens.Named) (hs : rest.marked <:+ tokens.marked)
    (hstop : test.accepts "" = false)
    (hlexeme : ∀ lexeme offset inner, rest = .cons lexeme offset inner →
      test.lexeme? lexeme.text ≠ some lexeme) :
    test.accepts (tokens.current (tokens.place rest)).1 = false := by
  rw [current_place hs]
  cases rest with
  | stop offset => exact hstop
  | cons lexeme offset inner =>
    have hl := (hn.of_suffix hs).proper List.mem_cons_self
    rw [Bool.eq_false_iff]
    exact (hl.accepts_iff test).not.2 (hlexeme lexeme offset inner rfl)

theorem reaches_enter {name : String} (pending : List Pending) (hn : tokens.Named)
    (hs : (Tokens.cons (.name name) offset inner).marked <:+ tokens.marked) :
    Reaches tokens 1 ⟨tokens.place (.cons (.name name) offset inner), pending, .enter⟩
      ⟨tokens.place inner, pending,
        .opening (tokens.place (.cons (.name name) offset inner)) name⟩ := by
  have hi : isIdentifier name := hn.of_suffix hs name List.mem_cons_self
  apply Reaches.of_step
  rw [step, current_place hs, ← Tokens.place_cons hs]
  exact if_pos hi

theorem reaches_opening (pending : List Pending) (start : Nat) (name : String)
    (hs : (Tokens.cons .less offset inner).marked <:+ tokens.marked) :
    Reaches tokens 1 ⟨tokens.place (.cons .less offset inner), pending, .opening start name⟩
      ⟨tokens.place inner, ⟨start, name, []⟩ :: pending, .enter⟩ := by
  apply Reaches.of_step
  rw [step, current_place hs, ← Tokens.place_cons hs]
  rfl

theorem reaches_opened {container : String} {offset' : Nat} (pending : List Pending)
    (hn : tokens.Named)
    (hs : (Tokens.cons (.name container) offset (.cons .less offset' inner)).marked <:+
      tokens.marked) :
    let start := tokens.place (.cons (.name container) offset (.cons .less offset' inner))
    Reaches tokens 2 ⟨start, pending, .enter⟩
      ⟨tokens.place inner, ⟨start, container, []⟩ :: pending, .enter⟩ :=
  (reaches_enter pending hn hs).trans (reaches_opening pending _ container (Tokens.suffix_inner hs))

theorem reaches_leave (pending : List Pending) (start : Nat) (name : String) (hn : tokens.Named)
    (hs : rest.marked <:+ tokens.marked)
    (hless : ∀ offset inner, rest ≠ .cons .less offset inner) :
    Reaches tokens 1 ⟨tokens.place rest, pending, .opening start name⟩
      ⟨tokens.place rest, pending, .leave start (.atomic name)⟩ := by
  have hrefused := refuses_place .less hn hs rfl
  apply Reaches.of_step
  rw [step, hrefused]
  · rfl
  · intro lexeme offset inner he hl
    cases hl
    exact hless offset inner he

theorem reaches_further (call : Pending) (pending : List Pending) (start : Nat) (type : TypeExpr)
    (hs : (Tokens.cons .comma offset inner).marked <:+ tokens.marked) :
    Reaches tokens 1
      ⟨tokens.place (.cons .comma offset inner), call :: pending, .leave start type⟩
      ⟨tokens.place inner, call.add type :: pending, .enter⟩ := by
  apply Reaches.of_step
  rw [step, current_place hs, ← Tokens.place_cons hs]
  rfl

theorem reaches_closing (call : Pending) (pending : List Pending) (start : Nat) (type : TypeExpr)
    (hn : tokens.Named) (hs : rest.marked <:+ tokens.marked)
    (hcomma : ∀ offset inner, rest ≠ .cons .comma offset inner) :
    Reaches tokens 1 ⟨tokens.place rest, call :: pending, .leave start type⟩
      ⟨tokens.place rest, pending, .closing (call.add type)⟩ := by
  have hrefused := refuses_place .comma hn hs rfl
  apply Reaches.of_step
  simp only [step]
  rw [hrefused]
  · rfl
  · intro lexeme offset inner he hl
    cases hl
    exact hcomma offset inner he

theorem reaches_closed (call : Pending) (pending : List Pending)
    (hs : (Tokens.cons .greater offset inner).marked <:+ tokens.marked) :
    Reaches tokens 1 ⟨tokens.place (.cons .greater offset inner), pending, .closing call⟩
      ⟨tokens.place inner, pending, .leave call.start (.generic call.container call.args)⟩ := by
  apply Reaches.of_step
  rw [step, current_place hs, ← Tokens.place_cons hs]
  rfl

/-- What the reader reports of tokens that cannot go on like this, by their first one. -/
def Unexpected.told (fault : Unexpected) : Refusal :=
  (fault.expected, written (fault.found, fault.offset))

theorem ends_enter (pending : List Pending) (hn : tokens.Named) (hs : rest.marked <:+ tokens.marked)
    (hname : ∀ name offset inner, rest ≠ .cons (.name name) offset inner) :
    Ends tokens 1 ⟨tokens.place rest, pending, .enter⟩
      (.error (Unexpected.mk .identifier rest.head.1 rest.head.2).told) := by
  have hrefused := refuses_place .name hn hs rfl
  apply Ends.of_step
  rw [step, hrefused, current_place hs]
  · rfl
  · intro lexeme offset inner he hl
    rw [← Option.some.inj hl] at he
    exact hname lexeme.text offset inner he

theorem ends_closing (call : Pending) (pending : List Pending) (hn : tokens.Named)
    (hs : rest.marked <:+ tokens.marked)
    (hgreater : ∀ offset inner, rest ≠ .cons .greater offset inner) :
    Ends tokens 1 ⟨tokens.place rest, pending, .closing call⟩
      (.error (Unexpected.mk .separator rest.head.1 rest.head.2).told) := by
  have hrefused := refuses_place .greater hn hs rfl
  apply Ends.of_step
  rw [step, hrefused, current_place hs]
  · rfl
  · intro lexeme offset inner he hl
    cases hl
    exact hgreater offset inner he

theorem ends_stop (start : Nat) (type : TypeExpr)
    (hs : (Tokens.stop offset).marked <:+ tokens.marked) :
    Ends tokens 1 ⟨tokens.place (.stop offset), [], .leave start type⟩ (.ok type) := by
  apply Ends.of_step
  simp only [step]
  rw [current_place hs]
  rfl

theorem ends_left {lexeme : Lexeme} (start : Nat) (type : TypeExpr) (hn : tokens.Named)
    (hs : (Tokens.cons lexeme offset inner).marked <:+ tokens.marked) :
    Ends tokens 1 ⟨tokens.place (.cons lexeme offset inner), [], .leave start type⟩
      (.error (Unexpected.mk .endOfInput (some lexeme) offset).told) := by
  have hl : lexeme.Proper := (hn.of_suffix hs).proper List.mem_cons_self
  have hrefused : ¬Test.stop.accepts lexeme.text := (hl.accepts_iff .stop).not.2 nofun
  apply Ends.of_step
  simp only [step]
  rw [current_place hs]
  exact congrArg Cursor.phase (if_neg hrefused)

end Steps

section Calls

variable {tokens : Tokens} (hn : tokens.Named)
include hn

open Cursor

mutual

/-- Where the reader takes a type, a call comes back with it. -/
theorem reaches_of_readExpr (rest : Tokens) (hs : rest.marked <:+ tokens.marked) {e : TypeExpr}
    {behind : rest.Rest} (h : readExpr rest = .ok (e, behind)) (pending : List Pending) :
    Reaches tokens (2 * (rest.length - behind.1.length)) ⟨tokens.place rest, pending, .enter⟩
      ⟨tokens.place behind.1, pending, .leave (tokens.place rest) e⟩ := by
  rw [readExpr.eq_def] at h
  split at h
  · next container offset offset' inner =>
    obtain ⟨⟨first, afterFirst, hlt⟩, hf, h⟩ := bind_eq_ok_iff.1 h
    obtain ⟨⟨others, behind', hlt'⟩, ho, h⟩ := bind_eq_ok_iff.1 h
    cases h
    have hs' := Tokens.suffix_inner (Tokens.suffix_inner hs)
    have hrest := (suffix_of_readExpr inner hf).trans hs'
    let call : Pending :=
      ⟨tokens.place (.cons (.name container) offset (.cons .less offset' inner)), container, []⟩
    have hopened := reaches_opened pending hn hs
    have hfirst := reaches_of_readExpr inner hs' hf (call :: pending)
    have hothers :=
      reaches_of_readArgs afterFirst hrest ho call pending (tokens.place inner) first
    apply ((hopened.trans hfirst).trans hothers).mono
    simp only [Tokens.length]
    omega
  · next name offset behind' hless =>
    cases h
    have hleft := reaches_leave pending (tokens.place (.cons (.name name) offset behind')) name hn
      (Tokens.suffix_inner hs) hless
    apply ((reaches_enter pending hn hs).trans hleft).mono
    simp only [Tokens.length]
    omega
  · cases h
termination_by rest.length
decreasing_by all_goals subst_vars; simp only [Tokens.length]; omega

theorem reaches_of_readArgs (rest : Tokens) (hs : rest.marked <:+ tokens.marked)
    {args : List TypeExpr} {behind : rest.Rest} (h : readArgs rest = .ok (args, behind))
    (call : Pending) (pending : List Pending) (start : Nat) (e : TypeExpr) :
    Reaches tokens (2 * (rest.length - behind.1.length))
      ⟨tokens.place rest, call :: pending, .leave start e⟩
      ⟨tokens.place behind.1, pending,
        .leave call.start (.generic call.container (call.args ++ e :: args))⟩ := by
  rw [readArgs.eq_def] at h
  split at h
  · next offset inner =>
    obtain ⟨⟨arg, afterArg, hlt⟩, ha, h⟩ := bind_eq_ok_iff.1 h
    obtain ⟨⟨others, behind', hlt'⟩, ho, h⟩ := bind_eq_ok_iff.1 h
    cases h
    have hs' := Tokens.suffix_inner hs
    have hrest := (suffix_of_readExpr inner ha).trans hs'
    have harg := reaches_of_readExpr inner hs' ha (call.add e :: pending)
    have hothers :=
      reaches_of_readArgs afterArg hrest ho (call.add e) pending (tokens.place inner) arg
    have hall := ((reaches_further call pending start e hs).trans harg).trans hothers
    rw [Pending.add, List.append_assoc] at hall
    apply hall.mono
    simp only [Tokens.length]
    omega
  · next offset behind' =>
    cases h
    have hclosing := reaches_closing call pending start e hn hs nofun
    apply (hclosing.trans (reaches_closed (call.add e) pending hs)).mono
    simp only [Tokens.length]
    omega
  · cases h
termination_by rest.length
decreasing_by all_goals subst_vars; simp only [Tokens.length]; omega

end

mutual

/-- Where the reader takes no type, the descent ends with what the reader reports. -/
theorem ends_of_readExpr (rest : Tokens) (hs : rest.marked <:+ tokens.marked) {fault : Unexpected}
    (h : readExpr rest = .error fault) (pending : List Pending) :
    Ends tokens (2 * rest.length) ⟨tokens.place rest, pending, .enter⟩ (.error fault.told) := by
  rw [readExpr.eq_def] at h
  split at h
  · next container offset offset' inner =>
    have hs' := Tokens.suffix_inner (Tokens.suffix_inner hs)
    let call : Pending :=
      ⟨tokens.place (.cons (.name container) offset (.cons .less offset' inner)), container, []⟩
    have hopened := reaches_opened pending hn hs
    rcases bind_eq_error_iff.1 h with hf | ⟨⟨first, afterFirst, hlt⟩, hf, h⟩
    · apply (hopened.ends (ends_of_readExpr inner hs' hf (call :: pending))).mono
      simp only [Tokens.length]
      omega
    · have ho := (bind_eq_error_iff.1 h).resolve_right nofun
      have hrest := (suffix_of_readExpr inner hf).trans hs'
      have hfirst := reaches_of_readExpr hn inner hs' hf (call :: pending)
      have hothers := ends_of_readArgs afterFirst hrest ho call pending (tokens.place inner) first
      apply ((hopened.trans hfirst).ends hothers).mono
      simp only [Tokens.length]
      omega
  · next => cases h
  · next hgeneric hatomic =>
    cases h
    apply (ends_enter pending hn hs hatomic).mono
    have := rest.length_pos
    omega
termination_by rest.length
decreasing_by all_goals subst_vars; simp only [Tokens.length]; omega

theorem ends_of_readArgs (rest : Tokens) (hs : rest.marked <:+ tokens.marked) {fault : Unexpected}
    (h : readArgs rest = .error fault) (call : Pending) (pending : List Pending) (start : Nat)
    (e : TypeExpr) :
    Ends tokens (2 * rest.length) ⟨tokens.place rest, call :: pending, .leave start e⟩
      (.error fault.told) := by
  rw [readArgs.eq_def] at h
  split at h
  · next offset inner =>
    have hs' := Tokens.suffix_inner hs
    have hfurther := reaches_further call pending start e hs
    rcases bind_eq_error_iff.1 h with ha | ⟨⟨arg, afterArg, hlt⟩, ha, h⟩
    · apply (hfurther.ends (ends_of_readExpr inner hs' ha (call.add e :: pending))).mono
      simp only [Tokens.length]
      omega
    · have ho := (bind_eq_error_iff.1 h).resolve_right nofun
      have hrest := (suffix_of_readExpr inner ha).trans hs'
      have harg := reaches_of_readExpr hn inner hs' ha (call.add e :: pending)
      have hothers :=
        ends_of_readArgs afterArg hrest ho (call.add e) pending (tokens.place inner) arg
      apply ((hfurther.trans harg).ends hothers).mono
      simp only [Tokens.length]
      omega
  · next => cases h
  · next hcomma hgreater =>
    cases h
    have hclosing := reaches_closing call pending start e hn hs hcomma
    apply (hclosing.ends (ends_closing (call.add e) pending hn hs hgreater)).mono
    have := rest.length_pos
    omega
termination_by rest.length
decreasing_by all_goals subst_vars; simp only [Tokens.length]; omega

end

end Calls

end NodeSchema.TypeExpr
