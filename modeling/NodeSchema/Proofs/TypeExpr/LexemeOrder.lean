import NodeSchema.Proofs.TypeExpr.Spelling

namespace NodeSchema.TypeExpr

open Text (isAsciiWordChar isIdentifier all_isAsciiWordChar_of_isName)

/-- Which lexeme can stand right after another. -/
def Lexeme.Next : Lexeme → Lexeme → Prop
  | .name _, .name _ => False
  | .name _, _ => True
  | .greater, .greater => True
  | .greater, .comma => True
  | .greater, _ => False
  | _, .name _ => True
  | _, _ => False

theorem lexemes_eq_cons (e : TypeExpr) : ∃ name ls, e.lexemes = .name name :: ls := by
  cases e with
  | atomic name => exact ⟨name, [], rfl⟩
  | generic container args => exact ⟨container, _, rfl⟩

theorem isChain_cons_lexemes_append {e : TypeExpr} {l : Lexeme} {rest : List Lexeme}
    (hl : ∀ name, l.Next (.name name)) (h : (e.lexemes ++ rest).IsChain Lexeme.Next) :
    (l :: (e.lexemes ++ rest)).IsChain Lexeme.Next := by
  obtain ⟨name, ls, he⟩ := e.lexemes_eq_cons
  rw [he] at h ⊢
  exact .cons_cons (hl name) h

theorem WellNamed.isChain_append {e : TypeExpr} (he : e.WellNamed) {rest : List Lexeme}
    (hr : (Lexeme.greater :: rest).IsChain Lexeme.Next) :
    (e.lexemes ++ rest).IsChain Lexeme.Next := by
  induction he generalizing rest with
  | @atomic name hn =>
    cases rest with
    | nil => exact .singleton _
    | cons l rest =>
      rw [List.isChain_cons_cons] at hr
      have hnext : (Lexeme.name name).Next l := by
        cases l with
        | name => exact hr.1.elim
        | less | greater | comma => trivial
      exact .cons_cons hnext hr.2
  | @generic container args hn hne ha ih =>
    obtain ⟨first, others, rfl⟩ := List.exists_cons_of_ne_nil hne
    have hmore : (Lexeme.greater :: (moreLexemes others ++ .greater :: rest)).IsChain
        Lexeme.Next := by
      have hi (arg : TypeExpr) (hm : arg ∈ others) := @ih arg (List.mem_cons_of_mem _ hm)
      clear ih ha hne
      induction others with
      | nil => exact .cons_cons trivial hr
      | cons other others ihm =>
        have hrest := ihm fun arg hm => hi arg (List.mem_cons_of_mem _ hm)
        have hother := hi other List.mem_cons_self hrest
        rw [moreLexemes_cons, List.cons_append, List.append_assoc]
        exact .cons_cons trivial (isChain_cons_lexemes_append (fun _ => trivial) hother)
    have hfirst := ih first List.mem_cons_self hmore
    rw [lexemes_generic, List.cons_append, List.cons_append, List.append_assoc, List.append_assoc]
    exact .cons_cons trivial (isChain_cons_lexemes_append (fun _ => trivial) hfirst)

theorem WellNamed.isChain {e : TypeExpr} (he : e.WellNamed) : e.lexemes.IsChain Lexeme.Next := by
  have h : (e.lexemes ++ []).IsChain Lexeme.Next := he.isChain_append (.singleton _)
  rwa [List.append_nil] at h

/-- No expression ends in an opening bracket or a comma. -/
theorem WellNamed.isChain_append_greater {e : TypeExpr} (he : e.WellNamed) :
    (e.lexemes ++ [Lexeme.greater]).IsChain Lexeme.Next :=
  he.isChain_append (.cons_cons trivial (.singleton _))

theorem WellNamed.isIdentifier_of_mem {e : TypeExpr} (he : e.WellNamed) {name : String}
    (h : Lexeme.name name ∈ e.lexemes) : isIdentifier name := by
  induction he with
  | @atomic n hn =>
    obtain rfl : name = n := by simpa [lexemes] using h
    exact hn
  | @generic container args hn hne ha ih =>
    obtain ⟨first, others, rfl⟩ := List.exists_cons_of_ne_nil hne
    simp only [lexemes_generic, moreLexemes, List.mem_cons, List.mem_append, List.mem_flatMap,
      Lexeme.name.injEq, reduceCtorEq, false_or, List.not_mem_nil, or_false] at h
    rcases h with rfl | h | ⟨arg, hm, h⟩
    · exact hn
    · exact ih first List.mem_cons_self h
    · exact ih arg (List.mem_cons_of_mem _ hm) h

/-- Brackets that close one another: no closing one comes before the one it closes. -/
structure Nested (cs : List Char) : Prop where
  count_eq : cs.count '>' = cs.count '<'
  count_le : ∀ p, p <+: cs → p.count '>' ≤ p.count '<'

namespace Nested

theorem nil : Nested [] where
  count_eq := rfl
  count_le p hp := by
    rw [List.prefix_nil.1 hp]
    exact Nat.le_refl _

theorem append {a b : List Char} (ha : Nested a) (hb : Nested b) : Nested (a ++ b) where
  count_eq := by rw [List.count_append, List.count_append, ha.count_eq, hb.count_eq]
  count_le p hp := by
    rcases List.prefix_or_prefix_of_prefix hp (List.prefix_append a b) with h | ⟨q, rfl⟩
    · exact ha.count_le p h
    · have := hb.count_le q ((List.prefix_append_right_inj a).1 hp)
      have := ha.count_eq
      rw [List.count_append, List.count_append]
      omega

theorem enclose {a : List Char} (ha : Nested a) : Nested ('<' :: (a ++ ['>'])) where
  count_eq := by
    have := ha.count_eq
    simp [List.count_append, this]
  count_le p hp := by
    rcases List.prefix_cons_iff.1 hp with rfl | ⟨q, rfl, hq⟩
    · exact Nat.le_refl _
    rcases List.prefix_concat_iff.1 hq with rfl | hq
    · have := ha.count_eq
      simp [List.count_append, this]
    · have := ha.count_le q hq
      simp only [List.count_cons_self, List.count_cons_of_ne (show '<' ≠ '>' by decide)]
      omega

end Nested

def isBracket (c : Char) : Bool := c == '<' || c == '>'

/-- The brackets of a list of lexemes. -/
def brackets (ls : List Lexeme) : List Char := (ls.flatMap (·.text.toList)).filter isBracket

theorem brackets_append (a b : List Lexeme) : brackets (a ++ b) = brackets a ++ brackets b := by
  rw [brackets, List.flatMap_append, List.filter_append, ← brackets, ← brackets]

theorem brackets_name {name : String} (h : isIdentifier name) : brackets [.name name] = [] := by
  have hw := all_isAsciiWordChar_of_isName h
  rw [List.all_eq_true] at hw
  rw [brackets, List.flatMap_singleton, List.filter_eq_nil_iff]
  intro c hc hb
  have := hw c hc
  simp only [isBracket, Bool.or_eq_true, beq_iff_eq] at hb
  rcases hb with rfl | rfl <;> simp [isAsciiWordChar] at this

theorem WellNamed.nested {e : TypeExpr} (he : e.WellNamed) : Nested (brackets e.lexemes) := by
  induction he with
  | atomic hn =>
    rw [lexemes, brackets_name hn]
    exact .nil
  | @generic container args hn hne ha ih =>
    obtain ⟨first, others, rfl⟩ := List.exists_cons_of_ne_nil hne
    have hmore : Nested (brackets (moreLexemes others)) := by
      have hi (arg : TypeExpr) (hm : arg ∈ others) := ih arg (List.mem_cons_of_mem _ hm)
      clear ih ha hne
      induction others with
      | nil => exact .nil
      | cons other others ihm =>
        have hrest := ihm fun arg hm => hi arg (List.mem_cons_of_mem _ hm)
        have hother := hi other List.mem_cons_self
        rw [moreLexemes_cons, ← List.singleton_append, brackets_append, brackets_append]
        exact hother.append hrest
    have hfirst := ih first List.mem_cons_self
    rw [lexemes_generic]
    have hsplit : brackets (.name container :: .less :: (first.lexemes ++ (moreLexemes others ++
        [.greater]))) =
          '<' :: (brackets first.lexemes ++ brackets (moreLexemes others) ++ ['>']) := by
      rw [← List.singleton_append, brackets_append, brackets_name hn, ← List.singleton_append,
        brackets_append, brackets_append, brackets_append, List.append_assoc]
      rfl
    rw [hsplit]
    exact (hfirst.append hmore).enclose

end NodeSchema.TypeExpr
