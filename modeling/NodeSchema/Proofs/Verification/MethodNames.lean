import NodeSchema.Proofs.Verification.Precedence
import NodeSchema.Proofs.Visitor.Words

namespace NodeSchema

namespace Text

section Ascii

variable {c : Char}

theorem lowerCase_of_isAsciiWordChar (h : isAsciiWordChar c) : lowerCase c = [c.toLower] := by
  rw [lowerCase, if_pos (toNat_lt_of_isAsciiWordChar h)]

theorem isUpper_toLower (h : isAsciiWordChar c) : isUpper c.toLower = false :=
  forall_isAsciiWordChar (p := fun c => isUpper c.toLower = false) (by decide) h

theorem toLower_eq_self (h : isAsciiWordChar c) (hu : isUpper c = false) : c.toLower = c :=
  forall_isAsciiWordChar (p := fun c => isUpper c = false → c.toLower = c) (by decide) h hu

theorem toLower_ne_underscore (h : isAsciiWordChar c) (hc : c ≠ '_') : c.toLower ≠ '_' :=
  forall_isAsciiWordChar (p := fun c => c ≠ '_' → c.toLower ≠ '_') (by decide) h hc

theorem isNameStart_toLower (h : isNameStart c) : isNameStart c.toLower :=
  forall_isAsciiWordChar (p := fun c => isNameStart c → isNameStart c.toLower) (by decide)
    (isAsciiWordChar_of_isNameStart h) h

theorem ne_underscore_of_isUpper (h : isUpper c) : c ≠ '_' := by
  rintro rfl
  exact absurd h (by decide)

end Ascii

/-- The letters and digits of a name in small form. -/
def letters (s : String) : List Char := (s.toList.map Char.toLower).filter (· != '_')

/-- A result consists of the characters of a text and of underscores that have been added to it,
which are marked. None of these is the first or the last character or stands next to another
underscore. -/
structure Spacing (text result : List Char) (marked : List (Char × Bool)) : Prop where
  result : marked.map Prod.fst = result
  kept : (marked.filter fun m => !m.2).map Prod.fst = text
  added : ∀ m ∈ marked, m.2 → m.1 = '_'
  not_first : ∀ m ∈ marked.head?, !m.2
  not_last : ∀ m ∈ marked.getLast?, !m.2
  apart : marked.IsChain fun m n => m.2 ∨ n.2 → m.1 ≠ '_' ∨ n.1 ≠ '_'

theorem Spacing.filter_eq {text result : List Char} {marked : List (Char × Bool)}
    (h : Spacing text result marked) : result.filter (· != '_') = text.filter (· != '_') := by
  rw [← h.result, ← h.kept, List.filter_map, List.filter_map, List.filter_filter]
  apply congrArg
  apply List.filter_congr
  intro m hm
  have hadded := h.added m hm
  cases hb : m.2 with
  | false => simp
  | true => simp [hadded hb]

/-- The characters of snake case, those marked that have been added. -/
def markedFrom (before : Option Char) : List Char → List (Char × Bool)
  | [] => []
  | c :: cs =>
    (if isUpper c && startsWord before cs then [('_', true)] else []) ++
      (c.toLower, false) :: markedFrom (some c) cs

section Names

variable {before : Option Char} {cs : List Char}

theorem map_fst_markedFrom (h : ∀ c ∈ cs, isAsciiWordChar c) :
    (markedFrom before cs).map Prod.fst = snakeFrom before cs := by
  induction cs generalizing before with
  | nil => rfl
  | cons c cs ih =>
    rw [List.forall_mem_cons] at h
    rw [markedFrom, List.map_append, List.map_cons, ih h.2]
    cases hu : isUpper c with
    | false =>
      rw [snakeFrom_cons_of_not_isUpper hu, toLower_eq_self h.1 hu]
      rfl
    | true =>
      rw [snakeFrom_cons_of_isUpper hu, lowerCase_of_isAsciiWordChar h.1, List.append_assoc,
        List.singleton_append, Bool.true_and]
      split
      · rfl
      · rfl

theorem kept_markedFrom (before : Option Char) (cs : List Char) :
    ((markedFrom before cs).filter fun m => !m.2).map Prod.fst = cs.map Char.toLower := by
  induction cs generalizing before with
  | nil => rfl
  | cons c cs ih =>
    rw [markedFrom, List.filter_append, List.map_append, List.map_cons]
    split
    · simp [ih]
    · simp [ih]

theorem exists_of_startsWord (h : startsWord before cs) : ∃ p, before = some p ∧ p ≠ '_' := by
  cases before with
  | none => cases h
  | some p => exact ⟨p, rfl, by simpa using (Bool.and_eq_true_iff.1 h).1⟩

theorem added_markedFrom (before : Option Char) (cs : List Char) :
    ∀ m ∈ markedFrom before cs, m.2 → m.1 = '_' := by
  induction cs generalizing before with
  | nil => exact List.forall_mem_nil _
  | cons c cs ih =>
    rw [markedFrom, List.forall_mem_append, List.forall_mem_cons]
    refine ⟨?_, nofun, ih (some c)⟩
    split
    · exact List.forall_mem_singleton.2 fun _ => rfl
    · exact List.forall_mem_nil _

theorem not_last_markedFrom (before : Option Char) (cs : List Char) :
    ∀ m ∈ (markedFrom before cs).getLast?, !m.2 := by
  induction cs generalizing before with
  | nil => exact fun _ h => nomatch h
  | cons c cs ih =>
    intro m hm
    rw [markedFrom, List.getLast?_append, List.getLast?_cons, Option.some_or] at hm
    obtain rfl := Option.some.inj hm
    cases hlast : (markedFrom (some c) cs).getLast? with
    | none => rfl
    | some m => exact ih (some c) m hlast

theorem apart_markedFrom {p : Char} (hp : isAsciiWordChar p) (h : ∀ c ∈ cs, isAsciiWordChar c) :
    ((p.toLower, false) :: markedFrom (some p) cs).IsChain
      fun m n => m.2 ∨ n.2 → m.1 ≠ '_' ∨ n.1 ≠ '_' := by
  induction cs generalizing p with
  | nil => exact .singleton _
  | cons c cs ih =>
    rw [List.forall_mem_cons] at h
    have hrest := ih h.1 h.2
    rw [markedFrom]
    split
    next hs =>
      obtain ⟨hu, hs⟩ := Bool.and_eq_true_iff.1 hs
      obtain ⟨q, hq, hne⟩ := exists_of_startsWord hs
      obtain rfl := Option.some.inj hq
      have hbehind : p.toLower ≠ '_' := toLower_ne_underscore hp hne
      have hcapital : c.toLower ≠ '_' := toLower_ne_underscore h.1 (ne_underscore_of_isUpper hu)
      exact .cons_cons (fun _ => .inl hbehind) (.cons_cons (fun _ => .inr hcapital) hrest)
    next => exact .cons_cons (fun hm => by simp at hm) hrest

theorem isUpper_eq_false_of_mem_snakeFrom (h : ∀ c ∈ cs, isAsciiWordChar c) :
    ∀ c ∈ snakeFrom before cs, isUpper c = false := by
  induction cs generalizing before with
  | nil => exact List.forall_mem_nil _
  | cons c cs ih =>
    rw [List.forall_mem_cons] at h
    cases hu : isUpper c with
    | false =>
      rw [snakeFrom_cons_of_not_isUpper hu]
      exact List.forall_mem_cons.2 ⟨hu, ih h.2⟩
    | true =>
      rw [snakeFrom_cons_of_isUpper hu, lowerCase_of_isAsciiWordChar h.1, List.append_assoc,
        List.forall_mem_append]
      constructor
      · split
        · exact List.forall_mem_singleton.2 (by decide)
        · exact List.forall_mem_nil _
      · exact List.forall_mem_cons.2 ⟨isUpper_toLower h.1, ih h.2⟩

theorem snakeFrom_eq_self (h : ∀ c ∈ cs, isUpper c = false) : snakeFrom before cs = cs := by
  induction cs generalizing before with
  | nil => rfl
  | cons c cs ih =>
    rw [List.forall_mem_cons] at h
    rw [snakeFrom_cons_of_not_isUpper h.1, ih h.2]

end Names

section Identifiers

variable {s : String}

theorem spacing_snakeCase (h : isIdentifier s) :
    Spacing (s.toList.map Char.toLower) (snakeCase s).toList (markedFrom none s.toList) := by
  have hall := List.all_eq_true.1 (all_isAsciiWordChar_of_isName h)
  have hfirst : ∃ c cs, s.toList = c :: cs := List.exists_cons_of_ne_nil (ne_nil_of_isName h)
  obtain ⟨c, cs, hs⟩ := hfirst
  -- No word starts before the first character, so that nothing is added there.
  have hmarked : markedFrom none (c :: cs) = (c.toLower, false) :: markedFrom (some c) cs := by
    simp [markedFrom, startsWord]
  rw [toList_snakeCase]
  constructor
  case result => exact map_fst_markedFrom hall
  case kept => exact kept_markedFrom none s.toList
  case added => exact added_markedFrom none s.toList
  case not_first =>
    rw [hs, hmarked]
    intro m hm
    obtain rfl := Option.some.inj hm
    rfl
  case not_last => exact not_last_markedFrom none s.toList
  case apart =>
    rw [hs, List.forall_mem_cons] at hall
    rw [hs, hmarked]
    exact apart_markedFrom hall.1 hall.2

theorem isUpper_eq_false_of_mem_snakeCase (h : isIdentifier s) :
    ∀ c ∈ (snakeCase s).toList, isUpper c = false := by
  rw [toList_snakeCase]
  exact isUpper_eq_false_of_mem_snakeFrom (List.all_eq_true.1 (all_isAsciiWordChar_of_isName h))

/-- No underscore is added in front, so that a name starts as it did. -/
theorem isIdentifier_snakeCase (h : isIdentifier s) : isIdentifier (snakeCase s) := by
  have hall := all_isAsciiWordChar_snakeCase h
  rw [toList_snakeCase] at hall
  rw [isIdentifier] at h ⊢
  rw [toList_snakeCase]
  cases hs : s.toList with
  | nil => simp [hs, isName] at h
  | cons c cs =>
    rw [hs] at h hall
    obtain ⟨hstart, -⟩ := Bool.and_eq_true_iff.1 h
    have hc := isAsciiWordChar_of_isNameStart hstart
    obtain ⟨rest, hrest⟩ : ∃ rest, snakeFrom none (c :: cs) = c.toLower :: rest := by
      cases hu : isUpper c with
      | false =>
        rw [snakeFrom_cons_of_not_isUpper hu, toLower_eq_self hc hu]
        exact ⟨_, rfl⟩
      | true =>
        rw [snakeFrom_cons_of_isUpper hu, lowerCase_of_isAsciiWordChar hc]
        exact ⟨_, rfl⟩
    rw [hrest] at hall ⊢
    rw [List.all_cons, Bool.and_eq_true] at hall
    exact Bool.and_eq_true_iff.2 ⟨isNameStart_toLower hstart, hall.2⟩

theorem snakeCase_snakeCase (h : isIdentifier s) : snakeCase (snakeCase s) = snakeCase s := by
  rw [← String.toList_inj, toList_snakeCase]
  exact snakeFrom_eq_self (isUpper_eq_false_of_mem_snakeCase h)

theorem filter_snakeCase (h : isIdentifier s) :
    (snakeCase s).toList.filter (· != '_') = letters s :=
  (spacing_snakeCase h).filter_eq

end Identifiers

end Text

namespace Schema

open Text (Spacing isIdentifier isIdentifier_of_isUsable isUpper letters snakeCase)

/-- The two nodes of a shared method have identifiers for names, since the earlier one has passed
its own checks. -/
theorem exists_of_sharedMethod {schema : Schema} {options : Options} {name method other : String}
    (h : schema.verify options = .error (.declaration (.sharedMethod name method other))) :
    isIdentifier name ∧ isIdentifier other ∧ method = snakeCase name ∧
      snakeCase other = snakeCase name := by
  have hnames : Stage.names.HasFault schema options _ := hasFault_of_verify h rfl
  obtain ⟨before, d, after, -, hbefore, hd⟩ := hnames
  cases hd with
  | @sharedMethod e hf _ _ he _ hsame =>
    obtain ⟨front, back, hsplit⟩ := List.append_of_mem he
    have hu : Text.isUsable e.name := by
      by_contra hnot
      exact hbefore front e back hsplit _ (.noIdentifier hnot)
    exact ⟨isIdentifier_of_isUsable hf.usable, isIdentifier_of_isUsable hu, rfl, hsame⟩

/-- The snake case of an identifier is a small identifier with the same letters and digits, and with
the same underscores besides the ones that it adds between two other characters; it has itself for
its snake case. Hence nodes that are refused for a shared method have the same letters and digits
up to case. -/
theorem method_names_spaced :
    (∀ s, isIdentifier s →
      (isIdentifier (snakeCase s) ∧ ∀ c ∈ (snakeCase s).toList, isUpper c = false) ∧
      (snakeCase s).toList.filter (· != '_') = letters s ∧
      (∃ marked, Spacing (s.toList.map Char.toLower) (snakeCase s).toList marked) ∧
      snakeCase (snakeCase s) = snakeCase s) ∧
    ∀ (schema : Schema) options name method other,
      schema.verify options = .error (.declaration (.sharedMethod name method other)) →
        letters name = letters other := by
  constructor
  · intro s h
    have hsmall := Text.isUpper_eq_false_of_mem_snakeCase h
    exact ⟨⟨Text.isIdentifier_snakeCase h, hsmall⟩, Text.filter_snakeCase h,
      ⟨_, Text.spacing_snakeCase h⟩, Text.snakeCase_snakeCase h⟩
  · intro schema options name method other h
    obtain ⟨hname, hother, -, hsame⟩ := exists_of_sharedMethod h
    rw [← Text.filter_snakeCase hname, ← Text.filter_snakeCase hother, hsame]

/-- A run of capitals is one word; where there is an underscore already, none is added. -/
theorem jsx_element_shared :
    let schema : Schema := ⟨[.record "JSXElement" [⟨"name", .atomic "Ident"⟩],
      .union "Jsx_Element" [⟨"Text", [.atomic "Ident"]⟩]]⟩
    isIdentifier "JSXElement" ∧ snakeCase "JSXElement" = "jsx_element" ∧
    (∃ marked, Spacing "jsxelement".toList "jsx_element".toList marked) ∧
    snakeCase "jsx_element" = "jsx_element" ∧
    schema.verify .default =
      .error (.declaration (.sharedMethod "Jsx_Element" "jsx_element" "JSXElement")) ∧
    letters "Jsx_Element" = letters "JSXElement" := by
  intro schema
  have hname : isIdentifier "JSXElement" := by decide
  have hsnake : snakeCase "JSXElement" = "jsx_element" := by decide
  have hshared : schema.verify .default =
      .error (.declaration (.sharedMethod "Jsx_Element" "jsx_element" "JSXElement")) := rfl
  obtain ⟨hspaced, hclash⟩ := method_names_spaced
  obtain ⟨-, -, hspacing, hagain⟩ := hspaced "JSXElement" hname
  rw [hsnake] at hspacing hagain
  exact ⟨hname, hsnake, hspacing, hagain, hshared, hclash _ _ _ _ _ hshared⟩

end Schema

end NodeSchema
