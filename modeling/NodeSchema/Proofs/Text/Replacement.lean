import NodeSchema.Code.Basic
import NodeSchema.Proofs.Visitor.Words

namespace NodeSchema.Text

/-- Every occurrence of a text is replaced, from left to right. The given number of characters
belongs to an occurrence that has been replaced already. -/
def replaceFrom (old new : List Char) : Nat → List Char → List Char
  | _, [] => []
  | skip + 1, _ :: cs => replaceFrom old new skip cs
  | 0, c :: cs =>
    if old.isPrefixOf (c :: cs) then new ++ replaceFrom old new (old.length - 1) cs
    else c :: replaceFrom old new 0 cs

def replace (old new s : String) : String :=
  String.ofList (replaceFrom old.toList new.toList 0 s.toList)

section Replacing

variable {old new : List Char}

theorem replaceFrom_append (passed cs : List Char) :
    replaceFrom old new passed.length (passed ++ cs) = replaceFrom old new 0 cs := by
  induction passed with
  | nil => rfl
  | cons c passed ih => rw [List.cons_append, List.length_cons, replaceFrom, ih]

theorem replaceFrom_old_append (hne : old ≠ []) (cs : List Char) :
    replaceFrom old new 0 (old ++ cs) = new ++ replaceFrom old new 0 cs := by
  obtain ⟨c, rest, rfl⟩ := List.exists_cons_of_ne_nil hne
  have hp : (c :: rest).isPrefixOf (c :: (rest ++ cs)) :=
    List.isPrefixOf_iff_prefix.2 ⟨cs, rfl⟩
  rw [List.cons_append, replaceFrom, if_pos hp, List.length_cons, Nat.add_sub_cancel,
    replaceFrom_append]

theorem replaceFrom_cons {c : Char} {cs : List Char} (h : ¬old <+: c :: cs) :
    replaceFrom old new 0 (c :: cs) = c :: replaceFrom old new 0 cs := by
  rw [replaceFrom, if_neg fun hp => h (List.isPrefixOf_iff_prefix.1 hp)]

end Replacing

/-- Two texts that are the same up to their lifetimes: where the one has the first lifetime, the
other has the second, and the anonymous lifetime stands in both. -/
inductive Renamed (first second : List Char) : List Char → List Char → Prop where
  | nil : Renamed first second [] []
  | char {c : Char} {s t : List Char} (hc : c ≠ '\'') (h : Renamed first second s t) :
      Renamed first second (c :: s) (c :: t)
  | lifetime {s t : List Char} (h : Renamed first second s t) :
      Renamed first second ('\'' :: first ++ s) ('\'' :: second ++ t)
  | anonymous {s t : List Char} (h : Renamed first second s t) :
      Renamed first second ('\'' :: '_' :: '>' :: s) ('\'' :: '_' :: '>' :: t)

namespace Renamed

variable {first second s t s' t' : List Char}

theorem append (h : Renamed first second s t) (h' : Renamed first second s' t') :
    Renamed first second (s ++ s') (t ++ t') := by
  induction h with
  | nil => exact h'
  | char hc _ ih => exact .char hc ih
  | lifetime _ ih =>
    rw [List.append_assoc, List.append_assoc]
    exact .lifetime ih
  | anonymous _ ih => exact .anonymous ih

theorem refl (h : '\'' ∉ s) : Renamed first second s s := by
  induction s with
  | nil => exact .nil
  | cons c s ih =>
    have hc : c ≠ '\'' := fun he => h (he ▸ List.mem_cons_self)
    exact .char hc (ih fun hm => h (List.mem_cons_of_mem c hm))

theorem not_prefix_anonymous (hn : isName first) (hne : first ≠ ['_']) :
    ¬ '\'' :: first <+: '\'' :: '_' :: '>' :: s := by
  intro h
  obtain ⟨-, h⟩ := List.cons_prefix_cons.1 h
  cases first with
  | nil => cases hn
  | cons c rest =>
    obtain ⟨hc, h⟩ := List.cons_prefix_cons.1 h
    cases rest with
    | nil => exact hne (congrArg ([·]) hc)
    | cons d rest =>
      have hd : d = '>' := (List.cons_prefix_cons.1 h).1
      have hw := List.all_eq_true.1 (all_isAsciiWordChar_of_isName hn) d (by simp)
      rw [hd] at hw
      exact absurd hw (by decide)

/-- Replacing the first lifetime by the second leads from the one text to the other. -/
theorem replaceFrom_eq (hn : isName first) (hne : first ≠ ['_'])
    (h : Renamed first second s t) :
    replaceFrom ('\'' :: first) ('\'' :: second) 0 s = t := by
  have hstart {c : Char} {cs : List Char} (hc : c ≠ '\'') : ¬ '\'' :: first <+: c :: cs :=
    fun hp => hc (List.cons_prefix_cons.1 hp).1.symm
  induction h with
  | nil => rfl
  | char hc _ ih => rw [replaceFrom_cons (hstart hc), ih]
  | lifetime _ ih => rw [replaceFrom_old_append (List.cons_ne_nil _ _), ih]
  | anonymous _ ih =>
    rw [replaceFrom_cons (not_prefix_anonymous hn hne), replaceFrom_cons (hstart (by decide)),
      replaceFrom_cons (hstart (by decide)), ih]

end Renamed

/-- The same for strings. -/
def SameBut (first second s t : String) : Prop :=
  Renamed first.toList second.toList s.toList t.toList

/-- A text without quotes. -/
def Unquoted (s : String) : Prop := '\'' ∉ s.toList

instance (s : String) : Decidable (Unquoted s) := inferInstanceAs (Decidable (_ ∉ _))

theorem Unquoted.fixed {cs : List Char} (h : cs.contains '\'' = false) :
    Unquoted (String.ofList cs) := by
  rw [Unquoted, String.toList_ofList, ← List.contains_iff_mem, h]
  exact Bool.false_ne_true

theorem IsWord.unquoted {s : String} (h : IsWord s) : Unquoted s := by
  intro hm
  exact absurd (List.all_eq_true.1 h.2 _ hm) (by decide)

theorem unquoted_of_isIdentifier {s : String} (h : isIdentifier s) : Unquoted s :=
  (isWord_of_isIdentifier h).unquoted

theorem unquoted_snakeCase {s : String} (h : isIdentifier s) : Unquoted (snakeCase s) := by
  intro hm
  exact absurd (List.all_eq_true.1 (all_isWordChar_snakeCase h) _ hm) (by decide)

theorem Unquoted.append {s t : String} (hs : Unquoted s) (ht : Unquoted t) :
    Unquoted (s ++ t) := by
  rw [Unquoted, String.toList_append, List.mem_append]
  exact not_or.2 ⟨hs, ht⟩

theorem Unquoted.between {before behind : List Char} {s : String} (h : Unquoted s)
    (hb : before.contains '\'' = false) (hs : behind.contains '\'' = false) :
    Unquoted (String.ofList before ++ s ++ String.ofList behind) :=
  ((fixed hb).append h).append (fixed hs)

theorem unquoted_blanks (n : Nat) : Unquoted (String.ofList (List.replicate n ' ')) := by
  rw [Unquoted, String.toList_ofList, List.mem_replicate]
  exact fun h => absurd h.2 (by decide)

theorem Unquoted.indent {s : String} (level : Nat) (h : Unquoted s) :
    Unquoted (Code.indent level s) :=
  (unquoted_blanks (4 * level)).append h

namespace SameBut

variable {first second s t s' t' : String}

theorem append (h : SameBut first second s t) (h' : SameBut first second s' t') :
    SameBut first second (s ++ s') (t ++ t') := by
  rw [SameBut, String.toList_append, String.toList_append]
  exact Renamed.append h h'

theorem of_unquoted (h : Unquoted s) : SameBut first second s s := Renamed.refl h

theorem fixed {cs : List Char} (h : cs.contains '\'' = false) :
    SameBut first second (String.ofList cs) (String.ofList cs) :=
  of_unquoted (.fixed h)

theorem lifetime : SameBut first second ("'" ++ first) ("'" ++ second) := by
  have hnil : Renamed first.toList second.toList [] [] := .nil
  rw [SameBut, String.toList_append, String.toList_append]
  simpa using hnil.lifetime

theorem around {before behind : String} (hb : Unquoted before) (hs : Unquoted behind) :
    SameBut first second (before ++ ("'" ++ first) ++ behind)
      (before ++ ("'" ++ second) ++ behind) :=
  ((of_unquoted hb).append lifetime).append (of_unquoted hs)

theorem intercalate {separator : String} {ss ts : List String}
    (hs : Unquoted separator)
    (h : List.Forall₂ (SameBut first second) ss ts) :
    SameBut first second (separator.intercalate ss) (separator.intercalate ts) := by
  induction h with
  | nil =>
    rw [String.intercalate_nil]
    exact fixed rfl
  | @cons s t ss ts hst hrest ih =>
    cases hrest with
    | nil => rwa [String.intercalate_singleton, String.intercalate_singleton]
    | cons hst' hrest =>
      rw [String.intercalate_cons_cons, String.intercalate_cons_cons]
      exact (hst.append (of_unquoted hs)).append ih

theorem indent (level : Nat) (h : SameBut first second s t) :
    SameBut first second (Code.indent level s) (Code.indent level t) :=
  (of_unquoted (unquoted_blanks (4 * level))).append h

theorem text {lines others : List String} (h : List.Forall₂ (SameBut first second) lines others) :
    SameBut first second (Code.text lines) (Code.text others) := by
  induction h with
  | nil => exact fixed rfl
  | @cons line other lines others hl _ ih =>
    rw [Code.text_cons, Code.text_cons]
    exact (hl.append (fixed rfl)).append ih

/-- Replacing the one lifetime by the other changes nothing else. -/
theorem replace_eq (hu : isUsable first) (h : SameBut first second s t) :
    replace ("'" ++ first) ("'" ++ second) s = t := by
  have hne : first.toList ≠ ['_'] := by
    intro he
    have hkeyword : isUsable first = false := by
      rw [← String.ofList_toList (s := first), he]
      decide
    rw [hkeyword] at hu
    cases hu
  have hreplace := Renamed.replaceFrom_eq (isIdentifier_of_isUsable hu) hne h
  rw [replace, String.toList_append, String.toList_append]
  exact (congrArg String.ofList hreplace).trans String.ofList_toList

example : replace "'a" "'ab" "pub struct Ab<'a>(&'a str); impl Ab<'_>" =
    "pub struct Ab<'ab>(&'ab str); impl Ab<'_>" := by decide

end SameBut

end NodeSchema.Text
