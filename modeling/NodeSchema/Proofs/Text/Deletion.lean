import NodeSchema.Proofs.Text.Replacement

namespace NodeSchema.Text

/-- The places where occurrences of a text are deleted, from left to right: each is the number of
characters that are left before it, of which some are given. The second number of characters belongs
to an occurrence that has been deleted already. -/
def cutsFrom (old : List Char) : Nat → Nat → List Char → List Nat
  | _, _, [] => []
  | kept, skip + 1, _ :: cs => cutsFrom old kept skip cs
  | kept, 0, c :: cs =>
    if old.isPrefixOf (c :: cs) then kept :: cutsFrom old kept (old.length - 1) cs
    else cutsFrom old (kept + 1) 0 cs

def cuts (old s : String) : List Nat := cutsFrom old.toList 0 0 s.toList

section Cutting

variable {old : List Char}

theorem cutsFrom_append (kept : Nat) (passed cs : List Char) :
    cutsFrom old kept passed.length (passed ++ cs) = cutsFrom old kept 0 cs := by
  induction passed with
  | nil => rfl
  | cons c passed ih => rw [List.cons_append, List.length_cons, cutsFrom, ih]

theorem cutsFrom_old_append (hne : old ≠ []) (kept : Nat) (cs : List Char) :
    cutsFrom old kept 0 (old ++ cs) = kept :: cutsFrom old kept 0 cs := by
  obtain ⟨c, rest, rfl⟩ := List.exists_cons_of_ne_nil hne
  have hp : (c :: rest).isPrefixOf (c :: (rest ++ cs)) :=
    List.isPrefixOf_iff_prefix.2 ⟨cs, rfl⟩
  rw [List.cons_append, cutsFrom, if_pos hp, List.length_cons, Nat.add_sub_cancel,
    cutsFrom_append]

theorem cutsFrom_cons {c : Char} {cs : List Char} (h : ¬old <+: c :: cs) (kept : Nat) :
    cutsFrom old kept 0 (c :: cs) = cutsFrom old (kept + 1) 0 cs := by
  rw [cutsFrom, if_neg fun hp => h (List.isPrefixOf_iff_prefix.1 hp)]

end Cutting

/-- A lifetime in its brackets. -/
def inBrackets (name : List Char) : List Char := '<' :: '\'' :: (name ++ ['>'])

/-- The first text is the second with a lifetime put in at the given places. No other quotes stand
in it. -/
inductive Marked (name : List Char) : List Char → List Char → List Nat → Prop where
  | nil : Marked name [] [] []
  | char {c : Char} {s t : List Char} {places : List Nat} (hc : c ≠ '\'')
      (h : Marked name s t places) : Marked name (c :: s) (c :: t) (places.map (· + 1))
  | lifetime {s t : List Char} {places : List Nat} (h : Marked name s t places) :
      Marked name (inBrackets name ++ s) t (0 :: places)

theorem inBrackets_ne_nil (name : List Char) : inBrackets name ≠ [] := List.cons_ne_nil _ _

namespace Marked

variable {name s t s' t' : List Char} {places places' : List Nat}

theorem append (h : Marked name s t places) (h' : Marked name s' t' places') :
    Marked name (s ++ s') (t ++ t') (places ++ places'.map (· + t.length)) := by
  induction h with
  | nil => simpa using h'
  | @char c s t places hc _ ih =>
    have hplaces : (places'.map (· + t.length)).map (· + 1) =
        places'.map (· + (c :: t).length) := by
      rw [List.map_map]
      rfl
    rw [← hplaces, ← List.map_append]
    exact .char hc ih
  | lifetime _ ih =>
    rw [List.append_assoc]
    exact .lifetime ih

theorem refl (h : '\'' ∉ s) : Marked name s s [] := by
  induction s with
  | nil => exact .nil
  | cons c s ih =>
    have hc : c ≠ '\'' := fun he => h (he ▸ List.mem_cons_self)
    exact .char hc (ih fun hm => h (List.mem_cons_of_mem c hm))

theorem head?_ne_quote (h : Marked name s t places) : s.head? ≠ some '\'' := by
  cases h with
  | nil => exact nofun
  | char hc _ => exact fun he => hc (Option.some.inj he)
  | lifetime _ => exact nofun

/-- A lifetime begins nowhere but where it has been put in. -/
theorem not_prefix_cons {c : Char} (h : Marked name s t places) :
    ¬inBrackets name <+: c :: s := by
  intro hp
  obtain ⟨-, rest, hrest⟩ := List.cons_prefix_cons.1 hp
  exact h.head?_ne_quote (hrest ▸ rfl)

theorem replaceFrom_eq (h : Marked name s t places) :
    replaceFrom (inBrackets name) [] 0 s = t := by
  induction h with
  | nil => rfl
  | char _ h ih => rw [replaceFrom_cons h.not_prefix_cons, ih]
  | lifetime _ ih => rw [replaceFrom_old_append (inBrackets_ne_nil name), ih, List.nil_append]

/-- They are deleted where they have been put in. -/
theorem cutsFrom_eq (h : Marked name s t places) (kept : Nat) :
    cutsFrom (inBrackets name) kept 0 s = places.map (· + kept) := by
  induction h generalizing kept with
  | nil => rfl
  | char _ h ih =>
    rw [cutsFrom_cons h.not_prefix_cons, ih, List.map_map]
    exact List.map_congr_left fun n _ => by simp only [Function.comp_apply]; omega
  | lifetime _ ih =>
    rw [cutsFrom_old_append (inBrackets_ne_nil name), ih, List.map_cons, Nat.zero_add]

end Marked

/-- The same for strings. -/
def Lifetimed (lifetime s t : String) (places : List Nat) : Prop :=
  Marked lifetime.toList s.toList t.toList places

namespace Lifetimed

variable {lifetime s t s' t' : String} {places places' : List Nat}

theorem append (h : Lifetimed lifetime s t places) (h' : Lifetimed lifetime s' t' places') :
    Lifetimed lifetime (s ++ s') (t ++ t') (places ++ places'.map (· + t.length)) := by
  rw [Lifetimed, String.toList_append, String.toList_append, ← String.length_toList]
  exact Marked.append h h'

theorem of_unquoted (h : Unquoted s) : Lifetimed lifetime s s [] := Marked.refl h

theorem toList_mark (lifetime : String) :
    ("<'" ++ lifetime ++ ">").toList = inBrackets lifetime.toList := by
  rw [String.toList_append, String.toList_append]
  rfl

theorem named (h : Unquoted s) :
    Lifetimed lifetime (s ++ ("<'" ++ lifetime ++ ">")) s [s.length] := by
  have hmark : Lifetimed lifetime ("<'" ++ lifetime ++ ">") "" [0] := by
    have h : Marked lifetime.toList (inBrackets lifetime.toList ++ []) [] [0] := .lifetime .nil
    rwa [List.append_nil, ← toList_mark] at h
  have hname : Lifetimed lifetime s s [] := of_unquoted h
  have hall := hname.append hmark
  rwa [String.append_empty, List.nil_append, List.map_singleton, Nat.zero_add] at hall

theorem replace_eq (h : Lifetimed lifetime s t places) :
    replace ("<'" ++ lifetime ++ ">") "" s = t := by
  rw [replace, toList_mark, String.toList_empty, Marked.replaceFrom_eq h, String.ofList_toList]

theorem cuts_eq (h : Lifetimed lifetime s t places) :
    cuts ("<'" ++ lifetime ++ ">") s = places := by
  rw [cuts, toList_mark, Marked.cutsFrom_eq h]
  exact List.map_id places

example : cuts "<'a>" "Map<K<'a>, Vec<V<'a>>>" = [5, 12] := by decide

end Lifetimed

end NodeSchema.Text
