import Mathlib.Data.List.Induction
import NodeSchema.Proofs.Success

namespace NodeSchema

variable {α β γ ε δ : Type}

/-- The fault that a computation ends with, if it fails. -/
def fault? : Except ε α → Option ε
  | .error fault => some fault
  | .ok _ => none

theorem fault?_eq_some_iff {x : Except ε α} {fault : ε} :
    fault? x = some fault ↔ x = .error fault := by
  cases x with
  | error fault' => simp [fault?]
  | ok a => simp [fault?]

theorem fault?_eq_none_iff {x : Except ε α} : fault? x = none ↔ ∃ a, x = .ok a := by
  cases x with
  | error fault => simp [fault?]
  | ok a => simp [fault?]

theorem bind_eq_error_iff {x : Except ε α} {f : α → Except ε β} {fault : ε} :
    x >>= f = .error fault ↔ x = .error fault ∨ ∃ a, x = .ok a ∧ f a = .error fault := by
  cases x with
  | error fault' =>
    have hnot : ¬∃ a, (.error fault' : Except ε α) = .ok a ∧ f a = .error fault := nofun
    rw [or_iff_left hnot, Except.error.injEq]
    exact ⟨Except.error.inj, congrArg Except.error⟩
  | ok a =>
    constructor
    · intro h
      exact .inr ⟨a, rfl, h⟩
    · intro h
      obtain ⟨a', ha, hf⟩ := h.resolve_left nofun
      obtain rfl := Except.ok.inj ha
      exact hf

theorem fault?_bind {x : Except ε α} {f : α → Except ε β} (h : ∀ a, fault? (f a) = none) :
    fault? (x >>= f) = fault? x := by
  cases x with
  | error fault => rfl
  | ok a => exact h a

theorem fault?_mapError (x : Except ε α) (f : ε → δ) :
    fault? (x.mapError f) = (fault? x).map f := by
  cases x with
  | error fault => rfl
  | ok a => rfl

theorem fault?_mapM (f : α → Except ε β) (xs : List α) :
    fault? (xs.mapM f) = xs.findSome? fun x => fault? (f x) := by
  induction xs with
  | nil => rfl
  | cons x xs ih =>
    rw [List.mapM_cons, List.findSome?_cons]
    cases hx : f x with
    | error fault => rfl
    | ok y =>
      have hrest : fault? (xs.mapM f >>= fun ys => pure (y :: ys)) = fault? (xs.mapM f) :=
        fault?_bind fun ys => rfl
      exact hrest.trans ih

theorem findSome?_flatMap (f : α → List β) (g : β → Option γ) (xs : List α) :
    (xs.flatMap f).findSome? g = xs.findSome? fun x => (f x).findSome? g := by
  induction xs with
  | nil => rfl
  | cons x xs ih =>
    rw [List.flatMap_cons, List.findSome?_append, List.findSome?_cons, ih]
    cases (f x).findSome? g with
    | none => rfl
    | some c => rfl

theorem findSome?_congr {f g : α → Option β} {xs : List α} (h : ∀ x ∈ xs, f x = g x) :
    xs.findSome? f = xs.findSome? g := by
  rw [← Function.id_comp f, ← List.findSome?_map, List.map_congr_left h, List.findSome?_map,
    Function.id_comp]

section FirstFault

variable {wrong : List α → α → β → Prop} {xs : List α} {x : α} {fault : β}

/-- Nothing is wrong with any entry of a list, each of them judged after the ones before it. -/
def Faultless (wrong : List α → α → β → Prop) (xs : List α) : Prop :=
  ∀ before x after, xs = before ++ x :: after → ∀ fault, ¬wrong before x fault

/-- Something is wrong with an entry of a list, and nothing with the ones before it. -/
def FirstFault (wrong : List α → α → β → Prop) (xs : List α) (fault : β) : Prop :=
  ∃ before x after, xs = before ++ x :: after ∧ Faultless wrong before ∧ wrong before x fault

theorem append_singleton_eq_iff {x y : α} {before after : List α} :
    xs ++ [x] = before ++ y :: after ↔ (xs = before ∧ x = y ∧ after = []) ∨
      ∃ after', after = after' ++ [x] ∧ xs = before ++ y :: after' := by
  rcases List.eq_nil_or_concat after with rfl | ⟨after', z, rfl⟩
  · have hne : ¬∃ after', [] = after' ++ [x] ∧ xs = before ++ y :: after' := by simp
    rw [or_iff_left hne, List.append_singleton_inj, and_iff_left rfl]
  · have hne : ¬(xs = before ∧ x = y ∧ after' ++ [z] = []) := by simp
    rw [List.concat_eq_append, or_iff_right hne, ← List.cons_append, ← List.append_assoc]
    simp only [List.append_singleton_inj]
    constructor
    · intro h
      obtain ⟨rfl, rfl⟩ := h
      exact ⟨after', ⟨rfl, rfl⟩, rfl⟩
    · intro h
      obtain ⟨after', ⟨rfl, rfl⟩, rfl⟩ := h
      exact ⟨rfl, rfl⟩

theorem faultless_nil : Faultless wrong [] := by
  intro before x after h
  simp at h

theorem faultless_snoc :
    Faultless wrong (xs ++ [x]) ↔ Faultless wrong xs ∧ ∀ fault, ¬wrong xs x fault := by
  simp only [Faultless, append_singleton_eq_iff]
  constructor
  · intro h
    constructor
    · intro before y after hxs
      exact h before y (after ++ [x]) (.inr ⟨after, rfl, hxs⟩)
    · exact h xs x [] (.inl ⟨rfl, rfl, rfl⟩)
  · intro h before y after hsplit
    rcases hsplit with ⟨rfl, rfl, -⟩ | ⟨after', -, hxs⟩
    · exact h.2
    · exact h.1 before y after' hxs

theorem not_firstFault_nil : ¬FirstFault wrong [] fault := by
  intro h
  obtain ⟨before, x, after, hxs, -⟩ := h
  simp at hxs

theorem firstFault_snoc : FirstFault wrong (xs ++ [x]) fault ↔
    FirstFault wrong xs fault ∨ Faultless wrong xs ∧ wrong xs x fault := by
  simp only [FirstFault, append_singleton_eq_iff]
  constructor
  · intro h
    obtain ⟨before, y, after, ⟨rfl, rfl, -⟩ | ⟨after', -, hxs⟩, hbefore, hy⟩ := h
    · exact .inr ⟨hbefore, hy⟩
    · exact .inl ⟨before, y, after', hxs, hbefore, hy⟩
  · intro h
    rcases h with ⟨before, y, after, hxs, hbefore, hy⟩ | ⟨hxs, hx⟩
    · exact ⟨before, y, after ++ [x], .inr ⟨after, rfl, hxs⟩, hbefore, hy⟩
    · exact ⟨xs, x, [], .inl ⟨rfl, rfl, rfl⟩, hxs, hx⟩

theorem FirstFault.exists_wrong (h : FirstFault wrong xs fault) :
    ∃ before x, wrong before x fault := by
  obtain ⟨before, x, -, -, -, hx⟩ := h
  exact ⟨before, x, hx⟩

theorem exists_firstFault_iff : (∃ fault, FirstFault wrong xs fault) ↔ ¬Faultless wrong xs := by
  induction xs using List.reverseRecOn with
  | nil =>
    have hnone : ¬∃ fault, FirstFault wrong [] fault := fun h => not_firstFault_nil h.choose_spec
    exact iff_of_false hnone (not_not_intro faultless_nil)
  | append_singleton xs x ih =>
    simp only [firstFault_snoc, faultless_snoc, exists_or, exists_and_left, ih]
    rw [not_and_or, not_forall_not]
    tauto

theorem faultless_const_iff {wrong : α → β → Prop} :
    Faultless (fun _ => wrong) xs ↔ ∀ x ∈ xs, ∀ fault, ¬wrong x fault := by
  constructor
  · intro h x hx
    obtain ⟨before, after, hxs⟩ := List.append_of_mem hx
    exact h before x after hxs
  · intro h before x after hxs
    exact h x (hxs ▸ List.mem_append_right _ List.mem_cons_self)

theorem findSome?_eq_some_iff_firstFault {wrong : α → β → Prop} {f : α → Option β}
    (h : ∀ x fault, f x = some fault ↔ wrong x fault) :
    xs.findSome? f = some fault ↔ FirstFault (fun _ => wrong) xs fault := by
  simp only [List.findSome?_eq_some_iff, FirstFault, faultless_const_iff, ← h,
    Option.eq_none_iff_forall_ne_some]
  constructor
  · intro h
    obtain ⟨before, x, after, hxs, hx, hbefore⟩ := h
    exact ⟨before, x, after, hxs, hbefore, hx⟩
  · intro h
    obtain ⟨before, x, after, hxs, hbefore, hx⟩ := h
    exact ⟨before, x, after, hxs, hx, hbefore⟩

/-- A run over a list fails at the first entry that it fails at. -/
theorem mapM_eq_error_iff {ε : Type} {wrong : α → ε → Prop} {f : α → Except ε β}
    (h : ∀ x fault, f x = .error fault ↔ wrong x fault) {fault : ε} :
    xs.mapM f = .error fault ↔ FirstFault (fun _ => wrong) xs fault := by
  rw [← fault?_eq_some_iff, fault?_mapM]
  apply findSome?_eq_some_iff_firstFault
  intro x fault
  rw [fault?_eq_some_iff, h]

/-- A list of faults starts with the first one of the entries. -/
def Reports (wrong : List α → α → β → Prop) (xs : List α) (faults : List β) : Prop :=
  ∀ fault, faults.head? = some fault ↔ FirstFault wrong xs fault

theorem Reports.eq_nil_iff {faults : List β} (h : Reports wrong xs faults) :
    faults = [] ↔ Faultless wrong xs := by
  rw [← not_iff_not, ← exists_firstFault_iff, ← List.head?_eq_none_iff]
  exact Option.ne_none_iff_exists'.trans (exists_congr h)

theorem reports_nil : Reports wrong [] [] := fun _ => iff_of_false nofun not_firstFault_nil

theorem Reports.snoc {faults more : List β} (h : Reports wrong xs faults)
    (hx : faults = [] → ∀ fault, more.head? = some fault ↔ wrong xs x fault) :
    Reports wrong (xs ++ [x]) (faults ++ more) := by
  intro fault
  rw [firstFault_snoc, ← h fault, ← h.eq_nil_iff, List.head?_append]
  cases faults with
  | nil => simpa using hx rfl fault
  | cons first rest => simp

/-- A search that goes on from the keys of the entries behind it, the last one first. -/
structure Search {κ : Type} (key : α → κ) (own : List κ → α → List β)
    (faults : List κ → List α → List β) : Prop where
  nil : ∀ behind, faults behind [] = []
  cons : ∀ behind x xs, faults behind (x :: xs) = own behind x ++ faults (key x :: behind) xs

namespace Search

variable {κ : Type} {key : α → κ} {own : List κ → α → List β}
  {faults : List κ → List α → List β}

theorem snoc (hs : Search key own faults) (behind : List κ) (xs : List α) (x : α) :
    faults behind (xs ++ [x]) = faults behind xs ++ own ((xs.map key).reverse ++ behind) x := by
  induction xs generalizing behind with
  | nil => simp [hs.nil, hs.cons]
  | cons y xs ih => simp [hs.cons, ih]

/-- A search finds the first fault if what it finds at one entry is what is wrong there, given that
nothing was found before. -/
theorem reports (hs : Search key own faults)
    (hx : ∀ before x, faults [] before = [] → ∀ fault,
      (own (before.map key).reverse x).head? = some fault ↔ wrong before x fault) :
    Reports wrong xs (faults [] xs) := by
  induction xs using List.reverseRecOn with
  | nil =>
    rw [hs.nil]
    exact reports_nil
  | append_singleton xs x ih =>
    rw [hs.snoc, List.append_nil]
    exact ih.snoc (hx xs x)

end Search

end FirstFault

end NodeSchema
