import NodeSchema.Proofs.Schema.Reading

namespace NodeSchema

open Text (isIdentifier)

/-- A result of the loader, a fault, or nothing where a slice is out of range. -/
abbrev Sliced (α : Type) : Type := ExceptT Fault Option α

namespace Sliced

def ofResult {α : Type} (result : Except Fault α) : Sliced α := ExceptT.mk (some result)

/-- The entries from an index on; there is no such list if the index lies past the end. -/
def slice (items : List Json) (start : Nat) : Sliced (List Json) :=
  if start ≤ items.length then pure (items.drop start) else ExceptT.mk none

end Sliced

namespace Declaration

def tagAt? (items : List Json) (index : Nat) : Option String := items[index]?.bind Json.asString?

def nameAt (declaration : Json) (part : NamePart) (items : List Json) (index : Nat) :
    Except Fault String :=
  match items[index]? with
  | some (.string name) =>
    if isIdentifier name then .ok name else .error (.declaration (.badName declaration part))
  | _ => .error (.declaration (.badName declaration part))

/-- Reads a declaration by positions. -/
def ofJsonSliced (value : Json) : Sliced Declaration :=
  match value with
  | .array items =>
    match tagAt? items 0, tagAt? items 1 with
    | some "ast", some "struct" => do
      let name ← Sliced.ofResult (nameAt value .structName items 2)
      let entries ← Sliced.slice items 3
      let fields ← Sliced.ofResult (entries.mapM (Field.ofJson? name))
      return .record name fields
    | some "ast", some "enum" => do
      let name ← Sliced.ofResult (nameAt value .enumName items 2)
      let entries ← Sliced.slice items 3
      let variants ← Sliced.ofResult (entries.mapM (Variant.ofJson? name))
      return .union name variants
    | some "enum", _ => do
      let name ← Sliced.ofResult (nameAt value .enumName items 1)
      let entries ← Sliced.slice items 2
      let tags ← Sliced.ofResult (entries.mapM (tagOf? value))
      return .plain name tags
    | _, _ => Sliced.ofResult (.error (.declaration (.unknownForm (.array items))))
  | value => Sliced.ofResult (.error (.declaration (.noList value)))

end Declaration

def Schema.ofJsonSliced (value : Json) : Sliced Schema :=
  match value with
  | .array items => do
    let declarations ← items.mapM Declaration.ofJsonSliced
    return ⟨declarations⟩
  | _ => Sliced.ofResult (.error (.declaration .schemaNoList))

namespace Sliced

theorem ofResult_bind {α β : Type} (result : Except Fault α) (f : α → Except Fault β) :
    ofResult result >>= (fun a => ofResult (f a)) = ofResult (result >>= f) := by
  cases result <;> rfl

theorem mapM_ofResult {α : Type} {f : Json → Sliced α} {g : Json → Except Fault α}
    (h : ∀ value, f value = ofResult (g value)) (values : List Json) :
    values.mapM f = ofResult (values.mapM g) := by
  induction values with
  | nil => rfl
  | cons value values ih =>
    rw [List.mapM_cons, List.mapM_cons, h, ih, ← ofResult_bind]
    congr 1
    funext a
    rw [← ofResult_bind]
    rfl

end Sliced

namespace Declaration

theorem nameOf?_drop (declaration : Json) (part : NamePart) (items : List Json) (index : Nat) :
    nameOf? declaration part (items.drop index) =
      nameAt declaration part items index >>= fun name => .ok (name, items.drop (index + 1)) := by
  rw [nameAt.eq_def]
  cases hi : items[index]? with
  | none =>
    rw [List.drop_eq_nil_of_le (List.getElem?_eq_none_iff.1 hi)]
    rfl
  | some value =>
    obtain ⟨hlt, rfl⟩ := List.getElem?_eq_some_iff.1 hi
    rw [List.drop_eq_getElem_cons hlt, nameOf?.eq_def]
    cases items[index] with
    | string name =>
      by_cases hn : isIdentifier name
      · simp only [if_pos hn]
        rfl
      · simp only [if_neg hn]
        rfl
    | null | bool | integer | real | array | object => rfl

/-- Where a name has been found, the slice behind it is in range. -/
theorem bind_nameAt_slice {α : Type} (declaration : Json) (part : NamePart) (items : List Json)
    (index : Nat) (read : String → List Json → Except Fault α) (build : String → α → Declaration) :
    (do
      let name ← Sliced.ofResult (nameAt declaration part items index)
      let entries ← Sliced.slice items (index + 1)
      let members ← Sliced.ofResult (read name entries)
      return build name members) =
      Sliced.ofResult (do
        let (name, entries) ← nameOf? declaration part (items.drop index)
        let members ← read name entries
        return build name members) := by
  rw [nameOf?_drop]
  cases hn : nameAt declaration part items index with
  | error fault => rfl
  | ok name =>
    have hlt : index + 1 ≤ items.length := by
      rw [nameAt.eq_def] at hn
      cases hi : items[index]? with
      | none => rw [hi] at hn; cases hn
      | some value => exact (List.getElem?_eq_some_iff.1 hi).1
    change Sliced.slice items (index + 1) >>= _ = _
    rw [Sliced.slice, if_pos hlt]
    exact Sliced.ofResult_bind (read name _) fun members => .ok (build name members)

theorem tagAt?_eq_some_iff {items : List Json} {index : Nat} {tag : String} :
    tagAt? items index = some tag ↔ items[index]? = some (.string tag) := by
  rw [tagAt?, Option.bind_eq_some_iff]
  constructor
  · intro h
    obtain ⟨value, hi, hv⟩ := h
    cases value with
    | string s => rw [hi, Option.some.inj hv]
    | null | bool | integer | real | array | object => cases hv
  · intro h
    exact ⟨.string tag, h, rfl⟩

theorem eq_cons_of_tagAt? {items : List Json} {tag : String} (h : tagAt? items 0 = some tag) :
    items = .string tag :: items.drop 1 := by
  obtain ⟨hlt, he⟩ := List.getElem?_eq_some_iff.1 (tagAt?_eq_some_iff.1 h)
  rw [← he, ← List.drop_eq_getElem_cons hlt, List.drop_zero]

theorem eq_cons_cons_of_tagAt? {items : List Json} {tag tag' : String}
    (h : tagAt? items 0 = some tag) (h' : tagAt? items 1 = some tag') :
    items = .string tag :: .string tag' :: items.drop 2 := by
  obtain ⟨hlt, he⟩ := List.getElem?_eq_some_iff.1 (tagAt?_eq_some_iff.1 h')
  rw [← he, ← List.drop_eq_getElem_cons hlt]
  exact eq_cons_of_tagAt? h

/-- Reading by positions is reading, and no slice is out of range. -/
theorem ofJsonSliced_eq (value : Json) : ofJsonSliced value = Sliced.ofResult (ofJson? value) := by
  cases value with
  | array items =>
    rw [ofJsonSliced]
    split
    · next h₀ h₁ =>
      rw [eq_cons_cons_of_tagAt? h₀ h₁]
      exact bind_nameAt_slice _ _ _ 2 (fun name entries => entries.mapM (Field.ofJson? name)) record
    · next h₀ h₁ =>
      rw [eq_cons_cons_of_tagAt? h₀ h₁]
      exact bind_nameAt_slice _ _ _ 2 (fun name entries => entries.mapM (Variant.ofJson? name))
        union
    · next h₀ =>
      rw [eq_cons_of_tagAt? h₀]
      exact bind_nameAt_slice _ _ _ 1 (fun name entries => entries.mapM (tagOf? _)) plain
    · next hplain hrecord hunion =>
      rw [ofJson?.eq_4]
      · intro entries he
        subst he
        exact hrecord rfl rfl
      · intro entries he
        subst he
        exact hunion rfl rfl
      · intro entries he
        subst he
        exact hplain rfl
  | null | bool | integer | real | string | object => rfl

end Declaration

theorem Schema.ofJsonSliced_eq (value : Json) :
    ofJsonSliced value = Sliced.ofResult (ofJson? value) := by
  cases value with
  | array items =>
    rw [ofJsonSliced, ofJson?, Sliced.mapM_ofResult Declaration.ofJsonSliced_eq,
      ← Sliced.ofResult_bind]
    rfl
  | null | bool | integer | real | string | object => rfl

/-- The values that load are the spellings of schemas, and no value makes the loader reach past the
end of a list. -/
theorem Schema.ofJson?_eq_ok_iff_spells (value : Json) :
    (∀ schema, Schema.ofJson? value = .ok schema ↔ value.SpellsSchema schema) ∧
      (Schema.ofJsonSliced value).run = some (Schema.ofJson? value) :=
  ⟨Schema.reads_iff_spells value, Schema.ofJsonSliced_eq value⟩

end NodeSchema
