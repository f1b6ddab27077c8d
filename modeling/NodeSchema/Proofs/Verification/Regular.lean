import NodeSchema.Proofs.Generation.Walkable
import NodeSchema.Proofs.Text.Characters
import NodeSchema.Proofs.Verification.Acceptance

namespace NodeSchema

open Text (isIdentifier isKeyword isUsable keywords snakeCase)

namespace Text

/-- An identifier that begins with a capital. The one keyword that does is left out. -/
def isCapital (s : String) : Bool :=
  isIdentifier s && s.toList.head?.any Char.isUpper && s != "Self"

theorem isUsable_of_isCapital {s : String} (h : isCapital s) : isUsable s := by
  simp only [isCapital, Bool.and_eq_true, bne_iff_ne] at h
  obtain ⟨⟨hn, hc⟩, hs⟩ := h
  have hkeywords : ∀ keyword ∈ keywords, keyword.toList.head?.any Char.isUpper →
      keyword = "Self" := by decide
  have hk : s ∉ keywords := fun h => hs (hkeywords s h hc)
  simp [isUsable, isKeyword, hn, hk]

end Text

open Text (isCapital)

namespace TypeExpr

/-- A name inside of any number of containers, each of which the visitor enters. -/
def isNested : TypeExpr → Bool
  | .atomic _ => true
  | .generic container [arg] => entered.contains container && arg.isNested
  | .generic _ _ => false

variable {type : TypeExpr}

theorem wellNamed_of_isNested (h : type.isNested) (hn : ∀ name ∈ type.atoms, isIdentifier name) :
    type.WellNamed := by
  have hentered : ∀ container ∈ entered, isIdentifier container := by decide
  induction type using isNested.induct with
  | case1 name => exact .atomic (hn name List.mem_cons_self)
  | case2 container arg ih =>
    obtain ⟨hc, harg⟩ := Bool.and_eq_true_iff.1 h
    have hw := ih harg fun name hm => hn name (List.mem_append_left _ hm)
    exact .generic (hentered _ (List.contains_iff_mem.1 hc)) (List.cons_ne_nil _ _)
      (List.forall_mem_singleton.2 hw)
  | case3 container args hne =>
    rw [isNested.eq_3 _ _ hne] at h
    cases h

theorem walkable_of_isNested {schema : Schema} (h : type.isNested) : schema.Walkable type := by
  induction type using isNested.induct with
  | case1 name =>
    rw [Schema.walkable_iff_not_blockedBy, not_exists]
    exact fun obstacle => Schema.not_blockedBy_atomic
  | case2 container arg ih =>
    obtain ⟨hc, harg⟩ := Bool.and_eq_true_iff.1 h
    exact .enter (List.contains_iff_mem.1 hc) (ih harg)
  | case3 container args hne =>
    rw [isNested.eq_3 _ _ hne] at h
    cases h

end TypeExpr

/-- The variants or the tags that a value is one of. -/
def Declaration.choices : Declaration → List String
  | .record _ _ => []
  | .union _ variants => variants.map (·.name)
  | .plain _ tags => tags

theorem Declaration.membersApart_of_choices {d : Declaration}
    (hf : (d.fields.map (·.written)).Nodup ∧ ∀ f ∈ d.fields, f.written ≠ "span")
    (hc : d.choices.Nodup ∧ ∀ name ∈ d.choices, isUsable name)
    (hne : d.fields ≠ [] ∨ d.choices ≠ []) : d.MembersApart := by
  cases d with
  | record name fields => exact hf
  | union name variants =>
    obtain ⟨hnodup, husable⟩ := hc
    have hvariants : variants ≠ [] := by simpa [fields, choices] using hne
    exact ⟨hvariants, hnodup, fun v hv => husable v.name (List.mem_map_of_mem hv)⟩
  | plain name tags => exact hc

namespace Schema

/-- What a schema of the plain style is looked through for. A number of passes finds all its nodes
to borrow. -/
structure Regular (schema : Schema) (options : Options) (passes : Nat) : Prop where
  capital : ∀ d ∈ schema.declarations, ∀ name ∈ d.name :: d.choices, isCapital name
  free : ∀ d ∈ schema.declarations,
    d.name ∉ options.textAlias :: (reservedNames ++ primitiveTypes ++ options.opaqueTypes)
  declaredOnce : (schema.declarations.map (·.name)).Nodup
  methodsApart : (schema.nodes.map fun d => snakeCase d.name).Nodup
  fieldsNamed : schema.FieldsNamed
  fieldsApart : ∀ d ∈ schema.declarations,
    (d.fields.map (·.written)).Nodup ∧ ∀ f ∈ d.fields, f.written ≠ "span"
  choicesApart : ∀ d ∈ schema.declarations, d.choices.Nodup ∧ (d.fields ≠ [] ∨ d.choices ≠ [])
  nested : ∀ d ∈ schema.declarations, ∀ type ∈ d.memberTypes, type.isNested
  known : ∀ d ∈ schema.declarations, ∀ type ∈ d.memberTypes, ∀ name ∈ type.atoms,
    name ∈ options.textAlias :: (primitiveTypes ++ schema.declarations.map (·.name))
  found : ∀ d ∈ schema.nodes,
    d.name ∈ ((NameTable.ofSchema schema options).pass schema.nodes)^[passes] []

variable {schema : Schema} {options : Options} {passes : Nat}

namespace Regular

theorem usable (h : schema.Regular options passes) {d : Declaration}
    (hd : d ∈ schema.declarations) {name : String} (hm : name ∈ d.name :: d.choices) :
    isUsable name :=
  Text.isUsable_of_isCapital (h.capital d hd name hm)

theorem freeName (h : schema.Regular options passes) {d : Declaration}
    (hd : d ∈ schema.declarations) : FreeName options d.name := by
  have hfree := h.free d hd
  simp only [List.mem_cons, List.mem_append, not_or] at hfree
  obtain ⟨ha, ⟨hr, hp⟩, ho⟩ := hfree
  exact ⟨h.usable hd List.mem_cons_self, hr, ha, hp, ho⟩

theorem membersApart (h : schema.Regular options passes) {d : Declaration}
    (hd : d ∈ schema.declarations) : d.MembersApart := by
  obtain ⟨hnodup, hne⟩ := h.choicesApart d hd
  have husable : ∀ name ∈ d.choices, isUsable name :=
    fun name hm => h.usable hd (List.mem_cons_of_mem _ hm)
  exact Declaration.membersApart_of_choices (h.fieldsApart d hd) ⟨hnodup, husable⟩ hne

theorem wellNamed (h : schema.Regular options passes) (ha : isUsable options.textAlias)
    {d : Declaration} (hd : d ∈ schema.declarations) {type : TypeExpr} (ht : type ∈ d.memberTypes) :
    type.WellNamed := by
  have hprimitives : ∀ name ∈ primitiveTypes, isIdentifier name := by decide
  apply TypeExpr.wellNamed_of_isNested (h.nested d hd type ht)
  intro name hm
  have hknown := h.known d hd type ht name hm
  rw [List.mem_cons, List.mem_append, List.mem_map] at hknown
  rcases hknown with rfl | hp | ⟨e, he, rfl⟩
  · exact Text.isIdentifier_of_isUsable ha
  · exact hprimitives name hp
  · exact Text.isIdentifier_of_isUsable (h.usable he List.mem_cons_self)

/-- A regular schema is sound under options that are usable themselves. -/
theorem sound (h : schema.Regular options passes) (hl : isUsable options.lifetime)
    (ha : isUsable options.textAlias) : schema.Sound options where
  lifetime := hl
  textAlias := ha
  freeNames _ hd := h.freeName hd
  declaredOnce := h.declaredOnce
  methodsApart := h.methodsApart
  membersApart _ hd := h.membersApart hd
  wellNamed _ hd _ ht := h.wellNamed ha hd ht
  known d hd name hm := by
    obtain ⟨type, ht, hname⟩ := hm
    have hknown := h.known d hd type ht name hname
    rw [List.mem_cons, List.mem_append, List.mem_map] at hknown
    rcases hknown with ha | hp | he
    · exact .inr (.inl ha)
    · exact .inr (.inr (.inr hp))
    · exact .inl he
  borrows d hd := by
    have hne : ∀ d ∈ schema.declarations, d.name ≠ options.textAlias :=
      fun d hd => (h.freeName hd).ne_textAlias
    exact leadsTo_of_mem_passes h.declaredOnce hne hd (h.found d hd)

theorem walkable (h : schema.Regular options passes) {d : Declaration} (hd : d ∈ schema.nodes)
    {type : TypeExpr} (ht : type ∈ d.memberTypes) : schema.Walkable type :=
  TypeExpr.walkable_of_isNested (h.nested d (List.mem_of_mem_filter hd) type ht)

end Regular

end Schema

end NodeSchema
