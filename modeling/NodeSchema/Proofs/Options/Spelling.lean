import NodeSchema.Options.Reader
import NodeSchema.Proofs.Json.Quoted

namespace NodeSchema

namespace Json

/-- A text between quotes. -/
inductive SpellsString (text : String) : List Char → Prop where
  | quoted {written : List Char} (h : Quoted.Spells text.toList written) :
      SpellsString text ('"' :: (written ++ ['"']))

/-- What stands before an item: blanks, and a comma if the item is not the first one. -/
inductive Gap : Bool → List Char → Prop where
  | first {blanks : List Char} (hb : blanks.all isBlank) : Gap true blanks
  | next {before behind : List Char} (hb : before.all isBlank) (hb' : behind.all isBlank) :
      Gap false (before ++ ',' :: behind)

/-- Items up to a closing bracket. The flag tells that no item stands before them. -/
inductive Items {α : Type} (spells : α → List Char → Prop) : Bool → List α → List Char → Prop where
  | nil {first : Bool} {blanks : List Char} (hb : blanks.all isBlank) :
      Items spells first [] blanks
  | cons {first : Bool} {gap written rest : List Char} {x : α} {xs : List α} (hg : Gap first gap)
      (h : spells x written) (h' : Items spells false xs rest) :
      Items spells first (x :: xs) (gap ++ (written ++ rest))

theorem SpellsString.of_plain {text : String} (h : text.toList.all Quoted.isPlain) :
    SpellsString text ('"' :: (text.toList ++ ['"'])) := .quoted (Quoted.spells_plain h)

theorem SpellsString.begins {text : String} {written : List Char} (h : SpellsString text written) :
    Begins written := by
  cases h
  exact begins_cons _ (by decide)

theorem Gap.append {first : Bool} {gap blanks : List Char} (h : Gap first gap)
    (hb : blanks.all isBlank) : Gap first (gap ++ blanks) := by
  cases h with
  | first hb' =>
    apply Gap.first
    rw [List.all_append, hb', hb]
    rfl
  | @next before behind hb' hb'' =>
    rw [List.append_assoc, List.cons_append]
    apply Gap.next hb'
    rw [List.all_append, hb'', hb]
    rfl

end Json

namespace Options

open Text (Stop)
open Json (skipBlanks isBlank SpellsString Gap Items)

/-- What a key is set to. -/
inductive Value where
  | text (s : String)
  | texts (names : List String)
deriving DecidableEq

def value (options : Options) : Key → Value
  | .lifetime => .text options.lifetime
  | .textAlias => .text options.textAlias
  | .spanImport => .text options.spanImport
  | .astModule => .text options.astModule
  | .opaqueTypes => .texts options.opaqueTypes
  | .astCommand => .text options.astCommand
  | .visitorCommand => .text options.visitorCommand

/-- The given keys have their values, all others those that they have in the base. -/
def Holds (base : Options) (given : List (Key × Value)) (options : Options) : Prop :=
  ∀ key, options.value key = (given.lookup key).getD (base.value key)

/-- The opaque types are a list of strings, every other key has a string. -/
inductive SpellsValue : Key → Value → List Char → Prop where
  | text {key : Key} {s : String} {written : List Char} (hk : key ≠ .opaqueTypes)
      (h : SpellsString s written) : SpellsValue key (.text s) written
  | texts {names : List String} {items : List Char} (h : Items SpellsString true names items) :
      SpellsValue .opaqueTypes (.texts names) ('[' :: (items ++ [']']))

inductive SpellsMember : Key × Value → List Char → Prop where
  | member {key : Key} {value : Value} {name before behind written : List Char}
      (hn : SpellsString key.name name) (hb : before.all isBlank) (hb' : behind.all isBlank)
      (hv : SpellsValue key value written) :
      SpellsMember (key, value) (name ++ (before ++ ':' :: (behind ++ written)))

/-- An object with some of the keys, each at most once, or a list with the values of the first keys
in their order. -/
inductive SpellsGiven : List (Key × Value) → List Char → Prop where
  | object {given : List (Key × Value)} {items : List Char} (hd : (given.map Prod.fst).Nodup)
      (h : Items SpellsMember true given items) : SpellsGiven given ('\x7b' :: (items ++ ['\x7d']))
  | list {given : List (Key × Value)} {items : List Char} (hk : given.map Prod.fst <+: Key.all)
      (h : Items (fun m => SpellsValue m.1 m.2) true given items) :
      SpellsGiven given ('[' :: (items ++ [']']))

/-- A text that gives values for some keys. -/
def Spells (given : List (Key × Value)) (text : String) : Prop :=
  ∃ before written behind : List Char, before.all isBlank ∧ behind.all isBlank ∧
    SpellsGiven given written ∧ text.toList = before ++ (written ++ behind)

theorem Key.isPlain_name (key : Key) : key.name.toList.all Json.Quoted.isPlain := by
  cases key <;> decide

theorem SpellsMember.of_plain {key : Key} {text : String} (hk : key ≠ .opaqueTypes)
    (h : text.toList.all Json.Quoted.isPlain) :
    SpellsMember (key, .text text) ('"' :: (key.name.toList ++ ['"']) ++
      ([] ++ ':' :: ([' '] ++ '"' :: (text.toList ++ ['"'])))) :=
  .member (.of_plain key.isPlain_name) rfl rfl (.text hk (.of_plain h))

theorem eq_of_value {options options' : Options}
    (h : ∀ key, options.value key = options'.value key) : options = options' := by
  have hlifetime := h .lifetime
  have halias := h .textAlias
  have hspan := h .spanImport
  have hmodule := h .astModule
  have hopaque := h .opaqueTypes
  have hast := h .astCommand
  have hvisitor := h .visitorCommand
  simp only [value, Value.text.injEq, Value.texts.injEq] at *
  cases options
  cases options'
  simp_all

theorem holds_nil (options : Options) : options.Holds [] options := fun _ => rfl

theorem Holds.cons {base options options' : Options} {key : Key} {v : Value}
    {given : List (Key × Value)} (h : base.Holds [(key, v)] options)
    (h' : options.Holds given options') (hk : key ∉ given.map Prod.fst) :
    base.Holds ((key, v) :: given) options' := by
  intro key'
  rw [h', h key']
  by_cases he : key' = key
  · subst he
    have hnone : given.lookup key' = none := by
      rw [List.lookup_eq_none_iff]
      intro m hm
      apply bne_iff_ne.2
      rintro rfl
      exact hk (List.mem_map_of_mem hm)
    rw [hnone, List.lookup_cons_self, List.lookup_cons_self]
    rfl
  · have hne : (key' == key) = false := beq_eq_false_iff_ne.2 he
    simp only [List.lookup_cons, List.lookup_nil, hne, Option.getD_none]

theorem Holds.unique {base options options' : Options} {given : List (Key × Value)}
    (h : base.Holds given options) (h' : base.Holds given options') : options = options' :=
  eq_of_value fun key => (h key).trans (h' key).symm

section Reading

variable {s rest : List Char} {hlt : rest.length < s.length} {first : Bool}

theorem json_eq_ok_iff {α : Type} {result : Except (Stop Json.Fault) α} {a : α} :
    json result = .ok a ↔ result = .ok a := mapError_eq_ok_iff

theorem refuse_ne_ok {α : Type} {expected : Form} {a : α} : refuse expected s ≠ .ok a := by
  intro h
  rw [refuse.eq_def] at h
  split at h
  next => cases h
  next => cases h
  next =>
    obtain ⟨found, -, h⟩ := bind_eq_ok_iff.1 h
    cases h

theorem spells_of_readText {text : String} (h : readText s = .ok (text, ⟨rest, hlt⟩)) :
    ∃ blanks written, blanks.all isBlank ∧ SpellsString text written ∧
      s = blanks ++ (written ++ rest) := by
  rw [readText] at h
  split at h
  next => cases h
  next c r hr hskip =>
  obtain ⟨blanks, hb, rfl⟩ := Json.exists_blanks hskip
  split at h
  next hc =>
    obtain ⟨⟨cs, t, ht⟩, hread, h⟩ := bind_eq_ok_iff.1 h
    cases h
    obtain ⟨written, hw, rfl⟩ := Json.Quoted.spells_of_read r (json_eq_ok_iff.1 hread)
    subst hc
    rw [← String.toList_ofList (l := cs)] at hw
    refine ⟨blanks, _, hb, .quoted hw, ?_⟩
    simp
  next => exact absurd h refuse_ne_ok

theorem gap_of_nextItem {start : List Char} {hle : start.length ≤ s.length}
    (h : nextItem first s = .ok (some ⟨start, hle⟩)) : ∃ gap, Gap first gap ∧ s = gap ++ start := by
  rw [nextItem] at h
  split at h
  next => cases h
  next c r hr hskip =>
  obtain ⟨blanks, hb, rfl⟩ := Json.exists_blanks hskip
  split at h
  next => cases h
  split at h
  next hfirst =>
    cases h
    subst hfirst
    exact ⟨blanks, .first hb, rfl⟩
  next hfirst =>
  rw [Bool.not_eq_true] at hfirst
  subst hfirst
  split at h
  next hc =>
    subst hc
    split at h
    next => cases h
    next d t ht hskip' =>
    obtain ⟨blanks', hb', rfl⟩ := Json.exists_blanks hskip'
    split at h
    next => cases h
    next =>
      cases h
      exact ⟨_, .next hb hb', by simp⟩
  next => cases h

theorem eq_of_closeList (h : closeList s = .ok ⟨rest, hlt⟩) :
    ∃ blanks, blanks.all isBlank ∧ s = blanks ++ ']' :: rest := by
  rw [closeList] at h
  split at h
  next => cases h
  next c r hr hskip =>
  obtain ⟨blanks, hb, rfl⟩ := Json.exists_blanks hskip
  split at h
  next hc =>
    cases h
    subst hc
    exact ⟨blanks, hb, rfl⟩
  split at h
  next =>
    split at h
    next => cases h
    next => cases h
  next => cases h

theorem items_of_readTextItems (first : Bool) (s : List Char) {texts : List String}
    {rest : List Char} {hlt : rest.length < s.length}
    (h : readTextItems first s = .ok (texts, ⟨rest, hlt⟩)) :
    ∃ items, Items SpellsString first texts items ∧ s = items ++ ']' :: rest := by
  rw [readTextItems] at h
  obtain ⟨start, hstart, h⟩ := bind_eq_ok_iff.1 h
  cases start with
  | none =>
    obtain ⟨⟨t, ht⟩, hclose, h⟩ := bind_eq_ok_iff.1 h
    cases h
    obtain ⟨blanks, hb, rfl⟩ := eq_of_closeList hclose
    exact ⟨blanks, .nil hb, rfl⟩
  | some start =>
    obtain ⟨start, hle⟩ := start
    obtain ⟨⟨text, t, ht⟩, htext, h⟩ := bind_eq_ok_iff.1 h
    obtain ⟨⟨texts', t', ht'⟩, hmore, h⟩ := bind_eq_ok_iff.1 h
    cases h
    have hshorter : t.length < s.length := Nat.lt_of_lt_of_le ht hle
    obtain ⟨gap, hg, hs⟩ := gap_of_nextItem hstart
    obtain ⟨blanks, written, hb, hw, rfl⟩ := spells_of_readText htext
    obtain ⟨items, hi, rfl⟩ := items_of_readTextItems false t hmore
    refine ⟨_, .cons (hg.append hb) hw hi, hs.trans ?_⟩
    simp
termination_by s.length
decreasing_by exact hshorter

theorem items_of_readTexts {texts : List String} (h : readTexts s = .ok (texts, ⟨rest, hlt⟩)) :
    ∃ blanks items, blanks.all isBlank ∧ Items SpellsString true texts items ∧
      s = blanks ++ '[' :: (items ++ ']' :: rest) := by
  rw [readTexts] at h
  split at h
  next => cases h
  next c r hr hskip =>
  obtain ⟨blanks, hb, rfl⟩ := Json.exists_blanks hskip
  split at h
  next hc =>
    obtain ⟨⟨texts', t, ht⟩, hitems, h⟩ := bind_eq_ok_iff.1 h
    cases h
    obtain ⟨items, hi, rfl⟩ := items_of_readTextItems true r hitems
    subst hc
    exact ⟨blanks, items, hb, hi, rfl⟩
  next => exact absurd h refuse_ne_ok

theorem holds_setText {key : Key} (hk : key ≠ .opaqueTypes) (options : Options) (text : String) :
    options.Holds [(key, .text text)] (options.setText text key) := by
  intro key'
  cases key with
  | opaqueTypes => exact absurd rfl hk
  | _ => cases key' <;> rfl

theorem holds_opaqueTypes (options : Options) (names : List String) :
    options.Holds [(.opaqueTypes, .texts names)] { options with opaqueTypes := names } := by
  intro key
  cases key <;> rfl

theorem readSetting_of_ne {key : Key} (hk : key ≠ .opaqueTypes) (options : Options)
    (s : List Char) : readSetting options key s = (do
      let (text, rest) ← readText s
      .ok (setText options text key, rest)) := by
  cases key with
  | opaqueTypes => exact absurd rfl hk
  | _ => rfl

theorem value_of_readSetting {options options' : Options} {key : Key}
    (h : readSetting options key s = .ok (options', ⟨rest, hlt⟩)) :
    ∃ v blanks written, blanks.all isBlank ∧ SpellsValue key v written ∧
      s = blanks ++ (written ++ rest) ∧ options.Holds [(key, v)] options' := by
  by_cases hk : key = .opaqueTypes
  · subst hk
    obtain ⟨⟨texts, t, ht⟩, htexts, h⟩ := bind_eq_ok_iff.1 h
    cases h
    obtain ⟨blanks, items, hb, hi, rfl⟩ := items_of_readTexts htexts
    refine ⟨_, blanks, _, hb, .texts hi, ?_, holds_opaqueTypes options texts⟩
    simp
  · rw [readSetting_of_ne hk] at h
    obtain ⟨⟨text, t, ht⟩, htext, h⟩ := bind_eq_ok_iff.1 h
    cases h
    obtain ⟨blanks, written, hb, hw, rfl⟩ := spells_of_readText htext
    exact ⟨_, blanks, written, hb, .text hk hw, rfl, holds_setText hk options text⟩

theorem given_of_readPositional {options options' : Options} {first : Bool} {keys : List Key}
    (hd : keys.Nodup) {s t rest : List Char} {hle : t.length ≤ s.length}
    {hlt : rest.length < t.length}
    (h : readPositional options first keys s = .ok (options', ⟨t, hle⟩))
    (hclose : closeList t = .ok ⟨rest, hlt⟩) :
    ∃ given items, given.map Prod.fst <+: keys ∧
      Items (fun m => SpellsValue m.1 m.2) first given items ∧ s = items ++ ']' :: rest ∧
      options.Holds given options' := by
  induction keys generalizing options first s with
  | nil =>
    cases h
    obtain ⟨blanks, hb, rfl⟩ := eq_of_closeList hclose
    exact ⟨[], blanks, List.nil_prefix, .nil hb, rfl, holds_nil _⟩
  | cons key keys ih =>
    obtain ⟨hnew, hd⟩ := List.nodup_cons.1 hd
    obtain ⟨start, hstart, h⟩ := bind_eq_ok_iff.1 h
    cases start with
    | none =>
      cases h
      obtain ⟨blanks, hb, rfl⟩ := eq_of_closeList hclose
      exact ⟨[], blanks, List.nil_prefix, .nil hb, rfl, holds_nil _⟩
    | some start =>
      obtain ⟨start, hle'⟩ := start
      obtain ⟨⟨between, u, hu⟩, hvalue, h⟩ := bind_eq_ok_iff.1 h
      obtain ⟨⟨last, t', ht'⟩, hmore, h⟩ := bind_eq_ok_iff.1 h
      cases h
      obtain ⟨gap, hg, rfl⟩ := gap_of_nextItem hstart
      obtain ⟨v, blanks, written, hb, hw, rfl, hset⟩ := value_of_readSetting hvalue
      obtain ⟨given, items, hkeys, hi, rfl, hholds⟩ := ih hd hmore
      refine ⟨(key, v) :: given, _, List.cons_prefix_cons.2 ⟨rfl, hkeys⟩,
        .cons (hg.append hb) hw hi, ?_, hset.cons hholds fun hm => hnew (hkeys.subset hm)⟩
      simp

theorem eq_of_readColon (h : Json.readColon s = .ok ⟨rest, hlt⟩) :
    ∃ blanks, blanks.all isBlank ∧ s = blanks ++ ':' :: rest := by
  rw [Json.readColon] at h
  split at h
  next => cases h
  next c r hr hskip =>
  obtain ⟨blanks, hb, rfl⟩ := Json.exists_blanks hskip
  split at h
  next hc =>
    cases h
    subst hc
    exact ⟨blanks, hb, rfl⟩
  next => cases h

theorem name_of_ofName? {name : String} {key : Key} (h : Key.ofName? name = some key) :
    name = key.name := by
  have hname := List.find?_some h
  exact (beq_iff_eq.1 hname).symm

theorem ofName?_name (key : Key) : Key.ofName? key.name = some key := by
  cases key <;> decide

theorem member_of_readMember {options options' : Options} {seen : List Key} {key : Key}
    (h : readMember options seen s = .ok (key, options', ⟨rest, hlt⟩)) :
    key ∉ seen ∧ ∃ v written, SpellsMember (key, v) written ∧ s = written ++ rest ∧
      options.Holds [(key, v)] options' := by
  rw [readMember.eq_def] at h
  split at h
  next => cases h
  next c r =>
  split at h
  next => cases h
  next hc =>
  obtain ⟨⟨name, t, ht⟩, hname, h⟩ := bind_eq_ok_iff.1 h
  obtain ⟨quoted, hq, rfl⟩ := Json.Quoted.spells_of_read r (json_eq_ok_iff.1 hname)
  simp only at h
  split at h
  next => cases h
  next key' hkey =>
  split at h
  next => cases h
  next hseen =>
  obtain ⟨⟨u, hu⟩, hcolon, h⟩ := bind_eq_ok_iff.1 h
  obtain ⟨⟨options'', u', hu'⟩, hvalue, h⟩ := bind_eq_ok_iff.1 h
  cases h
  obtain ⟨before, hb, rfl⟩ := eq_of_readColon (json_eq_ok_iff.1 hcolon)
  obtain ⟨v, behind, written, hb', hw, rfl, hset⟩ := value_of_readSetting hvalue
  have hspelled : SpellsString key.name ('"' :: (quoted ++ ['"'])) := by
    rw [← name_of_ofName? hkey]
    apply SpellsString.quoted
    rwa [String.toList_ofList]
  have hnew : key ∉ seen := by
    intro hm
    exact hseen (List.contains_iff_mem.2 hm)
  refine ⟨hnew, v, _, .member hspelled hb hb' hw, ?_, hset⟩
  rw [not_not.1 hc]
  simp

/-- Members up to the closing brace, none of them for a key that has been seen. -/
def Continues (base : Options) (seen : List Key) (s : List Char) (options : Options)
    (rest : List Char) : Prop :=
  ∃ given items, (given.map Prod.fst).Nodup ∧ (given.map Prod.fst).Disjoint seen ∧
    Items SpellsMember seen.isEmpty given items ∧ s = items ++ '\x7d' :: rest ∧
    base.Holds given options

theorem Continues.cons {base between options : Options} {seen : List Key} {key : Key} {v : Value}
    {gap written t rest : List Char} (h : Continues between (key :: seen) t options rest)
    (hg : Gap seen.isEmpty gap) (hk : key ∉ seen) (hw : SpellsMember (key, v) written)
    (hset : base.Holds [(key, v)] between) :
    Continues base seen (gap ++ (written ++ t)) options rest := by
  obtain ⟨given, items, hd, hnew, hi, rfl, hholds⟩ := h
  obtain ⟨hkey, hnew⟩ := List.disjoint_cons_right.1 hnew
  refine ⟨(key, v) :: given, _, List.nodup_cons.2 ⟨hkey, hd⟩,
    List.disjoint_cons_left.2 ⟨hk, hnew⟩, .cons hg hw hi, ?_, hset.cons hholds hkey⟩
  simp

theorem continues_of_readMembers (base : Options) (seen : List Key) (s : List Char)
    {options : Options} {rest : List Char} {hlt : rest.length < s.length}
    (h : readMembers base seen s = .ok (options, ⟨rest, hlt⟩)) :
    Continues base seen s options rest := by
  rw [readMembers] at h
  split at h
  next => cases h
  next c r hr hskip =>
  obtain ⟨blanks, hb, hs⟩ := Json.exists_blanks hskip
  split at h
  next hc =>
    cases h
    subst hc
    exact ⟨[], blanks, List.nodup_nil, List.disjoint_nil_left _, .nil hb, hs, holds_nil _⟩
  split at h
  next hseen =>
    obtain ⟨⟨key, between, t, ht⟩, hmember, h⟩ := bind_eq_ok_iff.1 h
    obtain ⟨⟨last, t', ht'⟩, hmore, h⟩ := bind_eq_ok_iff.1 h
    cases h
    have hshorter : t.length < s.length := Nat.lt_of_lt_of_le ht hr
    obtain ⟨hk, v, written, hw, hcons, hset⟩ := member_of_readMember hmember
    have hgap : Gap seen.isEmpty blanks := hseen ▸ .first hb
    have hcontinues := (continues_of_readMembers between (key :: seen) t hmore).cons hgap hk hw hset
    rwa [← hcons, ← hs] at hcontinues
  next hseen =>
  rw [Bool.not_eq_true] at hseen
  split at h
  next hc =>
    subst hc
    split at h
    next => cases h
    next d u hu hskip' =>
    obtain ⟨blanks', hb', hr'⟩ := Json.exists_blanks hskip'
    split at h
    next => cases h
    next =>
    obtain ⟨⟨key, between, t, ht⟩, hmember, h⟩ := bind_eq_ok_iff.1 h
    obtain ⟨⟨last, t', ht'⟩, hmore, h⟩ := bind_eq_ok_iff.1 h
    cases h
    have hshorter : t.length < s.length :=
      Nat.lt_of_lt_of_le ht (Nat.le_trans hu (Nat.le_of_lt hr))
    obtain ⟨hk, v, written, hw, hcons, hset⟩ := member_of_readMember hmember
    have hgap : Gap seen.isEmpty (blanks ++ ',' :: blanks') := hseen ▸ .next hb hb'
    have hcontinues := (continues_of_readMembers between (key :: seen) t hmore).cons hgap hk hw hset
    rwa [List.append_assoc, List.cons_append, ← hcons, ← hr', ← hs] at hcontinues
  next => cases h
termination_by s.length
decreasing_by all_goals exact hshorter

theorem spells_of_read {options : Options} (h : read s = .ok (options, ⟨rest, hlt⟩)) :
    ∃ given blanks written, blanks.all isBlank ∧ SpellsGiven given written ∧
      s = blanks ++ (written ++ rest) ∧ Holds default given options := by
  rw [read] at h
  split at h
  next => cases h
  next c r hr hskip =>
  obtain ⟨blanks, hb, rfl⟩ := Json.exists_blanks hskip
  split at h
  next hc =>
    obtain ⟨⟨last, t, ht⟩, hvalues, h⟩ := bind_eq_ok_iff.1 h
    obtain ⟨⟨t', ht'⟩, hclose, h⟩ := bind_eq_ok_iff.1 h
    cases h
    obtain ⟨given, items, hkeys, hi, rfl, hholds⟩ :=
      given_of_readPositional (by decide) hvalues hclose
    subst hc
    refine ⟨given, blanks, _, hb, .list hkeys hi, ?_, hholds⟩
    simp
  split at h
  next hc =>
    obtain ⟨⟨last, t, ht⟩, hmembers, h⟩ := bind_eq_ok_iff.1 h
    cases h
    obtain ⟨given, items, hd, -, hi, rfl, hholds⟩ := continues_of_readMembers _ _ r hmembers
    subst hc
    refine ⟨given, blanks, _, hb, .object hd hi, ?_, hholds⟩
    simp
  next => exact absurd h refuse_ne_ok

theorem blank_of_finish (h : Json.finish s = .ok ()) : s.all isBlank := by
  rw [Json.finish] at h
  split at h
  next hskip =>
    obtain ⟨blanks, hb, rfl⟩ := Json.exists_blanks hskip
    rwa [List.append_nil]
  next => cases h

end Reading

end Options

end NodeSchema
