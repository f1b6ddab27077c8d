import NodeSchema.Json.Printer
import NodeSchema.Json.Reader
import NodeSchema.Proofs.Json.Quoted

namespace NodeSchema.Json

open Text (Stop escapeChar quote)

namespace Quoted

theorem escaped_escapeChar (c : Char) : Escaped c (escapeChar c) := by
  have hshort (d : Char) {e : Char} (he : shortEscape? d = some e) (hc : c = e) :
      Escaped c ['\\', d] := .short (he.trans (congrArg some hc.symm))
  rw [escapeChar]
  split
  next h => exact hshort '"' rfl h
  split
  next h => exact hshort '\\' rfl h
  split
  next h => exact hshort 'n' rfl h
  split
  next h => exact hshort 'r' rfl h
  split
  next h => exact hshort 't' rfl h
  split
  next h => exact hshort 'b' rfl h
  split
  next h => exact hshort 'f' rfl h
  split
  next h =>
    have hhex : ∀ n < 0x20, hexNumber? '0' '0' (Nat.digitChar (n / 16)) (Nat.digitChar (n % 16)) =
        some n := by decide
    exact .code (hhex _ h)
  next hquote hback _ _ _ _ _ hcode =>
    apply Escaped.plain
    simp [isPlain, hquote, hback, Nat.not_lt.1 hcode]

theorem spells_escaped (cs : List Char) : Spells cs (cs.flatMap escapeChar) := by
  induction cs with
  | nil => exact .nil
  | cons c cs ih => exact .cons (escaped_escapeChar c) ih

end Quoted

section Layout

/-- What stands behind the first item of a list: the other items, each on a line of its own, and the
bracket on the last line. -/
def layMore (level : Nat) (closing : String) : List String → List Char
  | [] => '\n' :: ((margin level).toList ++ closing.toList)
  | text :: texts =>
    ',' :: '\n' :: ((margin (level + 1)).toList ++ (text.toList ++ layMore level closing texts))

theorem layMore_nil (level : Nat) (c : Char) (rest : List Char) :
    layMore level (String.ofList [c]) [] ++ rest =
      '\n' :: ((margin level).toList ++ c :: rest) := by
  simp [layMore]

theorem layMore_cons (level : Nat) (closing text : String) (texts : List String)
    (rest : List Char) :
    layMore level closing (text :: texts) ++ rest = ',' :: '\n' ::
      ((margin (level + 1)).toList ++ (text.toList ++ (layMore level closing texts ++ rest))) := by
  simp [layMore]

/-- What stands behind the opening bracket. -/
def layWithin (level : Nat) (closing : String) : List String → List Char
  | [] => closing.toList
  | text :: texts =>
    '\n' :: ((margin (level + 1)).toList ++ (text.toList ++ layMore level closing texts))

theorem layWithin_cons (level : Nat) (closing text : String) (texts : List String)
    (rest : List Char) :
    layWithin level closing (text :: texts) ++ rest = '\n' ::
      ((margin (level + 1)).toList ++ (text.toList ++ (layMore level closing texts ++ rest))) := by
  simp [layWithin]

theorem toList_intercalate_lines (level : Nat) (closing text : String) (texts : List String) :
    (",\n".intercalate ((text :: texts).map (margin (level + 1) ++ ·))).toList ++
        '\n' :: ((margin level).toList ++ closing.toList) =
      (margin (level + 1)).toList ++ (text.toList ++ layMore level closing texts) := by
  induction texts generalizing text with
  | nil => simp [layMore, String.intercalate_singleton]
  | cons next texts ih =>
    rw [List.map_cons, List.map_cons, String.intercalate_cons_cons, ← List.map_cons]
    simp only [String.toList_append, List.append_assoc]
    rw [ih]
    rfl

theorem toList_layItems (level : Nat) (opening closing : String) (texts : List String) :
    (layItems level opening closing texts).toList =
      opening.toList ++ layWithin level closing texts := by
  cases texts with
  | nil => exact String.toList_append
  | cons text texts =>
    rw [layItems, if_neg (by simp), layWithin, ← toList_intercalate_lines]
    simp

theorem margin_isBlank (level : Nat) : (margin level).toList.all isBlank := by
  rw [margin, String.toList_ofList, List.all_replicate]
  cases level <;> simp [isBlank]

theorem skipBlanks_line (level : Nat) {c : Char} (hc : isBlank c = false) (r : List Char) :
    ∃ h, skipBlanks ('\n' :: ((margin level).toList ++ c :: r)) = ⟨c :: r, h⟩ := by
  have hb : ('\n' :: (margin level).toList).all isBlank := margin_isBlank level
  exact skipBlanks_append hb hc r

theorem skipBlanks_comma (r : List Char) :
    skipBlanks (',' :: r) = ⟨',' :: r, Nat.le_refl _⟩ := Subtype.ext rfl

end Layout

section Items

variable {α : Type} {item : (s : List Char) → Except (Stop Fault) (α × Rest s)} {text : String}
  {texts : List String} {x : α} {xs : List α}

/-- A text from which a reader takes an item, whatever follows. -/
structure ReadBy (item : (s : List Char) → Except (Stop Fault) (α × Rest s)) (text : String)
    (x : α) : Prop where
  begins : Begins text.toList
  yields (rest : List Char) : Yields (item (text.toList ++ rest)) x rest

/-- On a line of its own, the text of an item is reached behind the margin and read. -/
theorem ReadBy.exists_read (h : ReadBy item text x) (level : Nat) (rest : List Char) :
    ∃ c r hle hlt,
      skipBlanks ('\n' :: ((margin level).toList ++ (text.toList ++ rest))) = ⟨c :: r, hle⟩ ∧
        c ≠ ']' ∧ c ≠ '\x7d' ∧ item (c :: r) = .ok (x, ⟨rest, hlt⟩) := by
  obtain ⟨⟨c, r, hc, hblank, hbracket, hbrace⟩, hyields⟩ := h
  have hread := hyields rest
  rw [hc, List.cons_append] at hread ⊢
  obtain ⟨hlt, hread⟩ := hread
  obtain ⟨hle, hskip⟩ := skipBlanks_line level hblank (r ++ rest)
  exact ⟨c, r ++ rest, hle, hlt, hskip, hbracket, hbrace, hread⟩

theorem yields_readMoreItems (h : List.Forall₂ (ReadBy item) texts xs) (level : Nat)
    (rest : List Char) :
    Yields (readMoreItems item (layMore level "]" texts ++ rest)) xs rest := by
  induction h with
  | nil =>
    rw [layMore_nil]
    obtain ⟨hle, hskip⟩ := skipBlanks_line level (c := ']') rfl rest
    refine ⟨hle, ?_⟩
    rw [readMoreItems, hskip]
    rfl
  | @cons text x texts xs hitem _ ih =>
    obtain ⟨c, r, hle, hlt, hskip, hbracket, -, hread⟩ :=
      hitem.exists_read (level + 1) (layMore level "]" texts ++ rest)
    obtain ⟨hlt', hmore⟩ := ih
    rw [layMore_cons]
    refine ⟨Nat.lt_trans hlt' (Nat.lt_of_lt_of_le hlt (Nat.le_succ_of_le hle)), ?_⟩
    rw [readMoreItems, skipBlanks_comma]
    simp only [hskip, if_neg hbracket]
    exact bind_eq_ok_iff.2 ⟨_, hread, bind_eq_ok_iff.2 ⟨_, hmore, rfl⟩⟩

theorem yields_readItems (h : List.Forall₂ (ReadBy item) texts xs) (level : Nat)
    (rest : List Char) : Yields (readItems item (layWithin level "]" texts ++ rest)) xs rest := by
  cases h with
  | nil =>
    have hskip : skipBlanks (']' :: rest) = ⟨']' :: rest, Nat.le_refl _⟩ := Subtype.ext rfl
    have hread : readItems item (']' :: rest) = .ok ([], ⟨rest, Nat.lt_succ_self _⟩) := by
      rw [readItems, hskip]
      rfl
    exact ⟨_, hread⟩
  | @cons text x texts xs hitem hitems =>
    obtain ⟨c, r, hle, hlt, hskip, hbracket, -, hread⟩ :=
      hitem.exists_read (level + 1) (layMore level "]" texts ++ rest)
    obtain ⟨hlt', hmore⟩ := yields_readMoreItems hitems level rest
    rw [layWithin_cons]
    refine ⟨Nat.lt_trans hlt' (Nat.lt_of_lt_of_le hlt hle), ?_⟩
    rw [readItems, hskip]
    simp only [if_neg hbracket]
    exact bind_eq_ok_iff.2 ⟨_, hread, bind_eq_ok_iff.2 ⟨_, hmore, rfl⟩⟩

variable {members : List (String × α)}

theorem yields_readMoreMembers (h : List.Forall₂ (ReadBy (readMember item)) texts members)
    (level : Nat) (rest : List Char) :
    Yields (readMoreMembers item (layMore level "\x7d" texts ++ rest)) members rest := by
  induction h with
  | nil =>
    rw [layMore_nil]
    obtain ⟨hle, hskip⟩ := skipBlanks_line level (c := '\x7d') rfl rest
    refine ⟨hle, ?_⟩
    rw [readMoreMembers, hskip]
    rfl
  | @cons text m texts members hmember _ ih =>
    obtain ⟨c, r, hle, hlt, hskip, -, hbrace, hread⟩ :=
      hmember.exists_read (level + 1) (layMore level "\x7d" texts ++ rest)
    obtain ⟨hlt', hmore⟩ := ih
    rw [layMore_cons]
    refine ⟨Nat.lt_trans hlt' (Nat.lt_of_lt_of_le hlt (Nat.le_succ_of_le hle)), ?_⟩
    rw [readMoreMembers, skipBlanks_comma]
    simp only [hskip, if_neg hbrace]
    exact bind_eq_ok_iff.2 ⟨_, hread, bind_eq_ok_iff.2 ⟨_, hmore, rfl⟩⟩

theorem yields_readMembers (h : List.Forall₂ (ReadBy (readMember item)) texts members)
    (level : Nat) (rest : List Char) :
    Yields (readMembers item (layWithin level "\x7d" texts ++ rest)) members rest := by
  cases h with
  | nil =>
    have hskip : skipBlanks ('\x7d' :: rest) = ⟨'\x7d' :: rest, Nat.le_refl _⟩ := Subtype.ext rfl
    have hread : readMembers item ('\x7d' :: rest) = .ok ([], ⟨rest, Nat.lt_succ_self _⟩) := by
      rw [readMembers, hskip]
      rfl
    exact ⟨_, hread⟩
  | @cons text m texts members hmember hmembers =>
    obtain ⟨c, r, hle, hlt, hskip, -, hbrace, hread⟩ :=
      hmember.exists_read (level + 1) (layMore level "\x7d" texts ++ rest)
    obtain ⟨hlt', hmore⟩ := yields_readMoreMembers hmembers level rest
    rw [layWithin_cons]
    refine ⟨Nat.lt_trans hlt' (Nat.lt_of_lt_of_le hlt hle), ?_⟩
    rw [readMembers, hskip]
    simp only [if_neg hbrace]
    exact bind_eq_ok_iff.2 ⟨_, hread, bind_eq_ok_iff.2 ⟨_, hmore, rfl⟩⟩

theorem readBy_member {key : String}
    (h : ∀ rest, Yields (item (' ' :: (text.toList ++ rest))) x rest) :
    ReadBy (readMember item) (quote key ++ ": " ++ text) (key, x) := by
  have htext (rest : List Char) : (quote key ++ ": " ++ text).toList ++ rest = '"' ::
      (key.toList.flatMap escapeChar ++ '"' :: ':' :: ' ' :: (text.toList ++ rest)) := by
    simp [Text.toList_quote]
  constructor
  · rw [← List.append_nil (quote key ++ ": " ++ text).toList, htext]
    exact begins_cons _ (by decide)
  · intro rest
    obtain ⟨hlt, hkey⟩ :=
      (Quoted.spells_escaped key.toList).yields_read (':' :: ' ' :: (text.toList ++ rest))
    obtain ⟨hlt', hvalue⟩ := h rest
    have hcolon : readColon (':' :: ' ' :: (text.toList ++ rest)) =
        .ok ⟨' ' :: (text.toList ++ rest), Nat.lt_succ_self _⟩ := rfl
    rw [htext]
    refine ⟨by simp at hlt hlt' ⊢; omega, ?_⟩
    rw [readMember, if_pos rfl]
    refine bind_eq_ok_iff.2 ⟨_, hkey, bind_eq_ok_iff.2 ⟨_, hcolon, ?_⟩⟩
    refine bind_eq_ok_iff.2 ⟨_, hvalue, ?_⟩
    simp only [String.ofList_toList]
    rfl

end Items

section Values

/-- Values in which no number occurs. -/
inductive Numberless : Json → Prop where
  | null : Numberless .null
  | bool (b : Bool) : Numberless (.bool b)
  | string (s : String) : Numberless (.string s)
  | array {items : List Json} (h : ∀ item ∈ items, Numberless item) : Numberless (.array items)
  | object {members : List (String × Json)} (h : ∀ m ∈ members, Numberless m.2) :
    Numberless (.object members)

mutual

/-- The number of lists and objects that stand inside one another. -/
def levels : Json → Nat
  | .array items => levelsOfItems items + 1
  | .object members => levelsOfMembers members + 1
  | _ => 0

def levelsOfItems : List Json → Nat
  | [] => 0
  | item :: items => max item.levels (levelsOfItems items)

def levelsOfMembers : List (String × Json) → Nat
  | [] => 0
  | (_, value) :: members => max value.levels (levelsOfMembers members)

end

mutual

/-- The value with the members of all its objects in the order in which the reader keeps them. -/
def sorted : Json → Json
  | .array items => .array (sortedItems items)
  | .object members => ofMembers (sortedMembers members)
  | value => value

def sortedItems : List Json → List Json
  | [] => []
  | item :: items => item.sorted :: sortedItems items

def sortedMembers : List (String × Json) → List (String × Json)
  | [] => []
  | (key, value) :: members => (key, value.sorted) :: sortedMembers members

end

theorem sortedItems_eq_map (items : List Json) : sortedItems items = items.map sorted := by
  induction items with
  | nil => rfl
  | cons item items ih => rw [sortedItems, ih, List.map_cons]

theorem sortedMembers_eq_map (members : List (String × Json)) :
    sortedMembers members = members.map fun m => (m.1, m.2.sorted) := by
  induction members with
  | nil => rfl
  | cons m members ih => rw [sortedMembers, ih, List.map_cons]

theorem prettyItems_eq_map (level : Nat) (items : List Json) :
    prettyItems level items = items.map (·.prettyAt level) := by
  induction items with
  | nil => rfl
  | cons item items ih => rw [prettyItems, ih, List.map_cons]

theorem prettyMembers_eq_map (level : Nat) (members : List (String × Json)) :
    prettyMembers level members =
      members.map fun m => quote m.1 ++ ": " ++ m.2.prettyAt level := by
  induction members with
  | nil => rfl
  | cons m members ih => rw [prettyMembers, ih, List.map_cons]

theorem levelsOfItems_le_iff {items : List Json} {n : Nat} :
    levelsOfItems items ≤ n ↔ ∀ item ∈ items, item.levels ≤ n := by
  induction items with
  | nil => exact iff_of_true (Nat.zero_le n) (List.forall_mem_nil _)
  | cons item items ih => rw [levelsOfItems, Nat.max_le, ih, List.forall_mem_cons]

theorem levelsOfMembers_le_iff {members : List (String × Json)} {n : Nat} :
    levelsOfMembers members ≤ n ↔ ∀ m ∈ members, m.2.levels ≤ n := by
  induction members with
  | nil => exact iff_of_true (Nat.zero_le n) (List.forall_mem_nil _)
  | cons m members ih => rw [levelsOfMembers, Nat.max_le, ih, List.forall_mem_cons]

variable {blanks : List Char} (hb : blanks.all isBlank)
include hb

theorem yields_readValue_scalar {c : Char} {r rest : List Char} {value : Json}
    (hc : isBlank c = false) (hbracket : c ≠ '[') (hbrace : c ≠ '\x7b')
    (h : Yields (readScalar (c :: r)) value rest) (n : Nat) :
    Yields (readValue n (blanks ++ c :: r)) value rest := by
  obtain ⟨hlt, h⟩ := h
  obtain ⟨hle, hskip⟩ := skipBlanks_append hb hc r
  refine ⟨Nat.lt_of_lt_of_le hlt hle, ?_⟩
  rw [readValue, hskip]
  simp only [if_neg hbracket, if_neg hbrace]
  exact bind_eq_ok_iff.2 ⟨_, h, rfl⟩

theorem yields_readValue_array {n : Nat} {r rest : List Char} {items : List Json}
    (h : Yields (readItems (readValue n) r) items rest) :
    Yields (readValue (n + 1) (blanks ++ '[' :: r)) (.array items) rest := by
  obtain ⟨hlt, h⟩ := h
  obtain ⟨hle, hskip⟩ := skipBlanks_append hb (c := '[') rfl r
  refine ⟨Nat.lt_trans hlt hle, ?_⟩
  rw [readValue, hskip]
  exact bind_eq_ok_iff.2 ⟨_, h, rfl⟩

theorem yields_readValue_object {n : Nat} {r rest : List Char} {members : List (String × Json)}
    (h : Yields (readMembers (readValue n) r) members rest) :
    Yields (readValue (n + 1) (blanks ++ '\x7b' :: r)) (ofMembers members) rest := by
  obtain ⟨hlt, h⟩ := h
  obtain ⟨hle, hskip⟩ := skipBlanks_append hb (c := '\x7b') rfl r
  refine ⟨Nat.lt_trans hlt hle, ?_⟩
  rw [readValue, hskip]
  exact bind_eq_ok_iff.2 ⟨_, h, rfl⟩

omit hb

theorem Numberless.begins {value : Json} (h : value.Numberless) (level : Nat) :
    Begins (value.prettyAt level).toList := by
  cases h with
  | null =>
    rw [prettyAt]
    exact begins_cons ['u', 'l', 'l'] (by decide)
  | bool b =>
    rw [prettyAt]
    cases b
    · exact begins_cons ['a', 'l', 's', 'e'] (by decide)
    · exact begins_cons ['r', 'u', 'e'] (by decide)
  | string s =>
    rw [prettyAt, Text.toList_quote]
    exact begins_cons _ (by decide)
  | array h =>
    rw [prettyAt, toList_layItems]
    exact begins_cons _ (by decide)
  | object h =>
    rw [prettyAt, toList_layItems]
    exact begins_cons _ (by decide)

theorem Numberless.yields_readValue {value : Json} (h : value.Numberless) {n : Nat}
    (hn : value.levels ≤ n) (level : Nat) (blanks : List Char) (hb : blanks.all isBlank)
    (rest : List Char) :
    Yields (readValue n (blanks ++ ((value.prettyAt level).toList ++ rest))) value.sorted rest := by
  induction h generalizing n level blanks rest with
  | null =>
    have hread : Yields (readScalar ('n' :: 'u' :: 'l' :: 'l' :: rest)) .null rest :=
      ⟨by grind, rfl⟩
    rw [prettyAt]
    exact yields_readValue_scalar hb rfl (by decide) (by decide) hread n
  | bool b =>
    rw [prettyAt]
    cases b
    · have hread :
          Yields (readScalar ('f' :: 'a' :: 'l' :: 's' :: 'e' :: rest)) (.bool false) rest :=
        ⟨by grind, rfl⟩
      exact yields_readValue_scalar hb rfl (by decide) (by decide) hread n
    · have hread : Yields (readScalar ('t' :: 'r' :: 'u' :: 'e' :: rest)) (.bool true) rest :=
        ⟨by grind, rfl⟩
      exact yields_readValue_scalar hb rfl (by decide) (by decide) hread n
  | string s =>
    obtain ⟨hlt, hread⟩ := (Quoted.spells_escaped s.toList).yields_read rest
    have htext : ((Json.string s).prettyAt level).toList ++ rest =
        '"' :: (s.toList.flatMap escapeChar ++ '"' :: rest) := by
      rw [prettyAt, Text.toList_quote, List.append_assoc]
      rfl
    rw [htext]
    apply yields_readValue_scalar hb (c := '"') rfl (by decide) (by decide)
    refine ⟨Nat.lt_succ_of_lt hlt, bind_eq_ok_iff.2 ⟨_, hread, ?_⟩⟩
    simp only [String.ofList_toList]
    rfl
  | @array items h ih =>
    obtain ⟨n, rfl⟩ := Nat.exists_eq_succ_of_ne_zero (Nat.ne_zero_of_lt hn)
    have hlevels := levelsOfItems_le_iff.1 (Nat.le_of_succ_le_succ hn)
    have hread : List.Forall₂ (ReadBy (readValue n)) (items.map (·.prettyAt (level + 1)))
        (items.map sorted) := by
      rw [List.forall₂_map_left_iff, List.forall₂_map_right_iff, List.forall₂_same]
      intro item hm
      exact ⟨(h item hm).begins _, ih item hm (hlevels item hm) (level + 1) [] rfl⟩
    rw [prettyAt, toList_layItems, prettyItems_eq_map, sorted, sortedItems_eq_map]
    exact yields_readValue_array hb (yields_readItems hread level rest)
  | @object members h ih =>
    obtain ⟨n, rfl⟩ := Nat.exists_eq_succ_of_ne_zero (Nat.ne_zero_of_lt hn)
    have hlevels := levelsOfMembers_le_iff.1 (Nat.le_of_succ_le_succ hn)
    have hread : List.Forall₂ (ReadBy (readMember (readValue n)))
        (members.map fun m => quote m.1 ++ ": " ++ m.2.prettyAt (level + 1))
        (members.map fun m => (m.1, m.2.sorted)) := by
      rw [List.forall₂_map_left_iff, List.forall₂_map_right_iff, List.forall₂_same]
      intro m hm
      exact readBy_member (ih m hm (hlevels m hm) (level + 1) [' '] rfl)
    rw [prettyAt, toList_layItems, prettyMembers_eq_map, sorted, sortedMembers_eq_map]
    exact yields_readValue_object hb (yields_readMembers hread level rest)

theorem length_le_layWithin {text : String} {texts : List String} (h : text ∈ texts) (level : Nat)
    (closing : String) : text.toList.length ≤ (layWithin level closing texts).length := by
  have hmore {texts : List String} (h : text ∈ texts) :
      text.toList.length ≤ (layMore level closing texts).length := by
    induction texts with
    | nil => cases h
    | cons first texts ih =>
      simp only [layMore, List.length_cons, List.length_append]
      rcases List.mem_cons.1 h with rfl | h
      · omega
      · have := ih h
        omega
  cases texts with
  | nil => cases h
  | cons first texts =>
    simp only [layWithin, List.length_cons, List.length_append]
    rcases List.mem_cons.1 h with rfl | h
    · omega
    · have := hmore h
      omega

/-- Every level takes a bracket. -/
theorem Numberless.levels_le_length {value : Json} (h : value.Numberless) (level : Nat) :
    value.levels ≤ (value.prettyAt level).toList.length := by
  induction h generalizing level with
  | null => exact Nat.zero_le _
  | bool b => exact Nat.zero_le _
  | string s => exact Nat.zero_le _
  | @array items h ih =>
    rw [levels, prettyAt, toList_layItems, prettyItems_eq_map]
    apply Nat.succ_le_succ
    apply levelsOfItems_le_iff.2
    intro item hm
    have htext := List.mem_map_of_mem (f := (·.prettyAt (level + 1))) hm
    exact Nat.le_trans (ih item hm (level + 1)) (length_le_layWithin htext level "]")
  | @object members h ih =>
    rw [levels, prettyAt, toList_layItems, prettyMembers_eq_map]
    apply Nat.succ_le_succ
    apply levelsOfMembers_le_iff.2
    intro m hm
    have htext := List.mem_map_of_mem
      (f := fun m : String × Json => quote m.1 ++ ": " ++ m.2.prettyAt (level + 1)) hm
    have hvalue : (m.2.prettyAt (level + 1)).toList.length ≤
        (quote m.1 ++ ": " ++ m.2.prettyAt (level + 1)).toList.length := by
      rw [String.toList_append, List.length_append]
      exact Nat.le_add_left _ _
    exact Nat.le_trans (ih m hm (level + 1))
      (Nat.le_trans hvalue (length_le_layWithin htext level "\x7d"))

/-- A value without numbers is read back from its text, with blanks behind it or not, by a reader
that goes deep enough. -/
theorem Numberless.ofTextWithin?_pretty {value : Json} (h : value.Numberless) {n : Nat}
    (hn : value.levels ≤ n) {blanks : String} (hb : blanks.toList.all isBlank) :
    ofTextWithin? n (value.pretty ++ blanks) = .ok value.sorted := by
  have hread : Yields (readValue n (value.pretty ++ blanks).toList) value.sorted blanks.toList := by
    rw [String.toList_append]
    exact h.yields_readValue hn 0 [] rfl blanks.toList
  obtain ⟨hlt, hread⟩ := hread
  have hfinish : finish blanks.toList = .ok () := by rw [finish, skipBlanks_blank hb]
  exact mapError_eq_ok_iff.2 (bind_eq_ok_iff.2 ⟨_, hread, bind_eq_ok_iff.2 ⟨_, hfinish, rfl⟩⟩)

end Values

end NodeSchema.Json
