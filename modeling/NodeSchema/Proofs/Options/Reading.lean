import NodeSchema.Proofs.Options.Spelling

namespace NodeSchema.Options

open Json (isBlank SpellsString Gap Items Yields Begins)

section Written

variable {blanks : List Char}

theorem SpellsValue.begins {key : Key} {v : Value} {written : List Char}
    (h : SpellsValue key v written) : Begins written := by
  cases h with
  | text _ h => exact h.begins
  | texts h => exact Json.begins_cons _ (by decide)

theorem yields_readText (hb : blanks.all isBlank) {text : String} {written : List Char}
    (h : SpellsString text written) (rest : List Char) :
    Yields (readText (blanks ++ (written ++ rest))) text rest := by
  obtain ⟨hw⟩ := h
  obtain ⟨hlt, hread⟩ := hw.yields_read rest
  rw [List.cons_append, List.append_assoc, List.singleton_append]
  obtain ⟨hle, hskip⟩ := Json.skipBlanks_append (c := '"') hb rfl (_ ++ '"' :: rest)
  refine ⟨Nat.lt_of_lt_of_le (Nat.lt_succ_of_lt hlt) hle, ?_⟩
  rw [readText, hskip]
  refine bind_eq_ok_iff.2 ⟨_, json_eq_ok_iff.2 hread, ?_⟩
  simp only [String.ofList_toList]
  rfl

theorem nextItem_gap {first : Bool} {gap written : List Char} (hg : Gap first gap)
    (hw : Begins written) (rest : List Char) :
    ∃ hle, nextItem first (gap ++ (written ++ rest)) = .ok (some ⟨written ++ rest, hle⟩) := by
  obtain ⟨c, r, rfl, hblank, hbracket, -⟩ := hw
  rw [List.cons_append]
  cases hg with
  | first hb =>
    obtain ⟨hle, hskip⟩ := Json.skipBlanks_append hb hblank (r ++ rest)
    refine ⟨hle, ?_⟩
    rw [nextItem, hskip]
    simp only [if_neg hbracket, if_true]
  | @next before behind hb hb' =>
    obtain ⟨hle, hskip⟩ := Json.skipBlanks_append (c := ',') hb rfl (behind ++ c :: (r ++ rest))
    obtain ⟨hle', hskip'⟩ := Json.skipBlanks_append hb' hblank (r ++ rest)
    rw [List.append_assoc, List.cons_append]
    refine ⟨Nat.le_trans hle' (Nat.le_of_lt hle), ?_⟩
    rw [nextItem, hskip]
    simp only [hskip', if_neg hbracket]
    rfl

theorem nextItem_end (hb : blanks.all isBlank) (first : Bool) (rest : List Char) :
    nextItem first (blanks ++ ']' :: rest) = .ok none := by
  obtain ⟨hle, hskip⟩ := Json.skipBlanks_append (c := ']') hb rfl rest
  rw [nextItem, hskip]
  rfl

theorem closeList_end (hb : blanks.all isBlank) (rest : List Char) :
    ∃ hlt, closeList (blanks ++ ']' :: rest) = .ok ⟨rest, hlt⟩ := by
  obtain ⟨hle, hskip⟩ := Json.skipBlanks_append (c := ']') hb rfl rest
  refine ⟨hle, ?_⟩
  rw [closeList, hskip]
  rfl

theorem yields_readTextItems {first : Bool} {texts : List String} {items : List Char}
    (h : Items SpellsString first texts items) (rest : List Char) :
    Yields (readTextItems first (items ++ ']' :: rest)) texts rest := by
  induction h with
  | nil hb =>
    obtain ⟨hlt, hclose⟩ := closeList_end hb rest
    refine ⟨hlt, ?_⟩
    rw [readTextItems]
    exact bind_eq_ok_iff.2 ⟨_, nextItem_end hb _ rest, bind_eq_ok_iff.2 ⟨_, hclose, rfl⟩⟩
  | @cons _ gap written _ _ _ hg hw _ ih =>
    rw [List.append_assoc, List.append_assoc]
    obtain ⟨hle, hnext⟩ := nextItem_gap hg hw.begins (_ ++ ']' :: rest)
    have hnone : ([] : List Char).all isBlank := rfl
    obtain ⟨hlt, htext⟩ := yields_readText hnone hw (_ ++ ']' :: rest)
    obtain ⟨hlt', hmore⟩ := ih
    refine ⟨Nat.lt_of_lt_of_le (Nat.lt_trans hlt' hlt) hle, ?_⟩
    rw [readTextItems]
    exact bind_eq_ok_iff.2 ⟨_, hnext, bind_eq_ok_iff.2 ⟨_, htext, bind_eq_ok_iff.2 ⟨_, hmore, rfl⟩⟩⟩

theorem yields_readTexts (hb : blanks.all isBlank) {texts : List String} {items : List Char}
    (h : Items SpellsString true texts items) (rest : List Char) :
    Yields (readTexts (blanks ++ '[' :: (items ++ ']' :: rest))) texts rest := by
  obtain ⟨hlt, hread⟩ := yields_readTextItems h rest
  obtain ⟨hle, hskip⟩ := Json.skipBlanks_append (c := '[') hb rfl (items ++ ']' :: rest)
  refine ⟨Nat.lt_trans hlt hle, ?_⟩
  rw [readTexts, hskip]
  exact bind_eq_ok_iff.2 ⟨_, hread, rfl⟩

theorem SpellsValue.exists_read {key : Key} {v : Value} {written : List Char}
    (h : SpellsValue key v written) (hb : blanks.all isBlank) (options : Options)
    (rest : List Char) :
    ∃ options', Yields (readSetting options key (blanks ++ (written ++ rest))) options' rest ∧
      options.Holds [(key, v)] options' := by
  cases h with
  | @text _ text _ hk h =>
    obtain ⟨hlt, hread⟩ := yields_readText hb h rest
    refine ⟨_, ⟨hlt, ?_⟩, holds_setText hk options text⟩
    rw [readSetting_of_ne hk]
    exact bind_eq_ok_iff.2 ⟨_, hread, rfl⟩
  | @texts names items h =>
    obtain ⟨hlt, hread⟩ := yields_readTexts hb h rest
    rw [List.cons_append, List.append_assoc, List.singleton_append]
    exact ⟨_, ⟨hlt, bind_eq_ok_iff.2 ⟨_, hread, rfl⟩⟩, holds_opaqueTypes options names⟩

theorem exists_readPositional (options : Options) {first : Bool} {keys : List Key}
    {given : List (Key × Value)} {items : List Char} (hd : keys.Nodup)
    (hk : given.map Prod.fst <+: keys) (h : Items (fun m => SpellsValue m.1 m.2) first given items)
    (rest : List Char) :
    ∃ options' t hle hlt,
      readPositional options first keys (items ++ ']' :: rest) = .ok (options', ⟨t, hle⟩) ∧
        closeList t = .ok ⟨rest, hlt⟩ ∧ options.Holds given options' := by
  induction h generalizing options keys with
  | @nil first blanks hb =>
    obtain ⟨hlt, hclose⟩ := closeList_end hb rest
    refine ⟨options, _, Nat.le_refl _, hlt, ?_, hclose, holds_nil options⟩
    cases keys with
    | nil => rfl
    | cons key keys => exact bind_eq_ok_iff.2 ⟨_, nextItem_end hb first rest, rfl⟩
  | @cons first gap written items m given hg hw _ ih =>
    cases keys with
    | nil => exact absurd (List.prefix_nil.1 hk) (List.cons_ne_nil _ _)
    | cons key keys =>
      obtain ⟨rfl, hkeys⟩ := List.cons_prefix_cons.1 hk
      obtain ⟨hnew, hd⟩ := List.nodup_cons.1 hd
      rw [List.append_assoc, List.append_assoc]
      obtain ⟨hle, hnext⟩ := nextItem_gap hg hw.begins (items ++ ']' :: rest)
      have hnone : ([] : List Char).all isBlank := rfl
      obtain ⟨between, ⟨hlt, hvalue⟩, hset⟩ :=
        hw.exists_read hnone options (items ++ ']' :: rest)
      obtain ⟨last, t, hle', hlt', hmore, hclose, hholds⟩ := ih between hd hkeys
      refine ⟨last, t, Nat.le_trans hle' (Nat.le_trans (Nat.le_of_lt hlt) hle), hlt', ?_, hclose,
        hset.cons hholds fun hm => hnew (hkeys.subset hm)⟩
      refine bind_eq_ok_iff.2 ⟨_, hnext, bind_eq_ok_iff.2 ⟨_, hvalue, ?_⟩⟩
      exact bind_eq_ok_iff.2 ⟨_, hmore, rfl⟩

theorem readColon_end (hb : blanks.all isBlank) (rest : List Char) :
    ∃ hlt, Json.readColon (blanks ++ ':' :: rest) = .ok ⟨rest, hlt⟩ := by
  obtain ⟨hle, hskip⟩ := Json.skipBlanks_append (c := ':') hb rfl rest
  refine ⟨hle, ?_⟩
  rw [Json.readColon, hskip]
  rfl

theorem SpellsMember.begins {m : Key × Value} {written : List Char} (h : SpellsMember m written) :
    Begins written := by
  obtain ⟨⟨hn⟩, hb, hb', hv⟩ := h
  exact Json.begins_cons _ (by decide)

theorem SpellsMember.exists_read {key : Key} {v : Value} {written : List Char}
    (h : SpellsMember (key, v) written) {seen : List Key} (hk : key ∉ seen) (options : Options)
    (rest : List Char) :
    ∃ options' hlt, readMember options seen (written ++ rest) = .ok (key, options', ⟨rest, hlt⟩) ∧
      options.Holds [(key, v)] options' := by
  cases h with
  | @member _ _ _ before behind written hn hb hb' hv =>
  cases hn with
  | @quoted quoted hn =>
  obtain ⟨options', ⟨hlt, hvalue⟩, hset⟩ := hv.exists_read hb' options rest
  obtain ⟨hlt', hcolon⟩ := readColon_end hb (behind ++ (written ++ rest))
  obtain ⟨hlt'', hname⟩ := hn.yields_read (before ++ ':' :: (behind ++ (written ++ rest)))
  have hseen : seen.contains key = false := by simpa using hk
  have htext : '"' :: (quoted ++ ['"']) ++ (before ++ ':' :: (behind ++ written)) ++ rest =
      '"' :: (quoted ++ '"' :: (before ++ ':' :: (behind ++ (written ++ rest)))) := by simp
  rw [htext]
  refine ⟨options', Nat.lt_succ_of_lt (Nat.lt_trans hlt (Nat.lt_trans hlt' hlt'')), ?_, hset⟩
  rw [readMember.eq_def]
  refine bind_eq_ok_iff.2 ⟨_, json_eq_ok_iff.2 hname, ?_⟩
  simp only [String.ofList_toList, ofName?_name, hseen]
  exact bind_eq_ok_iff.2 ⟨_, json_eq_ok_iff.2 hcolon, bind_eq_ok_iff.2 ⟨_, hvalue, rfl⟩⟩

theorem exists_readMembers {first : Bool} {given : List (Key × Value)} {items : List Char}
    (h : Items SpellsMember first given items) {seen : List Key} (hfirst : first = seen.isEmpty)
    (hd : (given.map Prod.fst).Nodup) (hnew : (given.map Prod.fst).Disjoint seen)
    (base : Options) (rest : List Char) :
    ∃ options, Yields (readMembers base seen (items ++ '\x7d' :: rest)) options rest ∧
      base.Holds given options := by
  induction h generalizing seen base with
  | @nil _ blanks hb =>
    obtain ⟨hlt, hskip⟩ := Json.skipBlanks_append (c := '\x7d') hb rfl rest
    refine ⟨base, ⟨hlt, ?_⟩, holds_nil base⟩
    rw [readMembers, hskip]
    rfl
  | @cons _ gap written items m given hg hw _ ih =>
    obtain ⟨key, v⟩ := m
    obtain ⟨hkey, hd⟩ := List.nodup_cons.1 hd
    obtain ⟨hk, hnew⟩ := List.disjoint_cons_left.1 hnew
    obtain ⟨c, r, rfl, hblank, -, hbrace⟩ := hw.begins
    have hread := hw.exists_read hk base (items ++ '\x7d' :: rest)
    rw [List.append_assoc, List.append_assoc]
    rw [List.cons_append] at hread ⊢
    obtain ⟨between, hlt, hmember, hset⟩ := hread
    obtain ⟨options, ⟨hlt', hmore⟩, hholds⟩ :=
      ih rfl hd (List.disjoint_cons_right.2 ⟨hkey, hnew⟩) between
    refine ⟨options, ?_, hset.cons hholds hkey⟩
    -- That a member is the first one is told to the reader by the keys that it has seen.
    cases hg with
    | first hb =>
      obtain ⟨hle, hskip⟩ := Json.skipBlanks_append hb hblank (r ++ (items ++ '\x7d' :: rest))
      refine ⟨Nat.lt_of_lt_of_le (Nat.lt_trans hlt' hlt) hle, ?_⟩
      rw [readMembers, hskip]
      simp only [if_neg hbrace, ← hfirst, if_true]
      exact bind_eq_ok_iff.2 ⟨_, hmember, bind_eq_ok_iff.2 ⟨_, hmore, rfl⟩⟩
    | @next before behind hb hb' =>
      obtain ⟨hle, hskip⟩ := Json.skipBlanks_append (c := ',') hb rfl
        (behind ++ c :: (r ++ (items ++ '\x7d' :: rest)))
      obtain ⟨hle', hskip'⟩ := Json.skipBlanks_append hb' hblank (r ++ (items ++ '\x7d' :: rest))
      rw [List.append_assoc, List.cons_append]
      refine ⟨Nat.lt_trans (Nat.lt_of_lt_of_le (Nat.lt_trans hlt' hlt) hle') hle, ?_⟩
      rw [readMembers, hskip]
      simp only [← hfirst, hskip', if_neg hbrace]
      exact bind_eq_ok_iff.2 ⟨_, hmember, bind_eq_ok_iff.2 ⟨_, hmore, rfl⟩⟩

theorem SpellsGiven.exists_read {given : List (Key × Value)} {written : List Char}
    (h : SpellsGiven given written) (hb : blanks.all isBlank) (rest : List Char) :
    ∃ options, Yields (read (blanks ++ (written ++ rest))) options rest ∧
      Holds default given options := by
  cases h with
  | @object items hd h =>
    obtain ⟨options, ⟨hlt, hmembers⟩, hholds⟩ :=
      exists_readMembers h rfl hd (List.disjoint_nil_right _) default rest
    have htext : '\x7b' :: (items ++ ['\x7d']) ++ rest = '\x7b' :: (items ++ '\x7d' :: rest) := by
      simp
    rw [htext]
    obtain ⟨hle, hskip⟩ := Json.skipBlanks_append (c := '\x7b') hb rfl (items ++ '\x7d' :: rest)
    refine ⟨options, ⟨Nat.lt_trans hlt hle, ?_⟩, hholds⟩
    rw [read, hskip]
    exact bind_eq_ok_iff.2 ⟨_, hmembers, rfl⟩
  | @list items hk h =>
    obtain ⟨options, t, hle, hlt, hvalues, hclose, hholds⟩ :=
      exists_readPositional default (by decide) hk h rest
    have htext : '[' :: (items ++ [']']) ++ rest = '[' :: (items ++ ']' :: rest) := by simp
    rw [htext]
    obtain ⟨hle', hskip⟩ := Json.skipBlanks_append (c := '[') hb rfl (items ++ ']' :: rest)
    refine ⟨options, ⟨Nat.lt_trans (Nat.lt_of_lt_of_le hlt hle) hle', ?_⟩, hholds⟩
    rw [read, hskip]
    exact bind_eq_ok_iff.2 ⟨_, hvalues, bind_eq_ok_iff.2 ⟨_, hclose, rfl⟩⟩

end Written

/-- A text gives options just if it spells values for some keys, and these are the options with
these values and all others as they are by default. -/
theorem ofText?_eq_ok_iff {text : String} {options : Options} :
    ofText? text = .ok options ↔ ∃ given, Spells given text ∧ Holds default given options := by
  constructor
  · intro h
    obtain ⟨⟨last, t, ht⟩, hread, h⟩ := bind_eq_ok_iff.1 (mapError_eq_ok_iff.1 h)
    obtain ⟨⟨⟩, hfinish, h⟩ := bind_eq_ok_iff.1 h
    cases h
    obtain ⟨given, before, written, hb, hw, htext, hholds⟩ := spells_of_read hread
    have hbehind := blank_of_finish (json_eq_ok_iff.1 hfinish)
    exact ⟨given, ⟨before, written, t, hb, hbehind, hw, htext⟩, hholds⟩
  · intro h
    obtain ⟨given, ⟨before, written, behind, hb, hbehind, hw, htext⟩, hholds⟩ := h
    -- The reader answers with options in which the same holds, and there are no others.
    obtain ⟨options', hread, hholds'⟩ := hw.exists_read hb behind
    obtain rfl := hholds'.unique hholds
    rw [← htext] at hread
    obtain ⟨hlt, hread⟩ := hread
    have hend : Json.finish behind = .ok () := by rw [Json.finish, Json.skipBlanks_blank hbehind]
    have hfinish := json_eq_ok_iff.2 hend
    exact mapError_eq_ok_iff.2 (bind_eq_ok_iff.2 ⟨_, hread, bind_eq_ok_iff.2 ⟨_, hfinish, rfl⟩⟩)

end NodeSchema.Options
