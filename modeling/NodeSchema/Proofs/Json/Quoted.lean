import Mathlib.Data.List.TakeWhile
import NodeSchema.Json.Quoted
import NodeSchema.Proofs.Success

namespace NodeSchema.Json

open Text (Stop)

/-- A reader answers with a value and has read everything up to a rest. -/
def Yields {ε α : Type} {s : List Char} (result : Except ε (α × Rest s)) (a : α)
    (rest : List Char) : Prop :=
  ∃ h : rest.length < s.length, result = .ok (a, ⟨rest, h⟩)

theorem skipBlanks_append {blanks : List Char} (hb : blanks.all isBlank) {c : Char}
    (hc : isBlank c = false) (r : List Char) :
    ∃ h, skipBlanks (blanks ++ c :: r) = ⟨c :: r, h⟩ := by
  have hdrop : (blanks ++ c :: r).dropWhile isBlank = c :: r := by
    rw [List.dropWhile_append_of_pos (List.all_eq_true.1 hb),
      List.dropWhile_cons_of_neg (ne_true_of_eq_false hc)]
  have hle : (c :: r).length ≤ (blanks ++ c :: r).length := by simp
  exact ⟨hle, Subtype.ext hdrop⟩

theorem skipBlanks_blank {blanks : List Char} (hb : blanks.all isBlank) :
    skipBlanks blanks = ⟨[], Nat.zero_le _⟩ :=
  Subtype.ext (List.dropWhile_eq_nil_iff.2 (List.all_eq_true.1 hb))

theorem exists_blanks {s r : List Char} {h : r.length ≤ s.length} (hs : skipBlanks s = ⟨r, h⟩) :
    ∃ blanks : List Char, blanks.all isBlank ∧ s = blanks ++ r := by
  have hr : s.dropWhile isBlank = r := congrArg Subtype.val hs
  refine ⟨s.takeWhile isBlank, List.all_takeWhile, ?_⟩
  rw [← hr, List.takeWhile_append_dropWhile]

/-- A text that is taken neither for a blank nor for the end of a list or an object. -/
def Begins (text : List Char) : Prop :=
  ∃ c r, text = c :: r ∧ isBlank c = false ∧ c ≠ ']' ∧ c ≠ '\x7d'

theorem begins_cons {c : Char} (r : List Char) (h : isBlank c = false ∧ c ≠ ']' ∧ c ≠ '\x7d') :
    Begins (c :: r) := ⟨c, r, rfl, h⟩

namespace Quoted

/-- How a character may be written between quotes. -/
inductive Escaped (c : Char) : List Char → Prop where
  | plain (h : isPlain c) : Escaped c [c]
  | short {d : Char} (h : shortEscape? d = some c) : Escaped c ['\\', d]
  | code {a b d e : Char} (h : hexNumber? a b d e = some c.toNat) :
      Escaped c ['\\', 'u', a, b, d, e]
  | pair {a b d e a' b' d' e' : Char} {leading trailing : Nat}
      (h : hexNumber? a b d e = some leading) (hl : isLeading leading)
      (h' : hexNumber? a' b' d' e' = some trailing) (ht : isTrailing trailing)
      (hc : c = joinSurrogates leading trailing) :
      Escaped c ['\\', 'u', a, b, d, e, '\\', 'u', a', b', d', e']

/-- The characters that stand between quotes for a text. -/
inductive Spells : List Char → List Char → Prop where
  | nil : Spells [] []
  | cons {c : Char} {cs written rest : List Char} (h : Escaped c written) (h' : Spells cs rest) :
      Spells (c :: cs) (written ++ rest)

theorem Spells.append {cs cs' written written' : List Char} (h : Spells cs written)
    (h' : Spells cs' written') : Spells (cs ++ cs') (written ++ written') := by
  induction h with
  | nil => exact h'
  | cons hc _ ih =>
    rw [List.cons_append, List.append_assoc]
    exact .cons hc ih

theorem spells_plain {cs : List Char} (h : cs.all isPlain) : Spells cs cs := by
  induction cs with
  | nil => exact .nil
  | cons c cs ih =>
    rw [List.all_cons, Bool.and_eq_true] at h
    exact .cons (.plain h.1) (ih h.2)

section Numbers

theorem toNat_sub_lt {c first last : Char} {n : Nat} (h : first ≤ c && c ≤ last)
    (hn : last.toNat < first.toNat + n) : c.toNat - first.toNat < n := by
  simp only [Bool.and_eq_true, decide_eq_true_eq] at h
  have hfirst : first.toNat ≤ c.toNat := UInt32.le_iff_toNat_le.1 h.1
  have hlast : c.toNat ≤ last.toNat := UInt32.le_iff_toNat_le.1 h.2
  omega

theorem hexDigit?_lt {c : Char} {n : Nat} (h : hexDigit? c = some n) : n < 16 := by
  rw [hexDigit?] at h
  split at h
  next hc =>
    cases h
    exact Nat.lt_trans (toNat_sub_lt hc (by decide : '9'.toNat < '0'.toNat + 10)) (by decide)
  split at h
  next hc =>
    cases h
    exact Nat.add_lt_add_right (toNat_sub_lt hc (by decide : 'f'.toNat < 'a'.toNat + 6)) 10
  split at h
  next hc =>
    cases h
    exact Nat.add_lt_add_right (toNat_sub_lt hc (by decide : 'F'.toNat < 'A'.toNat + 6)) 10
  cases h

theorem hexNumber?_lt {a b d e : Char} {n : Nat} (h : hexNumber? a b d e = some n) :
    n < 0x10000 := by
  simp only [hexNumber?, Option.bind_eq_bind, Option.bind_eq_some_iff, Option.pure_def,
    Option.some.injEq] at h
  obtain ⟨a', ha, b', hb, d', hd, e', he, rfl⟩ := h
  have := hexDigit?_lt ha
  have := hexDigit?_lt hb
  have := hexDigit?_lt hd
  have := hexDigit?_lt he
  omega

theorem not_surrogate (c : Char) : isTrailing c.toNat = false ∧ isLeading c.toNat = false := by
  have hc : c.toNat < 0xD800 ∨ 0xDFFF < c.toNat ∧ c.toNat < 0x110000 := c.valid
  simp only [isTrailing, isLeading, Bool.and_eq_false_iff, decide_eq_false_iff_not]
  omega

theorem toNat_ofNat {n : Nat} (hn : n < 0x10000) (ht : isTrailing n = false)
    (hl : isLeading n = false) : (Char.ofNat n).toNat = n := by
  simp only [isTrailing, isLeading, Bool.and_eq_false_iff, decide_eq_false_iff_not] at ht hl
  have hvalid : n.isValidChar := by
    simp only [Nat.isValidChar]
    omega
  rw [Char.ofNat, dif_pos hvalid]
  rfl

end Numbers

section Reading

variable {s rest : List Char} {hlt : rest.length < s.length} {c : Char}

theorem number_of_readHex {n : Nat} (h : readHex s = .ok (n, ⟨rest, hlt⟩)) :
    ∃ a b d e, hexNumber? a b d e = some n ∧ s = a :: b :: d :: e :: rest := by
  rw [readHex.eq_def] at h
  split at h
  next a b d e r =>
    split at h
    next n' hn =>
      cases h
      exact ⟨a, b, d, e, hn, rfl⟩
    next => cases h
  next =>
    split at h <;> cases h

theorem number_of_readTrailing {leading : Nat}
    (h : readTrailing leading s = .ok (c, ⟨rest, hlt⟩)) :
    ∃ a b d e trailing, hexNumber? a b d e = some trailing ∧ isTrailing trailing ∧
      c = joinSurrogates leading trailing ∧ s = '\\' :: 'u' :: a :: b :: d :: e :: rest := by
  rw [readTrailing.eq_def] at h
  split at h
  next => cases h
  next => cases h
  next r =>
    obtain ⟨⟨n, t, ht⟩, hn, h⟩ := bind_eq_ok_iff.1 h
    obtain ⟨a, b, d, e, hnumber, rfl⟩ := number_of_readHex hn
    simp only at h
    split at h
    next htrailing =>
      obtain ⟨hc, hrest⟩ := Prod.mk.inj (Except.ok.inj h)
      obtain rfl : t = rest := congrArg Subtype.val hrest
      exact ⟨a, b, d, e, n, hnumber, htrailing, hc.symm, rfl⟩
    next => cases h
  next => cases h
  next => cases h

theorem escaped_of_readCodePoint (h : readCodePoint s = .ok (c, ⟨rest, hlt⟩)) :
    ∃ written, Escaped c ('\\' :: 'u' :: written) ∧ s = written ++ rest := by
  obtain ⟨⟨n, t, ht⟩, hn, h⟩ := bind_eq_ok_iff.1 h
  obtain ⟨a, b, d, e, hnumber, rfl⟩ := number_of_readHex hn
  simp only at h
  split at h
  next => cases h
  next htrailing =>
  split at h
  next hleading =>
    obtain ⟨⟨c', t', ht'⟩, hpair, h⟩ := bind_eq_ok_iff.1 h
    cases h
    obtain ⟨a', b', d', e', trailing, hnumber', htrailing', hc, rfl⟩ := number_of_readTrailing hpair
    exact ⟨_, .pair hnumber hleading hnumber' htrailing' hc, rfl⟩
  next hleading =>
    cases h
    rw [Bool.not_eq_true] at htrailing hleading
    have hc := toNat_ofNat (hexNumber?_lt hnumber) htrailing hleading
    exact ⟨_, .code (hc.symm ▸ hnumber), rfl⟩

theorem escaped_of_readEscape (h : readEscape s = .ok (c, ⟨rest, hlt⟩)) :
    ∃ written, Escaped c ('\\' :: written) ∧ s = written ++ rest := by
  rw [readEscape.eq_def] at h
  split at h
  next => cases h
  next d r =>
  split at h
  next hu =>
    subst hu
    obtain ⟨⟨c', t, ht⟩, hc, h⟩ := bind_eq_ok_iff.1 h
    cases h
    obtain ⟨written, hw, rfl⟩ := escaped_of_readCodePoint hc
    exact ⟨_, hw, rfl⟩
  next =>
  split at h
  next c' hshort =>
    cases h
    exact ⟨_, .short hshort, rfl⟩
  next => cases h

theorem spells_of_read (s : List Char) {cs rest : List Char} {hlt : rest.length < s.length}
    (h : read s = .ok (cs, ⟨rest, hlt⟩)) :
    ∃ written, Spells cs written ∧ s = written ++ '"' :: rest := by
  rw [read] at h
  split at h
  next => cases h
  next c r hr hdrop =>
  have htail : s.dropWhile isPlain = c :: r := congrArg Subtype.val hdrop
  have hs : s = s.takeWhile isPlain ++ c :: r := by rw [← htail, List.takeWhile_append_dropWhile]
  have hplain := spells_plain (List.all_takeWhile (p := isPlain) (l := s))
  split at h
  next hc =>
    cases h
    subst hc
    exact ⟨_, hplain, hs⟩
  next =>
  split at h
  next hc =>
    obtain ⟨⟨e, t, ht⟩, he, h⟩ := bind_eq_ok_iff.1 h
    obtain ⟨⟨cs', t', ht'⟩, hread, h⟩ := bind_eq_ok_iff.1 h
    cases h
    subst hc
    obtain ⟨written, hw, rfl⟩ := escaped_of_readEscape he
    have hshorter : t.length < s.length := Nat.lt_trans ht hr
    obtain ⟨written', hw', rfl⟩ := spells_of_read t hread
    refine ⟨_, hplain.append (.cons hw hw'), hs.trans ?_⟩
    simp only [Rest.val_trans, List.append_assoc, List.cons_append]
  next => cases h
termination_by s.length
decreasing_by exact hshorter

end Reading

section Written

theorem readHex_of_number {a b d e : Char} {n : Nat} (h : hexNumber? a b d e = some n)
    (s : List Char) :
    readHex (a :: b :: d :: e :: s) = .ok (n, .cons a (.cons b (.cons d (.ofCons e s)))) := by
  rw [readHex, h]

theorem yields_read_end (rest : List Char) : Yields (read ('"' :: rest)) [] rest := by
  refine ⟨Nat.lt_succ_self _, ?_⟩
  rw [read]
  rfl

theorem yields_read_plain {c : Char} (hc : isPlain c) {s cs rest : List Char}
    (h : Yields (read s) cs rest) : Yields (read (c :: s)) (c :: cs) rest := by
  obtain ⟨hlt, h⟩ := h
  refine ⟨Nat.lt_succ_of_lt hlt, ?_⟩
  have htake : (c :: s).takeWhile isPlain = c :: s.takeWhile isPlain :=
    List.takeWhile_cons_of_pos hc
  rw [read] at h
  split at h
  · cases h
  next d r hd he =>
  have hdrop : Tail.dropWhile isPlain (c :: s) = ⟨d :: r, Nat.le_succ_of_le hd⟩ :=
    Subtype.ext ((List.dropWhile_cons_of_pos hc).trans (congrArg Subtype.val he))
  rw [read, hdrop, htake]
  by_cases hq : d = '"'
  · rw [if_pos hq] at h
    simp only [if_pos hq]
    cases h
    rfl
  by_cases hs : d = '\\'
  · rw [if_neg hq, if_pos hs] at h
    simp only [if_neg hq, if_pos hs]
    obtain ⟨⟨e, afterEscape⟩, he, h⟩ := bind_eq_ok_iff.1 h
    obtain ⟨⟨cs', rest'⟩, hr, h⟩ := bind_eq_ok_iff.1 h
    cases h
    exact bind_eq_ok_iff.2 ⟨_, he, bind_eq_ok_iff.2 ⟨_, hr, rfl⟩⟩
  · rw [if_neg hq, if_neg hs] at h
    cases h

theorem yields_read_escape {e : Char} {s s' cs rest : List Char} (he : Yields (readEscape s) e s')
    (h : Yields (read s') cs rest) : Yields (read ('\\' :: s)) (e :: cs) rest := by
  obtain ⟨hlt, he⟩ := he
  obtain ⟨hlt', h⟩ := h
  refine ⟨Nat.lt_succ_of_lt (Nat.lt_trans hlt' hlt), ?_⟩
  have hdrop : Tail.dropWhile isPlain ('\\' :: s) = ⟨'\\' :: s, Nat.le_refl _⟩ := Subtype.ext rfl
  rw [read, hdrop]
  exact bind_eq_ok_iff.2 ⟨_, he, bind_eq_ok_iff.2 ⟨_, h, rfl⟩⟩

theorem Escaped.yields_read {c : Char} {written : List Char} (hc : Escaped c written)
    {s cs rest : List Char} (h : Yields (read s) cs rest) :
    Yields (read (written ++ s)) (c :: cs) rest := by
  cases hc with
  | plain hp => exact yields_read_plain hp h
  | @short d he =>
    have hd : d ≠ 'u' := by
      rintro rfl
      cases he
    have hread : readEscape (d :: s) = .ok (c, .ofCons d s) := by
      rw [readEscape.eq_def]
      simp only [if_neg hd, he]
    exact yields_read_escape ⟨_, hread⟩ h
  | @code a b d e hnumber =>
    obtain ⟨htrailing, hleading⟩ := not_surrogate c
    have hpoint : readCodePoint (a :: b :: d :: e :: s) =
        .ok (c, .cons a (.cons b (.cons d (.ofCons e s)))) := by
      refine bind_eq_ok_iff.2 ⟨_, readHex_of_number hnumber s, ?_⟩
      simp only [htrailing, hleading, Bool.false_eq_true, if_false, Char.ofNat_toNat]
    have hread : Yields (readEscape ('u' :: a :: b :: d :: e :: s)) c s :=
      ⟨_, bind_eq_ok_iff.2 ⟨_, hpoint, rfl⟩⟩
    exact yields_read_escape hread h
  | @pair a b d e a' b' d' e' leading trailing hnumber hl hnumber' ht hc =>
    have hleading : isTrailing leading = false := by
      simp only [isLeading, isTrailing, Bool.and_eq_true, decide_eq_true_eq,
        Bool.and_eq_false_iff, decide_eq_false_iff_not] at hl ⊢
      omega
    have hsecond : readTrailing leading ('\\' :: 'u' :: a' :: b' :: d' :: e' :: s) =
        .ok (c, .cons '\\' (.cons 'u' (.cons a' (.cons b' (.cons d' (.ofCons e' s)))))) := by
      refine bind_eq_ok_iff.2 ⟨_, readHex_of_number hnumber' s, ?_⟩
      simp only [ht, if_true, hc]
    have hpoint : Yields
        (readCodePoint (a :: b :: d :: e :: '\\' :: 'u' :: a' :: b' :: d' :: e' :: s)) c s := by
      refine ⟨by simp; omega, bind_eq_ok_iff.2 ⟨_, readHex_of_number hnumber _, ?_⟩⟩
      simp only [hleading, Bool.false_eq_true, if_false, hl, if_true]
      exact bind_eq_ok_iff.2 ⟨_, hsecond, rfl⟩
    obtain ⟨hlt, hpoint⟩ := hpoint
    have hread : Yields
        (readEscape ('u' :: a :: b :: d :: e :: '\\' :: 'u' :: a' :: b' :: d' :: e' :: s)) c s :=
      ⟨_, bind_eq_ok_iff.2 ⟨_, hpoint, rfl⟩⟩
    exact yields_read_escape hread h

theorem Spells.yields_read {cs written : List Char} (h : Spells cs written) (rest : List Char) :
    Yields (read (written ++ '"' :: rest)) cs rest := by
  induction h with
  | nil => exact yields_read_end rest
  | cons hc _ ih =>
    rw [List.append_assoc]
    exact hc.yields_read ih

end Written

end Quoted

end NodeSchema.Json
