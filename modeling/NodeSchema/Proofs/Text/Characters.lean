import NodeSchema.Text.Position
import NodeSchema.Text.Word

namespace NodeSchema.Text

theorem isWordChar_of_isBlank {c : Char} (h : isBlank c) : isWordChar c = false := by
  have hall : ∀ r ∈ blankTable, ∀ n ∈ List.range' r.1 (r.2 - r.1 + 1),
      isWordChar (Char.ofNat n) = false := by decide +kernel
  obtain ⟨r, hr, hc⟩ := List.any_eq_true.1 h
  rw [Bool.and_eq_true, decide_eq_true_eq, decide_eq_true_eq] at hc
  have hm : c.toNat ∈ List.range' r.1 (r.2 - r.1 + 1) := by
    rw [List.mem_range'_1]
    omega
  have := hall r hr c.toNat hm
  rwa [Char.ofNat_toNat] at this

theorem toNat_lt_of_isAsciiWordChar {c : Char} (h : isAsciiWordChar c) : c.toNat < 0x80 := by
  simp only [isAsciiWordChar, Bool.or_eq_true, Bool.and_eq_true, decide_eq_true_eq, beq_iff_eq] at h
  rcases h with ((⟨-, h⟩ | ⟨-, h⟩) | ⟨-, h⟩) | rfl
  · exact Nat.lt_of_le_of_lt h (by decide)
  · exact Nat.lt_of_le_of_lt h (by decide)
  · exact Nat.lt_of_le_of_lt h (by decide)
  · decide

theorem le_toNat_of_isAsciiWordChar {c : Char} (h : isAsciiWordChar c) : 0x20 ≤ c.toNat := by
  simp only [isAsciiWordChar, Bool.or_eq_true, Bool.and_eq_true, decide_eq_true_eq, beq_iff_eq] at h
  rcases h with ((⟨h, -⟩ | ⟨h, -⟩) | ⟨h, -⟩) | rfl
  · exact Nat.le_trans (by decide) h
  · exact Nat.le_trans (by decide) h
  · exact Nat.le_trans (by decide) h
  · decide

theorem forall_isAsciiWordChar {p : Char → Prop} (h : ∀ n < 0x80, p (Char.ofNat n)) {c : Char}
    (hc : isAsciiWordChar c) : p c := by
  have hp := h c.toNat (toNat_lt_of_isAsciiWordChar hc)
  rwa [Char.ofNat_toNat] at hp

theorem isWordChar_of_isAsciiWordChar {c : Char} (h : isAsciiWordChar c) : isWordChar c := by
  rw [isWordChar, if_pos (toNat_lt_of_isAsciiWordChar h)]
  exact h

theorem isAsciiWordChar_eq_false {c : Char} (h : isWordChar c = false) :
    isAsciiWordChar c = false := by
  cases hc : isAsciiWordChar c with
  | false => rfl
  | true =>
    rw [isWordChar_of_isAsciiWordChar hc] at h
    exact h

theorem isWordChar_of_mem_isName {cs : List Char} (h : isName cs) {c : Char} (hc : c ∈ cs) :
    isWordChar c :=
  isWordChar_of_isAsciiWordChar (List.all_eq_true.1 (all_isAsciiWordChar_of_isName h) c hc)

theorem isBlank_eq_false_of_mem_isName {cs : List Char} (h : isName cs) {c : Char} (hc : c ∈ cs) :
    isBlank c = false := by
  apply Bool.eq_false_iff.2
  intro hb
  have hw := isWordChar_of_mem_isName h hc
  rw [isWordChar_of_isBlank hb] at hw
  cases hw

theorem isIdentifier_of_isUsable {s : String} (h : isUsable s) : isIdentifier s :=
  (Bool.and_eq_true_iff.1 h).1

theorem ne_nil_of_isName {cs : List Char} (h : isName cs) : cs ≠ [] := by
  intro he
  subst he
  cases h

theorem byteSize_append (a b : List Char) : byteSize (a ++ b) = byteSize a + byteSize b := by
  induction a with
  | nil => simp [byteSize]
  | cons c a ih =>
    simp only [byteSize, List.cons_append, List.foldr_cons] at ih ⊢
    omega

theorem utf8ByteSize_ofList_singleton (c : Char) :
    (String.ofList [c]).utf8ByteSize = c.utf8Size := by
  rw [← String.singleton_eq_ofList, String.utf8ByteSize_singleton]

theorem byteSize_toList (s : String) : byteSize s.toList = s.utf8ByteSize := by
  have h (cs : List Char) : byteSize cs = (String.ofList cs).utf8ByteSize := by
    induction cs with
    | nil => rfl
    | cons c cs ih =>
      rw [← List.singleton_append, byteSize_append, ih, String.ofList_append,
        String.utf8ByteSize_append, utf8ByteSize_ofList_singleton]
      rfl
  rw [h, String.ofList_toList]

end NodeSchema.Text
