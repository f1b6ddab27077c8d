import NodeSchema.Proofs.Generation.Agreement
import NodeSchema.Proofs.Schema.Refusals
import NodeSchema.Proofs.Verification.MethodNames
import NodeSchema.Proofs.Verification.Precedence

namespace NodeSchema

open Text (isIdentifier isUsable quote snakeCase)

/-- A text without the control characters of ASCII, line breaks among them. -/
def OneLine (s : String) : Prop := ∀ c ∈ s.toList, 0x20 ≤ c.toNat

theorem oneLine_iff {s : String} : OneLine s ↔ s.toList.all (0x20 ≤ ·.toNat) = true := by
  simp only [OneLine, List.all_eq_true, decide_eq_true_eq]

instance (s : String) : Decidable (OneLine s) := decidable_of_iff _ oneLine_iff.symm

namespace OneLine

theorem ofList {cs : List Char} (h : ∀ c ∈ cs, 0x20 ≤ c.toNat) : OneLine (String.ofList cs) := by
  rw [OneLine, String.toList_ofList]
  exact h

theorem fixed {cs : List Char} (h : cs.all (0x20 ≤ ·.toNat) = true) :
    OneLine (String.ofList cs) := by
  rw [oneLine_iff, String.toList_ofList]
  exact h

theorem append {s t : String} (hs : OneLine s) (ht : OneLine t) : OneLine (s ++ t) := by
  rw [OneLine, String.toList_append]
  exact List.forall_mem_append.2 ⟨hs, ht⟩

theorem intercalate {separator : String} (hs : OneLine separator) {items : List String}
    (h : ∀ item ∈ items, OneLine item) : OneLine (separator.intercalate items) := by
  induction items with
  | nil => exact fixed rfl
  | cons item items ih =>
    obtain ⟨hitem, hitems⟩ := List.forall_mem_cons.1 h
    cases items with
    | nil =>
      rw [String.intercalate_singleton]
      exact hitem
    | cons next rest =>
      rw [String.intercalate_cons_cons]
      exact (hitem.append hs).append (ih hitems)

theorem of_isIdentifier {s : String} (h : isIdentifier s) : OneLine s := by
  intro c hc
  have hword := List.all_eq_true.1 (Text.all_isAsciiWordChar_of_isName h) c hc
  exact Text.le_toNat_of_isAsciiWordChar hword

end OneLine

theorem Text.le_toNat_of_mem_escapeChar {c d : Char} (h : d ∈ escapeChar c) : 0x20 ≤ d.toNat := by
  -- Control characters are looked up; all others are kept, or stand behind a backslash.
  have hcontrol : ∀ n < 0x20, (escapeChar (Char.ofNat n)).all (0x20 ≤ ·.toNat) := by decide
  have hfixed : ['\\', '"', 'n', 'r', 't', 'b', 'f'].all (0x20 ≤ ·.toNat) := by decide
  by_cases hc : c.toNat < 0x20
  · have hall := hcontrol c.toNat hc
    rw [Char.ofNat_toNat] at hall
    exact of_decide_eq_true (List.all_eq_true.1 hall d h)
  · have hkept : d = c ∨ d ∈ ['\\', '"', 'n', 'r', 't', 'b', 'f'] := by
      rw [escapeChar.eq_def, if_neg hc] at h
      grind
    rcases hkept with rfl | hd
    · omega
    · exact of_decide_eq_true (List.all_eq_true.1 hfixed d hd)

theorem oneLine_quote (s : String) : OneLine (quote s) := by
  intro c hc
  rw [Text.toList_quote, List.cons_append, List.mem_cons, List.mem_append, List.mem_flatMap,
    List.mem_singleton] at hc
  rcases hc with rfl | ⟨d, -, hd⟩ | rfl
  · decide
  · exact Text.le_toNat_of_mem_escapeChar hd
  · decide

theorem OneLine.quoted {before behind : List Char} (s : String)
    (hb : before.all (0x20 ≤ ·.toNat) = true) (hs : behind.all (0x20 ≤ ·.toNat) = true) :
    OneLine (String.ofList before ++ quote s ++ String.ofList behind) :=
  ((fixed hb).append (oneLine_quote s)).append (fixed hs)

section Numbers

theorem le_toNat_of_mem_toDigits {n : Nat} {c : Char} (h : c ∈ Nat.toDigits 10 n) :
    0x20 ≤ c.toNat := by
  have hc := Nat.isDigit_of_mem_toDigits (by decide) (by decide) h
  rw [Char.isDigit, Bool.and_eq_true, decide_eq_true_eq] at hc
  exact Nat.le_trans (by decide) (UInt32.le_iff_toNat_le.1 hc.1)

theorem oneLine_toString_nat (n : Nat) : OneLine (toString n) := by
  intro c hc
  rw [Nat.toString_eq_repr, Nat.toList_repr] at hc
  exact le_toNat_of_mem_toDigits hc

theorem oneLine_toString_int (n : Int) : OneLine (toString n) := by
  cases n with
  | ofNat n => exact oneLine_toString_nat n
  | negSucc n => exact (OneLine.fixed rfl).append (oneLine_toString_nat (n + 1))

namespace Decimal

theorem oneLine_zeros (n : Nat) : OneLine (zeros n) := by
  apply OneLine.ofList
  intro c hc
  rw [List.eq_of_mem_replicate hc]
  decide

variable {digits : List Char} (h : ∀ c ∈ digits, 0x20 ≤ c.toNat)
include h

theorem oneLine_take (n : Nat) : OneLine (String.ofList (digits.take n)) :=
  .ofList fun c hc => h c (List.mem_of_mem_take hc)

theorem oneLine_drop (n : Nat) : OneLine (String.ofList (digits.drop n)) :=
  .ofList fun c hc => h c (List.mem_of_mem_drop hc)

theorem Layout.oneLine_positional (exponent : Int) : OneLine (positional digits exponent) := by
  rw [positional.eq_def]
  dsimp only
  split
  · exact ((OneLine.ofList h).append (oneLine_zeros _)).append (.fixed rfl)
  split
  · exact ((oneLine_take h _).append (.fixed rfl)).append (oneLine_drop h _)
  · exact ((OneLine.fixed rfl).append (oneLine_zeros _)).append (.ofList h)

theorem Layout.oneLine_scientific (magnitude : Int) : OneLine (scientific digits magnitude) := by
  rw [scientific.eq_def]
  refine (((oneLine_take h 1).append ?_).append ?_).append (oneLine_toString_nat _)
  · split
    · exact .fixed rfl
    · exact (OneLine.fixed rfl).append (oneLine_drop h 1)
  · split
    · exact .fixed rfl
    · exact .fixed rfl

omit h

theorem Layout.oneLine_write (l : Layout) (x : Scaled) : OneLine (l.write x) := by
  have hdigits : ∀ c ∈ Nat.toDigits 10 x.digits, 0x20 ≤ c.toNat :=
    fun _ hc => le_toNat_of_mem_toDigits hc
  rw [write.eq_def]
  dsimp only
  split
  · exact oneLine_positional hdigits _
  · exact oneLine_scientific hdigits _

theorem Layout.oneLine_float (l : Layout) (x : Float) : OneLine (l.float x) := by
  rw [float.eq_def]
  refine OneLine.append ?_ ?_
  · split
    · exact .fixed rfl
    · exact .fixed rfl
  · split
    · exact .fixed rfl
    · exact l.oneLine_write _

end Decimal

end Numbers

theorem Json.oneLine_compact (value : Json) : OneLine value.compact := by
  induction value using compact.induct
    (motive_2 := fun members => ∀ text ∈ compactMembers members, OneLine text)
    (motive_3 := fun items => ∀ text ∈ compactItems items, OneLine text) with
  | case1 => exact .fixed rfl
  | case2 => exact .fixed rfl
  | case3 b h =>
    rw [compact, if_neg h]
    exact .fixed rfl
  | case4 n => exact oneLine_toString_int n
  | case5 x => exact numberLayout.oneLine_float x
  | case6 s => exact oneLine_quote s
  | case7 items ih =>
    exact ((OneLine.fixed rfl).append (.intercalate (.fixed rfl) ih)).append (.fixed rfl)
  | case8 members ih =>
    exact ((OneLine.fixed rfl).append (.intercalate (.fixed rfl) ih)).append (.fixed rfl)
  | case9 text h => cases h
  | case10 item items ih ihs text h =>
    rcases List.mem_cons.1 h with rfl | h
    · exact ih
    · exact ihs text h
  | case11 text h => cases h
  | case12 key value members ih ihs text h =>
    rcases List.mem_cons.1 h with rfl | h
    · exact ((oneLine_quote key).append (.fixed rfl)).append ih
    · exact ihs text h

/-- The names that stand without quotes in the description of a place. -/
def Place.spliced : Place → List String
  | field _ _ => []
  | slot _ union variant => [union, variant]

def TypeFault.spliced : TypeFault → List String
  | noTypeName _ place => place.spliced
  | undeclared _ place => place.spliced
  | badApplication _ place => place.spliced
  | _ => []

def DeclarationFault.spliced : DeclarationFault → List String
  | sharedMethod _ method _ => [method]
  | unusedLifetime _ _ lifetime => [lifetime]
  | _ => []

/-- The names that stand without quotes in a message. -/
def Fault.spliced : Fault → List String
  | type cause => cause.spliced
  | variant _ => []
  | declaration cause => cause.spliced

theorem Place.oneLine_describe {place : Place} (h : ∀ name ∈ place.spliced, OneLine name) :
    OneLine place.describe := by
  cases place with
  | field name record => exact (OneLine.quoted name rfl rfl).append (oneLine_quote record)
  | slot index union variant =>
    obtain ⟨hunion, hrest⟩ := List.forall_mem_cons.1 h
    have hvariant := List.forall_mem_singleton.1 hrest
    have hindex : OneLine ("slot " ++ toString index ++ " of ") :=
      ((OneLine.fixed rfl).append (oneLine_toString_nat index)).append (.fixed rfl)
    exact ((hindex.append hunion).append (.fixed rfl)).append hvariant

theorem TypeExpr.Expected.oneLine_describe (expected : TypeExpr.Expected) :
    OneLine expected.describe := by
  cases expected <;> decide

theorem NamePart.oneLine_describe (part : NamePart) : OneLine part.describe := by
  cases part <;> decide

theorem NameOption.oneLine_key (option : NameOption) : OneLine option.key := by
  cases option <;> decide

theorem TypeExpr.ReadFault.oneLine_reason (cause : TypeExpr.ReadFault) :
    OneLine cause.reason := by
  cases cause with
  | stray fault =>
    exact (OneLine.quoted fault.fragment rfl rfl).append (oneLine_toString_nat fault.offset)
  | unexpected fault =>
    have hexpected : OneLine ("expected " ++ fault.expected.describe) :=
      (OneLine.fixed rfl).append fault.expected.oneLine_describe
    refine (((hexpected.append (.fixed rfl)).append ?_).append (.fixed rfl)).append
      (oneLine_toString_nat fault.offset)
    split
    · exact oneLine_quote _
    · exact .fixed rfl

namespace TypeFault

theorem oneLine_subject (cause : TypeFault) : OneLine cause.subject := by
  cases cause with
  | unreadable text => exact oneLine_quote text
  | containerName value => exact value.oneLine_compact
  | noApplication value => exact value.oneLine_compact
  | noType value => exact value.oneLine_compact
  | noTypeName name => exact oneLine_quote name
  | undeclared name => exact oneLine_quote name
  | badApplication type => exact oneLine_quote type.toText
  | unknownName name => exact oneLine_quote name
  | noArguments type => exact oneLine_quote type.toText
  | notWalked type => exact oneLine_quote type.toText

theorem oneLine_reason {cause : TypeFault} (h : ∀ name ∈ cause.spliced, OneLine name) :
    OneLine cause.reason := by
  cases cause with
  | unreadable text cause => exact cause.oneLine_reason
  | containerName value name => exact .quoted name rfl rfl
  | noApplication value => exact .fixed rfl
  | noType value => exact .fixed rfl
  | noTypeName name place => exact (place.oneLine_describe h).append (.fixed rfl)
  | undeclared name place => exact (place.oneLine_describe h).append (.fixed rfl)
  | badApplication type place => exact (place.oneLine_describe h).append (.fixed rfl)
  | unknownName name => exact .fixed rfl
  | noArguments type => exact .fixed rfl
  | notWalked type container =>
    have hsequence : OneLine TypeExpr.sequence := by decide
    have hoptional : OneLine TypeExpr.optional := by decide
    have howned : OneLine TypeExpr.owned := by decide
    exact (((((OneLine.quoted container rfl rfl).append hsequence).append (.fixed rfl)).append
      hoptional).append (.fixed rfl)).append howned |>.append (.fixed rfl)

end TypeFault

theorem VariantFault.oneLine_message (cause : VariantFault) : OneLine cause.message := by
  have hquoted (union variant : String) : OneLine (quote variant ++ " in " ++ quote union) :=
    ((oneLine_quote variant).append (.fixed rfl)).append (oneLine_quote union)
  cases cause with
  | badForm union value =>
    exact ((value.oneLine_compact.append (.fixed rfl)).append (oneLine_quote union)).append
      (.fixed rfl)
  | noVariants union => exact .quoted union rfl rfl
  | noIdentifier union variant => exact (hquoted union variant).append (.fixed rfl)
  | declaredTwice union variant => exact (hquoted union variant).append (.fixed rfl)

namespace DeclarationFault

theorem oneLine_subject (cause : DeclarationFault) : OneLine cause.subject := by
  cases cause with
  | schemaNoList => exact .fixed rfl
  | noList value => exact value.oneLine_compact
  | badName value part => exact value.oneLine_compact
  | badField record value => exact oneLine_quote record
  | unknownForm value => exact value.oneLine_compact
  | unusableOption option value => exact (OneLine.fixed rfl).append option.oneLine_key
  | noIdentifier name => exact oneLine_quote name
  | reserved name => exact oneLine_quote name
  | declaredTwice name => exact oneLine_quote name
  | isTextAlias name => exact oneLine_quote name
  | isOpaque name => exact oneLine_quote name
  | sharedMethod name method other => exact oneLine_quote name
  | fieldTwice record field written => exact oneLine_quote record
  | badTag union tag => exact oneLine_quote union
  | unusedLifetime name textAlias lifetime => exact oneLine_quote name

theorem oneLine_reason {cause : DeclarationFault} (h : ∀ name ∈ cause.spliced, OneLine name) :
    OneLine cause.reason := by
  cases cause with
  | schemaNoList => exact .fixed rfl
  | noList value => exact .fixed rfl
  | badName value part =>
    exact ((OneLine.fixed rfl).append part.oneLine_describe).append (.fixed rfl)
  | badField record value =>
    exact ((OneLine.fixed rfl).append value.oneLine_compact).append (.fixed rfl)
  | unknownForm value => exact .fixed rfl
  | unusableOption option value => exact (oneLine_quote value).append (.fixed rfl)
  | noIdentifier name => exact .fixed rfl
  | reserved name => exact .fixed rfl
  | declaredTwice name => exact .fixed rfl
  | isTextAlias name => exact .fixed rfl
  | isOpaque name => exact .fixed rfl
  | sharedMethod name method other =>
    have hmethod := List.forall_mem_singleton.1 h
    exact (((OneLine.fixed rfl).append hmethod).append (.fixed rfl)).append (oneLine_quote other)
  | fieldTwice record field written =>
    exact ((OneLine.quoted field rfl rfl).append (oneLine_quote written)).append (.fixed rfl)
  | badTag union tag => exact .quoted tag rfl rfl
  | unusedLifetime name textAlias lifetime =>
    have hlifetime := List.forall_mem_singleton.1 h
    exact ((OneLine.quoted textAlias rfl rfl).append hlifetime).append (.fixed rfl)

end DeclarationFault

/-- Only a name without quotes can break the line. -/
theorem Fault.oneLine_message {fault : Fault} (h : ∀ name ∈ fault.spliced, OneLine name) :
    OneLine fault.message := by
  cases fault with
  | type cause =>
    exact (((OneLine.fixed rfl).append cause.oneLine_subject).append (.fixed rfl)).append
      (cause.oneLine_reason h)
  | variant cause => exact (OneLine.fixed rfl).append cause.oneLine_message
  | declaration cause =>
    exact (((OneLine.fixed rfl).append cause.oneLine_subject).append (.fixed rfl)).append
      (cause.oneLine_reason h)

section Loader

theorem Json.HasPartFault.spliced_eq_nil {value : Json} {cause : TypeFault}
    (h : value.HasPartFault cause) : cause.spliced = [] := by
  cases h with
  | unreadable h => rfl
  | noApplication h => rfl
  | containerName hne h => rfl
  | noType hs ha => rfl

theorem Json.HasTypeFault.spliced_eq_nil {value : Json} {cause : TypeFault}
    (h : value.HasTypeFault cause) : cause.spliced = [] := by
  obtain ⟨-, part, h⟩ := h.exists_wrong
  exact h.spliced_eq_nil

theorem Json.HasDeclarationFault.spliced_eq_nil {value : Json} {fault : NodeSchema.Fault}
    (h : value.HasDeclarationFault fault) : fault.spliced = [] := by
  cases h with
  | noList h => rfl
  | unknownForm h => rfl
  | badName h => rfl
  | @entry form name entries _ hn h =>
    obtain ⟨-, entry, hentry⟩ := h.exists_wrong
    cases form with
    | record =>
      cases hentry with
      | badField h => rfl
      | type hn htype => exact htype.spliced_eq_nil
    | union =>
      cases hentry with
      | badForm h => rfl
      | type hn hpayload =>
        obtain ⟨-, type, htype⟩ := hpayload.exists_wrong
        exact htype.spliced_eq_nil
    | plain =>
      cases hentry with
      | badName h => rfl

theorem Schema.spliced_eq_nil_of_ofJson? {value : Json} {fault : Fault}
    (h : Schema.ofJson? value = .error fault) : fault.spliced = [] := by
  by_cases hlist : ∃ items, value = .array items
  · obtain ⟨items, rfl⟩ := hlist
    obtain ⟨-, declaration, h⟩ := (Schema.ofJson?_list_eq_error_iff.1 h).exists_wrong
    exact h.spliced_eq_nil
  · have hnone : Schema.ofJson? value = .error (.declaration .schemaNoList) := by
      cases value with
      | array items => exact absurd ⟨items, rfl⟩ hlist
      | null | bool | integer | real | string | object => rfl
    obtain rfl := Except.error.inj (hnone.symm.trans h)
    rfl

end Loader

namespace Schema

variable {schema : Schema} {options : Options} {fault : Fault}

theorem not_optionsFault_of_verify (hv : schema.verify options = .error fault)
    (hs : fault.stage? ≠ some .options) (fault' : Fault) :
    ¬Stage.options.HasFault schema options fault' := by
  intro h
  obtain rfl := Except.error.inj (hv.symm.trans (verify_of_options h))
  exact hs h.stage?_eq

/-- The options are found to be usable before anything else is looked at. -/
theorem usable_options_of_verify (hv : schema.verify options = .error fault)
    (hs : fault.stage? ≠ some .options) :
    isUsable options.lifetime ∧ isUsable options.textAlias := by
  have hnone := not_exists.2 (not_optionsFault_of_verify hv hs)
  have hall := faultless_const_iff.1 (not_not.1 (exists_firstFault_iff.not.1 hnone))
  constructor
  · by_contra h
    exact hall _ List.mem_cons_self _ ⟨h, rfl⟩
  · by_contra h
    exact hall _ (List.mem_cons_of_mem _ List.mem_cons_self) _ ⟨h, rfl⟩

/-- The declared names are found to be usable before any member is looked at. -/
theorem usable_names_of_verify (hv : schema.verify options = .error fault)
    (hs : fault.stage? = some .members) : ∀ d ∈ schema.declarations, isUsable d.name := by
  have hoptions := not_optionsFault_of_verify hv (by simp [hs])
  have hnone : ¬∃ fault', Stage.names.HasFault schema options fault' := by
    rintro ⟨fault', h⟩
    obtain rfl := Except.error.inj (hv.symm.trans (verify_of_names hoptions h))
    exact nomatch hs.symm.trans h.stage?_eq
  have hall := not_not.1 (exists_firstFault_iff.not.1 hnone)
  intro d hd
  obtain ⟨before, after, hds⟩ := List.append_of_mem hd
  by_contra h
  exact hall before d after hds _ (.noIdentifier h)

end Schema

section Verifier

variable {knows : String → Prop} {fault : Fault}

theorem TypeExpr.HasFault.spliced_eq {type : TypeExpr} {place : Place} {cause : TypeFault}
    (h : type.HasFault knows place cause) : cause.spliced = place.spliced := by
  obtain ⟨-, part, h⟩ := h.exists_wrong
  cases h with
  | noTypeName h => rfl
  | undeclared hn h => rfl
  | badApplication h => rfl

theorem Declaration.HasMemberFault.oneLine_spliced {d : Declaration}
    (h : d.HasMemberFault knows fault) (hd : isUsable d.name) :
    ∀ name ∈ fault.spliced, OneLine name := by
  cases h with
  | field h =>
    obtain ⟨_, f, hf⟩ := h.exists_wrong
    cases hf with
    | twice h => exact List.forall_mem_nil _
    | type hs hn htype =>
      rw [Fault.spliced, htype.spliced_eq]
      exact List.forall_mem_nil _
  | noVariants => exact List.forall_mem_nil _
  | variant h =>
    obtain ⟨_, v, hv⟩ := h.exists_wrong
    cases hv with
    | noIdentifier h => exact List.forall_mem_nil _
    | twice hu h => exact List.forall_mem_nil _
    | slot hu hn hslot =>
      obtain ⟨_, type, cause, htype, rfl⟩ := hslot.exists_wrong
      rw [Fault.spliced, htype.spliced_eq]
      exact List.forall_mem_cons.2 ⟨.of_isIdentifier (Text.isIdentifier_of_isUsable hd),
        List.forall_mem_singleton.2 (.of_isIdentifier (Text.isIdentifier_of_isUsable hu))⟩
  | tag h =>
    obtain ⟨-, tag, -, rfl⟩ := h.exists_wrong
    exact List.forall_mem_nil _

theorem Declaration.HasNameFault.oneLine_spliced {options : Options} {earlier : List Declaration}
    {d : Declaration} (h : d.HasNameFault options earlier fault) :
    ∀ name ∈ fault.spliced, OneLine name := by
  cases h with
  | noIdentifier h => exact List.forall_mem_nil _
  | reserved hu h => exact List.forall_mem_nil _
  | declaredTwice hu hr h => exact List.forall_mem_nil _
  | isTextAlias hu hr hn h => exact List.forall_mem_nil _
  | isOpaque hu hr hn ha h => exact List.forall_mem_nil _
  | sharedMethod hf hn hd he hi h =>
    have hname := Text.isIdentifier_of_isUsable hf.usable
    exact List.forall_mem_singleton.2 (.of_isIdentifier (Text.isIdentifier_snakeCase hname))

/-- What a message of the verifier holds without quotes, the verifier has let pass before. -/
theorem Schema.oneLine_spliced_of_verify {schema : Schema} {options : Options}
    (hv : schema.verify options = .error fault) : ∀ name ∈ fault.spliced, OneLine name := by
  obtain ⟨-, stage, h⟩ := (verify_eq_error_iff_firstFault.1 hv).exists_wrong
  have hstage := h.stage?_eq
  cases stage with
  | options =>
    obtain ⟨-, given, -, rfl⟩ := h.exists_wrong
    exact List.forall_mem_nil _
  | names =>
    obtain ⟨_, d, hd⟩ := h.exists_wrong
    exact hd.oneLine_spliced
  | members =>
    obtain ⟨before, d, after, hds, -, hd⟩ := h
    have hm : d ∈ schema.declarations := hds ▸ List.mem_append_right _ List.mem_cons_self
    exact hd.oneLine_spliced (usable_names_of_verify hv hstage d hm)
  | lifetimes =>
    obtain ⟨-, d, -, rfl⟩ := h.exists_wrong
    have husable := (usable_options_of_verify hv (by simp [hstage])).1
    have hlifetime := OneLine.of_isIdentifier (Text.isIdentifier_of_isUsable husable)
    exact List.forall_mem_singleton.2 ((OneLine.fixed rfl).append hlifetime)

end Verifier

namespace Schema

variable {schema : Schema} {options : Options} {fault : Fault}

theorem oneLine_spliced_of_generateVisitor (h : schema.generateVisitor options = .error fault) :
    ∀ name ∈ fault.spliced, OneLine name := by
  rcases generateVisitor_eq_error_iff.1 h with hv | ⟨-, type, obstacle, cause, -, -, rfl, -, hcause⟩
  · exact oneLine_spliced_of_verify hv
  · obtain ⟨container, args, -, rfl⟩ := hcause
    exact List.forall_mem_nil _

/-- No message of the readers, of the verifier and of the generators contains a control character of
ASCII, whatever stands in the texts and names that it is about. -/
theorem messages_on_one_line :
    (∀ text cause, TypeExpr.ofText? text = .error cause →
      OneLine (Fault.type (.unreadable text cause)).message) ∧
    (∀ value fault, Schema.ofJson? value = .error fault → OneLine fault.message) ∧
    ∀ (schema : Schema) options fault,
      schema.verify options = .error fault ∨ schema.generateDefinitions options = .error fault ∨
        schema.generateVisitor options = .error fault ∨ schema.generate options = .error fault →
      OneLine fault.message := by
  refine ⟨?_, ?_, ?_⟩
  · intro text cause _
    exact Fault.oneLine_message (List.forall_mem_nil _)
  · intro value fault h
    apply Fault.oneLine_message
    rw [spliced_eq_nil_of_ofJson? h]
    exact List.forall_mem_nil _
  · intro schema options fault h
    apply Fault.oneLine_message
    rcases h with h | h | h | h
    · exact oneLine_spliced_of_verify h
    · rw [← fault?_eq_some_iff, fault?_generateDefinitions, fault?_eq_some_iff] at h
      exact oneLine_spliced_of_verify h
    · exact oneLine_spliced_of_generateVisitor h
    · rw [← fault?_eq_some_iff, fault?_generate, fault?_eq_some_iff] at h
      exact oneLine_spliced_of_generateVisitor h

/-- Control characters in a text, in the name of a declaration, and in a type whose place is told by
names without quotes. -/
theorem control_characters_quoted :
    let bell : TypeExpr.ReadFault := .stray ⟨"\x07", 4⟩
    let value : Json := .array [.string "enum", .string "A\nB"]
    let broken : Fault := .declaration (.badName value .enumName)
    let slot : Fault := .type (.noTypeName "a\r\nb" (.slot 1 "Expr" "Call"))
    (TypeExpr.ofText? "Vec<\x07>" = .error bell ∧
      OneLine (Fault.type (.unreadable "Vec<\x07>" bell)).message) ∧
    (Schema.ofJson? (.array [value]) = .error broken ∧ OneLine broken.message) ∧
    Schema.verify ⟨[.union "Expr" [⟨"Call", [.atomic "Ident", .atomic "a\r\nb"]⟩]]⟩ .default =
      .error slot ∧ OneLine slot.message := by
  intro bell value broken slot
  obtain ⟨htext, hvalue, hschema⟩ := messages_on_one_line
  have hbell : TypeExpr.ofText? "Vec<\x07>" = .error bell := rfl
  have hbroken : Schema.ofJson? (.array [value]) = .error broken := rfl
  have hslot : Schema.verify ⟨[.union "Expr" [⟨"Call", [.atomic "Ident", .atomic "a\r\nb"]⟩]]⟩
      .default = .error slot := rfl
  exact ⟨⟨hbell, htext _ _ hbell⟩, ⟨hbroken, hvalue _ _ hbroken⟩, hslot, hschema _ _ _ (.inl hslot)⟩

example : (Fault.type (.noTypeName "a\r\nb" (.slot 1 "Expr" "Call"))).message =
    "Unresolved type shape \"a\\r\\nb\": slot 1 of Expr::Call is not a type name" := by decide

end Schema

end NodeSchema
