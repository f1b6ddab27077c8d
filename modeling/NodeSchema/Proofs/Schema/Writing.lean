import NodeSchema.Proofs.Command.Running
import NodeSchema.Proofs.Json.Printing
import NodeSchema.Proofs.Schema.Reading
import NodeSchema.Proofs.TypeExpr.Printing
import NodeSchema.Proofs.TypeExpr.Spelling
import NodeSchema.Proofs.Verification.Sound
import NodeSchema.Schema.Writer

namespace NodeSchema

open Text (isIdentifier)

theorem Field.spells_toRaw {f : Field} (hn : isIdentifier f.name) (ht : f.type.WellNamed) :
    f.toRaw.SpellsField f :=
  .pair hn (.text ht.ofText?_toText)

theorem Variant.spells_toRaw {v : Variant} (hn : isIdentifier v.name)
    (hp : ∀ type ∈ v.payload, type.WellNamed) : v.toRaw.SpellsVariant v := by
  apply Json.SpellsVariant.entry hn
  rw [List.forall₂_map_left_iff, List.forall₂_same]
  exact fun type ht => .text (hp type ht).ofText?_toText

theorem Declaration.spells_toRaw {d : Declaration} (hn : isIdentifier d.name)
    (hm : d.MembersApart) (hf : ∀ f ∈ d.fields, isIdentifier f.name)
    (ht : ∀ type ∈ d.memberTypes, type.WellNamed) : d.toRaw.SpellsDeclaration d := by
  cases d with
  | record name fields =>
    apply Json.SpellsDeclaration.record hn
    rw [List.forall₂_map_left_iff, List.forall₂_same]
    exact fun f hm => Field.spells_toRaw (hf f hm) (ht _ (List.mem_map_of_mem hm))
  | union name variants =>
    apply Json.SpellsDeclaration.union hn
    rw [List.forall₂_map_left_iff, List.forall₂_same]
    intro v hv
    have hpayload : ∀ type ∈ v.payload, type.WellNamed :=
      fun type h => ht type (List.mem_flatMap.2 ⟨v, hv, h⟩)
    exact Variant.spells_toRaw (Text.isIdentifier_of_isUsable (hm.2.2 v hv)) hpayload
  | plain name tags =>
    exact .plain hn fun tag h => Text.isIdentifier_of_isUsable (hm.2 tag h)

/-- Of what a schema without faults needs for it, only the names of fields are not looked at by the
verifier. -/
theorem Schema.Sound.ofJson?_toRaw {schema : Schema} {options : Options}
    (hs : schema.Sound options) (hf : schema.FieldsNamed) :
    Schema.ofJson? schema.toRaw = .ok schema := by
  apply (Schema.reads_iff_spells _ _).2
  apply Json.SpellsSchema.list
  rw [List.forall₂_map_left_iff, List.forall₂_same]
  intro d hd
  exact Declaration.spells_toRaw (Text.isIdentifier_of_isUsable (hs.freeNames d hd).usable)
    (hs.membersApart d hd) (fieldsNamed_iff.1 hf d hd) (hs.wellNamed d hd)

section Reader

mutual

/-- The type that a value has been dumped from. -/
def TypeExpr.ofDump? : Json → Option TypeExpr
  | .object [("Atomic", .string name)] => some (.atomic name)
  | .object [("Generic", .array [.string container, .array args])] => do
    let args ← TypeExpr.ofDumps? args
    return .generic container args
  | _ => none

def TypeExpr.ofDumps? : List Json → Option (List TypeExpr)
  | [] => some []
  | value :: values => do
    let e ← TypeExpr.ofDump? value
    let es ← TypeExpr.ofDumps? values
    return e :: es

end

def Field.ofDump? : Json → Option Field
  | .object [("name", .string name), ("type", type)] => do
    let type ← TypeExpr.ofDump? type
    return ⟨name, type⟩
  | _ => none

def Variant.ofDump? : Json → Option Variant
  | .object [("name", .string name), ("payload", .array payload)] => do
    let payload ← TypeExpr.ofDumps? payload
    return ⟨name, payload⟩
  | _ => none

/-- The members of an object stand in the order of their keys, since this is how they are read. -/
def Declaration.ofDump? : Json → Option Declaration
  | .object [("Record", .object [("fields", .array fields), ("name", .string name)])] => do
    let fields ← fields.mapM Field.ofDump?
    return .record name fields
  | .object [("Union", .object [("name", .string name), ("variants", .array variants)])] => do
    let variants ← variants.mapM Variant.ofDump?
    return .union name variants
  | .object [("PlainUnion", .object [("name", .string name), ("tags", .array tags)])] => do
    let tags ← tags.mapM Json.asString?
    return .plain name tags
  | _ => none

def Schema.ofDumpedJson? : Json → Option Schema
  | .object [("declarations", .array declarations)] => do
    let declarations ← declarations.mapM Declaration.ofDump?
    return ⟨declarations⟩
  | _ => none

/-- Reads a schema back from its dump. No text has more levels than characters. -/
def Schema.ofDump? (text : String) : Option Schema := do
  let value ← (Json.ofTextWithin? text.length text).toOption
  Schema.ofDumpedJson? value

end Reader

theorem TypeExpr.toJsons_eq_map (args : List TypeExpr) : toJsons args = args.map toJson := by
  induction args with
  | nil => rfl
  | cons arg args ih => rw [toJsons, ih, List.map_cons]

theorem TypeExpr.ofDumps?_eq_mapM (values : List Json) :
    ofDumps? values = values.mapM ofDump? := by
  induction values with
  | nil => rfl
  | cons value values ih => rw [ofDumps?, List.mapM_cons, ih]

namespace Json

theorem sorted_array (items : List Json) : (array items).sorted = array (items.map sorted) := by
  rw [sorted, sortedItems_eq_map]

theorem sorted_string (s : String) : (string s).sorted = string s := by
  rw [sorted.eq_def]

theorem sorted_single (key : String) (value : Json) :
    (object [(key, value)]).sorted = object [(key, value.sorted)] := by
  rw [sorted, sortedMembers_eq_map]
  rfl

theorem sorted_pair {key key' : String} (hlt : ¬key' < key) (hne : key' ≠ key)
    (value value' : Json) :
    (object [(key, value), (key', value')]).sorted =
      object [(key, value.sorted), (key', value'.sorted)] := by
  rw [sorted, sortedMembers_eq_map]
  simp only [List.map_cons, List.map_nil, ofMembers, List.foldl_cons, List.foldl_nil, insertMember,
    if_neg hlt, if_neg hne]

theorem sorted_swapped {key key' : String} (hlt : key' < key) (value value' : Json) :
    (object [(key, value), (key', value')]).sorted =
      object [(key', value'.sorted), (key, value.sorted)] := by
  rw [sorted, sortedMembers_eq_map]
  simp only [List.map_cons, List.map_nil, ofMembers, List.foldl_cons, List.foldl_nil, insertMember,
    if_pos hlt]

end Json

theorem mapM_dumped {α : Type} {read : Json → Option α} {dump : α → Json} {xs : List α}
    (h : ∀ x ∈ xs, read (dump x).sorted = some x) :
    ((xs.map dump).map Json.sorted).mapM read = some xs := by
  rw [List.mapM_map, List.mapM_map]
  exact (mapM_eq_some_map h).trans (congrArg some (List.map_id' xs))

theorem TypeExpr.ofDump?_toJson (e : TypeExpr) : ofDump? e.toJson.sorted = some e := by
  induction e using TypeExpr.induction with
  | atomic name => rw [toJson, Json.sorted_single, Json.sorted_string, ofDump?]
  | generic container args ih =>
    have hargs := mapM_dumped ih
    simp only [toJson, toJsons_eq_map, Json.sorted_single, Json.sorted_array, Json.sorted_string,
      List.map_cons, List.map_nil, ofDump?, ofDumps?_eq_mapM, hargs]
    rfl

theorem Field.ofDump?_toJson (field : Field) : ofDump? field.toJson.sorted = some field := by
  have ht := field.type.ofDump?_toJson
  rw [toJson, Json.sorted_pair (by decide) (by decide), Json.sorted_string, ofDump?, ht]
  rfl

theorem Variant.ofDump?_toJson (variant : Variant) :
    ofDump? variant.toJson.sorted = some variant := by
  have hp := mapM_dumped fun e (_ : e ∈ variant.payload) => e.ofDump?_toJson
  rw [toJson, Json.sorted_pair (by decide) (by decide), Json.sorted_string, Json.sorted_array,
    ofDump?, TypeExpr.ofDumps?_eq_mapM, hp]
  rfl

theorem Declaration.ofDump?_toJson (d : Declaration) : ofDump? d.toJson.sorted = some d := by
  cases d with
  | record name fields =>
    have hf := mapM_dumped fun f (_ : f ∈ fields) => f.ofDump?_toJson
    rw [toJson, Json.sorted_single, Json.sorted_swapped (by decide), Json.sorted_string,
      Json.sorted_array, ofDump?, hf]
    rfl
  | union name variants =>
    have hv := mapM_dumped fun v (_ : v ∈ variants) => v.ofDump?_toJson
    rw [toJson, Json.sorted_single, Json.sorted_pair (by decide) (by decide), Json.sorted_string,
      Json.sorted_array, ofDump?, hv]
    rfl
  | plain name tags =>
    have ht : ((tags.map Json.string).map Json.sorted).mapM Json.asString? = some tags :=
      mapM_dumped fun tag _ => congrArg Json.asString? (Json.sorted_string tag)
    rw [toJson, Json.sorted_single, Json.sorted_pair (by decide) (by decide), Json.sorted_string,
      Json.sorted_array, ofDump?, ht]
    rfl

theorem Schema.ofDumpedJson?_toJson (schema : Schema) :
    ofDumpedJson? schema.toJson.sorted = some schema := by
  have hd := mapM_dumped fun d (_ : d ∈ schema.declarations) => d.ofDump?_toJson
  rw [toJson, Json.sorted_single, Json.sorted_array, ofDumpedJson?, hd]
  rfl

section Numberless

theorem Json.numberless_single {key : String} {value : Json} (h : value.Numberless) :
    (object [(key, value)]).Numberless :=
  .object (List.forall_mem_singleton.2 h)

theorem Json.numberless_pair {key key' : String} {value value' : Json} (h : value.Numberless)
    (h' : value'.Numberless) : (object [(key, value), (key', value')]).Numberless :=
  .object (List.forall_mem_cons.2 ⟨h, List.forall_mem_singleton.2 h'⟩)

theorem Json.numberless_map {α : Type} {dump : α → Json} {xs : List α}
    (h : ∀ x ∈ xs, (dump x).Numberless) : (array (xs.map dump)).Numberless :=
  .array (List.forall_mem_map.2 h)

theorem TypeExpr.numberless_toJson (e : TypeExpr) : e.toJson.Numberless := by
  induction e using TypeExpr.induction with
  | atomic name =>
    rw [toJson]
    exact Json.numberless_single (.string name)
  | generic container args ih =>
    rw [toJson, toJsons_eq_map]
    have hargs := Json.numberless_map ih
    apply Json.numberless_single
    exact .array (List.forall_mem_cons.2 ⟨.string container, List.forall_mem_singleton.2 hargs⟩)

theorem Declaration.numberless_toJson (d : Declaration) : d.toJson.Numberless := by
  cases d with
  | record name fields =>
    have hfields : (Json.array (fields.map (·.toJson))).Numberless := Json.numberless_map fun f _ =>
      Json.numberless_pair (.string f.name) f.type.numberless_toJson
    exact Json.numberless_single (Json.numberless_pair (.string name) hfields)
  | union name variants =>
    have hvariants : (Json.array (variants.map (·.toJson))).Numberless :=
      Json.numberless_map fun v _ => Json.numberless_pair (.string v.name)
        (Json.numberless_map fun e _ => e.numberless_toJson)
    exact Json.numberless_single (Json.numberless_pair (.string name) hvariants)
  | plain name tags =>
    have htags : (Json.array (tags.map .string)).Numberless :=
      Json.numberless_map fun tag _ => .string tag
    exact Json.numberless_single (Json.numberless_pair (.string name) htags)

theorem Schema.numberless_toJson (schema : Schema) : schema.toJson.Numberless :=
  Json.numberless_single (Json.numberless_map fun d _ => d.numberless_toJson)

end Numberless

theorem Schema.ofDump?_dumpText (schema : Schema) :
    ofDump? (Command.dumpText schema) = some schema := by
  have hn := schema.numberless_toJson
  have hlevels : schema.toJson.levels ≤ (Command.dumpText schema).length := by
    have hle := hn.levels_le_length 0
    rw [Command.dumpText, String.length_append]
    exact Nat.le_add_right_of_le hle
  have hread : Json.ofTextWithin? (Command.dumpText schema).length (Command.dumpText schema) =
      .ok schema.toJson.sorted := hn.ofTextWithin?_pretty hlevels rfl
  rw [ofDump?, hread]
  exact schema.ofDumpedJson?_toJson

example : Command.dumpText ⟨[.plain "Sign" []]⟩ = "\x7b
  \"declarations\": [
    \x7b
      \"PlainUnion\": \x7b
        \"name\": \"Sign\",
        \"tags\": []
      \x7d
    \x7d
  ]
\x7d
" := by cbv

namespace Command

variable {source : Source} {tree : FileTree} {schema : Schema} {options : Options}

/-- A check that succeeds prints the dump of the schema that has been loaded. -/
theorem output_check_dump (hl : source.Loads tree schema options)
    (hs : (run ⟨source, .check true⟩ tree).1.status = 0) :
    (run ⟨source, .check true⟩ tree).1.output = dumpText schema := by
  obtain ⟨effect, he, -⟩ := status_run_iff.1 hs
  obtain ⟨schema', options', table, hl', -, rfl⟩ := effect_check_eq_ok_iff.1 he
  have hload := Source.load_eq_ok_iff.2 hl
  rw [Source.load_eq_ok_iff.2 hl'] at hload
  cases hload
  rw [run_of_effect he]
  rfl

/-- A schema is read back from its dump, so that schemas with the same dump are the same schema; and
the dump of the schema that it has loaded is what a check prints. -/
theorem dumps_faithful :
    (∀ schema : Schema, Schema.ofDump? (dumpText schema) = some schema) ∧
    (∀ schema schema' : Schema, dumpText schema = dumpText schema' ↔ schema = schema') ∧
    ∀ (source : Source) (tree : FileTree) (schema : Schema) (options : Options),
      source.Loads tree schema options → (run ⟨source, .check true⟩ tree).1.status = 0 →
        (run ⟨source, .check true⟩ tree).1.output = dumpText schema := by
  refine ⟨Schema.ofDump?_dumpText, ?_, fun _ _ _ _ hl hs => output_check_dump hl hs⟩
  intro schema schema'
  constructor
  · intro h
    have hread := schema.ofDump?_dumpText
    rw [h, schema'.ofDump?_dumpText] at hread
    exact (Option.some.inj hread).symm
  · exact congrArg dumpText

/-- A union with an empty variant, which is dumped with an empty list of types. -/
theorem empty_variant_dumped :
    let schema : Schema := ⟨[.union "Path" [⟨"Root", []⟩, ⟨"Step", [.atomic "Ident"]⟩]]⟩
    let tree : FileTree := ⟨[(["home"], .directory), (["home", "nodes"],
      .file "[[\"ast\",\"enum\",\"Path\",[\"Root\"],[\"Step\",\"Ident\"]]]")], ["home"]⟩
    let source : Source := ⟨some "nodes", none, none, none, none⟩
    source.Loads tree schema .default ∧ (run ⟨source, .check true⟩ tree).1.status = 0 ∧
      (run ⟨source, .check true⟩ tree).1.output = dumpText schema ∧
      Schema.ofDump? (run ⟨source, .check true⟩ tree).1.output = some schema := by
  intro schema tree source
  have hverify : schema.verify .default = .ok (.ofSchema schema .default) :=
    Schema.verify_of_passes 1 (by decide) (by decide) (by decide)
  have hloads : source.Loads tree schema .default := by
    have hroot : (Json.array [.string "Root"]).SpellsVariant ⟨"Root", []⟩ := .entry (by decide) .nil
    have hstep : (Json.array [.string "Step", .string "Ident"]).SpellsVariant
        ⟨"Step", [.atomic "Ident"]⟩ :=
      .entry (by decide) (.cons (.of_isIdentifier (by decide)) .nil)
    have hread := (Schema.reads_iff_spells _ schema).2
      (.list (.cons (.union (by decide) (.cons hroot (.cons hstep .nil))) .nil))
    have hschema : source.GivesSchema tree schema :=
      ⟨_, rfl, bind_eq_ok_iff.2 ⟨_, mapError_eq_ok_iff.2 (by cbv), mapError_eq_ok_iff.2 hread⟩⟩
    exact ⟨hschema, .default, rfl, Source.overrides_iff.2 rfl⟩
  have hstatus : (run ⟨source, .check true⟩ tree).1.status = 0 :=
    status_check_iff.2 ⟨schema, .default, _, hloads, hverify⟩
  obtain ⟨hback, -, hprinted⟩ := dumps_faithful
  have houtput := hprinted source tree schema .default hloads hstatus
  exact ⟨hloads, hstatus, houtput, houtput ▸ hback schema⟩

end Command

end NodeSchema
