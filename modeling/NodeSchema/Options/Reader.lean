import NodeSchema.Json.Printer
import NodeSchema.Json.Reader
import NodeSchema.Options.Basic

namespace NodeSchema.Options

open Text (Stop Located reveal)
open Json (Tail Rest skipBlanks stopAt)

inductive Key where
  | lifetime
  | textAlias
  | spanImport
  | astModule
  | opaqueTypes
  | astCommand
  | visitorCommand
deriving DecidableEq

def Key.name : Key → String
  | lifetime => "lifetime"
  | textAlias => "text_alias"
  | spanImport => "span_import"
  | astModule => "ast_module"
  | opaqueTypes => "opaque_types"
  | astCommand => "ast_command"
  | visitorCommand => "visitor_command"

/-- All keys, in the order in which a list gives their values. -/
def Key.all : List Key :=
  [.lifetime, .textAlias, .spanImport, .astModule, .opaqueTypes, .astCommand, .visitorCommand]

def Key.ofName? (name : String) : Option Key := Key.all.find? (·.name == name)

/-- A value of another form than the one expected. -/
inductive Found where
  | scalar (value : Json)
  | list
  | object

def Found.describe : Found → String
  | scalar .null => "null"
  | scalar (.bool b) => "boolean `" ++ (if b then "true" else "false") ++ "`"
  | scalar (.integer n) => "integer `" ++ toString n ++ "`"
  | scalar (.real x) => "floating point `" ++ Json.numberLayout.float x ++ "`"
  | scalar (.string s) => "string " ++ reveal s
  | scalar (.array _) => "sequence"
  | scalar (.object _) => "map"
  | list => "sequence"
  | object => "map"

inductive Form where
  | text
  | texts
  | options
deriving DecidableEq

def Form.describe : Form → String
  | text => "a string"
  | texts => "a sequence"
  | options => "struct GenOptions"

/-- What can be wrong with the text of options. -/
inductive ReadFault where
  | malformed (fault : Json.Fault)
  | wrongForm (found : Found) (expected : Form)
  | unknownKey (name : String)
  | duplicateKey (key : Key)

def ReadFault.message : ReadFault → String
  | malformed fault => fault.message
  | wrongForm found expected =>
    "invalid type: " ++ found.describe ++ ", expected " ++ expected.describe
  | unknownKey name =>
    "unknown field `" ++ name ++ "`, expected one of "
      ++ ", ".intercalate (Key.all.map fun key => "`" ++ key.name ++ "`")
  | duplicateKey key => "duplicate field `" ++ key.name ++ "`"

abbrev Reading (α : Type) : Type := Except (Stop ReadFault) α

/-- A failure of the JSON reader is one of this reader. -/
def json {α : Type} (result : Except (Stop Json.Fault) α) : Reading α :=
  result.mapError (·.map .malformed)

/-- Refuses the value at the front of a text. A scalar is read before it is refused. -/
def refuse {α : Type} (expected : Form) (s : List Char) : Reading α :=
  match s with
  | '[' :: _ => .error ⟨.wrongForm .list expected, s, 0⟩
  | '\x7b' :: _ => .error ⟨.wrongForm .object expected, s, 0⟩
  | _ => do
    let (value, rest) ← json (Json.readScalar s)
    .error ⟨.wrongForm (.scalar value) expected, rest.1, 0⟩

def readText (s : List Char) : Reading (String × Rest s) :=
  match skipBlanks s with
  | ⟨[], _⟩ => json (stopAt .endInValue [])
  | ⟨c :: r, hr⟩ =>
    if c = '"' then do
      let (text, rest) ← json (Json.Quoted.read r)
      .ok (String.ofList text, Rest.trans ⟨r, hr⟩ rest)
    else refuse .text (c :: r)

/-- Where the next item of a list starts, if there is one; `first` tells that none has been read. -/
def nextItem (first : Bool) (s : List Char) : Reading (Option (Tail s)) :=
  match skipBlanks s with
  | ⟨[], _⟩ => json (stopAt .endInList [])
  | ⟨c :: r, hr⟩ =>
    if c = ']' then .ok none
    else if first then .ok (some ⟨c :: r, hr⟩)
    else if c = ',' then
      match skipBlanks r with
      | ⟨[], _⟩ => json (stopAt .endInValue [])
      | ⟨d :: t, ht⟩ =>
        if d = ']' then json (stopAt .trailingComma (d :: t))
        else .ok (some (Rest.andTail ⟨r, hr⟩ ⟨d :: t, ht⟩).toTail)
    else json (stopAt .listSeparator (c :: r))

/-- The closing bracket of a list of which no further item is wanted. -/
def closeList (s : List Char) : Reading (Rest s) :=
  match skipBlanks s with
  | ⟨[], _⟩ => json (stopAt .endInList [])
  | ⟨c :: r, hr⟩ =>
    if c = ']' then .ok ⟨r, hr⟩
    else if c = ',' then
      match skipBlanks r with
      | ⟨d :: t, _⟩ =>
        json (stopAt (if d = ']' then .trailingComma else .trailingCharacters) (d :: t))
      | ⟨[], _⟩ => json (stopAt .trailingCharacters [])
    else json (stopAt .trailingCharacters (c :: r))

/-- Texts up to the closing bracket. -/
def readTextItems (first : Bool) (s : List Char) : Reading (List String × Rest s) := do
  match ← nextItem first s with
  | none =>
    let rest ← closeList s
    .ok ([], rest)
  | some start =>
    let (text, afterText) ← readText start.1
    let (texts, rest) ← readTextItems false afterText.1
    .ok (text :: texts, start.andRest (afterText.trans rest))
termination_by s.length
decreasing_by exact Nat.lt_of_lt_of_le afterText.2 start.2

def readTexts (s : List Char) : Reading (List String × Rest s) :=
  match skipBlanks s with
  | ⟨[], _⟩ => json (stopAt .endInValue [])
  | ⟨c :: r, hr⟩ =>
    if c = '[' then do
      let (texts, rest) ← readTextItems true r
      .ok (texts, Rest.trans ⟨r, hr⟩ rest)
    else refuse .texts (c :: r)

/-- Puts the text of a key into the options; the opaque types are no single text. -/
def setText (options : Options) (text : String) : Key → Options
  | .lifetime => { options with lifetime := text }
  | .textAlias => { options with textAlias := text }
  | .spanImport => { options with spanImport := text }
  | .astModule => { options with astModule := text }
  | .opaqueTypes => options
  | .astCommand => { options with astCommand := text }
  | .visitorCommand => { options with visitorCommand := text }

/-- Reads the value of a key and puts it into the options. -/
def readSetting (options : Options) (key : Key) (s : List Char) : Reading (Options × Rest s) :=
  match key with
  | .opaqueTypes => do
    let (texts, rest) ← readTexts s
    .ok ({ options with opaqueTypes := texts }, rest)
  | key => do
    let (text, rest) ← readText s
    .ok (setText options text key, rest)

/-- The values of the given keys in a list, as far as the list goes. -/
def readPositional (options : Options) (first : Bool) :
    List Key → (s : List Char) → Reading (Options × Tail s)
  | [], s => .ok (options, Tail.refl s)
  | key :: keys, s => do
    match ← nextItem first s with
    | none => .ok (options, Tail.refl s)
    | some start =>
      let (options, afterValue) ← readSetting options key start.1
      let (options, rest) ← readPositional options false keys afterValue.1
      .ok (options, (start.andRest (afterValue.andTail rest)).toTail)

/-- The place of a fault in a key: behind the brace, if the object ends after the key. -/
def afterObject (s : List Char) : List Char :=
  match (skipBlanks s).1 with
  | [] => []
  | c :: r => if c = '\x7d' then r else c :: r

/-- One member of an object of which some keys have been read; its quote is the first character. -/
def readMember (options : Options) (seen : List Key) (s : List Char) :
    Reading (Key × Options × Rest s) :=
  match s with
  | [] => json (stopAt .endInValue [])
  | c :: r =>
    if c ≠ '"' then json (stopAt .keyNotString (c :: r))
    else do
      let (name, afterKey) ← json (Json.Quoted.read r)
      match Key.ofName? (String.ofList name) with
      | none => .error ⟨.unknownKey (String.ofList name), afterObject afterKey.1, 0⟩
      | some key =>
        if seen.contains key then .error ⟨.duplicateKey key, afterObject afterKey.1, 0⟩
        else
          let afterColon ← json (Json.readColon afterKey.1)
          let (options, rest) ← readSetting options key afterColon.1
          .ok (key, options, .cons c (afterKey.trans (afterColon.trans rest)))

/-- The members of an object after those whose keys have been read, and the closing brace. -/
def readMembers (options : Options) (seen : List Key) (s : List Char) :
    Reading (Options × Rest s) :=
  match skipBlanks s with
  | ⟨[], _⟩ => json (stopAt .endInObject [])
  | ⟨c :: r, hr⟩ =>
    if c = '\x7d' then .ok (options, ⟨r, hr⟩)
    else if seen.isEmpty then do
      let (key, options, afterMember) ← readMember options seen (c :: r)
      let (options, rest) ← readMembers options (key :: seen) afterMember.1
      .ok (options, Tail.andRest ⟨c :: r, hr⟩ (afterMember.trans rest))
    else if c = ',' then
      match skipBlanks r with
      | ⟨[], _⟩ => json (stopAt .endInValue [])
      | ⟨d :: t, ht⟩ =>
        if d = '\x7d' then json (stopAt .trailingComma (d :: t))
        else do
          let (key, options, afterMember) ← readMember options seen (d :: t)
          let (options, rest) ← readMembers options (key :: seen) afterMember.1
          .ok (options,
            Rest.trans ⟨r, hr⟩ (Tail.andRest ⟨d :: t, ht⟩ (afterMember.trans rest)))
    else json (stopAt .objectSeparator (c :: r))
termination_by s.length
decreasing_by
  · exact Nat.lt_of_lt_of_le afterMember.2 hr
  · exact Nat.lt_of_lt_of_le afterMember.2 (Nat.le_trans ht (Nat.le_of_lt hr))

/-- Options are an object with some of the keys, or a list with the values of the first keys in
their order. What is not given keeps its default. -/
def read (s : List Char) : Reading (Options × Rest s) :=
  match skipBlanks s with
  | ⟨[], _⟩ => json (stopAt .endInValue [])
  | ⟨c :: r, hr⟩ =>
    if c = '[' then do
      let (options, afterValues) ← readPositional default true Key.all r
      let rest ← closeList afterValues.1
      .ok (options, Rest.trans ⟨r, hr⟩ (afterValues.andRest rest))
    else if c = '\x7b' then do
      let (options, rest) ← readMembers default [] r
      .ok (options, Rest.trans ⟨r, hr⟩ rest)
    else refuse .options (c :: r)

def ofText? (text : String) : Except (Located ReadFault) Options :=
  let result := do
    let (options, rest) ← read text.toList
    json (Json.finish rest.1)
    return options
  result.mapError (·.locate text.toList)

end NodeSchema.Options
