import NodeSchema.Text.Position

namespace NodeSchema

open Text (Stop)

/-- A JSON value. A number that is an integer of 64 bits is kept exactly, every other number is a
double. Members keep the order in which they are given; the reader sorts them by their keys. -/
inductive Json where
  | null
  | bool (value : Bool)
  | integer (value : Int)
  | real (value : Float)
  | string (value : String)
  | array (items : List Json)
  | object (members : List (String × Json))
deriving Inhabited

namespace Json

def asString? : Json → Option String
  | .string s => some s
  | _ => none

def asArray? : Json → Option (List Json)
  | .array items => some items
  | _ => none

def member? (key : String) : Json → Option Json
  | .object members => members.lookup key
  | _ => none

/-- Puts a member in its place by the order of the keys; an equal key loses its old value. -/
def insertMember (key : String) (value : Json) :
    List (String × Json) → List (String × Json)
  | [] => [(key, value)]
  | (k, v) :: rest =>
    if key < k then (key, value) :: (k, v) :: rest
    else if key = k then (key, value) :: rest
    else (k, v) :: insertMember key value rest

/-- What can be wrong with a text that should be JSON. -/
inductive Fault where
  | endInValue
  | endInString
  | endInList
  | endInObject
  | valueExpected
  | wordExpected
  | invalidNumber
  | numberOutOfRange
  | controlCharacter
  | invalidEscape
  | loneSurrogate
  | unfinishedSurrogatePair
  | trailingComma
  | trailingCharacters
  | listSeparator
  | objectSeparator
  | colonExpected
  | keyNotString
  | tooDeep
deriving DecidableEq

def Fault.message : Fault → String
  | endInValue => "EOF while parsing a value"
  | endInString => "EOF while parsing a string"
  | endInList => "EOF while parsing a list"
  | endInObject => "EOF while parsing an object"
  | valueExpected => "expected value"
  | wordExpected => "expected ident"
  | invalidNumber => "invalid number"
  | numberOutOfRange => "number out of range"
  | controlCharacter => "control character (\\u0000-\\u001F) found while parsing a string"
  | invalidEscape => "invalid escape"
  | loneSurrogate => "lone leading surrogate in hex escape"
  | unfinishedSurrogatePair => "unexpected end of hex escape"
  | trailingComma => "trailing comma"
  | trailingCharacters => "trailing characters"
  | listSeparator => "expected `,` or `]`"
  | objectSeparator => "expected `,` or `\x7d`"
  | colonExpected => "expected `:`"
  | keyNotString => "key must be a string"
  | tooDeep => "recursion limit exceeded"

/-- A rest of a text from which at least one character has been read. -/
abbrev Rest (s : List Char) : Type := { r : List Char // r.length < s.length }

/-- A rest of a text from which perhaps nothing has been read. -/
abbrev Tail (s : List Char) : Type := { r : List Char // r.length ≤ s.length }

/-- The rest of a text after its first character. -/
def Rest.ofCons (c : Char) (r : List Char) : Rest (c :: r) := ⟨r, Nat.lt_succ_self _⟩

/-- Reading on from a rest. -/
def Rest.trans {s : List Char} (first : Rest s) (rest : Rest first.1) : Rest s :=
  ⟨rest.1, Nat.lt_trans rest.2 first.2⟩

/-- A rest of what follows a character. -/
def Rest.cons {r : List Char} (c : Char) (rest : Rest r) : Rest (c :: r) :=
  (Rest.ofCons c r).trans rest

/-- Reading perhaps nothing further. -/
def Rest.andTail {s : List Char} (first : Rest s) (tail : Tail first.1) : Rest s :=
  ⟨tail.1, Nat.lt_of_le_of_lt tail.2 first.2⟩

def Tail.refl (s : List Char) : Tail s := ⟨s, Nat.le_refl _⟩

def Tail.trans {s : List Char} (first : Tail s) (tail : Tail first.1) : Tail s :=
  ⟨tail.1, Nat.le_trans tail.2 first.2⟩

def Tail.andRest {s : List Char} (first : Tail s) (rest : Rest first.1) : Rest s :=
  ⟨rest.1, Nat.lt_of_lt_of_le rest.2 first.2⟩

def Rest.toTail {s : List Char} (rest : Rest s) : Tail s := ⟨rest.1, Nat.le_of_lt rest.2⟩

@[simp] theorem Rest.val_trans {s : List Char} (first : Rest s) (rest : Rest first.1) :
    (first.trans rest).1 = rest.1 := rfl

@[simp] theorem Rest.val_andTail {s : List Char} (first : Rest s) (tail : Tail first.1) :
    (first.andTail tail).1 = tail.1 := rfl

@[simp] theorem Tail.val_andRest {s : List Char} (first : Tail s) (rest : Rest first.1) :
    (first.andRest rest).1 = rest.1 := rfl

def Tail.dropWhile (p : Char → Bool) (s : List Char) : Tail s :=
  ⟨s.dropWhile p, (List.dropWhile_suffix p).length_le⟩

def isBlank (c : Char) : Bool := c == ' ' || c == '\n' || c == '\t' || c == '\r'

def skipBlanks (s : List Char) : Tail s := Tail.dropWhile isBlank s

/-- A failure at the first character of a rest, or at the end of the text. -/
def stopAt {α : Type} (cause : Fault) (rest : List Char) : Except (Stop Fault) α :=
  .error ⟨cause, rest, 1⟩

end Json

end NodeSchema
