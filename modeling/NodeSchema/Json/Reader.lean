import NodeSchema.Json.Quoted

namespace NodeSchema.Json

open Text (Stop Located)

/-- The rest of a word of which the first letter has been read. -/
def readWord : List Char → (s : List Char) → Except (Stop Fault) (Tail s)
  | [], s => .ok (Tail.refl s)
  | _ :: _, [] => stopAt .endInValue []
  | w :: ws, c :: cs =>
    if c = w then do
      let rest ← readWord ws cs
      .ok ((Rest.ofCons c cs).andTail rest).toTail
    else stopAt .wordExpected (c :: cs)

section Items

variable {α : Type} (item : (s : List Char) → Except (Stop Fault) (α × Rest s))

/-- The items of a list after the first one, the closing bracket included. -/
def readMoreItems (s : List Char) : Except (Stop Fault) (List α × Rest s) :=
  match skipBlanks s with
  | ⟨[], _⟩ => stopAt .endInList []
  | ⟨c :: r, hr⟩ =>
    if c = ']' then .ok ([], ⟨r, hr⟩)
    else if c = ',' then
      match skipBlanks r with
      | ⟨[], _⟩ => stopAt .endInValue []
      | ⟨d :: t, ht⟩ =>
        if d = ']' then stopAt .trailingComma (d :: t)
        else do
          let (x, afterItem) ← item (d :: t)
          let (xs, rest) ← readMoreItems afterItem.1
          .ok (x :: xs, Rest.trans ⟨r, hr⟩ (Tail.andRest ⟨d :: t, ht⟩ (afterItem.trans rest)))
    else stopAt .listSeparator (c :: r)
termination_by s.length
decreasing_by exact Nat.lt_of_lt_of_le afterItem.2 (Nat.le_trans ht (Nat.le_of_lt hr))

/-- What follows an opening bracket. -/
def readItems (s : List Char) : Except (Stop Fault) (List α × Rest s) :=
  match skipBlanks s with
  | ⟨[], _⟩ => stopAt .endInList []
  | ⟨c :: r, hr⟩ =>
    if c = ']' then .ok ([], ⟨r, hr⟩)
    else do
      let (x, afterItem) ← item (c :: r)
      let (xs, rest) ← readMoreItems item afterItem.1
      .ok (x :: xs, Tail.andRest ⟨c :: r, hr⟩ (afterItem.trans rest))

/-- The colon after a key. -/
def readColon (s : List Char) : Except (Stop Fault) (Rest s) :=
  match skipBlanks s with
  | ⟨[], _⟩ => stopAt .endInObject []
  | ⟨c :: r, hr⟩ => if c = ':' then .ok ⟨r, hr⟩ else stopAt .colonExpected (c :: r)

/-- A key, which starts at the first character, its colon and its value. -/
def readMember (s : List Char) : Except (Stop Fault) ((String × α) × Rest s) :=
  match s with
  | [] => stopAt .endInValue []
  | c :: r =>
    if c = '"' then do
      let (key, afterKey) ← Quoted.read r
      let afterColon ← readColon afterKey.1
      let (value, rest) ← item afterColon.1
      .ok ((String.ofList key, value), .cons c (afterKey.trans (afterColon.trans rest)))
    else stopAt .keyNotString (c :: r)

/-- The members of an object after the first one, the closing brace included. -/
def readMoreMembers (s : List Char) : Except (Stop Fault) (List (String × α) × Rest s) :=
  match skipBlanks s with
  | ⟨[], _⟩ => stopAt .endInObject []
  | ⟨c :: r, hr⟩ =>
    if c = '\x7d' then .ok ([], ⟨r, hr⟩)
    else if c = ',' then
      match skipBlanks r with
      | ⟨[], _⟩ => stopAt .endInValue []
      | ⟨d :: t, ht⟩ =>
        if d = '\x7d' then stopAt .trailingComma (d :: t)
        else do
          let (m, afterMember) ← readMember item (d :: t)
          let (ms, rest) ← readMoreMembers afterMember.1
          .ok (m :: ms, Rest.trans ⟨r, hr⟩ (Tail.andRest ⟨d :: t, ht⟩ (afterMember.trans rest)))
    else stopAt .objectSeparator (c :: r)
termination_by s.length
decreasing_by exact Nat.lt_of_lt_of_le afterMember.2 (Nat.le_trans ht (Nat.le_of_lt hr))

/-- What follows an opening brace. -/
def readMembers (s : List Char) : Except (Stop Fault) (List (String × α) × Rest s) :=
  match skipBlanks s with
  | ⟨[], _⟩ => stopAt .endInObject []
  | ⟨c :: r, hr⟩ =>
    if c = '\x7d' then .ok ([], ⟨r, hr⟩)
    else do
      let (m, afterMember) ← readMember item (c :: r)
      let (ms, rest) ← readMoreMembers item afterMember.1
      .ok (m :: ms, Tail.andRest ⟨c :: r, hr⟩ (afterMember.trans rest))

end Items

/-- The members of an object by their keys; of equal keys the last one counts. -/
def ofMembers (members : List (String × Json)) : Json :=
  .object (members.foldl (fun sorted (key, value) => insertMember key value sorted) [])

/-- A value that is neither a list nor an object; blanks are not skipped. -/
def readScalar (s : List Char) : Except (Stop Fault) (Json × Rest s) :=
  match s with
  | [] => stopAt .endInValue []
  | c :: r =>
    if c = 'n' then do
      let rest ← readWord ['u', 'l', 'l'] r
      .ok (.null, (Rest.ofCons c r).andTail rest)
    else if c = 't' then do
      let rest ← readWord ['r', 'u', 'e'] r
      .ok (.bool true, (Rest.ofCons c r).andTail rest)
    else if c = 'f' then do
      let rest ← readWord ['a', 'l', 's', 'e'] r
      .ok (.bool false, (Rest.ofCons c r).andTail rest)
    else if c = '"' then do
      let (text, rest) ← Quoted.read r
      .ok (.string (String.ofList text), .cons c rest)
    else if c = '-' then do
      let (numeral, rest) ← Numeral.read true r
      let value ← numeral.value rest.1
      .ok (value, .cons c rest)
    else if c.isDigit then do
      let (numeral, rest) ← Numeral.read false (c :: r)
      let value ← numeral.value rest.1
      .ok (value, rest)
    else stopAt .valueExpected (c :: r)

/-- A value with at most `levels` lists and objects inside one another. -/
def readValue (levels : Nat) (s : List Char) : Except (Stop Fault) (Json × Rest s) :=
  match skipBlanks s with
  | ⟨[], _⟩ => stopAt .endInValue []
  | ⟨c :: r, hr⟩ =>
    if c = '[' then
      match levels with
      | 0 => stopAt .tooDeep (c :: r)
      | levels + 1 => do
        let (items, rest) ← readItems (readValue levels) r
        .ok (.array items, Rest.trans ⟨r, hr⟩ rest)
    else if c = '\x7b' then
      match levels with
      | 0 => stopAt .tooDeep (c :: r)
      | levels + 1 => do
        let (members, rest) ← readMembers (readValue levels) r
        .ok (ofMembers members, Rest.trans ⟨r, hr⟩ rest)
    else do
      let (value, rest) ← readScalar (c :: r)
      .ok (value, Tail.andRest ⟨c :: r, hr⟩ rest)

/-- Only blanks may follow a complete text. -/
def finish (s : List Char) : Except (Stop Fault) Unit :=
  match skipBlanks s with
  | ⟨[], _⟩ => .ok ()
  | ⟨c :: r, _⟩ => stopAt .trailingCharacters (c :: r)

/-- A whole text, with at most `levels` lists and objects inside one another. -/
def ofTextWithin? (levels : Nat) (text : String) : Except (Located Fault) Json :=
  let result := do
    let (value, rest) ← readValue levels text.toList
    finish rest.1
    return value
  result.mapError (·.locate text.toList)

/-- The number of lists and objects that may stand inside one another. -/
def maxLevels : Nat := 127

def ofText? (text : String) : Except (Located Fault) Json := ofTextWithin? maxLevels text

end NodeSchema.Json
