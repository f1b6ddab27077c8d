import NodeSchema.Decimal
import NodeSchema.Json.Basic
import NodeSchema.Text.Quoted

namespace NodeSchema.Json

/-- Doubles from 1e-5 up to below 1e16 are written positionally. -/
def numberLayout : Decimal.Layout := ⟨-5, 15⟩

mutual

def compact : Json → String
  | .null => "null"
  | .bool b => if b then "true" else "false"
  | .integer n => toString n
  | .real x => numberLayout.float x
  | .string s => Text.quote s
  | .array items => "[" ++ ",".intercalate (compactItems items) ++ "]"
  | .object members => "\x7b" ++ ",".intercalate (compactMembers members) ++ "\x7d"

def compactItems : List Json → List String
  | [] => []
  | item :: items => item.compact :: compactItems items

def compactMembers : List (String × Json) → List String
  | [] => []
  | (key, value) :: members => (Text.quote key ++ ":" ++ value.compact) :: compactMembers members

end

def margin (level : Nat) : String := String.ofList (List.replicate (2 * level) ' ')

/-- A bracketed list: the brackets touch when there is nothing between them, otherwise every item
has a line of its own. -/
def layItems (level : Nat) (opening closing : String) (items : List String) : String :=
  if items.isEmpty then opening ++ closing
  else opening ++ "\n" ++ ",\n".intercalate (items.map (margin (level + 1) ++ ·))
    ++ "\n" ++ margin level ++ closing

mutual

/-- The text of a value that starts on a line of margin `level`. -/
def prettyAt (level : Nat) : Json → String
  | .array items => layItems level "[" "]" (prettyItems (level + 1) items)
  | .object members => layItems level "\x7b" "\x7d" (prettyMembers (level + 1) members)
  | .null => "null"
  | .bool b => if b then "true" else "false"
  | .integer n => toString n
  | .real x => numberLayout.float x
  | .string s => Text.quote s

def prettyItems (level : Nat) : List Json → List String
  | [] => []
  | item :: items => item.prettyAt level :: prettyItems level items

def prettyMembers (level : Nat) : List (String × Json) → List String
  | [] => []
  | (key, value) :: members =>
    (Text.quote key ++ ": " ++ value.prettyAt level) :: prettyMembers level members

end

def pretty (value : Json) : String := value.prettyAt 0

end NodeSchema.Json
