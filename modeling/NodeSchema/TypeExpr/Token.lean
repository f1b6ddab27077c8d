import NodeSchema.Text.Position
import NodeSchema.Text.Word

namespace NodeSchema.TypeExpr

open Text (isWordChar isBlank isName byteSize)

/-- A maximal run of word characters, or one character that belongs to no word. -/
inductive Piece where
  | word (cs : List Char)
  | mark (c : Char)
deriving DecidableEq

namespace Piece

def chars : Piece → List Char
  | .word cs => cs
  | .mark c => [c]

/-- Puts a character in front of a text that has been split. -/
def push (c : Char) (pieces : List Piece) : List Piece :=
  if isWordChar c then
    match pieces with
    | .word cs :: rest => .word (c :: cs) :: rest
    | pieces => .word [c] :: pieces
  else .mark c :: pieces

def split : List Char → List Piece
  | [] => []
  | c :: cs => push c (split cs)

theorem flatMap_chars_push (c : Char) (pieces : List Piece) :
    (push c pieces).flatMap chars = c :: pieces.flatMap chars := by
  unfold push
  split
  · split <;> simp [chars]
  · simp [chars]

theorem flatMap_chars_split (cs : List Char) : (split cs).flatMap chars = cs := by
  induction cs with
  | nil => rfl
  | cons c cs ih => rw [split, flatMap_chars_push, ih]

end Piece

/-- What a token says. -/
inductive Lexeme where
  | name (text : String)
  | less
  | greater
  | comma
deriving DecidableEq

def Lexeme.text : Lexeme → String
  | name text => text
  | less => "<"
  | greater => ">"
  | comma => ","

/-- What a piece is taken for. -/
inductive Role where
  | token (lexeme : Lexeme)
  | blank
  | stray
deriving DecidableEq

def Piece.role : Piece → Role
  | .word cs => if isName cs then .token (.name (String.ofList cs)) else .stray
  | .mark c =>
    if c = '<' then .token .less
    else if c = '>' then .token .greater
    else if c = ',' then .token .comma
    else if isBlank c then .blank
    else .stray

/-- The tokens of a text, each with its offset in bytes, up to the marker at its end. -/
inductive Tokens where
  | stop (offset : Nat)
  | cons (lexeme : Lexeme) (offset : Nat) (rest : Tokens)
deriving DecidableEq

namespace Tokens

/-- The number of tokens, the marker included. -/
def length : Tokens → Nat
  | stop _ => 1
  | cons _ _ rest => rest.length + 1

def lexemes : Tokens → List Lexeme
  | stop _ => []
  | cons lexeme _ rest => lexeme :: rest.lexemes

/-- The first token, where the marker has no lexeme. -/
def head : Tokens → Option Lexeme × Nat
  | stop offset => (none, offset)
  | cons lexeme offset _ => (some lexeme, offset)

/-- The texts of the tokens with their offsets; the marker's is empty. -/
def toList : Tokens → List (String × Nat)
  | stop offset => [("", offset)]
  | cons lexeme offset rest => (lexeme.text, offset) :: rest.toList

end Tokens

/-- Text that is neither a token nor blank. -/
structure Stray where
  fragment : String
  offset : Nat
deriving DecidableEq

/-- The tokens of the pieces that start at an offset. Stray text reaches up to the next token or
blank. -/
def Tokens.ofPieces (offset : Nat) : List Piece → Except Stray Tokens
  | [] => .ok (.stop offset)
  | p :: ps =>
    match p.role with
    | .token lexeme => do
      let rest ← Tokens.ofPieces (offset + byteSize p.chars) ps
      return .cons lexeme offset rest
    | .blank => Tokens.ofPieces (offset + byteSize p.chars) ps
    | .stray =>
      let stray := (p :: ps).takeWhile (·.role = .stray)
      .error ⟨String.ofList (stray.flatMap Piece.chars), offset⟩

def Tokens.ofText? (text : String) : Except Stray Tokens :=
  Tokens.ofPieces 0 (Piece.split text.toList)

end NodeSchema.TypeExpr
