import NodeSchema.TypeExpr.Basic
import NodeSchema.TypeExpr.Token

namespace NodeSchema.TypeExpr

inductive Expected where
  | identifier
  | separator
  | endOfInput
deriving DecidableEq

/-- A token that cannot follow the tokens before it; the marker has no lexeme. -/
structure Unexpected where
  expected : Expected
  found : Option Lexeme
  offset : Nat
deriving DecidableEq

def unexpected {α : Type} (expected : Expected) (tokens : Tokens) : Except Unexpected α :=
  .error ⟨expected, tokens.head.1, tokens.head.2⟩

/-- Tokens from which at least one has been taken. -/
abbrev Tokens.Rest (tokens : Tokens) : Type := { rest : Tokens // rest.length < tokens.length }

mutual

/-- Takes one type from the front of the tokens. -/
def readExpr (tokens : Tokens) : Except Unexpected (TypeExpr × tokens.Rest) :=
  match tokens with
  | .cons (.name container) _ (.cons .less _ inner) => do
    let (first, ⟨afterFirst, h⟩) ← readExpr inner
    let (others, ⟨rest, h'⟩) ← readArgs afterFirst
    return (.generic container (first :: others), ⟨rest, by simp only [Tokens.length]; omega⟩)
  | .cons (.name name) _ rest => return (.atomic name, ⟨rest, by simp [Tokens.length]⟩)
  | tokens => unexpected .identifier tokens
termination_by tokens.length
decreasing_by all_goals simp only [Tokens.length]; omega

/-- Takes the arguments after the first one and the closing bracket. -/
def readArgs (tokens : Tokens) : Except Unexpected (List TypeExpr × tokens.Rest) :=
  match tokens with
  | .cons .comma _ inner => do
    let (arg, ⟨afterArg, h⟩) ← readExpr inner
    let (others, ⟨rest, h'⟩) ← readArgs afterArg
    return (arg :: others, ⟨rest, by simp only [Tokens.length]; omega⟩)
  | .cons .greater _ rest => return ([], ⟨rest, by simp [Tokens.length]⟩)
  | tokens => unexpected .separator tokens
termination_by tokens.length
decreasing_by all_goals simp only [Tokens.length]; omega

end

/-- Takes one type that uses up all tokens. -/
def ofTokens? (tokens : Tokens) : Except Unexpected TypeExpr := do
  let (e, ⟨rest, _⟩) ← readExpr tokens
  match rest with
  | .stop _ => return e
  | rest => unexpected .endOfInput rest

/-- Why a text is not a type. -/
inductive ReadFault where
  | stray (fault : Stray)
  | unexpected (fault : Unexpected)
deriving DecidableEq

def ofText? (text : String) : Except ReadFault TypeExpr := do
  let tokens ← (Tokens.ofText? text).mapError .stray
  (ofTokens? tokens).mapError .unexpected

end NodeSchema.TypeExpr
