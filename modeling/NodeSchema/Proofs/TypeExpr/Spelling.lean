import Mathlib.Data.List.Chain
import NodeSchema.TypeExpr.Reader

namespace NodeSchema.TypeExpr

open Text (isBlank isIdentifier isName isWordChar)

/-- Induction on an expression with a hypothesis for every argument of a container. -/
@[elab_as_elim] theorem induction {motive : TypeExpr → Prop}
    (atomic : ∀ name, motive (.atomic name))
    (generic : ∀ container args, (∀ arg ∈ args, motive arg) → motive (.generic container args)) :
    ∀ type, motive type
  | .atomic name => atomic name
  | .generic container args => generic container args fun arg _ => induction atomic generic arg

/-- Every name is an identifier, and every container is applied to something. -/
inductive WellNamed : TypeExpr → Prop where
  | atomic {name : String} (hn : isIdentifier name) : WellNamed (.atomic name)
  | generic {container : String} {args : List TypeExpr} (hn : isIdentifier container)
      (hne : args ≠ []) (ha : ∀ arg ∈ args, WellNamed arg) : WellNamed (.generic container args)

mutual

/-- The tokens that an expression is written with. -/
def lexemes : TypeExpr → List Lexeme
  | .atomic name => [.name name]
  | .generic container args =>
    [.name container, .less] ++ [Lexeme.comma].intercalate (lexemesOf args) ++ [.greater]

def lexemesOf : List TypeExpr → List (List Lexeme)
  | [] => []
  | arg :: args => arg.lexemes :: lexemesOf args

end

@[simp] theorem lexemesOf_eq_map (args : List TypeExpr) : lexemesOf args = args.map lexemes := by
  induction args with
  | nil => rfl
  | cons arg args ih => rw [lexemesOf, ih, List.map_cons]

/-- What stands after the first argument of a container: further arguments, each behind a comma. -/
def moreLexemes (args : List TypeExpr) : List Lexeme :=
  args.flatMap fun arg => .comma :: arg.lexemes

theorem moreLexemes_cons (arg : TypeExpr) (args : List TypeExpr) :
    moreLexemes (arg :: args) = .comma :: (arg.lexemes ++ moreLexemes args) :=
  List.flatMap_cons

theorem intercalate_lexemes (first : TypeExpr) (others : List TypeExpr) :
    [Lexeme.comma].intercalate ((first :: others).map lexemes) =
      first.lexemes ++ moreLexemes others := by
  induction others generalizing first with
  | nil => simp [moreLexemes, List.intercalate]
  | cons other others ih =>
    rw [List.map_cons, List.map_cons, List.intercalate_cons_cons, ← List.map_cons, ih]
    simp [moreLexemes]

theorem lexemes_generic (container : String) (first : TypeExpr) (others : List TypeExpr) :
    lexemes (.generic container (first :: others)) =
      .name container :: .less :: (first.lexemes ++ (moreLexemes others ++ [.greater])) := by
  rw [lexemes, lexemesOf_eq_map, intercalate_lexemes]
  simp

/-- The texts that spell given lexemes: white space may stand before, between and after them. -/
inductive Spells : List Lexeme → List Char → Prop where
  | nil {blanks : List Char} (hb : blanks.all isBlank) : Spells [] blanks
  | cons {blanks cs : List Char} {l : Lexeme} {ls : List Lexeme} (hb : blanks.all isBlank)
      (h : Spells ls cs) : Spells (l :: ls) (blanks ++ l.text.toList ++ cs)

theorem Spells.blank {ls : List Lexeme} {c : Char} {cs : List Char} (h : Spells ls cs)
    (hc : isBlank c) : Spells ls (c :: cs) := by
  cases h with
  | nil hb => exact .nil (by simp [hc, hb])
  | @cons blanks cs l ls hb h =>
    have hb' : (c :: blanks).all isBlank := by simp [hc, hb]
    exact .cons hb' h

theorem Spells.lexeme {ls : List Lexeme} {cs : List Char} (h : Spells ls cs) (l : Lexeme) :
    Spells (l :: ls) (l.text.toList ++ cs) :=
  @Spells.cons [] _ _ _ rfl h

end NodeSchema.TypeExpr
