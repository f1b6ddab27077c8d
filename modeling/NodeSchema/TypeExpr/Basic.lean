namespace NodeSchema

inductive TypeExpr where
  | atomic (name : String)
  | generic (container : String) (args : List TypeExpr)
deriving Inhabited

namespace TypeExpr

/-- The container of sequences. -/
def sequence : String := "Vec"

/-- The container of values that may be absent. -/
def optional : String := "Option"

/-- The container of values kept behind a pointer. -/
def owned : String := "Box"

def isAtomic : TypeExpr → Bool
  | .atomic _ => true
  | .generic _ _ => false

mutual

/-- The text form, such as `Option<Box<Expr>>`. -/
def toText : TypeExpr → String
  | .atomic name => name
  | .generic container args => container ++ "<" ++ ", ".intercalate (toTexts args) ++ ">"

def toTexts : List TypeExpr → List String
  | [] => []
  | arg :: args => arg.toText :: toTexts args

end

mutual

/-- The atomic names, from left to right. -/
def atoms : TypeExpr → List String
  | .atomic name => [name]
  | .generic _ args => atomsOf args

def atomsOf : List TypeExpr → List String
  | [] => []
  | arg :: args => arg.atoms ++ atomsOf args

end

mutual

def decEq : (a b : TypeExpr) → Decidable (a = b)
  | .atomic m, .atomic n =>
    if h : m = n then .isTrue (by rw [h]) else .isFalse (by simp [h])
  | .generic c as, .generic d bs =>
    if h : c = d then
      match decEqs as bs with
      | .isTrue h' => .isTrue (by rw [h, h'])
      | .isFalse h' => .isFalse (by simp [h'])
    else .isFalse (by simp [h])
  | .atomic _, .generic _ _ => .isFalse (by simp)
  | .generic _ _, .atomic _ => .isFalse (by simp)

def decEqs : (as bs : List TypeExpr) → Decidable (as = bs)
  | [], [] => .isTrue rfl
  | a :: as, b :: bs =>
    match decEq a b, decEqs as bs with
    | .isTrue h, .isTrue h' => .isTrue (by rw [h, h'])
    | .isFalse h, _ => .isFalse (by simp [h])
    | _, .isFalse h => .isFalse (by simp [h])
  | [], _ :: _ => .isFalse (by simp)
  | _ :: _, [] => .isFalse (by simp)

end

instance : DecidableEq TypeExpr := decEq

@[simp] theorem toTexts_eq_map (args : List TypeExpr) : toTexts args = args.map toText := by
  induction args with
  | nil => rfl
  | cons arg args ih => simp [toTexts, ih]

@[simp] theorem atomsOf_eq_flatMap (args : List TypeExpr) : atomsOf args = args.flatMap atoms := by
  induction args with
  | nil => rfl
  | cons arg args ih => simp [atomsOf, ih]

end TypeExpr

end NodeSchema
