import NodeSchema.Schema.Basic

namespace NodeSchema.JavaScript

def ident : TypeExpr := .atomic "Ident"

def vec (type : TypeExpr) : TypeExpr := .generic TypeExpr.sequence [type]

def option (type : TypeExpr) : TypeExpr := .generic TypeExpr.optional [type]

def box (type : TypeExpr) : TypeExpr := .generic TypeExpr.owned [type]

/-- The syntax tree of JavaScript. A recursion through a union goes through a box or a sequence, so
that every type has a size. -/
def schema : Schema := ⟨[
  .record "SourceFile"
    [⟨"stmts", vec (.atomic "Stmt")⟩],
  .record "Text"
    [⟨"text", ident⟩],
  .record "Label"
    [⟨"name", ident⟩],
  .record "Block"
    [⟨"stmts", vec (.atomic "Stmt")⟩],
  .union "Stmt"
    [⟨"Expr", [box (.atomic "Expr")]⟩, ⟨"Block", [.atomic "Block"]⟩,
     ⟨"Return", [option (box (.atomic "Expr"))]⟩, ⟨"VarDecl", [.atomic "VarDecl"]⟩,
     ⟨"If", [box (.atomic "Expr"), box (.atomic "Stmt"), option (box (.atomic "Stmt"))]⟩,
     ⟨"Switch", [box (.atomic "Expr"), vec (.atomic "SwitchCase")]⟩,
     ⟨"While", [box (.atomic "Expr"), box (.atomic "Stmt")]⟩,
     ⟨"DoWhile", [box (.atomic "Stmt"), box (.atomic "Expr")]⟩,
     ⟨"Try", [box (.atomic "TryStmt")]⟩, ⟨"For", [box (.atomic "For")]⟩,
     ⟨"ForInOrOf", [box (.atomic "ForInOrOf")]⟩, ⟨"Break", [option (.atomic "Label")]⟩,
     ⟨"Continue", [option (.atomic "Label")]⟩, ⟨"Debugger", []⟩,
     ⟨"With", [box (.atomic "Expr"), box (.atomic "Stmt")]⟩,
     ⟨"FunctionDecl", [.atomic "Function"]⟩, ⟨"ClassDecl", [box (.atomic "Class")]⟩,
     ⟨"Empty", []⟩],
  .union "Expr"
    [⟨"Var", [ident]⟩, ⟨"BinOp", [box (.atomic "Expr"), .atomic "BinOp", box (.atomic "Expr")]⟩,
     ⟨"ArrowFn", [.atomic "ParamList", box (.atomic "ArrowFnBody")]⟩,
     ⟨"Function", [.atomic "Function"]⟩, ⟨"Call", [box (.atomic "Expr"), vec (.atomic "Expr")]⟩,
     ⟨"Index", [box (.atomic "Expr"), box (.atomic "Expr")]⟩,
     ⟨"Prop", [box (.atomic "Expr"), ident]⟩, ⟨"String", [.atomic "Text"]⟩,
     ⟨"Number", [.atomic "Text"]⟩, ⟨"Boolean", [.atomic "bool"]⟩, ⟨"Null", []⟩,
     ⟨"Undefined", []⟩, ⟨"Object", [vec (.atomic "ObjectLiteralEntry")]⟩,
     ⟨"Throw", [box (.atomic "Expr")]⟩, ⟨"PostIncrement", [box (.atomic "Expr")]⟩,
     ⟨"PostDecrement", [box (.atomic "Expr")]⟩, ⟨"PreIncrement", [box (.atomic "Expr")]⟩,
     ⟨"PreDecrement", [box (.atomic "Expr")]⟩, ⟨"Array", [vec (.atomic "ArrayLiteralMember")]⟩,
     ⟨"New", [box (.atomic "Expr")]⟩, ⟨"Yield", [option (box (.atomic "Expr"))]⟩,
     ⟨"YieldFrom", [box (.atomic "Expr")]⟩,
     ⟨"Ternary", [box (.atomic "Expr"), box (.atomic "Expr"), box (.atomic "Expr")]⟩,
     ⟨"Assign", [box (.atomic "Pattern"), .atomic "AssignOp", box (.atomic "Expr")]⟩,
     ⟨"Regex", [.atomic "Text"]⟩, ⟨"Delete", [box (.atomic "Expr")]⟩,
     ⟨"Void", [box (.atomic "Expr")]⟩, ⟨"TypeOf", [box (.atomic "Expr")]⟩,
     ⟨"UnaryPlus", [box (.atomic "Expr")]⟩, ⟨"UnaryMinus", [box (.atomic "Expr")]⟩,
     ⟨"BitNot", [box (.atomic "Expr")]⟩, ⟨"Not", [box (.atomic "Expr")]⟩,
     ⟨"Await", [box (.atomic "Expr")]⟩, ⟨"Comma", [vec (.atomic "Expr")]⟩, ⟨"Super", []⟩,
     ⟨"Class", [box (.atomic "Class")]⟩,
     ⟨"TemplateLiteral", [vec (.atomic "TemplateLiteralFragment")]⟩],
  .union "Pattern"
    [⟨"Var", [ident]⟩, ⟨"Assignment", [box (.atomic "Pattern"), box (.atomic "Expr")]⟩,
     ⟨"Array", [vec (.atomic "Pattern")]⟩, ⟨"Object", [.atomic "ObjectPattern"]⟩,
     ⟨"Elision", []⟩, ⟨"Rest", [box (.atomic "Pattern")]⟩],
  .record "Class"
    [⟨"name", option ident⟩, ⟨"superclass", option (box (.atomic "Expr"))⟩,
     ⟨"body", .atomic "ClassBody"⟩],
  .record "ClassBody"
    [⟨"members", vec (.atomic "ClassMember")⟩],
  .union "ClassMember"
    [⟨"MethodDef", [.atomic "MethodDef"]⟩, ⟨"FieldDef", [.atomic "FieldDef"]⟩],
  .record "FieldDef"
    [⟨"name", ident⟩, ⟨"initializer", option (.atomic "Expr")⟩],
  .record "MethodDef"
    [⟨"name", .atomic "ObjectKey"⟩, ⟨"body", .atomic "Function"⟩,
     ⟨"accessor_type", option (.atomic "AccessorType")⟩],
  .union "ObjectKey"
    [⟨"Ident", [ident]⟩, ⟨"String", [.atomic "Text"]⟩, ⟨"Computed", [box (.atomic "Expr")]⟩],
  .union "ObjectLiteralEntry"
    [⟨"Ident", [ident]⟩, ⟨"Prop", [.atomic "ObjectKey", .atomic "Expr"]⟩,
     ⟨"Method", [.atomic "MethodDef"]⟩, ⟨"Spread", [.atomic "Expr"]⟩],
  .union "ArrayLiteralMember"
    [⟨"Expr", [.atomic "Expr"]⟩, ⟨"Elision", []⟩, ⟨"Spread", [.atomic "Expr"]⟩],
  .record "ParamList"
    [⟨"params", vec (.atomic "Param")⟩],
  .record "Param"
    [⟨"pattern", .atomic "Pattern"⟩],
  .record "Function"
    [⟨"name", option ident⟩, ⟨"params", .atomic "ParamList"⟩, ⟨"body", .atomic "Block"⟩,
     ⟨"is_generator", .atomic "bool"⟩, ⟨"is_async", .atomic "bool"⟩],
  .union "ArrowFnBody"
    [⟨"Expr", [box (.atomic "Expr")]⟩, ⟨"Block", [.atomic "Block"]⟩],
  .record "SwitchCase"
    [⟨"test", option (.atomic "Expr")⟩, ⟨"body", vec (.atomic "Stmt")⟩],
  .record "VarDecl"
    [⟨"decl_type", .atomic "DeclType"⟩, ⟨"declarators", vec (.atomic "VarDeclarator")⟩],
  .record "VarDeclarator"
    [⟨"pattern", .atomic "Pattern"⟩, ⟨"init", option (.atomic "Expr")⟩],
  .record "For"
    [⟨"init", .atomic "ForInit"⟩, ⟨"test", option (.atomic "Expr")⟩,
     ⟨"update", option (.atomic "Expr")⟩, ⟨"body", box (.atomic "Stmt")⟩],
  .union "ForInit"
    [⟨"VarDecl", [.atomic "VarDecl"]⟩, ⟨"Expr", [.atomic "Expr"]⟩],
  .record "ForInOrOf"
    [⟨"decl_type", option (.atomic "DeclType")⟩, ⟨"lhs", .atomic "Pattern"⟩,
     ⟨"in_or_of", .atomic "InOrOf"⟩, ⟨"rhs", .atomic "Expr"⟩, ⟨"body", box (.atomic "Stmt")⟩],
  .record "TryStmt"
    [⟨"try_block", .atomic "Block"⟩, ⟨"catch_pattern", option (.atomic "Pattern")⟩,
     ⟨"catch_block", option (.atomic "Block")⟩, ⟨"finally_block", option (.atomic "Block")⟩],
  .union "TemplateLiteralFragment"
    [⟨"Text", [.atomic "Text"]⟩, ⟨"Expr", [.atomic "Expr"]⟩],
  .record "ObjectPattern"
    [⟨"properties", vec (.atomic "ObjectPatternProperty")⟩,
     ⟨"rest", option (box (.atomic "Pattern"))⟩],
  .record "ObjectPatternProperty"
    [⟨"key", .atomic "ObjectKey"⟩, ⟨"value", .atomic "Pattern"⟩],
  .plain "BinOp"
    ["Add", "Sub", "Mul", "Div", "Mod", "BitXor", "BitAnd", "BitOr", "And", "Or", "Gt", "Lt",
     "Gte", "Lte", "EqEq", "EqEqEq", "NotEq", "NotEqEq", "In", "Instanceof", "LeftShift",
     "RightShift", "UnsignedRightShift"],
  .plain "AssignOp"
    ["Eq", "MulEq", "DivEq", "ModEq", "AddEq", "SubEq", "LeftShiftEq", "RightShiftEq",
     "UnsignedRightShiftEq", "BitAndEq", "BitXorEq", "BitOrEq", "ExponentEq"],
  .plain "DeclType"
    ["Let", "Const", "Var"],
  .plain "AccessorType"
    ["Get", "Set"],
  .plain "InOrOf"
    ["In", "Of"]
]⟩

end NodeSchema.JavaScript
