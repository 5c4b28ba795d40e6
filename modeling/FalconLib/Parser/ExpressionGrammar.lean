import FalconLib.Base.Precedence
import FalconLib.Libs.StringConversions
import FalconLib.Parser.Lexer
import FalconLib.Parser.Syntax

/-!
# The grammar of expressions

The rules of `parser.y` for `expr`, where nothing but an expression may begin: behind `=`, `(`, `[`
or a comma. A derivation has the tokens it takes; among the derivations of one row, the `%left` and
`%right` lines choose. An action may throw, where a number does not fit.
-/

namespace FalconLib.Parser.Expressions

open FalconLib.Base (Binary64)
open FalconLib.Base.Precedence
open FalconLib.Dsl
open FalconLib.Parser.Lexer (Token)

/-- A token and where it stands. -/
abbrev Terminal := Token × Span

/-! ## Operators -/

inductive UnarySign where
  | not | minus
deriving DecidableEq

inductive BinarySign where
  | plus | minus | mul | div | eq | ne | ll | gg | le | ge | and | or
deriving DecidableEq

namespace UnarySign

def token : UnarySign → Token
  | not => .not
  | minus => .minus

def op : UnarySign → String
  | not => "!"
  | minus => "-"

def ofToken? : Token → Option UnarySign
  | .not => some not
  | .minus => some minus
  | _ => none

end UnarySign

namespace BinarySign

def token : BinarySign → Token
  | plus => .plus
  | minus => .minus
  | mul => .mul
  | div => .div
  | eq => .eq
  | ne => .ne
  | ll => .ll
  | gg => .gg
  | le => .le
  | ge => .ge
  | and => .and
  | or => .or

def op : BinarySign → String
  | plus => "+"
  | minus => "-"
  | mul => "*"
  | div => "/"
  | eq => "=="
  | ne => "!="
  | ll => "<"
  | gg => ">"
  | le => "<="
  | ge => ">="
  | and => "&&"
  | or => "||"

def ofToken? : Token → Option BinarySign
  | .plus => some plus
  | .minus => some minus
  | .mul => some mul
  | .div => some div
  | .eq => some eq
  | .ne => some ne
  | .ll => some ll
  | .gg => some gg
  | .le => some le
  | .ge => some ge
  | .and => some and
  | .or => some or
  | _ => none

/-- The line of `%left` that the token stands in, from the lowest precedence. -/
def level : BinarySign → Nat
  | or => 0
  | and => 1
  | eq | ne => 2
  | ll | gg | le | ge => 3
  | plus | minus => 4
  | mul | div => 5

end BinarySign

/-- `%right NOT UMINUS` -/
def UnarySign.level : UnarySign → Nat := fun _ => 6

inductive Associativity where
  | left | right
deriving DecidableEq

/-- `%left` or `%right` of a line. -/
def associativity (level : Nat) : Associativity := if level = 6 then .right else .left

/-- The precedence of a rule is that of its last token, or the one it names. -/
def ruleLevel : UnarySign ⊕ BinarySign → Nat
  | .inl sign => sign.level
  | .inr sign => sign.level

/-- Between reducing by a rule and shifting a token the higher precedence decides, and between
equal ones their associativity. -/
def reduces (rule : UnarySign ⊕ BinarySign) (token : BinarySign) : Bool :=
  if ruleLevel rule = token.level then associativity token.level = .left
  else token.level < ruleLevel rule

abbrev LocatedUnary := UnarySign × Span

abbrev LocatedBinary := BinarySign × Span

theorem UnarySign.ofToken?_eq_some (t : Token) (sign : UnarySign) :
    ofToken? t = some sign ↔ t = sign.token := by
  constructor
  · intro h
    unfold ofToken? at h
    split at h <;> cases h <;> rfl
  · rintro rfl
    cases sign <;> rfl

theorem BinarySign.ofToken?_eq_some (t : Token) (sign : BinarySign) :
    ofToken? t = some sign ↔ t = sign.token := by
  constructor
  · intro h
    unfold ofToken? at h
    split at h <;> cases h <;> rfl
  · rintro rfl
    cases sign <;> rfl

def locatedUnary? (t : Terminal) : Option LocatedUnary :=
  (UnarySign.ofToken? t.1).map fun sign => (sign, t.2)

def locatedBinary? (t : Terminal) : Option LocatedBinary :=
  (BinarySign.ofToken? t.1).map fun sign => (sign, t.2)

/-- The operators of `expr`. -/
def table : Table Terminal LocatedUnary LocatedBinary where
  unaryToken sign := (sign.1.token, sign.2)
  unary? := locatedUnary?
  unary?_iff := by
    rintro ⟨t, span⟩ ⟨sign, span'⟩
    simp [locatedUnary?, UnarySign.ofToken?_eq_some]
  binaryToken sign := (sign.1.token, sign.2)
  binary? := locatedBinary?
  binary?_iff := by
    rintro ⟨t, span⟩ ⟨sign, span'⟩
    simp [locatedBinary?, BinarySign.ofToken?_eq_some]
  reduces rule token := reduces (rule.map Prod.fst Prod.fst) token.1

/-! ## Derivations -/

/-- `IDENTIFIER` -/
structure Identifier where
  name : String
  span : Span
deriving DecidableEq

def Identifier.terminal (identifier : Identifier) : Terminal :=
  (.identifier identifier.name, identifier.span)

/-- `primary_expr` -/
inductive PrimarySyntax where
  | integer (text : String) (span : Span)
  | double (text : String) (span : Span)
  | string (value : String) (span : Span)
  | trueKw (span : Span)
  | falseKw (span : Span)
  | nil (span : Span)
  | this (span : Span)
  | identifier (name : Identifier)
  | qualified (ns : Identifier) (colons : Span) (symbol : Identifier)

def PrimarySyntax.tokens : PrimarySyntax → List Terminal
  | integer text span => [(.integer text, span)]
  | double text span => [(.double text, span)]
  | string value span => [(.string value, span)]
  | trueKw span => [(.trueKw, span)]
  | falseKw span => [(.falseKw, span)]
  | nil span => [(.nil, span)]
  | this span => [(.this, span)]
  | identifier name => [name.terminal]
  | qualified ns colons symbol => [ns.terminal, (.coloncolon, colons), symbol.terminal]

mutual

/-- `expr`. That a `primary_expr` is one by two rules makes no difference to the tree. -/
inductive ExprSyntax where
  | postfixExpr (e : PostfixSyntax)
  | unary (sign : LocatedUnary) (operand : ExprSyntax)
  | binary (left : ExprSyntax) (sign : LocatedBinary) (right : ExprSyntax)
  | paren (lparen : Span) (e : ExprSyntax) (rparen : Span)

/-- `postfix_expr` -/
inductive PostfixSyntax where
  | primary (e : PrimarySyntax)
  | member (object : PostfixSyntax) (dot : Span) (field : Identifier)
  | methodCall (object : PostfixSyntax) (dot : Span) (method : Identifier) (lparen : Span)
      (args : CallArgList) (rparen : Span)
  | index (object : PostfixSyntax) (lbracket : Span) (index : ExprSyntax) (rbracket : Span)
  | call (name : Identifier) (lparen : Span) (args : CallArgList) (rparen : Span)
  | qualifiedCall (ns : Identifier) (colons : Span) (symbol : Identifier) (lparen : Span)
      (args : CallArgList) (rparen : Span)

/-- `call_arg_list`. A comma may follow the empty list. -/
inductive CallArgList where
  | empty
  | single (arg : CallArgSyntax)
  | snoc (args : CallArgList) (comma : Span) (arg : CallArgSyntax)

/-- `call_arg` -/
inductive CallArgSyntax where
  | named (name : Identifier) (assign : Span) (value : ExprSyntax)
  | positional (value : ExprSyntax)

end

mutual

def ExprSyntax.tokens : ExprSyntax → List Terminal
  | .postfixExpr e => e.tokens
  | .unary sign operand => (sign.1.token, sign.2) :: operand.tokens
  | .binary left sign right => left.tokens ++ (sign.1.token, sign.2) :: right.tokens
  | .paren lparen e rparen => (.lparen, lparen) :: (e.tokens ++ [(.rparen, rparen)])

def PostfixSyntax.tokens : PostfixSyntax → List Terminal
  | .primary e => e.tokens
  | .member object dot field => object.tokens ++ [(.dot, dot), field.terminal]
  | .methodCall object dot method lparen args rparen =>
    object.tokens ++ (.dot, dot) :: method.terminal :: (.lparen, lparen) ::
      (args.tokens ++ [(.rparen, rparen)])
  | .index object lbracket index rbracket =>
    object.tokens ++ (.lbracket, lbracket) :: (index.tokens ++ [(.rbracket, rbracket)])
  | .call name lparen args rparen =>
    name.terminal :: (.lparen, lparen) :: (args.tokens ++ [(.rparen, rparen)])
  | .qualifiedCall ns colons symbol lparen args rparen =>
    ns.terminal :: (.coloncolon, colons) :: symbol.terminal :: (.lparen, lparen) ::
      (args.tokens ++ [(.rparen, rparen)])

def CallArgList.tokens : CallArgList → List Terminal
  | .empty => []
  | .single arg => arg.tokens
  | .snoc args comma arg => args.tokens ++ (.comma, comma) :: arg.tokens

def CallArgSyntax.tokens : CallArgSyntax → List Terminal
  | .named name assign value => name.terminal :: (.assign, assign) :: value.tokens
  | .positional value => value.tokens

end

/-! ## Derivations that the precedences choose -/

/-- The operators of a derivation, down to its operands. -/
def ExprSyntax.toTree : ExprSyntax → Tree ExprSyntax LocatedUnary LocatedBinary
  | .postfixExpr e => .operand (.postfixExpr e)
  | .unary sign operand => .unary sign operand.toTree
  | .binary left sign right => .binary left.toTree sign right.toTree
  | .paren lparen e rparen => .operand (.paren lparen e rparen)

def ofTree : Tree ExprSyntax LocatedUnary LocatedBinary → ExprSyntax
  | .operand e => e
  | .unary sign tree => .unary sign (ofTree tree)
  | .binary left sign right => .binary (ofTree left) sign (ofTree right)

mutual

/-- No conflict was decided another way, at any depth. -/
def ExprSyntax.Respects : ExprSyntax → Prop
  | .postfixExpr e => e.Respects
  | .unary sign operand =>
    operand.Respects ∧ ∀ b ∈ operand.toTree.leftSpine, table.reduces (.inl sign) b = false
  | .binary left sign right =>
    left.Respects ∧ right.Respects ∧
      (∀ s ∈ left.toTree.rightSpine, table.reduces s sign = true) ∧
      ∀ b ∈ right.toTree.leftSpine, table.reduces (.inr sign) b = false
  | .paren _ e _ => e.Respects

def PostfixSyntax.Respects : PostfixSyntax → Prop
  | .primary _ => True
  | .member object _ _ => object.Respects
  | .methodCall object _ _ _ args _ => object.Respects ∧ args.Respects
  | .index object _ index _ => object.Respects ∧ index.Respects
  | .call _ _ args _ => args.Respects
  | .qualifiedCall _ _ _ _ args _ => args.Respects

def CallArgList.Respects : CallArgList → Prop
  | .empty => True
  | .single arg => arg.Respects
  | .snoc args _ arg => args.Respects ∧ arg.Respects

def CallArgSyntax.Respects : CallArgSyntax → Prop
  | .named _ _ value => value.Respects
  | .positional value => value.Respects

end

/-! ## Actions -/

/-- The standard library's reading of the text of a `DOUBLE`, none where it throws. -/
abbrev Stod := List Char → Option Binary64

/-- `set_expr_location` -/
def infoAt (filename : String) (span : Span) : ExprInfo where
  location := { filename := filename, line := span.firstLine, column := span.firstColumn }

section Actions

variable (stod : Stod) (filename : String)

def PrimarySyntax.action : PrimarySyntax → Option Expr
  | integer text span =>
    (Libs.Strings.stoll text.toList).map fun i => .literal (infoAt filename span) (.int i)
  | double text span => (stod text.toList).map fun x => .literal (infoAt filename span) (.float x)
  | string value span => some (.literal (infoAt filename span) (.string value))
  | trueKw span => some (.literal (infoAt filename span) (.bool true))
  | falseKw span => some (.literal (infoAt filename span) (.bool false))
  | nil span => some (.nilLiteral (infoAt filename span))
  | this span => some (.var (infoAt filename span) "this")
  | identifier name => some (.var (infoAt filename name.span) name.name)
  | qualified ns _ symbol =>
    some (.var (infoAt filename ns.span) (ns.name ++ "::" ++ symbol.name))

mutual

def ExprSyntax.action : ExprSyntax → Option Expr
  | .postfixExpr e => e.action
  | .unary sign operand => do
    let operand ← operand.action
    pure (.unary (infoAt filename sign.2) sign.1.op operand)
  | .binary left sign right => do
    let left ← left.action
    let right ← right.action
    pure (.binary (infoAt filename sign.2) sign.1.op left right)
  | .paren _ e _ => e.action

/-- The names of a method's arguments are dropped. -/
def PostfixSyntax.action : PostfixSyntax → Option Expr
  | .primary e => e.action stod filename
  | .member object _ field => do
    let object ← object.action
    pure (.member (infoAt filename field.span) object field.name)
  | .methodCall object _ method _ args _ => do
    let object ← object.action
    let args ← args.action
    pure (.methodCall (infoAt filename method.span) object method.name (args.map Prod.snd))
  | .index object lbracket index _ => do
    let object ← object.action
    let index ← index.action
    pure (.index (infoAt filename lbracket) object index)
  | .call name _ args _ => do
    let args ← args.action
    pure (.call (infoAt filename name.span) name.name args)
  | .qualifiedCall ns _ symbol _ args _ => do
    let args ← args.action
    pure (.call (infoAt filename ns.span) (ns.name ++ "::" ++ symbol.name) args)

def CallArgList.action : CallArgList → Option (List CallArg)
  | .empty => some []
  | .single arg => do
    let arg ← arg.action
    pure [arg]
  | .snoc args _ arg => do
    let args ← args.action
    let arg ← arg.action
    pure (args ++ [arg])

def CallArgSyntax.action : CallArgSyntax → Option CallArg
  | .named name _ value => do
    let value ← value.action
    pure (some name.name, value)
  | .positional value => do
    let value ← value.action
    pure (none, value)

end

end Actions

/-! ## Trees of derivations -/

theorem ofTree_toTree : ∀ e : ExprSyntax, ofTree e.toTree = e
  | .postfixExpr _ => rfl
  | .unary sign operand => by rw [ExprSyntax.toTree, ofTree, ofTree_toTree operand]
  | .binary left sign right => by
    rw [ExprSyntax.toTree, ofTree, ofTree_toTree left, ofTree_toTree right]
  | .paren .. => rfl

theorem tokens_toTree : ∀ e : ExprSyntax, e.toTree.tokens table ExprSyntax.tokens = e.tokens
  | .postfixExpr _ => rfl
  | .unary sign operand => by
    rw [ExprSyntax.toTree, Tree.tokens, tokens_toTree operand, ExprSyntax.tokens]
    rfl
  | .binary left sign right => by
    rw [ExprSyntax.toTree, Tree.tokens, tokens_toTree left, tokens_toTree right, ExprSyntax.tokens]
    rfl
  | .paren .. => rfl

/-- What stands between operators. -/
def IsOperand : ExprSyntax → Prop
  | .postfixExpr _ | .paren .. => True
  | .unary .. | .binary .. => False

theorem isOperand_toTree : ∀ e : ExprSyntax, e.toTree.Forall IsOperand
  | .postfixExpr _ => trivial
  | .unary _ operand => isOperand_toTree operand
  | .binary left _ right => ⟨isOperand_toTree left, isOperand_toTree right⟩
  | .paren .. => trivial

theorem toTree_ofTree {tree : Tree ExprSyntax LocatedUnary LocatedBinary}
    (h : tree.Forall IsOperand) : (ofTree tree).toTree = tree := by
  induction tree with
  | operand e =>
    cases e with
    | postfixExpr e => rfl
    | paren lparen e rparen => rfl
    | unary sign operand => exact h.elim
    | binary left sign right => exact h.elim
  | unary sign tree ih => rw [ofTree, ExprSyntax.toTree, ih h]
  | binary left sign right ihl ihr => rw [ofTree, ExprSyntax.toTree, ihl h.1, ihr h.2]

theorem respects_iff : ∀ e : ExprSyntax,
    e.Respects ↔ e.toTree.Conforms table ExprSyntax.Respects
  | .postfixExpr _ => Iff.rfl
  | .unary _ operand => and_congr (respects_iff operand) Iff.rfl
  | .binary left _ right =>
    and_congr (respects_iff left) (and_congr (respects_iff right) Iff.rfl)
  | .paren .. => Iff.rfl

end FalconLib.Parser.Expressions
