import FalconLib.Parser.ExpressionReading
import FalconLib.Parser.TokenRows

/-!
# The trees of expressions

What the actions of `expr` can build: a member, a call of a method and an index have no operator for
their object, numbers have no sign, and names are those the lexer knows. All such trees are built.
-/

namespace FalconLib.Parser.Expressions

open FalconLib.Base (Binary64)
open FalconLib.Base.Precedence
open FalconLib.Dsl
open FalconLib.Parser.Lexer (Token)
open FalconLib.Parser.TokenRows (IsNumber Lexical)

/-! ## Tokens that the lexer knows -/

def IsName (name : String) : Prop := Spelling.IsIdentifier name.toList

/-- A row of tokens and its tree. -/
def parseExpr (stod : Stod) (filename : String) (row : List Terminal) : Option Expr :=
  (readExpr row).bind fun e => e.action stod filename

/-! ## Trees -/

/-- `Module::symbol` -/
def IsQualifiedName (name : String) : Prop :=
  ∃ ns symbol, IsName ns ∧ IsName symbol ∧ name = ns ++ "::" ++ symbol

/-- No operator stands at the root. -/
def IsPostfix : Expr → Prop
  | .unary .. | .binary .. => False
  | _ => True

section WellFormed

variable (stod : Stod) (filename : String)

/-- The parser writes a location of its file, and no type. -/
def IsLocated (info : ExprInfo) : Prop :=
  info.inferredType = none ∧ info.location.filename = filename

def IsLiteral : Literal → Prop
  | .int i => ∃ text, IsNumber .integer text ∧ Libs.Strings.stoll text.toList = some i
  | .float x => ∃ text, IsNumber .double text ∧ stod text.toList = some x
  | .bool _ => True
  | .string value => '"' ∉ value.toList

mutual

/-- The trees of expressions. -/
def WellFormed : Expr → Prop
  | .literal info value => IsLocated filename info ∧ IsLiteral stod value
  | .nilLiteral info => IsLocated filename info
  | .var info name =>
    IsLocated filename info ∧ (name = "this" ∨ IsName name ∨ IsQualifiedName name)
  | .binary info op left right =>
    IsLocated filename info ∧ (∃ sign : BinarySign, sign.op = op) ∧ WellFormed left ∧
      WellFormed right
  | .unary info op operand =>
    IsLocated filename info ∧ (∃ sign : UnarySign, sign.op = op) ∧ WellFormed operand
  | .member info object field =>
    IsLocated filename info ∧ IsName field ∧ IsPostfix object ∧ WellFormed object
  | .methodCall info object method args =>
    IsLocated filename info ∧ IsName method ∧ IsPostfix object ∧ WellFormed object ∧
      WellFormedList args
  | .index info object i =>
    IsLocated filename info ∧ IsPostfix object ∧ WellFormed object ∧ WellFormed i
  | .call info name args =>
    IsLocated filename info ∧ (IsName name ∨ IsQualifiedName name) ∧ WellFormedArgs args

def WellFormedList : List Expr → Prop
  | [] => True
  | expr :: exprs => WellFormed expr ∧ WellFormedList exprs

def WellFormedArgs : List (Option String × Expr) → Prop
  | [] => True
  | (name, value) :: args => (∀ n ∈ name, IsName n) ∧ WellFormed value ∧ WellFormedArgs args

end

theorem isLocated_infoAt (span : Span) : IsLocated filename (infoAt filename span) := ⟨rfl, rfl⟩

theorem IsLocated.exists_span {filename : String} {info : ExprInfo}
    (h : IsLocated filename info) : ∃ span, infoAt filename span = info := by
  obtain ⟨inferredType, file, line, column⟩ := info
  obtain ⟨rfl, rfl⟩ := h
  exact ⟨{ firstLine := line, firstColumn := column }, rfl⟩

variable {stod filename}

theorem wellFormedArgs_append {args args' : List (Option String × Expr)} :
    WellFormedArgs stod filename (args ++ args') ↔
      WellFormedArgs stod filename args ∧ WellFormedArgs stod filename args' := by
  induction args with
  | nil => simp [WellFormedArgs]
  | cons arg args ih =>
    obtain ⟨name, value⟩ := arg
    simp only [List.cons_append, WellFormedArgs, ih, and_assoc]

theorem wellFormedList_map {args : List (Option String × Expr)}
    (h : WellFormedArgs stod filename args) :
    WellFormedList stod filename (args.map Prod.snd) := by
  induction args with
  | nil => trivial
  | cons arg args ih => exact ⟨h.2.1, ih h.2.2⟩

end WellFormed

/-! ## What is parsed is well formed -/

section Shape

variable {stod : Stod} {filename : String}

def LexicalRow (row : List Terminal) : Prop := ∀ t ∈ row, Lexical t.1

theorem LexicalRow.identifier {name : Identifier} {row : List Terminal} (h : LexicalRow row)
    (hname : name.terminal ∈ row) : IsName name.name := h _ hname

theorem LexicalRow.sub {row row' : List Terminal} (h : LexicalRow row) (hsub : row' ⊆ row) :
    LexicalRow row' := fun t ht => h t (hsub ht)

theorem PrimarySyntax.action_wellFormed {e : PrimarySyntax} (hrow : LexicalRow e.tokens)
    {tree : Expr} (h : e.action stod filename = some tree) :
    WellFormed stod filename tree ∧ IsPostfix tree := by
  cases e with
  | integer text span =>
    obtain ⟨i, hi, rfl⟩ := Option.map_eq_some_iff.mp h
    exact ⟨⟨isLocated_infoAt _ _, text, hrow _ List.mem_cons_self, hi⟩, trivial⟩
  | double text span =>
    obtain ⟨x, hx, rfl⟩ := Option.map_eq_some_iff.mp h
    exact ⟨⟨isLocated_infoAt _ _, text, hrow _ List.mem_cons_self, hx⟩, trivial⟩
  | string value span =>
    cases h
    exact ⟨⟨isLocated_infoAt _ _, hrow _ List.mem_cons_self⟩, trivial⟩
  | trueKw span | falseKw span =>
    cases h
    exact ⟨⟨isLocated_infoAt _ _, trivial⟩, trivial⟩
  | nil span =>
    cases h
    exact ⟨isLocated_infoAt _ _, trivial⟩
  | this span =>
    cases h
    exact ⟨⟨isLocated_infoAt _ _, .inl rfl⟩, trivial⟩
  | identifier name =>
    cases h
    exact ⟨⟨isLocated_infoAt _ _, .inr (.inl (hrow _ List.mem_cons_self))⟩, trivial⟩
  | qualified ns colons symbol =>
    cases h
    refine ⟨⟨isLocated_infoAt _ _, .inr (.inr ⟨ns.name, symbol.name, ?_, ?_, rfl⟩)⟩, trivial⟩
    · exact hrow.identifier (by simp [PrimarySyntax.tokens])
    · exact hrow.identifier (by simp [PrimarySyntax.tokens])

mutual

theorem ExprSyntax.action_wellFormed : ∀ {e : ExprSyntax}, LexicalRow e.tokens →
    ∀ {tree : Expr}, e.action stod filename = some tree → WellFormed stod filename tree
  | .postfixExpr e, hrow, tree, h => (e.action_wellFormed hrow h).1
  | .unary sign operand, hrow, tree, h => by
    obtain ⟨operandTree, hoperand, h⟩ := Option.bind_eq_some_iff.mp h
    cases h
    exact ⟨isLocated_infoAt _ _, ⟨sign.1, rfl⟩,
      operand.action_wellFormed (hrow.sub (by simp [ExprSyntax.tokens])) hoperand⟩
  | .binary left sign right, hrow, tree, h => by
    obtain ⟨leftTree, hleft, h⟩ := Option.bind_eq_some_iff.mp h
    obtain ⟨rightTree, hright, h⟩ := Option.bind_eq_some_iff.mp h
    cases h
    exact ⟨isLocated_infoAt _ _, ⟨sign.1, rfl⟩,
      left.action_wellFormed (hrow.sub (by simp [ExprSyntax.tokens])) hleft,
      right.action_wellFormed (hrow.sub (by simp [ExprSyntax.tokens])) hright⟩
  | .paren lparen e rparen, hrow, tree, h =>
    e.action_wellFormed (hrow.sub (by simp [ExprSyntax.tokens])) h

theorem PostfixSyntax.action_wellFormed : ∀ {e : PostfixSyntax}, LexicalRow e.tokens →
    ∀ {tree : Expr}, e.action stod filename = some tree →
      WellFormed stod filename tree ∧ IsPostfix tree
  | .primary e, hrow, tree, h => e.action_wellFormed hrow h
  | .member object dot field, hrow, tree, h => by
    obtain ⟨objectTree, hobject, h⟩ := Option.bind_eq_some_iff.mp h
    cases h
    obtain ⟨hwell, hobjectShape⟩ :=
      object.action_wellFormed (hrow.sub (by simp [PostfixSyntax.tokens])) hobject
    exact ⟨⟨isLocated_infoAt _ _, hrow.identifier (by simp [PostfixSyntax.tokens]), hobjectShape,
      hwell⟩, trivial⟩
  | .methodCall object dot method lparen args rparen, hrow, tree, h => by
    obtain ⟨objectTree, hobject, h⟩ := Option.bind_eq_some_iff.mp h
    obtain ⟨argTrees, hargs, h⟩ := Option.bind_eq_some_iff.mp h
    cases h
    obtain ⟨hwell, hobjectShape⟩ :=
      object.action_wellFormed (hrow.sub (by simp [PostfixSyntax.tokens])) hobject
    have hwellArgs := args.action_wellFormed
      (hrow.sub fun t ht => by simp [PostfixSyntax.tokens, ht]) hargs
    exact ⟨⟨isLocated_infoAt _ _, hrow.identifier (by simp [PostfixSyntax.tokens]), hobjectShape,
      hwell, wellFormedList_map hwellArgs⟩, trivial⟩
  | .index object lbracket i rbracket, hrow, tree, h => by
    obtain ⟨objectTree, hobject, h⟩ := Option.bind_eq_some_iff.mp h
    obtain ⟨indexTree, hi, h⟩ := Option.bind_eq_some_iff.mp h
    cases h
    obtain ⟨hwell, hobjectShape⟩ :=
      object.action_wellFormed (hrow.sub (by simp [PostfixSyntax.tokens])) hobject
    have hwellIndex := i.action_wellFormed
      (hrow.sub fun t ht => by simp [PostfixSyntax.tokens, ht]) hi
    exact ⟨⟨isLocated_infoAt _ _, hobjectShape, hwell, hwellIndex⟩, trivial⟩
  | .call name lparen args rparen, hrow, tree, h => by
    obtain ⟨argTrees, hargs, h⟩ := Option.bind_eq_some_iff.mp h
    cases h
    have hwellArgs := args.action_wellFormed
      (hrow.sub fun t ht => by simp [PostfixSyntax.tokens, ht]) hargs
    exact ⟨⟨isLocated_infoAt _ _, .inl (hrow.identifier (by simp [PostfixSyntax.tokens])),
      hwellArgs⟩, trivial⟩
  | .qualifiedCall ns colons symbol lparen args rparen, hrow, tree, h => by
    obtain ⟨argTrees, hargs, h⟩ := Option.bind_eq_some_iff.mp h
    cases h
    have hwellArgs := args.action_wellFormed
      (hrow.sub fun t ht => by simp [PostfixSyntax.tokens, ht]) hargs
    exact ⟨⟨isLocated_infoAt _ _, .inr ⟨ns.name, symbol.name,
      hrow.identifier (by simp [PostfixSyntax.tokens]),
      hrow.identifier (by simp [PostfixSyntax.tokens]), rfl⟩, hwellArgs⟩, trivial⟩

theorem CallArgList.action_wellFormed : ∀ {args : CallArgList}, LexicalRow args.tokens →
    ∀ {trees : List CallArg}, args.action stod filename = some trees →
      WellFormedArgs stod filename trees
  | .empty, _, _, h => by
    cases h
    trivial
  | .single arg, hrow, trees, h => by
    obtain ⟨tree, harg, h⟩ := Option.bind_eq_some_iff.mp h
    cases h
    obtain ⟨hname, hwell⟩ := arg.action_wellFormed hrow harg
    exact ⟨hname, hwell, trivial⟩
  | .snoc args comma arg, hrow, trees, h => by
    obtain ⟨before, hargs, h⟩ := Option.bind_eq_some_iff.mp h
    obtain ⟨tree, harg, h⟩ := Option.bind_eq_some_iff.mp h
    cases h
    obtain ⟨hname, hwell⟩ :=
      arg.action_wellFormed (hrow.sub fun t ht => by simp [CallArgList.tokens, ht]) harg
    have hbefore := args.action_wellFormed (hrow.sub (by simp [CallArgList.tokens])) hargs
    exact wellFormedArgs_append.mpr ⟨hbefore, hname, hwell, trivial⟩

theorem CallArgSyntax.action_wellFormed : ∀ {arg : CallArgSyntax}, LexicalRow arg.tokens →
    ∀ {tree : CallArg}, arg.action stod filename = some tree →
      (∀ n ∈ tree.1, IsName n) ∧ WellFormed stod filename tree.2
  | .named name assign value, hrow, tree, h => by
    obtain ⟨valueTree, hvalue, h⟩ := Option.bind_eq_some_iff.mp h
    cases h
    refine ⟨fun n hn => ?_,
      value.action_wellFormed (hrow.sub fun t ht => by simp [CallArgSyntax.tokens, ht]) hvalue⟩
    cases hn
    exact hrow.identifier (by simp [CallArgSyntax.tokens])
  | .positional value, hrow, tree, h => by
    obtain ⟨valueTree, hvalue, h⟩ := Option.bind_eq_some_iff.mp h
    cases h
    exact ⟨by simp, value.action_wellFormed hrow hvalue⟩

end

end Shape

/-! ## What is well formed is parsed -/

section Derivations

variable {stod : Stod} {filename : String}

/-- A derivation of the tree that the parser can find. -/
structure Derives (stod : Stod) (filename : String) (e : ExprSyntax) (tree : Expr) : Prop where
  lexical : LexicalRow e.tokens
  respects : e.Respects
  action : e.action stod filename = some tree

structure DerivesArg (stod : Stod) (filename : String) (arg : CallArgSyntax) (tree : CallArg) :
    Prop where
  lexical : LexicalRow arg.tokens
  respects : arg.Respects
  action : arg.action stod filename = some tree

structure DerivesArgs (stod : Stod) (filename : String) (args : CallArgList)
    (trees : List CallArg) : Prop where
  lexical : LexicalRow args.tokens
  respects : args.Respects
  action : args.action stod filename = some trees

theorem LexicalRow.append {row row' : List Terminal} (h : LexicalRow row)
    (h' : LexicalRow row') : LexicalRow (row ++ row') :=
  fun t ht => (List.mem_append.mp ht).elim (h t) (h' t)

theorem LexicalRow.cons {t : Terminal} {row : List Terminal} (ht : Lexical t.1)
    (h : LexicalRow row) : LexicalRow (t :: row) :=
  List.forall_mem_cons.mpr ⟨ht, h⟩

theorem LexicalRow.nil : LexicalRow [] := fun _ ht => nomatch ht

/-- Parentheses make an operand of any expression. -/
theorem Derives.exists_operand {e : ExprSyntax} {tree : Expr} (h : Derives stod filename e tree) :
    ∃ e' : ExprSyntax, IsOperand e' ∧ Derives stod filename e' tree := by
  refine ⟨.paren {} e {}, trivial, ?_, h.respects, h.action⟩
  exact .cons trivial (h.lexical.append (.cons trivial .nil))

/-- The arguments one after the other. -/
def CallArgList.ofList : List CallArgSyntax → CallArgList
  | [] => .empty
  | arg :: args => args.foldl (fun args arg => .snoc args {} arg) (.single arg)

theorem DerivesArgs.foldl {args : CallArgList} {trees : List CallArg}
    (h : DerivesArgs stod filename args trees) {more : List CallArgSyntax}
    {moreTrees : List CallArg} (hmore : List.Forall₂ (DerivesArg stod filename) more moreTrees) :
    DerivesArgs stod filename (more.foldl (fun args arg => .snoc args {} arg) args)
      (trees ++ moreTrees) := by
  induction hmore generalizing args trees with
  | nil =>
    rw [List.append_nil]
    exact h
  | @cons arg tree more moreTrees harg _ ih =>
    have hsnoc : DerivesArgs stod filename (.snoc args {} arg) (trees ++ [tree]) := by
      refine ⟨h.lexical.append (.cons trivial harg.lexical), ⟨h.respects, harg.respects⟩, ?_⟩
      simp [CallArgList.action, h.action, harg.action]
    have hrest := ih hsnoc
    rw [List.append_assoc] at hrest
    exact hrest

theorem derivesArgs_ofList {args : List CallArgSyntax} {trees : List CallArg}
    (h : List.Forall₂ (DerivesArg stod filename) args trees) :
    DerivesArgs stod filename (.ofList args) trees := by
  cases h with
  | nil => exact ⟨.nil, trivial, rfl⟩
  | @cons arg tree args trees harg hargs =>
    have hsingle : DerivesArgs stod filename (.single arg) [tree] := by
      refine ⟨harg.lexical, harg.respects, ?_⟩
      simp [CallArgList.action, harg.action]
    exact hsingle.foldl hargs

/-- A derivation of the tree; without an operator at the root it is a `postfix_expr`. -/
def HasDerivation (stod : Stod) (filename : String) (tree : Expr) : Prop :=
  (∃ e, Derives stod filename e tree) ∧
    (IsPostfix tree → ∃ e, Derives stod filename (.postfixExpr e) tree)

theorem HasDerivation.ofPostfixExpr {tree : Expr} {e : PostfixSyntax}
    (h : Derives stod filename (.postfixExpr e) tree) : HasDerivation stod filename tree :=
  ⟨⟨_, h⟩, fun _ => ⟨e, h⟩⟩

theorem HasDerivation.of_primary {tree : Expr} (e : PrimarySyntax) (hrow : LexicalRow e.tokens)
    (haction : e.action stod filename = some tree) : HasDerivation stod filename tree :=
  .ofPostfixExpr (e := .primary e) ⟨hrow, trivial, haction⟩

theorem hasDerivation_literal {info : ExprInfo} {value : Literal} (hinfo : IsLocated filename info)
    (hvalue : IsLiteral stod value) : HasDerivation stod filename (.literal info value) := by
  obtain ⟨span, rfl⟩ := hinfo.exists_span
  cases value with
  | int i =>
    obtain ⟨text, htext, hi⟩ := hvalue
    exact .of_primary (.integer text span) (.cons htext .nil) (by simp [PrimarySyntax.action, hi])
  | float x =>
    obtain ⟨text, htext, hx⟩ := hvalue
    exact .of_primary (.double text span) (.cons htext .nil) (by simp [PrimarySyntax.action, hx])
  | bool b =>
    cases b with
    | true => exact .of_primary (.trueKw span) (.cons trivial .nil) rfl
    | false => exact .of_primary (.falseKw span) (.cons trivial .nil) rfl
  | string value => exact .of_primary (.string value span) (.cons hvalue .nil) rfl

theorem hasDerivation_var {info : ExprInfo} {name : String} (hinfo : IsLocated filename info)
    (hname : name = "this" ∨ IsName name ∨ IsQualifiedName name) :
    HasDerivation stod filename (.var info name) := by
  obtain ⟨span, rfl⟩ := hinfo.exists_span
  obtain rfl | hname | ⟨ns, symbol, hns, hsymbol, rfl⟩ := hname
  · exact .of_primary (.this span) (.cons trivial .nil) rfl
  · exact .of_primary (.identifier ⟨name, span⟩) (.cons hname .nil) rfl
  · exact .of_primary (.qualified ⟨ns, span⟩ {} ⟨symbol, {}⟩)
      (.cons hns (.cons trivial (.cons hsymbol .nil))) rfl

theorem hasDerivation_binary {info : ExprInfo} {sign : BinarySign} {left right : Expr}
    (hinfo : IsLocated filename info) (hleft : HasDerivation stod filename left)
    (hright : HasDerivation stod filename right) :
    HasDerivation stod filename (.binary info sign.op left right) := by
  obtain ⟨span, rfl⟩ := hinfo.exists_span
  obtain ⟨⟨l, hl⟩, -⟩ := hleft
  obtain ⟨⟨r, hr⟩, -⟩ := hright
  obtain ⟨l, hopl, hl⟩ := hl.exists_operand
  obtain ⟨r, hopr, hr⟩ := hr.exists_operand
  refine ⟨⟨.binary l (sign, span) r, hl.lexical.append (.cons ?_ hr.lexical),
    ⟨hl.respects, hr.respects, ?_, ?_⟩, ?_⟩, False.elim⟩
  · cases sign <;> trivial
  · cases l with
    | postfixExpr e => simp [ExprSyntax.toTree, Tree.rightSpine]
    | paren lparen e rparen => simp [ExprSyntax.toTree, Tree.rightSpine]
    | unary sign operand => exact hopl.elim
    | binary left sign right => exact hopl.elim
  · cases r with
    | postfixExpr e => simp [ExprSyntax.toTree, Tree.leftSpine]
    | paren lparen e rparen => simp [ExprSyntax.toTree, Tree.leftSpine]
    | unary sign operand => exact hopr.elim
    | binary left sign right => exact hopr.elim
  · simp [ExprSyntax.action, hl.action, hr.action]

theorem hasDerivation_unary {info : ExprInfo} {sign : UnarySign} {operand : Expr}
    (hinfo : IsLocated filename info) (hoperand : HasDerivation stod filename operand) :
    HasDerivation stod filename (.unary info sign.op operand) := by
  obtain ⟨span, rfl⟩ := hinfo.exists_span
  obtain ⟨⟨e, he⟩, -⟩ := hoperand
  obtain ⟨e, hop, he⟩ := he.exists_operand
  refine ⟨⟨.unary (sign, span) e, .cons ?_ he.lexical, ⟨he.respects, ?_⟩, ?_⟩, False.elim⟩
  · cases sign <;> trivial
  · cases e with
    | postfixExpr e => simp [ExprSyntax.toTree, Tree.leftSpine]
    | paren lparen e rparen => simp [ExprSyntax.toTree, Tree.leftSpine]
    | unary sign operand => exact hop.elim
    | binary left sign right => exact hop.elim
  · simp [ExprSyntax.action, he.action]

theorem hasDerivation_member {info : ExprInfo} {object : Expr} {field : String}
    (hinfo : IsLocated filename info) (hfield : IsName field) (hobjectShape : IsPostfix object)
    (hobject : HasDerivation stod filename object) :
    HasDerivation stod filename (.member info object field) := by
  obtain ⟨span, rfl⟩ := hinfo.exists_span
  obtain ⟨e, he⟩ := hobject.2 hobjectShape
  refine .ofPostfixExpr (e := .member e {} ⟨field, span⟩)
    ⟨he.lexical.append (.cons trivial (.cons hfield .nil)), he.respects, ?_⟩
  have haction : e.action stod filename = some object := he.action
  simp [ExprSyntax.action, PostfixSyntax.action, haction]

theorem hasDerivation_methodCall {info : ExprInfo} {object : Expr} {method : String}
    {args : List Expr} (hinfo : IsLocated filename info) (hmethod : IsName method)
    (hobjectShape : IsPostfix object) (hobject : HasDerivation stod filename object)
    {list : CallArgList} {trees : List CallArg} (hargs : DerivesArgs stod filename list trees)
    (htrees : trees.map Prod.snd = args) :
    HasDerivation stod filename (.methodCall info object method args) := by
  obtain ⟨span, rfl⟩ := hinfo.exists_span
  obtain ⟨e, he⟩ := hobject.2 hobjectShape
  refine .ofPostfixExpr (e := .methodCall e {} ⟨method, span⟩ {} list {})
    ⟨he.lexical.append (.cons trivial (.cons hmethod (.cons trivial
      (hargs.lexical.append (.cons trivial .nil))))), ⟨he.respects, hargs.respects⟩, ?_⟩
  have haction : e.action stod filename = some object := he.action
  simp [ExprSyntax.action, PostfixSyntax.action, haction, hargs.action, htrees]

theorem hasDerivation_index {info : ExprInfo} {object i : Expr} (hinfo : IsLocated filename info)
    (hobjectShape : IsPostfix object) (hobject : HasDerivation stod filename object)
    (hi : HasDerivation stod filename i) :
    HasDerivation stod filename (.index info object i) := by
  obtain ⟨span, rfl⟩ := hinfo.exists_span
  obtain ⟨e, he⟩ := hobject.2 hobjectShape
  obtain ⟨⟨inner, hinner⟩, -⟩ := hi
  refine .ofPostfixExpr (e := .index e span inner {})
    ⟨he.lexical.append (.cons trivial (hinner.lexical.append (.cons trivial .nil))),
      ⟨he.respects, hinner.respects⟩, ?_⟩
  have haction : e.action stod filename = some object := he.action
  simp [ExprSyntax.action, PostfixSyntax.action, haction, hinner.action]

theorem hasDerivation_call {info : ExprInfo} {name : String} (hinfo : IsLocated filename info)
    (hname : IsName name ∨ IsQualifiedName name) {list : CallArgList} {trees : List CallArg}
    (hargs : DerivesArgs stod filename list trees) :
    HasDerivation stod filename (.call info name trees) := by
  obtain ⟨span, rfl⟩ := hinfo.exists_span
  have hrow : LexicalRow ((.lparen, ({} : Span)) :: (list.tokens ++ [(.rparen, ({} : Span))])) :=
    .cons trivial (hargs.lexical.append (.cons trivial .nil))
  obtain hname | ⟨ns, symbol, hns, hsymbol, rfl⟩ := hname
  · refine .ofPostfixExpr (e := .call ⟨name, span⟩ {} list {})
      ⟨.cons hname hrow, hargs.respects, ?_⟩
    simp [ExprSyntax.action, PostfixSyntax.action, hargs.action]
  · refine .ofPostfixExpr (e := .qualifiedCall ⟨ns, span⟩ {} ⟨symbol, {}⟩ {} list {})
      ⟨.cons hns (.cons trivial (.cons hsymbol hrow)), hargs.respects, ?_⟩
    simp [ExprSyntax.action, PostfixSyntax.action, hargs.action]

mutual

theorem hasDerivation : ∀ {tree : Expr}, WellFormed stod filename tree →
    HasDerivation stod filename tree
  | .literal .., h => hasDerivation_literal h.1 h.2
  | .nilLiteral info, h => by
    obtain ⟨span, rfl⟩ := h.exists_span
    exact .of_primary (.nil span) (.cons trivial .nil) rfl
  | .var .., h => hasDerivation_var h.1 h.2
  | .binary .., ⟨hinfo, ⟨sign, hsign⟩, hleft, hright⟩ => by
    subst hsign
    exact hasDerivation_binary hinfo (hasDerivation hleft) (hasDerivation hright)
  | .unary .., ⟨hinfo, ⟨sign, hsign⟩, hoperand⟩ => by
    subst hsign
    exact hasDerivation_unary hinfo (hasDerivation hoperand)
  | .member .., ⟨hinfo, hfield, hobjectShape, hobject⟩ =>
    hasDerivation_member hinfo hfield hobjectShape (hasDerivation hobject)
  | .methodCall .., ⟨hinfo, hmethod, hobjectShape, hobject, hargs⟩ => by
    obtain ⟨list, trees, hlist, htrees⟩ := exists_derivesList hargs
    exact hasDerivation_methodCall hinfo hmethod hobjectShape (hasDerivation hobject)
      (derivesArgs_ofList hlist) htrees
  | .index .., ⟨hinfo, hobjectShape, hobject, hi⟩ =>
    hasDerivation_index hinfo hobjectShape (hasDerivation hobject) (hasDerivation hi)
  | .call .., ⟨hinfo, hname, hargs⟩ => by
    obtain ⟨list, hlist⟩ := exists_derivesArgs hargs
    exact hasDerivation_call hinfo hname (derivesArgs_ofList hlist)

theorem exists_derivesList : ∀ {exprs : List Expr}, WellFormedList stod filename exprs →
    ∃ args trees, List.Forall₂ (DerivesArg stod filename) args trees ∧
      trees.map Prod.snd = exprs
  | [], _ => ⟨[], [], .nil, rfl⟩
  | expr :: exprs, h => by
    obtain ⟨⟨e, he⟩, -⟩ := hasDerivation h.1
    obtain ⟨args, trees, hargs, htrees⟩ := exists_derivesList h.2
    refine ⟨.positional e :: args, (none, expr) :: trees, .cons ?_ hargs, by simp [htrees]⟩
    exact ⟨he.lexical, he.respects, by simp [CallArgSyntax.action, he.action]⟩

theorem exists_derivesArgs : ∀ {trees : List (Option String × Expr)},
    WellFormedArgs stod filename trees →
      ∃ args, List.Forall₂ (DerivesArg stod filename) args trees
  | [], _ => ⟨[], .nil⟩
  | (none, value) :: trees, h => by
    obtain ⟨⟨e, he⟩, -⟩ := hasDerivation h.2.1
    obtain ⟨args, hargs⟩ := exists_derivesArgs h.2.2
    refine ⟨.positional e :: args, .cons ?_ hargs⟩
    exact ⟨he.lexical, he.respects, by simp [CallArgSyntax.action, he.action]⟩
  | (some name, value) :: trees, h => by
    obtain ⟨⟨e, he⟩, -⟩ := hasDerivation h.2.1
    obtain ⟨args, hargs⟩ := exists_derivesArgs h.2.2
    refine ⟨.named ⟨name, {}⟩ {} e :: args, .cons ?_ hargs⟩
    exact ⟨.cons (h.1 name rfl) (.cons trivial he.lexical), he.respects,
      by simp [CallArgSyntax.action, he.action]⟩

end

end Derivations

/-- The trees that a row of the lexer's tokens is parsed to are the well formed ones. -/
theorem exists_parseExpr_iff (stod : Stod) (filename : String) (tree : Expr) :
    (∃ row, LexicalRow row ∧ parseExpr stod filename row = some tree) ↔
      WellFormed stod filename tree := by
  constructor
  · rintro ⟨row, hrow, h⟩
    obtain ⟨e, hread, haction⟩ := Option.bind_eq_some_iff.mp h
    obtain ⟨rfl, -⟩ := readExpr_eq_some.mp hread
    exact e.action_wellFormed hrow haction
  · intro h
    obtain ⟨⟨e, he⟩, -⟩ := hasDerivation h
    refine ⟨e.tokens, he.lexical, ?_⟩
    rw [parseExpr, readExpr_eq_some.mpr ⟨rfl, he.respects⟩]
    exact he.action

end FalconLib.Parser.Expressions
