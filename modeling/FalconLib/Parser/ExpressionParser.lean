import FalconLib.Parser.ExpressionGrammar

/-!
# The parser of expressions

It shifts and reduces the operators of `expr` as the precedences say, and reads what stands between
them from the left. A row of tokens that has a derivation is read, as the one derivation that
respects the precedences.
-/

namespace FalconLib.Parser.Expressions

open FalconLib.Base.Precedence
open FalconLib.Parser.Lexer (Token)

/-! ## Terminals -/

/-- The token, if it is next. -/
def take (token : Token) : List Terminal → Option (Span × List Terminal)
  | [] => none
  | t :: rest => if t.1 = token then some (t.2, rest) else none

def takeIdentifier : List Terminal → Option (Identifier × List Terminal)
  | [] => none
  | t :: rest =>
    match t.1 with
    | .identifier name => some (⟨name, t.2⟩, rest)
    | _ => none


def literal? : Terminal → Option PrimarySyntax
  | (.integer text, span) => some (.integer text span)
  | (.double text, span) => some (.double text span)
  | (.string value, span) => some (.string value span)
  | (.trueKw, span) => some (.trueKw span)
  | (.falseKw, span) => some (.falseKw span)
  | (.nil, span) => some (.nil span)
  | (.this, span) => some (.this span)
  | _ => none

/-!
## What stands between operators

`expr` reads the expressions inside.
-/

section Operands

variable (expr : List Terminal → Option (ExprSyntax × List Terminal))

/-- `call_arg` -/
def callArg (input : List Terminal) : Option (CallArgSyntax × List Terminal) :=
  let positional := (expr input).map fun (value, rest) => (.positional value, rest)
  match takeIdentifier input with
  | some (name, rest) =>
    match take .assign rest with
    | some (assign, rest) => (expr rest).map fun (value, rest) => (.named name assign value, rest)
    | none => positional
  | none => positional

/-- The arguments behind those of a `call_arg_list` that is read. -/
def moreArgs : Nat → CallArgList → List Terminal → Option (CallArgList × List Terminal)
  | 0, _, _ => none
  | fuel + 1, args, input =>
    match take .comma input with
    | some (comma, rest) => do
      let (arg, rest) ← callArg expr rest
      moreArgs fuel (.snoc args comma arg) rest
    | none => some (args, input)

/-- `call_arg_list`, which is empty before a comma or a closing parenthesis. -/
def callArgsAt (fuel : Nat) (input : List Terminal) : Option (CallArgList × List Terminal) :=
  if (take .comma input).isSome || (take .rparen input).isSome then
    moreArgs expr fuel .empty input
  else do
    let (arg, rest) ← callArg expr input
    moreArgs expr fuel (.single arg) rest

def callArgs (input : List Terminal) : Option (CallArgList × List Terminal) :=
  callArgsAt expr (input.length + 1) input

/-- The arguments of a call, if a parenthesis opens. -/
def parenthesized (input : List Terminal) :
    Option (Option (Span × CallArgList × Span) × List Terminal) :=
  match take .lparen input with
  | some (lparen, rest) => do
    let (args, rest) ← callArgs expr rest
    let (rparen, rest) ← take .rparen rest
    pure (some (lparen, args, rparen), rest)
  | none => some (none, input)

/-- The `postfix_expr` that begin with one that is read. -/
def suffixes : Nat → PostfixSyntax → List Terminal → Option (PostfixSyntax × List Terminal)
  | 0, _, _ => none
  | fuel + 1, object, input =>
    match take .dot input with
    | some (dot, rest) => do
      let (name, rest) ← takeIdentifier rest
      match ← parenthesized expr rest with
      | (some (lparen, args, rparen), rest) =>
        suffixes fuel (.methodCall object dot name lparen args rparen) rest
      | (none, rest) => suffixes fuel (.member object dot name) rest
    | none =>
      match take .lbracket input with
      | some (lbracket, rest) => do
        let (index, rest) ← expr rest
        let (rbracket, rest) ← take .rbracket rest
        suffixes fuel (.index object lbracket index rbracket) rest
      | none => some (object, input)

/-- A `postfix_expr` that begins with a name. -/
def named (name : Identifier) (input : List Terminal) :
    Option (PostfixSyntax × List Terminal) :=
  match take .coloncolon input with
  | some (colons, rest) => do
    let (symbol, rest) ← takeIdentifier rest
    match ← parenthesized expr rest with
    | (some (lparen, args, rparen), rest) =>
      pure (.qualifiedCall name colons symbol lparen args rparen, rest)
    | (none, rest) => pure (.primary (.qualified name colons symbol), rest)
  | none => do
    match ← parenthesized expr input with
    | (some (lparen, args, rparen), rest) => pure (.call name lparen args rparen, rest)
    | (none, rest) => pure (.primary (.identifier name), rest)

/-- The first symbols of a `postfix_expr`. -/
def base (input : List Terminal) : Option (PostfixSyntax × List Terminal) :=
  match takeIdentifier input with
  | some (name, rest) => named expr name rest
  | none => do
    let e ← input.head?.bind literal?
    pure (.primary e, input.tail)

def postfixAt (fuel : Nat) (input : List Terminal) : Option (PostfixSyntax × List Terminal) := do
  let (object, rest) ← base expr input
  suffixes expr fuel object rest

def operand (input : List Terminal) : Option (ExprSyntax × List Terminal) :=
  match take .lparen input with
  | some (lparen, rest) => do
    let (e, rest) ← expr rest
    let (rparen, rest) ← take .rparen rest
    pure (.paren lparen e rparen, rest)
  | none => (postfixAt expr (input.length + 1) input).map fun (e, rest) => (.postfixExpr e, rest)

end Operands

/-! ## Expressions -/

/-- `expr`, with parentheses and brackets nested less deep than `fuel`. -/
def exprAt : Nat → List Terminal → Option (ExprSyntax × List Terminal)
  | 0, _ => none
  | fuel + 1, input =>
    (parse table (operand (exprAt fuel)) input).map fun (tree, rest) => (ofTree tree, rest)

/-- An expression at the front of a row. -/
def expression (input : List Terminal) : Option (ExprSyntax × List Terminal) :=
  exprAt (input.length + 1) input

/-- A row that is an expression. -/
def readExpr (row : List Terminal) : Option ExprSyntax :=
  match expression row with
  | some (e, []) => some e
  | _ => none

/-! ## Reading terminals -/

@[simp] theorem take_cons (token : Token) (span : Span) (rest : List Terminal) :
    take token ((token, span) :: rest) = some (span, rest) := by
  simp [take]

theorem take_eq_some {token : Token} {span : Span} {input rest : List Terminal}
    (h : take token input = some (span, rest)) : input = (token, span) :: rest := by
  cases input with
  | nil => cases h
  | cons t tail =>
    simp only [take, Option.ite_none_right_eq_some, Option.some.injEq, Prod.mk.injEq] at h
    obtain ⟨rfl, rfl, rfl⟩ := h
    rfl

theorem take_eq_none {token : Token} {input : List Terminal}
    (h : ∀ t ∈ input.head?, t.1 ≠ token) : take token input = none := by
  cases input with
  | nil => rfl
  | cons t tail => exact if_neg (h t rfl)

@[simp] theorem takeIdentifier_terminal (name : Identifier) (rest : List Terminal) :
    takeIdentifier (name.terminal :: rest) = some (name, rest) := rfl

theorem takeIdentifier_eq_some {name : Identifier} {input rest : List Terminal}
    (h : takeIdentifier input = some (name, rest)) : input = name.terminal :: rest := by
  cases input with
  | nil => cases h
  | cons t tail =>
    obtain ⟨token, span⟩ := t
    unfold takeIdentifier at h
    dsimp only at h
    split at h
    · cases h
      rfl
    · cases h

theorem literal?_eq_some {t : Terminal} {e : PrimarySyntax} (h : literal? t = some e) :
    e.tokens = [t] := by
  unfold literal? at h
  split at h <;> cases h <;> rfl

/-! ## What is read is a derivation -/

section Soundness

/-- What is read has the tokens that are gone, and respects the precedences. -/
def Sound (expr : List Terminal → Option (ExprSyntax × List Terminal)) : Prop :=
  ∀ input e rest, expr input = some (e, rest) → input = e.tokens ++ rest ∧ e.Respects

variable {expr : List Terminal → Option (ExprSyntax × List Terminal)} {input rest : List Terminal}

theorem callArg_sound (hexpr : Sound expr) {arg : CallArgSyntax}
    (h : callArg expr input = some (arg, rest)) : input = arg.tokens ++ rest ∧ arg.Respects := by
  have hpositional : (expr input).map (fun x => (CallArgSyntax.positional x.1, x.2)) =
      some (arg, rest) → input = arg.tokens ++ rest ∧ arg.Respects := by
    intro h
    obtain ⟨⟨value, after⟩, hvalue, heq⟩ := Option.map_eq_some_iff.mp h
    cases heq
    exact hexpr _ _ _ hvalue
  unfold callArg at h
  dsimp only at h
  split at h
  · rename_i name after hname
    obtain rfl := takeIdentifier_eq_some hname
    split at h
    · rename_i assign after' hassign
      obtain rfl := take_eq_some hassign
      obtain ⟨⟨value, after⟩, hvalue, heq⟩ := Option.map_eq_some_iff.mp h
      cases heq
      obtain ⟨rfl, hrespects⟩ := hexpr _ _ _ hvalue
      exact ⟨rfl, hrespects⟩
    · exact hpositional h
  · exact hpositional h

theorem moreArgs_sound (hexpr : Sound expr) {fuel : Nat} {args args' : CallArgList}
    (hargs : args.Respects) (h : moreArgs expr fuel args input = some (args', rest)) :
    args.tokens ++ input = args'.tokens ++ rest ∧ args'.Respects := by
  induction fuel generalizing args input with
  | zero => cases h
  | succ fuel ih =>
    unfold moreArgs at h
    split at h
    · rename_i comma after hcomma
      obtain rfl := take_eq_some hcomma
      replace h := Option.bind_eq_some_iff.mp h
      obtain ⟨⟨arg, after'⟩, harg, h⟩ := h
      obtain ⟨rfl, hrespects⟩ := callArg_sound hexpr harg
      have hsnoc : (CallArgList.snoc args comma arg).Respects := ⟨hargs, hrespects⟩
      obtain ⟨htokens, hargs'⟩ := ih hsnoc h
      refine ⟨?_, hargs'⟩
      rw [← htokens, CallArgList.tokens]
      simp
    · cases h
      exact ⟨rfl, hargs⟩

theorem callArgs_sound (hexpr : Sound expr) {args : CallArgList}
    (h : callArgs expr input = some (args, rest)) : input = args.tokens ++ rest ∧ args.Respects := by
  unfold callArgs callArgsAt at h
  split_ifs at h with hempty
  · have hargs : CallArgList.empty.Respects := trivial
    exact moreArgs_sound hexpr hargs h
  · replace h := Option.bind_eq_some_iff.mp h
    obtain ⟨⟨arg, after⟩, harg, h⟩ := h
    obtain ⟨rfl, hrespects⟩ := callArg_sound hexpr harg
    have hargs : (CallArgList.single arg).Respects := hrespects
    exact moreArgs_sound hexpr hargs h

/-- The tokens of the arguments with their parentheses. -/
def parenthesizedTokens : Option (Span × CallArgList × Span) → List Terminal
  | some (lparen, args, rparen) => (.lparen, lparen) :: (args.tokens ++ [(.rparen, rparen)])
  | none => []

theorem parenthesized_sound (hexpr : Sound expr) {found : Option (Span × CallArgList × Span)}
    (h : parenthesized expr input = some (found, rest)) :
    input = parenthesizedTokens found ++ rest ∧ ∀ x ∈ found, x.2.1.Respects := by
  unfold parenthesized at h
  split at h
  · rename_i lparen after hlparen
    obtain rfl := take_eq_some hlparen
    replace h := Option.bind_eq_some_iff.mp h
    obtain ⟨⟨args, after'⟩, hargs, h⟩ := h
    obtain ⟨rfl, hrespects⟩ := callArgs_sound hexpr hargs
    replace h := Option.bind_eq_some_iff.mp h
    obtain ⟨⟨rparen, after⟩, hrparen, h⟩ := h
    obtain rfl := take_eq_some hrparen
    cases h
    refine ⟨by simp [parenthesizedTokens], fun x hx => ?_⟩
    cases hx
    exact hrespects
  · cases h
    exact ⟨rfl, fun _ hx => nomatch hx⟩

theorem suffixes_sound (hexpr : Sound expr) {fuel : Nat} {object e : PostfixSyntax}
    (hobject : object.Respects) (h : suffixes expr fuel object input = some (e, rest)) :
    object.tokens ++ input = e.tokens ++ rest ∧ e.Respects := by
  induction fuel generalizing object input with
  | zero => cases h
  | succ fuel ih =>
    unfold suffixes at h
    split at h
    · rename_i dot after hdot
      obtain rfl := take_eq_some hdot
      replace h := Option.bind_eq_some_iff.mp h
      obtain ⟨⟨name, after'⟩, hname, h⟩ := h
      obtain rfl := takeIdentifier_eq_some hname
      replace h := Option.bind_eq_some_iff.mp h
      obtain ⟨⟨found, after⟩, hfound, h⟩ := h
      obtain ⟨rfl, hrespects⟩ := parenthesized_sound hexpr hfound
      cases found with
      | some found =>
        obtain ⟨lparen, args, rparen⟩ := found
        have hcall : (PostfixSyntax.methodCall object dot name lparen args rparen).Respects :=
          ⟨hobject, hrespects _ rfl⟩
        obtain ⟨htokens, he⟩ := ih hcall h
        refine ⟨?_, he⟩
        rw [← htokens, PostfixSyntax.tokens]
        simp [parenthesizedTokens]
      | none =>
        have hmember : (PostfixSyntax.member object dot name).Respects := hobject
        obtain ⟨htokens, he⟩ := ih hmember h
        refine ⟨?_, he⟩
        rw [← htokens, PostfixSyntax.tokens]
        simp [parenthesizedTokens]
    · split at h
      · rename_i lbracket after hlbracket
        obtain rfl := take_eq_some hlbracket
        replace h := Option.bind_eq_some_iff.mp h
        obtain ⟨⟨index, after'⟩, hindex, h⟩ := h
        obtain ⟨rfl, hrespects⟩ := hexpr _ _ _ hindex
        replace h := Option.bind_eq_some_iff.mp h
        obtain ⟨⟨rbracket, after⟩, hrbracket, h⟩ := h
        obtain rfl := take_eq_some hrbracket
        have hindexed : (PostfixSyntax.index object lbracket index rbracket).Respects :=
          ⟨hobject, hrespects⟩
        obtain ⟨htokens, he⟩ := ih hindexed h
        refine ⟨?_, he⟩
        rw [← htokens, PostfixSyntax.tokens]
        simp
      · cases h
        exact ⟨rfl, hobject⟩

theorem named_sound (hexpr : Sound expr) {name : Identifier} {e : PostfixSyntax}
    (h : named expr name input = some (e, rest)) :
    name.terminal :: input = e.tokens ++ rest ∧ e.Respects := by
  unfold named at h
  split at h
  · rename_i colons after hcolons
    obtain rfl := take_eq_some hcolons
    replace h := Option.bind_eq_some_iff.mp h
    obtain ⟨⟨symbol, after'⟩, hsymbol, h⟩ := h
    obtain rfl := takeIdentifier_eq_some hsymbol
    replace h := Option.bind_eq_some_iff.mp h
    obtain ⟨⟨found, after⟩, hfound, h⟩ := h
    obtain ⟨rfl, hrespects⟩ := parenthesized_sound hexpr hfound
    cases found with
    | some found =>
      cases h
      exact ⟨by simp [parenthesizedTokens, PostfixSyntax.tokens], hrespects _ rfl⟩
    | none =>
      cases h
      exact ⟨rfl, trivial⟩
  · replace h := Option.bind_eq_some_iff.mp h
    obtain ⟨⟨found, after⟩, hfound, h⟩ := h
    obtain ⟨rfl, hrespects⟩ := parenthesized_sound hexpr hfound
    cases found with
    | some found =>
      cases h
      exact ⟨by simp [parenthesizedTokens, PostfixSyntax.tokens], hrespects _ rfl⟩
    | none =>
      cases h
      exact ⟨rfl, trivial⟩

theorem base_sound (hexpr : Sound expr) {e : PostfixSyntax} (h : base expr input = some (e, rest)) :
    input = e.tokens ++ rest ∧ e.Respects := by
  unfold base at h
  split at h
  · rename_i name after hname
    obtain rfl := takeIdentifier_eq_some hname
    exact named_sound hexpr h
  · replace h := Option.bind_eq_some_iff.mp h
    obtain ⟨literal, hliteral, h⟩ := h
    obtain ⟨t, tail, rfl, ht⟩ := eq_cons_of_head? hliteral
    cases h
    rw [PostfixSyntax.tokens, literal?_eq_some ht]
    exact ⟨rfl, trivial⟩

theorem operand_sound (hexpr : Sound expr) (input : List Terminal) (e : ExprSyntax)
    (rest : List Terminal) (h : operand expr input = some (e, rest)) :
    input = e.tokens ++ rest ∧ e.Respects ∧ IsOperand e := by
  unfold operand at h
  split at h
  · rename_i lparen after hlparen
    obtain rfl := take_eq_some hlparen
    replace h := Option.bind_eq_some_iff.mp h
    obtain ⟨⟨inner, after'⟩, hinner, h⟩ := h
    obtain ⟨rfl, hrespects⟩ := hexpr _ _ _ hinner
    replace h := Option.bind_eq_some_iff.mp h
    obtain ⟨⟨rparen, after⟩, hrparen, h⟩ := h
    obtain rfl := take_eq_some hrparen
    cases h
    exact ⟨by simp [ExprSyntax.tokens], hrespects, trivial⟩
  · obtain ⟨⟨found, after⟩, hfound, heq⟩ := Option.map_eq_some_iff.mp h
    cases heq
    obtain ⟨⟨object, after'⟩, hobject, hsuffixes⟩ := Option.bind_eq_some_iff.mp hfound
    obtain ⟨rfl, hrespects⟩ := base_sound hexpr hobject
    obtain ⟨htokens, he⟩ := suffixes_sound hexpr hrespects hsuffixes
    exact ⟨htokens, he, trivial⟩

/-- Respects, with nothing but operands for leaves. -/
theorem respects_ofTree {tree : Tree ExprSyntax LocatedUnary LocatedBinary}
    (h : tree.Conforms table fun e => e.Respects ∧ IsOperand e) : (ofTree tree).Respects := by
  have hoperand : tree.Forall IsOperand := h.forall.mono fun _ he => he.2
  rw [respects_iff, toTree_ofTree hoperand]
  exact h.of_forall (h.forall.mono fun _ he => he.1)

theorem tokens_ofTree {tree : Tree ExprSyntax LocatedUnary LocatedBinary}
    (h : tree.Forall IsOperand) :
    (ofTree tree).tokens = tree.tokens table ExprSyntax.tokens := by
  rw [← tokens_toTree, toTree_ofTree h]

theorem exprAt_sound (fuel : Nat) : Sound (exprAt fuel) := by
  induction fuel with
  | zero =>
    intro input e rest h
    cases h
  | succ fuel ih =>
    intro input e rest h
    obtain ⟨⟨tree, after⟩, htree, heq⟩ := Option.map_eq_some_iff.mp h
    cases heq
    obtain ⟨hconforms, -, rfl⟩ := parse_sound (operand_sound ih) htree
    rw [tokens_ofTree (hconforms.forall.mono fun _ he => he.2)]
    exact ⟨rfl, respects_ofTree hconforms⟩

end Soundness

end FalconLib.Parser.Expressions
