import FalconLib.Parser.ExpressionParser

/-!
# Rows that are expressions

A row with a derivation has exactly one that respects the precedences, and that is what the parser
reads. So the `%left` and `%right` lines refuse no row, and leave no row two trees.
-/

namespace FalconLib.Parser.Expressions

open FalconLib.Base.Precedence
open FalconLib.Parser.Lexer (Token)

/-! ## First tokens -/

/-- The first token is none of these, and the second is not `=`. -/
def Leads (bad : List Token) : List Terminal → Prop
  | [] => False
  | t :: tail => t.1 ∉ bad ∧ ∀ x ∈ tail.head?, x.1 ≠ .assign

theorem Leads.append {bad : List Token} {row : List Terminal} (h : Leads bad row)
    (more : List Terminal) (hmore : ∀ x ∈ more.head?, x.1 ≠ .assign) : Leads bad (row ++ more) := by
  cases row with
  | nil => exact h.elim
  | cons t tail =>
    refine ⟨h.1, ?_⟩
    cases tail with
    | nil => exact hmore
    | cons t' tail => exact h.2

theorem Leads.head? {bad : List Token} {row : List Terminal} (h : Leads bad row) :
    ∀ t ∈ row.head?, t.1 ∉ bad := by
  cases row with
  | nil => exact h.elim
  | cons t tail =>
    intro t' ht
    cases ht
    exact h.1

theorem Leads.mono {bad bad' : List Token} {row : List Terminal} (h : Leads bad row)
    (hsub : ∀ t ∈ bad', t ∈ bad) : Leads bad' row := by
  cases row with
  | nil => exact h.elim
  | cons t tail => exact ⟨fun ht => h.1 (hsub _ ht), h.2⟩

/-- What no operand begins with, parentheses apart. -/
def notFirst : List Token := [.lparen, .rparen, .comma, .assign, .not, .minus]

theorem PrimarySyntax.leads (e : PrimarySyntax) : Leads notFirst e.tokens := by
  cases e <;> simp [Leads, PrimarySyntax.tokens, notFirst, Identifier.terminal]

theorem PostfixSyntax.leads : ∀ e : PostfixSyntax, Leads notFirst e.tokens
  | .primary e => e.leads
  | .member object dot field => object.leads.append _ (by simp)
  | .methodCall object dot method lparen args rparen => object.leads.append _ (by simp)
  | .index object lbracket _ rbracket => object.leads.append _ (by simp)
  | .call name lparen args rparen => by
    simp [Leads, PostfixSyntax.tokens, notFirst, Identifier.terminal]
  | .qualifiedCall ns colons symbol lparen args rparen => by
    simp [Leads, PostfixSyntax.tokens, notFirst, Identifier.terminal]

theorem UnarySign.token_not_mem (sign : UnarySign) :
    sign.token ∉ [Token.rparen, .comma, .assign] := by
  cases sign <;> decide

theorem BinarySign.token_not_mem (sign : BinarySign) :
    sign.token ∉ [Token.dot, .lbracket, .lparen, .coloncolon, .assign] := by
  cases sign <;> decide

theorem ExprSyntax.leads : ∀ e : ExprSyntax, Leads [.rparen, .comma, .assign] e.tokens
  | .postfixExpr e => e.leads.mono (by decide)
  | .unary (sign, span) operand => by
    refine ⟨sign.token_not_mem, fun x hx => ?_⟩
    have hne := operand.leads.head? x hx
    simp at hne
    exact hne.2.2
  | .binary left (sign, span) right => by
    refine left.leads.append _ fun x hx heq => ?_
    cases hx
    exact sign.token_not_mem (by simp [show sign.token = .assign from heq])
  | .paren lparen e rparen => by
    refine ⟨by simp, fun x hx => ?_⟩
    have hne := (e.leads.append [(.rparen, rparen)] (by simp)).head? x hx
    simp at hne
    exact hne.2.2

/-! ## What may follow -/

/-- What follows an operand does not go on with it. -/
def Stops (rest : List Terminal) : Prop :=
  ∀ t ∈ rest.head?, t.1 ∉ [Token.dot, .lbracket, .lparen, .coloncolon, .assign]

/-- What follows an expression does not go on with it: a semicolon, a comma, a closing parenthesis
or bracket, or any other token that is in none of its rules. -/
def Ends (rest : List Terminal) : Prop := Stops rest ∧ rest.head?.bind table.binary? = none

theorem stops_binary (sign : LocatedBinary) (rest : List Terminal) :
    Stops (table.binaryToken sign :: rest) := by
  obtain ⟨sign, span⟩ := sign
  intro t ht
  cases ht
  exact sign.token_not_mem

theorem ends_rparen (span : Span) (rest : List Terminal) : Ends ((.rparen, span) :: rest) :=
  ⟨by simp [Stops], rfl⟩

theorem ends_rbracket (span : Span) (rest : List Terminal) : Ends ((.rbracket, span) :: rest) :=
  ⟨by simp [Stops], rfl⟩

theorem ends_comma (span : Span) (rest : List Terminal) : Ends ((.comma, span) :: rest) :=
  ⟨by simp [Stops], rfl⟩

theorem Stops.take {rest : List Terminal} (h : Stops rest) {token : Token}
    (htoken : token ∈ [Token.dot, .lbracket, .lparen, .coloncolon, .assign]) :
    take token rest = none :=
  take_eq_none fun t ht heq => h t ht (heq ▸ htoken)

/-! ## Derivations that respect the precedences are read -/

section Completeness

/-- The expressions with less than so many tokens are read. -/
def ReadsBelow (expr : List Terminal → Option (ExprSyntax × List Terminal)) (bound : Nat) : Prop :=
  ∀ (e : ExprSyntax) rest, e.Respects → e.tokens.length < bound → Ends rest →
    expr (e.tokens ++ rest) = some (e, rest)

variable {expr : List Terminal → Option (ExprSyntax × List Terminal)} {bound : Nat}

theorem callArg_tokens (hexpr : ReadsBelow expr bound) {arg : CallArgSyntax}
    (harg : arg.Respects) (hlength : arg.tokens.length < bound) {rest : List Terminal}
    (hrest : Ends rest) : callArg expr (arg.tokens ++ rest) = some (arg, rest) := by
  cases arg with
  | named name assign value =>
    have hvalue := hexpr value rest harg (by simp [CallArgSyntax.tokens] at hlength; omega) hrest
    simp [callArg, CallArgSyntax.tokens, hvalue]
  | positional value =>
    have hvalue := hexpr value rest harg hlength hrest
    have hleads := value.leads.append rest fun t ht heq => hrest.1 t ht (by simp [heq])
    have hpositional : (expr (value.tokens ++ rest)).map
        (fun x => (CallArgSyntax.positional x.1, x.2)) = some (.positional value, rest) := by
      rw [hvalue]
      rfl
    rw [CallArgSyntax.tokens, callArg]
    dsimp only
    split
    · rename_i name after hname
      rw [takeIdentifier_eq_some hname] at hleads
      rw [take_eq_none hleads.2]
      exact hpositional
    · exact hpositional

/-- How many arguments are read behind the first. -/
def CallArgList.more : CallArgList → Nat
  | .empty | .single _ => 0
  | .snoc args _ _ => args.more + 1

theorem CallArgList.more_le : ∀ args : CallArgList, args.more ≤ args.tokens.length
  | .empty | .single _ => Nat.zero_le _
  | .snoc args _ arg => by
    have h := args.more_le
    simp only [more, tokens, List.length_append, List.length_cons]
    omega

/-- Arguments go on with a comma or end with a parenthesis. -/
def ArgsFollow (rest : List Terminal) : Prop :=
  ∃ span tail, rest = (.comma, span) :: tail ∨ rest = (.rparen, span) :: tail

theorem ArgsFollow.ends {rest : List Terminal} (h : ArgsFollow rest) : Ends rest := by
  obtain ⟨span, tail, rfl | rfl⟩ := h
  · exact ends_comma span tail
  · exact ends_rparen span tail

theorem callArgsAt_tokens (hexpr : ReadsBelow expr bound) :
    ∀ {args : CallArgList}, args.Respects → args.tokens.length < bound →
      ∀ {rest : List Terminal}, ArgsFollow rest → ∀ fuel,
        callArgsAt expr (args.more + (fuel + 1)) (args.tokens ++ rest) =
          moreArgs expr (fuel + 1) args rest
  | .empty, _, _, rest, hrest, fuel => by
    obtain ⟨span, tail, rfl | rfl⟩ := hrest <;>
      simp [callArgsAt, CallArgList.tokens, CallArgList.more]
  | .single arg, hargs, hlength, rest, hrest, fuel => by
    have hrespects : arg.Respects := hargs
    have harg := callArg_tokens hexpr hrespects hlength hrest.ends
    have hleads : ∀ t ∈ (arg.tokens ++ rest).head?, t.1 ∉ [Token.rparen, .comma] := by
      cases arg with
      | named name assign value =>
        intro t ht
        cases ht
        simp [Identifier.terminal]
      | positional value =>
        have hleads := value.leads.append rest fun t ht heq => hrest.ends.1 t ht (by simp [heq])
        exact (hleads.mono (by decide)).head?
    have hcomma : take .comma (arg.tokens ++ rest) = none :=
      take_eq_none fun t ht heq => hleads t ht (by simp [heq])
    have hrparen : take .rparen (arg.tokens ++ rest) = none :=
      take_eq_none fun t ht heq => hleads t ht (by simp [heq])
    simp [callArgsAt, CallArgList.tokens, CallArgList.more, hcomma, hrparen, harg]
  | .snoc args comma arg, hargs, hlength, rest, hrest, fuel => by
    have hlength' : args.tokens.length + (arg.tokens.length + 1) < bound := by
      simpa [CallArgList.tokens] using hlength
    have harg := callArg_tokens hexpr hargs.2 (by omega) hrest.ends
    have hfollow : ArgsFollow ((.comma, comma) :: (arg.tokens ++ rest)) := ⟨comma, _, .inl rfl⟩
    have hprev := callArgsAt_tokens hexpr hargs.1 (by omega) hfollow (fuel + 1)
    have hfuel : (CallArgList.snoc args comma arg).more + (fuel + 1) =
        args.more + (fuel + 1 + 1) := by
      rw [CallArgList.more]
      omega
    rw [hfuel, CallArgList.tokens, List.append_assoc, List.cons_append, hprev, moreArgs]
    simp [harg]

theorem callArgs_tokens (hexpr : ReadsBelow expr bound) {args : CallArgList}
    (hargs : args.Respects) (hlength : args.tokens.length < bound) (span : Span)
    (rest : List Terminal) :
    callArgs expr (args.tokens ++ (.rparen, span) :: rest) =
      some (args, (.rparen, span) :: rest) := by
  have hmore := args.more_le
  obtain ⟨fuel, hfuel⟩ : ∃ fuel, (args.tokens ++ (.rparen, span) :: rest).length + 1 =
      args.more + (fuel + 1) := by
    refine ⟨(args.tokens ++ (.rparen, span) :: rest).length - args.more, ?_⟩
    rw [List.length_append]
    omega
  rw [callArgs, hfuel, callArgsAt_tokens hexpr hargs hlength ⟨span, rest, .inr rfl⟩]
  simp [moreArgs, take]

theorem parenthesized_tokens (hexpr : ReadsBelow expr bound) {args : CallArgList}
    (hargs : args.Respects) (hlength : args.tokens.length < bound) (lparen rparen : Span)
    (rest : List Terminal) :
    parenthesized expr ((.lparen, lparen) :: (args.tokens ++ (.rparen, rparen) :: rest)) =
      some (some (lparen, args, rparen), rest) := by
  simp [parenthesized, callArgs_tokens hexpr hargs hlength]

theorem parenthesized_none {rest : List Terminal} (h : ∀ t ∈ rest.head?, t.1 ≠ .lparen) :
    parenthesized expr rest = some (none, rest) := by
  simp [parenthesized, take_eq_none h]

/-- How many members, calls and indices are read behind the first symbols. -/
def PostfixSyntax.suffixes : PostfixSyntax → Nat
  | .primary _ | .call .. | .qualifiedCall .. => 0
  | .member object .. | .methodCall object .. | .index object .. => object.suffixes + 1

theorem PostfixSyntax.suffixes_le : ∀ e : PostfixSyntax, e.suffixes ≤ e.tokens.length
  | .primary _ | .call .. | .qualifiedCall .. => Nat.zero_le _
  | .member object .. | .methodCall object .. | .index object .. => by
    have h := object.suffixes_le
    simp only [suffixes, tokens, List.length_append, List.length_cons]
    omega

theorem base_primary {e : PrimarySyntax} {rest : List Terminal}
    (hrest : ∀ t ∈ rest.head?, t.1 ∉ [Token.lparen, .coloncolon]) :
    base expr (e.tokens ++ rest) = some (.primary e, rest) := by
  have hlparen : ∀ t ∈ rest.head?, t.1 ≠ .lparen := fun t ht heq => hrest t ht (by simp [heq])
  have hcolons : ∀ t ∈ rest.head?, t.1 ≠ .coloncolon := fun t ht heq => hrest t ht (by simp [heq])
  cases e with
  | identifier name =>
    simp [base, PrimarySyntax.tokens, named, take_eq_none hcolons, parenthesized_none hlparen]
  | qualified ns colons symbol =>
    simp [base, PrimarySyntax.tokens, named, parenthesized_none hlparen]
  | _ => rfl

/-- A `postfix_expr` is read up to its last symbol, whatever may then be read on. -/
theorem postfixAt_tokens (hexpr : ReadsBelow expr bound) :
    ∀ {e : PostfixSyntax}, e.Respects → e.tokens.length ≤ bound →
      ∀ {rest : List Terminal}, (∀ t ∈ rest.head?, t.1 ∉ [Token.lparen, .coloncolon]) → ∀ fuel,
        postfixAt expr (e.suffixes + (fuel + 1)) (e.tokens ++ rest) =
          suffixes expr (fuel + 1) e rest
  | .primary e, _, _, rest, hrest, fuel => by
    simp [postfixAt, PostfixSyntax.tokens, PostfixSyntax.suffixes, base_primary hrest]
  | .call name lparen args rparen, hargs, hlength, rest, hrest, fuel => by
    have hlength' : args.tokens.length < bound := by
      simp [PostfixSyntax.tokens] at hlength
      omega
    have hargs' := parenthesized_tokens hexpr hargs hlength' lparen rparen rest
    simp [postfixAt, PostfixSyntax.tokens, PostfixSyntax.suffixes, base, named, take, hargs']
  | .qualifiedCall ns colons symbol lparen args rparen, hargs, hlength, rest, hrest, fuel => by
    have hlength' : args.tokens.length < bound := by
      simp [PostfixSyntax.tokens] at hlength
      omega
    have hargs' := parenthesized_tokens hexpr hargs hlength' lparen rparen rest
    simp [postfixAt, PostfixSyntax.tokens, PostfixSyntax.suffixes, base, named, hargs']
  | .member object dot field, he, hlength, rest, hrest, fuel => by
    have hobject : object.Respects := he
    have hfirst : ∀ t ∈ ((Token.dot, dot) :: field.terminal :: rest).head?,
        t.1 ∉ [Token.lparen, .coloncolon] := by simp
    have hprev := postfixAt_tokens hexpr hobject
      (by simp [PostfixSyntax.tokens] at hlength; omega) hfirst (fuel + 1)
    have hfuel : (PostfixSyntax.member object dot field).suffixes + (fuel + 1) =
        object.suffixes + (fuel + 1 + 1) := by
      rw [PostfixSyntax.suffixes]
      omega
    have hnone : parenthesized expr rest = some (none, rest) :=
      parenthesized_none fun t ht heq => hrest t ht (by simp [heq])
    rw [hfuel, PostfixSyntax.tokens, List.append_assoc, List.cons_append, List.cons_append,
      List.nil_append, hprev, suffixes]
    simp [hnone]
  | .methodCall object dot method lparen args rparen, he, hlength, rest, hrest, fuel => by
    have hlength' : args.tokens.length < bound := by
      simp [PostfixSyntax.tokens] at hlength
      omega
    have hfirst : ∀ t ∈ ((Token.dot, dot) :: method.terminal :: (.lparen, lparen) ::
        (args.tokens ++ (.rparen, rparen) :: rest)).head?, t.1 ∉ [Token.lparen, .coloncolon] := by
      simp
    have hprev := postfixAt_tokens hexpr he.1
      (by simp [PostfixSyntax.tokens] at hlength; omega) hfirst (fuel + 1)
    have hfuel : (PostfixSyntax.methodCall object dot method lparen args rparen).suffixes +
        (fuel + 1) = object.suffixes + (fuel + 1 + 1) := by
      rw [PostfixSyntax.suffixes]
      omega
    have hargs := parenthesized_tokens hexpr he.2 hlength' lparen rparen rest
    rw [hfuel, PostfixSyntax.tokens]
    simp only [List.append_assoc, List.cons_append, List.nil_append]
    rw [hprev, suffixes]
    simp [hargs]
  | .index object lbracket index rbracket, he, hlength, rest, hrest, fuel => by
    have hfirst : ∀ t ∈ ((Token.lbracket, lbracket) ::
        (index.tokens ++ (.rbracket, rbracket) :: rest)).head?,
        t.1 ∉ [Token.lparen, .coloncolon] := by simp
    have hprev := postfixAt_tokens hexpr he.1
      (by simp [PostfixSyntax.tokens] at hlength; omega) hfirst (fuel + 1)
    have hfuel : (PostfixSyntax.index object lbracket index rbracket).suffixes + (fuel + 1) =
        object.suffixes + (fuel + 1 + 1) := by
      rw [PostfixSyntax.suffixes]
      omega
    have hindex := hexpr index ((.rbracket, rbracket) :: rest) he.2
      (by simp [PostfixSyntax.tokens] at hlength; omega) (ends_rbracket _ _)
    rw [hfuel, PostfixSyntax.tokens]
    simp only [List.append_assoc, List.cons_append, List.nil_append]
    rw [hprev, suffixes]
    simp [take, hindex]

theorem operand_tokens (hexpr : ReadsBelow expr bound) {e : ExprSyntax} (he : e.Respects)
    (hoperand : IsOperand e) (hlength : e.tokens.length ≤ bound) {rest : List Terminal}
    (hrest : Stops rest) : operand expr (e.tokens ++ rest) = some (e, rest) := by
  cases e with
  | postfixExpr e =>
    have hlparen : take .lparen (e.tokens ++ rest) = none := by
      have hleads := e.leads.append rest fun t ht heq => hrest t ht (by simp [heq])
      exact take_eq_none fun t ht heq => hleads.head? t ht (by simp [heq, notFirst])
    have hsuffixes := e.suffixes_le
    obtain ⟨fuel, hfuel⟩ : ∃ fuel, (e.tokens ++ rest).length + 1 = e.suffixes + (fuel + 1) := by
      refine ⟨(e.tokens ++ rest).length - e.suffixes, ?_⟩
      rw [List.length_append]
      omega
    have hfirst : ∀ t ∈ rest.head?, t.1 ∉ [Token.lparen, .coloncolon] :=
      fun t ht hmem => hrest t ht (by simp at hmem ⊢; tauto)
    have hread := postfixAt_tokens hexpr he hlength hfirst fuel
    have hdot : take .dot rest = none := hrest.take (by simp)
    have hlbracket : take .lbracket rest = none := hrest.take (by simp)
    rw [ExprSyntax.tokens, operand, hlparen]
    dsimp only
    rw [hfuel, hread]
    simp [suffixes, hdot, hlbracket]
  | paren lparen e rparen =>
    have hinner := hexpr e ((.rparen, rparen) :: rest) he
      (by simp [ExprSyntax.tokens] at hlength; omega) (ends_rparen _ _)
    simp [operand, ExprSyntax.tokens, hinner]
  | unary sign operand => exact hoperand.elim
  | binary left sign right => exact hoperand.elim

theorem operand_starts {e : ExprSyntax} (hoperand : IsOperand e) (rest : List Terminal) :
    (e.tokens ++ rest).head?.bind table.unary? = none := by
  cases e with
  | postfixExpr e =>
    have hleads := e.leads.head?
    rw [ExprSyntax.tokens]
    cases hrow : e.tokens with
    | nil => exact absurd e.leads (by rw [hrow]; exact id)
    | cons t tail =>
      obtain ⟨token, span⟩ := t
      have hne := hleads (token, span) (by rw [hrow]; rfl)
      change locatedUnary? (token, span) = none
      rw [locatedUnary?, Option.map_eq_none_iff, Option.eq_none_iff_forall_ne_some]
      intro sign hsign
      obtain rfl := (UnarySign.ofToken?_eq_some token sign).mp hsign
      cases sign <;> simp [notFirst, UnarySign.token] at hne
  | paren lparen e rparen => rfl
  | unary sign operand => exact hoperand.elim
  | binary left sign right => exact hoperand.elim

end Completeness

theorem exprAt_tokens (fuel : Nat) : ReadsBelow (exprAt fuel) fuel := by
  induction fuel with
  | zero => exact fun _ _ _ hlength => absurd hlength (Nat.not_lt_zero _)
  | succ fuel ih =>
    intro e rest he hlength hrest
    have hreads : Reads table (operand (exprAt fuel)) ExprSyntax.tokens
        (fun e => e.Respects ∧ IsOperand e ∧ e.tokens.length ≤ fuel) Stops :=
      { complete := fun e rest he hrest => operand_tokens ih he.1 he.2.1 he.2.2 hrest
        starts := fun e rest he => operand_starts he.2.1 rest
        stops_binary := stops_binary }
    have hne : ∀ e : ExprSyntax, e.tokens ≠ [] := by
      intro e hnil
      have hleads := e.leads
      rw [hnil] at hleads
      exact hleads
    have hlengths := (e.toTree.forall_length_le table ExprSyntax.tokens).mono
      (q := fun a => a.tokens.length ≤ fuel) fun a ha => by
        rw [tokens_toTree] at ha
        omega
    have hconforms := (respects_iff e).mp he
    have htree := hconforms.of_forall
      (hconforms.forall.and ((isOperand_toTree e).and hlengths))
    have hparse := parse_tokens hreads (fun e _ => hne e) htree hrest.1 hrest.2
    rw [tokens_toTree] at hparse
    simp [exprAt, hparse, ofTree_toTree]

/-- In front of anything that ends it, an expression is read whole. -/
theorem expression_tokens {e : ExprSyntax} (he : e.Respects) {rest : List Terminal}
    (hrest : Ends rest) : expression (e.tokens ++ rest) = some (e, rest) := by
  refine exprAt_tokens _ e rest he ?_ hrest
  rw [List.length_append]
  omega

theorem readExpr_eq_some {row : List Terminal} {e : ExprSyntax} :
    readExpr row = some e ↔ e.tokens = row ∧ e.Respects := by
  constructor
  · intro h
    unfold readExpr at h
    split at h
    · rename_i e' hread
      cases h
      obtain ⟨rfl, he⟩ := exprAt_sound _ _ _ _ hread
      exact ⟨(List.append_nil _).symm, he⟩
    · cases h
  · rintro ⟨rfl, he⟩
    have hend : Ends [] := ⟨by simp [Stops], rfl⟩
    have hread := expression_tokens he hend
    rw [List.append_nil] at hread
    rw [readExpr, hread]

/-! ## Every derivation has one that respects the precedences -/

/-- With operands that respect the precedences, the operators can be regrouped. -/
theorem exists_regrouped {e : ExprSyntax} (h : e.toTree.Forall ExprSyntax.Respects) :
    ∃ e' : ExprSyntax, e'.Respects ∧ e'.tokens = e.tokens := by
  obtain ⟨tree, hconforms, htokens⟩ := exists_conforms table ExprSyntax.tokens
    (h.and (isOperand_toTree e))
  refine ⟨ofTree tree, respects_ofTree hconforms, ?_⟩
  rw [tokens_ofTree (hconforms.forall.mono fun _ he => he.2), htokens, tokens_toTree]

mutual

theorem ExprSyntax.exists_respects : ∀ e : ExprSyntax,
    ∃ e' : ExprSyntax, e'.Respects ∧ e'.tokens = e.tokens
  | .postfixExpr e => by
    obtain ⟨e', he', htokens⟩ := e.exists_respects
    exact ⟨.postfixExpr e', he', htokens⟩
  | .unary sign operand => by
    obtain ⟨operand', hoperand, htokens⟩ := operand.exists_respects
    obtain ⟨e', he', htokens'⟩ := exists_regrouped (e := .unary sign operand')
      ((respects_iff operand').mp hoperand).forall
    refine ⟨e', he', ?_⟩
    rw [htokens', ExprSyntax.tokens, ExprSyntax.tokens, htokens]
  | .binary left sign right => by
    obtain ⟨left', hleft, htokensLeft⟩ := left.exists_respects
    obtain ⟨right', hright, htokensRight⟩ := right.exists_respects
    obtain ⟨e', he', htokens'⟩ := exists_regrouped (e := .binary left' sign right')
      ⟨((respects_iff left').mp hleft).forall, ((respects_iff right').mp hright).forall⟩
    refine ⟨e', he', ?_⟩
    rw [htokens', ExprSyntax.tokens, ExprSyntax.tokens, htokensLeft, htokensRight]
  | .paren lparen e rparen => by
    obtain ⟨e', he', htokens⟩ := e.exists_respects
    exact ⟨.paren lparen e' rparen, he', by rw [ExprSyntax.tokens, ExprSyntax.tokens, htokens]⟩

theorem PostfixSyntax.exists_respects : ∀ e : PostfixSyntax,
    ∃ e' : PostfixSyntax, e'.Respects ∧ e'.tokens = e.tokens
  | .primary e => ⟨.primary e, trivial, rfl⟩
  | .member object dot field => by
    obtain ⟨object', hobject, htokens⟩ := object.exists_respects
    exact ⟨.member object' dot field, hobject,
      by rw [PostfixSyntax.tokens, PostfixSyntax.tokens, htokens]⟩
  | .methodCall object dot method lparen args rparen => by
    obtain ⟨object', hobject, htokensObject⟩ := object.exists_respects
    obtain ⟨args', hargs, htokensArgs⟩ := args.exists_respects
    exact ⟨.methodCall object' dot method lparen args' rparen, ⟨hobject, hargs⟩,
      by rw [PostfixSyntax.tokens, PostfixSyntax.tokens, htokensObject, htokensArgs]⟩
  | .index object lbracket i rbracket => by
    obtain ⟨object', hobject, htokensObject⟩ := object.exists_respects
    obtain ⟨i', hi, htokensIndex⟩ := i.exists_respects
    exact ⟨.index object' lbracket i' rbracket, ⟨hobject, hi⟩,
      by rw [PostfixSyntax.tokens, PostfixSyntax.tokens, htokensObject, htokensIndex]⟩
  | .call name lparen args rparen => by
    obtain ⟨args', hargs, htokens⟩ := args.exists_respects
    exact ⟨.call name lparen args' rparen, hargs,
      by rw [PostfixSyntax.tokens, PostfixSyntax.tokens, htokens]⟩
  | .qualifiedCall ns colons symbol lparen args rparen => by
    obtain ⟨args', hargs, htokens⟩ := args.exists_respects
    exact ⟨.qualifiedCall ns colons symbol lparen args' rparen, hargs,
      by rw [PostfixSyntax.tokens, PostfixSyntax.tokens, htokens]⟩

theorem CallArgList.exists_respects : ∀ args : CallArgList,
    ∃ args' : CallArgList, args'.Respects ∧ args'.tokens = args.tokens
  | .empty => ⟨.empty, trivial, rfl⟩
  | .single arg => by
    obtain ⟨arg', harg, htokens⟩ := arg.exists_respects
    exact ⟨.single arg', harg, htokens⟩
  | .snoc args comma arg => by
    obtain ⟨args', hargs, htokensArgs⟩ := args.exists_respects
    obtain ⟨arg', harg, htokensArg⟩ := arg.exists_respects
    exact ⟨.snoc args' comma arg', ⟨hargs, harg⟩,
      by rw [CallArgList.tokens, CallArgList.tokens, htokensArgs, htokensArg]⟩

theorem CallArgSyntax.exists_respects : ∀ arg : CallArgSyntax,
    ∃ arg' : CallArgSyntax, arg'.Respects ∧ arg'.tokens = arg.tokens
  | .named name assign value => by
    obtain ⟨value', hvalue, htokens⟩ := value.exists_respects
    exact ⟨.named name assign value', hvalue,
      by rw [CallArgSyntax.tokens, CallArgSyntax.tokens, htokens]⟩
  | .positional value => by
    obtain ⟨value', hvalue, htokens⟩ := value.exists_respects
    exact ⟨.positional value', hvalue, htokens⟩

end

/-- A row is read if and only if it has a derivation, and then as the one derivation of it that
respects the precedences. -/
theorem readExpr_iff (row : List Terminal) :
    ((∃ e, readExpr row = some e) ↔ ∃ e : ExprSyntax, e.tokens = row) ∧
      ∀ e, readExpr row = some e ↔
        e.tokens = row ∧ e.Respects ∧
          ∀ e' : ExprSyntax, e'.tokens = row → e'.Respects → e' = e := by
  have hunique : ∀ e e', readExpr row = some e → e'.tokens = row → e'.Respects → e' = e := by
    intro e e' hread htokens he'
    rw [readExpr_eq_some.mpr ⟨htokens, he'⟩] at hread
    exact Option.some.inj hread
  constructor
  · constructor
    · rintro ⟨e, hread⟩
      exact ⟨e, (readExpr_eq_some.mp hread).1⟩
    · rintro ⟨e, rfl⟩
      obtain ⟨e', he', htokens⟩ := e.exists_respects
      exact ⟨e', readExpr_eq_some.mpr ⟨htokens, he'⟩⟩
  · intro e
    constructor
    · intro hread
      obtain ⟨htokens, he⟩ := readExpr_eq_some.mp hread
      exact ⟨htokens, he, fun e' => hunique e e' hread⟩
    · exact fun ⟨htokens, he, _⟩ => readExpr_eq_some.mpr ⟨htokens, he⟩

end FalconLib.Parser.Expressions
