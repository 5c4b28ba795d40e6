import FalconLib.Dsl.Ast

/-!
# Derivations of the grammar

The derivation of a `.fal` text, as far as the parser's tables are concerned: the
actions of expressions look at no table and report nothing, so an expression stands
here as the tree that its actions build.
-/

namespace FalconLib.Parser

open FalconLib.Dsl

/-- Where a symbol begins and ends. -/
structure Span where
  firstLine : Int := 0
  firstColumn : Int := 0
  lastLine : Int := 0
  lastColumn : Int := 0
deriving DecidableEq

/-- `type_spec`. A name may be qualified. -/
inductive TypeSpec where
  | primitive (type : ParamType)
  | error
  | generic (span : Span) (name : String) (args : List TypeSpec)
  | named (span : Span) (name : String)

/-- `param_decl`. -/
structure ParamSyntax where
  type : TypeSpec
  name : String
  defaultValue : Option Expr := none

/-- `var_decl_stmt`, and where its name stands. -/
structure VarDeclSyntax where
  type : TypeSpec
  name : String
  nameSpan : Span := {}
  initializer : Option Expr := none

mutual

/-- `stmt`. The object of a field assignment is an identifier or `this`; a method call
with a semicolon is an expression. -/
inductive Statement where
  | varDecl (span : Span) (decl : VarDeclSyntax)
  | assign (span : Span) (targets : List (Span × String)) (value : Expr)
  | fieldAssign (span : Span) (object field : String) (value : Expr)
  | expr (span : Span) (expression : Expr)
  | transition (span : Span) (target : String) (args : List Expr)
  | terminal (span : Span)
  | ifThen (span : Span) (condition : Expr) (thenBody : List Statement) (rest : ElifChain)

/-- `elif_chain`. -/
inductive ElifChain where
  | done
  | otherwise (body : List Statement)
  | elif (condition : Expr) (thenBody : List Statement) (rest : ElifChain)

end

/-- `struct_routine_stmt`, also the statement of a routine outside of structs. Only its
`then` branch is a routine body again. -/
inductive RoutineStatement where
  | varDecl (span : Span) (decl : VarDeclSyntax)
  | assign (span : Span) (name : String) (value : Expr)
  | fieldAssign (span : Span) (object field : String) (value : Expr)
  | expr (span : Span) (expression : Expr)
  | ifThen (span : Span) (condition : Expr) (thenBody : List RoutineStatement)
      (rest : ElifChain)

/-- `routine_decl`. -/
structure RoutineSyntax where
  name : String
  inputs : List ParamSyntax := []
  outputs : List ParamSyntax := []
  body : List RoutineStatement := []

/-- `struct_decl`; its fields are `struct_field_decl`s. -/
structure StructSyntax where
  name : String
  genericParams : List String := []
  fields : List ParamSyntax := []
  routines : List RoutineSyntax := []

/-- `state_decl`. -/
structure StateSyntax where
  name : String
  params : List ParamSyntax := []
  body : List Statement := []

/-- `autotuner_decl`. -/
structure AutotunerSyntax where
  name : String
  inputs : List ParamSyntax := []
  outputs : List ParamSyntax := []
  varDecls : List Statement := []
  entryState : String
  entryParameters : List Expr := []
  states : List StateSyntax

/-- `program_item`. -/
inductive ItemSyntax where
  | struct (decl : StructSyntax)
  | routine (decl : RoutineSyntax)
  | autotuner (decl : AutotunerSyntax)
  | ffImport (decl : FFImportDecl)

/-- `program`. -/
structure ProgramSyntax where
  imports : List String := []
  items : List ItemSyntax := []

end FalconLib.Parser
