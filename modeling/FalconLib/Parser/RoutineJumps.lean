import FalconLib.Dsl.CompleteRuns
import FalconLib.Parser.Trees

/-!
# Transitions in the bodies of routines

The grammar has no transition and no `terminal` among the statements of a routine, but what stands
behind `elif` and `else` is parsed as in a state.
-/

namespace FalconLib.Parser.RoutineJumps

open FalconLib.Base (Comp)
open FalconLib.Dsl
open CompleteRuns
open Trees (Yields)
open VariableFrame (simpleStmts)

/-! ## In the text -/

mutual

/-- The statement is a transition or `terminal`, or has one in it. -/
def jumpsIn : Statement → Bool
  | .transition _ _ _ | .terminal _ => true
  | .ifThen _ _ thenBody rest => jumpsInList thenBody || jumpsInChain rest
  | _ => false

def jumpsInList : List Statement → Bool
  | [] => false
  | statement :: statements => jumpsIn statement || jumpsInList statements

def jumpsInChain : ElifChain → Bool
  | .done => false
  | .otherwise body => jumpsInList body
  | .elif _ thenBody rest => jumpsInList thenBody || jumpsInChain rest

end

mutual

/-- Behind an `elif` or `else` of the statement stands a transition or `terminal`. -/
def branchJumps : RoutineStatement → Bool
  | .ifThen _ _ thenBody rest => branchJumpsList thenBody || jumpsInChain rest
  | _ => false

def branchJumpsList : List RoutineStatement → Bool
  | [] => false
  | statement :: statements => branchJumps statement || branchJumpsList statements

end

/-- The routines of a text, of its structs as well. -/
def routinesIn : List ItemSyntax → List RoutineSyntax
  | [] => []
  | .routine decl :: items => decl :: routinesIn items
  | .struct decl :: items => decl.routines ++ routinesIn items
  | .autotuner _ :: items => routinesIn items
  | .ffImport _ :: items => routinesIn items

/-- The routines of a program, of its structs as well. -/
def routinesOf (program : Program) : List RoutineDecl :=
  program.routines ++ program.structs.flatMap StructDecl.routines

/-! ## In the tree -/

/-- The statement is a jump, or has one in it, if and only if `b` is set. -/
abbrev StmtJumps (b : Bool) (stmt : Stmt) : Prop := (simpleStmts stmt).any isJump = b

theorem varDeclStmt_yields (span : Span) (decl : VarDeclSyntax) :
    Yields (varDeclStmt span decl) (StmtJumps false) :=
  .after fun _ => .after fun _ => .after fun _ => .after fun _ => .after fun _ => .after fun _ =>
    .pure rfl

theorem bareAssign_yields (span : Span) (name : String) (value : Expr) :
    Yields (bareAssign span name value) (StmtJumps false) := by
  refine .after fun _ => .after fun tables => .after fun location => ?_
  split_ifs
  · exact .pure rfl
  · exact .after fun _ => .pure rfl
  · exact .after fun _ => fun _ _ _ ho => nomatch ho

theorem ifStmt_yields {m m' : Parse (List Stmt)} {b b' : Bool} (span : Span) (condition : Expr)
    (hm : Yields m fun body => jumps body = b) (hm' : Yields m' fun body => jumps body = b') :
    Yields (do
      let thenBody ← m
      let elseBody ← m'
      let location ← locate span
      pure (.ifStmt location condition thenBody elseBody)) (StmtJumps (b || b')) := by
  refine .bind hm fun thenBody ht => .bind hm' fun elseBody he => .after fun location => .pure ?_
  rw [StmtJumps, any_simpleStmts_ifStmt, ht, he]

theorem cons_yields {m : Parse Stmt} {m' : Parse (List Stmt)} {b b' : Bool}
    (hm : Yields m (StmtJumps b)) (hm' : Yields m' fun body => jumps body = b') :
    Yields (do
      let first ← m
      let rest ← m'
      pure (first :: rest)) fun body => jumps body = (b || b') := by
  refine .bind hm fun first hf => .bind hm' fun rest hr => .pure ?_
  rw [jumps_cons, hr, show (simpleStmts first).any isJump = b from hf]

mutual

theorem stmt_yields : ∀ statement : Statement,
    Yields (stmt statement) (StmtJumps (jumpsIn statement))
  | .varDecl span decl => varDeclStmt_yields span decl
  | .assign _ _ _ => .after fun _ => .after fun _ => .pure rfl
  | .fieldAssign _ _ _ _ => .after fun _ => .pure rfl
  | .expr _ _ => .after fun _ => .pure rfl
  | .transition _ _ _ => .after fun _ => .pure rfl
  | .terminal _ => .after fun _ => .pure rfl
  | .ifThen span condition thenBody rest =>
    ifStmt_yields span condition (stmtList_yields thenBody) (elifChain_yields rest)

theorem stmtList_yields : ∀ statements : List Statement,
    Yields (stmtList statements) fun body => jumps body = jumpsInList statements
  | [] => .pure rfl
  | statement :: statements => cons_yields (stmt_yields statement) (stmtList_yields statements)

theorem elifChain_yields : ∀ chain : ElifChain,
    Yields (elifChain chain) fun body => jumps body = jumpsInChain chain
  | .done => .pure rfl
  | .otherwise body => stmtList_yields body
  | .elif condition thenBody rest => by
    refine .bind (stmtList_yields thenBody) fun first ht =>
      .bind (elifChain_yields rest) fun others he => .pure ?_
    rw [jumps_cons, any_simpleStmts_ifStmt, ht, he]
    exact Bool.or_false _

end

mutual

theorem structRoutineStmt_yields : ∀ statement : RoutineStatement,
    Yields (structRoutineStmt statement) (StmtJumps (branchJumps statement))
  | .varDecl span decl => varDeclStmt_yields span decl
  | .assign span name value => bareAssign_yields span name value
  | .fieldAssign _ _ _ _ => .after fun _ => .pure rfl
  | .expr _ _ => .after fun _ => .pure rfl
  | .ifThen span condition thenBody rest =>
    ifStmt_yields span condition (routineBody_yields thenBody) (elifChain_yields rest)

theorem routineBody_yields : ∀ statements : List RoutineStatement,
    Yields (routineBody statements) fun body => jumps body = branchJumpsList statements
  | [] => .pure rfl
  | statement :: statements =>
    cons_yields (structRoutineStmt_yields statement) (routineBody_yields statements)

end

/-! ## Programs -/

/-- Whether the routine has a jump is the same in the text and in the tree. -/
abbrev SameJumps (decl : RoutineSyntax) (routine : RoutineDecl) : Prop :=
  jumps routine.body = branchJumpsList decl.body

theorem routineDecl_yields (decl : RoutineSyntax) : Yields (routineDecl decl) (SameJumps decl) :=
  .after fun _ => .after fun _ => .bind (routineBody_yields decl.body) fun _ hb => .pure hb

theorem structRoutineList_yields (decls : List RoutineSyntax) :
    Yields (structRoutineList decls) (List.Forall₂ SameJumps decls) := by
  induction decls with
  | nil => exact .pure .nil
  | cons decl decls ih =>
    have hfirst : Yields (structRoutine decl) (SameJumps decl) :=
      .after fun _ => .bind (routineDecl_yields decl) fun _ hr => .after fun _ => .pure hr
    exact .bind hfirst fun _ hr => .bind ih fun _ hrest => .pure (.cons hr hrest)

theorem structDecl_yields (decl : StructSyntax) :
    Yields (structDecl decl) fun struct => List.Forall₂ SameJumps decl.routines struct.routines :=
  .after fun _ => .after fun _ => .bind (structRoutineList_yields decl.routines) fun _ hr =>
    .after fun _ => .pure hr

/-- Some routine of the program has a jump. -/
def programJumps (program : Program) : Bool :=
  (routinesOf program).any fun routine => jumps routine.body

theorem any_of_sameJumps {decls : List RoutineSyntax} {routines : List RoutineDecl}
    (h : List.Forall₂ SameJumps decls routines) :
    (routines.any fun routine => jumps routine.body) =
      decls.any fun decl => branchJumpsList decl.body := by
  induction h with
  | nil => rfl
  | cons hfirst _ ih => rw [List.any_cons, List.any_cons, hfirst, ih]

theorem programJumps_struct (program : Program) (decl : StructDecl) :
    programJumps { program with structs := program.structs ++ [decl] } =
      (programJumps program || decl.routines.any fun routine => jumps routine.body) := by
  unfold programJumps routinesOf
  rw [List.flatMap_append, List.flatMap_singleton, ← List.append_assoc, List.any_append]

theorem programJumps_routine (program : Program) (routine : RoutineDecl) :
    programJumps { program with routines := program.routines ++ [routine] } =
      (programJumps program || jumps routine.body) := by
  unfold programJumps routinesOf
  rw [List.any_append, List.any_append, List.any_append, Bool.or_assoc, Bool.or_assoc]
  exact congrArg _ ((congrArg (· || _) (Bool.or_false _)).trans (Bool.or_comm _ _))

theorem programItems_yields (items : List ItemSyntax) (program : Program) :
    Yields (programItems items program) fun p => programJumps p =
      (programJumps program ||
        (routinesIn items).any fun decl => branchJumpsList decl.body) := by
  induction items generalizing program with
  | nil => exact .pure (Bool.or_false _).symm
  | cons item items ih =>
    cases item with
    | struct decl =>
      refine .bind (m := programItem program (.struct decl))
        (p := fun p => programJumps p = (programJumps program ||
          decl.routines.any fun decl => branchJumpsList decl.body)) ?_ fun next hnext => ?_
      · refine .bind (structDecl_yields decl) fun struct hr => .pure ?_
        rw [programJumps_struct, any_of_sameJumps hr]
      · intro s p u ho
        rw [ih next s p u ho, hnext, routinesIn, List.any_append, Bool.or_assoc]
    | routine decl =>
      refine .bind (m := programItem program (.routine decl))
        (p := fun p => programJumps p = (programJumps program || branchJumpsList decl.body)) ?_
        fun next hnext => ?_
      · refine .bind (routineDecl_yields decl) fun routine hr => .pure ?_
        rw [programJumps_routine, hr]
      · intro s p u ho
        rw [ih next s p u ho, hnext, routinesIn, List.any_cons, Bool.or_assoc]
    | autotuner decl =>
      refine .bind (m := programItem program (.autotuner decl))
        (p := fun p => programJumps p = programJumps program) (.after fun _ => .pure rfl)
        fun next hnext => ?_
      intro s p u ho
      rw [ih next s p u ho, hnext, routinesIn]
    | ffImport decl => exact ih _

theorem program_yields (derivation : ProgramSyntax) :
    Yields (program derivation) fun p => programJumps p =
      (routinesIn derivation.items).any fun decl => branchJumpsList decl.body := by
  refine .bind (programItems_yields derivation.items _) fun p hp => .after fun stop => ?_
  cases stop with
  | none => exact .pure hp
  | some n => exact fun _ _ _ ho => nomatch ho

theorem parseFile_program {t : Tables} {hints : Finset String} {text : SourceText} {p : Program}
    (haccepted : (parseFile t hints text).1.program = some p) :
    programJumps p =
      (routinesIn text.derivation.items).any fun decl => branchJumpsList decl.body := by
  obtain ⟨q, u, ho, rfl⟩ := parseFile_accepted haccepted
  exact program_yields text.derivation (start t hints text) q u ho

/-- The routines of an accepted program run to completion exactly when no transition and no
`terminal` stands behind an `elif` or `else` in one of them. -/
theorem runToCompletion_iff (t : Tables) (hints : Finset String) (text : SourceText) (p : Program)
    (haccepted : (parseFile t hints text).1.program = some p) :
    (∀ routine ∈ routinesOf p, RunsToCompletion routine) ↔
      ∀ decl ∈ routinesIn text.derivation.items, branchJumpsList decl.body = false := by
  have hsame := parseFile_program haccepted
  have hprogram : (∀ routine ∈ routinesOf p, RunsToCompletion routine) ↔
      programJumps p = false := by
    unfold programJumps
    rw [List.any_eq_false]
    refine forall₂_congr fun routine _ => ?_
    rw [runsToCompletion_iff, Bool.not_eq_true]
  rw [hprogram, hsame, List.any_eq_false]
  exact forall₂_congr fun decl _ => by rw [Bool.not_eq_true]


/-- A routine with a statement behind the `else` with these statements. -/
def choosing (otherwise : List Statement) : SourceText where
  filename := "choose.fal"
  stem := "choose"
  derivation := { items := [.routine {
    name := "choose"
    inputs := [{ type := .primitive .bool, name := "b" }]
    outputs := [{ type := .primitive .int, name := "out" }]
    body := [.assign {} "out" (.literal {} (.int 1)),
      .ifThen {} (.var {} "b") [] (.otherwise otherwise),
      .assign {} "out" (.literal {} (.int 2))] }] }

/-- The routine that it is parsed to. -/
def choosingRoutine (otherwise : List Stmt) : RoutineDecl where
  name := "choose"
  inputParams := [{ type := .ofParamType .bool, name := "b" }]
  outputParams := [{ type := .ofParamType .int, name := "out" }]
  body := [.assign { filename := "choose.fal" } [{ variableName := "out" }] (.literal {} (.int 1)),
    .ifStmt { filename := "choose.fal" } (.var {} "b") [] otherwise,
    .assign { filename := "choose.fal" } [{ variableName := "out" }] (.literal {} (.int 2))]

theorem accepted_choosing_terminal :
    (parseFile {} ∅ (choosing [.terminal {}])).1.program =
      some { moduleName := "choose"
             routines := [choosingRoutine [.terminal { filename := "choose.fal" }]] } := by rfl

theorem accepted_choosing :
    (parseFile {} ∅ (choosing [])).1.program =
      some { moduleName := "choose", routines := [choosingRoutine []] } := by rfl

/-- The call returns the first of the two values. -/
example : (Interpreter.runInlineRoutine (S := Unit) { host := Host.unlinked }
    (Interpreter.handlers { host := Host.unlinked } 0) "choose::choose"
    (choosingRoutine [.terminal {}]) (FalconLib.Base.StdMap.assign ∅ "b" (.bool false))
    { store := () }).outcome.value? = some [.int 1] := by rfl

theorem runToCompletion_iff_choosing : RunsToCompletion (choosingRoutine []) := by
  refine (runToCompletion_iff {} ∅ (choosing []) _ accepted_choosing).mpr ?_ _
    List.mem_cons_self
  exact List.forall_mem_singleton.mpr rfl

theorem not_runsToCompletion_choosing :
    ¬∀ (t : Tables) (hints : Finset String) (text : SourceText) (p : Program),
      (parseFile t hints text).1.program = some p →
        ∀ routine ∈ routinesOf p, RunsToCompletion routine := by
  intro h
  have hruns := h {} ∅ (choosing [.terminal {}]) _ accepted_choosing_terminal _
    List.mem_cons_self
  cases hruns.noJump

end FalconLib.Parser.RoutineJumps
