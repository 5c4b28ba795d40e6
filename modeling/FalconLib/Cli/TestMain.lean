import FalconLib.Libs.Testing

/-!
# `falcon-test`

The states that `falcon-test` injects into the autotuner of a test suite, as the trees of the text
that it generates, without the places in that text.
-/

namespace FalconLib.Cli.TestMain

open FalconLib.Dsl
open FalconLib.Libs.Testing (contextParam errorType runnerParam)

/-- What the scan of a suite finds. -/
structure SuiteInfo where
  name : String
  testNames : List String
  hasSetup : Bool := false
  hasTeardown : Bool := false

/-! ## Trees -/

def runner : TypeDescriptor := .makeStruct "TestRunner"

def context : TypeDescriptor := .makeStruct "TestContext"

def vars (names : List String) : List Expr := names.map (Expr.var {})

def text (value : String) : Expr := .literal {} (.string value)

def call (object method : String) (args : List Expr) : Expr :=
  .methodCall {} (.var {} object) method args

def declare (type : TypeDescriptor) (name : String) (value : Expr) : Stmt :=
  .varDecl ⟨{}, type, name, some value⟩

def assign (name : String) (value : Expr) : Stmt := .assign {} [{ variableName := name }] value

def goTo (state : String) (args : List String) : Stmt := .transition {} state (vars args)

/-! ## The generated states -/

namespace SuiteInfo

variable (suite : SuiteInfo)

/-- The first registration declares `err`. -/
def registrations : List Stmt :=
  match suite.testNames with
  | [] => []
  | name :: names =>
    declare errorType "err" (call "runner" "Register" [text name]) ::
      names.map fun name => assign "err" (call "runner" "Register" [text name])

def initState : StateDecl where
  name := "__init"
  body :=
    declare runner "runner" (call "TestRunner" "New" [text suite.name]) ::
      (suite.registrations ++
        [assign "err" (call "runner" "PrintHeader" []), goTo "__loop" ["runner"]])

def setupState : String := if suite.hasSetup then "setup" else "__begin"

def loopState : StateDecl where
  name := "__loop"
  inputParameters := [runnerParam "runner"]
  body :=
    [declare (.ofParamType .bool) "more" (call "runner" "HasNext" []),
      .ifStmt {} (.var {} "more") [goTo suite.setupState ["runner"]] [goTo "__finish" ["runner"]]]

def beginState : StateDecl where
  name := "__begin"
  inputParameters := [runnerParam "runner"]
  body :=
    [declare context "t" (call "runner" "BeginCurrent" []), goTo "__dispatch" ["runner", "t"]]

def teardownState : String := if suite.hasTeardown then "teardown" else "__end"

def dispatchTest (name : String) : Stmt :=
  .ifStmt {} (.binary {} "==" (.var {} "name") (text name)) [goTo name ["runner", "t"]] []

def dispatchState : StateDecl where
  name := "__dispatch"
  inputParameters := [runnerParam "runner", contextParam "t"]
  body :=
    declare (.ofParamType .string) "name" (call "runner" "CurrentName" []) ::
      (suite.testNames.map dispatchTest ++
        [declare errorType "err"
          (call "t" "Fail" [.binary {} "+" (text "no body for: ") (.var {} "name")]),
          goTo suite.teardownState ["runner", "t"]])

def endState : StateDecl where
  name := "__end"
  inputParameters := [runnerParam "runner", contextParam "t"]
  body :=
    [declare errorType "err" (call "runner" "EndCurrent" [.var {} "t"]), goTo "__loop" ["runner"]]

def finishState : StateDecl where
  name := "__finish"
  inputParameters := [runnerParam "runner"]
  body :=
    [declare errorType "err" (call "runner" "PrintSummary" []),
      assign "passed" (call "runner" "PassedCount" []),
      assign "failed" (call "runner" "FailedCount" []), .terminal {}]

def generateHarnessStates : List StateDecl :=
  [suite.initState, suite.loopState, beginState, suite.dispatchState, endState,
    finishState]

/-- The states are inserted before the closing brace of the autotuner. -/
def transform (autotuner : AutotunerDecl) : AutotunerDecl :=
  { autotuner with states := autotuner.states ++ suite.generateHarnessStates }

end SuiteInfo

end FalconLib.Cli.TestMain
