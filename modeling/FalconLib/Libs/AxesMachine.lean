import FalconLib.Libs.AxesCreation
import FalconLib.Libs.MapMachine

/-!
# Programs over axes

A program declares variables that hold axes, makes aliases of them and calls their routines. It
runs on lists with reference semantics on the one side, as a program over plain arrays does, and
on the interpreter on the other.
-/

namespace FalconLib.Libs.Axes

open FalconLib.Base (StdMap)
open FalconLib.Dsl
open FalconLib.Libs.Array (Lists Machine Observed Search callOn)
open FalconLib.Libs.Map (methodCall var)

/-- Operands stand for the values that the arguments evaluate to. -/
inductive Command where
  /-- `Axes<T> x = Axes.New();` -/
  | new (x : String) (elementType : TypeDescriptor)
  /-- `Axes<T> y = x.New();` -/
  | renew (y x : String) (elementType : TypeDescriptor)
  /-- `Axes<T> y = x;` -/
  | share (y x : String) (elementType : TypeDescriptor)
  /-- `x.PushBack(value)` and so on. -/
  | call (x : String) (call : Call)

namespace Command

/-- The variable that a command uses. -/
def receiver : Command → Option String
  | new _ _ => none
  | renew _ x _ | share _ x _ | call x _ => some x

/-- The variable that it declares. -/
def declared : Command → Option String
  | new x _ => some x
  | renew y _ _ | share y _ _ => some y
  | call _ _ => none

end Command

/-- A program uses the variables it has declared. -/
def Scoped (declared : List String) : List Command → Prop
  | [] => True
  | command :: program =>
    (∀ x ∈ command.receiver, x ∈ declared) ∧
      Scoped (command.declared.toList ++ declared) program

/-! ## Lists -/

namespace Lists

def search (s : Lists) (x : String) (search : Search) (value : RuntimeValue) : Observed × Lists :=
  match s.refs[x]?.bind fun ref => s.lists[ref]? with
  | some elements => (.returned (Call.answer search elements value), s)
  | none => (.stuck, s)

/-- What the commands do to plain arrays. -/
def step (s : Lists) : Command → Observed × Lists
  | .new x type | .renew x _ type => s.step (.new x type)
  | .share y x type => s.step (.share y x type)
  | .call x (.of method) => s.step (.call x method)
  | .call x (.find search value) => Lists.search s x search value

/-- What a program observes, and the lists it leaves. -/
def run (s : Lists) : List Command → List Observed × Lists
  | [] => ([], s)
  | command :: program =>
    let (observed, s) := step s command
    let (observations, s) := run s program
    (observed :: observations, s)

end Lists

/-! ## The interpreter -/

section Interpreter

variable {S : Type} (ctx : Context S) (fuel : Nat)

def declaration (x : String) (elementType : TypeDescriptor) (initializer : Expr) : VarDeclStmt :=
  { type := axesOf elementType, name := x, initializer := some initializer }

def step (m : Machine S) : Command → Observed × Machine S
  | .new x type => m.declare ctx (fuel + 1) (declaration x type newCall)
  | .renew y x type => m.declare ctx (fuel + 1) (declaration y type (callOn x "New" []))
  | .share y x type => m.declare ctx (fuel + 1) (declaration y type (var x))
  | .call x call => m.observe (methodCall ctx fuel m x call.name call.args)

def run (m : Machine S) : List Command → List Observed × Machine S
  | [] => ([], m)
  | command :: program =>
    let (observed, m) := step ctx fuel m command
    let (observations, m) := run m program
    (observed :: observations, m)

/-! ## Conditions on the state before a step -/

/-- Axes through which `New` is called have no elements. -/
def Renewable (m : Machine S) (x : String) : Prop :=
  ∀ p elements, m.env[x]? = some (.struct p.id) → IsAxes m.world p →
    Stored m.world.heap p elements → elements = []

/-- A call on axes: what is sent arrives, an output of a struct type starts without trouble, and
where the field is nil the call fails on a list without elements, too. -/
def Answerable (path : String) (m : Machine S) (x : String) (call : Call) : Prop :=
  call.Sent m.world.heap ∧
    ∀ p, m.env[x]? = some (.struct p.id) → IsAxes m.world p →
      Quiet ctx fuel path m.world p call ∧ (p.array = none → call.run [] = none)

def Fits (path : String) (m : Machine S) : Command → Prop
  | .new _ _ => Renewable m "Axes"
  | .renew _ x _ => Renewable m x
  | .share _ _ _ => True
  | .call x call => Answerable ctx fuel path m x call

/-- Every step of the run meets the condition. -/
def Admissible (path : String) (m : Machine S) : List Command → Prop
  | [] => True
  | command :: program =>
    Fits ctx fuel path m command ∧ Admissible path (step ctx fuel m command).2 program

end Interpreter

end FalconLib.Libs.Axes
