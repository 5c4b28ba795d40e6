import FalconLib.Libs.MapCreation

/-!
# Programs over maps

A program declares variables that hold maps, calls their routines, takes their arrays and works
on these. It runs on finite maps on the one side and on the interpreter on the other.
-/

namespace FalconLib.Libs.Map

open FalconLib.Base (Comp StdMap Table)
open FalconLib.Base.Table (Operation Reply)
open FalconLib.Dsl
open FalconLib.Libs.Array (IsArray Machine Method Observed Search callOn)
open ExprEvaluator (evaluate evalMethodCall evalVariable)

/-- Operands stand for the values that the arguments evaluate to. -/
inductive Command where
  /-- `Map<K, V> x = Map.New();` -/
  | new (x : String) (keyType valueType : TypeDescriptor)
  /-- `x.Set(key, value)` and so on. -/
  | call (x : String) (operation : MapOperation)
  /-- `Array<T> y = x.Keys();` or `Array<T> y = x.Values();` -/
  | view (y x : String) (side : Side) (elementType : TypeDescriptor)
  /-- `Array<T> z = y;` -/
  | share (z y : String) (elementType : TypeDescriptor)
  /-- `y.PushBack(value)` and so on. -/
  | array (y : String) (method : Method)
  /-- `y.Contains(value)` or `y.IndexOf(value)`. -/
  | search (y : String) (search : Search) (value : RuntimeValue)
  /-- `y[index]`. -/
  | index (y : String) (index : Int64)

/-- What a variable holds. -/
inductive Kind where
  | map
  | array

namespace Command

/-- The commands of the map itself. -/
def own : Command → Bool
  | new _ _ _ | call _ _ => true
  | _ => false

/-- A command uses variables that hold what it expects. -/
def Uses (kinds : StdMap Kind) : Command → Prop
  | new _ _ _ => kinds["Map"]? ≠ some .array
  | call x _ | view _ x _ _ => kinds[x]? = some .map
  | share _ y _ | array y _ | search y _ _ | index y _ => kinds[y]? = some .array

def kindsAfter (kinds : StdMap Kind) : Command → StdMap Kind
  | new x _ _ => kinds.assign x .map
  | view y _ _ _ | share y _ _ => kinds.assign y .array
  | _ => kinds

end Command

def Scoped (kinds : StdMap Kind) : List Command → Prop
  | [] => True
  | command :: program => command.Uses kinds ∧ Scoped (command.kindsAfter kinds) program

/-- The observations of the map's own commands. -/
def answers : List Command → List Observed → List Observed
  | command :: program, observed :: observations =>
    if command.own then observed :: answers program observations else answers program observations
  | _, _ => []

/-! ## Finite maps -/

/-- Variables refer to finite maps. -/
structure Maps where
  maps : List (Finmap fun _ : RuntimeValue => RuntimeValue) := []
  refs : StdMap Nat := ∅

namespace Maps

def call (s : Maps) (x : String) (operation : MapOperation) : Observed × Maps :=
  match s.refs[x]? with
  | some ref =>
    match s.maps[ref]?.bind operation.onMap with
    | some (reply, left) =>
      (.returned (answerValue reply), { s with maps := s.maps.set ref left })
    | none => (.raised, s)
  | none => (.stuck, s)

/-- Finite maps have no arrays. -/
def step (s : Maps) : Command → Observed × Maps
  | .new x _ _ =>
    (.returned .nil, { maps := s.maps ++ [∅], refs := s.refs.assign x s.maps.length })
  | .call x operation => s.call x operation
  | _ => (.stuck, s)

/-- What a program observes, and the maps it leaves. -/
def run (s : Maps) : List Command → List Observed × Maps
  | [] => ([], s)
  | command :: program =>
    let (observed, s) := s.step command
    let (observations, s) := s.run program
    (observed :: observations, s)

end Maps

/-! ## The interpreter -/

section Interpreter

variable {S : Type} (ctx : Context S) (fuel : Nat)

/-- The call of a method on a variable, with arguments of given values. -/
def methodCall (m : Machine S) (x name : String) (args : List RuntimeValue) : M S RuntimeValue :=
  evalMethodCall ctx (Machine.handlers ctx (fuel + 1)) (.own m.env) {} (.var {} x) name
    (evalVariable (.own m.env) x) (pure args)

def step (m : Machine S) : Command → Observed × Machine S
  | .new x k v =>
    m.declare ctx (fuel + 1) { type := mapOf k v, name := x, initializer := some newCall }
  | .call x operation =>
    m.observe (methodCall ctx fuel m x (routineOf operation).name (argsOf operation))
  | .view y x side type =>
    m.declare ctx (fuel + 1) (Machine.declaration y type (callOn x side.routine.name []))
  | .share z y type => m.declare ctx (fuel + 1) (Machine.declaration z type (var y))
  | .array y method => m.observe (methodCall ctx fuel m y method.name method.args)
  | .search y search value => m.observe (methodCall ctx fuel m y search.name [value])
  | .index y index =>
    m.observe <| evaluate ctx (Machine.handlers ctx (fuel + 1)) (.own m.env) <|
      .index {} (var y) (.literal {} (.int index))

def run (m : Machine S) : List Command → List Observed × Machine S
  | [] => ([], m)
  | command :: program =>
    let (observed, m) := step ctx fuel m command
    let (observations, m) := run m program
    (observed :: observations, m)

/-! ## Conditions on the state before a step -/

/-- A call of a map routine: keys and values cross the boundary, positions are integers of the
language, and an output of a struct type starts without trouble. -/
def CallFits (path : String) (m : Machine S) (x : String) (operation : MapOperation) : Prop :=
  (∀ key ∈ operation.newKeys, Key key) ∧
    (∀ value ∈ operation.newValues, Keepable m.world.heap value) ∧
      ∀ p, m.env[x]? = some (.struct p.id) → IsMap m.world p →
        (∀ keys, IsArray m.world.heap p.keysId p.keysHandle keys → keys.length < 2 ^ 63) ∧
          Quiet ctx fuel path m.world (inputsOf p (routineOf operation) (argsOf operation))
            (instanceRoutine p.keyType p.valueType (routineOf operation))

/-- An operation of a client on an array would leave its elements as they are. -/
def Harmless (m : Machine S) (y : String) (method : Method) : Prop :=
  (∀ value ∈ method.operation.operands, Keepable m.world.heap value) ∧
    ∀ id handle elements, m.env[y]? = some (.struct id) → IsArray m.world.heap id handle elements →
      ∀ reply left, method.operation.run elements = some (reply, left) → left = elements

def Fits (path : String) (m : Machine S) : Command → Prop
  | .call x operation => CallFits ctx fuel path m x operation
  | .array y method => Harmless m y method
  | .search _ _ value => Keepable m.world.heap value
  | _ => True

/-- Every step of the run meets the condition. -/
def Admissible (path : String) (m : Machine S) : List Command → Prop
  | [] => True
  | command :: program =>
    Fits ctx fuel path m command ∧ Admissible path (step ctx fuel m command).2 program

end Interpreter

end FalconLib.Libs.Map
