import Mathlib.Data.Finset.Lattice.Lemmas
import Mathlib.Data.Finset.Dedup
import FalconLib.Base.StdMap
import FalconLib.Parser.Syntax

/-!
# The tables of the parser

The scope sets and flags are globals of the process. Nothing but the functions below
changes them, and `parse_file` resets none of them except the known types.
-/

namespace FalconLib.Parser

open FalconLib.Base (StdMap)

/-- The globals that an action may read. `module_known_types` stays empty and
`routine_input_params` and `parsing_routine_params` are never read. -/
structure Tables where
  autotunerScope : Finset String := ∅
  autotunerInputParams : Finset String := ∅
  autotunerOutputParams : Finset String := ∅
  stateLocalScope : Finset String := ∅
  stateInputParams : Finset String := ∅
  inStateBody : Bool := false
  structKnownTypes : Finset String := ∅
  structFieldScope : Finset String := ∅
  currentGenericParams : Finset String := ∅
  structGenericParamsMap : StdMap (List String) := ∅
  inStructRoutine : Bool := false

namespace Tables

def clearStateScope (t : Tables) : Tables :=
  { t with stateLocalScope := ∅, stateInputParams := ∅ }

def clearAutotunerScope (t : Tables) : Tables :=
  { t.clearStateScope with
    autotunerScope := ∅, autotunerInputParams := ∅, autotunerOutputParams := ∅ }

/-- All scopes but that of the autotuner are cleared. -/
def enterStructRoutine (t : Tables) : Tables :=
  { t.clearStateScope with
    inStructRoutine := true, autotunerInputParams := ∅, autotunerOutputParams := ∅ }

def leaveStructRoutine (t : Tables) : Tables :=
  { t.enterStructRoutine with inStructRoutine := false }

def isVariableDeclared (t : Tables) (name : String) : Bool :=
  (t.inStructRoutine && name ∈ t.structFieldScope) || name ∈ t.autotunerScope ||
    name ∈ t.autotunerInputParams || name ∈ t.autotunerOutputParams ||
    name ∈ t.stateLocalScope || name ∈ t.stateInputParams

def isRedeclaration (t : Tables) (name : String) (inState : Bool) : Bool :=
  name ∈ t.autotunerScope || name ∈ t.autotunerInputParams ||
    name ∈ t.autotunerOutputParams ||
    (inState && (name ∈ t.stateInputParams || name ∈ t.stateLocalScope))

/-- The test that precedes the report of an assignment to a parameter. -/
def isReadOnly (t : Tables) (name : String) : Bool :=
  name ∈ t.autotunerInputParams || name ∈ t.stateInputParams

/-- A routine of a struct does not record its variables. -/
def declare (t : Tables) (name : String) : Tables :=
  if t.inStructRoutine then t
  else if t.inStateBody then { t with stateLocalScope := insert name t.stateLocalScope }
  else { t with autotunerScope := insert name t.autotunerScope }

def addInputs (t : Tables) (names : List String) : Tables :=
  { t with autotunerInputParams := t.autotunerInputParams ∪ names.toFinset }

def addOutputs (t : Tables) (names : List String) : Tables :=
  { t with autotunerOutputParams := t.autotunerOutputParams ∪ names.toFinset }

def enterState (t : Tables) : Tables := { t.clearStateScope with inStateBody := true }

def addStateParams (t : Tables) (names : List String) : Tables :=
  { t with stateInputParams := t.stateInputParams ∪ names.toFinset }

def leaveState (t : Tables) : Tables := { t with inStateBody := false }

/-- A struct is known from its opening brace on. -/
def enterStruct (t : Tables) (name : String) (genericParams : List String) : Tables :=
  { t with
    structFieldScope := ∅
    structKnownTypes := insert name t.structKnownTypes
    currentGenericParams := genericParams.toFinset
    structGenericParamsMap := t.structGenericParamsMap.assign name genericParams }

def addField (t : Tables) (name : String) : Tables :=
  { t with structFieldScope := insert name t.structFieldScope }

def leaveStruct (t : Tables) : Tables :=
  { t with currentGenericParams := ∅, structFieldScope := ∅ }

end Tables

end FalconLib.Parser
