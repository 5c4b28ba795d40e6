import FalconLib.Dsl.RoutineRuns
import FalconLib.Libs.ArrayMachine

/-!
# Searches in arrays, and array calls in a routine

`Contains` and `IndexOf` compare an element with the value that was sent, and change nothing.
Where the body of a routine calls a method of an array that a variable holds, the call is the
one that the host gets.
-/

namespace FalconLib.Libs.Array

open FalconLib.Base (Comp StdMap)
open FalconLib.Dsl
open FalconLib.Dsl.RoutineRuns
open FalconLib.Typing.FFI
open ExprEvaluator (evaluate evaluateList)

/-! ## The functions -/

/-- `*fields == *other.fields` on maps in the order of their keys. -/
def entriesEqual (heap : Heap) :
    List (String × RuntimeValue) → List (String × RuntimeValue) → Bool
  | [], [] => true
  | (k, value) :: lhs, (k', value') :: rhs =>
    k == k' && valuesEqual heap value value' && entriesEqual heap lhs rhs
  | _, _ => false

/-- `operator==` of `StructInstance`. -/
def instancesEqual (heap : Heap) (lhs rhs : StructInstance) : Bool :=
  lhs.typeName == rhs.typeName && entriesEqual heap lhs.fields.toList rhs.fields.toList

/-- The comparison of `IndexOf`: two instances are compared by their contents. -/
def elementMatches (heap : Heap) : RuntimeValue → RuntimeValue → Bool
  | .struct i, .struct j =>
    match heap.structs[i]?, heap.structs[j]? with
    | some lhs, some rhs => instancesEqual heap lhs rhs
    | _, _ => false
  | element, needle => valuesEqual heap element needle

/-- A function that looks through the elements for `value`. -/
def searching (answer : Heap → List RuntimeValue → RuntimeValue → RuntimeValue) : FalconFFIFunc :=
  fun entries slots _ => do
    let params ← unpackParams entries ∅
    let (_, elements) ← getArray entries
    let needle ← paramAt params "value"
    let heap ← Comp.gets id
    packOne (answer heap elements needle) slots

def answerContains (heap : Heap) (elements : List RuntimeValue) (needle : RuntimeValue) : RuntimeValue :=
  .bool (elements.any fun element => valuesEqual heap element needle)

def answerIndexOf (heap : Heap) (elements : List RuntimeValue) (needle : RuntimeValue) : RuntimeValue :=
  match elements.findIdx? fun element => elementMatches heap element needle with
  | some i => .int (Int64.ofNat i)
  | none => .int (-1)

def contains : FalconFFIFunc := searching answerContains

def indexOf : FalconFFIFunc := searching answerIndexOf

/-- The searches, as methods of the declaration. -/
inductive Search where
  | contains
  | indexOf

namespace Search

def name : Search → String
  | contains => "Contains"
  | indexOf => "IndexOf"

def answer : Search → Heap → List RuntimeValue → RuntimeValue → RuntimeValue
  | contains => answerContains
  | indexOf => answerIndexOf

def function : Search → FalconFFIFunc
  | contains => Array.contains
  | indexOf => Array.indexOf

end Search

/-- The library at `path` has the searches, and the registry knows them. -/
structure Searchable {S : Type} (host : Host S) (types : TypeRegistry) (path : String) : Prop where
  opened : ∀ search : Search, Implements host (symbol path search.name) search.function
  registered : ∀ search : Search,
    types.ffiMethods["Array"]?.bind (fun methods => methods[search.name]?) =
      some (symbol path search.name)

/-! ## What the searches answer -/

theorem searching_outcome {heap : Heap} {id handle : Nat} {elements : List RuntimeValue}
    (h : IsArray heap id handle elements) {value : RuntimeValue} (hv : Plain heap value)
    {answer : Heap → List RuntimeValue → RuntimeValue → RuntimeValue}
    (ha : Plain (received heap handle) (answer (received heap handle) elements value)) :
    (callForeign (searching answer) (paramsOf id none (some value)) heap).outcome =
      .ok [answer (received heap handle) elements value] (received heap handle) := by
  apply callForeign_packOne ha
  rw [packParams_paramsOf h]
  refine (unpack_bind h none (plain_some hv) _).trans ?_
  dsimp only
  rw [paramAt_received]
  rfl

theorem search_outcome {heap : Heap} {id handle : Nat} {elements : List RuntimeValue}
    (h : IsArray heap id handle elements) (search : Search) {value : RuntimeValue}
    (hv : Plain heap value) :
    (callForeign search.function (paramsOf id none (some value)) heap).outcome =
      .ok [search.answer (received heap handle) elements value] (received heap handle) := by
  cases search with
  | contains => exact searching_outcome h hv trivial
  | indexOf =>
    refine searching_outcome h hv ?_
    unfold answerIndexOf
    cases elements.findIdx? _ <;> trivial

/-- A value that is compared by its contents. -/
def Scalar : RuntimeValue → Prop
  | .int _ | .bool _ | .string _ => True
  | _ => False

theorem valuesEqual_scalar (heap : Heap) (element : RuntimeValue) {needle : RuntimeValue}
    (h : Scalar needle) : valuesEqual heap element needle = (element == needle) := by
  cases needle with
  | int a =>
    cases element with
    | int b => exact (Function.Injective.beq_eq fun _ _ => RuntimeValue.int.inj).symm
    | _ => rfl
  | bool a =>
    cases element with
    | bool b => exact (Function.Injective.beq_eq fun _ _ => RuntimeValue.bool.inj).symm
    | _ => rfl
  | string a =>
    cases element with
    | string b => exact (Function.Injective.beq_eq fun _ _ => RuntimeValue.string.inj).symm
    | _ => rfl
  | _ => exact h.elim

theorem elementMatches_scalar (heap : Heap) (element : RuntimeValue) {needle : RuntimeValue}
    (h : Scalar needle) : elementMatches heap element needle = (element == needle) := by
  rw [← valuesEqual_scalar heap element h]
  cases needle with
  | struct j => exact h.elim
  | _ => cases element <;> rfl

theorem contains_scalar (heap : Heap) (elements : List RuntimeValue) {needle : RuntimeValue}
    (h : Scalar needle) :
    Search.contains.answer heap elements needle = .bool (decide (needle ∈ elements)) := by
  change RuntimeValue.bool (elements.any _) = _
  congr 1
  rw [Bool.eq_iff_iff, List.any_eq_true, decide_eq_true_iff]
  simp only [valuesEqual_scalar heap _ h, beq_iff_eq, exists_eq_right]

theorem indexOf_scalar (heap : Heap) (elements : List RuntimeValue) {needle : RuntimeValue}
    (h : Scalar needle) :
    Search.indexOf.answer heap elements needle =
      if needle ∈ elements then .int (Int64.ofNat (elements.idxOf needle)) else .int (-1) := by
  have hfind : (elements.findIdx? fun element => elementMatches heap element needle) =
      if needle ∈ elements then some (elements.idxOf needle) else none := by
    simp only [elementMatches_scalar heap _ h]
    by_cases hmem : needle ∈ elements
    · rw [if_pos hmem]
      exact List.findIdx?_eq_some_iff_findIdx_eq.mpr ⟨List.idxOf_lt_length_iff.mpr hmem, rfl⟩
    · rw [if_neg hmem, List.findIdx?_eq_none_iff]
      intro element helement
      exact beq_eq_false_iff_ne.mpr fun he => hmem (he ▸ helement)
  change answerIndexOf heap elements needle = _
  unfold answerIndexOf
  rw [hfind]
  by_cases hmem : needle ∈ elements
  · rw [if_pos hmem, if_pos hmem]
  · rw [if_neg hmem, if_neg hmem]

/-! ## Calls from the body of a routine -/

/-- `x.name(args)`. -/
def callOn (x name : String) (args : List Expr) : Expr := .methodCall {} (.var {} x) name args

section Calls

variable {S : Type} {ctx : Context S} {w : World S} {path : String} {env : ParameterMap}
  {x : String} {id handle : Nat} {elements : List RuntimeValue} {args : List Expr}

/-- A call on a variable with an array is a call of the host. -/
theorem evalMethodCall_outcome (hreg : Registered w.types path) (hx : env[x]? = some (.struct id))
    (h : IsArray w.heap id handle elements) {name : String} {values : List RuntimeValue}
    {params : ParameterMap}
    (hfind : ∀ moduleName, ∃ routine, (arrayDecl moduleName).findRoutine name = some routine ∧
      routine.name = name ∧ routine.body = [] ∧
        StructRoutine.foreignParams true id routine values = params)
    (hs : w.types.ffiMethods["Array"]?.bind (fun methods => methods[name]?) =
      some (symbol path name)) (fuel : Nat) {args : M S (List RuntimeValue)}
    (hargs : (args w).outcome = .ok values w) :
    (ExprEvaluator.evalMethodCall ctx (Machine.handlers ctx fuel) (.own env) {} (.var {} x) name
      (ExprEvaluator.evalVariable (.own env) x) args w).outcome =
      ((runHost (ctx.host.callMethod (symbol path name) (.struct id) params) >>= packResult)
        w).outcome := by
  obtain ⟨moduleName, hdecl⟩ := hreg.declared
  obtain ⟨routine, hroutine, hname, hbody, hparams⟩ := hfind moduleName
  obtain ⟨object, hobject, htype, _⟩ := h.instance_
  unfold ExprEvaluator.evalMethodCall
  refine (Comp.bind_of_ok (staticReceiver_of_bound hx _ w)).trans ?_
  refine (Comp.bind_of_ok (evalVariable_of_bound hx w)).trans ?_
  refine (callOnValue_outcome hobject htype hdecl hroutine _ hargs).trans ?_
  subst hname hparams
  exact foreignRoutine_outcome ctx hreg h moduleName hbody hs values fuel

theorem findRoutine_method (method : Method) (id : Nat) (moduleName : String) :
    ∃ routine, (arrayDecl moduleName).findRoutine method.name = some routine ∧
      routine.name = method.name ∧ routine.body = [] ∧
        StructRoutine.foreignParams true id routine method.args =
          paramsOf id method.index method.value := by
  obtain ⟨routine, hroutine, hname, hbody, hparams⟩ := findRoutine_name moduleName method
  exact ⟨routine, hroutine, hname, hbody, hparams id⟩

theorem findRoutine_search (search : Search) (value : RuntimeValue) (id : Nat)
    (moduleName : String) :
    ∃ routine, (arrayDecl moduleName).findRoutine search.name = some routine ∧
      routine.name = search.name ∧ routine.body = [] ∧
        StructRoutine.foreignParams true id routine [value] = paramsOf id none (some value) := by
  cases search <;> exact ⟨_, rfl, rfl, rfl, rfl⟩

/-- A method call that its operation answers. -/
theorem evaluate_method (hopen : Opened ctx.host path) (hreg : Registered w.types path)
    (hx : env[x]? = some (.struct id)) (h : IsArray w.heap id handle elements)
    {method : Method} (hp : Performs method w.heap id handle elements) (fuel : Nat)
    (hargs : (evaluateList ctx (Machine.handlers ctx fuel) (.own env) args w).outcome =
      .ok method.args w) :
    Answers (evaluate ctx (Machine.handlers ctx fuel) (.own env) (callOn x method.name args)) w
      handle elements method.operation :=
  (answers_hostCall hopen hp).congr (evalMethodCall_outcome hreg hx h (findRoutine_method method id)
    (hreg.method method) fuel hargs)

/-- A search leaves a new instance behind and changes nothing else. -/
theorem evalMethodCall_search (hsearch : Searchable ctx.host w.types path)
    (hreg : Registered w.types path) (hx : env[x]? = some (.struct id))
    (h : IsArray w.heap id handle elements) (search : Search) {value : RuntimeValue}
    (hv : Plain w.heap value) (fuel : Nat) {args : M S (List RuntimeValue)}
    (hargs : (args w).outcome = .ok [value] w) :
    (ExprEvaluator.evalMethodCall ctx (Machine.handlers ctx fuel) (.own env) {} (.var {} x)
      search.name (ExprEvaluator.evalVariable (.own env) x) args w).outcome =
      .ok (search.answer (received w.heap handle) elements value)
        { w with heap := received w.heap handle } := by
  refine (evalMethodCall_outcome hreg hx h (findRoutine_search search value id)
    (hsearch.registered search) fuel hargs).trans ?_
  have hcall := search_outcome h search hv
  exact Comp.bind_of_ok (runHost_of_ok (hsearch.opened search) hcall)

theorem evaluate_search (hsearch : Searchable ctx.host w.types path)
    (hreg : Registered w.types path) (hx : env[x]? = some (.struct id))
    (h : IsArray w.heap id handle elements) (search : Search) {value : RuntimeValue}
    (hv : Plain w.heap value) (fuel : Nat)
    (hargs : (evaluateList ctx (Machine.handlers ctx fuel) (.own env) args w).outcome =
      .ok [value] w) :
    (evaluate ctx (Machine.handlers ctx fuel) (.own env) (callOn x search.name args) w).outcome =
      .ok (search.answer (received w.heap handle) elements value)
        { w with heap := received w.heap handle } :=
  evalMethodCall_search hsearch hreg hx h search hv fuel hargs

end Calls

end FalconLib.Libs.Array
