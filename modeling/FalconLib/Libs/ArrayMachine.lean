import FalconLib.Dsl.InstanceCache
import FalconLib.Dsl.RoutineRuns
import FalconLib.Libs.ArrayCalls

/-!
# Programs over arrays

A program declares variables that hold arrays, calls their methods and indexes them. It runs
on lists in a heap on the one side and on the interpreter on the other.
-/

namespace FalconLib.Libs.Array

open FalconLib.Base (Comp Outcome StdMap)
open FalconLib.Base.ListHeap (Operation Reply perform perform_of_some perform_of_none)
open FalconLib.Dsl
open FalconLib.Typing.FFI
open ExprEvaluator (evaluate evalMethodCall evalVariable)

/-- Operands stand for the values that the arguments evaluate to. -/
inductive Command where
  /-- `Array<T> x = Array.New();` -/
  | new (x : String) (elementType : TypeDescriptor)
  /-- `Array<T> x = y;` -/
  | share (x y : String) (elementType : TypeDescriptor)
  /-- `x.PushBack(value)` and so on. -/
  | call (x : String) (method : Method)
  /-- `x[index]`. -/
  | index (x : String) (index : Int64)

namespace Command

/-- The variable that a command uses. -/
def receiver : Command → Option String
  | new _ _ => none
  | share _ y _ => some y
  | call x _ | index x _ => some x

/-- The variable that it declares. -/
def declared : Command → Option String
  | new x _ | share x _ _ => some x
  | call _ _ | index _ _ => none

def operands : Command → List RuntimeValue
  | call _ method => method.operation.operands
  | _ => []

end Command

/-- A program uses the variables it has declared. -/
def Scoped (declared : List String) : List Command → Prop
  | [] => True
  | command :: program =>
    (∀ x ∈ command.receiver, x ∈ declared) ∧
      Scoped (command.declared.toList ++ declared) program

inductive Observed where
  | returned (value : RuntimeValue)
  | raised
  | stuck
deriving DecidableEq

/-! ## Lists -/

/-- Variables refer to lists. -/
structure Lists where
  lists : List (List RuntimeValue) := []
  refs : StdMap Nat := ∅

namespace Lists

def call (s : Lists) (x : String) (operation : Operation RuntimeValue) : Observed × Lists :=
  match s.refs[x]? with
  | some ref =>
    match perform s.lists ref operation with
    | (some reply, lists) => (.returned (replyValue reply), { s with lists := lists })
    | (none, lists) => (.raised, { s with lists := lists })
  | none => (.stuck, s)

def step (s : Lists) : Command → Observed × Lists
  | .new x _ =>
    (.returned .nil, { lists := s.lists ++ [[]], refs := s.refs.assign x s.lists.length })
  | .share x y _ =>
    match s.refs[y]? with
    | some ref => (.returned .nil, { s with refs := s.refs.assign x ref })
    | none => (.stuck, s)
  | .call x method => s.call x method.operation
  | .index x index => s.call x (.getIndex index.toInt)

/-- What a program observes, and the lists it leaves. -/
def run (s : Lists) : List Command → List Observed × Lists
  | [] => ([], s)
  | command :: program =>
    let (observed, s) := s.step command
    let (observations, s) := s.run program
    (observed :: observations, s)

end Lists

/-! ## The interpreter -/

structure Machine (S : Type) where
  world : World S
  env : ParameterMap := ∅

namespace Machine

variable {S : Type} (ctx : Context S) (fuel : Nat)

def handlers : Handlers S := Interpreter.handlers ctx (fuel + 1)

def arrayType (elementType : TypeDescriptor) : TypeDescriptor :=
  .makeGenericStruct "Array" [elementType]

/-- `Array.New()`. -/
def newCall : Expr := .methodCall {} (.var {} "Array") "New" []

def declaration (x : String) (elementType : TypeDescriptor) (initializer : Expr) : VarDeclStmt :=
  { type := arrayType elementType, name := x, initializer := some initializer }

/-- The machine after a declaration. -/
def declare (m : Machine S) (stmt : VarDeclStmt) : Observed × Machine S :=
  match (StmtExecutor.execVarDecl ctx (handlers ctx fuel) (.own m.env) stmt m.world).outcome with
  | .ok (.own env) world => (.returned .nil, { world := world, env := env })
  | .throw _ world => (.raised, { m with world := world })
  | _ => (.stuck, m)

/-- The machine after an expression. -/
def observe (m : Machine S) (expression : M S RuntimeValue) : Observed × Machine S :=
  match (expression m.world).outcome with
  | .ok value world => (.returned value, { m with world := world })
  | .throw _ world => (.raised, { m with world := world })
  | .halt _ => (.stuck, m)

/-- The call of a method on a variable, with arguments of given values. -/
def methodCall (m : Machine S) (x : String) (method : Method) : M S RuntimeValue :=
  evalMethodCall ctx (handlers ctx fuel) (.own m.env) {} (.var {} x) method.name
    (evalVariable (.own m.env) x) (pure method.args)

def step (m : Machine S) : Command → Observed × Machine S
  | .new x elementType => m.declare ctx fuel (declaration x elementType newCall)
  | .share x y elementType => m.declare ctx fuel (declaration x elementType (.var {} y))
  | .call x method => m.observe (m.methodCall ctx fuel x method)
  | .index x index =>
    m.observe <| evaluate ctx (handlers ctx fuel) (.own m.env) <|
      .index {} (.var {} x) (.literal {} (.int index))

def run (m : Machine S) : List Command → List Observed × Machine S
  | [] => ([], m)
  | command :: program =>
    let (observed, m) := m.step ctx fuel command
    let (observations, m) := m.run program
    (observed :: observations, m)

end Machine

/-! ## Lookups of arrays -/

section Lookups

variable {S : Type} {w : World S} {path : String}

theorem lookupStruct_of_some {name : String} {decl : StructDecl}
    (h : w.types.structRegistry[name]? = some decl) :
    (lookupStruct name w).outcome = .ok (some decl) w := by
  have hlookup := RoutineRuns.lookupStruct_outcome name w
  unfold RoutineRuns.found at hlookup
  rw [h, Option.some_or] at hlookup
  exact hlookup

theorem exists_lookupStruct (name : String) (w : World S) :
    ∃ found, (lookupStruct name w).outcome = .ok found w :=
  ⟨_, RoutineRuns.lookupStruct_outcome name w⟩

theorem exists_lookupReceiver (name : String) (w : World S) :
    ∃ found, (ExprEvaluator.lookupReceiver name w).outcome = .ok found w := by
  obtain ⟨found, hfound⟩ := exists_lookupStruct name w
  unfold ExprEvaluator.lookupReceiver
  rw [Comp.bind_of_ok hfound]
  cases found with
  | some decl => exact ⟨some decl, rfl⟩
  | none =>
    by_cases hq : isQualified name
    · dsimp only
      rw [if_pos hq]
      exact exists_lookupStruct _ w
    · dsimp only
      rw [if_neg hq]
      exact ⟨none, rfl⟩

/-- A name that is bound is no static receiver. -/
theorem staticReceiver_of_bound {env : ParameterMap} {x : String} {value : RuntimeValue}
    (h : env[x]? = some value) (info : ExprInfo) (w : World S) :
    (ExprEvaluator.staticReceiver (.own env) info (.var {} x) w).outcome = .ok none w := by
  obtain ⟨found, hfound⟩ :=
    exists_lookupReceiver (ExprEvaluator.injectedReceiver info x).1 w
  unfold ExprEvaluator.staticReceiver
  refine (Comp.bind_of_ok hfound).trans ?_
  rw [Comp.outcome_gets_bind]
  cases found with
  | none => rfl
  | some decl =>
    have hbound : (env[x]?.isNone && env[stripModulePrefix x]?.isNone) = false := by
      rw [h]
      rfl
    change ((if (env[x]?.isNone && env[stripModulePrefix x]?.isNone) = true then _ else _ : M S _)
      w).outcome = _
    rw [if_neg (by rw [hbound]; exact Bool.false_ne_true)]
    rfl

theorem evalVariable_of_bound {env : ParameterMap} {x : String} {value : RuntimeValue}
    (h : env[x]? = some value) (w : World S) :
    (evalVariable (.own env) x w).outcome = .ok value w := by
  unfold ExprEvaluator.evalVariable
  rw [Comp.outcome_gets_bind]
  dsimp only [Variables.read]
  rw [h]
  rfl

/-- The name of the struct or of one of its instances. -/
def ArrayName (name : String) : Prop :=
  name = "Array" ∨ ∃ args, name = TypeDescriptor.instanceName "Array" args

theorem genericBase_instanceName (args : List TypeDescriptor) :
    genericBase (TypeDescriptor.instanceName "Array" args) = some "Array" := by
  have hbase := baseName_instanceName "Array" args
  unfold baseName genericBase at hbase
  unfold genericBase
  rw [if_pos (mem_instanceName "Array" args)] at hbase ⊢
  exact congrArg some hbase

theorem ffiMethodOrBase_outcome (h : Registered w.types path) {typeName name : String}
    (ht : ArrayName typeName) {target : ForeignSymbol}
    (hs : w.types.ffiMethods["Array"]?.bind (fun methods => methods[name]?) = some target) :
    (ExprEvaluator.ffiMethodOrBase typeName name w).outcome = .ok (some target) w := by
  have hbase := registeredFfiMethod_outcome "Array" name w
  rw [hs] at hbase
  have hlookup : (lookupFfiMethod typeName name w).outcome = .ok (some target) w := by
    rcases ht with rfl | ⟨args, rfl⟩
    · exact Comp.bind_of_ok hbase
    · have hnone := registeredFfiMethod_outcome (TypeDescriptor.instanceName "Array" args) name w
      rw [h.instances args] at hnone
      unfold lookupFfiMethod
      refine (Comp.bind_of_ok hnone).trans ?_
      rw [genericBase_instanceName]
      exact hbase
  exact Comp.bind_of_ok hlookup

end Lookups

/-! ## Calls of routines -/

section Routines

variable {S : Type} {ctx : Context S} {w : World S} {path : String} {target : ForeignSymbol}
  {function : FalconFFIFunc}

theorem runHost_of_ok (h : Implements ctx.host target function) {receiver : RuntimeValue}
    {params : ParameterMap} {values : FunctionResult} {heap : Heap}
    (hc : (callForeign function params w.heap).outcome = .ok values heap) :
    (runHost (ctx.host.callMethod target receiver params) w).outcome =
      .ok values { w with heap := heap } := by
  have hcall := h receiver params w.heap w.store
  rw [hc] at hcall
  exact runHost_outcome hcall

theorem runHost_of_throw (h : Implements ctx.host target function) {receiver : RuntimeValue}
    {params : ParameterMap} {e : Exception} {heap : Heap}
    (hc : (callForeign function params w.heap).outcome = .throw e heap) :
    (runHost (ctx.host.callMethod target receiver params) w).outcome =
      .throw e { w with heap := heap } := by
  have hcall := h receiver params w.heap w.store
  rw [hc] at hcall
  exact runHost_outcome hcall

/-- A routine of the array library is a call of the host. -/
theorem execStructRoutine_outcome (ctx : Context S) (h : Registered w.types path) {decl : StructDecl}
    {routine : RoutineDecl} (hd : ArrayName decl.name) (hb : routine.body = [])
    (hs : w.types.ffiMethods["Array"]?.bind (fun methods => methods[routine.name]?) = some target)
    (fuel receiver : Nat) (args : List RuntimeValue) :
    ((Machine.handlers ctx fuel).execStructRoutine receiver decl routine args w).outcome =
      (runHost (ctx.host.callMethod target (.struct receiver)
        (StructRoutine.foreignParams
          ((w.heap.structs[receiver]?.bind StructInstance.nativeHandle).isSome) receiver routine
          args)) w).outcome := by
  change (StructRoutine.execStructRoutine _ _ _ _ _ _ w).outcome = _
  unfold StructRoutine.execStructRoutine
  rw [hb, if_pos List.isEmpty_nil]
  unfold StructRoutine.execForeign
  refine (Comp.bind_of_ok (ffiMethodOrBase_outcome h hd hs)).trans ?_
  rfl

/-- An expression answers like an operation on the elements behind a handle. -/
def Answers (expression : M S RuntimeValue) (w : World S) (handle : Nat)
    (elements : List RuntimeValue) (operation : Operation RuntimeValue) : Prop :=
  match operation.run elements with
  | some (reply, left) => ∃ heap,
    (expression w).outcome = .ok (replyValue reply) { w with heap := heap } ∧
      Leaves w.heap heap handle left
  | none => ∃ e heap,
    (expression w).outcome = .throw e { w with heap := heap } ∧
      Leaves w.heap heap handle elements

theorem Answers.congr {expression expression' : M S RuntimeValue} {handle : Nat}
    {elements : List RuntimeValue} {operation : Operation RuntimeValue}
    (h : Answers expression w handle elements operation)
    (he : (expression' w).outcome = (expression w).outcome) :
    Answers expression' w handle elements operation := by
  unfold Answers at h ⊢
  rw [he]
  exact h

theorem findRoutine_name (moduleName : String) (method : Method) :
    ∃ routine, (arrayDecl moduleName).findRoutine method.name = some routine ∧
      routine.name = method.name ∧ routine.body = [] ∧ ∀ receiver,
        StructRoutine.foreignParams true receiver routine method.args =
          paramsOf receiver method.index method.value := by
  cases method <;> exact ⟨_, rfl, rfl, rfl, fun _ => rfl⟩

variable {id handle : Nat} {elements : List RuntimeValue} {method : Method}

theorem isSome_nativeHandle (h : IsArray w.heap id handle elements) :
    (w.heap.structs[id]?.bind StructInstance.nativeHandle).isSome = true := by
  obtain ⟨object, hobject, _, hhandle⟩ := h.instance_
  rw [hobject, Option.bind_some, hhandle]
  rfl

/-- The call of a method, as the host gets it. -/
def hostCall (ctx : Context S) (path : String) (id : Nat) (method : Method) : M S RuntimeValue :=
  runHost (ctx.host.callMethod (symbol path method.name) (.struct id)
    (paramsOf id method.index method.value)) >>= packResult

/-- A routine without a body on an array is a call of the host. -/
theorem foreignRoutine_outcome (ctx : Context S) (hreg : Registered w.types path)
    (h : IsArray w.heap id handle elements) (moduleName : String) {routine : RoutineDecl}
    (hbody : routine.body = [])
    (hs : w.types.ffiMethods["Array"]?.bind (fun methods => methods[routine.name]?) = some target)
    (args : List RuntimeValue) (fuel : Nat) :
    (((Machine.handlers ctx fuel).execStructRoutine id (arrayDecl moduleName) routine
      args >>= packResult) w).outcome =
      ((runHost (ctx.host.callMethod target (.struct id)
        (StructRoutine.foreignParams true id routine args)) >>= packResult) w).outcome := by
  have hd : ArrayName (arrayDecl moduleName).name := .inl rfl
  have hexec := execStructRoutine_outcome ctx hreg hd hbody hs fuel id args
  rw [isSome_nativeHandle h] at hexec
  rw [Comp.outcome_bind, Comp.outcome_bind, hexec]

theorem routine_outcome (ctx : Context S) (hreg : Registered w.types path)
    (h : IsArray w.heap id handle elements) (moduleName : String) {routine : RoutineDecl}
    (hname : routine.name = method.name) (hbody : routine.body = [])
    (hparams : StructRoutine.foreignParams true id routine method.args =
      paramsOf id method.index method.value) (fuel : Nat) :
    (((Machine.handlers ctx fuel).execStructRoutine id (arrayDecl moduleName) routine
      method.args >>= packResult) w).outcome = (hostCall ctx path id method w).outcome := by
  have hs : w.types.ffiMethods["Array"]?.bind (fun methods => methods[routine.name]?) =
      some (symbol path method.name) := by
    rw [hname]
    exact hreg.method method
  have hforeign := foreignRoutine_outcome ctx hreg h moduleName hbody hs method.args fuel
  rw [hparams] at hforeign
  exact hforeign

/-- The host answers like the operation. -/
theorem answers_hostCall (hopen : Opened ctx.host path)
    (hp : Performs method w.heap id handle elements) :
    Answers (hostCall ctx path id method) w handle elements method.operation := by
  unfold Performs at hp
  unfold Answers
  cases hrun : method.operation.run elements with
  | some result =>
    rw [hrun] at hp
    obtain ⟨heap, hcall, hleaves⟩ := hp
    refine ⟨heap, ?_, hleaves⟩
    exact Comp.bind_of_ok (runHost_of_ok (hopen.method method) hcall)
  | none =>
    rw [hrun] at hp
    obtain ⟨e, heap, hcall, hleaves⟩ := hp
    refine ⟨e, heap, ?_, hleaves⟩
    exact Comp.bind_of_throw (runHost_of_throw (hopen.method method) hcall)

/-- A call on an instance whose struct is the array runs the routine. -/
theorem callOnValue_outcome {object : StructInstance} (hobject : w.heap.structs[id]? = some object)
    (htype : object.typeName = "Array") {moduleName : String}
    (hdecl : w.types.structRegistry["Array"]? = some (arrayDecl moduleName)) {name : String}
    {routine : RoutineDecl} (hfind : (arrayDecl moduleName).findRoutine name = some routine)
    (h : Handlers S) {args : M S (List RuntimeValue)} {values : List RuntimeValue}
    (hargs : (args w).outcome = .ok values w) :
    (ExprEvaluator.callOnValue ctx h (.struct id) name args w).outcome =
      ((h.execStructRoutine id (arrayDecl moduleName) routine values >>= packResult) w).outcome := by
  have hfound : RoutineRuns.found w.types object.typeName = some (arrayDecl moduleName) := by
    unfold RoutineRuns.found
    rw [htype, hdecl, Option.some_or]
  exact RoutineRuns.callOnValue_outcome hobject hfound hfind hargs

theorem indexStruct_outcome {moduleName : String}
    (hdecl : w.types.structRegistry["Array"]? = some (arrayDecl moduleName))
    {routine : RoutineDecl} (hfind : (arrayDecl moduleName).findRoutine "GetIndex" = some routine)
    (h : Handlers S) (index : RuntimeValue) :
    (ExprEvaluator.indexStruct ctx h id "Array" index w).outcome =
      ((h.execStructRoutine id (arrayDecl moduleName) routine [index] >>= packResult) w).outcome := by
  have hlookup := lookupStruct_of_some hdecl
  unfold ExprEvaluator.indexStruct
  rw [Comp.bind_of_ok hlookup]
  dsimp only
  rw [hfind]

end Routines

/-! ## New arrays -/

section New

variable {S : Type} {ctx : Context S} {w : World S} {path : String}

/-- The heap with one more array, and an instance for it. -/
def created (heap : Heap) : Heap :=
  (Heap.allocStruct
    { heap with arrays := heap.arrays ++ [{ elementTypeName := "", elements := [] }] }
    { typeName := "Array", nativeHandle := some heap.arrays.length }).2

theorem callForeign_new (params : ParameterMap) (heap : Heap) :
    (callForeign new params heap).outcome = .ok [.struct heap.structs.length] (created heap) := rfl

/-- From one world to the other there is one more array, and `id` is an instance for it. -/
structure Creates (path : String) (w w' : World S) (id : Nat) : Prop where
  registered : Registered w'.types path
  structs : w.heap.structs <+: w'.heap.structs
  instance_ : w'.heap.structs[id]? =
    some { typeName := "Array", nativeHandle := some w.heap.arrays.length }
  arrays : w'.heap.arrays = w.heap.arrays ++ [{ elementTypeName := "", elements := [] }]

/-- The registry has got instances of the array and nothing else. -/
structure ArraysAdded (types types' : TypeRegistry) : Prop where
  structs : ∀ name, genericBase name ≠ some "Array" →
    types'.structRegistry[name]? = types.structRegistry[name]?
  instances : ∀ (name : String) (decl : StructDecl), types.structRegistry[name]? = some decl →
    types'.structRegistry[name]? = some decl
  methods : types'.ffiMethods = types.ffiMethods

theorem ArraysAdded.refl (types : TypeRegistry) : ArraysAdded types types :=
  ⟨fun _ _ => rfl, fun _ _ h => h, rfl⟩

theorem ArraysAdded.trans {types₁ types₂ types₃ : TypeRegistry} (h₁ : ArraysAdded types₁ types₂)
    (h₂ : ArraysAdded types₂ types₃) : ArraysAdded types₁ types₃ :=
  ⟨fun name hn => (h₂.structs name hn).trans (h₁.structs name hn),
    fun name decl hd => h₂.instances name decl (h₁.instances name decl hd),
    h₂.methods.trans h₁.methods⟩

/-- The routine `New` makes a new array, whatever its receiver is. -/
theorem exists_creates (hopen : Opened ctx.host path) (hreg : Registered w.types path)
    {decl : StructDecl} {routine : RoutineDecl} (hd : ArrayName decl.name)
    (hname : routine.name = "New") (hbody : routine.body = []) (fuel receiver : Nat)
    (args : List RuntimeValue) :
    ∃ id w', (((Machine.handlers ctx fuel).execStructRoutine receiver decl routine args >>=
      packResult) w).outcome = .ok (.struct id) w' ∧ Creates path w w' id ∧
        w'.types = w.types := by
  have hs : w.types.ffiMethods["Array"]?.bind (fun methods => methods[routine.name]?) =
      some (symbol path "New") := by
    rw [hname]
    exact hreg.new
  have hexec := execStructRoutine_outcome ctx hreg hd hbody hs fuel receiver args
  refine ⟨w.heap.structs.length, { w with heap := created w.heap }, ?_, ⟨hreg,
    List.prefix_append _ _, List.getElem?_concat_length, rfl⟩, rfl⟩
  exact Comp.bind_of_ok (hexec.trans (runHost_of_ok hopen.new (callForeign_new _ w.heap)))

/-- An instance of the array has the routine `New` and no fields. -/
theorem instance_new {name : String} {arg : TypeDescriptor} {decl : StructDecl}
    (h : monomorphize (arrayDecl "") name [arg] = .ok decl) :
    decl.name = name ∧ decl.fields = [] ∧ ∃ routine, decl.findRoutine "New" = some routine ∧
      routine.name = "New" ∧ routine.body = [] := by
  have hlength : (arrayDecl "").genericParams.length = [arg].length := rfl
  unfold monomorphize at h
  rw [if_pos hlength] at h
  cases h
  exact ⟨rfl, rfl, _, rfl, rfl, rfl⟩

/-- Once an instance is registered the registry still answers the same about arrays. -/
theorem Registered.registerMonomorphizedStruct {types : TypeRegistry} (h : Registered types path)
    {type : TypeDescriptor} {decl : StructDecl}
    (hd : monomorphize (arrayDecl "") (TypeDescriptor.instanceName "Array" [type]) [type] =
      .ok decl) :
    Registered (types.registerMonomorphizedStruct (TypeDescriptor.instanceName "Array" [type])
      decl) path := by
  have hne : TypeDescriptor.instanceName "Array" [type] ≠ "Array" := by
    intro he
    have hbase := genericBase_instanceName [type]
    rw [he] at hbase
    exact absurd hbase (by decide)
  refine ⟨?_, h.new, h.method, h.instances, ?_⟩
  · obtain ⟨moduleName, hdecl⟩ := h.declared
    exact ⟨moduleName, (StdMap.getElem?_assign_ne _ _ hne).trans hdecl⟩
  · intro other found hfound
    change (types.structRegistry.assign (TypeDescriptor.instanceName "Array" [type]) decl)[
      TypeDescriptor.instanceName "Array" [other]]? = some found at hfound
    by_cases hsame : TypeDescriptor.instanceName "Array" [type] =
        TypeDescriptor.instanceName "Array" [other]
    · rw [← hsame, StdMap.getElem?_assign_self] at hfound
      cases hfound
      exact ⟨type, hsame ▸ hd⟩
    · rw [StdMap.getElem?_assign_ne _ _ hsame] at hfound
      exact h.cached other found hfound

/-- The instance for a declaration, from the cache or new. -/
theorem exists_instantiate (hreg : Registered w.types path) (moduleName : String)
    (type : TypeDescriptor) :
    ∃ decl types, (ExprEvaluator.instantiate (arrayDecl moduleName) [type] w).outcome =
        .ok decl { w with types := types } ∧ Registered types path ∧
      ArraysAdded w.types types ∧ decl.fields = [] ∧ ArrayName decl.name ∧
        ∃ routine, decl.findRoutine "New" = some routine ∧
          routine.name = "New" ∧ routine.body = [] := by
  have hinstance : ∃ decl types, (ExprEvaluator.instantiate (arrayDecl moduleName) [type]
      w).outcome = .ok decl { w with types := types } ∧ Registered types path ∧
      ArraysAdded w.types types ∧
      ∃ arg, monomorphize (arrayDecl "") (TypeDescriptor.instanceName "Array" [type]) [arg] =
        .ok decl := by
    change ∃ decl types, InstanceCache.call w (arrayDecl moduleName) [type] = _ ∧ _
    cases hc : w.types.structRegistry[TypeDescriptor.instanceName "Array" [type]]? with
    | some decl =>
      exact ⟨decl, w.types, InstanceCache.call_of_some hc, hreg, ArraysAdded.refl _,
        hreg.cached type decl hc⟩
    | none =>
      have hmono : ∃ decl, monomorphize (arrayDecl "")
          (TypeDescriptor.instanceName "Array" [type]) [type] = .ok decl := ⟨_, rfl⟩
      obtain ⟨decl, hdecl⟩ := hmono
      have hown : InstanceCache.instanceOf (arrayDecl moduleName) [type] = .ok decl := hdecl
      have hadded : ArraysAdded w.types (w.types.registerMonomorphizedStruct
          (TypeDescriptor.instanceName "Array" [type]) decl) := by
        refine ⟨fun name hname => ?_, fun name found hfound => ?_, rfl⟩
        · refine StdMap.getElem?_assign_ne _ _ fun he => hname ?_
          rw [← he, genericBase_instanceName]
        · exact StdMap.getElem?_assign_of_new hc hfound _
      exact ⟨decl, _, InstanceCache.call_of_ok hc hown, hreg.registerMonomorphizedStruct hdecl,
        hadded, type, hdecl⟩
  obtain ⟨decl, types, houtcome, hregistered, hadded, arg, hmono⟩ := hinstance
  obtain ⟨hname, hfields, hroutine⟩ := instance_new hmono
  exact ⟨decl, types, houtcome, hregistered, hadded, hfields, .inr ⟨[type], hname⟩, hroutine⟩

/-- While no variable has its name, the struct itself is the receiver of `Array.New()`. -/
theorem staticReceiver_new {moduleName : String}
    (hdecl : w.types.structRegistry["Array"]? = some (arrayDecl moduleName)) {env : ParameterMap}
    (henv : env["Array"]? = none) {info : ExprInfo} {type : TypeDescriptor}
    (hinfo : info.inferredType = some (Machine.arrayType type)) :
    (ExprEvaluator.staticReceiver (.own env) info (.var {} "Array") w).outcome =
      .ok (some (arrayDecl moduleName, [type])) w := by
  have hinjected : ExprEvaluator.injectedReceiver info "Array" = ("Array", [type]) := by
    unfold ExprEvaluator.injectedReceiver
    rw [hinfo]
    change ((genericBase (TypeDescriptor.instanceName "Array" [type])).getD "Array", [type]) = _
    rw [genericBase_instanceName]
    rfl
  have hlookup : (ExprEvaluator.lookupReceiver "Array" w).outcome =
      .ok (some (arrayDecl moduleName)) w := Comp.bind_of_ok (lookupStruct_of_some hdecl)
  have hunbound : (env["Array"]?.isNone && env[stripModulePrefix "Array"]?.isNone) = true := by
    have hstrip : stripModulePrefix "Array" = "Array" := by decide
    rw [hstrip, henv]
    rfl
  unfold ExprEvaluator.staticReceiver
  dsimp only
  rw [hinjected]
  refine (Comp.bind_of_ok hlookup).trans ?_
  rw [Comp.outcome_gets_bind]
  change ((if (env["Array"]?.isNone && env[stripModulePrefix "Array"]?.isNone) = true then _
    else _ : M S _) w).outcome = _
  rw [if_pos hunbound]
  rfl

theorem callStatic_new (hopen : Opened ctx.host path) (hreg : Registered w.types path)
    (moduleName : String) (type : TypeDescriptor) (fuel : Nat) (vars : Variables) :
    ∃ id w', (ExprEvaluator.callStatic (Machine.handlers ctx fuel) vars (arrayDecl moduleName)
      [type] "New" (pure []) w).outcome = .ok (.struct id) w' ∧ Creates path w w' id ∧
        ArraysAdded w.types w'.types := by
  obtain ⟨decl, types, hinst, htypes, hadded, hfields, hd, routine, hfind, hname, hbody⟩ :=
    exists_instantiate hreg moduleName type
  let received : World S := { w with
    types := types
    heap := (w.heap.allocStruct { typeName := decl.name }).2 }
  have hreceiver : (ExprEvaluator.constructReceiver (Machine.handlers ctx fuel) vars decl
      { w with types := types }).outcome = .ok w.heap.structs.length received := by
    unfold ExprEvaluator.constructReceiver
    rw [hfields]
    rfl
  have hreceived : Registered received.types path := htypes
  obtain ⟨id, w', hexec, hcreates, hsame⟩ :=
    exists_creates hopen hreceived hd hname hbody fuel w.heap.structs.length []
  refine ⟨id, w', ?_, ⟨hcreates.registered, ?_, hcreates.instance_, hcreates.arrays⟩,
    hsame ▸ hadded⟩
  · unfold ExprEvaluator.callStatic
    refine (Comp.bind_of_ok hinst).trans ?_
    rw [hfind]
    exact (Comp.bind_of_ok hreceiver).trans hexec
  · exact (List.prefix_append _ _).trans hcreates.structs

/-- `Array.New()` makes a new array, also where a variable is called `Array`. -/
theorem evaluate_newCall (hopen : Opened ctx.host path) (hreg : Registered w.types path)
    {env : ParameterMap}
    (henv : ∀ value, env["Array"]? = some value → ∃ id object, value = .struct id ∧
      w.heap.structs[id]? = some object ∧ object.typeName = "Array")
    (type : TypeDescriptor) (fuel : Nat) :
    ∃ id w', (evaluate ctx (Machine.handlers ctx fuel) (.own env)
      (Machine.newCall.setInferredType (Machine.arrayType type)) w).outcome =
        .ok (.struct id) w' ∧ Creates path w w' id ∧ ArraysAdded w.types w'.types := by
  obtain ⟨moduleName, hdecl⟩ := hreg.declared
  change ∃ id w', (evalMethodCall ctx (Machine.handlers ctx fuel) (.own env)
    { inferredType := some (Machine.arrayType type) } (.var {} "Array") "New"
    (evalVariable (.own env) "Array") (pure []) w).outcome = _ ∧ _
  unfold ExprEvaluator.evalMethodCall
  cases hbound : env["Array"]? with
  | none =>
    obtain ⟨id, w', hcall, hcreates⟩ := callStatic_new hopen hreg moduleName type fuel (.own env)
    refine ⟨id, w', ?_, hcreates⟩
    exact (Comp.bind_of_ok (staticReceiver_new hdecl hbound rfl)).trans hcall
  | some value =>
    obtain ⟨receiver, object, rfl, hobject, htype⟩ := henv value hbound
    have hname : ArrayName (arrayDecl moduleName).name := .inl rfl
    obtain ⟨routine, hfind, hroutine, hbody⟩ : ∃ routine,
        (arrayDecl moduleName).findRoutine "New" = some routine ∧ routine.name = "New" ∧
          routine.body = [] := ⟨_, rfl, rfl, rfl⟩
    obtain ⟨id, w', hexec, hcreates, hsame⟩ :=
      exists_creates hopen hreg hname hroutine hbody fuel receiver []
    refine ⟨id, w', ?_, hcreates, hsame ▸ ArraysAdded.refl _⟩
    refine (Comp.bind_of_ok (staticReceiver_of_bound hbound _ w)).trans ?_
    refine (Comp.bind_of_ok (evalVariable_of_bound hbound w)).trans ?_
    exact (callOnValue_outcome hobject htype hdecl hfind _ rfl).trans hexec

end New

end FalconLib.Libs.Array
