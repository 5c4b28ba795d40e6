import FalconLib.Dsl.Restoration

/-!
# What a call may learn of its caller

A call of a function, an autotuner, a routine or a method sees nothing of the variables
of its caller. A static call does: the initialisers of the fresh receiver are evaluated
on them. `Call.reach` says which variables these can be.
-/

namespace FalconLib.Dsl.Noninterference

open FalconLib.Base
open Coupling Restoration

variable {S : Type}

/-- A call whose arguments are evaluated. -/
inductive Call where
  | function (function : ExternalFunction) (params : ParameterMap)
  | method (object : RuntimeValue) (methodName : String) (args : List RuntimeValue)
  | static (decl : StructDecl) (typeArgs : List TypeDescriptor) (methodName : String)
      (args : List RuntimeValue)

def perform (ctx : Context S) (h : Handlers S) (vars : Variables) : Call → M S RuntimeValue
  | .function function params => do
    let result ← h.callFunction function params
    packResult result
  | .method object methodName args =>
    ExprEvaluator.callOnValue ctx h object methodName (pure args)
  | .static decl typeArgs methodName args =>
    ExprEvaluator.callStatic h vars decl typeArgs methodName (pure args)

/-- A call expression performs the call once its arguments are bound. -/
theorem evalCall_eq_perform (ctx : Context S) (h : Handlers S) (vars : Variables) (name : String)
    (args : List (Option String × M S RuntimeValue)) :
    ExprEvaluator.evalCall ctx h name args = (do
      let (resolvedName, function) ← ExprEvaluator.resolveFunction ctx name
      let sig ← ExprEvaluator.signatureOf ctx resolvedName name
      let params ← ExprEvaluator.bindArguments sig args
      perform ctx h vars (.function function params)) :=
  rfl

/-- A method call performs one of the two other calls. -/
theorem evalMethodCall_eq_perform (ctx : Context S) (h : Handlers S) (vars : Variables)
    (info : ExprInfo) (receiver : Expr) (methodName : String) (object : M S RuntimeValue)
    (args : List RuntimeValue) :
    ExprEvaluator.evalMethodCall ctx h vars info receiver methodName object (pure args) = (do
      match ← ExprEvaluator.staticReceiver vars info receiver with
      | some (decl, typeArgs) => perform ctx h vars (.static decl typeArgs methodName args)
      | none => do
        let object ← object
        perform ctx h vars (.method object methodName args)) :=
  rfl

/-! ## What is exposed -/

/-- The struct of a static call, or one of the registered ones. -/
def Involved (types : TypeRegistry) (decl d : StructDecl) : Prop :=
  d = decl ∨ ∃ key : String, types.structRegistry[key]? = some d

/-- The base names of the structs whose initialisers a static call of `decl` can evaluate
on the variables of its caller: its own, and those of the structs that these
initialisers call statically in turn. -/
inductive ReachedStruct (types : TypeRegistry) (decl : StructDecl) : String → Prop
  | root : ReachedStruct types decl (baseName decl.name)
  | found {key : String} {d : StructDecl} (hd : types.structRegistry[key]? = some d)
      (hk : ReachedStruct types decl (baseName key)) : ReachedStruct types decl (baseName d.name)
  | called {d : StructDecl} {field : VarDeclStmt} {e : Expr} {name : String}
      (hd : Involved types decl d) (hr : ReachedStruct types decl (baseName d.name))
      (hf : field ∈ d.fields) (he : field.initializer = some e)
      (hn : Mention.struct name ∈ mentions e) : ReachedStruct types decl (baseName name)

/-- A variable that one of these initialisers mentions. -/
def Exposed (types : TypeRegistry) (decl : StructDecl) (name : String) : Prop :=
  ∃ d field e, Involved types decl d ∧ ReachedStruct types decl (baseName d.name) ∧
    field ∈ d.fields ∧ field.initializer = some e ∧ Mention.name name ∈ mentions e

def Call.reach (types : TypeRegistry) : Call → Reach
  | .static decl _ _ _ => { names := Exposed types decl, structs := ReachedStruct types decl }
  | _ => Reach.none

theorem contains_of_reached {types : TypeRegistry} {decl d : StructDecl}
    (hd : Involved types decl d) (hr : ReachedStruct types decl (baseName d.name)) :
    Reach.Contains { names := Exposed types decl, structs := ReachedStruct types decl } d := by
  refine ⟨hr, fun field hf e he m hm => ?_⟩
  cases m with
  | name name => exact ⟨d, field, e, hd, hr, hf, he, hm⟩
  | struct name => exact ReachedStruct.called hd hr hf he hm

theorem Call.reach_admits {types : TypeRegistry} (call : Call) {key : String} {d : StructDecl}
    (hd : types.structRegistry[key]? = some d) : (call.reach types).Admits key d := by
  cases call with
  | function _ _ => exact Reach.none_admits key d
  | method _ _ _ => exact Reach.none_admits key d
  | static decl _ _ _ =>
    rintro (hk | hr)
    · exact contains_of_reached (.inr ⟨key, hd⟩) (ReachedStruct.found hd hk)
    · exact contains_of_reached (.inr ⟨key, hd⟩) hr

theorem Call.reach_kept {types : TypeRegistry} (call : Call) (t : TypeRegistry) :
    (call.reach types).kept t := by
  cases call <;> trivial

/-! ## Two callers -/

/-- Heap, store and registries are the same; the variables of the interpreter may differ. -/
structure SameData (w₁ w₂ : World S) : Prop where
  heap : w₁.heap = w₂.heap
  store : w₁.store = w₂.store
  types : w₁.types = w₂.types

theorem perform_agree {ctx : Context S} {h : Handlers S} {types : TypeRegistry} (call : Call)
    {r : ParameterMap → ParameterMap → Prop} {known : String → Prop} {vars₁ vars₂ : Variables}
    (hh : HandlersAgree Anything (call.reach types) h h)
    (hreach : ∀ n, (call.reach types).names n → known n)
    (hv : ReadAlike (S := S) r known vars₁ vars₂) :
    Alike Anything (call.reach types) r (perform ctx h vars₁ call) (perform ctx h vars₂ call) := by
  cases call with
  | function function params =>
    exact Agree.bind (hh.callFunction r function params) fun _ _ => packResult_agree _
  | method object methodName args =>
    exact callOnValue_agree hh (contexts_self ctx) object methodName (Agree.pure trivial)
  | static decl typeArgs methodName args =>
    have hroot : Reach.Contains
        { names := Exposed types decl, structs := ReachedStruct types decl } decl :=
      contains_of_reached (.inl rfl) ReachedStruct.root
    exact callStatic_agree hh hreach hv ⟨fun _ => hroot, .inr hroot⟩ typeArgs methodName
      (Agree.pure trivial)

/-- The variables that the two callers see agree where the call can look. -/
def Call.Agreeing (types : TypeRegistry) (call : Call) (map₁ map₂ : ParameterMap) : Prop :=
  ∀ n : String, (call.reach types).names n → map₁[n]? = map₂[n]?

/-- Two callers that agree on the exposed variables, and differ in any others, get the
same result. A call that is not static exposes none. -/
theorem sameResult_of_agreeing (ctx : Context S) (fuel : Nat) (call : Call) {w₁ w₂ : World S}
    {vars₁ vars₂ : Variables} (hd : SameData w₁ w₂)
    (hc : call.Agreeing w₁.types (vars₁.read w₁) (vars₂.read w₂)) :
    SameResult (perform ctx (Interpreter.handlers ctx fuel) vars₁ call w₁).outcome
      (perform ctx (Interpreter.handlers ctx fuel) vars₂ call w₂).outcome := by
  let r : ParameterMap → ParameterMap → Prop := fun map₁ map₂ =>
    map₁ = w₁.memberVariables ∧ map₂ = w₂.memberVariables
  have hv : ReadAlike (S := S) r (fun n => (vars₁.read w₁)[n]? = (vars₂.read w₂)[n]?)
      vars₁ vars₂ := by
    rintro w₁' w₂' ⟨h₁, h₂⟩ n hn
    rw [Variables.read_congr vars₁ h₁, Variables.read_congr vars₂ h₂]
    exact hn
  have hl : Linked Anything (call.reach w₁.types) r w₁ w₂ := by
    refine ⟨⟨rfl, rfl⟩, hd.heap, hd.store, ?_⟩
    rw [← hd.types]
    exact ⟨fun _ _ => .inl rfl, fun _ _ _ => rfl, fun _ _ _ => rfl,
      fun _ _ hdecl => call.reach_admits hdecl, call.reach_kept w₁.types⟩
  have hh : HandlersAgree Anything (call.reach w₁.types) (Interpreter.handlers ctx fuel)
      (Interpreter.handlers ctx fuel) := handlers_agree (contexts_self ctx) fuel
  exact SameResult.of_related (perform_agree call hh hc hv w₁ w₂ hl fun _ _ => trivial)

/-- A struct whose field starts as whatever `x` is where it is called. -/
def probe : StructDecl where
  name := "Probe"
  fields := [{ type := .ofParamType .int, name := "seen", initializer := some (.var {} "x") }]
  routines := [{
    name := "get"
    inputParams := []
    outputParams := [{ type := .ofParamType .int, name := "out" }]
    body := [.assign {} [{ variableName := "out" }] (.var {} "seen")] }]

/-- A caller that runs with the variables `x` and `y`. -/
def caller (x y : Int64) : Variables :=
  .own ((StdMap.assign ∅ "x" (RuntimeValue.int x)).assign "y" (.int y))

def probeCall : Call := .static probe [] "get" []

theorem exposed_probe {n : String} (h : Exposed {} probe n) : n = "x" := by
  obtain ⟨d, field, e, hd, _, hf, he, hn⟩ := h
  rcases hd with rfl | ⟨key, hkey⟩
  · obtain rfl := List.mem_singleton.mp hf
    cases he
    have hx : stripModulePrefix "x" = "x" := by decide
    simpa only [mentions, variableNames, hx, List.mem_cons, List.not_mem_nil, or_false, or_self,
      Mention.name.injEq] using hn
  · have hnone : ({} : TypeRegistry).structRegistry[key]? = none :=
      Std.ExtTreeMap.getElem?_empty
    rw [hnone] at hkey
    cases hkey

theorem sameResult_of_agreeing_probe :
    SameResult
      (perform { host := Host.unlinked } (Interpreter.handlers { host := Host.unlinked } 3)
        (caller 1 1) probeCall { store := () }).outcome
      (perform { host := Host.unlinked } (Interpreter.handlers { host := Host.unlinked } 3)
        (caller 1 2) probeCall { store := () }).outcome := by
  refine sameResult_of_agreeing _ 3 probeCall ⟨rfl, rfl, rfl⟩ fun n hn => ?_
  obtain rfl := exposed_probe hn
  rfl

theorem not_sameResult_probe :
    ¬ ∀ (ctx : Context Unit) (fuel : Nat) (call : Call) (w₁ w₂ : World Unit)
        (vars₁ vars₂ : Variables), SameData w₁ w₂ →
        SameResult (perform ctx (Interpreter.handlers ctx fuel) vars₁ call w₁).outcome
          (perform ctx (Interpreter.handlers ctx fuel) vars₂ call w₂).outcome := by
  intro h
  have hsame := (h { host := Host.unlinked } 3 probeCall { store := () } { store := () }
    (caller 1 1) (caller 2 1) ⟨rfl, rfl, rfl⟩).value?_eq
  exact absurd hsame (by decide +kernel)

end FalconLib.Dsl.Noninterference
