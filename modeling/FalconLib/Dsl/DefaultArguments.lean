import FalconLib.Dsl.ArgumentBinding
import FalconLib.Dsl.Interpreter

/-!
# Default arguments

Every callable binds its parameters on a path of its own: through a signature and a map of the
parameters, or by position. Only the loop of a struct routine fills what is missing with the
defaults that it finds in the declaration.
-/

namespace FalconLib.Dsl.DefaultArguments

open FalconLib.Base
open ExprEvaluator (bindArguments evaluate)
open AutotunerEngine (signature paramSpecs)
open StructRoutine (bindInputs flattenFields foreignParams)
open ArgumentBinding

variable {S : Type}

/-! ## Callables -/

/-- The routine of an instance that a call of `decl` on a generic struct executes. -/
def instanceRoutine (base : StructDecl) (typeArgs : List TypeDescriptor) (decl : RoutineDecl) :
    RoutineDecl :=
  monomorphizeRoutine base (TypeDescriptor.instanceName base.name typeArgs)
    (StdMap.emplaceAll ∅ (base.genericParams.zip typeArgs)) decl

/-- A callable with its declaration, and the receiver of a struct routine. A routine of a struct
that has no body belongs to a library. -/
inductive Callee where
  | autotuner (decl : AutotunerDecl)
  | routine (decl : RoutineDecl)
  | foreignRoutine (decl : RoutineDecl)
  | structRoutine (receiver : Nat) (owner : StructDecl) (decl : RoutineDecl)
  | genericRoutine (receiver : Nat) (base : StructDecl) (typeArgs : List TypeDescriptor)
      (owner : { owner // monomorphize base (TypeDescriptor.instanceName base.name typeArgs)
        typeArgs = .ok owner }) (decl : RoutineDecl)

/-- What a struct routine does with the values of its arguments before its body, or before the
library is called. -/
def bindStruct (ctx : Context S) (h : Handlers S) (receiver : Nat) (owner : StructDecl)
    (decl : RoutineDecl) (values : List RuntimeValue) : M S ParameterMap :=
  if decl.body.isEmpty then do
    let object ← structAt receiver
    pure (foreignParams (object.bind (·.nativeHandle)).isSome receiver decl values)
  else do
    let env ← flattenFields ctx h receiver owner.fields (StdMap.assign ∅ "this" (.struct receiver))
    bindInputs ctx h decl.name decl.inputParams values env

/-- The same up to the parameters that have an argument. -/
def bindStructGiven (ctx : Context S) (h : Handlers S) (receiver : Nat) (owner : StructDecl)
    (decl : RoutineDecl) (values : List RuntimeValue) : M S ParameterMap :=
  if decl.body.isEmpty then do
    let object ← structAt receiver
    pure (foreignParams (object.bind (·.nativeHandle)).isSome receiver decl values)
  else do
    let env ← flattenFields ctx h receiver owner.fields (StdMap.assign ∅ "this" (.struct receiver))
    pure (env.assignAll ((decl.inputParams.map ParamDecl.name).zip values))

/-- A routine with a body goes on from there. -/
theorem execStructRoutine_eq (ctx : Context S) (h : Handlers S) (receiver : Nat)
    (owner : StructDecl) {decl : RoutineDecl} (hbody : decl.body.isEmpty = false)
    (values : List RuntimeValue) :
    StructRoutine.execStructRoutine ctx h receiver owner decl values =
      bindStruct ctx h receiver owner decl values >>= fun env =>
        StructRoutine.initialiseOutputs ctx h decl.outputParams env >>= fun env =>
          StmtExecutor.executeBlock ctx h (.own env) decl.body >>= fun left =>
            StructRoutine.finish receiver owner decl (StructRoutine.ownMap left.2 env) := by
  unfold StructRoutine.execStructRoutine StructRoutine.routineEnvironment bindStruct
  rw [hbody, if_neg Bool.false_ne_true, if_neg Bool.false_ne_true]
  simp only [Comp.bind_assoc]

/-- An instance has a routine of its own for each routine of the generic struct. -/
theorem findRoutine_instance {base owner : StructDecl} {typeArgs : List TypeDescriptor}
    (h : monomorphize base (TypeDescriptor.instanceName base.name typeArgs) typeArgs = .ok owner)
    (name : String) :
    owner.findRoutine name = (base.findRoutine name).map (instanceRoutine base typeArgs) := by
  unfold monomorphize at h
  by_cases hlen : base.genericParams.length = typeArgs.length
  · rw [if_pos hlen] at h
    cases h
    exact List.find?_map ..
  · rw [if_neg hlen] at h
    cases h

/-- The parameters that some argument is for and the others, with `count` positional arguments
left. -/
def split (names : List (Option String)) : List ParamDecl → Nat → List ParamDecl × List ParamDecl
  | [], _ => ([], [])
  | param :: params, count =>
    if some param.name ∈ names then
      (param :: (split names params count).1, (split names params count).2)
    else
      match count with
      | 0 => ((split names params 0).1, param :: (split names params 0).2)
      | count + 1 => (param :: (split names params count).1, (split names params count).2)

namespace Callee

/-- The parameters of a call with arguments of these names, with and without an argument. The
parser keeps no names for a method call. -/
def parts (names : List (Option String)) : Callee → List ParamDecl × List ParamDecl
  | autotuner decl => split names decl.inputParams (names.count none)
  | routine decl | foreignRoutine decl => split names decl.inputParams (names.count none)
  | structRoutine _ _ decl | genericRoutine _ _ _ _ decl =>
    (decl.inputParams.take names.length, decl.inputParams.drop names.length)

/-- The map in which the body, or the library, finds its parameters. -/
def bind (ctx : Context S) (h : Handlers S) (names : List (Option String))
    (args : List (M S RuntimeValue)) : Callee → M S ParameterMap
  | autotuner decl => do
    let params ← bindArguments (signature decl.name decl.inputParams decl.outputParams)
      (names.zip args)
    Interpreter.setVariables ∅
    Interpreter.initializeVariables ctx h decl.autotunerVariables
    Interpreter.setInputParameters ctx h params decl.inputParams
    Interpreter.getVariables
  | routine decl => do
    let params ← bindArguments (signature decl.name decl.inputParams decl.outputParams)
      (names.zip args)
    pure (Interpreter.routineInputs params decl.inputParams ∅)
  | foreignRoutine decl =>
    bindArguments ⟨decl.name, paramSpecs decl.inputParams true, paramSpecs decl.outputParams false⟩
      (names.zip args)
  | structRoutine receiver owner decl => do
    let values ← evaluateAll (methodArguments (names.zip args))
    bindStruct ctx h receiver owner decl values
  | genericRoutine receiver base typeArgs owner decl => do
    let values ← evaluateAll (methodArguments (names.zip args))
    bindStruct ctx h receiver owner.val (instanceRoutine base typeArgs decl) values

/-- The arguments bound to the parameters they are for. -/
def bindGiven (ctx : Context S) (h : Handlers S) (names : List (Option String))
    (args : List (M S RuntimeValue)) (callee : Callee) : M S ParameterMap :=
  match callee with
  | structRoutine receiver owner decl => do
    let values ← evaluateAll (methodArguments (names.zip args))
    bindStructGiven ctx h receiver owner decl values
  | genericRoutine receiver base typeArgs owner decl => do
    let values ← evaluateAll (methodArguments (names.zip args))
    bindStructGiven ctx h receiver owner.val (instanceRoutine base typeArgs decl) values
  | _ => bindArguments ⟨"", paramSpecs (callee.parts names).1 true, []⟩ (names.zip args)

end Callee

/-! ## What the language promises -/

/-- The defaults of some parameters, evaluated one after the other and bound. -/
inductive Filled (ctx : Context S) (h : Handlers S) :
    List ParamDecl → ParameterMap → World S → ParameterMap → World S → Prop
  | nil (env : ParameterMap) (w : World S) : Filled ctx h [] env w env w
  | cons {param : ParamDecl} {params : List ParamDecl} {default : Expr} {value : RuntimeValue}
      {env env' : ParameterMap} {w u w' : World S} (hd : param.defaultValue = some default)
      (hv : (evaluate ctx h (.own env) default w).outcome = .ok value u)
      (hrest : Filled ctx h params (env.assign param.name value) u env' w') :
      Filled ctx h (param :: params) env w env' w'

namespace Callee

/-- The call passes no argument for the parameter. -/
def Omits (callee : Callee) (names : List (Option String)) (param : ParamDecl) : Prop :=
  param ∈ (callee.parts names).2 ∧ param.name ≠ "this" ∧
    param.name ∉ (callee.parts names).1.map ParamDecl.name

/-- The arguments and the defaults of the other parameters have values. -/
def Evaluates (ctx : Context S) (h : Handlers S) (names : List (Option String))
    (args : List (M S RuntimeValue)) (w : World S) (callee : Callee) : Prop :=
  ∃ env₀ w₀ env w', (callee.bindGiven ctx h names args w).outcome = .ok env₀ w₀ ∧
    Filled ctx h (callee.parts names).2 env₀ w₀ env w'

/-- The call succeeds, and the parameters without an argument have the values of their defaults. -/
def BindsDefaults (ctx : Context S) (h : Handlers S) (names : List (Option String))
    (args : List (M S RuntimeValue)) (w : World S) (callee : Callee) : Prop :=
  ∃ env₀ w₀ env w', (callee.bindGiven ctx h names args w).outcome = .ok env₀ w₀ ∧
    Filled ctx h (callee.parts names).2 env₀ w₀ env w' ∧
      (callee.bind ctx h names args w).outcome = .ok env w'

/-- A routine with a body, of a struct that is not generic. -/
def Inline : Callee → Prop
  | structRoutine _ _ decl => decl.body.isEmpty = false
  | _ => False

end Callee

/-! ## Calls with a signature -/

theorem split_eq_nil (names : List (Option String)) (params : List ParamDecl) (count : Nat) :
    (split names params count).2 = [] ↔
      ((params.map ParamDecl.name).filter fun name => some name ∉ names).length ≤ count := by
  induction params generalizing count with
  | nil => exact ⟨fun _ => Nat.zero_le _, fun _ => rfl⟩
  | cons param params ih =>
    rw [List.map_cons]
    by_cases hname : some param.name ∈ names
    · have hcons : split names (param :: params) count =
          (param :: (split names params count).1, (split names params count).2) := if_pos hname
      rw [hcons, List.filter_cons_of_neg (by simpa using hname)]
      exact ih count
    · rw [List.filter_cons_of_pos (by simpa using hname), List.length_cons]
      cases count with
      | zero =>
        have hcons : split names (param :: params) 0 =
            ((split names params 0).1, param :: (split names params 0).2) := if_neg hname
        rw [hcons]
        exact ⟨nofun, fun h => absurd h (Nat.not_succ_le_zero _)⟩
      | succ count =>
        have hcons : split names (param :: params) (count + 1) =
            (param :: (split names params count).1, (split names params count).2) := if_neg hname
        rw [hcons]
        exact (ih count).trans Nat.add_le_add_iff_right.symm

/-- A signature requires every parameter. -/
theorem bindArguments_ne_ok {names : List (Option String)} {args : List (M S RuntimeValue)}
    (hlen : args.length = names.length) {params : List ParamDecl} {param : ParamDecl}
    (hparam : param ∈ (split names params (names.count none)).2) (qname : String)
    (returns : List ParamSpec) (w w' : World S) (map : ParameterMap) :
    (bindArguments ⟨qname, paramSpecs params true, returns⟩ (names.zip args) w).outcome ≠
      .ok map w' := by
  have hreq := required_paramSpecs params
  have hnames : (paramSpecs params true).map ParamSpec.name = params.map ParamDecl.name := by
    unfold paramSpecs
    rw [List.map_map]
    rfl
  have htakes : takes names ((paramSpecs params true).map ParamSpec.name) [] = none := by
    rw [← Option.not_isSome_iff_eq_none, takes_isSome, length_free, hnames, ← split_eq_nil]
    exact List.ne_nil_of_mem hparam
  intro hok
  have hraises : Callable.Raises (S := S) (.function ⟨qname, paramSpecs params true, returns⟩ hreq)
      names :=
    raises_function hreq htakes
  exact hraises args w hlen map w' (Comp.bind_of_ok hok)

/-! ## Routines of structs -/

theorem Filled.isSome {ctx : Context S} {h : Handlers S} {params : List ParamDecl}
    {env env' : ParameterMap} {w w' : World S} (hf : Filled ctx h params env w env' w')
    {name : String} (hname : name ∈ params.map ParamDecl.name ∨ env[name]?.isSome) :
    env'[name]?.isSome := by
  induction hf with
  | nil env w => exact hname.resolve_left List.not_mem_nil
  | @cons param params default value env env' w u w' hd hv hrest ih =>
    apply ih
    rw [StdMap.getElem?_assign]
    by_cases hp : param.name = name
    · rw [if_pos hp]
      exact .inr rfl
    · rw [if_neg hp]
      refine hname.imp_left fun hmem => ?_
      rw [List.map_cons] at hmem
      exact (List.mem_cons.mp hmem).resolve_left (Ne.symm hp)

/-- The loop over the parameters without an argument. -/
theorem Filled.bindInputs {ctx : Context S} {h : Handlers S} {params : List ParamDecl}
    {env env' : ParameterMap} {w w' : World S} (hf : Filled ctx h params env w env' w')
    (name : String) : (bindInputs ctx h name params [] env w).outcome = .ok env' w' := by
  induction hf with
  | nil env w => rfl
  | @cons param params default value env env' w u w' hd hv hrest ih =>
    unfold StructRoutine.bindInputs
    rw [hd]
    exact (Comp.bind_of_ok hv).trans ih

/-- A parameter without a default ends the loop. -/
theorem bindInputs_ne_ok {ctx : Context S} {h : Handlers S} {param : ParamDecl}
    (hparam : param.defaultValue = none) (params : List ParamDecl) (name : String)
    (env map : ParameterMap) (w w' : World S) :
    (bindInputs ctx h name (param :: params) [] env w).outcome ≠ .ok map w' := by
  unfold StructRoutine.bindInputs
  rw [hparam]
  exact nofun

/-- A library sees the parameters that have an argument. -/
theorem getElem?_foreignParams (native : Bool) (receiver : Nat) {decl : RoutineDecl}
    {values : List RuntimeValue} {name : String} (hthis : name ≠ "this")
    (hname : name ∉ (decl.inputParams.take values.length).map ParamDecl.name) :
    (foreignParams native receiver decl values)[name]? = none := by
  have hwrite : StdMap.lastWrite name ((decl.inputParams.map (·.name)).zip values) = none := by
    by_contra hsome
    obtain ⟨value, hvalue⟩ := Option.ne_none_iff_exists'.mp hsome
    have hmem := List.mem_map_of_mem (f := Prod.fst) (StdMap.mem_of_lastWrite hvalue)
    rw [map_fst_zip_eq, ← List.map_take] at hmem
    exact hname hmem
  unfold foreignParams
  rw [StdMap.getElem?_assignAll, hwrite, Option.none_or]
  cases native with
  | true =>
    rw [if_pos rfl, StdMap.getElem?_assign_ne _ _ (Ne.symm hthis)]
    exact Std.ExtTreeMap.getElem?_empty
  | false => exact Std.ExtTreeMap.getElem?_empty

theorem bindStruct_foreign {ctx : Context S} {h : Handlers S} {receiver : Nat} {owner : StructDecl}
    {decl : RoutineDecl} (hbody : decl.body.isEmpty = true) {values : List RuntimeValue}
    {env : ParameterMap} {w w' : World S}
    (hok : (bindStruct ctx h receiver owner decl values w).outcome = .ok env w') :
    ∃ native, env = foreignParams native receiver decl values := by
  unfold bindStruct at hok
  rw [if_pos hbody] at hok
  cases hok
  exact ⟨_, rfl⟩

theorem not_bindsDefaults_of_foreign {ctx : Context S} {h : Handlers S} {receiver : Nat}
    {owner : StructDecl} {decl : RoutineDecl} (hbody : decl.body.isEmpty = true)
    {values : List RuntimeValue} {params : List ParamDecl} {param : ParamDecl}
    (hmem : param ∈ params) (hthis : param.name ≠ "this")
    (hname : param.name ∉ (decl.inputParams.take values.length).map ParamDecl.name)
    {env₀ env : ParameterMap} {w₀ w w' : World S} (hf : Filled ctx h params env₀ w₀ env w') :
    (bindStruct ctx h receiver owner decl values w).outcome ≠ .ok env w' := by
  intro hok
  obtain ⟨native, rfl⟩ := bindStruct_foreign hbody hok
  have hsome := hf.isSome (.inl (List.mem_map_of_mem hmem))
  rw [getElem?_foreignParams native receiver hthis hname] at hsome
  cases hsome

/-- An instance has lost the defaults. -/
theorem bindStruct_instance_ne_ok {ctx : Context S} {h : Handlers S} {receiver : Nat}
    {owner base : StructDecl} {typeArgs : List TypeDescriptor} {decl : RoutineDecl}
    (hbody : decl.body.isEmpty = false) {values : List RuntimeValue}
    (hlen : values.length < decl.inputParams.length) (w w' : World S) (map : ParameterMap) :
    (bindStruct ctx h receiver owner (instanceRoutine base typeArgs decl) values w).outcome ≠
      .ok map w' := by
  have hclone : (instanceRoutine base typeArgs decl).body.isEmpty = false := by
    change (Stmt.cloneList decl.body).isEmpty = false
    cases hb : decl.body with
    | nil =>
      rw [hb] at hbody
      cases hbody
    | cons stmt stmts => rfl
  intro hok
  unfold bindStruct at hok
  rw [hclone, if_neg Bool.false_ne_true] at hok
  obtain ⟨env, u, _, hbind⟩ := Comp.bind_eq_ok hok
  rw [bindInputs_eq] at hbind
  change (bindInputs ctx h decl.name ((decl.inputParams.map _).drop values.length) [] _ u).outcome =
    _ at hbind
  rw [← List.map_drop] at hbind
  cases hdrop : decl.inputParams.drop values.length with
  | nil => exact absurd (List.drop_eq_nil_iff.mp hdrop) (Nat.not_le.mpr hlen)
  | cons param params =>
    rw [hdrop, List.map_cons] at hbind
    exact bindInputs_ne_ok rfl _ _ _ _ _ _ hbind

/-- A struct routine with a body fills what is missing. -/
theorem bindStruct_of_filled {ctx : Context S} {h : Handlers S} {receiver : Nat}
    {owner : StructDecl} {decl : RoutineDecl} (hbody : decl.body.isEmpty = false)
    {values : List RuntimeValue} {env₀ env : ParameterMap} {w w₀ w' : World S}
    (hgiven : (bindStructGiven ctx h receiver owner decl values w).outcome = .ok env₀ w₀)
    (hf : Filled ctx h (decl.inputParams.drop values.length) env₀ w₀ env w') :
    (bindStruct ctx h receiver owner decl values w).outcome = .ok env w' := by
  unfold bindStructGiven at hgiven
  unfold bindStruct
  rw [hbody, if_neg Bool.false_ne_true] at hgiven ⊢
  obtain ⟨fields, u, hfields, hrest⟩ := Comp.bind_eq_ok hgiven
  cases hrest
  rw [Comp.bind_of_ok hfields, bindInputs_eq]
  exact hf.bindInputs decl.name

/-! ## All callables -/

/-- A call that omits a parameter binds its default exactly when it is one of a routine with a body
of a struct that is not generic. -/
theorem bindsDefaults_iff (ctx : Context S) (h : Handlers S) (callee : Callee)
    {names : List (Option String)} {args : List (M S RuntimeValue)}
    (hlen : args.length = names.length) (param : ParamDecl) (homits : callee.Omits names param)
    (w : World S) :
    callee.BindsDefaults ctx h names args w ↔
      callee.Inline ∧ callee.Evaluates ctx h names args w := by
  have hargs : methodArguments (names.zip args) = args :=
    List.map_snd_zip (Nat.le_of_eq hlen)
  have hevaluates : callee.BindsDefaults ctx h names args w → callee.Evaluates ctx h names args w :=
    fun ⟨env₀, w₀, env, w', hgiven, hfilled, _⟩ => ⟨env₀, w₀, env, w', hgiven, hfilled⟩
  obtain ⟨hmem, hthis, hname⟩ := homits
  cases callee with
  | autotuner decl =>
    refine iff_of_false ?_ fun h => h.1
    rintro ⟨_, _, env, w', _, _, hok⟩
    obtain ⟨params, u, hparams, _⟩ := Comp.bind_eq_ok hok
    exact bindArguments_ne_ok hlen hmem _ _ _ _ _ hparams
  | routine decl =>
    refine iff_of_false ?_ fun h => h.1
    rintro ⟨_, _, env, w', _, _, hok⟩
    obtain ⟨params, u, hparams, _⟩ := Comp.bind_eq_ok hok
    exact bindArguments_ne_ok hlen hmem _ _ _ _ _ hparams
  | foreignRoutine decl =>
    refine iff_of_false ?_ fun h => h.1
    rintro ⟨_, _, env, w', _, _, hok⟩
    exact bindArguments_ne_ok hlen hmem _ _ _ _ _ hok
  | structRoutine receiver owner decl =>
    cases hbody : decl.body.isEmpty with
    | true =>
      refine iff_of_false ?_ fun h => absurd (hbody.symm.trans h.1) (by decide)
      rintro ⟨_, _, env, w', _, hfilled, hok⟩
      obtain ⟨values, u, hvalues, hbind⟩ := Comp.bind_eq_ok hok
      rw [hargs] at hvalues
      refine not_bindsDefaults_of_foreign hbody hmem hthis ?_ hfilled hbind
      rw [length_of_evaluateAll hvalues, hlen]
      exact hname
    | false =>
      refine ⟨fun h => ⟨hbody, hevaluates h⟩, ?_⟩
      rintro ⟨_, env₀, w₀, env, w', hgiven, hfilled⟩
      refine ⟨env₀, w₀, env, w', hgiven, hfilled, ?_⟩
      obtain ⟨values, u, hvalues, hrest⟩ := Comp.bind_eq_ok hgiven
      have hcount : values.length = names.length := by
        rw [hargs] at hvalues
        exact (length_of_evaluateAll hvalues).trans hlen
      refine (Comp.bind_of_ok hvalues).trans (bindStruct_of_filled hbody hrest ?_)
      rw [hcount]
      exact hfilled
  | genericRoutine receiver base typeArgs owner decl =>
    refine iff_of_false ?_ fun h => h.1
    rintro ⟨_, _, env, w', _, hfilled, hok⟩
    obtain ⟨values, u, hvalues, hbind⟩ := Comp.bind_eq_ok hok
    rw [hargs] at hvalues
    have hcount : values.length = names.length := (length_of_evaluateAll hvalues).trans hlen
    cases hbody : decl.body.isEmpty with
    | true =>
      refine not_bindsDefaults_of_foreign ?_ hmem hthis ?_ hfilled hbind
      · change (Stmt.cloneList decl.body).isEmpty = true
        rw [List.isEmpty_iff.mp hbody]
        rfl
      · change param.name ∉ ((decl.inputParams.map _).take values.length).map ParamDecl.name
        rw [← List.map_take, List.map_map, hcount]
        exact hname
    | false =>
      refine bindStruct_instance_ne_ok hbody ?_ _ _ _ hbind
      rw [hcount]
      by_contra hle
      have hdrop : param ∈ decl.inputParams.drop names.length := hmem
      rw [List.drop_eq_nil_iff.mpr (Nat.not_lt.mp hle)] at hdrop
      exact absurd hdrop List.not_mem_nil

/-! ## A call for each side -/

/-- The second parameter of `routine scale(int x, int by = 2)`. -/
def byTwo : ParamDecl :=
  { type := .ofParamType .int, name := "by", defaultValue := some (.literal {} (.int 2)) }

def scale : RoutineDecl where
  name := "scale"
  inputParams := [{ type := .ofParamType .int, name := "x" }, byTwo]
  outputParams := [{ type := .ofParamType .int, name := "r" }]
  body := [.assign {} [{ variableName := "r" }] (.var {} "x")]

def gauge : StructDecl := { name := "Gauge", fields := [], routines := [scale] }

/-- `gauge.scale(3)`. -/
theorem bindsDefaults_scale :
    (Callee.structRoutine 0 gauge scale).BindsDefaults { host := Host.unlinked }
      (Interpreter.handlers { host := Host.unlinked } 1) [none] [pure (.int 3)] { store := () } :=
  (bindsDefaults_iff { host := Host.unlinked } (Interpreter.handlers { host := Host.unlinked } 1)
    (.structRoutine 0 gauge scale) rfl byTwo ⟨.head _, by decide, by decide⟩ { store := () }).mpr
    ⟨rfl, _, _, _, _, rfl, .cons rfl rfl (.nil _ _)⟩

/-- The call `scale(3)` of a routine of a module. -/
theorem not_bindsDefaults_scale :
    ¬∀ (ctx : Context Unit) (h : Handlers Unit) (callee : Callee) (names : List (Option String))
      (args : List (M Unit RuntimeValue)) (param : ParamDecl) (w : World Unit),
      args.length = names.length → callee.Omits names param → callee.Evaluates ctx h names args w →
        callee.BindsDefaults ctx h names args w := by
  intro hall
  obtain ⟨_, _, env, w', _, _, hok⟩ := hall { host := Host.unlinked }
    (Interpreter.handlers { host := Host.unlinked } 1) (.routine scale) [none] [pure (.int 3)]
    byTwo { store := () } rfl ⟨.head _, by decide, by decide⟩
    ⟨_, _, _, _, rfl, .cons rfl rfl (.nil _ _)⟩
  obtain ⟨params, u, hparams, _⟩ := Comp.bind_eq_ok hok
  have hlen : [(pure (.int 3) : M Unit RuntimeValue)].length = [(none : Option String)].length := rfl
  exact bindArguments_ne_ok hlen (.head _) _ _ _ _ _ hparams

end FalconLib.Dsl.DefaultArguments
