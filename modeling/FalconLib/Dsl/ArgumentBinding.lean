import FalconLib.Dsl.LoadHistory
import Mathlib.Data.List.Range
import Mathlib.Data.List.Perm.Subperm

/-!
# Binding of arguments

A call of a registered function binds its arguments parameter by parameter, while a method
call evaluates them all and goes by position: the parser keeps no names for it. A `Plan`
says which parameter each argument is bound to; a faithful plan uses each argument once.
-/

namespace FalconLib.Dsl.ArgumentBinding

open FalconLib.Base (Comp StdMap)
open ExprEvaluator (bindArguments bindParameters findArgument)
open StructRoutine (bindInputs foreignParams)

variable {S : Type}

/-! ## Calls -/

/-- The arguments of a method call as the parser hands them on. -/
def methodArguments {α : Type} (args : List (Option String × α)) : List α := args.map Prod.snd

def evaluateAll : List (M S RuntimeValue) → M S (List RuntimeValue)
  | [] => pure []
  | arg :: args => do
    let value ← arg
    let values ← evaluateAll args
    pure (value :: values)

/-- The evaluator's own loop over the arguments of a method call. -/
theorem evaluateList_eq (ctx : Context S) (h : Handlers S) (vars : Variables) (exprs : List Expr) :
    ExprEvaluator.evaluateList ctx h vars exprs =
      evaluateAll (exprs.map (ExprEvaluator.evaluate ctx h vars)) := by
  induction exprs with
  | nil => rfl
  | cons expr exprs ih =>
    rw [ExprEvaluator.evaluateList, ih]
    rfl

/-- What a call fills with arguments: the signature of a builtin, autotuner or routine, or
the inputs of a routine of a struct, with the map they go to. The engine registers every
parameter as required. -/
inductive Callable (S : Type) where
  | function (sig : BuiltinSignature) (required : ∀ spec ∈ sig.parameters, spec.required = true)
  | structRoutine (ctx : Context S) (h : Handlers S) (routine : RoutineDecl) (env : ParameterMap)
  | ffiMethod (routine : RoutineDecl) (native : Bool) (receiver : Nat)

namespace Callable

def params : Callable S → List String
  | function sig _ => sig.parameters.map ParamSpec.name
  | structRoutine _ _ routine _ => routine.inputParams.map ParamDecl.name
  | ffiMethod routine _ _ => routine.inputParams.map ParamDecl.name

/-- The map of the parameters that take an argument. -/
def bind (callable : Callable S) (names : List (Option String)) (args : List (M S RuntimeValue)) :
    M S ParameterMap :=
  match callable with
  | function sig _ => bindArguments sig (names.zip args)
  | structRoutine _ _ routine env => do
    let values ← evaluateAll (methodArguments (names.zip args))
    pure (env.assignAll ((routine.inputParams.map ParamDecl.name).zip values))
  | ffiMethod routine native receiver => do
    let values ← evaluateAll (methodArguments (names.zip args))
    pure (foreignParams native receiver routine values)

/-- The parameters beyond the first `count` take their defaults. -/
def fill (callable : Callable S) (count : Nat) (map : ParameterMap) : M S ParameterMap :=
  match callable with
  | structRoutine ctx h routine _ =>
    bindInputs ctx h routine.name (routine.inputParams.drop count) [] map
  | _ => pure map

def call (callable : Callable S) (names : List (Option String)) (args : List (M S RuntimeValue)) :
    M S ParameterMap := do
  let map ← callable.bind names args
  callable.fill names.length map

end Callable

/-! ## Plans -/

/-- The arguments by their position, in the order in which they are evaluated, each with the
parameter it is bound to. -/
abbrev Plan := List (Nat × String)

/-- Each argument is evaluated once and has a parameter of its own, that of its name if it
has one; positional arguments keep their order. -/
structure Plan.Faithful (plan : Plan) (params : List String) (names : List (Option String)) :
    Prop where
  each : (plan.map Prod.fst).Perm (List.range names.length)
  distinct : (plan.map Prod.snd).Nodup
  known : ∀ entry ∈ plan, entry.2 ∈ params
  named : ∀ entry ∈ plan, ∀ name, names[entry.1]? = some (some name) → entry.2 = name
  positional : ∀ entry ∈ plan, ∀ entry' ∈ plan, names[entry.1]? = some none →
    names[entry'.1]? = some none → entry.1 < entry'.1 →
      params.idxOf entry.2 < params.idxOf entry'.2

/-- The arguments at some positions, evaluated in that order. -/
def inOrder (args : List (M S RuntimeValue)) (order : List Nat) : M S (List RuntimeValue) :=
  evaluateAll (order.map fun i => args.getD i (Comp.halt .undefinedBehaviour))

namespace Callable

/-- The call evaluates the arguments as planned and leaves each with its parameter. -/
def Follows (callable : Callable S) (names : List (Option String)) (plan : Plan) : Prop :=
  ∃ bound : List RuntimeValue → ParameterMap,
    (∀ args, args.length = names.length → callable.bind names args = do
      let values ← inOrder args (plan.map Prod.fst)
      pure (bound values)) ∧
    ∀ values, values.length = plan.length →
      ∀ entry ∈ (plan.map Prod.snd).zip values, (bound values)[entry.1]? = some entry.2

def BindsEach (callable : Callable S) (names : List (Option String)) : Prop :=
  ∃ plan : Plan, plan.Faithful callable.params names ∧ callable.Follows names plan

/-- No call with arguments of these names gets past the binding. -/
def Raises (callable : Callable S) (names : List (Option String)) : Prop :=
  ∀ args w, args.length = names.length →
    ∀ map w', (callable.call names args w).outcome ≠ .ok map w'

end Callable

/-- The `n`-th argument goes with the `n`-th parameter, and any name says so. -/
structure ByPosition (params : List String) (names : List (Option String)) : Prop where
  length : names.length ≤ params.length
  distinct : (params.take names.length).Nodup
  named : ∀ (i : Nat) (name : String), names[i]? = some (some name) → params[i]? = some name

/-- As many arguments as parameters, and the names are those of different parameters. -/
structure ByName (params : List String) (names : List (Option String)) : Prop where
  length : names.length = params.length
  distinct : params.Nodup
  once : ∀ (i j : Nat) (name : String), names[i]? = some (some name) → names[j]? = some (some name) → i = j
  known : ∀ (i : Nat) (name : String), names[i]? = some (some name) → name ∈ params

/-- The positional arguments are fewer than the parameters that no argument names. -/
def TooFew (params : List String) (names : List (Option String)) : Prop :=
  names.count none < (params.filter fun param => some param ∉ names).length

/-- Among the parameters without an argument one has no default, or its default cannot be
evaluated, whatever the arguments are. -/
def Unfillable (callable : Callable S) (count : Nat) (env : ParameterMap) : Prop :=
  ∀ values : List RuntimeValue, values.length = count → ∀ w map w',
    (callable.fill count (env.assignAll (callable.params.zip values)) w).outcome ≠ .ok map w'

/-- When a call is right about its arguments. -/
def Callable.Matches (callable : Callable S) (names : List (Option String)) : Prop :=
  match callable with
  | .function _ _ => TooFew callable.params names ∨ ByName callable.params names
  | .structRoutine _ _ _ env =>
    Unfillable callable names.length env ∨ ByPosition callable.params names
  | .ffiMethod _ _ _ => ByPosition callable.params names

/-! ## Evaluation in order -/

theorem length_of_evaluateAll {args : List (M S RuntimeValue)} {values : List RuntimeValue}
    {w w' : World S} (h : (evaluateAll args w).outcome = .ok values w') :
    values.length = args.length := by
  induction args generalizing values w w' with
  | nil =>
    cases h
    rfl
  | cons arg args ih =>
    obtain ⟨value, u, _, hrest⟩ := Comp.bind_eq_ok h
    obtain ⟨rest, t, hargs, hlast⟩ := Comp.bind_eq_ok hrest
    cases hlast
    rw [List.length_cons, List.length_cons, ih hargs]

/-- The loop over the parameters, cut where the arguments end. -/
theorem bindInputs_eq (ctx : Context S) (h : Handlers S) (name : String)
    (params : List ParamDecl) (values : List RuntimeValue) (env : ParameterMap) :
    bindInputs ctx h name params values env =
      bindInputs ctx h name (params.drop values.length) []
        (env.assignAll ((params.map ParamDecl.name).zip values)) := by
  induction params generalizing values env with
  | nil =>
    rw [List.drop_nil]
    rfl
  | cons param params ih =>
    cases values with
    | nil => rfl
    | cons value values => exact ih values (env.assign param.name value)

/-- A call of a struct routine runs the loop of the routine over its arguments. -/
theorem call_structRoutine (ctx : Context S) (h : Handlers S) (routine : RoutineDecl)
    (env : ParameterMap) {names : List (Option String)} {args : List (M S RuntimeValue)}
    (hlen : args.length = names.length) :
    (Callable.structRoutine ctx h routine env).call names args =
      evaluateAll args >>= fun values =>
        bindInputs ctx h routine.name routine.inputParams values env := by
  have hargs : methodArguments (names.zip args) = args :=
    List.map_snd_zip (Nat.le_of_eq hlen)
  unfold Callable.call Callable.bind
  dsimp only
  rw [hargs, Comp.bind_assoc]
  funext w
  apply Comp.bind_congr
  intro values t hv
  rw [Comp.pure_bind, bindInputs_eq, length_of_evaluateAll hv, hlen]
  rfl

/-! ## Probes -/

/-- Recorded when the `i`-th argument is evaluated. -/
def mark (i : Nat) : Query := .function (String.ofList (List.replicate i 'a'))

theorem mark_injective : Function.Injective mark := by
  intro i j h
  injection h with hs
  have hl := congrArg List.length (String.ofList_injective hs)
  rwa [List.length_replicate, List.length_replicate] at hl

/-- A value that tells the argument, and one of two families of arguments. -/
def sample (family : Bool) (i : Nat) : RuntimeValue :=
  .string (String.ofList ((if family then 'x' else 'y') :: List.replicate i 'a'))

theorem sample_inj {f g : Bool} {i j : Nat} (h : sample f i = sample g j) : f = g ∧ i = j := by
  injection h with hs
  have hl := String.ofList_injective hs
  injection hl with hhead htail
  have hlen := congrArg List.length htail
  rw [List.length_replicate, List.length_replicate] at hlen
  refine ⟨?_, hlen⟩
  cases f <;> cases g <;> first | rfl | exact absurd hhead (by decide)

def probe (value : Nat → RuntimeValue) (i : Nat) : M S RuntimeValue := do
  Comp.ask (mark i)
  pure (value i)

theorem inOrder_probe (value : Nat → RuntimeValue) {n : Nat} {order : List Nat}
    (h : ∀ i ∈ order, i < n) (w : World S) :
    inOrder ((List.range n).map (probe value)) order w =
      ⟨order.map mark, .ok (order.map value) w⟩ := by
  induction order with
  | nil => rfl
  | cons i order ih =>
    obtain ⟨hi, horder⟩ := List.forall_mem_cons.mp h
    have hget : ((List.range n).map (probe value)).getD i (Comp.halt .undefinedBehaviour) =
        (probe value i : M S RuntimeValue) := by
      rw [List.getD_eq_getElem?_getD, List.getElem?_map, List.getElem?_range hi]
      rfl
    unfold inOrder at ih ⊢
    rw [List.map_cons, hget, evaluateAll, Comp.run_bind_of_ok (show probe value i w = ⟨[mark i], .ok (value i) w⟩ from rfl),
      Comp.run_bind_of_ok (ih horder)]
    exact congrArg (fun asked => FalconLib.Base.Run.mk (mark i :: asked) _) (List.append_nil _)

/-! ## The plan of a call -/

theorem map_fst_zip_eq {α β : Type} (as : List α) (bs : List β) :
    (as.zip bs).map Prod.fst = as.take bs.length := by
  induction as generalizing bs with
  | nil => rw [List.take_nil]; rfl
  | cons a as ih =>
    cases bs with
    | nil => rfl
    | cons b bs => exact congrArg (a :: ·) (ih bs)

theorem map_snd_zip_eq {α β : Type} (as : List α) (bs : List β) :
    (as.zip bs).map Prod.snd = bs.take as.length := by
  induction as generalizing bs with
  | nil => rfl
  | cons a as ih =>
    cases bs with
    | nil => rfl
    | cons b bs => exact congrArg (b :: ·) (ih bs)

section OwnPlan

variable {callable : Callable S} {names : List (Option String)} {order : List Nat}
  {keys : List String} {map₀ : ParameterMap}

/-- The call evaluates the arguments in the order `order`, then assigns their values to
`keys`, on top of `map₀`. -/
def Assigns (callable : Callable S) (names : List (Option String)) (order : List Nat)
    (keys : List String) (map₀ : ParameterMap) : Prop :=
  ∀ args : List (M S RuntimeValue), args.length = names.length →
    callable.bind names args =
      inOrder args order >>= fun values => pure (map₀.assignAll (keys.zip values))

/-- Two ways to evaluate the arguments of a call agree on the order and on the result. -/
theorem order_unique [Inhabited S] {order' : List Nat} {n : Nat} {f g : List RuntimeValue → ParameterMap}
    (h : ∀ i ∈ order, i < n) (h' : ∀ i ∈ order', i < n)
    (heq : ∀ args : List (M S RuntimeValue), args.length = n →
      (inOrder args order >>= fun values => (pure (f values) : M S ParameterMap)) =
        inOrder args order' >>= fun values => pure (g values)) :
    order = order' ∧ ∀ family, f (order.map (sample family)) = g (order.map (sample family)) := by
  have hrun : ∀ family, order = order' ∧
      f (order.map (sample family)) = g (order'.map (sample family)) := by
    intro family
    have hargs := congrFun (heq ((List.range n).map (probe (sample family)))
      (by rw [List.length_map, List.length_range])) { store := default }
    rw [Comp.run_bind_of_ok (inOrder_probe (sample family) h _),
      Comp.run_bind_of_ok (inOrder_probe (sample family) h' _)] at hargs
    injection hargs with hasked houtcome
    injection houtcome with hmap _
    have hmarks : order.map mark = order'.map mark := by
      rw [← List.append_nil (order.map mark), ← List.append_nil (order'.map mark)]
      exact hasked
    exact ⟨List.map_injective_iff.mpr mark_injective hmarks, hmap⟩
  have horder := (hrun true).1
  subst horder
  exact ⟨rfl, fun family => (hrun family).2⟩

/-- A call binds each argument exactly when its own plan is faithful. -/
theorem bindsEach_iff [Inhabited S] (hown : Assigns callable names order keys map₀)
    (hin : ∀ i ∈ order, i < names.length) :
    callable.BindsEach names ↔
      order.length ≤ keys.length ∧ Plan.Faithful (order.zip keys) callable.params names := by
  constructor
  · rintro ⟨plan, hplan, bound, hbind, hbound⟩
    have hrange : ∀ i ∈ plan.map Prod.fst, i < names.length := fun i hi =>
      List.mem_range.mp (hplan.each.mem_iff.mp hi)
    obtain ⟨horder, hmaps⟩ := order_unique (f := bound) hrange hin fun args hargs =>
      (hbind args hargs).symm.trans (hown args hargs)
    have hnodup : order.Nodup := horder ▸ hplan.each.nodup_iff.mpr List.nodup_range
    have hkey : ∀ (k : Nat) (entry : Nat × String), plan[k]? = some entry →
        keys[k]? = some entry.2 := by
      intro k entry hk
      have hfst : order[k]? = some entry.1 := by rw [← horder, List.getElem?_map, hk]; rfl
      have hwrite : ∀ family,
          keys[k]? = some entry.2 ∨ map₀[entry.2]? = some (sample family entry.1) := by
        intro family
        have hlookup := hbound (order.map (sample family))
          (by rw [List.length_map, ← horder, List.length_map]) (entry.2, sample family entry.1)
          (by
            apply List.mem_iff_getElem?.mpr
            refine ⟨k, ?_⟩
            rw [List.getElem?_zip_eq_some]
            constructor
            · rw [List.getElem?_map, hk]; rfl
            · rw [List.getElem?_map, hfst]; rfl)
        have hmap := hmaps family
        rw [horder] at hmap
        rw [hmap] at hlookup
        rcases StdMap.mem_of_getElem?_assignAll hlookup with hmem | hmem
        · obtain ⟨j, hj⟩ := List.mem_iff_getElem?.mp hmem
          rw [List.getElem?_zip_eq_some, List.getElem?_map, Option.map_eq_some_iff] at hj
          obtain ⟨hkeys, i, hi, hsample⟩ := hj
          rw [(sample_inj hsample).2] at hi
          have hjk : j = k := (List.getElem?_inj (List.getElem?_eq_some_iff.mp hi).1 hnodup).mp
            (hi.trans hfst.symm)
          exact .inl (hjk ▸ hkeys)
        · exact .inr hmem
      rcases hwrite true with h | htrue
      · exact h
      · rcases hwrite false with h | hfalse
        · exact h
        · exact absurd (sample_inj (Option.some.inj (htrue.symm.trans hfalse))).1 (by decide)
    have hlength : plan.length = order.length := by rw [← horder, List.length_map]
    have hlen : order.length ≤ keys.length := by
      by_contra hlt
      have hk : keys.length < plan.length := by omega
      have hnone := hkey keys.length _ (List.getElem?_eq_getElem hk)
      rw [List.getElem?_eq_none (Nat.le_refl _)] at hnone
      exact absurd hnone nofun
    have hplan' : plan = order.zip keys := by
      apply List.ext_getElem?
      intro k
      cases hk : plan[k]? with
      | none =>
        have hle := List.getElem?_eq_none_iff.mp hk
        rw [eq_comm, List.getElem?_eq_none_iff, List.length_zip]
        omega
      | some entry =>
        rw [eq_comm, List.getElem?_zip_eq_some]
        constructor
        · rw [← horder, List.getElem?_map, hk]
          rfl
        · exact hkey k entry hk
    exact ⟨hlen, hplan' ▸ hplan⟩
  · rintro ⟨hlen, hfaithful⟩
    have hfst : (order.zip keys).map Prod.fst = order := List.map_fst_zip hlen
    refine ⟨order.zip keys, hfaithful, fun values => map₀.assignAll (keys.zip values), ?_, ?_⟩
    · intro args hargs
      rw [hfst]
      exact hown args hargs
    · rintro values hvalues ⟨key, value⟩ hentry
      have hdistinct := hfaithful.distinct
      rw [List.length_zip, Nat.min_eq_left hlen] at hvalues
      rw [map_snd_zip_eq] at hentry hdistinct
      apply StdMap.getElem?_assignAll_of_mem
      · rw [map_fst_zip_eq, hvalues]
        exact hdistinct
      · obtain ⟨k, hk⟩ := List.mem_iff_getElem?.mp hentry
        obtain ⟨hkey, hvalue⟩ := List.getElem?_zip_eq_some.mp hk
        apply List.mem_iff_getElem?.mpr
        refine ⟨k, List.getElem?_zip_eq_some.mpr ⟨?_, hvalue⟩⟩
        have hk' : k < order.length := hvalues ▸ (List.getElem?_eq_some_iff.mp hvalue).1
        rwa [List.getElem?_take_of_lt hk'] at hkey

end OwnPlan

/-! ## Method calls -/

theorem inOrder_range {n : Nat} {args : List (M S RuntimeValue)} (h : args.length = n) :
    inOrder args (List.range n) = evaluateAll args := by
  unfold inOrder
  congr 1
  apply List.ext_getElem?
  intro i
  rw [List.getElem?_map]
  by_cases hi : i < n
  · have hget := List.getElem?_eq_getElem (h.symm ▸ hi)
    rw [List.getElem?_range hi, Option.map_some, List.getD_eq_getElem?_getD, hget]
    rfl
  · have hrange : (List.range n)[i]? = none := by
      rw [List.getElem?_eq_none_iff, List.length_range]
      omega
    rw [hrange, Option.map_none, eq_comm, List.getElem?_eq_none_iff]
    omega

theorem assigns_structRoutine (ctx : Context S) (h : Handlers S) (routine : RoutineDecl)
    (env : ParameterMap) (names : List (Option String)) :
    Assigns (.structRoutine ctx h routine env) names (List.range names.length)
      (routine.inputParams.map ParamDecl.name) env := by
  intro args hargs
  rw [inOrder_range hargs]
  unfold Callable.bind methodArguments
  dsimp only
  rw [List.map_snd_zip (Nat.le_of_eq hargs)]

theorem assigns_ffiMethod (routine : RoutineDecl) (native : Bool) (receiver : Nat)
    (names : List (Option String)) :
    Assigns (S := S) (.ffiMethod routine native receiver) names (List.range names.length)
      (routine.inputParams.map ParamDecl.name)
      (if native then StdMap.assign ∅ "this" (RuntimeValue.struct receiver) else ∅) := by
  intro args hargs
  rw [inOrder_range hargs]
  unfold Callable.bind methodArguments
  dsimp only
  rw [List.map_snd_zip (Nat.le_of_eq hargs)]
  rfl

theorem idxOf_of_take {params : List String} {n i : Nat} {param : String}
    (hn : (params.take n).Nodup) (hi : i < n) (hp : params[i]? = some param) :
    params.idxOf param = i := by
  have htake : (params.take n)[i]? = some param := by rw [List.getElem?_take_of_lt hi, hp]
  obtain ⟨hlt, hget⟩ := List.getElem?_eq_some_iff.mp htake
  have hmem : param ∈ params.take n := List.mem_of_getElem? htake
  rw [← List.take_append_drop n params, List.idxOf_append_of_mem hmem, ← hget]
  exact hn.idxOf_getElem i hlt

/-- By position, an argument is bound to its own parameter when its name agrees. -/
theorem faithful_range {params : List String} {names : List (Option String)} :
    (names.length ≤ params.length ∧
      Plan.Faithful ((List.range names.length).zip params) params names) ↔
      ByPosition params names := by
  have hentry : ∀ (i : Nat) (param : String),
      (i, param) ∈ (List.range names.length).zip params ↔
        i < names.length ∧ params[i]? = some param := by
    intro i param
    rw [List.mem_iff_getElem?]
    constructor
    · rintro ⟨k, hk⟩
      obtain ⟨hrange, hparam⟩ := List.getElem?_zip_eq_some.mp hk
      obtain ⟨hlt, hget⟩ := List.getElem?_eq_some_iff.mp hrange
      rw [List.getElem_range] at hget
      subst hget
      exact ⟨by rwa [List.length_range] at hlt, hparam⟩
    · rintro ⟨hi, hparam⟩
      exact ⟨i, List.getElem?_zip_eq_some.mpr ⟨List.getElem?_range hi, hparam⟩⟩
  constructor
  · rintro ⟨hlen, hfaithful⟩
    constructor
    · exact hlen
    · have hdistinct := hfaithful.distinct
      rwa [map_snd_zip_eq, List.length_range] at hdistinct
    · intro i name hname
      have hi : i < names.length := (List.getElem?_eq_some_iff.mp hname).1
      have hparam := List.getElem?_eq_getElem (Nat.lt_of_lt_of_le hi hlen)
      rw [hparam]
      exact congrArg some (hfaithful.named _ ((hentry i _).mpr ⟨hi, hparam⟩) name hname)
  · intro hposition
    refine ⟨hposition.length, ?_, ?_, ?_, ?_, ?_⟩
    · rw [map_fst_zip_eq, List.take_of_length_le (by rw [List.length_range]; exact hposition.length)]
    · rw [map_snd_zip_eq, List.length_range]
      exact hposition.distinct
    · rintro ⟨i, param⟩ hmem
      exact List.mem_of_getElem? ((hentry i param).mp hmem).2
    · rintro ⟨i, param⟩ hmem name hname
      have hparam := ((hentry i param).mp hmem).2
      exact Option.some.inj (hparam.symm.trans (hposition.named i name hname))
    · rintro ⟨i, param⟩ hmem ⟨j, param'⟩ hmem' _ _ hij
      obtain ⟨hi, hparam⟩ := (hentry i param).mp hmem
      obtain ⟨hj, hparam'⟩ := (hentry j param').mp hmem'
      rw [idxOf_of_take hposition.distinct hi hparam, idxOf_of_take hposition.distinct hj hparam']
      exact hij

/-- The two kinds of method call. -/
theorem bindsEach_of_range [Inhabited S] {callable : Callable S} {names : List (Option String)}
    {map₀ : ParameterMap}
    (hown : Assigns callable names (List.range names.length) callable.params map₀) :
    callable.BindsEach names ↔ ByPosition callable.params names := by
  rw [bindsEach_iff hown fun i hi => List.mem_range.mp hi, List.length_range, faithful_range]

/-! ## Calls by name -/

/-- The positional arguments that are left. -/
def free (names : List (Option String)) (assigned : List Nat) : List Nat :=
  (names.zipIdx.filter fun arg => arg.1.isNone && !assigned.contains arg.2).map Prod.snd

/-- Where the argument of a parameter stands. -/
def position (names : List (Option String)) (assigned : List Nat) (param : String) : Option Nat :=
  (findArgument (names.map fun name => (name, ())) assigned param).map Prod.snd

/-- The arguments that the parameters take one after the other; none when one is missing. -/
def takes (names : List (Option String)) : List String → List Nat → Option Plan
  | [], _ => some []
  | param :: params, assigned =>
    match position names assigned param with
    | some i => (takes names params (i :: assigned)).map ((i, param) :: ·)
    | none => none

theorem findArgument_map {α β : Type} (f : α → β) (args : List (Option String × α))
    (assigned : List Nat) (param : String) :
    findArgument (args.map (Prod.map id f)) assigned param =
      (findArgument args assigned param).map (Prod.map (Prod.map id f) id) := by
  unfold findArgument
  rw [List.zipIdx_map, List.find?_map, List.find?_map]
  have hnamed : ((fun arg : (Option String × β) × Nat => arg.1.1 == some param) ∘
      Prod.map (Prod.map id f) id) = fun arg => arg.1.1 == some param := rfl
  rw [hnamed]
  cases args.zipIdx.find? fun arg => arg.1.1 == some param with
  | some arg => rfl
  | none => rfl

theorem position_eq {α : Type} (args : List (Option String × α)) (assigned : List Nat)
    (param : String) :
    position (args.map Prod.fst) assigned param =
      (findArgument args assigned param).map Prod.snd := by
  unfold position
  rw [List.map_map]
  change (findArgument (args.map (Prod.map id fun _ => ())) assigned param).map _ = _
  rw [findArgument_map, Option.map_map]
  rfl

/-- The argument that was found stands at its position. -/
theorem getElem?_of_findArgument {α : Type} {args : List (Option String × α)}
    {assigned : List Nat} {param : String} {arg : Option String × α} {i : Nat}
    (h : findArgument args assigned param = some (arg, i)) : args[i]? = some arg := by
  have hmem : (arg, i) ∈ args.zipIdx := by
    unfold findArgument at h
    cases hnamed : args.zipIdx.find? fun arg => arg.1.1 == some param with
    | some found =>
      rw [hnamed] at h
      exact List.mem_of_find?_eq_some (hnamed.trans h)
    | none =>
      rw [hnamed] at h
      exact List.mem_of_find?_eq_some h
  exact List.mem_zipIdx_iff_getElem?.mp hmem

section Free

variable {names : List (Option String)} {assigned : List Nat}

theorem mem_free {i : Nat} : i ∈ free names assigned ↔ names[i]? = some none ∧ i ∉ assigned := by
  unfold free
  rw [List.mem_map]
  constructor
  · rintro ⟨⟨name, j⟩, hmem, rfl⟩
    obtain ⟨hidx, hp⟩ := List.mem_filter.mp hmem
    obtain ⟨hnone, hfree⟩ := Bool.and_eq_true_iff.mp hp
    rw [List.mem_zipIdx_iff_getElem?, Option.isNone_iff_eq_none.mp hnone] at hidx
    exact ⟨hidx, by simpa using hfree⟩
  · rintro ⟨hname, hi⟩
    refine ⟨(none, i), List.mem_filter.mpr ⟨List.mem_zipIdx_iff_getElem?.mpr hname, ?_⟩, rfl⟩
    simpa using hi

theorem pairwise_free : (free names assigned).Pairwise (· < ·) := by
  have hsub : List.Sublist (free names assigned) (names.zipIdx.map Prod.snd) :=
    List.filter_sublist.map _
  rw [List.zipIdx_map_snd] at hsub
  exact List.Pairwise.sublist hsub List.pairwise_lt_range'

theorem free_cons (i : Nat) : free names (i :: assigned) = (free names assigned).filter (· != i) := by
  unfold free
  rw [List.filter_map, List.filter_filter]
  congr 1
  apply List.filter_congr
  intro arg _
  rw [List.contains_cons, Bool.not_or, Function.comp_apply, bne, Bool.and_left_comm]

theorem free_cons_of_named {i : Nat} {name : String} (h : names[i]? = some (some name)) :
    free names (i :: assigned) = free names assigned := by
  rw [free_cons, List.filter_eq_self]
  intro j hj
  rw [bne_iff_ne]
  rintro rfl
  exact absurd (h.symm.trans (mem_free.mp hj).1) nofun

theorem free_cons_of_head {i : Nat} {rest : List Nat} (h : free names assigned = i :: rest) :
    free names (i :: assigned) = rest := by
  have hlt : (free names assigned).Pairwise (· < ·) := pairwise_free
  rw [h, List.pairwise_cons] at hlt
  rw [free_cons, h, List.filter_cons_of_neg (by simp), List.filter_eq_self]
  intro j hj
  rw [bne_iff_ne]
  exact (hlt.1 j hj).ne'

theorem length_free : (free names []).length = names.count none := by
  unfold free
  rw [List.length_map, ← List.countP_eq_length_filter, List.count_eq_countP]
  conv_rhs => rw [← List.zipIdx_map_fst 0 names, List.countP_map]
  apply List.countP_congr
  rintro ⟨name, i⟩ _
  cases name <;> simp

theorem position_eq_or (names : List (Option String)) (assigned : List Nat) (param : String) :
    position names assigned param =
      ((names.zipIdx.find? fun arg => arg.1 == some param).or
        (names.zipIdx.find? fun arg => arg.1.isNone && !assigned.contains arg.2)).map Prod.snd := by
  unfold position findArgument
  rw [List.zipIdx_map, List.find?_map, List.find?_map]
  have hnamed : (fun arg : (Option String × Unit) × Nat => arg.1.1 == some param) ∘
      Prod.map (fun name => (name, ())) id = fun arg => arg.1 == some param := rfl
  have hfree : (fun arg : (Option String × Unit) × Nat => arg.1.1.isNone && !assigned.contains arg.2) ∘
      Prod.map (fun name => (name, ())) id = fun arg => arg.1.isNone && !assigned.contains arg.2 := rfl
  rw [hnamed, hfree]
  cases names.zipIdx.find? fun arg => arg.1 == some param with
  | some arg => rfl
  | none =>
    cases names.zipIdx.find? fun arg => arg.1.isNone && !assigned.contains arg.2 <;> rfl

theorem position_of_named {param : String} (h : some param ∈ names) (assigned : List Nat) :
    ∃ i, position names assigned param = some i ∧ names[i]? = some (some param) := by
  obtain ⟨k, hk⟩ := List.mem_iff_getElem?.mp h
  have hsome : (names.zipIdx.find? fun arg => arg.1 == some param).isSome := by
    rw [List.find?_isSome]
    exact ⟨(some param, k), List.mem_zipIdx_iff_getElem?.mpr hk, beq_self_eq_true _⟩
  obtain ⟨⟨name, i⟩, hfind⟩ := Option.isSome_iff_exists.mp hsome
  have hname : name = some param := by simpa using List.find?_some hfind
  have hmem := List.mem_zipIdx_iff_getElem?.mp (List.mem_of_find?_eq_some hfind)
  refine ⟨i, ?_, hname ▸ hmem⟩
  rw [position_eq_or, hfind]
  rfl

theorem position_of_unnamed {param : String} (h : some param ∉ names) (assigned : List Nat) :
    position names assigned param = (free names assigned).head? := by
  have hnone : (names.zipIdx.find? fun arg => arg.1 == some param) = none := by
    rw [List.find?_eq_none]
    rintro ⟨name, i⟩ hmem hname
    have hget := List.mem_zipIdx_iff_getElem?.mp hmem
    rw [eq_of_beq hname] at hget
    exact h (List.mem_of_getElem? hget)
  rw [position_eq_or, hnone, Option.none_or, free, List.head?_map, List.head?_filter]

/-- Every parameter finds an argument unless the positional ones run out. -/
theorem takes_isSome (params : List String) (assigned : List Nat) :
    (takes names params assigned).isSome ↔
      (params.filter fun param => some param ∉ names).length ≤ (free names assigned).length := by
  induction params generalizing assigned with
  | nil => exact ⟨fun _ => Nat.zero_le _, fun _ => rfl⟩
  | cons param params ih =>
    rw [takes]
    by_cases hp : some param ∈ names
    · obtain ⟨i, hi, hname⟩ := position_of_named hp assigned
      rw [hi, List.filter_cons_of_neg (by simpa using hp), ← free_cons_of_named hname, ← ih]
      dsimp only
      rw [Option.isSome_map]
    · rw [position_of_unnamed hp, List.filter_cons_of_pos (by simpa using hp), List.length_cons]
      cases hfree : free names assigned with
      | nil => exact ⟨nofun, fun hle => absurd hle (Nat.not_succ_le_zero _)⟩
      | cons i rest =>
        rw [List.head?_cons, List.length_cons, Nat.add_le_add_iff_right, ← free_cons_of_head hfree, ← ih]
        dsimp only
        rw [Option.isSome_map]

/-- What the parameters take: arguments of their name, or free ones in ascending order. -/
theorem takes_spec {params : List String} {assigned : List Nat} {plan : Plan}
    (h : takes names params assigned = some plan) :
    plan.map Prod.snd = params ∧
      (∀ entry ∈ plan, names[entry.1]? = some (some entry.2) ∨ entry.1 ∈ free names assigned) ∧
      plan.Pairwise fun entry entry' => names[entry.1]? = some none →
        names[entry'.1]? = some none → entry.1 < entry'.1 := by
  induction params generalizing assigned plan with
  | nil =>
    cases h
    exact ⟨rfl, fun _ he => absurd he List.not_mem_nil, .nil⟩
  | cons param params ih =>
    rw [takes] at h
    cases hi : position names assigned param with
    | none =>
      rw [hi] at h
      cases h
    | some i =>
      rw [hi] at h
      obtain ⟨rest, hrest, rfl⟩ := Option.map_eq_some_iff.mp h
      obtain ⟨hsnd, hentries, hpairwise⟩ := ih hrest
      refine ⟨congrArg (param :: ·) hsnd, ?_, ?_⟩
      · rw [List.forall_mem_cons]
        constructor
        · by_cases hp : some param ∈ names
          · obtain ⟨j, hj, hname⟩ := position_of_named hp assigned
            exact .inl (Option.some.inj (hi.symm.trans hj) ▸ hname)
          · rw [position_of_unnamed hp] at hi
            exact .inr (List.mem_of_head? hi)
        · intro entry hentry
          rcases hentries entry hentry with hn | hf
          · exact .inl hn
          · rw [free_cons] at hf
            exact .inr (List.mem_of_mem_filter hf)
      · rw [List.pairwise_cons]
        refine ⟨fun entry hentry hpos hpos' => ?_, hpairwise⟩
        have hp : some param ∉ names := by
          intro hp
          obtain ⟨j, hj, hname⟩ := position_of_named hp assigned
          rw [Option.some.inj (hi.symm.trans hj), hname] at hpos
          exact absurd hpos nofun
        rw [position_of_unnamed hp] at hi
        obtain ⟨tail, hfree⟩ := List.head?_eq_some_iff.mp hi
        have hlt : (free names assigned).Pairwise (· < ·) := pairwise_free
        rw [hfree, List.pairwise_cons] at hlt
        rcases hentries entry hentry with hn | hf
        · exact absurd (hn.symm.trans hpos') nofun
        · rw [free_cons_of_head hfree] at hf
          exact hlt.1 _ hf

end Free

section ByName

variable {names : List (Option String)} {params : List String} {plan : Plan}

theorem ByName.of_faithful (hsnd : plan.map Prod.snd = params)
    (h : plan.Faithful params names) : ByName params names := by
  have hmem : ∀ (i : Nat) (name : String), names[i]? = some (some name) → (i, name) ∈ plan := by
    intro i name hname
    have hi : i ∈ plan.map Prod.fst :=
      h.each.mem_iff.mpr (List.mem_range.mpr (List.getElem?_eq_some_iff.mp hname).1)
    obtain ⟨entry, hentry, rfl⟩ := List.mem_map.mp hi
    rw [← h.named entry hentry name hname]
    exact hentry
  constructor
  · rw [← hsnd, List.length_map, ← List.length_map (f := Prod.fst), h.each.length_eq,
      List.length_range]
  · exact hsnd ▸ h.distinct
  · intro i j name hi hj
    have heq := List.inj_on_of_nodup_map h.distinct (hmem i name hi) (hmem j name hj) rfl
    exact (Prod.mk.inj heq).1
  · intro i name hname
    exact h.known _ (hmem i name hname)

/-- No argument is taken twice. -/
theorem nodup_of_takes (h : takes names params [] = some plan) (hn : ByName params names) :
    (plan.map Prod.fst).Nodup := by
  obtain ⟨hsnd, hentries, hpairwise⟩ := takes_spec h
  have hdistinct : (plan.map Prod.snd).Nodup := hsnd ▸ hn.distinct
  unfold List.Nodup at hdistinct ⊢
  rw [List.pairwise_map] at hdistinct ⊢
  refine (hpairwise.and hdistinct).imp_of_mem ?_
  rintro ⟨i, param⟩ ⟨j, param'⟩ hmem hmem' ⟨hlt, hne⟩ rfl
  rcases hentries _ hmem with hname | hfree
  · rcases hentries _ hmem' with hname' | hfree'
    · exact hne (Option.some.inj (Option.some.inj (hname.symm.trans hname')))
    · exact absurd (hname.symm.trans (mem_free.mp hfree').1) nofun
  · have hpos := (mem_free.mp hfree).1
    exact absurd (hlt hpos hpos) (Nat.lt_irrefl _)

theorem ByName.faithful (hn : ByName params names) (h : takes names params [] = some plan) :
    plan.Faithful params names := by
  obtain ⟨hsnd, hentries, hpairwise⟩ := takes_spec h
  have hrange : ∀ entry ∈ plan, entry.1 < names.length := by
    intro entry hentry
    rcases hentries entry hentry with hname | hfree
    · exact (List.getElem?_eq_some_iff.mp hname).1
    · exact (List.getElem?_eq_some_iff.mp (mem_free.mp hfree).1).1
  constructor
  · refine (List.subperm_of_subset (nodup_of_takes h hn) ?_).perm_of_length_le ?_
    · intro i hi
      obtain ⟨entry, hentry, rfl⟩ := List.mem_map.mp hi
      exact List.mem_range.mpr (hrange entry hentry)
    · rw [List.length_range, hn.length, ← hsnd, List.length_map, List.length_map]
  · exact hsnd ▸ hn.distinct
  · intro entry hentry
    exact hsnd ▸ List.mem_map_of_mem hentry
  · intro entry hentry name hname
    rcases hentries entry hentry with hown | hfree
    · exact Option.some.inj (Option.some.inj (hown.symm.trans hname))
    · exact absurd ((mem_free.mp hfree).1.symm.trans hname) nofun
  · intro entry hentry entry' hentry' hpos hpos' hlt
    obtain ⟨k, hk, rfl⟩ := List.mem_iff_getElem.mp hentry
    obtain ⟨l, hl, rfl⟩ := List.mem_iff_getElem.mp hentry'
    have hidx : ∀ (m : Nat) (hm : m < plan.length), params.idxOf plan[m].2 = m := by
      intro m hm
      subst hsnd
      have hget := hn.distinct.idxOf_getElem m (by rwa [List.length_map])
      rwa [List.getElem_map] at hget
    rw [hidx k hk, hidx l hl]
    by_contra hle
    rcases Nat.lt_or_eq_of_le (Nat.le_of_not_lt hle) with hlk | heq
    · exact absurd (List.pairwise_iff_getElem.mp hpairwise l k hl hk hlk hpos' hpos) hlt.not_gt
    · subst heq
      exact absurd hlt (Nat.lt_irrefl _)

end ByName

section Parameters

variable {args : List (Option String × M S RuntimeValue)} {specs : List ParamSpec}
  {assigned : List Nat}

/-- The loop over required parameters carries out what they take. -/
theorem bindParameters_of_some (hreq : ∀ spec ∈ specs, spec.required = true) {plan : Plan}
    (h : takes (args.map Prod.fst) (specs.map ParamSpec.name) assigned = some plan)
    (map : ParameterMap) :
    bindParameters args true specs map assigned =
      inOrder (args.map Prod.snd) (plan.map Prod.fst) >>= fun values =>
        pure (map.assignAll ((specs.map ParamSpec.name).zip values),
          (plan.map Prod.fst).reverse ++ assigned) := by
  induction specs generalizing assigned plan map with
  | nil =>
    cases h
    rfl
  | cons spec specs ih =>
    obtain ⟨hspec, hspecs⟩ := List.forall_mem_cons.mp hreq
    rw [List.map_cons, takes, position_eq] at h
    cases hfind : findArgument args assigned spec.name with
    | none =>
      rw [hfind] at h
      cases h
    | some found =>
      obtain ⟨⟨name, argument⟩, i⟩ := found
      rw [hfind] at h
      obtain ⟨rest, hrest, rfl⟩ := Option.map_eq_some_iff.mp h
      have hget : (args.map Prod.snd).getD i (Comp.halt .undefinedBehaviour) = argument := by
        rw [List.getD_eq_getElem?_getD, List.getElem?_map, getElem?_of_findArgument hfind]
        rfl
      rw [bindParameters, if_neg (by rw [hspec]; decide), hfind]
      dsimp only
      unfold inOrder
      rw [List.map_cons, List.map_cons, hget, evaluateAll, Comp.bind_assoc]
      congr 1
      funext value
      rw [ih hspecs hrest, Comp.bind_assoc]
      unfold inOrder
      congr 1
      funext values
      rw [Comp.pure_bind, List.reverse_cons, List.append_assoc]
      rfl

/-- A required parameter without an argument is an error. -/
theorem bindParameters_of_none (hreq : ∀ spec ∈ specs, spec.required = true)
    (h : takes (args.map Prod.fst) (specs.map ParamSpec.name) assigned = none)
    (map : ParameterMap) (w w' : World S) (result : ParameterMap × List Nat) :
    (bindParameters args true specs map assigned w).outcome ≠ .ok result w' := by
  induction specs generalizing assigned map w with
  | nil => cases h
  | cons spec specs ih =>
    obtain ⟨hspec, hspecs⟩ := List.forall_mem_cons.mp hreq
    rw [List.map_cons, takes, position_eq] at h
    rw [bindParameters, if_neg (by rw [hspec]; decide)]
    cases hfind : findArgument args assigned spec.name with
    | none =>
      dsimp only
      rw [if_pos rfl]
      exact nofun
    | some found =>
      rw [hfind] at h
      intro hok
      obtain ⟨value, u, _, hrest⟩ := Comp.bind_eq_ok hok
      exact ih hspecs (Option.map_eq_none_iff.mp h) _ _ hrest

/-- Without optional parameters the second loop does nothing. -/
theorem bindParameters_optional (hreq : ∀ spec ∈ specs, spec.required = true) (map : ParameterMap) :
    bindParameters args false specs map assigned = pure (map, assigned) := by
  induction specs with
  | nil => rfl
  | cons spec specs ih =>
    obtain ⟨hspec, hspecs⟩ := List.forall_mem_cons.mp hreq
    rw [bindParameters, if_pos (by rw [hspec]; decide), ih hspecs]

end Parameters

theorem bindArguments_eq {sig : BuiltinSignature}
    (hreq : ∀ spec ∈ sig.parameters, spec.required = true)
    (args : List (Option String × M S RuntimeValue)) :
    bindArguments sig args =
      bindParameters args true sig.parameters ∅ [] >>= fun bound => pure bound.1 := by
  unfold bindArguments
  congr 1
  funext bound
  obtain ⟨params, assigned⟩ := bound
  change bindParameters args false sig.parameters params assigned >>= _ = _
  rw [bindParameters_optional hreq]
  rfl

theorem assigns_function {sig : BuiltinSignature}
    (hreq : ∀ spec ∈ sig.parameters, spec.required = true) {names : List (Option String)}
    {plan : Plan} (h : takes names (sig.parameters.map ParamSpec.name) [] = some plan) :
    Assigns (S := S) (.function sig hreq) names (plan.map Prod.fst)
      (sig.parameters.map ParamSpec.name) ∅ := by
  intro args hargs
  have hfst : (names.zip args).map Prod.fst = names := List.map_fst_zip (Nat.le_of_eq hargs.symm)
  have hsnd : (names.zip args).map Prod.snd = args := List.map_snd_zip (Nat.le_of_eq hargs)
  have hsome := bindParameters_of_some hreq (by rw [hfst]; exact h) ∅
  rw [hsnd] at hsome
  unfold Callable.bind
  dsimp only
  rw [bindArguments_eq hreq, hsome, Comp.bind_assoc]
  rfl

theorem raises_function {sig : BuiltinSignature}
    (hreq : ∀ spec ∈ sig.parameters, spec.required = true) {names : List (Option String)}
    (h : takes names (sig.parameters.map ParamSpec.name) [] = none) :
    Callable.Raises (S := S) (.function sig hreq) names := by
  intro args w hargs map w' hok
  have hfst : (names.zip args).map Prod.fst = names := List.map_fst_zip (Nat.le_of_eq hargs.symm)
  obtain ⟨bound, u, hbind, _⟩ := Comp.bind_eq_ok hok
  unfold Callable.bind at hbind
  dsimp only at hbind
  rw [bindArguments_eq hreq] at hbind
  obtain ⟨result, t, hparams, _⟩ := Comp.bind_eq_ok hbind
  exact bindParameters_of_none hreq (by rw [hfst]; exact h) ∅ w t result hparams

/-- A call that leaves no parameter open gets past the binding. -/
theorem not_raises [Inhabited S] {callable : Callable S} {names : List (Option String)}
    {order : List Nat} {keys : List String} {map₀ : ParameterMap}
    (hown : Assigns callable names order keys map₀) (hin : ∀ i ∈ order, i < names.length)
    (hfill : ∀ map, callable.fill names.length map = pure map) : ¬ callable.Raises names := by
  intro hraises
  have hlen : ((List.range names.length).map (probe (S := S) (sample true))).length =
      names.length := by rw [List.length_map, List.length_range]
  apply hraises _ { store := default } hlen _ { store := default }
  unfold Callable.call
  rw [hown _ hlen, Comp.bind_assoc, Comp.run_bind_of_ok (inOrder_probe (sample true) hin _)]
  change ((callable.fill names.length _) _).outcome = _
  rw [hfill]
  rfl

theorem evaluateAll_pure (values : List RuntimeValue) :
    evaluateAll (values.map fun value => (pure value : M S RuntimeValue)) = pure values := by
  induction values with
  | nil => rfl
  | cons value values ih =>
    rw [List.map_cons, evaluateAll, ih]
    rfl

theorem raises_structRoutine (ctx : Context S) (h : Handlers S) (routine : RoutineDecl)
    (env : ParameterMap) (names : List (Option String)) :
    Callable.Raises (.structRoutine ctx h routine env) names ↔
      Unfillable (.structRoutine ctx h routine env) names.length env := by
  have hcall := assigns_structRoutine ctx h routine env names
  constructor
  · intro hraises values hvalues w map w' hok
    have hlen : (values.map fun value => (pure value : M S RuntimeValue)).length = names.length := by
      rw [List.length_map, hvalues]
    apply hraises _ w hlen map w'
    unfold Callable.call
    rw [hcall _ hlen, inOrder_range hlen, evaluateAll_pure, Comp.pure_bind, Comp.pure_bind]
    exact hok
  · intro hunfillable args w hargs map w' hok
    unfold Callable.call at hok
    rw [hcall args hargs, inOrder_range hargs, Comp.bind_assoc] at hok
    obtain ⟨values, u, hvalues, hrest⟩ := Comp.bind_eq_ok hok
    exact hunfillable values ((length_of_evaluateAll hvalues).trans hargs) u map w' hrest

/-! ## All callables -/

theorem zip_fst_snd (plan : Plan) : (plan.map Prod.fst).zip (plan.map Prod.snd) = plan := by
  induction plan with
  | nil => rfl
  | cons entry plan ih => exact congrArg (entry :: ·) ih

theorem function_iff [Inhabited S] {sig : BuiltinSignature}
    (hreq : ∀ spec ∈ sig.parameters, spec.required = true) (names : List (Option String)) :
    (Callable.function (S := S) sig hreq).BindsEach names ∨
        (Callable.function (S := S) sig hreq).Raises names ↔
      TooFew (sig.parameters.map ParamSpec.name) names ∨
        ByName (sig.parameters.map ParamSpec.name) names := by
  have hsome : _ ↔ _ ≤ (free names []).length :=
    takes_isSome (sig.parameters.map ParamSpec.name) []
  rw [length_free] at hsome
  cases ht : takes names (sig.parameters.map ParamSpec.name) [] with
  | none =>
    rw [ht] at hsome
    have hfew : TooFew (sig.parameters.map ParamSpec.name) names :=
      Nat.lt_of_not_le fun hle => absurd (hsome.mpr hle) nofun
    exact ⟨fun _ => .inl hfew, fun _ => .inr (raises_function hreq ht)⟩
  | some plan =>
    rw [ht] at hsome
    have hmany : ¬ TooFew (sig.parameters.map ParamSpec.name) names :=
      Nat.not_lt_of_le (hsome.mp rfl)
    obtain ⟨hsnd, hentries, _⟩ := takes_spec ht
    have hin : ∀ i ∈ plan.map Prod.fst, i < names.length := by
      intro i hi
      obtain ⟨entry, hentry, rfl⟩ := List.mem_map.mp hi
      rcases hentries entry hentry with hname | hfree
      · exact (List.getElem?_eq_some_iff.mp hname).1
      · exact (List.getElem?_eq_some_iff.mp (mem_free.mp hfree).1).1
    have hown := assigns_function (S := S) hreq ht
    have hraises := not_raises hown hin fun _ => rfl
    rw [or_iff_left hraises, or_iff_right hmany, bindsEach_iff hown hin, ← hsnd, zip_fst_snd]
    constructor
    · rintro ⟨_, hfaithful⟩
      exact ByName.of_faithful rfl (hsnd ▸ hfaithful)
    · intro hn
      refine ⟨by rw [List.length_map, List.length_map], ?_⟩
      change plan.Faithful (sig.parameters.map ParamSpec.name) names
      rw [hsnd] at hn
      exact hn.faithful ht

/-- A call with arguments of given names raises, or evaluates each argument once and binds
it to a parameter of its own, exactly when the names match the parameters. -/
theorem bindsEach_or_raises_iff [Inhabited S] (callable : Callable S)
    (names : List (Option String)) :
    callable.BindsEach names ∨ callable.Raises names ↔ callable.Matches names := by
  cases callable with
  | function sig hreq => exact function_iff hreq names
  | structRoutine ctx h routine env =>
    rw [raises_structRoutine, or_comm]
    exact or_congr Iff.rfl (bindsEach_of_range (assigns_structRoutine ctx h routine env names))
  | ffiMethod routine native receiver =>
    have hown := assigns_ffiMethod (S := S) routine native receiver names
    rw [or_iff_left (not_raises hown (fun i hi => List.mem_range.mp hi) fun _ => rfl)]
    exact bindsEach_of_range hown

/-- `routine move(int x, int y) { this.x = x; }` of a struct. -/
def move : RoutineDecl :=
  { name := "move"
    inputParams := [{ type := .ofParamType .int, name := "x" },
      { type := .ofParamType .int, name := "y" }]
    outputParams := []
    body := [.structFieldAssign {} (.var {} "this") "x" (.var {} "x")] }

def callOfMove : Callable Unit :=
  .structRoutine { host := Host.unlinked } (Interpreter.handlers { host := Host.unlinked } 1) move ∅

/-- `p.move(y = 1, x = 2)` binds `x` to 1 and raises no error. -/
theorem not_bindsEach_move :
    ¬ (callOfMove.BindsEach [some "y", some "x"] ∨ callOfMove.Raises [some "y", some "x"]) := by
  have hown : Assigns callOfMove [some "y", some "x"] (List.range 2) callOfMove.params ∅ :=
    assigns_structRoutine _ _ move ∅ [some "y", some "x"]
  rintro (hbinds | hraises)
  · have hposition := (bindsEach_of_range hown).mp hbinds
    exact absurd (hposition.named 0 "y" rfl) (by decide)
  · exact not_raises hown (fun i hi => List.mem_range.mp hi) (fun _ => rfl) hraises

/-! ## Signatures of a loaded engine -/

theorem required_paramSpecs (params : List ParamDecl) :
    ∀ spec ∈ AutotunerEngine.paramSpecs params true, spec.required = true := by
  intro spec hspec
  obtain ⟨param, _, rfl⟩ := List.mem_map.mp hspec
  rfl

/-- Every write of a signature requires all its parameters. -/
theorem required_of_writes {load : AutotunerEngine.Load}
    {registration : Registration ExternalFunction} {entry : String × Registered ExternalFunction}
    (hw : LoadHistory.Writes load (.function registration))
    (he : registration.entry BuiltinFunctionRegistry.createDefault = some entry) :
    ∀ spec ∈ entry.2.signature.parameters, spec.required = true := by
  cases hw with
  | foreign _ _ _ => cases he; exact required_paramSpecs _
  | autotunerFunction _ _ _ => cases he; exact required_paramSpecs _
  | inlineRoutine _ _ _ _ => cases he; exact required_paramSpecs _

/-- So a signature of an engine, whatever was loaded, is one that a call by name can meet. -/
theorem required_of_getSignature {loads : List AutotunerEngine.Load} {name : String}
    {sig : BuiltinSignature}
    (h : (AutotunerEngine.create.loadAll loads).functionRegistry.getSignature name = some sig) :
    ∀ spec ∈ sig.parameters, spec.required = true := by
  rw [LoadHistory.loadAll_eq, LoadHistory.functionRegistry_applyAll] at h
  change (FunctionRegistry.registerAll (FunctionRegistry.registerAll {} AutotunerEngine.builtins)
    _).getSignature name = some sig at h
  unfold FunctionRegistry.registerAll at h
  rw [← List.foldl_append] at h
  have hrecords := (FunctionRegistry.records
    (AutotunerEngine.builtins ++ (loads.flatMap LoadHistory.writes).filterMap
      LoadHistory.registrationOf)).signatures name
  obtain ⟨entry, hentry, rfl⟩ := Option.map_eq_some_iff.mp (hrecords.symm.trans h)
  have hmem := StdMap.mem_of_firstWrite hentry
  unfold FunctionRegistry.registrations at hmem
  rw [List.filterMap_append] at hmem
  rcases List.mem_append.mp hmem with hbuiltin | hload
  · have hall : (AutotunerEngine.builtins.filterMap (Registration.entry
        BuiltinFunctionRegistry.createDefault)).all (fun write =>
          write.2.signature.parameters.all ParamSpec.required) = true := by decide
    exact List.all_eq_true.mp (List.all_eq_true.mp hall _ hbuiltin)
  · obtain ⟨registration, hregistration, he⟩ := List.mem_filterMap.mp hload
    obtain ⟨write, hwrite, hr⟩ := List.mem_filterMap.mp hregistration
    obtain ⟨load, _, hw⟩ := List.mem_flatMap.mp hwrite
    cases write with
    | function r =>
      cases hr
      exact required_of_writes (LoadHistory.writes_of_mem hw) he
    | autotuner _ _ => cases hr
    | routine _ _ => cases hr
    | struct _ _ => cases hr
    | ffiMethod _ _ _ => cases hr

end FalconLib.Dsl.ArgumentBinding
