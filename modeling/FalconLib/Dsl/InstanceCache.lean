import FalconLib.Dsl.ExprEvaluator

/-!
# The cache of instances

Instances are kept in the type registry under their names, and an entry outlives the
declaration it was made from. The registry holds, under the name of an instance, what the
first call that succeeded for that name built.
-/

namespace FalconLib.Dsl.InstanceCache

open FalconLib.Base (Comp Outcome StdMap)
open TypeDescriptor (instanceName)

/-- What happens to the structs of a registry. The name of a declaration is an
identifier, so it does not end like the name of an instance. -/
inductive Operation where
  | registerStruct (decl : StructDecl) (h : '>' ∉ decl.name.toList)
  | monomorphizeStruct (base : StructDecl) (typeArgs : List TypeDescriptor)

/-- The instance of the declaration itself. -/
def instanceOf (base : StructDecl) (typeArgs : List TypeDescriptor) : Except Exception StructDecl :=
  monomorphize base (instanceName base.name typeArgs) typeArgs

variable {S : Type}

/-- A call in a world, as the evaluator makes it. -/
def call (w : World S) (base : StructDecl) (typeArgs : List TypeDescriptor) :
    Outcome Exception (World S) StructDecl :=
  (ExprEvaluator.monomorphizeStruct base typeArgs w).outcome

def step (w : World S) : Operation → World S
  | .registerStruct decl _ => { w with types := w.types.registerStruct decl }
  | .monomorphizeStruct base typeArgs =>
    match call w base typeArgs with
    | .ok _ w' | .throw _ w' => w'
    | .halt _ => w

def after (w : World S) (operations : List Operation) : World S := operations.foldl step w

/-- A call returns, or throws, what the declaration it was given yields. -/
def Correct (w : World S) (base : StructDecl) (typeArgs : List TypeDescriptor) : Prop :=
  match instanceOf base typeArgs with
  | .ok decl => ∃ w', call w base typeArgs = .ok decl w'
  | .error e => ∃ w', call w base typeArgs = .throw e w'

/-- Every call of the sequence is correct, in a process that starts without structs. -/
def Coherent (store : S) (operations : List Operation) : Prop :=
  ∀ before base typeArgs rest, operations = before ++ .monomorphizeStruct base typeArgs :: rest →
    Correct (after { store } before) base typeArgs

/-- The instance that an operation makes from its own declaration, when it has this name. -/
def Operation.builds (name : String) : Operation → Option StructDecl
  | .registerStruct _ _ => none
  | .monomorphizeStruct base typeArgs =>
    if instanceName base.name typeArgs = name then (instanceOf base typeArgs).toOption else none

/-- Where an earlier declaration has an instance with the name of a later one, it is the
instance of the later declaration as well. -/
def Consistent (operations : List Operation) : Prop :=
  ∀ before base typeArgs rest, operations = before ++ .monomorphizeStruct base typeArgs :: rest →
    ∀ earlier ∈ before, ∀ decl, earlier.builds (instanceName base.name typeArgs) = some decl →
      instanceOf base typeArgs = .ok decl

/-! ## One call -/

section Calls

variable {w : World S} {base decl : StructDecl} {typeArgs : List TypeDescriptor}

theorem call_of_some (h : w.types.structRegistry[instanceName base.name typeArgs]? = some decl) :
    call w base typeArgs = .ok decl w := by
  have hr := registeredStruct_outcome (instanceName base.name typeArgs) w
  rw [h] at hr
  unfold call ExprEvaluator.monomorphizeStruct
  exact Comp.bind_of_ok hr

theorem call_of_ok (h : w.types.structRegistry[instanceName base.name typeArgs]? = none)
    (hi : instanceOf base typeArgs = .ok decl) :
    call w base typeArgs = .ok decl
      { w with types := w.types.registerMonomorphizedStruct (instanceName base.name typeArgs) decl } := by
  have hr := registeredStruct_outcome (instanceName base.name typeArgs) w
  rw [h] at hr
  unfold call ExprEvaluator.monomorphizeStruct
  refine (Comp.bind_of_ok hr).trans ?_
  unfold instanceOf at hi
  simp only [hi]
  rfl

theorem call_of_error {e : Exception}
    (h : w.types.structRegistry[instanceName base.name typeArgs]? = none)
    (hi : instanceOf base typeArgs = .error e) : call w base typeArgs = .throw e w := by
  have hr := registeredStruct_outcome (instanceName base.name typeArgs) w
  rw [h] at hr
  unfold call ExprEvaluator.monomorphizeStruct
  refine (Comp.bind_of_ok hr).trans ?_
  unfold instanceOf at hi
  simp only [hi]
  rfl

theorem step_of_some (h : w.types.structRegistry[instanceName base.name typeArgs]? = some decl) :
    step w (.monomorphizeStruct base typeArgs) = w := by
  unfold step
  dsimp only
  rw [call_of_some h]

theorem step_of_ok (h : w.types.structRegistry[instanceName base.name typeArgs]? = none)
    (hi : instanceOf base typeArgs = .ok decl) :
    step w (.monomorphizeStruct base typeArgs) =
      { w with types := w.types.registerMonomorphizedStruct (instanceName base.name typeArgs) decl } := by
  unfold step
  dsimp only
  rw [call_of_ok h hi]

theorem step_of_error {e : Exception}
    (h : w.types.structRegistry[instanceName base.name typeArgs]? = none)
    (hi : instanceOf base typeArgs = .error e) :
    step w (.monomorphizeStruct base typeArgs) = w := by
  unfold step
  dsimp only
  rw [call_of_error h hi]

/-- Without an entry the call is about its own declaration. -/
theorem correct_of_none (h : w.types.structRegistry[instanceName base.name typeArgs]? = none) :
    Correct w base typeArgs := by
  unfold Correct
  cases hi : instanceOf base typeArgs with
  | ok decl => exact ⟨_, call_of_ok h hi⟩
  | error e => exact ⟨_, call_of_error h hi⟩

/-- With an entry the call is correct when the entry is the instance. -/
theorem correct_of_some
    (h : w.types.structRegistry[instanceName base.name typeArgs]? = some decl) :
    Correct w base typeArgs ↔ instanceOf base typeArgs = .ok decl := by
  unfold Correct
  rw [call_of_some h]
  cases instanceOf base typeArgs with
  | ok own =>
    constructor
    · rintro ⟨w', hw⟩
      injection hw with hd _
      rw [hd]
    · intro hi
      injection hi with hd
      exact ⟨w, by rw [hd]⟩
  | error e => exact ⟨nofun, nofun⟩

end Calls

/-! ## The registry after a sequence -/

theorem getLast?_instanceName (name : String) (args : List TypeDescriptor) :
    (instanceName name args).toList.getLast? = some '>' := by
  unfold instanceName
  rw [String.toList_append]
  exact List.getLast?_concat

/-- A registration touches no entry of an instance. -/
theorem getElem?_registerStruct (types : TypeRegistry) {decl : StructDecl}
    (h : '>' ∉ decl.name.toList) (name : String) (args : List TypeDescriptor) :
    (types.registerStruct decl).structRegistry[instanceName name args]? =
      types.structRegistry[instanceName name args]? := by
  have hlast := getLast?_instanceName name args
  have hbare : decl.name ≠ instanceName name args := by
    intro he
    rw [← he] at hlast
    exact h (List.mem_of_getLast? hlast)
  have hqualified : decl.moduleName ++ "::" ++ decl.name ≠ instanceName name args := by
    intro he
    rw [← he, String.append_assoc, String.toList_append,
      List.getLast?_append_of_ne_nil _ (by simp)] at hlast
    have hmem := List.mem_of_getLast? hlast
    rw [String.toList_append] at hmem
    rcases List.mem_append.mp hmem with hc | hc
    · exact absurd hc (by decide)
    · exact h hc
  unfold TypeRegistry.registerStruct
  dsimp only
  by_cases hm : decl.moduleName.isEmpty
  · rw [if_pos hm, StdMap.getElem?_assign_ne _ _ hbare]
  · rw [if_neg hm, StdMap.getElem?_assign_ne _ _ hqualified, StdMap.getElem?_assign_ne _ _ hbare]

/-- An entry of an instance stays; where there is none, a call puts what it builds. -/
theorem getElem?_step (w : World S) (operation : Operation) (name : String)
    (args : List TypeDescriptor) :
    (step w operation).types.structRegistry[instanceName name args]? =
      w.types.structRegistry[instanceName name args]?.or
        (operation.builds (instanceName name args)) := by
  cases operation with
  | registerStruct decl h => exact (getElem?_registerStruct _ h name args).trans Option.or_none.symm
  | monomorphizeStruct base typeArgs =>
    change _ = Option.or _ (if instanceName base.name typeArgs = instanceName name args then
      (instanceOf base typeArgs).toOption else none)
    cases hw : w.types.structRegistry[instanceName base.name typeArgs]? with
    | some cached =>
      rw [step_of_some hw]
      by_cases hn : instanceName base.name typeArgs = instanceName name args
      · rw [← hn, hw, Option.some_or]
      · rw [if_neg hn, Option.or_none]
    | none =>
      cases hi : instanceOf base typeArgs with
      | error e =>
        rw [step_of_error hw hi]
        change _ = Option.or _ (if _ then none else none)
        rw [ite_self, Option.or_none]
      | ok decl =>
        rw [step_of_ok hw hi]
        by_cases hn : instanceName base.name typeArgs = instanceName name args
        · rw [← hn, hw, if_pos rfl, Option.none_or]
          exact StdMap.getElem?_assign_self _ _ _
        · rw [if_neg hn, Option.or_none]
          exact StdMap.getElem?_assign_ne _ _ hn

theorem getElem?_after (w : World S) (operations : List Operation) (name : String)
    (args : List TypeDescriptor) :
    (after w operations).types.structRegistry[instanceName name args]? =
      w.types.structRegistry[instanceName name args]?.or
        (operations.findSome? (Operation.builds (instanceName name args))) := by
  induction operations generalizing w with
  | nil => exact Option.or_none.symm
  | cons operation operations ih =>
    change (after (step w operation) operations).types.structRegistry[instanceName name args]? = _
    rw [ih, getElem?_step, Option.or_assoc, List.findSome?_cons]
    cases operation.builds (instanceName name args) <;> rfl

/-- The entry of an instance is what the first declaration with such an instance yields. -/
theorem getElem?_after_fresh (store : S) (operations : List Operation) (name : String)
    (args : List TypeDescriptor) :
    (after { store } operations).types.structRegistry[instanceName name args]? =
      operations.findSome? (Operation.builds (instanceName name args)) :=
  (getElem?_after _ operations name args).trans (Option.none_or ..)

/-! ## Coherence -/

/-- A declaration that built an instance agreed with the first one that did. -/
theorem Coherent.builds_eq {store : S} {operations rest : List Operation}
    (h : Coherent store operations) {before : List Operation}
    (hsplit : operations = before ++ rest) {name : String} {first decl : StructDecl}
    (hfirst : before.findSome? (Operation.builds name) = some first) {earlier : Operation}
    (hmem : earlier ∈ before) (hbuilds : earlier.builds name = some decl) : decl = first := by
  obtain ⟨front, back, rfl⟩ := List.append_of_mem hmem
  rw [List.findSome?_append, List.findSome?_cons, hbuilds] at hfirst
  cases hfront : front.findSome? (Operation.builds name) with
  | none =>
    rw [hfront] at hfirst
    exact Option.some.inj hfirst
  | some cached =>
    rw [hfront] at hfirst
    have hcached : cached = first := Option.some.inj hfirst
    cases earlier with
    | registerStruct _ _ => exact absurd hbuilds nofun
    | monomorphizeStruct base typeArgs =>
      change (if instanceName base.name typeArgs = name then
        (instanceOf base typeArgs).toOption else none) = some decl at hbuilds
      by_cases hn : instanceName base.name typeArgs = name
      · rw [if_pos hn] at hbuilds
        subst hn
        have hcorrect := h front base typeArgs (back ++ rest) (by rw [hsplit]; simp)
        rw [correct_of_some ((getElem?_after_fresh store front _ _).trans hfront)] at hcorrect
        rw [hcorrect] at hbuilds
        rw [← hcached]
        exact (Option.some.inj hbuilds).symm
      · rw [if_neg hn] at hbuilds
        exact absurd hbuilds nofun

/-- Every call returns the instance of its own declaration exactly when declarations whose
instances share a name have the same instance. -/
theorem coherent_iff_consistent (store : S) (operations : List Operation) :
    Coherent store operations ↔ Consistent operations := by
  constructor
  · intro h before base typeArgs rest hsplit earlier hmem decl hbuilds
    obtain ⟨first, hfirst⟩ : ∃ first, before.findSome?
        (Operation.builds (instanceName base.name typeArgs)) = some first := by
      rw [← Option.isSome_iff_exists, List.findSome?_isSome_iff]
      exact ⟨earlier, hmem, by rw [hbuilds]; rfl⟩
    have hcorrect := h before base typeArgs rest hsplit
    rw [correct_of_some ((getElem?_after_fresh store before _ _).trans hfirst)] at hcorrect
    rw [hcorrect, h.builds_eq hsplit hfirst hmem hbuilds]
  · intro h before base typeArgs rest hsplit
    cases hfirst : before.findSome? (Operation.builds (instanceName base.name typeArgs)) with
    | none => exact correct_of_none ((getElem?_after_fresh store before _ _).trans hfirst)
    | some first =>
      rw [correct_of_some ((getElem?_after_fresh store before _ _).trans hfirst)]
      obtain ⟨earlier, hmem, hbuilds⟩ := List.exists_of_findSome?_eq_some hfirst
      exact h before base typeArgs rest hsplit earlier hmem first hbuilds

/-! ## A declaration that is replaced -/

/-- `struct Box<T> { T value; }`. -/
def box : StructDecl :=
  { name := "Box"
    genericParams := ["T"]
    fields := [{ type := .makeStruct "T", name := "value" }]
    routines := [] }

/-- The `Box` of another module: `struct Box<T> { T content; }`. -/
def otherBox : StructDecl :=
  { box with fields := [{ type := .makeStruct "T", name := "content" }] }

def boxes : List Operation :=
  [.registerStruct box (by decide), .monomorphizeStruct box [.ofParamType .int],
    .registerStruct otherBox (by decide), .monomorphizeStruct otherBox [.ofParamType .int]]

/-- The second call returns the instance of the first `Box`. -/
theorem not_coherent_boxes : ¬ Coherent () boxes := by
  intro h
  let name := instanceName otherBox.name [.ofParamType .int]
  have hfields : ((boxes.take 3).findSome? (Operation.builds name)).map (fun decl =>
      decl.fields.map VarDeclStmt.name) = some ["value"] := by decide +kernel
  obtain ⟨first, hfirst, hvalue⟩ := Option.map_eq_some_iff.mp hfields
  have hcorrect := h (boxes.take 3) otherBox [.ofParamType .int] [] rfl
  rw [correct_of_some ((getElem?_after_fresh () (boxes.take 3) otherBox.name _).trans hfirst)]
    at hcorrect
  have hcontent : (instanceOf otherBox [.ofParamType .int]).toOption.map (fun decl =>
      decl.fields.map VarDeclStmt.name) = some ["content"] := by decide +kernel
  rw [hcorrect] at hcontent
  exact absurd (hvalue.symm.trans (Option.some.inj hcontent)) (by decide)

end FalconLib.Dsl.InstanceCache
