import FalconLib.Dsl.Interpreter

/-!
# Two evaluations side by side

The relation behind the two-run properties. Two worlds are linked when they share heap
and store, when their registries agree on the lookups that are allowed, and when their
member maps are related by some `r`. Expressions may be evaluated on different maps as
long as these agree on the names that occur. A static call evaluates the initialisers of
its struct on the map of its caller; `Reach` bounds what those may look up.
-/

namespace FalconLib.Dsl.Coupling

open FalconLib.Base

/-! ## What an expression looks up -/

/-- A lookup of a variable, or of a struct for a receiver that is a name. -/
inductive Mention where
  | name (name : String)
  | struct (name : String)
deriving DecidableEq

/-- A variable is looked up as written and without its module. -/
def variableNames (name : String) : List Mention := [.name name, .name (stripModulePrefix name)]

/-- A receiver is looked up as written or under the injected name. -/
def receiverNames (info : ExprInfo) : Expr → List Mention
  | .var _ name =>
    let injected := (ExprEvaluator.injectedReceiver info name).1
    [.struct name, .struct (stripModulePrefix name), .struct injected,
      .struct (stripModulePrefix injected)]
  | _ => []

mutual

def mentions : Expr → List Mention
  | .literal _ _ | .nilLiteral _ => []
  | .var _ name => variableNames name
  | .binary _ _ left right => mentions left ++ mentions right
  | .unary _ _ operand => mentions operand
  | .member _ object _ => mentions object
  | .methodCall info object _ args =>
    receiverNames info object ++ (mentions object ++ listMentions args)
  | .index _ object index => mentions object ++ mentions index
  | .call _ _ arguments => argumentMentions arguments

def listMentions : List Expr → List Mention
  | [] => []
  | expr :: exprs => mentions expr ++ listMentions exprs

def argumentMentions : List (Option String × Expr) → List Mention
  | [] => []
  | (_, value) :: arguments => mentions value ++ argumentMentions arguments

end

theorem receiverNames_clone (info : ExprInfo) (receiver : Expr) :
    receiverNames info.clone receiver.clone ⊆ receiverNames info receiver := by
  intro m hm
  cases receiver with
  | var _ name =>
    have hm : m ∈ [Mention.struct name, .struct (stripModulePrefix name), .struct name,
      .struct (stripModulePrefix name)] := hm
    simp only [receiverNames, List.mem_cons, List.not_mem_nil, or_false] at hm ⊢
    tauto
  | _ => exact absurd hm List.not_mem_nil

theorem append_subset_append {α : Type} {l₁ l₂ m₁ m₂ : List α} (hl : l₁ ⊆ l₂) (hm : m₁ ⊆ m₂) :
    l₁ ++ m₁ ⊆ l₂ ++ m₂ :=
  List.append_subset.mpr ⟨List.subset_append_of_subset_left _ hl,
    List.subset_append_of_subset_right _ hm⟩

mutual

/-- A clone has lost annotations, so it may look up less. -/
theorem mentions_clone : ∀ e : Expr, mentions e.clone ⊆ mentions e
  | .literal _ _ | .nilLiteral _ | .var _ _ => List.Subset.refl _
  | .binary _ _ left right => append_subset_append (mentions_clone left) (mentions_clone right)
  | .unary _ _ operand => mentions_clone operand
  | .member _ object _ => mentions_clone object
  | .methodCall info object _ args =>
    append_subset_append (receiverNames_clone info object)
      (append_subset_append (mentions_clone object) (listMentions_clone args))
  | .index _ object index => append_subset_append (mentions_clone object) (mentions_clone index)
  | .call _ _ arguments => argumentMentions_clone arguments

theorem listMentions_clone : ∀ es : List Expr,
    listMentions (Expr.cloneList es) ⊆ listMentions es
  | [] => List.Subset.refl _
  | e :: es => append_subset_append (mentions_clone e) (listMentions_clone es)

theorem argumentMentions_clone : ∀ args : List (Option String × Expr),
    argumentMentions (Expr.cloneArgs args) ⊆ argumentMentions args
  | [] => List.Subset.refl _
  | (_, value) :: args =>
    append_subset_append (mentions_clone value) (argumentMentions_clone args)

end

/-! ## Reach -/

/-- The variables, and the structs by base name, that may be looked up when an
initialiser is evaluated on the map of a caller. -/
structure Reach where
  names : String → Prop
  structs : String → Prop
  /-- What is true of a registry, and stays so when an instance is added. -/
  kept : TypeRegistry → Prop := fun _ => True
  closed : ∀ (types : TypeRegistry) (name : String) (decl : StructDecl), '<' ∈ name.toList →
    types.structRegistry[name]? = none → kept types →
      kept (types.registerMonomorphizedStruct name decl) := by exact fun _ _ _ _ _ _ => trivial

namespace Reach

/-- Enough where both sides see the same map. -/
def none : Reach where
  names _ := False
  structs _ := False

def Has (reach : Reach) : Mention → Prop
  | .name name => reach.names name
  | .struct name => reach.structs (baseName name)

/-- The initialisers of a struct stay within reach. -/
structure Contains (reach : Reach) (decl : StructDecl) : Prop where
  base : reach.structs (baseName decl.name)
  initialisers : ∀ field ∈ decl.fields, ∀ e, field.initializer = some e →
    ∀ m ∈ mentions e, reach.Has m

/-- A struct found under a name is contained if that name or its own is within reach. -/
def Admits (reach : Reach) (name : String) (decl : StructDecl) : Prop :=
  reach.structs (baseName name) ∨ reach.structs (baseName decl.name) → reach.Contains decl

end Reach

theorem Reach.none_admits (name : String) (decl : StructDecl) : Reach.none.Admits name decl :=
  fun h => (or_self_iff.mp h).elim

/-- On two maps that agree on the names in `known` a mention is looked up alike. -/
def Covers (known : String → Prop) (reach : Reach) : Mention → Prop
  | .name name => known name
  | .struct name => (∀ n, known n) ∨ reach.structs (baseName name)

theorem Covers.of_all {known : String → Prop} {reach : Reach} (h : ∀ n, known n) (m : Mention) :
    Covers known reach m := by
  cases m with
  | name name => exact h name
  | struct name => exact .inl h

theorem Covers.of_has {known : String → Prop} {reach : Reach} {m : Mention}
    (hreach : ∀ n, reach.names n → known n) (h : reach.Has m) : Covers known reach m := by
  cases m with
  | name name => exact hreach name h
  | struct name => exact .inr h

/-- An instance has the base name of its generic struct, and its initialisers. -/
theorem monomorphize_contains (reach : Reach) {base decl : StructDecl}
    {typeArgs : List TypeDescriptor}
    (hm : monomorphize base (TypeDescriptor.instanceName base.name typeArgs) typeArgs = .ok decl) :
    decl.name = TypeDescriptor.instanceName base.name typeArgs ∧
      (reach.Contains base → reach.Contains decl) := by
  unfold monomorphize at hm
  split at hm
  · cases hm
    refine ⟨rfl, fun h => ⟨?_, fun field hf e he m hme => ?_⟩⟩
    · change reach.structs (baseName (TypeDescriptor.instanceName base.name typeArgs))
      rw [baseName_instanceName]
      exact h.base
    · obtain ⟨field', hf', rfl⟩ := List.mem_map.mp hf
      obtain ⟨e', he', rfl⟩ := Option.map_eq_some_iff.mp he
      exact h.initialisers field' hf' e' he' m (mentions_clone e' hme)
  · cases hm

/-! ## Linked worlds -/

variable {S : Type} (allowed : Query → Prop) (reach : Reach)

/-- Only the second registry has a struct of this name: one that the first run may not pass
over, and that it would make itself. -/
structure Ahead (t₁ t₂ : TypeRegistry) (name : String) : Prop where
  generic : '<' ∈ name.toList
  absent : t₁.structRegistry[name]? = none
  noticed : ¬ allowed (.fallback name)
  made : ∃ decl, t₂.structRegistry[name]? = some decl ∧ ∀ base typeArgs,
    TypeDescriptor.instanceName base.name typeArgs = name →
      allowed (.instantiation base typeArgs) → monomorphize base name typeArgs = .ok decl

structure TypesAgree (t₁ t₂ : TypeRegistry) : Prop where
  structs : ∀ name, allowed (.structType name) →
    t₁.structRegistry[name]? = t₂.structRegistry[name]? ∨ Ahead allowed t₁ t₂ name
  ffiMethods : ∀ typeName method, allowed (.ffiMethod typeName method) →
    (t₁.ffiMethods[typeName]?.bind fun methods => methods[method]?) =
      t₂.ffiMethods[typeName]?.bind fun methods => methods[method]?
  typeMethods : ∀ typeName method, allowed (.typeMethod typeName method) →
    (t₁.typeMethods[typeName]?.bind fun methods => methods[method]?) =
      t₂.typeMethods[typeName]?.bind fun methods => methods[method]?
  admitted : ∀ (name : String) (decl : StructDecl), t₁.structRegistry[name]? = some decl →
    reach.Admits name decl
  kept : reach.kept t₁

/-- The relation `r` holds of the member maps, and everything else is shared. -/
structure Linked (r : ParameterMap → ParameterMap → Prop) (w₁ w₂ : World S) : Prop where
  maps : r w₁.memberVariables w₂.memberVariables
  heap : w₁.heap = w₂.heap
  store : w₁.store = w₂.store
  types : TypesAgree allowed reach w₁.types w₂.types

/-- Equal results with `p` on linked worlds, which stay linked. -/
abbrev Alike {α : Type} (r : ParameterMap → ParameterMap → Prop) (m₁ m₂ : M S α)
    (p : α → Prop := fun _ => True) : Prop :=
  Agree allowed (Linked allowed reach r) m₁ m₂ p

structure ContextsAgree (ctx₁ ctx₂ : Context S) : Prop where
  functions : ∀ name, allowed (.function name) →
    ctx₁.functions.lookup name = ctx₂.functions.lookup name
  signatures : ∀ name, allowed (.function name) →
    ctx₁.functions.getSignature name = ctx₂.functions.getSignature name
  autotuners : ∀ qname, allowed (.autotuner qname) →
    ctx₁.loadedAutotuners[qname]? = ctx₂.loadedAutotuners[qname]?
  routines : ∀ qname, allowed (.routine qname) →
    ctx₁.routineDeclarations[qname]? = ctx₂.routineDeclarations[qname]?
  host : ctx₁.host = ctx₂.host
  sources : ctx₁.sources = ctx₂.sources

/-- The maps that two evaluations see agree on `known`, whatever related member maps
they are run on. -/
def ReadAlike (r : ParameterMap → ParameterMap → Prop) (known : String → Prop)
    (vars₁ vars₂ : Variables) : Prop :=
  ∀ w₁ w₂ : World S, r w₁.memberVariables w₂.memberVariables →
    ∀ n, known n → (vars₁.read w₁)[n]? = (vars₂.read w₂)[n]?

/-- Two handlers that agree on linked worlds, whatever the relation of the maps. -/
structure HandlersAgree (h₁ h₂ : Handlers S) : Prop where
  evaluate : ∀ r known vars₁ vars₂ e, ReadAlike (S := S) r known vars₁ vars₂ →
    (∀ n, reach.names n → known n) → (∀ m ∈ mentions e, Covers known reach m) →
    Alike allowed reach r (h₁.evaluate vars₁ e) (h₂.evaluate vars₂ e)
  execStructRoutine : ∀ r id decl routine args,
    Alike allowed reach r (h₁.execStructRoutine id decl routine args)
      (h₂.execStructRoutine id decl routine args)
  callFunction : ∀ r function params,
    Alike allowed reach r (h₁.callFunction function params)
      (h₂.callFunction function params)

variable {allowed reach} {r : ParameterMap → ParameterMap → Prop}

/-! ## What two linked runs have in common -/

structure SameEffects (w₁ w₂ : World S) : Prop where
  heap : w₁.heap = w₂.heap
  store : w₁.store = w₂.store

/-- The same value or exception, and the same effects. -/
def SameResult {α : Type} (o₁ o₂ : Outcome Exception (World S) α) : Prop :=
  Outcome.Related (fun a b w₁ w₂ => a = b ∧ SameEffects w₁ w₂) (fun _ => SameEffects) o₁ o₂

theorem SameResult.value?_eq {α : Type} {o₁ o₂ : Outcome Exception (World S) α}
    (h : SameResult o₁ o₂) : o₁.value? = o₂.value? := by
  cases o₁ with
  | ok a s =>
    cases o₂ with
    | ok b t => exact congrArg some h.1
    | throw f t => exact h.elim
    | halt r => exact h.elim
  | throw e s => cases o₂ <;> first | rfl | exact h.elim
  | halt r => cases o₂ <;> first | rfl | exact h.elim

theorem SameResult.of_related {α : Type} {r : ParameterMap → ParameterMap → Prop} {p : α → Prop}
    {o₁ o₂ : Outcome Exception (World S) α}
    (h : Outcome.Related (fun a b w₁ w₂ => (a = b ∧ p a) ∧ Linked allowed reach r w₁ w₂)
      (fun _ => Linked allowed reach r) o₁ o₂) : SameResult o₁ o₂ :=
  h.mono (fun _ _ _ _ hq => ⟨hq.1.1, hq.2.heap, hq.2.store⟩)
    fun _ _ _ hl => ⟨hl.heap, hl.store⟩

/-! ## Access to the world -/

section World

theorem evaluationError_agree {α : Type} {p : α → Prop} (message : String) :
    Alike allowed reach r (evaluationError message : M S α)
      (evaluationError message) p :=
  Agree.throw _

theorem getHeap_agree : Alike (S := S) allowed reach r getHeap getHeap :=
  Agree.gets fun _ _ h => h.heap

theorem modifyHeap_agree (f : Heap → Heap) :
    Alike (S := S) allowed reach r (modifyHeap f) (modifyHeap f) :=
  Agree.modify fun _ _ h => ⟨h.maps, congrArg f h.heap, h.store, h.types⟩

theorem structAt_agree (id : Nat) :
    Alike (S := S) allowed reach r (structAt id) (structAt id) :=
  Agree.gets fun _ _ h => by rw [h.heap]

theorem setField_agree (id : Nat) (name : String) (value : RuntimeValue) :
    Alike (S := S) allowed reach r (setField id name value)
      (setField id name value) :=
  modifyHeap_agree _

theorem makeStruct_agree (typeName : String) :
    Alike (S := S) allowed reach r (makeStruct typeName)
      (makeStruct typeName) :=
  Agree.bind getHeap_agree fun _ _ =>
    Agree.bind (modifyHeap_agree _) fun _ _ => Agree.pure trivial

theorem packResult_agree (result : FunctionResult) :
    Alike (S := S) allowed reach r (packResult result) (packResult result) := by
  unfold packResult
  split
  · exact Agree.pure trivial
  · exact Agree.pure trivial
  · exact Agree.bind getHeap_agree fun _ _ =>
      Agree.bind (modifyHeap_agree _) fun _ _ => Agree.pure trivial

theorem runHost_agree (f : Heap → S → Except Exception FunctionResult × Heap × S) :
    Alike allowed reach r (runHost f) (runHost f) := by
  intro s t hs _
  unfold runHost
  have hf : f s.heap s.store = f t.heap t.store := by rw [hs.heap, hs.store]
  change Outcome.Related _ _ (Comp.bind _ _ s).outcome (Comp.bind _ _ t).outcome
  simp only [Comp.bind, Comp.gets_apply, id_eq, hf]
  rcases f t.heap t.store with ⟨result, heap, store⟩
  cases result with
  | ok values => exact ⟨⟨rfl, trivial⟩, hs.maps, rfl, rfl, hs.types⟩
  | error e => exact ⟨rfl, hs.maps, rfl, rfl, hs.types⟩

/-- Both answers are the same, or the second registry is ahead. -/
theorem registeredStruct_coupled (name : String) :
    Coupled allowed (Linked allowed reach r) (registeredStruct name : M S (Option StructDecl))
      (registeredStruct name)
      (fun found₁ found₂ w₁ w₂ => (found₁ = w₁.types.structRegistry[name]? ∧
        (found₁ = found₂ ∨ found₂ = w₂.types.structRegistry[name]? ∧
          Ahead allowed w₁.types w₂.types name)) ∧ Linked allowed reach r w₁ w₂)
      (fun _ => Linked allowed reach r) := by
  intro w₁ w₂ hl ha
  have hallowed := ha (.structType name) List.mem_cons_self
  exact ⟨⟨rfl, (hl.types.structs name hallowed).imp_right fun h => ⟨rfl, h⟩⟩, hl⟩

theorem registeredStruct_agree {name : String} (hn : '<' ∉ name.toList) :
    Alike (S := S) allowed reach r (registeredStruct name)
      (registeredStruct name) fun found =>
        ∀ decl, found = some decl → reach.Admits name decl := by
  refine (registeredStruct_coupled name).conseq (fun _ _ h => h) ?_ fun _ _ _ h => h
  rintro found₁ found₂ w₁ w₂ ⟨⟨hfound, hsame⟩, hl⟩
  refine ⟨⟨hsame.resolve_right fun h => hn h.2.generic, fun decl hd => ?_⟩, hl⟩
  exact hl.types.admitted name decl (hfound.symm.trans hd)

theorem Reach.Admits.of_base {name₁ name₂ : String} {decl : StructDecl}
    (h : reach.Admits name₂ decl) (hb : baseName name₁ = baseName name₂) :
    reach.Admits name₁ decl := by
  unfold Reach.Admits
  rw [hb]
  exact h

theorem lookupStruct_agree (name : String) :
    Alike (S := S) allowed reach r (lookupStruct name) (lookupStruct name)
      fun found => ∀ decl, found = some decl → reach.Admits name decl := by
  refine Coupled.bind (registeredStruct_coupled name) ?_
  rintro found₁ found₂ w₁ w₂ ⟨⟨hfound, hsame⟩, hl⟩ ha
  cases found₁ with
  | some decl =>
    have hb : some decl = found₂ := hsame.resolve_right fun h =>
      absurd (hfound.trans h.2.absent) (Option.some_ne_none decl)
    subst hb
    refine Agree.pure (I := Linked allowed reach r) (fun d hd => ?_) w₁ w₂ hl ha
    exact hl.types.admitted name d (hfound.symm.trans hd)
  | none =>
    rcases hsame with rfl | ⟨_, hahead⟩
    · refine Agree.ask_bind (fun _ => ?_) w₁ w₂ hl ha
      cases hg : genericBase name with
      | some base =>
        obtain ⟨hname, hbase⟩ := genericBase_eq_some hg
        exact (registeredStruct_agree (not_mem_genericBase hg)).mono fun found hf decl hd =>
          (hf decl hd).of_base (hname.trans hbase.symm)
      | none => exact Agree.pure fun decl hd => absurd hd.symm (Option.some_ne_none decl)
    · exact absurd (ha (.fallback name) List.mem_cons_self) hahead.noticed

theorem registeredFfiMethod_agree (typeName methodName : String) :
    Alike (S := S) allowed reach r (registeredFfiMethod typeName methodName)
      (registeredFfiMethod typeName methodName) :=
  Agree.ask_bind fun ha => Agree.gets fun _ _ hs => hs.types.ffiMethods _ _ ha

theorem lookupFfiMethod_agree (typeName methodName : String) :
    Alike (S := S) allowed reach r (lookupFfiMethod typeName methodName)
      (lookupFfiMethod typeName methodName) := by
  refine Agree.bind (registeredFfiMethod_agree _ _) fun found _ => ?_
  cases found with
  | some method => exact Agree.pure trivial
  | none =>
    cases genericBase typeName with
    | some base => exact registeredFfiMethod_agree _ _
    | none => exact Agree.pure trivial

theorem registeredMethod_agree (typeName methodName : String) :
    Alike (S := S) allowed reach r (registeredMethod typeName methodName)
      (registeredMethod typeName methodName) :=
  Agree.ask_bind fun ha => Agree.gets fun _ _ hs => hs.types.typeMethods _ _ ha

theorem lookupMethod_agree (typeName methodName : String) :
    Alike (S := S) allowed reach r (lookupMethod typeName methodName)
      (lookupMethod typeName methodName) := by
  refine Agree.bind (registeredMethod_agree _ _) fun found _ => ?_
  cases found with
  | some method => exact Agree.pure trivial
  | none =>
    dsimp only
    split
    · exact registeredMethod_agree _ _
    · exact Agree.pure trivial

end World

/-! ## Expressions -/

section Expressions

open ExprEvaluator

variable {ctx₁ ctx₂ : Context S} {h₁ h₂ : Handlers S} {vars₁ vars₂ : Variables}
  {known : String → Prop}

theorem evalVariable_agree (hv : ReadAlike (S := S) r known vars₁ vars₂) {name : String}
    (hn : ∀ m ∈ variableNames name, Covers known reach m) :
    Alike (S := S) allowed reach r (evalVariable vars₁ name) (evalVariable vars₂ name) := by
  refine Coupled.bind Coupled.gets fun map₁ map₂ s t hs => ?_
  obtain ⟨⟨rfl, rfl⟩, hl⟩ := hs
  have hread := hv s t hl.maps
  rw [hread name (hn (.name name) List.mem_cons_self),
    hread (stripModulePrefix name) (hn (.name _) (List.mem_cons_of_mem _ List.mem_cons_self))]
  refine (?_ : Alike allowed reach r _ _) s t hl
  split
  · exact Agree.pure trivial
  · split
    · split
      · exact Agree.pure trivial
      · exact evaluationError_agree _
    · exact evaluationError_agree _

theorem getField_agree (id : Nat) (name : String) :
    Alike (S := S) allowed reach r (getField id name) (getField id name) := by
  refine Agree.bind getHeap_agree fun heap _ => ?_
  split
  · exact Agree.pure trivial
  · exact Agree.bind (setField_agree _ _ _) fun _ _ => Agree.pure trivial

theorem evalMember_agree (object : RuntimeValue) (member : String) :
    Alike (S := S) allowed reach r (evalMember object member) (evalMember object member) := by
  unfold evalMember
  split
  · refine Agree.bind (structAt_agree _) fun found _ => ?_
    split
    · exact getField_agree _ _
    · exact evaluationError_agree _
  · exact Agree.bind getHeap_agree fun _ _ => evaluationError_agree _

/-- The instance that the first registry gets when a struct is made. -/
theorem registerInstance_types {base decl : StructDecl} {typeArgs : List TypeDescriptor}
    (hb : reach.structs (baseName base.name) → reach.Contains base)
    (hm : monomorphize base (TypeDescriptor.instanceName base.name typeArgs) typeArgs = .ok decl)
    {t₁ t₂ t : TypeRegistry} (ht : TypesAgree allowed reach t₁ t₂)
    (hnone : t₁.structRegistry[TypeDescriptor.instanceName base.name typeArgs]? = none)
    (hffi : t.ffiMethods = t₂.ffiMethods) (hmethods : t.typeMethods = t₂.typeMethods)
    (hstructs : ∀ name, t.structRegistry[name]? =
      if TypeDescriptor.instanceName base.name typeArgs = name then some decl
      else t₂.structRegistry[name]?) :
    TypesAgree allowed reach
      (t₁.registerMonomorphizedStruct (TypeDescriptor.instanceName base.name typeArgs) decl) t := by
  obtain ⟨hname, hcontains⟩ := monomorphize_contains reach hm
  refine ⟨fun name ha => ?_, ?_, ?_, fun name d hn => ?_, 
    reach.closed _ _ _ (mem_instanceName _ _) hnone ht.kept⟩
  · have hassign := StdMap.getElem?_assign t₁.structRegistry
      (TypeDescriptor.instanceName base.name typeArgs) name decl
    by_cases hkey : TypeDescriptor.instanceName base.name typeArgs = name
    · rw [if_pos hkey] at hassign
      exact .inl (hassign.trans ((hstructs name).trans (if_pos hkey)).symm)
    · rw [if_neg hkey] at hassign
      have hother := (hstructs name).trans (if_neg hkey)
      refine (ht.structs name ha).imp (fun h => hassign.trans (h.trans hother.symm)) fun h => ?_
      obtain ⟨d, hd, hmade⟩ := h.made
      exact ⟨h.generic, hassign.trans h.absent, h.noticed, d, hother.trans hd, hmade⟩
  · rw [hffi]
    exact ht.ffiMethods
  · rw [hmethods]
    exact ht.typeMethods
  · simp only [TypeRegistry.registerMonomorphizedStruct, StdMap.getElem?_assign] at hn
    split at hn
    · rename_i hkey
      cases hn
      intro h
      rw [← hkey, hname, or_self, baseName_instanceName] at h
      exact hcontains (hb h)
    · exact ht.admitted name d hn

/-- Registering an instance on both sides keeps the worlds linked. -/
theorem registerInstance_linked {base decl : StructDecl} {typeArgs : List TypeDescriptor}
    (hb : reach.structs (baseName base.name) → reach.Contains base)
    (hm : monomorphize base (TypeDescriptor.instanceName base.name typeArgs) typeArgs = .ok decl)
    {w₁ w₂ : World S} (hl : Linked allowed reach r w₁ w₂)
    (hnone : w₁.types.structRegistry[TypeDescriptor.instanceName base.name typeArgs]? = none) :
    let monoName := TypeDescriptor.instanceName base.name typeArgs
    Linked allowed reach r
      { w₁ with types := w₁.types.registerMonomorphizedStruct monoName decl }
      { w₂ with types := w₂.types.registerMonomorphizedStruct monoName decl } :=
  ⟨hl.maps, hl.heap, hl.store, registerInstance_types hb hm hl.types hnone rfl rfl fun _ =>
    StdMap.getElem?_assign _ _ _ _⟩

/-- The first side makes an instance that the second side has already. -/
theorem catchUp_linked {base decl : StructDecl} {typeArgs : List TypeDescriptor}
    (hb : reach.structs (baseName base.name) → reach.Contains base)
    (hm : monomorphize base (TypeDescriptor.instanceName base.name typeArgs) typeArgs = .ok decl)
    {w₁ w₂ : World S} (hl : Linked allowed reach r w₁ w₂)
    (hnone : w₁.types.structRegistry[TypeDescriptor.instanceName base.name typeArgs]? = none)
    (hsome : w₂.types.structRegistry[TypeDescriptor.instanceName base.name typeArgs]? = some decl) :
    let monoName := TypeDescriptor.instanceName base.name typeArgs
    Linked allowed reach r
      { w₁ with types := w₁.types.registerMonomorphizedStruct monoName decl } w₂ := by
  refine ⟨hl.maps, hl.heap, hl.store, registerInstance_types hb hm hl.types hnone rfl rfl ?_⟩
  intro name
  by_cases hkey : TypeDescriptor.instanceName base.name typeArgs = name
  · rw [if_pos hkey, ← hkey, hsome]
  · rw [if_neg hkey]

/-- The struct of a static call: all names are known, or its initialisers stay within
reach. -/
structure Callable (known : String → Prop) (reach : Reach) (decl : StructDecl) : Prop where
  sound : reach.structs (baseName decl.name) → reach.Contains decl
  contained : (∀ n, known n) ∨ reach.Contains decl

theorem Callable.instance_ {base decl : StructDecl} (hb : Callable known reach base)
    {typeArgs : List TypeDescriptor}
    (hm : monomorphize base (TypeDescriptor.instanceName base.name typeArgs) typeArgs = .ok decl) :
    Callable known reach decl := by
  obtain ⟨hname, hcontains⟩ := monomorphize_contains reach hm
  refine ⟨fun h => hcontains (hb.sound ?_), hb.contained.imp_right hcontains⟩
  rw [hname, baseName_instanceName] at h
  exact h

theorem monomorphizeStruct_agree {base : StructDecl} (hb : Callable known reach base)
    (typeArgs : List TypeDescriptor) :
    Alike (S := S) allowed reach r (monomorphizeStruct base typeArgs)
      (monomorphizeStruct base typeArgs) (Callable known reach) := by
  refine Coupled.bind (registeredStruct_coupled _) ?_
  rintro found₁ found₂ w₁ w₂ ⟨⟨hfound, hsame⟩, hl⟩ ha
  cases found₁ with
  | some decl =>
    have hcached : some decl = found₂ := hsame.resolve_right fun h =>
      absurd (hfound.trans h.2.absent) (Option.some_ne_none decl)
    subst hcached
    have hd := hl.types.admitted _ _ hfound.symm
    refine Agree.pure (I := Linked allowed reach r) ⟨fun h => hd (.inr h),
      hb.contained.imp_right fun hc => hd (.inl ?_)⟩ w₁ w₂ hl ha
    rw [baseName_instanceName]
    exact hc.base
  | none =>
    have hallowed := ha (.instantiation base typeArgs) List.mem_cons_self
    rcases hsame with rfl | ⟨hcached, hahead⟩
    · cases hm : monomorphize base (TypeDescriptor.instanceName base.name typeArgs) typeArgs with
      | ok decl =>
        simp only
        exact ⟨⟨rfl, hb.instance_ hm⟩, registerInstance_linked hb.sound hm hl hfound.symm⟩
      | error e =>
        simp only
        exact ⟨rfl, hl⟩
    · obtain ⟨decl, hdecl, hmade⟩ := hahead.made
      have hm := hmade base typeArgs rfl hallowed
      rw [hdecl] at hcached
      subst hcached
      simp only [hm]
      exact ⟨⟨rfl, hb.instance_ hm⟩, catchUp_linked hb.sound hm hl hfound.symm hdecl⟩

theorem lookupReceiver_agree (lookupName : String) :
    Alike (S := S) allowed reach r (lookupReceiver lookupName) (lookupReceiver lookupName)
      fun found => ∀ decl, found = some decl →
        reach.Admits lookupName decl ∨ reach.Admits (stripModulePrefix lookupName) decl := by
  refine Agree.bind (lookupStruct_agree _) fun found hf => ?_
  cases found with
  | some decl => exact Agree.pure fun d hd => .inl (hf d hd)
  | none =>
    dsimp only
    split
    · exact (lookupStruct_agree _).mono fun found hf decl hd => .inr (hf decl hd)
    · exact Agree.pure fun decl hd => absurd hd.symm (Option.some_ne_none decl)

/-- A struct found for a receiver that is covered may be called. -/
theorem callable_of_admits {name : String} {decl : StructDecl} (h : reach.Admits name decl)
    (hc : Covers known reach (.struct name)) : Callable known reach decl :=
  ⟨fun hb => h (.inr hb), hc.imp_right fun hn => h (.inl hn)⟩

theorem staticReceiver_agree (hv : ReadAlike (S := S) r known vars₁ vars₂) (info : ExprInfo)
    {receiver : Expr} (hn : ∀ m ∈ mentions receiver, Covers known reach m)
    (hs : ∀ m ∈ receiverNames info receiver, Covers known reach m) :
    Alike (S := S) allowed reach r (staticReceiver vars₁ info receiver)
      (staticReceiver vars₂ info receiver)
      fun found => ∀ d, found = some d → Callable known reach d.1 := by
  have hnone : ∀ d : StructDecl × List TypeDescriptor, none = some d →
      Callable known reach d.1 := fun d hd => absurd hd.symm (Option.some_ne_none d)
  unfold staticReceiver
  split
  · rename_i name
    have hinjected : Covers known reach (.struct (injectedReceiver info name).1) ∧
        Covers known reach (.struct (stripModulePrefix (injectedReceiver info name).1)) :=
      ⟨hs _ (by simp [receiverNames]), hs _ (by simp [receiverNames])⟩
    refine Agree.bind (lookupReceiver_agree _) fun found hf => ?_
    refine Coupled.bind Coupled.gets fun map₁ map₂ s t hst => ?_
    obtain ⟨⟨rfl, rfl⟩, hl⟩ := hst
    have hread := hv s t hl.maps
    rw [hread name (hn (.name name) List.mem_cons_self),
      hread (stripModulePrefix name)
        (hn (.name _) (List.mem_cons_of_mem _ List.mem_cons_self))]
    refine (?_ : Alike allowed reach r _ _ _) s t hl
    cases found with
    | none => exact Agree.pure hnone
    | some decl =>
      dsimp only
      split
      · refine Agree.pure fun d hd => ?_
        cases hd
        rcases hf decl rfl with hd | hd
        · exact callable_of_admits hd hinjected.1
        · exact callable_of_admits hd hinjected.2
      · exact Agree.pure hnone
  · exact Agree.pure hnone

theorem instantiate_agree {decl : StructDecl} (hd : Callable known reach decl)
    (typeArgs : List TypeDescriptor) :
    Alike (S := S) allowed reach r (instantiate decl typeArgs) (instantiate decl typeArgs)
      (Callable known reach) := by
  unfold instantiate
  split
  · exact monomorphizeStruct_agree hd typeArgs
  · exact Agree.pure hd

variable (hh : HandlersAgree allowed reach h₁ h₂) (hreach : ∀ n, reach.names n → known n)
  (hv : ReadAlike (S := S) r known vars₁ vars₂)
include hh hreach hv

theorem receiverField_agree {field : VarDeclStmt}
    (hi : ∀ e, field.initializer = some e → ∀ m ∈ mentions e, Covers known reach m) :
    Alike allowed reach r (receiverField h₁ vars₁ field) (receiverField h₂ vars₂ field) := by
  unfold receiverField
  cases he : field.initializer with
  | some e =>
    exact hh.evaluate r known vars₁ vars₂ e hv hreach (hi e he)
  | none =>
    dsimp only
    split
    · exact Agree.bind (makeStruct_agree _) fun _ _ => Agree.pure trivial
    · exact Agree.pure trivial

theorem fillReceiver_agree (receiver : Nat) : ∀ fields : List VarDeclStmt,
    (∀ field ∈ fields, ∀ e, field.initializer = some e →
      ∀ m ∈ mentions e, Covers known reach m) →
    Alike allowed reach r (fillReceiver h₁ vars₁ receiver fields)
      (fillReceiver h₂ vars₂ receiver fields)
  | [], _ => Agree.pure trivial
  | field :: fields, hi => by
    obtain ⟨hfield, hfields⟩ := List.forall_mem_cons.mp hi
    exact Agree.bind (receiverField_agree hh hreach hv hfield) fun _ _ =>
      Agree.bind (setField_agree _ _ _) fun _ _ => fillReceiver_agree receiver fields hfields

theorem constructReceiver_agree {decl : StructDecl} (hd : Callable known reach decl) :
    Alike allowed reach r (constructReceiver h₁ vars₁ decl)
      (constructReceiver h₂ vars₂ decl) := by
  refine Agree.bind (makeStruct_agree _) fun receiver _ => ?_
  refine Agree.bind (fillReceiver_agree hh hreach hv receiver _ fun field hf e he m hm => ?_)
    fun _ _ => Agree.pure trivial
  rcases hd.contained with hall | hcontains
  · exact Covers.of_all hall m
  · exact Covers.of_has hreach (hcontains.initialisers field hf e he m hm)

theorem callStatic_agree {decl : StructDecl} (hd : Callable known reach decl)
    (typeArgs : List TypeDescriptor) (methodName : String)
    {args₁ args₂ : M S (List RuntimeValue)} (ha : Alike allowed reach r args₁ args₂) :
    Alike allowed reach r (callStatic h₁ vars₁ decl typeArgs methodName args₁)
      (callStatic h₂ vars₂ decl typeArgs methodName args₂) := by
  refine Agree.bind (instantiate_agree hd typeArgs) fun decl hd => ?_
  split
  · exact evaluationError_agree _
  · exact Agree.bind (constructReceiver_agree hh hreach hv hd) fun _ _ =>
      Agree.bind ha fun _ _ =>
        Agree.bind (hh.execStructRoutine r _ _ _ _) fun _ _ => packResult_agree _

omit hreach hv

variable (hc : ContextsAgree allowed ctx₁ ctx₂)
include hc

theorem callOnValue_agree (object : RuntimeValue) (methodName : String)
    {args₁ args₂ : M S (List RuntimeValue)} (ha : Alike allowed reach r args₁ args₂) :
    Alike allowed reach r (callOnValue ctx₁ h₁ object methodName args₁)
      (callOnValue ctx₂ h₂ object methodName args₂) := by
  unfold callOnValue
  split
  · refine Agree.bind (structAt_agree _) fun found _ => ?_
    split
    · exact evaluationError_agree _
    · refine Agree.bind (lookupStruct_agree _) fun decl _ => ?_
      split
      · exact evaluationError_agree _
      · split
        · exact evaluationError_agree _
        · exact Agree.bind ha fun _ _ =>
            Agree.bind (hh.execStructRoutine r _ _ _ _) fun _ _ => packResult_agree _
  · refine Agree.bind getHeap_agree fun heap _ => ?_
    refine Agree.bind (lookupMethod_agree _ _) fun method _ => ?_
    split
    · exact evaluationError_agree _
    · rw [hc.host]
      exact Agree.bind ha fun _ _ =>
        Agree.bind (runHost_agree _) fun _ _ => packResult_agree _

include hreach hv in
theorem evalMethodCall_agree (info : ExprInfo) (receiver : Expr)
    (hn : ∀ m ∈ mentions receiver, Covers known reach m)
    (hs : ∀ m ∈ receiverNames info receiver, Covers known reach m) (methodName : String)
    {object₁ object₂ : M S RuntimeValue} (ho : Alike allowed reach r object₁ object₂)
    {args₁ args₂ : M S (List RuntimeValue)} (ha : Alike allowed reach r args₁ args₂) :
    Alike allowed reach r (evalMethodCall ctx₁ h₁ vars₁ info receiver methodName object₁ args₁)
      (evalMethodCall ctx₂ h₂ vars₂ info receiver methodName object₂ args₂) := by
  refine Agree.bind (staticReceiver_agree hv info hn hs) fun found hf => ?_
  cases found with
  | some d => exact callStatic_agree hh hreach hv (hf d rfl) _ _ ha
  | none => exact Agree.bind ho fun _ _ => callOnValue_agree hh hc _ _ ha

omit hh hc in
theorem ffiMethodOrBase_agree (typeName methodName : String) :
    Alike (S := S) allowed reach r (ffiMethodOrBase typeName methodName)
      (ffiMethodOrBase typeName methodName) := by
  refine Agree.bind (lookupFfiMethod_agree _ _) fun found _ => ?_
  cases found with
  | some method => exact Agree.pure trivial
  | none =>
    cases genericBase typeName with
    | some base => exact lookupFfiMethod_agree _ _
    | none => exact Agree.pure trivial

omit hh in
theorem indexForeign_agree (id : Nat) (typeName : String) (index : RuntimeValue) :
    Alike allowed reach r (indexForeign ctx₁ id typeName index)
      (indexForeign ctx₂ id typeName index) := by
  refine Agree.bind (ffiMethodOrBase_agree _ _) fun found _ => ?_
  split
  · rw [hc.host]
    exact Agree.bind (runHost_agree _) fun _ _ => packResult_agree _
  · exact evaluationError_agree _

theorem indexStruct_agree (id : Nat) (typeName : String) (index : RuntimeValue) :
    Alike allowed reach r (indexStruct ctx₁ h₁ id typeName index)
      (indexStruct ctx₂ h₂ id typeName index) := by
  refine Agree.bind (lookupStruct_agree _) fun found _ => ?_
  split
  · split
    · exact Agree.bind (hh.execStructRoutine r _ _ _ _) fun _ _ => packResult_agree _
    · exact indexForeign_agree hc _ _ _
  · exact indexForeign_agree hc _ _ _

omit hh hc in
theorem indexArray_agree (array : ArrayValue) (index : RuntimeValue) :
    Alike (S := S) allowed reach r (indexArray array index) (indexArray array index) := by
  unfold indexArray
  split
  · split
    · exact evaluationError_agree _
    · split
      · exact Agree.pure trivial
      · exact evaluationError_agree _
  · exact Agree.bind getHeap_agree fun _ _ => evaluationError_agree _

theorem evalIndex_agree (object index : RuntimeValue) :
    Alike allowed reach r (evalIndex ctx₁ h₁ object index) (evalIndex ctx₂ h₂ object index) := by
  unfold evalIndex
  split
  · refine Agree.bind (structAt_agree _) fun found _ => ?_
    split
    · exact indexStruct_agree hh hc _ _ _
    · exact evaluationError_agree _
  · refine Agree.bind getHeap_agree fun heap _ => ?_
    split
    · exact indexArray_agree _ _
    · exact evaluationError_agree _
  · exact Agree.bind getHeap_agree fun _ _ => evaluationError_agree _

omit hh in
theorem resolveFunction_agree (name : String) :
    Alike allowed reach r (resolveFunction ctx₁ name) (resolveFunction ctx₂ name) := by
  refine Agree.ask_bind fun ha => ?_
  rw [hc.functions name ha]
  split
  · exact Agree.pure trivial
  · split
    · refine Agree.ask_bind fun ha => ?_
      rw [hc.functions _ ha]
      split
      · exact Agree.pure trivial
      · exact evaluationError_agree _
    · exact evaluationError_agree _

omit hh in
theorem signatureOf_agree (resolvedName name : String) :
    Alike allowed reach r (signatureOf ctx₁ resolvedName name)
      (signatureOf ctx₂ resolvedName name) := by
  refine Agree.ask_bind fun ha => ?_
  rw [hc.signatures _ ha]
  split
  · exact Agree.pure trivial
  · exact evaluationError_agree _

omit hh hc

/-- Arguments with the same names and with computations that agree. -/
abbrev ArgumentsAlike (allowed : Query → Prop) (reach : Reach)
    (r : ParameterMap → ParameterMap → Prop) :
    List (Option String × M S RuntimeValue) → List (Option String × M S RuntimeValue) → Prop :=
  List.Forall₂ fun a b => a.1 = b.1 ∧ Alike allowed reach r a.2 b.2

theorem find?_zipIdx {α β : Type} {R : α → β → Prop} {p : α × Nat → Bool} {q : β × Nat → Bool}
    (hp : ∀ a b i, R a b → p (a, i) = q (b, i)) {l₁ : List α} {l₂ : List β}
    (h : List.Forall₂ R l₁ l₂) (k : Nat) :
    Option.Rel (fun x y => R x.1 y.1 ∧ x.2 = y.2) ((l₁.zipIdx k).find? p)
      ((l₂.zipIdx k).find? q) := by
  induction h generalizing k with
  | nil => exact .none
  | @cons a b l₁ l₂ hab _ ih =>
    simp only [List.zipIdx_cons, List.find?_cons, hp a b k hab]
    cases q (b, k) with
    | true => exact .some ⟨hab, rfl⟩
    | false => exact ih (k + 1)

theorem findArgument_related {α β : Type} {R : α → β → Prop} {args₁ : List (Option String × α)}
    {args₂ : List (Option String × β)}
    (h : List.Forall₂ (fun a b => a.1 = b.1 ∧ R a.2 b.2) args₁ args₂) (assigned : List Nat)
    (paramName : String) :
    Option.Rel (fun x y => (x.1.1 = y.1.1 ∧ R x.1.2 y.1.2) ∧ x.2 = y.2)
      (findArgument args₁ assigned paramName) (findArgument args₂ assigned paramName) := by
  have hnamed := find?_zipIdx (p := fun arg => arg.1.1 == some paramName)
    (q := fun arg => arg.1.1 == some paramName) (fun a b i hab => by rw [hab.1]) h 0
  have hpositional := find?_zipIdx (p := fun arg => arg.1.1.isNone && !assigned.contains arg.2)
    (q := fun arg => arg.1.1.isNone && !assigned.contains arg.2)
    (fun a b i hab => by simp only [hab.1]) h 0
  unfold findArgument
  revert hnamed
  cases args₁.zipIdx.find? _ <;> cases args₂.zipIdx.find? _
  · exact fun _ => hpositional
  · exact fun hnamed => nomatch hnamed
  · exact fun hnamed => nomatch hnamed
  · exact id

/-- Both calls have an argument for the parameter, at the same place, or neither has. -/
theorem findArgument_cases {α β : Type} {R : α → β → Prop} {args₁ : List (Option String × α)}
    {args₂ : List (Option String × β)}
    (h : List.Forall₂ (fun a b => a.1 = b.1 ∧ R a.2 b.2) args₁ args₂) (assigned : List Nat)
    (paramName : String) :
    (findArgument args₁ assigned paramName = none ∧ findArgument args₂ assigned paramName = none) ∨
      ∃ name a b i, R a b ∧ findArgument args₁ assigned paramName = some ((name, a), i) ∧
        findArgument args₂ assigned paramName = some ((name, b), i) := by
  have hfound := findArgument_related h assigned paramName
  cases h₁ : findArgument args₁ assigned paramName with
  | none =>
    rw [h₁] at hfound
    cases h₂ : findArgument args₂ assigned paramName with
    | none => exact .inl ⟨rfl, rfl⟩
    | some y =>
      rw [h₂] at hfound
      cases hfound
  | some x =>
    obtain ⟨⟨name, a⟩, i⟩ := x
    rw [h₁] at hfound
    cases h₂ : findArgument args₂ assigned paramName with
    | none =>
      rw [h₂] at hfound
      cases hfound
    | some y =>
      obtain ⟨⟨other, b⟩, j⟩ := y
      rw [h₂] at hfound
      cases hfound with
      | some hxy =>
        obtain ⟨⟨rfl, hab⟩, rfl⟩ := hxy
        exact .inr ⟨_, a, b, _, hab, rfl, rfl⟩

theorem bindParameters_agree {args₁ args₂ : List (Option String × M S RuntimeValue)}
    (h : ArgumentsAlike allowed reach r args₁ args₂) (required : Bool) :
    ∀ (specs : List ParamSpec) (params : ParameterMap) (assigned : List Nat),
      Alike allowed reach r (bindParameters args₁ required specs params assigned)
        (bindParameters args₂ required specs params assigned)
  | [], _, _ => Agree.pure trivial
  | spec :: specs, params, assigned => by
    unfold bindParameters
    split
    · exact bindParameters_agree h required specs params assigned
    · rcases findArgument_cases (R := Alike allowed reach r) h assigned spec.name with
        ⟨h₁, h₂⟩ | ⟨name, argument₁, argument₂, i, ha, h₁, h₂⟩
      · rw [h₁, h₂]
        dsimp only
        split
        · exact evaluationError_agree _
        · exact bindParameters_agree h required specs _ _
      · rw [h₁, h₂]
        exact Agree.bind ha fun _ _ => bindParameters_agree h required specs _ _

theorem bindArguments_agree (sig : BuiltinSignature)
    {args₁ args₂ : List (Option String × M S RuntimeValue)}
    (h : ArgumentsAlike allowed reach r args₁ args₂) :
    Alike allowed reach r (bindArguments sig args₁) (bindArguments sig args₂) :=
  Agree.bind (bindParameters_agree h true _ _ _) fun _ _ =>
    Agree.bind (bindParameters_agree h false _ _ _) fun _ _ => Agree.pure trivial

include hh hc

theorem evalCall_agree (name : String) {args₁ args₂ : List (Option String × M S RuntimeValue)}
    (h : ArgumentsAlike allowed reach r args₁ args₂) :
    Alike allowed reach r (evalCall ctx₁ h₁ name args₁) (evalCall ctx₂ h₂ name args₂) :=
  Agree.bind (resolveFunction_agree hc name) fun _ _ =>
    Agree.bind (signatureOf_agree hc _ _) fun _ _ =>
      Agree.bind (bindArguments_agree _ h) fun _ _ =>
        Agree.bind (hh.callFunction r _ _) fun _ _ => packResult_agree _

include hreach hv

set_option linter.unusedSectionVars false in
mutual

/-- One expression on two maps that agree on its names. -/
theorem evaluate_agree : ∀ e : Expr, (∀ m ∈ mentions e, Covers known reach m) →
    Alike allowed reach r (evaluate ctx₁ h₁ vars₁ e) (evaluate ctx₂ h₂ vars₂ e)
  | .literal _ _, _ => Agree.pure trivial
  | .nilLiteral _, _ => Agree.pure trivial
  | .var _ _, hn => evalVariable_agree hv hn
  | .binary _ _ left right, hn =>
    Agree.bind (evaluate_agree left fun m h => hn m (List.mem_append_left _ h)) fun _ _ =>
      Agree.bind (evaluate_agree right fun m h => hn m (List.mem_append_right _ h)) fun _ _ =>
        Agree.bind getHeap_agree fun _ _ => Agree.ofOutcome _
  | .unary _ _ operand, hn =>
    Agree.bind (evaluate_agree operand hn) fun _ _ => Agree.ofOutcome _
  | .member _ object _, hn =>
    Agree.bind (evaluate_agree object hn) fun _ _ => evalMember_agree _ _
  | .methodCall _ object _ args, hn =>
    have hinner := fun m h => hn m (List.mem_append_right _ h)
    evalMethodCall_agree hh hreach hv hc _ _ (fun m h => hinner m (List.mem_append_left _ h))
      (fun m h => hn m (List.mem_append_left _ h)) _
      (evaluate_agree object fun m h => hinner m (List.mem_append_left _ h))
      (evaluateList_agree args fun m h => hinner m (List.mem_append_right _ h))
  | .index _ object index, hn =>
    Agree.bind (evaluate_agree object fun m h => hn m (List.mem_append_left _ h)) fun _ _ =>
      Agree.bind (evaluate_agree index fun m h => hn m (List.mem_append_right _ h)) fun _ _ =>
        evalIndex_agree hh hc _ _
  | .call _ name arguments, hn =>
    evalCall_agree hh hc name (argumentThunks_alike arguments hn)

theorem evaluateList_agree : ∀ es : List Expr, (∀ m ∈ listMentions es, Covers known reach m) →
    Alike allowed reach r (evaluateList ctx₁ h₁ vars₁ es) (evaluateList ctx₂ h₂ vars₂ es)
  | [], _ => Agree.pure trivial
  | e :: es, hn =>
    Agree.bind (evaluate_agree e fun m h => hn m (List.mem_append_left _ h)) fun _ _ =>
      Agree.bind (evaluateList_agree es fun m h => hn m (List.mem_append_right _ h)) fun _ _ =>
        Agree.pure trivial

theorem argumentThunks_alike : ∀ args : List (Option String × Expr),
    (∀ m ∈ argumentMentions args, Covers known reach m) →
    ArgumentsAlike allowed reach r (argumentThunks ctx₁ h₁ vars₁ args)
      (argumentThunks ctx₂ h₂ vars₂ args)
  | [], _ => .nil
  | (_, value) :: args, hn =>
    .cons ⟨rfl, evaluate_agree value fun m h => hn m (List.mem_append_left _ h)⟩
      (argumentThunks_alike args fun m h => hn m (List.mem_append_right _ h))

end

end Expressions

end FalconLib.Dsl.Coupling
