import FalconLib.Dsl.CouplingRuns

/-!
# What a call leaves untouched

An evaluation related to itself, for every relation of the member maps, puts back the
member map it started from.
-/

namespace FalconLib.Dsl.Restoration

open FalconLib.Base
open Coupling

variable {S : Type} {α : Type}

/-- Whether it returns or throws, the member map is the one it was. -/
structure Restores (m : M S α) : Prop where
  ok : ∀ w a w', (m w).outcome = .ok a w' → w'.memberVariables = w.memberVariables
  throw : ∀ w e w', (m w).outcome = .throw e w' → w'.memberVariables = w.memberVariables

def Anything {β : Type} (_ : β) : Prop := True

theorem linked_self (w : World S) {r : ParameterMap → ParameterMap → Prop}
    (h : r w.memberVariables w.memberVariables) : Linked Anything Reach.none r w w :=
  ⟨h, rfl, rfl, fun _ _ => .inl rfl, fun _ _ _ => rfl, fun _ _ _ => rfl,
    fun name decl _ => Reach.none_admits name decl, trivial⟩

theorem restores_of_alike {m : M S α}
    (h : ∀ map, Alike Anything Reach.none (fun a b => a = map ∧ b = map) m m) : Restores m := by
  refine ⟨fun w a w' ho => ?_, fun w e w' ho => ?_⟩
  · have hw := h w.memberVariables w w (linked_self w ⟨rfl, rfl⟩) fun _ _ => trivial
    rw [ho] at hw
    exact hw.2.maps.1
  · have hw := h w.memberVariables w w (linked_self w ⟨rfl, rfl⟩) fun _ _ => trivial
    rw [ho] at hw
    exact hw.2.maps.1

variable (ctx : Context S) (fuel : Nat)

theorem contexts_self : ContextsAgree Anything ctx ctx :=
  ⟨fun _ _ => rfl, fun _ _ => rfl, fun _ _ => rfl, fun _ _ => rfl, rfl, rfl⟩

theorem handlers_self :
    HandlersAgree Anything Reach.none (Interpreter.handlers ctx fuel)
      (Interpreter.handlers ctx fuel) :=
  handlers_agree (contexts_self ctx) fuel

theorem readAlike_self {r : ParameterMap → ParameterMap → Prop} {vars : Variables}
    (h : ∀ a b, r a b → a = b) : ReadAlike (S := S) r Anything vars vars := by
  intro w₁ w₂ hr n _
  cases vars with
  | own map => rfl
  | member => exact congrArg (fun map : ParameterMap => map[n]?) (h _ _ hr)

/-- Evaluating an expression never changes the variables it is evaluated on. -/
theorem evaluate_restores (vars : Variables) (e : Expr) :
    Restores (ExprEvaluator.evaluate ctx (Interpreter.handlers ctx fuel) vars e) :=
  restores_of_alike fun _ =>
    evaluate_agree (handlers_self ctx fuel) (fun _ _ => trivial)
      (readAlike_self fun _ _ hab => hab.1.trans hab.2.symm) (contexts_self ctx) e
      fun _ _ => Covers.of_all (fun _ => trivial) _

theorem callFunction_restores (rounds : Nat) (function : ExternalFunction)
    (params : ParameterMap) :
    Restores (Interpreter.callFunction ctx (Interpreter.handlers ctx fuel) rounds function
      params) :=
  restores_of_alike fun _ =>
    callFunction_agree (contexts_self ctx) (handlers_self ctx fuel) rounds function params

theorem run_restores (rounds : Nat) (autotuner : AutotunerDecl) (inputs : ParameterMap) :
    Restores (Interpreter.run ctx (Interpreter.handlers ctx fuel) rounds autotuner inputs) :=
  restores_of_alike fun _ =>
    run_agree (contexts_self ctx) (handlers_self ctx fuel) rounds autotuner inputs

/-- At every depth of calls, and in whatever environment the caller is, a run of an
autotuner, the registered function around it and a call expression give the caller its
environment back, whether they return or throw. -/
theorem autotuner_call_restores (rounds : Nat) :
    (∀ autotuner inputs,
      Restores (Interpreter.run ctx (Interpreter.handlers ctx fuel) rounds autotuner inputs)) ∧
    (∀ qname params, Restores (Interpreter.callFunction ctx (Interpreter.handlers ctx fuel)
      rounds (.autotuner qname) params)) ∧
    ∀ info name args, Restores (ExprEvaluator.evaluate ctx (Interpreter.handlers ctx fuel)
      .member (.call info name args)) := by
  refine ⟨fun autotuner inputs => ?_, fun qname params => ?_, fun info name args => ?_⟩
  · exact run_restores ctx fuel rounds autotuner inputs
  · exact callFunction_restores ctx fuel rounds (.autotuner qname) params
  · exact evaluate_restores ctx fuel .member (.call info name args)

end FalconLib.Dsl.Restoration
