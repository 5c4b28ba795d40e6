import FalconLib.Dsl.Names
import FalconLib.Dsl.Value
import Mathlib.Data.List.SplitBy

/-!
# Instances of generic structs

`substituteType` and the part of `monomorphize_struct` that builds the new
declaration. The cache in the type registry belongs to the evaluator.
-/

namespace FalconLib.Dsl

open FalconLib.Base (StdMap)

abbrev Substitution := StdMap TypeDescriptor

/-- Only a struct name equal to a parameter, or an array's element, is replaced. -/
def substituteType (subst : Substitution) : TypeDescriptor → TypeDescriptor
  | ⟨baseType, tupleElements, errorVariant, unionTypes, structName, typeArgs, elementType⟩ =>
    let type : TypeDescriptor :=
      ⟨baseType, tupleElements, errorVariant, unionTypes, structName, typeArgs, elementType⟩
    match baseType with
    | .struct => subst[structName]?.getD type
    | .array =>
      match elementType with
      | some element =>
        { baseType := .array, elementType := some (substituteType subst element) }
      | none => type
    | _ => type

theorem baseName_instanceName (name : String) (args : List TypeDescriptor) :
    baseName (TypeDescriptor.instanceName name args) = baseName name := by
  unfold TypeDescriptor.instanceName
  rw [String.append_assoc, baseName_append_angle]

theorem mem_instanceName (name : String) (args : List TypeDescriptor) :
    '<' ∈ (TypeDescriptor.instanceName name args).toList := by
  unfold TypeDescriptor.instanceName
  rw [String.append_assoc, String.append_assoc, String.toList_append, String.toList_append]
  exact List.mem_append_right _ (List.mem_append_left _ List.mem_cons_self)

def trimBlanks (cs : List Char) : List Char :=
  ((cs.dropWhile (· == ' ')).reverse.dropWhile (· == ' ')).reverse

/-- What stands between the first `<` and the last `>`. -/
def betweenAngles (name : String) : List Char :=
  let rest := (name.toList.dropWhile (· != '<')).drop 1
  if '>' ∈ rest then ((rest.reverse.dropWhile (· != '>')).drop 1).reverse else rest

/-- `Accumulator<T>` with the names between its commas replaced one by one. -/
def rebuildSelfReference (baseName : String) (subst : Substitution) (structName : String) :
    String :=
  let tokens := (betweenAngles structName).splitOn ','
  let rebuilt := tokens.map fun token =>
    let name := String.ofList (trimBlanks token)
    match subst[name]? with
    | some type => type.toString
    | none => name
  baseName ++ "<" ++ ",".intercalate rebuilt ++ ">"

/-- The type of an output parameter, where the struct may refer to itself. -/
def substituteOutputType (base : StructDecl) (monoName : String) (subst : Substitution)
    (type : TypeDescriptor) : TypeDescriptor :=
  let new := substituteType subst type
  if new.isStruct then
    if new.structName = base.name then { new with structName := monoName }
    else if (base.name ++ "<").toList.isPrefixOf new.structName.toList then
      { new with structName := rebuildSelfReference base.name subst new.structName }
    else new
  else new

/-- Parameters lose their defaults, bodies are cloned unchanged. -/
def monomorphizeRoutine (base : StructDecl) (monoName : String) (subst : Substitution)
    (routine : RoutineDecl) : RoutineDecl where
  name := routine.name
  inputParams := routine.inputParams.map fun param =>
    { type := substituteType subst param.type, name := param.name }
  outputParams := routine.outputParams.map fun param =>
    { type := substituteOutputType base monoName subst param.type, name := param.name }
  body := Stmt.cloneList routine.body

def monomorphizeField (subst : Substitution) (field : VarDeclStmt) : VarDeclStmt where
  type := substituteType subst field.type
  name := field.name
  initializer := field.initializer.map Expr.clone

/-- The declaration `Box<int>` made from `Box<T>`. -/
def monomorphize (base : StructDecl) (monoName : String) (typeArgs : List TypeDescriptor) :
    Except Exception StructDecl :=
  if base.genericParams.length = typeArgs.length then
    let subst := StdMap.emplaceAll ∅ (base.genericParams.zip typeArgs)
    .ok {
      name := monoName
      fields := base.fields.map (monomorphizeField subst)
      routines := base.routines.map (monomorphizeRoutine base monoName subst) }
  else .error <| .evaluation <|
    "Generic struct '" ++ base.name ++ "' expects " ++ toString base.genericParams.length ++
      " type argument(s) but got " ++ toString typeArgs.length

end FalconLib.Dsl
