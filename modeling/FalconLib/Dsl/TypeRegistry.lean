import FalconLib.Base.StdMap
import FalconLib.Dsl.Ast
import FalconLib.Dsl.Names

/-!
# Struct declarations and type methods
-/

namespace FalconLib.Dsl

open FalconLib.Base (StdMap)

/-- A function of a shared library, found by `dlsym`. -/
structure ForeignSymbol where
  library : String
  symbol : String
deriving DecidableEq

abbrev MethodTable := StdMap (StdMap ForeignSymbol)

structure TypeRegistry where
  typeMethods : MethodTable := ∅
  ffiMethods : MethodTable := ∅
  structRegistry : StdMap StructDecl := ∅

namespace TypeRegistry

def registerFfiMethod (types : TypeRegistry) (typeName methodName : String)
    (method : ForeignSymbol) : TypeRegistry :=
  let methods := types.ffiMethods[typeName]?.getD ∅
  { types with ffiMethods := types.ffiMethods.assign typeName (methods.assign methodName method) }

/-- A struct of a module is found under its bare and its qualified name. -/
def registerStruct (types : TypeRegistry) (decl : StructDecl) : TypeRegistry :=
  let bare := types.structRegistry.assign decl.name decl
  { types with structRegistry :=
      if decl.moduleName.isEmpty then bare
      else bare.assign (decl.moduleName ++ "::" ++ decl.name) decl }

def registerMonomorphizedStruct (types : TypeRegistry) (monoName : String) (decl : StructDecl) :
    TypeRegistry :=
  { types with structRegistry := types.structRegistry.assign monoName decl }

end TypeRegistry

end FalconLib.Dsl
