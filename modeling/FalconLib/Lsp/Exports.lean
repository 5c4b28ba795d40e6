import FalconLib.Lsp.ImportResolver

/-!
# What a document gives to those that import it

The symbols that are merged from a file are the autotuners, routines, structs, fields
and struct routines of its program, and what it has merged itself.
-/

namespace FalconLib.Lsp

open FalconLib.Dsl
open FalconLib.Parser (SourceText parseFile)

/-- The names that a file gives to the files that import it. -/
inductive Declares (program : Program) : String → Prop where
  | autotuner {decl : AutotunerDecl} : decl ∈ program.autotuners → Declares program decl.name
  | routine {decl : RoutineDecl} : decl ∈ program.routines → Declares program decl.name
  | struct {decl : StructDecl} : decl ∈ program.structs → Declares program decl.name
  | structField {decl : StructDecl} {field : VarDeclStmt} :
    decl ∈ program.structs → field ∈ decl.fields → Declares program field.name
  | structRoutine {decl : StructDecl} {routine : RoutineDecl} :
    decl ∈ program.structs → routine ∈ decl.routines → Declares program routine.name

/-- A text as it is parsed first in a process. -/
def freshDocument (derive : String → SourceText) (uri text : String) : FalconDocument :=
  (FalconDocumentParser.parse derive uri text {}).1

/-! ## Exported symbols -/

def exportedNames (symbols : List Symbol) : List String :=
  (symbols.filter FalconDocument.isExported).map (·.name)

@[simp] theorem exportedNames_append (first second : List Symbol) :
    exportedNames (first ++ second) = exportedNames first ++ exportedNames second := by
  unfold exportedNames
  rw [List.filter_append, List.map_append]

theorem exportedNames_flatMap {α : Type} (f : α → List Symbol) (items : List α) :
    exportedNames (items.flatMap f) = items.flatMap fun item => exportedNames (f item) := by
  induction items with
  | nil => rfl
  | cons item items ih => rw [List.flatMap_cons, exportedNames_append, ih, List.flatMap_cons]

theorem exportedNames_eq_nil {symbols : List Symbol}
    (h : ∀ symbol ∈ symbols, FalconDocument.isExported symbol = false) :
    exportedNames symbols = [] := by
  unfold exportedNames
  rw [List.filter_eq_nil_iff.mpr, List.map_nil]
  intro symbol hs
  rw [h symbol hs]
  exact Bool.false_ne_true

/-- Exporting again exports the same. -/
theorem exportedNames_exported (doc : FalconDocument) :
    exportedNames doc.exported = exportedNames doc.symbols := by
  unfold exportedNames FalconDocument.exported
  rw [List.filter_map, List.map_map]
  have hf : (doc.symbols.filter FalconDocument.isExported).filter
      (FalconDocument.isExported ∘ fun symbol => { symbol with fromImport := true }) =
        doc.symbols.filter FalconDocument.isExported := by
    rw [List.filter_filter]
    refine List.filter_congr fun symbol _ => ?_
    exact Bool.and_self _
  rw [hf]
  rfl

theorem names_exported (doc : FalconDocument) :
    doc.exported.map (·.name) = exportedNames doc.symbols := by
  unfold exportedNames FalconDocument.exported
  rw [List.map_map]
  rfl

namespace TypeChecker

mutual

theorem analyzeStmt_var (stmt : Stmt) : ∀ symbol ∈ analyzeStmt stmt, symbol.kind = .var := by
  cases stmt with
  | varDecl decl =>
    intro symbol hs
    rw [List.mem_singleton.mp hs]
  | ifStmt location condition thenBody elseBody =>
    intro symbol hs
    rcases List.mem_append.mp hs with hs | hs
    · exact analyzeStmts_var thenBody symbol hs
    · exact analyzeStmts_var elseBody symbol hs
  | assign | structFieldAssign | expr | transition | terminal =>
    exact fun _ hs => absurd hs List.not_mem_nil

theorem analyzeStmts_var (stmts : List Stmt) :
    ∀ symbol ∈ analyzeStmts stmts, symbol.kind = .var := by
  cases stmts with
  | nil => exact fun _ hs => absurd hs List.not_mem_nil
  | cons stmt stmts =>
    intro symbol hs
    rcases List.mem_append.mp hs with hs | hs
    · exact analyzeStmt_var stmt symbol hs
    · exact analyzeStmts_var stmts symbol hs

end

@[simp] theorem exportedNames_stmts (stmts : List Stmt) :
    exportedNames (analyzeStmts stmts) = [] := by
  refine exportedNames_eq_nil fun symbol hs => ?_
  unfold FalconDocument.isExported
  rw [analyzeStmts_var stmts symbol hs]

@[simp] theorem exportedNames_inputs (decls : List ParamDecl) :
    exportedNames (params .inputParam decls) = [] := by
  refine exportedNames_eq_nil fun symbol hs => ?_
  obtain ⟨decl, _, rfl⟩ := List.mem_map.mp hs
  rfl

@[simp] theorem exportedNames_outputs (decls : List ParamDecl) :
    exportedNames (params .outputParam decls) = [] := by
  refine exportedNames_eq_nil fun symbol hs => ?_
  obtain ⟨decl, _, rfl⟩ := List.mem_map.mp hs
  rfl

theorem exportedNames_cons (symbol : Symbol) (symbols : List Symbol)
    (h : FalconDocument.isExported symbol = true) :
    exportedNames (symbol :: symbols) = symbol.name :: exportedNames symbols := by
  unfold exportedNames
  rw [List.filter_cons_of_pos h, List.map_cons]

theorem exportedNames_routine (kind : SymbolKind) (routine : RoutineDecl)
    (h : FalconDocument.isExported ⟨routine.name, kind, false⟩ = true) :
    exportedNames (analyzeRoutine kind routine) = [routine.name] := by
  unfold analyzeRoutine analyzeRoutineBody
  rw [exportedNames_cons _ _ h]
  simp

theorem exportedNames_state (state : StateDecl) : exportedNames (analyzeState state) = [] := by
  have hcons : exportedNames (analyzeState state) =
      exportedNames (params .inputParam state.inputParameters ++ analyzeStmts state.body) := rfl
  rw [hcons]
  simp

theorem exportedNames_autotuner (decl : AutotunerDecl) :
    exportedNames (analyzeAutotuner decl) = [decl.name] := by
  unfold analyzeAutotuner
  rw [exportedNames_cons _ _ rfl]
  simp [exportedNames_flatMap, exportedNames_state]

theorem exportedNames_struct (decl : StructDecl) :
    exportedNames (analyzeStruct decl) =
      decl.name :: (decl.fields.map (·.name) ++ decl.routines.map (·.name)) := by
  unfold analyzeStruct
  rw [exportedNames_cons _ _ rfl, exportedNames_append, exportedNames_flatMap]
  have hf : exportedNames (decl.fields.map fun field => ⟨field.name, .structField, false⟩) =
      decl.fields.map (·.name) := by
    induction decl.fields with
    | nil => rfl
    | cons field fields ih => rw [List.map_cons, exportedNames_cons _ _ rfl, ih, List.map_cons]
  have hr : (decl.routines.flatMap fun routine =>
      exportedNames (analyzeRoutine .structRoutine routine)) = decl.routines.map (·.name) := by
    induction decl.routines with
    | nil => rfl
    | cons routine routines ih =>
      rw [List.flatMap_cons, exportedNames_routine _ _ rfl, ih, List.map_cons, List.singleton_append]
  rw [hf, hr]

/-- The symbols that are exported are the declarations of a program. -/
theorem mem_exportedNames_analyze (program : Program) (name : String) :
    name ∈ exportedNames (analyze program) ↔ Declares program name := by
  have hi : ∀ paths : List String, exportedNames
      (paths.map fun path => (⟨path, .importFile, false⟩ : Symbol)) = [] := by
    refine fun paths => exportedNames_eq_nil fun symbol hs => ?_
    obtain ⟨path, _, rfl⟩ := List.mem_map.mp hs
    rfl
  have hff : ∀ paths : List String, exportedNames
      (paths.map fun path => (⟨path, .ffimportFile, false⟩ : Symbol)) = [] := by
    refine fun paths => exportedNames_eq_nil fun symbol hs => ?_
    obtain ⟨path, _, rfl⟩ := List.mem_map.mp hs
    rfl
  unfold analyze
  simp only [exportedNames_append, exportedNames_flatMap, hi, hff, List.append_nil,
    List.mem_append, List.mem_flatMap, exportedNames_struct, exportedNames_autotuner]
  constructor
  · rintro ((⟨decl, hd, hn⟩ | ⟨decl, hd, hn⟩) | ⟨routine, hr, hn⟩)
    · rcases List.mem_cons.mp hn with rfl | hn
      · exact .struct hd
      · rcases List.mem_append.mp hn with hn | hn
        · obtain ⟨field, hf, rfl⟩ := List.mem_map.mp hn
          exact .structField hd hf
        · obtain ⟨routine, hr, rfl⟩ := List.mem_map.mp hn
          exact .structRoutine hd hr
    · rw [List.mem_singleton.mp hn]
      exact .autotuner hd
    · rw [exportedNames_routine _ _ rfl] at hn
      rw [List.mem_singleton.mp hn]
      exact .routine hr
  · intro h
    cases h with
    | autotuner hd => exact .inl (.inr ⟨_, hd, List.mem_singleton_self _⟩)
    | routine hr =>
      refine .inr ⟨_, hr, ?_⟩
      rw [exportedNames_routine _ _ rfl]
      exact List.mem_singleton_self _
    | struct hd => exact .inl (.inl ⟨_, hd, List.mem_cons_self⟩)
    | structField hd hf =>
      refine .inl (.inl ⟨_, hd, List.mem_cons_of_mem _ (List.mem_append_left _ ?_)⟩)
      exact List.mem_map_of_mem hf
    | structRoutine hd hr =>
      refine .inl (.inl ⟨_, hd, List.mem_cons_of_mem _ (List.mem_append_right _ ?_)⟩)
      exact List.mem_map_of_mem hr

end TypeChecker

theorem mem_exportedNames_fresh (derive : String → SourceText) (uri src name : String) :
    name ∈ exportedNames (freshDocument derive uri src).symbols ↔
      ∃ program, (freshDocument derive uri src).program = some program ∧
        Declares program name := by
  unfold freshDocument FalconDocumentParser.parse
  dsimp only
  cases hp : (parseFile {} ∅ (derive src)).1.program with
  | none => simp [exportedNames]
  | some program => simp [TypeChecker.mem_exportedNames_analyze]

end FalconLib.Lsp
