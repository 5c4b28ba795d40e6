import FalconLib.Parser.Actions

/-!
# `Compiler::parse_file`

One parse, from the tables that the process has to those it leaves. What the caller
sees is the program, if there is one, and the recorded errors.
-/

namespace FalconLib.Parser

open FalconLib.Dsl

/-- Where a text leaves the grammar: after how many actions, and what is recorded there.
A literal that is out of range records nothing; the exception leaves `parse_file`. -/
structure Stop where
  after : Nat
  error : Option ParseError

/-- A file: the stem of its name, and what it derives. -/
structure SourceText where
  filename : String
  stem : String
  derivation : ProgramSyntax
  stop : Option Stop := none

structure ParseResult where
  program : Option Program
  errors : List ParseError

/-- The known types are the hints of the caller. -/
def Tables.seed (t : Tables) (hints : Finset String) : Tables :=
  { t with structKnownTypes := hints }

def start (t : Tables) (hints : Finset String) (text : SourceText) : Session where
  tables := t.seed hints
  filename := text.filename
  stop := text.stop.map (·.after)

def parseFile (t : Tables) (hints : Finset String) (text : SourceText) : ParseResult × Tables :=
  match (program text.derivation (start t hints text)).outcome with
  | .ok program s =>
    (⟨some { program with moduleName := text.stem }, s.errors⟩, s.tables.seed ∅)
  | .throw .aborted s => (⟨none, s.errors⟩, s.tables.seed ∅)
  | .throw .stopped s =>
    match text.stop.bind (·.error) with
    | some error => (⟨none, s.errors ++ [error]⟩, s.tables.seed ∅)
    | none => (⟨none, s.errors⟩, s.tables)
  | .halt _ => (⟨none, []⟩, t)

/-- An accepted program is what the text derives, named after the file. -/
theorem parseFile_accepted {t : Tables} {hints : Finset String} {text : SourceText} {p : Program}
    (haccepted : (parseFile t hints text).1.program = some p) :
    ∃ q s, (program text.derivation (start t hints text)).outcome = .ok q s ∧
      p = { q with moduleName := text.stem } := by
  unfold parseFile at haccepted
  cases ho : (program text.derivation (start t hints text)).outcome with
  | ok q s =>
    rw [ho] at haccepted
    cases haccepted
    exact ⟨q, s, rfl, rfl⟩
  | throw e s =>
    rw [ho] at haccepted
    cases e with
    | aborted => cases haccepted
    | stopped =>
      cases herror : text.stop.bind (·.error) with
      | none =>
        simp only [herror] at haccepted
        cases haccepted
      | some error =>
        simp only [herror] at haccepted
        cases haccepted
  | halt r =>
    rw [ho] at haccepted
    cases haccepted

end FalconLib.Parser
