import FalconLib.Dsl.Value

/-!
# Error texts with an excerpt of the source file

Columns count bytes. `sources` gives the lines of a file, none if it cannot be opened.
-/

namespace FalconLib.Dsl.SourceContext

def horizontalRule : String := "══════════════════════════════════════════════════════════════"

/-- `std::setw(4)` with `std::right`. -/
def padLineNumber (line : Int) : String :=
  let digits := toString line
  String.ofList (List.replicate (4 - digits.length) ' ') ++ digits

/-- The blanks under a line up to the column, with its tabs kept. -/
def caretIndent (line : String) (column : Int) : String :=
  let bytes := line.toUTF8.toList
  String.ofList <| (List.range (column - 1).toNat).map fun i =>
    if bytes[i]? = some 9 then '\t' else ' '

def excerptLine (loc : Location) (lines : List String) (lineNumber : Nat) : String :=
  let text := lines[lineNumber - 1]?.getD ""
  if (lineNumber : Int) = loc.line then
    "║ >>> " ++ padLineNumber lineNumber ++ " | " ++ text ++ "\n" ++
      "║          | " ++ caretIndent text loc.column ++ "^\n"
  else "║     " ++ padLineNumber lineNumber ++ " | " ++ text ++ "\n"

/-- The lines shown around `line`: two before and two after. -/
def excerptRange (line count : Nat) : List Nat :=
  let first := max 1 (line - 2)
  (List.range (min count (line + 2) + 1 - first)).map (first + ·)

def formatErrorWithContext (sources : String → List String) (loc : Location)
    (errorMessage : String) : String :=
  let header :=
    "\n╔" ++ horizontalRule ++ "\n" ++ "║ Runtime Error in Autotuner Execution\n" ++
      "╠" ++ horizontalRule ++ "\n" ++ "║ File: " ++ loc.filename ++ "\n" ++
      "║ Line: " ++ toString loc.line ++ ", Column: " ++ toString loc.column ++ "\n" ++
      "║ Error: " ++ errorMessage ++ "\n" ++ "╠" ++ horizontalRule ++ "\n"
  let footer := "╚" ++ horizontalRule ++ "\n\n"
  let lines := sources loc.filename
  if lines.isEmpty || loc.line < 1 || lines.length < loc.line then
    header ++ "║ (Source context not available)\n" ++ footer
  else
    header ++ "║\n" ++
      String.join ((excerptRange loc.line.toNat lines.length).map (excerptLine loc lines)) ++ footer

/-- What `execute_with_context` turns an exception of a statement into. -/
def wrap (sources : String → List String) (loc : Location) (e : Exception) : Exception :=
  if loc.filename ≠ "" ∧ 0 < loc.line then
    .evaluation (formatErrorWithContext sources loc e.what)
  else
    match e with
    | .evaluation message => .evaluation message
    | .other message => .evaluation ("Unexpected error: " ++ message)

end FalconLib.Dsl.SourceContext
