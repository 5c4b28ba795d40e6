import Mathlib.Data.List.SplitBy
import Mathlib.Tactic.Common

/-!
# `extract_imports_from_file`

A scan of the lines of a file for strings after `import`, without lexer or grammar.
-/

namespace FalconLib.Dsl.ImportScanner

def isBlank (c : Char) : Bool := c == ' ' || c == '\t' || c == '\r'

/-- What stands between the first and the last quote, if there are two. -/
def quoted (line : List Char) : List (List Char) :=
  let rest := (line.dropWhile (· ≠ '"')).drop 1
  if '"' ∈ rest then [((rest.reverse.dropWhile (· ≠ '"')).drop 1).reverse] else []

def importWord : List Char := ['i', 'm', 'p', 'o', 'r', 't']

/-- The scan ends at the first line outside a block that is neither blank nor an import,
and starts with neither a slash nor a hash. -/
def scan : Bool → List (List Char) → List (List Char)
  | _, [] => []
  | inImportBlock, line :: lines =>
    let trimmed := line.dropWhile isBlank
    if trimmed.isEmpty then scan inImportBlock lines
    else if importWord.isPrefixOf trimmed then
      quoted trimmed ++ scan (inImportBlock || '(' ∈ trimmed) lines
    else if inImportBlock then
      if ')' ∈ trimmed then scan false lines else quoted trimmed ++ scan true lines
    else if trimmed.head? = some '/' || trimmed.head? = some '#' then scan false lines
    else []

/-- The lines that `std::getline` reads, and possibly an empty one more. -/
def lines (text : List Char) : List (List Char) := text.splitOn '\n'

def extractImportsFromFile (text : String) : List String :=
  (scan false (lines text.toList)).map String.ofList

end FalconLib.Dsl.ImportScanner
