import FalconLib.Cli.Discovery

/-!
# Injection of the harness

`transform_source` finds the suites of a file by their signature and by a count of braces of its
own, and inserts the generated states. The grammar pairs the braces over the tokens.
-/

namespace FalconLib.Cli.Injection

open FalconLib.Base.Patterns
open FalconLib.Parser.Lexer
open FalconLib.Parser.Spelling
open TestMain (SuiteInfo)
open Discovery (analyseSuiteBody attemptState)

/-! ## Suites in the raw text -/

structure AutotunerBlock where
  name : String
  openBrace : Nat
  closeBrace : Nat
deriving DecidableEq

inductive Mode where
  | code
  | string
  | lineComment
  | blockComment
deriving DecidableEq

/-- The loop of `find_matching_brace` at the index `i`. The first argument is set where the source
steps over a character. -/
def scan : Bool → Mode → Int → Nat → List Char → Option Nat
  | _, _, _, _, [] => none
  | true, mode, depth, i, _ :: rest => scan false mode depth (i + 1) rest
  | false, .lineComment, depth, i, c :: rest =>
    scan false (if c = '\n' then .code else .lineComment) depth (i + 1) rest
  | false, .blockComment, depth, i, c :: rest =>
    if c = '*' ∧ rest.head? = some '/' then scan true .code depth (i + 1) rest
    else scan false .blockComment depth (i + 1) rest
  | false, .string, depth, i, c :: rest =>
    if c = '\\' then scan true .string depth (i + 1) rest
    else scan false (if c = '"' then .code else .string) depth (i + 1) rest
  | false, .code, depth, i, c :: rest =>
    if c = '/' ∧ rest.head? = some '/' then scan true .lineComment depth (i + 1) rest
    else if c = '/' ∧ rest.head? = some '*' then scan true .blockComment depth (i + 1) rest
    else if c = '"' then scan false .string depth (i + 1) rest
    else if c = '{' then scan false .code (depth + 1) (i + 1) rest
    else if c = '}' then
      if depth - 1 = 0 then some i else scan false .code (depth - 1) (i + 1) rest
    else scan false .code depth (i + 1) rest

def findMatchingBrace (src : List Char) (openPos : Nat) : Option Nat :=
  scan false .code 0 openPos (src.drop openPos)

/-- `\s*->\s*\(\s*int\s+passed\s*,\s*int\s+failed\s*\)`. -/
def outputs : List Part :=
  [.run isSpace, .word "->".toList, .run isSpace, .word "(".toList, .run isSpace,
    .word "int".toList, .one isSpace, .run isSpace, .word "passed".toList, .run isSpace,
    .word ",".toList, .run isSpace, .word "int".toList, .one isSpace, .run isSpace,
    .word "failed".toList, .run isSpace, .word ")".toList]

/-- `autotuner\s+([A-Za-z_][A-Za-z0-9_]*)\s*->\s*\(…\)`. -/
def signaturePattern : Pattern :=
  ⟨[.word "autotuner".toList, .one isSpace, .run isSpace], [.one isLetter, .run isWord], outputs⟩

def attemptSignature : Option Char → List Char → Option (List Char × List Char) :=
  attemptState signaturePattern

/-- The block after a signature, if its braces are found. -/
def block (src : List Char) (found : List Char × List Char) : Option AutotunerBlock :=
  let sigEnd := src.length - found.2.length
  match (src.drop sigEnd).findIdx? (· = '{') with
  | none => none
  | some offset =>
    (findMatchingBrace src (sigEnd + offset)).map fun close =>
      ⟨String.ofList found.1, sigEnd + offset, close⟩

def findSuiteBlocks (src : List Char) : List AutotunerBlock :=
  (findAll attemptSignature 0 none src).filterMap (block src)

/-! ## The generated text -/

def openText : String := "\x7b"

def closeText : String := "\x7d"

/-- Three bytes draw a line in the comment. -/
def ruleText (length : Nat) : String := String.join (List.replicate length "\xe2\x94\x80")

def registerText : List String → String
  | [] => ""
  | first :: others => "    Error err = runner.Register(\"" ++ first ++ "\");\n" ++
      String.join (others.map fun name => "    err = runner.Register(\"" ++ name ++ "\");\n")

def dispatchText (name : String) : String :=
  "    if (name == \"" ++ name ++ "\") " ++ openText ++ " -> " ++ name ++ "(runner, t); " ++
    closeText ++ "\n"

def generateHarnessStates (suite : SuiteInfo) : String :=
  "\n  // " ++ ruleText 2 ++ " Harness (generated by falcon-test \xe2\x80\x94 do not edit) " ++
    ruleText 14 ++ "\n" ++
  "  state __init " ++ openText ++ "\n" ++
  "    TestRunner runner = TestRunner.New(\"" ++ suite.name ++ "\");\n" ++
  registerText suite.testNames ++
  "    err = runner.PrintHeader();\n" ++
  "    -> __loop(runner);\n" ++
  "  " ++ closeText ++ "\n\n" ++
  "  state __loop (TestRunner runner) " ++ openText ++ "\n" ++
  "    bool more = runner.HasNext();\n" ++
  (if suite.hasSetup then "    if (more) " ++ openText ++ " -> setup(runner);" ++ closeText ++ "\n"
    else "    if (more) " ++ openText ++ " -> __begin(runner);" ++ closeText ++ "\n") ++
  "    else      " ++ openText ++ " -> __finish(runner);" ++ closeText ++ "\n" ++
  "  " ++ closeText ++ "\n\n" ++
  "  state __begin (TestRunner runner) " ++ openText ++ "\n" ++
  "    TestContext t = runner.BeginCurrent();\n" ++
  "    -> __dispatch(runner, t);\n" ++
  "  " ++ closeText ++ "\n\n" ++
  "  state __dispatch (TestRunner runner, TestContext t) " ++ openText ++ "\n" ++
  "    string name = runner.CurrentName();\n" ++
  String.join (suite.testNames.map dispatchText) ++
  "    Error err = t.Fail(\"no body for: \" + name);\n" ++
  (if suite.hasTeardown then "    -> teardown(runner, t);\n" else "    -> __end(runner, t);\n") ++
  "  " ++ closeText ++ "\n\n" ++
  "  state __end (TestRunner runner, TestContext t) " ++ openText ++ "\n" ++
  "    Error err = runner.EndCurrent(t);\n" ++
  "    -> __loop(runner);\n" ++
  "  " ++ closeText ++ "\n\n" ++
  "  state __finish (TestRunner runner) " ++ openText ++ "\n" ++
  "    Error err = runner.PrintSummary();\n" ++
  "    passed = runner.PassedCount();\n" ++
  "    failed = runner.FailedCount();\n" ++
  "    terminal;\n" ++
  "  " ++ closeText ++ "\n"

/-! ## `transform_source` -/

/-- `std::sort` by the closing brace, the last one first. -/
structure BlockSort where
  run : List AutotunerBlock → List AutotunerBlock
  perm : ∀ blocks, (run blocks).Perm blocks
  sorted : ∀ blocks, (run blocks).Pairwise fun a b => b.closeBrace ≤ a.closeBrace

/-- The text so far and the suites so far. -/
def inject (state : List Char × List SuiteInfo) (block : AutotunerBlock) :
    List Char × List SuiteInfo :=
  let body := (state.1.drop (block.openBrace + 1)).take (block.closeBrace - block.openBrace - 1)
  let suite := analyseSuiteBody block.name body
  if suite.testNames = [] then state
  else (state.1.take block.closeBrace ++ ((generateHarnessStates suite).toList ++
    state.1.drop block.closeBrace), state.2 ++ [suite])

def transformSource (sort : BlockSort) (src : List Char) : List Char × List SuiteInfo :=
  if findSuiteBlocks src = [] then (src, [])
  else (sort.run (findSuiteBlocks src)).foldl inject (src, [])

/-! ## The pairs of the grammar -/

/-- The depth after the lexemes, if no brace is closed that was open before. -/
def depthAfter : Nat → List Lexeme → Option Nat
  | depth, [] => some depth
  | depth, x :: xs =>
    if x.token? = some .lbrace then depthAfter (depth + 1) xs
    else if x.token? = some .rbrace then
      if depth = 0 then none else depthAfter (depth - 1) xs
    else depthAfter depth xs

/-- Every backslash has a character of the literal after it. -/
def Sealed : List Char → Prop
  | [] => True
  | [c] => c ≠ '\\'
  | c :: d :: rest => if c = '\\' then Sealed rest else Sealed (d :: rest)

/-- The scan reads strings and quotes as the lexer does. -/
structure Clean (xs : List Lexeme) : Prop where
  strings : ∀ value text, .token (.string value) text ∈ xs → Sealed value.toList
  quotes : .unknown '"' ∉ xs

/-! ## The scan over one lexeme -/

def marks : List Char := ['/', '"', '{', '}']

theorem scan_plain {text : List Char} (h : ∀ c ∈ text, c ∉ marks) (depth : Int) (i : Nat)
    (rest : List Char) :
    scan false .code depth i (text ++ rest) = scan false .code depth (i + text.length) rest := by
  induction text generalizing i with
  | nil => rfl
  | cons c text ih =>
    have hc := h c List.mem_cons_self
    unfold marks at hc
    simp only [List.mem_cons, List.not_mem_nil, or_false, not_or] at hc
    obtain ⟨hslash, hquote, hopen, hclose⟩ := hc
    rw [List.cons_append, scan, if_neg fun h => hslash h.1, if_neg fun h => hslash h.1,
      if_neg hquote, if_neg hopen, if_neg hclose, ih fun x hx => h x (List.mem_cons_of_mem c hx),
      List.length_cons, Nat.add_right_comm, Nat.add_assoc]

theorem scan_inside {value : List Char} (hsealed : Sealed value) (hquote : '"' ∉ value)
    (depth : Int) (i : Nat) (rest : List Char) :
    scan false .string depth i (value ++ '"' :: rest) =
      scan false .code depth (i + value.length + 1) rest := by
  have hplain : ∀ c i rest, c ≠ '\\' → c ≠ '"' → scan false .string depth i (c :: rest) =
      scan false .string depth (i + 1) rest := by
    intro c i rest hescape hc
    rw [scan, if_neg hescape, if_neg hc]
  induction value using Sealed.induct generalizing i with
  | case1 => rfl
  | case2 c =>
    rw [List.mem_singleton] at hquote
    rw [List.cons_append, hplain c i _ hsealed (Ne.symm hquote)]
    rfl
  | case3 d value ih =>
    have hrest : Sealed value := by
      unfold Sealed at hsealed
      rwa [if_pos rfl] at hsealed
    have hstep : scan false .string depth i ('\\' :: d :: value ++ '"' :: rest) =
        scan false .string depth (i + 1 + 1) (value ++ '"' :: rest) := rfl
    rw [hstep, ih hrest (fun hmem => hquote (by simp [hmem]))]
    congr 1
    simp only [List.length_cons]
    omega
  | case4 c d value hc ih =>
    have hrest : Sealed (d :: value) := by
      unfold Sealed at hsealed
      rwa [if_neg hc] at hsealed
    rw [List.cons_append, hplain c i _ hc (fun he => hquote (he ▸ List.mem_cons_self)),
      ih hrest (fun hmem => hquote (List.mem_cons_of_mem c hmem))]
    congr 1
    simp only [List.length_cons]
    omega

theorem scan_string {value : List Char} (hsealed : Sealed value) (hquote : '"' ∉ value)
    (depth : Int) (i : Nat) (rest : List Char) :
    scan false .code depth i ('"' :: (value ++ ['"']) ++ rest) =
      scan false .code depth (i + ('"' :: (value ++ ['"'])).length) rest := by
  rw [List.cons_append, List.append_assoc]
  change scan false .string depth (i + 1) (value ++ '"' :: rest) = _
  rw [scan_inside hsealed hquote]
  congr 1
  simp
  omega

theorem scan_comment {body : List Char} (h : '\n' ∉ body) (depth : Int) (i : Nat)
    (rest : List Char) :
    scan false .lineComment depth i (body ++ rest) =
      scan false .lineComment depth (i + body.length) rest := by
  induction body generalizing i with
  | nil => rfl
  | cons c body ih =>
    have hc : c ≠ '\n' := fun he => h (he ▸ List.mem_cons_self)
    rw [List.cons_append, scan, if_neg hc, ih fun hmem => h (List.mem_cons_of_mem c hmem),
      List.length_cons, Nat.add_right_comm, Nat.add_assoc]

/-! ## The scan over lexemes -/

/-- After a comment the line ends, or the text does. -/
def Ready : Mode → List Char → Prop
  | .code, _ => True
  | .lineComment, text => Ends (· ≠ '\n') text
  | _, _ => False

theorem words_not_marks {c : Char} (h : isWord c = true) : c ∉ marks := by
  intro hmem
  unfold marks at hmem
  simp only [List.mem_cons, List.not_mem_nil, or_false] at hmem
  rcases hmem with rfl | rfl | rfl | rfl <;> cases h

theorem digits_not_marks {c : Char} (h : isDigit c = true) : c ∉ marks :=
  words_not_marks (Bool.or_eq_true_iff.mpr (.inr h))

theorem numberMarks_not_marks : ∀ c ∈ numberMarks, c ∉ marks := by
  have hany : numberMarks.any (marks.contains ·) = false := by decide
  exact fun c hc hmark => List.any_eq_false.mp hany c hc (List.contains_iff_mem.mpr hmark)

theorem blank_not_marks {c : Char} (h : isBlank c = true) : c ∉ marks := by
  intro hmem
  unfold marks at hmem
  simp only [List.mem_cons, List.not_mem_nil, or_false] at hmem
  rcases hmem with rfl | rfl | rfl | rfl <;> cases h

theorem operators_not_marks : ∀ operator ∈ operators, operator.2 ∉ [.div, .lbrace, .rbrace] →
    ∀ c ∈ operator.1, c ∉ marks := by
  have hany : ∀ operator ∈ operators, operator.2 ∉ [.div, .lbrace, .rbrace] →
      operator.1.any (marks.contains ·) = false := by decide
  intro operator hoperator hplain c hc hmark
  exact List.any_eq_false.mp (hany operator hoperator hplain) c hc (List.contains_iff_mem.mpr hmark)

section

variable {src : List Char} {before after : List Lexeme} {x : Lexeme}

theorem next_slash (rest : List Char) : next '/' ('/' :: rest) =
    .comment (('/' :: '/' :: rest).takeWhile (· ≠ '\n')) := rfl

theorem next_mul (rest : List Char) : next '*' rest = .token .mul ['*'] := rfl

theorem div_listed : (['/'], Token.div) ∈ operators := by decide

/-- A slash that is read as a token has neither a slash nor a star after it. -/
theorem head_after_div {text : List Char} (hdiv : ¬[.div, .mul] <:+: tokens src)
    (hsrc : lex src = before ++ .token .div text :: after) :
    text = ['/'] ∧ (render after).head? ≠ some '/' ∧ (render after).head? ≠ some '*' := by
  obtain ⟨c, rest, hnext, htext⟩ := exists_next_of_mem hsrc
  have hlisted := operator_of_tokenText (tokenText_next hnext) div_listed
  have hunique : ∀ operator ∈ operators, operator.2 = .div → operator.1 = ['/'] := by decide
  obtain rfl : text = ['/'] := hunique _ hlisted rfl
  have hrest : rest = render after := (List.cons.inj htext).2
  obtain rfl : c = '/' := (List.cons.inj htext).1
  refine ⟨rfl, fun hslash => ?_, fun hstar => ?_⟩
  · obtain ⟨more, hmore⟩ := List.head?_eq_some_iff.mp hslash
    rw [hrest, hmore, next_slash] at hnext
    cases hnext
  · obtain ⟨more, hmore⟩ := List.head?_eq_some_iff.mp hstar
    have hsplit : lex src = (before ++ [.token .div ['/']]) ++ after := by
      rw [hsrc, List.append_assoc]
      rfl
    have hafter := lex_render_of_append hsplit
    rw [hmore, lex_cons, next_mul] at hafter
    refine hdiv ⟨before.filterMap Lexeme.token?, (after.drop 1).filterMap Lexeme.token?, ?_⟩
    unfold tokens
    rw [hsrc, ← hafter, List.filterMap_append, List.append_assoc]
    rfl

theorem not_marks_of_unknown {c : Char} {rest : List Char} (h : next c rest = .unknown c)
    (hquote : c ≠ '"') : c ∉ marks := by
  intro hmem
  unfold marks at hmem
  simp only [List.mem_cons, List.not_mem_nil, or_false] at hmem
  rcases hmem with rfl | rfl | rfl | rfl
  · by_cases hslash : rest.head? = some '/'
    · obtain ⟨more, rfl⟩ := List.head?_eq_some_iff.mp hslash
      cases h
    · change (if '/' = '/' ∧ rest.head? = some '/' then _ else operator '/' rest) = _ at h
      rw [if_neg fun h => hslash h.2] at h
      cases h
  · exact hquote rfl
  · cases h
  · cases h

theorem scan_lexeme (hdiv : ¬[.div, .mul] <:+: tokens src) (hsrc : lex src = before ++ x :: after)
    (hstring : ∀ value text, x = .token (.string value) text → Sealed value.toList)
    (hquote : x ≠ .unknown '"') (hopen : x.token? ≠ some .lbrace)
    (hclose : x.token? ≠ some .rbrace) :
    ∃ mode, Ready mode (render after) ∧ ∀ depth i,
      scan false .code depth i (x.text ++ render after) =
        scan false mode depth (i + x.text.length) (render after) := by
  obtain ⟨c, rest, hnext, htext⟩ := exists_next_of_mem hsrc
  rcases next_cases c rest with ⟨token, text, hcase⟩ | ⟨blanks, hcase, hblank⟩ | ⟨hcase, -⟩ |
    ⟨comment, hcase, htake⟩ | ⟨hcase, hword⟩ <;> obtain rfl := hnext.symm.trans hcase
  · have hplain : (∀ c ∈ text, c ∉ marks) → ∃ mode, Ready mode (render after) ∧ ∀ depth i,
        scan false .code depth i (text ++ render after) =
          scan false mode depth (i + text.length) (render after) :=
      fun h => ⟨.code, trivial, fun depth i => scan_plain h depth i _⟩
    cases tokenText_next hnext with
    | word first others =>
      exact hplain fun d hd => words_not_marks
        ((List.mem_cons.mp hd).elim (fun he => he ▸ isWord_of_isLetter first) (others d))
    | number _ chars =>
      exact hplain fun d hd => (chars.chars d hd).elim digits_not_marks (numberMarks_not_marks d)
    | @string value inside =>
      have hsealed := hstring _ _ rfl
      rw [String.toList_ofList] at hsealed
      exact ⟨.code, trivial, fun depth i => scan_string hsealed inside depth i _⟩
    | operator listed =>
      by_cases hspecial : token ∈ [Token.div, .lbrace, .rbrace]
      · have hdivision : token = .div := by
          simp only [List.mem_cons, List.not_mem_nil, or_false] at hspecial
          rcases hspecial with h | rfl | rfl
          · exact h
          · exact absurd rfl hopen
          · exact absurd rfl hclose
        subst hdivision
        obtain ⟨rfl, hslash, hstar⟩ := head_after_div hdiv hsrc
        refine ⟨.code, trivial, fun depth i => ?_⟩
        change scan false .code depth i ('/' :: render after) = _
        rw [scan, if_neg fun h => hslash h.2, if_neg fun h => hstar h.2]
        rfl
      · exact hplain (operators_not_marks _ listed hspecial)
  · exact ⟨.code, trivial,
      fun depth i => scan_plain (fun d hd => blank_not_marks (hblank d hd)) depth i _⟩
  · exact ⟨.code, trivial, fun depth i => rfl⟩
  · refine ⟨.lineComment, ?_, fun depth i => ?_⟩
    · rw [htext] at htake
      exact ends_of_takeWhile htake.symm
    · have hbody : '\n' ∉ comment := by
        intro hmem
        have hin : '\n' ∈ (c :: rest).takeWhile (· ≠ '\n') := by
          rw [← htake]
          exact List.mem_cons_of_mem _ (List.mem_cons_of_mem _ hmem)
        have hne := List.mem_takeWhile_imp hin
        cases hne
      have hstep : scan false .code depth i ('/' :: '/' :: comment ++ render after) =
          scan false .lineComment depth (i + 1 + 1) (comment ++ render after) := rfl
      change scan false .code depth i ('/' :: '/' :: comment ++ render after) = _
      rw [hstep, scan_comment hbody]
      congr 1
      change i + 1 + 1 + comment.length = i + (comment.length + 1 + 1)
      omega
  · refine ⟨.code, trivial, fun depth i => scan_plain (fun d hd => ?_) depth i _⟩
    obtain rfl := List.mem_singleton.mp hd
    exact not_marks_of_unknown hnext fun he => hquote (congrArg Lexeme.unknown he)

theorem brace_text {token : Token} {text word : List Char}
    (hsrc : lex src = before ++ .token token text :: after) (hlisted : (word, token) ∈ operators)
    (hunique : ∀ operator ∈ operators, operator.2 = token → operator.1 = word) : text = word := by
  obtain ⟨c, rest, hnext, -⟩ := exists_next_of_mem hsrc
  exact hunique _ (operator_of_tokenText (tokenText_next hnext) hlisted) rfl

theorem lbrace_text {text : List Char} (hsrc : lex src = before ++ .token .lbrace text :: after) :
    text = ['{'] :=
  brace_text hsrc (by decide) (by decide)

theorem rbrace_text {text : List Char} (hsrc : lex src = before ++ .token .rbrace text :: after) :
    text = ['}'] :=
  brace_text hsrc (by decide) (by decide)

theorem Clean.tail {xs : List Lexeme} (h : Clean (x :: xs)) : Clean xs :=
  ⟨fun value text hmem => h.strings value text (List.mem_cons_of_mem x hmem),
    fun hmem => h.quotes (List.mem_cons_of_mem x hmem)⟩

theorem exists_token_of_eq {token : Token} (h : x.token? = some token) :
    ∃ text, x = .token token text := by
  cases x with
  | token t text =>
    cases h
    exact ⟨text, rfl⟩
  | _ => cases h

end

/-- The scan counts the braces of the lexemes. -/
theorem scan_lexemes {src : List Char} {xs ys : List Lexeme} (hdiv : ¬[.div, .mul] <:+: tokens src)
    (hclean : Clean xs) {before : List Lexeme} (hsrc : lex src = before ++ (xs ++ ys)) {d e : Nat}
    (hdepth : depthAfter d xs = some e) {mode : Mode} (hready : Ready mode (render (xs ++ ys)))
    (i : Nat) : ∃ mode', Ready mode' (render ys) ∧
      scan false mode (d + 1) i (render (xs ++ ys)) =
        scan false mode' (e + 1) (i + (render xs).length) (render ys) := by
  induction xs generalizing before d mode i with
  | nil =>
    cases hdepth
    exact ⟨mode, hready, rfl⟩
  | cons x xs ih =>
    have hsplit : lex src = (before ++ [x]) ++ (xs ++ ys) := by
      rw [hsrc, List.append_assoc]
      rfl
    have hstep : ∀ mode₁ d₁, Ready mode₁ (render (xs ++ ys)) → depthAfter d₁ xs = some e →
        scan false mode (d + 1) i (render (x :: xs ++ ys)) =
          scan false mode₁ (d₁ + 1) (i + x.text.length) (render (xs ++ ys)) →
        ∃ mode', Ready mode' (render ys) ∧
          scan false mode (d + 1) i (render (x :: xs ++ ys)) =
            scan false mode' (e + 1) (i + (render (x :: xs)).length) (render ys) := by
      intro mode₁ d₁ hready₁ hdepth₁ hscan
      obtain ⟨mode', hready', hrest⟩ := ih hclean.tail hsplit hdepth₁ hready₁ (i + x.text.length)
      refine ⟨mode', hready', ?_⟩
      rw [hscan, hrest, render_cons, List.length_append, Nat.add_assoc]
    rw [List.cons_append] at hsrc
    cases mode with
    | string => exact hready.elim
    | blockComment => exact hready.elim
    | lineComment =>
      obtain ⟨c, rest, hnext, htext⟩ := exists_next_of_mem hsrc
      have hends : Ends (· ≠ '\n') (c :: rest) := htext ▸ hready
      have hc : c = '\n' := not_not.mp (of_decide_eq_false hends)
      subst hc
      obtain rfl : x = .newline := hnext.symm
      exact hstep .code d trivial hdepth rfl
    | code =>
      unfold depthAfter at hdepth
      split_ifs at hdepth with hopen hclose hzero
      · obtain ⟨text, rfl⟩ := exists_token_of_eq hopen
        obtain rfl := lbrace_text hsrc
        exact hstep .code (d + 1) trivial hdepth rfl
      · obtain ⟨text, rfl⟩ := exists_token_of_eq hclose
        obtain rfl := rbrace_text hsrc
        refine hstep .code (d - 1) trivial hdepth ?_
        have hpositive : ¬((d : Int) + 1 - 1 = 0) := by omega
        have hless : (d : Int) + 1 - 1 = ((d - 1 : Nat) : Int) + 1 := by omega
        change (if (d : Int) + 1 - 1 = 0 then some i else
          scan false .code ((d : Int) + 1 - 1) (i + 1) (render (xs ++ ys))) = _
        rw [if_neg hpositive, hless]
        rfl
      · obtain ⟨mode₁, hready₁, hscan⟩ := scan_lexeme hdiv hsrc
          (fun value text he => hclean.strings value text (he ▸ List.mem_cons_self))
          (fun he => hclean.quotes (he ▸ List.mem_cons_self)) hopen hclose
        refine hstep mode₁ d hready₁ hdepth ?_
        rw [List.cons_append, render_cons]
        exact hscan (d + 1) i

end FalconLib.Cli.Injection
