import Mathlib.Tactic.Common

/-!
# Expressions of operators

Trees of unary and binary operators over operands, and the parser that keeps the pending operators
on a stack. Before it shifts a binary operator it asks of the pending operator whether to reduce
it; where the answer comes from, levels and associativity or anything else, is a parameter. A row
of tokens has exactly one tree that the answers allow.
-/

namespace FalconLib.Base.Precedence

variable {τ α U B : Type}

/-- `α` are the operands, `U` the unary and `B` the binary operators. -/
inductive Tree (α U B : Type) where
  | operand (a : α)
  | unary (u : U) (tree : Tree α U B)
  | binary (left : Tree α U B) (b : B) (right : Tree α U B)

/-- The tokens of the operators, and whether a pending operator is reduced before a binary one is
shifted. A token may be that of a unary and of a binary operator. -/
structure Table (τ U B : Type) where
  unaryToken : U → τ
  unary? : τ → Option U
  unary?_iff : ∀ t u, unary? t = some u ↔ t = unaryToken u
  binaryToken : B → τ
  binary? : τ → Option B
  binary?_iff : ∀ t b, binary? t = some b ↔ t = binaryToken b
  reduces : U ⊕ B → B → Bool

namespace Tree

/-- The binary operators that stand open to the left. -/
def leftSpine : Tree α U B → List B
  | operand _ => []
  | unary _ _ => []
  | binary left b _ => b :: leftSpine left

/-- The operators that stand open to the right. -/
def rightSpine : Tree α U B → List (U ⊕ B)
  | operand _ => []
  | unary u tree => .inl u :: rightSpine tree
  | binary _ b right => .inr b :: rightSpine right

/-- The tokens of a tree, from those of its operands. -/
def tokens (table : Table τ U B) (yield : α → List τ) : Tree α U B → List τ
  | operand a => yield a
  | unary u tree => table.unaryToken u :: tokens table yield tree
  | binary left b right =>
    tokens table yield left ++ table.binaryToken b :: tokens table yield right

/-- Every operator stands where the table has it reduced: the operators open to the right of a left
operand go first, and none that is open to the left of a right operand comes too late. -/
def Conforms (table : Table τ U B) (good : α → Prop) : Tree α U B → Prop
  | operand a => good a
  | unary u tree =>
    tree.Conforms table good ∧ ∀ b ∈ tree.leftSpine, table.reduces (.inl u) b = false
  | binary left b right =>
    left.Conforms table good ∧ right.Conforms table good ∧
      (∀ s ∈ left.rightSpine, table.reduces s b = true) ∧
      ∀ b' ∈ right.leftSpine, table.reduces (.inr b) b' = false

/-- The operands and the unary operators: as many symbols are shifted where an operand is due. -/
def shifts : Tree α U B → Nat
  | operand _ => 1
  | unary _ tree => tree.shifts + 1
  | binary left _ right => left.shifts + right.shifts

def Forall (p : α → Prop) : Tree α U B → Prop
  | operand a => p a
  | unary _ tree => tree.Forall p
  | binary left _ right => left.Forall p ∧ right.Forall p

theorem Conforms.forall {table : Table τ U B} {good : α → Prop} {tree : Tree α U B}
    (h : tree.Conforms table good) : tree.Forall good := by
  induction tree with
  | operand a => exact h
  | unary u tree ih => exact ih h.1
  | binary left b right ihl ihr => exact ⟨ihl h.1, ihr h.2.1⟩

theorem Forall.mono {p q : α → Prop} (hpq : ∀ a, p a → q a) {tree : Tree α U B}
    (h : tree.Forall p) : tree.Forall q := by
  induction tree with
  | operand a => exact hpq a h
  | unary u tree ih => exact ih h
  | binary left b right ihl ihr => exact ⟨ihl h.1, ihr h.2⟩

theorem Forall.and {p q : α → Prop} {tree : Tree α U B} (hp : tree.Forall p)
    (hq : tree.Forall q) : tree.Forall fun a => p a ∧ q a := by
  induction tree with
  | operand a => exact ⟨hp, hq⟩
  | unary u tree ih => exact ih hp hq
  | binary left b right ihl ihr => exact ⟨ihl hp.1 hq.1, ihr hp.2 hq.2⟩

/-- No operand is longer than the tree. -/
theorem forall_length_le (table : Table τ U B) (yield : α → List τ) (tree : Tree α U B) :
    tree.Forall fun a => (yield a).length ≤ (tree.tokens table yield).length := by
  induction tree with
  | operand a => exact Nat.le_refl _
  | unary u tree ih => exact ih.mono fun a ha => Nat.le_succ_of_le ha
  | binary left b right ihl ihr =>
    simp only [tokens, List.length_append, List.length_cons]
    exact ⟨ihl.mono fun a ha => by omega, ihr.mono fun a ha => by omega⟩

/-- What is asked of the operands may change. -/
theorem Conforms.of_forall {table : Table τ U B} {good good' : α → Prop} {tree : Tree α U B}
    (h : tree.Conforms table good) (h' : tree.Forall good') : tree.Conforms table good' := by
  induction tree with
  | operand a => exact h'
  | unary u tree ih => exact ⟨ih h.1 h', h.2⟩
  | binary left b right ihl ihr => exact ⟨ihl h.1 h'.1, ihr h.2.1 h'.2, h.2.2⟩

end Tree

/-! ## The parser -/

/-- A pending operator, with its left operand if it is binary. -/
inductive Frame (α U B : Type) where
  | unary (u : U)
  | binary (left : Tree α U B) (b : B)

namespace Frame

def sign : Frame α U B → U ⊕ B
  | unary u => .inl u
  | binary _ b => .inr b

def fill : Frame α U B → Tree α U B → Tree α U B
  | unary u, tree => .unary u tree
  | binary left b, tree => .binary left b tree

def tokens (table : Table τ U B) (yield : α → List τ) : Frame α U B → List τ
  | unary u => [table.unaryToken u]
  | binary left b => left.tokens table yield ++ [table.binaryToken b]

end Frame

def reduceAll : List (Frame α U B) → Tree α U B → Tree α U B
  | [], tree => tree
  | frame :: stack, tree => reduceAll stack (frame.fill tree)

/-- The reductions before `b` is shifted. -/
def reduceWhile (table : Table τ U B) (b : B) :
    List (Frame α U B) → Tree α U B → List (Frame α U B) × Tree α U B
  | [], tree => ([], tree)
  | frame :: stack, tree =>
    if table.reduces frame.sign b then reduceWhile table b stack (frame.fill tree)
    else (frame :: stack, tree)

/-- What follows an operand: a binary operator, or the end. `shift` reads on. -/
def resume (table : Table τ U B)
    (shift : List (Frame α U B) → List τ → Option (Tree α U B × List τ))
    (stack : List (Frame α U B)) (tree : Tree α U B) (input : List τ) :
    Option (Tree α U B × List τ) :=
  match input.head?.bind table.binary? with
  | some b =>
    let (stack, tree) := reduceWhile table b stack tree
    shift (.binary tree b :: stack) input.tail
  | none => some (reduceAll stack tree, input)

/-- An operand is due. -/
def shift (table : Table τ U B) (operand : List τ → Option (α × List τ)) :
    Nat → List (Frame α U B) → List τ → Option (Tree α U B × List τ)
  | 0, _, _ => none
  | fuel + 1, stack, input =>
    match input.head?.bind table.unary? with
    | some u => shift table operand fuel (.unary u :: stack) input.tail
    | none =>
      match operand input with
      | some (a, rest) => resume table (shift table operand fuel) stack (.operand a) rest
      | none => none

/-- An expression at the front of a row, and what stands behind it. -/
def parse (table : Table τ U B) (operand : List τ → Option (α × List τ)) (input : List τ) :
    Option (Tree α U B × List τ) :=
  shift table operand (input.length + 1) [] input

/-! ## Tokens of operators -/

section Table

variable (table : Table τ U B)

@[simp] theorem Table.unary?_unaryToken (u : U) : table.unary? (table.unaryToken u) = some u :=
  (table.unary?_iff _ _).mpr rfl

@[simp] theorem Table.binary?_binaryToken (b : B) :
    table.binary? (table.binaryToken b) = some b := (table.binary?_iff _ _).mpr rfl

theorem eq_cons_of_head? {β : Type} {f : τ → Option β} {input : List τ} {x : β}
    (h : input.head?.bind f = some x) : ∃ t rest, input = t :: rest ∧ f t = some x := by
  cases input with
  | nil => cases h
  | cons t rest => exact ⟨t, rest, rfl, h⟩

end Table

/-! ## Trees that conform are read back -/

section Reading

variable {table : Table τ U B} {operand : List τ → Option (α × List τ)} {yield : α → List τ}
  {good : α → Prop} {stops : List τ → Prop}

/-- The operand parser reads every good operand, up to where something that stops it begins. -/
structure Reads (table : Table τ U B) (operand : List τ → Option (α × List τ))
    (yield : α → List τ) (good : α → Prop) (stops : List τ → Prop) : Prop where
  complete : ∀ a rest, good a → stops rest → operand (yield a ++ rest) = some (a, rest)
  starts : ∀ a rest, good a → (yield a ++ rest).head?.bind table.unary? = none
  stops_binary : ∀ b rest, stops (table.binaryToken b :: rest)

/-- The operators left pending behind a tree, the last first, and its last operand. -/
def Tree.unwind : Tree α U B → List (Frame α U B) → List (Frame α U B) × Tree α U B
  | .operand a, stack => (stack, .operand a)
  | .unary u tree, stack => tree.unwind (.unary u :: stack)
  | .binary left b right, stack => right.unwind (.binary left b :: stack)

theorem reduceAll_unwind (tree : Tree α U B) (stack : List (Frame α U B)) :
    reduceAll (tree.unwind stack).1 (tree.unwind stack).2 = reduceAll stack tree := by
  induction tree generalizing stack with
  | operand a => rfl
  | unary u tree ih => exact ih _
  | binary left b right _ ihr => exact ihr _

/-- A tree is put together again in front of an operator that all its open operators go before. -/
theorem reduceWhile_unwind {b : B} {tree : Tree α U B}
    (h : ∀ s ∈ tree.rightSpine, table.reduces s b = true) (stack : List (Frame α U B)) :
    reduceWhile table b (tree.unwind stack).1 (tree.unwind stack).2 =
      reduceWhile table b stack tree := by
  induction tree generalizing stack with
  | operand a => rfl
  | unary u tree ih =>
    have hu : table.reduces (.inl u) b = true := h _ List.mem_cons_self
    rw [Tree.unwind, ih fun s hs => h s (List.mem_cons_of_mem _ hs), reduceWhile,
      if_pos (by exact hu)]
    rfl
  | binary left b' right _ ihr =>
    have hb : table.reduces (.inr b') b = true := h _ List.mem_cons_self
    rw [Tree.unwind, ihr fun s hs => h s (List.mem_cons_of_mem _ hs), reduceWhile,
      if_pos (by exact hb)]
    rfl

/-- The pending operator lets every operator open to the left be shifted. -/
def Under (table : Table τ U B) (stack : List (Frame α U B)) (bs : List B) : Prop :=
  ∀ frame ∈ stack.head?, ∀ b ∈ bs, table.reduces frame.sign b = false

theorem Under.reduceWhile {stack : List (Frame α U B)} {b : B} {bs : List B}
    (h : Under table stack (b :: bs)) (tree : Tree α U B) :
    reduceWhile table b stack tree = (stack, tree) := by
  cases stack with
  | nil => rfl
  | cons frame stack =>
    have hframe := h frame rfl b List.mem_cons_self
    simp [Precedence.reduceWhile, hframe]

/-- Reading a tree leaves its open operators pending. -/
theorem shift_tokens (hreads : Reads table operand yield good stops) {tree : Tree α U B}
    (htree : tree.Conforms table good) {stack : List (Frame α U B)}
    (hunder : Under table stack tree.leftSpine) {rest : List τ} (hrest : stops rest) (n : Nat) :
    shift table operand (tree.shifts + n) stack (tree.tokens table yield ++ rest) =
      resume table (shift table operand n) (tree.unwind stack).1 (tree.unwind stack).2 rest := by
  induction tree generalizing stack rest n with
  | operand a =>
    have hhead := hreads.starts a rest htree
    rw [Tree.shifts, Nat.add_comm, shift]
    simp only [Tree.tokens, hhead, hreads.complete a rest htree hrest]
    rfl
  | unary u tree ih =>
    have hfuel : (Tree.unary u tree : Tree α U B).shifts + n = tree.shifts + n + 1 := by
      simp only [Tree.shifts]; omega
    rw [hfuel, shift]
    simp only [Tree.tokens, List.cons_append, List.head?_cons, Option.bind_some,
      Table.unary?_unaryToken, List.tail_cons]
    refine ih htree.1 (fun frame hframe => ?_) hrest n
    cases hframe
    exact htree.2
  | binary left b right ihl ihr =>
    obtain ⟨hleft, hright, hspine, hopen⟩ := htree
    have hunderLeft : Under table stack left.leftSpine := fun frame hframe b' hb' =>
      hunder frame hframe b' (List.mem_cons_of_mem b hb')
    have hfuel : (Tree.binary left b right).shifts + n = left.shifts + (right.shifts + n) := by
      simp only [Tree.shifts]; omega
    rw [hfuel, Tree.tokens, List.append_assoc, List.cons_append,
      ihl hleft hunderLeft (hreads.stops_binary b _)]
    simp only [resume, List.head?_cons, Option.bind_some, Table.binary?_binaryToken,
      List.tail_cons]
    rw [reduceWhile_unwind hspine, hunder.reduceWhile]
    refine ihr hright (fun frame hframe => ?_) hrest n
    cases hframe
    exact hopen

theorem shifts_le (hstarts : ∀ a, good a → yield a ≠ []) {tree : Tree α U B}
    (htree : tree.Forall good) : tree.shifts ≤ (tree.tokens table yield).length := by
  induction tree with
  | operand a => exact List.length_pos_iff.mpr (hstarts a htree)
  | unary u tree ih => exact Nat.succ_le_succ (ih htree)
  | binary left b right ihl ihr =>
    have hl := ihl htree.1
    have hr := ihr htree.2
    simp only [Tree.shifts, Tree.tokens, List.length_append, List.length_cons]
    omega

/-- A tree that conforms is read back from its tokens, whatever stands behind them. -/
theorem parse_tokens (hreads : Reads table operand yield good stops)
    (hne : ∀ a, good a → yield a ≠ []) {tree : Tree α U B} (htree : tree.Conforms table good)
    {rest : List τ} (hrest : stops rest) (hend : rest.head?.bind table.binary? = none) :
    parse table operand (tree.tokens table yield ++ rest) = some (tree, rest) := by
  have hle : tree.shifts ≤ (tree.tokens table yield).length := shifts_le hne htree.forall
  have hfuel : (tree.tokens table yield ++ rest).length + 1 =
      tree.shifts + ((tree.tokens table yield ++ rest).length + 1 - tree.shifts) := by
    rw [List.length_append]
    omega
  rw [parse, hfuel, shift_tokens hreads htree (by simp [Under]) hrest]
  simp only [resume, hend]
  rw [reduceAll_unwind]
  rfl

/-- Two trees that conform are the same if their tokens are. -/
theorem eq_of_tokens (hreads : Reads table operand yield good stops)
    (hne : ∀ a, good a → yield a ≠ []) (hnil : stops []) {tree tree' : Tree α U B}
    (htree : tree.Conforms table good) (htree' : tree'.Conforms table good)
    (h : tree.tokens table yield = tree'.tokens table yield) : tree = tree' := by
  have hparse := parse_tokens hreads hne htree hnil rfl
  rw [h, parse_tokens hreads hne htree' hnil rfl] at hparse
  cases hparse
  rfl

end Reading

/-! ## What is read conforms -/

section Soundness

variable {table : Table τ U B} {operand : List τ → Option (α × List τ)} {yield : α → List τ}
  {good : α → Prop}

/-- A stack that a run can have: each left operand conforms, its open operators go before its
operator, and that is not reduced over. -/
def StackConforms (table : Table τ U B) (good : α → Prop) : List (Frame α U B) → Prop
  | [] => True
  | .unary _ :: stack => StackConforms table good stack
  | .binary left b :: stack =>
    StackConforms table good stack ∧ left.Conforms table good ∧
      (∀ s ∈ left.rightSpine, table.reduces s b = true) ∧ Under table stack (b :: left.leftSpine)

def stackTokens (table : Table τ U B) (yield : α → List τ) : List (Frame α U B) → List τ
  | [] => []
  | frame :: stack => stackTokens table yield stack ++ frame.tokens table yield

/-- A tree that may stand on top of a stack. -/
structure Sits (table : Table τ U B) (good : α → Prop) (stack : List (Frame α U B))
    (tree : Tree α U B) : Prop where
  below : StackConforms table good stack
  conforms : tree.Conforms table good
  under : Under table stack tree.leftSpine

theorem Sits.fill {frame : Frame α U B} {stack : List (Frame α U B)} {tree : Tree α U B}
    (h : Sits table good (frame :: stack) tree) : Sits table good stack (frame.fill tree) := by
  have hopen := h.under frame rfl
  cases frame with
  | unary u => exact ⟨h.below, ⟨h.conforms, hopen⟩, fun _ _ _ hb => nomatch hb⟩
  | binary left b =>
    obtain ⟨hstack, hleft, hspine, hunder⟩ := h.below
    exact ⟨hstack, ⟨hleft, h.conforms, hspine, hopen⟩, hunder⟩

theorem fill_tokens (frame : Frame α U B) (tree : Tree α U B) :
    (frame.fill tree).tokens table yield = frame.tokens table yield ++ tree.tokens table yield := by
  cases frame <;> simp [Frame.fill, Frame.tokens, Tree.tokens]

theorem Sits.reduceAll {stack : List (Frame α U B)} {tree : Tree α U B}
    (h : Sits table good stack tree) : (reduceAll stack tree).Conforms table good := by
  induction stack generalizing tree with
  | nil => exact h.conforms
  | cons frame stack ih => exact ih h.fill

theorem reduceAll_tokens (stack : List (Frame α U B)) (tree : Tree α U B) :
    (reduceAll stack tree).tokens table yield =
      stackTokens table yield stack ++ tree.tokens table yield := by
  induction stack generalizing tree with
  | nil => rfl
  | cons frame stack ih => rw [reduceAll, ih, fill_tokens, stackTokens, List.append_assoc]

/-- What is left pending is not reduced before `b`, and all that was reduced is. -/
theorem Sits.reduceWhile {b : B} {stack : List (Frame α U B)} {tree : Tree α U B}
    (h : Sits table good stack tree) (hspine : ∀ s ∈ tree.rightSpine, table.reduces s b = true) :
    StackConforms table good (.binary (reduceWhile table b stack tree).2 b ::
      (reduceWhile table b stack tree).1) := by
  induction stack generalizing tree with
  | nil => exact ⟨trivial, h.conforms, hspine, by simp [Under, Precedence.reduceWhile]⟩
  | cons frame stack ih =>
    cases hreduces : table.reduces frame.sign b with
    | true =>
      simp only [Precedence.reduceWhile, hreduces, if_true]
      refine ih h.fill fun s hs => ?_
      cases frame with
      | unary u =>
        obtain rfl | hs := List.mem_cons.mp hs
        · exact hreduces
        · exact hspine s hs
      | binary left b' =>
        obtain rfl | hs := List.mem_cons.mp hs
        · exact hreduces
        · exact hspine s hs
    | false =>
      simp only [Precedence.reduceWhile, hreduces, Bool.false_eq_true, if_false]
      refine ⟨h.below, h.conforms, hspine, fun other hother b' hb' => ?_⟩
      cases hother
      obtain rfl | hb' := List.mem_cons.mp hb'
      · exact hreduces
      · exact h.under frame rfl b' hb'

theorem reduceWhile_tokens (b : B) (stack : List (Frame α U B)) (tree : Tree α U B) :
    stackTokens table yield (reduceWhile table b stack tree).1 ++
        (reduceWhile table b stack tree).2.tokens table yield =
      stackTokens table yield stack ++ tree.tokens table yield := by
  induction stack generalizing tree with
  | nil => rfl
  | cons frame stack ih =>
    cases hreduces : table.reduces frame.sign b with
    | true =>
      simp only [Precedence.reduceWhile, hreduces, if_true]
      rw [ih, fill_tokens, stackTokens, List.append_assoc]
    | false => simp [Precedence.reduceWhile, hreduces]

/-- What the parser reads has its pending operators and the tokens it took, and conforms. -/
theorem shift_sound (hsound : ∀ input a rest, operand input = some (a, rest) →
      input = yield a ++ rest ∧ good a) {fuel : Nat} {stack : List (Frame α U B)}
    (hstack : StackConforms table good stack) {input : List τ} {tree : Tree α U B}
    {rest : List τ} (h : shift table operand fuel stack input = some (tree, rest)) :
    tree.Conforms table good ∧ rest.head?.bind table.binary? = none ∧
      tree.tokens table yield ++ rest = stackTokens table yield stack ++ input := by
  induction fuel generalizing stack input with
  | zero => cases h
  | succ fuel ih =>
    rw [shift] at h
    cases hunary : input.head?.bind table.unary? with
    | some u =>
      obtain ⟨t, tail, rfl, ht⟩ := eq_cons_of_head? hunary
      obtain rfl := (table.unary?_iff t u).mp ht
      simp only [hunary, List.tail_cons] at h
      have hstack' : StackConforms table good (.unary u :: stack) := hstack
      obtain ⟨htree, hend, htokens⟩ := ih hstack' h
      refine ⟨htree, hend, ?_⟩
      simp [htokens, stackTokens, Frame.tokens]
    | none =>
      simp only [hunary] at h
      cases hoperand : operand input with
      | none => simp only [hoperand] at h; cases h
      | some found =>
        obtain ⟨a, after⟩ := found
        obtain ⟨rfl, ha⟩ := hsound _ _ _ hoperand
        have hsits : Sits table good stack (.operand a) :=
          ⟨hstack, ha, fun _ _ _ hb => nomatch hb⟩
        simp only [hoperand, resume] at h
        cases hbinary : after.head?.bind table.binary? with
        | some b =>
          obtain ⟨t, tail, rfl, ht⟩ := eq_cons_of_head? hbinary
          obtain rfl := (table.binary?_iff t b).mp ht
          simp only [hbinary, List.tail_cons] at h
          obtain ⟨htree, hend, htokens⟩ := ih (hsits.reduceWhile fun _ hs => nomatch hs) h
          refine ⟨htree, hend, ?_⟩
          rw [htokens, stackTokens, Frame.tokens, ← List.append_assoc, reduceWhile_tokens]
          simp [Tree.tokens]
        | none =>
          simp only [hbinary] at h
          cases h
          refine ⟨hsits.reduceAll, hbinary, ?_⟩
          rw [reduceAll_tokens, List.append_assoc]
          rfl

theorem parse_sound (hsound : ∀ input a rest, operand input = some (a, rest) →
      input = yield a ++ rest ∧ good a) {input : List τ} {tree : Tree α U B} {rest : List τ}
    (h : parse table operand input = some (tree, rest)) :
    tree.Conforms table good ∧ rest.head?.bind table.binary? = none ∧
      input = tree.tokens table yield ++ rest := by
  have hstack : StackConforms table good ([] : List (Frame α U B)) := trivial
  obtain ⟨htree, hend, htokens⟩ := shift_sound hsound hstack h
  exact ⟨htree, hend, htokens.symm⟩

end Soundness

/-! ## No row is refused -/

section Acceptance

variable {table : Table τ U B} {operand : List τ → Option (α × List τ)} {yield : α → List τ}
  {stops : List τ → Prop}

/-- The operand parser reads something that has the tokens of the operand. -/
structure Accepts (table : Table τ U B) (operand : List τ → Option (α × List τ))
    (yield : α → List τ) (stops : List τ → Prop) (a : α) : Prop where
  accepted : ∀ rest, stops rest → ∃ a', operand (yield a ++ rest) = some (a', rest)
  starts : ∀ rest, (yield a ++ rest).head?.bind table.unary? = none

theorem shift_accepts (hbinary : ∀ b rest, stops (table.binaryToken b :: rest)) {tree : Tree α U B}
    (htree : tree.Forall (Accepts table operand yield stops)) (stack : List (Frame α U B))
    {rest : List τ} (hrest : stops rest) (n : Nat) :
    ∃ stack' tree', shift table operand (tree.shifts + n) stack
        (tree.tokens table yield ++ rest) =
      resume table (shift table operand n) stack' tree' rest := by
  induction tree generalizing stack rest n with
  | operand a =>
    obtain ⟨a', ha'⟩ := htree.accepted rest hrest
    refine ⟨stack, .operand a', ?_⟩
    rw [Tree.shifts, Nat.add_comm, shift]
    simp only [Tree.tokens, htree.starts rest, ha']
  | unary u tree ih =>
    obtain ⟨stack', tree', h⟩ := ih htree (.unary u :: stack) hrest n
    have hfuel : (Tree.unary u tree : Tree α U B).shifts + n = tree.shifts + n + 1 := by
      simp only [Tree.shifts]; omega
    refine ⟨stack', tree', ?_⟩
    rw [hfuel, shift]
    simp only [Tree.tokens, List.cons_append, List.head?_cons, Option.bind_some,
      Table.unary?_unaryToken, List.tail_cons]
    exact h
  | binary left b right ihl ihr =>
    obtain ⟨stack₁, tree₁, h₁⟩ := ihl htree.1 stack
      (hbinary b (right.tokens table yield ++ rest)) (right.shifts + n)
    obtain ⟨stack', tree', h₂⟩ := ihr htree.2
      (.binary (reduceWhile table b stack₁ tree₁).2 b :: (reduceWhile table b stack₁ tree₁).1)
      hrest n
    have hfuel : (Tree.binary left b right).shifts + n = left.shifts + (right.shifts + n) := by
      simp only [Tree.shifts]; omega
    refine ⟨stack', tree', ?_⟩
    rw [hfuel, Tree.tokens, List.append_assoc, List.cons_append, h₁]
    simp only [resume, List.head?_cons, Option.bind_some, Table.binary?_binaryToken,
      List.tail_cons]
    exact h₂

/-- Whatever tree a row comes from, the parser has one for it. -/
theorem parse_accepts (hbinary : ∀ b rest, stops (table.binaryToken b :: rest))
    (hne : ∀ a, Accepts table operand yield stops a → yield a ≠ []) {tree : Tree α U B}
    (htree : tree.Forall (Accepts table operand yield stops)) {rest : List τ} (hrest : stops rest)
    (hend : rest.head?.bind table.binary? = none) :
    ∃ tree', parse table operand (tree.tokens table yield ++ rest) = some (tree', rest) := by
  have hle : tree.shifts ≤ (tree.tokens table yield).length := shifts_le hne htree
  have hfuel : (tree.tokens table yield ++ rest).length + 1 =
      tree.shifts + ((tree.tokens table yield ++ rest).length + 1 - tree.shifts) := by
    rw [List.length_append]
    omega
  obtain ⟨stack', tree', h⟩ := shift_accepts hbinary htree [] hrest
    ((tree.tokens table yield ++ rest).length + 1 - tree.shifts)
  refine ⟨reduceAll stack' tree', ?_⟩
  rw [parse, hfuel, h]
  simp only [resume, hend]

end Acceptance

/-! ## Every row has a tree -/

section Symbols

/-- A row with its operands as they are. -/
inductive Sign (α U B : Type) where
  | operand (a : α)
  | unary (u : U)
  | binary (b : B)

namespace Sign

def unary? : Sign α U B → Option U
  | unary u => some u
  | _ => none

def binary? : Sign α U B → Option B
  | binary b => some b
  | _ => none

def tokens (table : Table τ U B) (yield : α → List τ) : Sign α U B → List τ
  | operand a => yield a
  | unary u => [table.unaryToken u]
  | binary b => [table.binaryToken b]

def takeOperand : List (Sign α U B) → Option (α × List (Sign α U B))
  | operand a :: rest => some (a, rest)
  | _ => none

/-- The operators as their own tokens, decided by the same table. -/
def table (table : Table τ U B) : Table (Sign α U B) U B where
  unaryToken := unary
  unary? := unary?
  unary?_iff t u := by cases t <;> simp [unary?]
  binaryToken := binary
  binary? := binary?
  binary?_iff t b := by cases t <;> simp [binary?]
  reduces := table.reduces

theorem conforms_table {table : Table τ U B} {good : α → Prop} {tree : Tree α U B} :
    tree.Conforms (Sign.table (α := α) table) good ↔ tree.Conforms table good := by
  induction tree with
  | operand a => rfl
  | unary u tree ih => exact and_congr ih Iff.rfl
  | binary left b right ihl ihr => exact and_congr ihl (and_congr ihr Iff.rfl)

theorem flatMap_tokens (table : Table τ U B) (yield : α → List τ) (tree : Tree α U B) :
    (tree.tokens (Sign.table table) fun a => [operand a]).flatMap (Sign.tokens table yield) =
      tree.tokens table yield := by
  induction tree with
  | operand a => exact List.append_nil _
  | unary u tree ih => simp [Tree.tokens, Sign.table, Sign.tokens, ← ih]
  | binary left b right ihl ihr => simp [Tree.tokens, Sign.table, Sign.tokens, ← ihl, ← ihr]

end Sign

/-- The row of a tree. -/
def Tree.signs (table : Table τ U B) (tree : Tree α U B) : List (Sign α U B) :=
  tree.tokens (Sign.table table) fun a => [.operand a]

theorem Tree.forall_iff_signs (table : Table τ U B) {good : α → Prop} {tree : Tree α U B} :
    tree.Forall good ↔ ∀ a, .operand a ∈ tree.signs table → good a := by
  unfold Tree.signs
  induction tree with
  | operand a => simp [Tree.Forall, Tree.tokens]
  | unary u tree ih => simp [Tree.Forall, Tree.tokens, ih, Sign.table]
  | binary left b right ihl ihr =>
    simp only [Tree.Forall, ihl, ihr, Tree.tokens, List.mem_append, List.mem_cons, Sign.table]
    constructor
    · rintro ⟨hl, hr⟩ a (ha | ha | ha)
      · exact hl a ha
      · cases ha
      · exact hr a ha
    · exact fun h => ⟨fun a ha => h a (.inl ha), fun a ha => h a (.inr (.inr ha))⟩

theorem parse_signs (table : Table τ U B) (tree : Tree α U B) :
    ∃ tree', parse (Sign.table table) Sign.takeOperand (tree.signs table) = some (tree', []) := by
  have haccepts : ∀ a : α, Accepts (Sign.table (U := U) (B := B) table) Sign.takeOperand
      (fun a => [.operand a]) (fun _ => True) a :=
    fun a => ⟨fun rest _ => ⟨a, rfl⟩, fun _ => rfl⟩
  have hforall : tree.Forall (Accepts (Sign.table table) Sign.takeOperand
      (fun a => [.operand a]) fun _ => True) :=
    (Tree.forall_iff_signs table).mpr fun a _ => haccepts a
  have hend : ([] : List (Sign α U B)).head?.bind (Sign.table table).binary? = none := rfl
  obtain ⟨tree', h⟩ := parse_accepts (fun _ _ => trivial) (fun _ _ => List.cons_ne_nil _ _)
    hforall trivial hend
  rw [List.append_nil] at h
  exact ⟨tree', h⟩

/-- Whatever tree a row comes from, one that conforms has the same tokens. -/
theorem exists_conforms (table : Table τ U B) (yield : α → List τ) {good : α → Prop}
    {tree : Tree α U B} (htree : tree.Forall good) :
    ∃ tree' : Tree α U B, tree'.Conforms table good ∧
      tree'.tokens table yield = tree.tokens table yield := by
  obtain ⟨tree', hparse⟩ := parse_signs table tree
  have hsound : ∀ (input : List (Sign α U B)) a rest, Sign.takeOperand input = some (a, rest) →
      input = [.operand a] ++ rest ∧ (fun _ => True) a := by
    intro input a rest h
    unfold Sign.takeOperand at h
    split at h
    · cases h
      exact ⟨rfl, trivial⟩
    · cases h
  obtain ⟨hconforms, -, hsigns⟩ := parse_sound hsound hparse
  rw [List.append_nil] at hsigns
  have hforall : tree'.Forall good := by
    rw [Tree.forall_iff_signs table] at htree ⊢
    unfold Tree.signs at htree ⊢
    rwa [← hsigns]
  refine ⟨tree', (Sign.conforms_table.mp hconforms).of_forall hforall, ?_⟩
  rw [← Sign.flatMap_tokens table yield tree, ← Sign.flatMap_tokens table yield tree', ← hsigns]
  rfl

end Symbols

end FalconLib.Base.Precedence
