import FalconLib.Base.Brackets
import FalconLib.Dsl.InstanceCache
import FalconLib.Dsl.SelfReference
import FalconLib.Parser.Spelling
import FalconLib.Parser.Trees

/-!
# Names of types

A type as written is a name with brackets. The parser keeps the name together with the types of the
arguments, equality looks at the name alone, and an instance of a generic struct is kept under its
name.
-/

namespace FalconLib.Parser.TypeNames

open FalconLib.Base (Brackets.AllWellNamed Brackets.IsWord Brackets.Name Brackets.Notation
  Brackets.WellNamed Brackets.intercalate_render Brackets.render Brackets.renderArgs
  Brackets.render_inj Comp)
open FalconLib.Dsl
open Lexer (isLetter isWord keywords)
open Spelling (IsIdentifier)
open TypeDescriptor (instanceName makeGenericStruct ofParamType)

/-! ## What the grammar lets through -/

/-- `qualified_name`. -/
inductive IsQualified : String → Prop
  | plain {name : String} (h : IsIdentifier name.toList) : IsQualified name
  | qualified {moduleName symbol : String} (hm : IsIdentifier moduleName.toList)
      (hs : IsIdentifier symbol.toList) : IsQualified (moduleName ++ "::" ++ symbol)

mutual

/-- The names are such as the lexer reads, and the primitive types those with a keyword. -/
def Derived : TypeSpec → Prop
  | .primitive type => type ∈ [.int, .float, .bool, .string]
  | .error => True
  | .generic _ name args => IsQualified name ∧ AllDerived args
  | .named _ name => IsQualified name

def AllDerived : List TypeSpec → Prop
  | [] => True
  | type :: types => Derived type ∧ AllDerived types

end

mutual

/-- The tree that a type is parsed to. -/
def descriptor : TypeSpec → TypeDescriptor
  | .primitive type => ofParamType type
  | .error => { baseType := .error, errorVariant := "Error" }
  | .generic _ name args => makeGenericStruct name (descriptors args)
  | .named _ name => TypeDescriptor.makeStruct name

def descriptors : List TypeSpec → List TypeDescriptor
  | [] => []
  | type :: types => descriptor type :: descriptors types

end

/-- The parser can produce the type. -/
def Produced (type : TypeDescriptor) : Prop :=
  ∃ spec s u, Derived spec ∧ (typeSpec spec s).outcome = .ok type u

theorem genericStruct_yields (span : Span) (name : String) (args : List TypeDescriptor) :
    Trees.Yields (genericStruct span name args) (· = makeGenericStruct name args) := by
  refine .after fun _ => .after fun tables => ?_
  by_cases hname : name ∈ tables.structKnownTypes
  · rw [if_pos hname]
    cases tables.structGenericParamsMap[name]? with
    | none => exact .pure rfl
    | some params =>
      dsimp only
      split_ifs
      · exact .pure rfl
      · exact .after fun _ => fun _ _ _ ho => nomatch ho
  · rw [if_neg hname]
    exact .after fun _ => fun _ _ _ ho => nomatch ho

theorem namedType_yields (span : Span) (name : String) :
    Trees.Yields (namedType span name) (· = TypeDescriptor.makeStruct name) := by
  refine .after fun _ => .after fun tables => ?_
  split_ifs
  · exact .pure rfl
  · exact .after fun _ => fun _ _ _ ho => nomatch ho

mutual

theorem typeSpec_yields : ∀ spec : TypeSpec,
    Trees.Yields (typeSpec spec) (· = descriptor spec)
  | .primitive _ => .pure rfl
  | .error => .pure rfl
  | .generic span name args => .bind (typeArgList_yields args) fun types htypes => by
    rw [htypes]
    exact genericStruct_yields span name _
  | .named span name => namedType_yields span name

theorem typeArgList_yields : ∀ specs : List TypeSpec,
    Trees.Yields (typeArgList specs) (· = descriptors specs)
  | [] => .pure rfl
  | spec :: specs => .bind (typeSpec_yields spec) fun type htype =>
    .bind (typeArgList_yields specs) fun types htypes => .pure (by
      rw [htype, htypes]
      rfl)

end

/-! ## Types as names with brackets -/

/-- `Box<int,float>`. -/
def angles : Brackets.Notation Char where
  opening := '<'
  separator := ','
  closing := '>'
  isLetter c := isWord c || c == ':'
  opening_mark := by decide
  separator_mark := by decide
  closing_mark := by decide
  opening_ne_separator := by decide
  opening_ne_closing := by decide
  separator_ne_closing := by decide

mutual

def written : TypeSpec → Brackets.Name Char
  | .primitive type => .word type.toString.toList
  | .error => .word "Error".toList
  | .generic _ name args => .applied name.toList (writtenArgs args)
  | .named _ name => .word name.toList

def writtenArgs : List TypeSpec → List (Brackets.Name Char)
  | [] => []
  | type :: types => written type :: writtenArgs types

end

/-- The types with a keyword, under it. -/
def keywordTypes : List (List Char × TypeDescriptor) :=
  [("int".toList, ofParamType .int), ("float".toList, ofParamType .float),
    ("bool".toList, ofParamType .bool), ("string".toList, ofParamType .string),
    ("Error".toList, { baseType := .error, errorVariant := "Error" })]

mutual

/-- The type that a name stands for. -/
def read : Brackets.Name Char → TypeDescriptor
  | .word letters => (keywordTypes.lookup letters).getD (TypeDescriptor.makeStruct (String.ofList letters))
  | .applied letters args => makeGenericStruct (String.ofList letters) (readArgs args)

def readArgs : List (Brackets.Name Char) → List TypeDescriptor
  | [] => []
  | name :: names => read name :: readArgs names

end

theorem isWord_of_isIdentifier {word : List Char} (h : IsIdentifier word) :
    Brackets.IsWord angles word where
  nonempty := by
    rintro rfl
    obtain ⟨c, hc, -⟩ := h.first
    cases hc
  letter c hc := Bool.or_eq_true_iff.mpr (.inl (h.chars c hc))

theorem isWord_of_isQualified {name : String} (h : IsQualified name) :
    Brackets.IsWord angles name.toList := by
  cases h with
  | plain h => exact isWord_of_isIdentifier h
  | @qualified moduleName symbol hm hs =>
    have hleft := isWord_of_isIdentifier hm
    have hright := isWord_of_isIdentifier hs
    rw [String.toList_append, String.toList_append]
    refine ⟨fun h => hleft.nonempty (List.append_eq_nil_iff.mp (List.append_eq_nil_iff.mp h).1).1,
      fun c hc => ?_⟩
    rcases List.mem_append.mp hc with hc | hc
    · rcases List.mem_append.mp hc with hc | hc
      · exact hleft.letter c hc
      · exact List.all_eq_true.mp (show "::".toList.all angles.isLetter = true by decide) c hc
    · exact hright.letter c hc

theorem keywordTypes_keywords :
    ∀ word ∈ keywordTypes.map Prod.fst, word ∈ keywords.map Prod.fst := by decide

theorem not_colon_of_keywordTypes : ∀ word ∈ keywordTypes.map Prod.fst, ':' ∉ word := by decide

/-- No keyword of a type is a qualified name. -/
theorem lookup_of_isQualified {name : String} (h : IsQualified name) :
    keywordTypes.lookup name.toList = none := by
  rw [List.lookup_eq_none_iff]
  intro entry hentry
  have hword : entry.1 ∈ keywordTypes.map Prod.fst := List.mem_map_of_mem hentry
  refine bne_iff_ne.mpr fun heq => ?_
  cases h with
  | plain h =>
    obtain ⟨keyword, hkeyword, hsame⟩ := List.mem_map.mp (keywordTypes_keywords _ hword)
    have hne := List.lookup_eq_none_iff.mp h.free keyword hkeyword
    exact bne_iff_ne.mp hne (heq.trans hsame.symm)
  | @qualified moduleName symbol hm hs =>
    refine not_colon_of_keywordTypes _ hword ?_
    rw [← heq, String.toList_append, String.toList_append]
    exact List.mem_append_left _ (List.mem_append_right _ List.mem_cons_self)

mutual

theorem wellNamed_written : ∀ spec : TypeSpec, Derived spec →
    Brackets.WellNamed angles (written spec)
  | .primitive type, h => by
    have hwords : ∀ type ∈ [ParamType.int, .float, .bool, .string],
        type.toString.toList ≠ [] ∧ type.toString.toList.all angles.isLetter = true := by decide
    obtain ⟨hne, hall⟩ := hwords type h
    exact ⟨hne, List.all_eq_true.mp hall⟩
  | .error, _ => ⟨by decide, List.all_eq_true.mp (by decide)⟩
  | .generic _ name args, h => ⟨isWord_of_isQualified h.1, wellNamed_writtenArgs args h.2⟩
  | .named _ name, h => isWord_of_isQualified h

theorem wellNamed_writtenArgs : ∀ specs : List TypeSpec, AllDerived specs →
    Brackets.AllWellNamed angles (writtenArgs specs)
  | [], _ => trivial
  | spec :: specs, h => ⟨wellNamed_written spec h.1, wellNamed_writtenArgs specs h.2⟩

end

mutual

theorem read_written : ∀ spec : TypeSpec, Derived spec → read (written spec) = descriptor spec
  | .primitive type, h => by
    obtain rfl | rfl | rfl | rfl : type = .int ∨ type = .float ∨ type = .bool ∨ type = .string := by
      simpa [Derived] using h
    all_goals rfl
  | .error, _ => rfl
  | .generic _ name args, h => by
    unfold written read descriptor
    rw [readArgs_written args h.2, String.ofList_toList]
  | .named _ name, h => by
    unfold written read descriptor
    rw [lookup_of_isQualified h, Option.getD_none, String.ofList_toList]

theorem readArgs_written : ∀ specs : List TypeSpec, AllDerived specs →
    readArgs (writtenArgs specs) = descriptors specs
  | [], _ => rfl
  | spec :: specs, h => by
    unfold writtenArgs readArgs descriptors
    rw [read_written spec h.1, readArgs_written specs h.2]

end

theorem toList_instanceName (name : String) {args : List TypeDescriptor}
    {names : List (Brackets.Name Char)}
    (h : (args.map fun arg => arg.toString.toList) = names.map (Brackets.render angles)) :
    (instanceName name args).toList = Brackets.render angles (.applied name.toList names) := by
  rw [SelfReference.toList_instanceName, SelfReference.toStrings_eq_map, List.map_map]
  change _ ++ '<' :: ([','].intercalate (args.map fun arg => arg.toString.toList) ++ ['>']) = _
  rw [h]
  exact congrArg (fun letters => name.toList ++ '<' :: (letters ++ ['>']))
    (Brackets.intercalate_render (n := angles) names)

mutual

theorem toString_descriptor : ∀ spec : TypeSpec, Derived spec →
    (descriptor spec).toString.toList = Brackets.render angles (written spec)
  | .primitive type, h => by
    obtain rfl | rfl | rfl | rfl : type = .int ∨ type = .float ∨ type = .bool ∨ type = .string := by
      simpa [Derived] using h
    all_goals rfl
  | .error, _ => rfl
  | .generic _ name args, h => by
    unfold descriptor written
    rw [SelfReference.toString_generic]
    exact toList_instanceName name (toStrings_descriptors args h.2)
  | .named _ name, _ => by
    unfold descriptor written
    rw [SelfReference.toString_named]
    rfl

theorem toStrings_descriptors : ∀ specs : List TypeSpec, AllDerived specs →
    ((descriptors specs).map fun type => type.toString.toList) =
      (writtenArgs specs).map (Brackets.render angles)
  | [], _ => rfl
  | spec :: specs, h => by
    unfold descriptors writtenArgs
    rw [List.map_cons, List.map_cons, toString_descriptor spec h.1,
      toStrings_descriptors specs h.2]

end

/-! ## Types that the parser produces -/

/-- The name with brackets that a type is written as. -/
structure WrittenAs (type : TypeDescriptor) (name : Brackets.Name Char) : Prop where
  wellNamed : Brackets.WellNamed angles name
  read_eq : read name = type
  toString_eq : type.toString.toList = Brackets.render angles name

theorem Produced.writtenAs {type : TypeDescriptor} (h : Produced type) :
    ∃ name, WrittenAs type name := by
  obtain ⟨spec, s, u, hspec, ho⟩ := h
  obtain rfl := typeSpec_yields spec s type u ho
  exact ⟨written spec, wellNamed_written spec hspec, read_written spec hspec,
    toString_descriptor spec hspec⟩

/-- The name of a type determines it, and with it the types of the arguments. -/
theorem toString_inj {type other : TypeDescriptor} (ht : Produced type) (ho : Produced other)
    (h : type.toString = other.toString) : type = other := by
  obtain ⟨name, hname⟩ := ht.writtenAs
  obtain ⟨name', hname'⟩ := ho.writtenAs
  have hsame : name = name' := by
    refine Brackets.render_inj hname.wellNamed hname'.wellNamed ?_
    rw [← hname.toString_eq, ← hname'.toString_eq, h]
  rw [← hname.read_eq, ← hname'.read_eq, hsame]

/-- A struct, or one of the types with a keyword. -/
theorem Produced.cases {type : TypeDescriptor} (h : Produced type) :
    (type.baseType = .struct ∧ type.toString = type.structName) ∨
      type ∈ keywordTypes.map Prod.snd := by
  obtain ⟨spec, s, u, hspec, ho⟩ := h
  obtain rfl := typeSpec_yields spec s type u ho
  cases spec with
  | primitive type =>
    obtain rfl | rfl | rfl | rfl : type = .int ∨ type = .float ∨ type = .bool ∨ type = .string := by
      simpa [Derived] using hspec
    · exact .inr (.head _)
    · exact .inr (.tail _ (.head _))
    · exact .inr (.tail _ (.tail _ (.head _)))
    · exact .inr (.tail _ (.tail _ (.tail _ (.head _))))
  | error => exact .inr (.tail _ (.tail _ (.tail _ (.tail _ (.head _)))))
  | generic span name args => exact .inl ⟨rfl, SelfReference.toString_generic name _⟩
  | named span name => exact .inl ⟨rfl, SelfReference.toString_named name⟩

theorem equals_of_struct {type : TypeDescriptor} (h : type.baseType = .struct)
    (other : TypeDescriptor) :
    type.equals other = (other.baseType == .struct && type.structName == other.structName) := by
  cases type
  cases h
  unfold TypeDescriptor.equals
  rw [Bool.beq_comm]

theorem equals_of_keyword {type : TypeDescriptor} (h : type ∈ keywordTypes.map Prod.snd)
    (other : TypeDescriptor) : type.equals other = (type.baseType == other.baseType) := by
  obtain rfl | rfl | rfl | rfl | rfl : type = ofParamType .int ∨ type = ofParamType .float ∨
      type = ofParamType .bool ∨ type = ofParamType .string ∨
      type = { baseType := .error, errorVariant := "Error" } := by
    simpa [keywordTypes] using h
  all_goals exact Bool.and_true _

/-- Of the types with a keyword, none is a struct and no two have one base. -/
theorem eq_of_keyword {type other : TypeDescriptor} (h : type ∈ keywordTypes.map Prod.snd)
    (ho : other.baseType = .struct ∨ other ∈ keywordTypes.map Prod.snd)
    (hbase : type.baseType = other.baseType) : type = other := by
  have hkeyword : ∀ x ∈ keywordTypes.map Prod.snd, x.baseType ≠ .struct ∧
      x = (if x.baseType = .error then { baseType := .error, errorVariant := "Error" }
        else ofParamType x.baseType) := by
    intro x hx
    obtain rfl | rfl | rfl | rfl | rfl : x = ofParamType .int ∨ x = ofParamType .float ∨
        x = ofParamType .bool ∨ x = ofParamType .string ∨
        x = { baseType := .error, errorVariant := "Error" } := by
      simpa [keywordTypes] using hx
    all_goals exact ⟨nofun, rfl⟩
  rcases ho with ho | ho
  · exact absurd (hbase.trans ho) (hkeyword type h).1
  · rw [(hkeyword type h).2, (hkeyword other ho).2, hbase]

theorem equals_iff {type other : TypeDescriptor} (ht : Produced type) (ho : Produced other) :
    type.equals other = true ↔ type = other := by
  rcases ht.cases with ⟨hstruct, hname⟩ | hkeyword
  · rw [equals_of_struct hstruct, Bool.and_eq_true, beq_iff_eq, beq_iff_eq]
    constructor
    · rintro ⟨hbase, hsame⟩
      rcases ho.cases with ⟨-, hname'⟩ | hkeyword
      · exact toString_inj ht ho (hname.trans (hsame.trans hname'.symm))
      · exact (eq_of_keyword hkeyword (.inl hstruct) (hbase.trans hstruct.symm)).symm
    · rintro rfl
      exact ⟨hstruct, rfl⟩
  · rw [equals_of_keyword hkeyword, beq_iff_eq]
    exact ⟨eq_of_keyword hkeyword (ho.cases.imp_left And.left), congrArg _⟩

/-! ## Instances of generic structs -/

/-- Where an instance is kept in the type registry. -/
def instanceKey (base : StructDecl) (args : List TypeDescriptor) : String :=
  instanceName base.name args

theorem exists_writtenArgs {args : List TypeDescriptor} (ha : ∀ arg ∈ args, Produced arg) :
    ∃ names, Brackets.AllWellNamed angles names ∧ readArgs names = args ∧
      (args.map fun arg => arg.toString.toList) = names.map (Brackets.render angles) := by
  induction args with
  | nil => exact ⟨[], trivial, rfl, rfl⟩
  | cons arg args ih =>
    obtain ⟨harg, hrest⟩ := List.forall_mem_cons.mp ha
    obtain ⟨name, hname⟩ := harg.writtenAs
    obtain ⟨names, hwell, hread, hstring⟩ := ih hrest
    refine ⟨name :: names, ⟨hname.wellNamed, hwell⟩, ?_, ?_⟩
    · rw [readArgs, hname.read_eq, hread]
    · rw [List.map_cons, List.map_cons, hname.toString_eq, hstring]

/-- The key determines the name of the declaration and the arguments. -/
theorem instanceKey_inj {base base' : StructDecl} {args args' : List TypeDescriptor}
    (hb : IsIdentifier base.name.toList) (hb' : IsIdentifier base'.name.toList)
    (ha : ∀ arg ∈ args, Produced arg) (ha' : ∀ arg ∈ args', Produced arg)
    (h : instanceKey base args = instanceKey base' args') :
    base.name = base'.name ∧ args = args' := by
  obtain ⟨names, hwell, hread, hstring⟩ := exists_writtenArgs ha
  obtain ⟨names', hwell', hread', hstring'⟩ := exists_writtenArgs ha'
  have hrender := congrArg String.toList h
  unfold instanceKey at hrender
  rw [toList_instanceName base.name hstring, toList_instanceName base'.name hstring'] at hrender
  have hn : Brackets.WellNamed angles (.applied base.name.toList names) :=
    ⟨isWord_of_isIdentifier hb, hwell⟩
  have hn' : Brackets.WellNamed angles (.applied base'.name.toList names') :=
    ⟨isWord_of_isIdentifier hb', hwell'⟩
  have hsame := Brackets.render_inj hn hn' hrender
  injection hsame with hname hnames
  exact ⟨String.toList_inj.mp hname, by rw [← hread, ← hread', hnames]⟩

/-- What is asked of the names of two types and the keys of two instances: types with one name are
one type, types that are equal are one type, and different instances have different keys. -/
structure NamedApart (type other : TypeDescriptor) (base base' : StructDecl)
    (args args' : List TypeDescriptor) : Prop where
  toString_iff : type.toString = other.toString ↔ type = other
  equals_iff : type.equals other = true ↔ type = other
  keys : (base, args) ≠ (base', args') → instanceKey base args ≠ instanceKey base' args'

theorem produced_int : Produced (ofParamType .int) :=
  ⟨.primitive .int, { tables := {}, filename := "" }, _, .head _, rfl⟩

theorem isIdentifier_box : IsIdentifier InstanceCache.box.name.toList where
  first := ⟨'B', rfl, rfl⟩
  chars := List.all_eq_true.mp (by decide)
  free := by decide

end FalconLib.Parser.TypeNames
