import Mathlib.Data.List.SplitBy
import Mathlib.Tactic.Common

/-!
# File trees and paths

A tree of directories and files with symbolic links, and what `std::filesystem` says of a path:
whether it exists, and its canonical form, for a path that does not exist as well.
-/

namespace FalconLib.Base

/-- The names on the way from the root. -/
abbrev Location := List String

inductive NodeKind where
  | directory
  | file
deriving DecidableEq

/-- A name of an entry of a directory. -/
structure IsEntryName (name : String) : Prop where
  nonempty : name ≠ ""
  not_dot : name ≠ "."
  not_dot_dot : name ≠ ".."
  no_slash : '/' ∉ name.toList

instance (name : String) : Decidable (IsEntryName name) :=
  decidable_of_iff (name ≠ "" ∧ name ≠ "." ∧ name ≠ ".." ∧ '/' ∉ name.toList)
    ⟨fun h => ⟨h.1, h.2.1, h.2.2.1, h.2.2.2⟩,
      fun h => ⟨h.nonempty, h.not_dot, h.not_dot_dot, h.no_slash⟩⟩

/-- `link` says where the symbolic link at a location leads in the end. A link that leads nowhere
is not there. -/
structure FileTree where
  kind : Location → Option NodeKind
  link : Location → Option Location
  workingDirectory : Location
  root_directory : kind [] = some .directory
  parent_directory : ∀ location name, (kind (location ++ [name])).isSome →
    kind location = some .directory
  entry_names : ∀ location, (kind location).isSome → ∀ name ∈ location, IsEntryName name
  link_target : ∀ location target, link location = some target → (kind target).isSome
  working_directory : kind workingDirectory = some .directory

namespace FileTree

/-- The tree with these entries and no links, seen from its root. -/
def ofEntries (directories files : List Location) (root : [] ∈ directories)
    (closed : ∀ location ∈ directories ++ files, location.dropLast ∈ directories)
    (named : ∀ location ∈ directories ++ files, ∀ name ∈ location, IsEntryName name) :
    FileTree where
  kind location :=
    if location ∈ directories then some .directory
    else if location ∈ files then some .file
    else none
  link _ := none
  workingDirectory := []
  root_directory := if_pos root
  working_directory := if_pos root
  parent_directory := by
    intro location name h
    have hmem : location ++ [name] ∈ directories ++ files := by
      split_ifs at h
      · exact List.mem_append_left _ ‹_›
      · exact List.mem_append_right _ ‹_›
      · cases h
    have hparent := closed _ hmem
    rw [List.dropLast_concat] at hparent
    exact if_pos hparent
  entry_names := by
    intro location h
    split_ifs at h
    · exact named _ (List.mem_append_left _ ‹_›)
    · exact named _ (List.mem_append_right _ ‹_›)
    · cases h
  link_target := by
    intro location target h
    cases h

variable (tree : FileTree)

/-! ## Paths that exist -/

def components (path : String) : List String := (path.toList.splitOn '/').map String.ofList

def isAbsolute (path : String) : Bool := path.toList.head? == some '/'

def entry (location : Location) (name : String) : Option Location :=
  if (tree.kind (location ++ [name])).isSome then some (location ++ [name])
  else tree.link (location ++ [name])

/-- Only from a directory does the way go on. -/
def step (location : Location) (component : String) : Option Location :=
  if tree.kind location = some .directory then
    if component = "" ∨ component = "." then some location
    else if component = ".." then some location.dropLast
    else tree.entry location component
  else none

def walk : Location → List String → Option Location
  | location, [] => some location
  | location, component :: components =>
    (tree.step location component).bind fun next => walk next components

/-- Where a path begins. -/
def origin (path : String) : Location := if isAbsolute path then [] else tree.workingDirectory

/-- The empty path names nothing. -/
def locate (path : String) : Option Location :=
  if path = "" then none else tree.walk (tree.origin path) (components path)

def fileExists (path : String) : Bool := (tree.locate path).isSome

def isFile (path : String) : Bool :=
  (tree.locate path).any fun location => tree.kind location = some .file

/-! ## Canonical paths -/

def render (location : Location) : String := "/" ++ "/".intercalate location

/-- The location that the components lead to as far as they do, how many that are, and the
others. -/
def follow : Location → List String → Nat → Location × Nat × List String
  | location, [], count => (location, count, [])
  | location, component :: components, count =>
    match tree.step location component with
    | some next => follow next components (count + 1)
    | none => (location, count, component :: components)

/-- One component after the normal ones. -/
def normalStep (absolute : Bool) (stack : List String) (component : String) : List String :=
  if component = "" ∨ component = "." then stack
  else if component = ".." then
    match stack.getLast? with
    | none => if absolute then [] else [".."]
    | some last => if last = ".." then stack ++ [".."] else stack.dropLast
  else stack ++ [component]

/-- `lexically_normal`. -/
def normal (absolute : Bool) (components : List String) : String :=
  let stack := components.foldl (normalStep absolute) []
  let trailing := components.getLast?.any (· ∈ ["", ".", ".."]) &&
    stack.getLast?.any (· ≠ "..")
  let text := "/".intercalate stack ++ (if trailing then "/" else "")
  if absolute then "/" ++ text else if stack = [] then "." else text

/-- `weakly_canonical`: what exists of the path is made canonical, the others are appended. -/
def weaklyCanonical (path : String) : String :=
  match tree.locate path with
  | some location => render location
  | none =>
    let (location, count, rest) := tree.follow (tree.origin path) (components path) 0
    if count = 0 ∧ ¬isAbsolute path then normal false rest else normal true (location ++ rest)

variable {tree}

/-! ## Walks -/

theorem walk_cons (location : Location) (component : String) (components : List String) :
    tree.walk location (component :: components) =
      (tree.step location component).bind fun next => tree.walk next components := rfl

theorem step_of_not_directory {location : Location}
    (h : tree.kind location ≠ some .directory) (component : String) :
    tree.step location component = none := if_neg h

theorem walk_append (location : Location) (first second : List String) :
    tree.walk location (first ++ second) =
      (tree.walk location first).bind fun next => tree.walk next second := by
  induction first generalizing location with
  | nil => rfl
  | cons component first ih =>
    rw [List.cons_append, walk_cons, walk_cons]
    cases tree.step location component with
    | none => rfl
    | some next => exact ih next

theorem kind_entry {location target : Location} {name : String}
    (h : tree.entry location name = some target) : (tree.kind target).isSome := by
  unfold entry at h
  by_cases hkind : (tree.kind (location ++ [name])).isSome
  · rw [if_pos hkind] at h
    cases h
    exact hkind
  · rw [if_neg hkind] at h
    exact tree.link_target _ _ h

theorem kind_dropLast {location : Location} (h : tree.kind location = some .directory) :
    (tree.kind location.dropLast).isSome := by
  rcases List.eq_nil_or_concat location with rfl | ⟨parent, name, rfl⟩
  · exact Option.isSome_iff_exists.mpr ⟨_, h⟩
  · rw [List.concat_eq_append] at h ⊢
    rw [List.dropLast_concat]
    exact Option.isSome_iff_exists.mpr
      ⟨_, tree.parent_directory parent name (Option.isSome_iff_exists.mpr ⟨_, h⟩)⟩

theorem kind_step {location target : Location} {component : String}
    (h : tree.step location component = some target) : (tree.kind target).isSome := by
  unfold step at h
  by_cases hdir : tree.kind location = some .directory
  · rw [if_pos hdir] at h
    split_ifs at h
    · cases h
      exact Option.isSome_iff_exists.mpr ⟨_, hdir⟩
    · cases h
      exact kind_dropLast hdir
    · exact kind_entry h
  · rw [if_neg hdir] at h
    cases h

theorem kind_walk {location target : Location} {components : List String}
    (hl : (tree.kind location).isSome) (h : tree.walk location components = some target) :
    (tree.kind target).isSome := by
  induction components generalizing location with
  | nil =>
    cases h
    exact hl
  | cons component components ih =>
    obtain ⟨next, hstep, hrest⟩ := Option.bind_eq_some_iff.mp h
    exact ih (kind_step hstep) hrest

theorem kind_origin (path : String) : tree.kind (tree.origin path) = some .directory := by
  unfold origin
  split_ifs
  · exact tree.root_directory
  · exact tree.working_directory

/-- What a path leads to is there. -/
theorem kind_locate {path : String} {location : Location} (h : tree.locate path = some location) :
    (tree.kind location).isSome := by
  unfold locate at h
  split_ifs at h
  exact kind_walk (Option.isSome_iff_exists.mpr ⟨_, kind_origin path⟩) h

/-- The names on the way to a location lead there. -/
theorem walk_location {location : Location} (h : (tree.kind location).isSome) :
    tree.walk [] location = some location := by
  induction location using List.reverseRecOn with
  | nil => rfl
  | append_singleton parent name ih =>
    have hparent := tree.parent_directory parent name h
    have hname := tree.entry_names _ h name (List.mem_append_right _ List.mem_cons_self)
    rw [walk_append, ih (Option.isSome_iff_exists.mpr ⟨_, hparent⟩), Option.bind_some]
    rw [walk_cons]
    unfold step entry
    rw [if_pos hparent, if_neg (not_or.mpr ⟨hname.nonempty, hname.not_dot⟩),
      if_neg hname.not_dot_dot, if_pos h]
    rfl

/-- Another dot on the way changes nothing. -/
theorem walk_dot {location : Location} {before : List String} {component : String}
    {after : List String} (h : (tree.walk location (before ++ component :: after)).isSome) :
    tree.walk location (before ++ "." :: component :: after) =
      tree.walk location (before ++ component :: after) := by
  rw [walk_append] at h
  rw [walk_append, walk_append]
  cases hbefore : tree.walk location before with
  | none => rfl
  | some next =>
    rw [hbefore] at h
    have hdir : tree.kind next = some .directory := by
      by_contra hnot
      rw [Option.bind_some, walk_cons, step_of_not_directory hnot] at h
      cases h
    have hstep : tree.step next "." = some next := by
      unfold step
      rw [if_pos hdir]
      rfl
    change (tree.step next ".").bind (fun next => tree.walk next (component :: after)) = _
    rw [hstep, Option.bind_some]

/-! ## Strings of paths -/

theorem components_append_slash (first second : List Char) :
    components (String.ofList (first ++ '/' :: second)) =
      components (String.ofList first) ++ components (String.ofList second) := by
  unfold components
  rw [String.toList_ofList, String.toList_ofList, String.toList_ofList,
    List.splitOn_append_cons_self, List.map_append]

theorem exists_components (path : String) :
    ∃ component rest, components path = component :: rest := by
  unfold components
  cases h : path.toList.splitOn '/' with
  | nil => exact absurd h (List.splitOn_ne_nil _ _)
  | cons component rest => exact ⟨_, _, rfl⟩

theorem components_intercalate {location : Location}
    (h : ∀ name ∈ location, IsEntryName name) (hne : location ≠ []) :
    components ("/".intercalate location) = location := by
  unfold components
  rw [String.toList_intercalate]
  change List.map String.ofList ((['/'].intercalate (location.map String.toList)).splitOn '/') = _
  rw [List.splitOn_intercalate, List.map_map]
  · exact List.map_id'' (fun name => String.ofList_toList) location
  · intro letters hletters
    obtain ⟨name, hname, rfl⟩ := List.mem_map.mp hletters
    exact (h name hname).no_slash
  · exact mt List.map_eq_nil_iff.mp hne

theorem render_eq (location : Location) :
    render location = String.ofList ([] ++ '/' :: ("/".intercalate location).toList) := by
  unfold render
  rw [← String.toList_inj, String.toList_append, String.toList_ofList, String.toList_ofList]
  rfl

theorem render_ne_empty (location : Location) : render location ≠ "" := by
  intro h
  rw [render_eq, ← String.toList_inj, String.toList_ofList] at h
  cases h

/-- The canonical path of a location leads to it. -/
theorem locate_render {location : Location} (h : (tree.kind location).isSome) :
    tree.locate (render location) = some location := by
  have hroot : ∀ rest, tree.walk [] ("" :: rest) = tree.walk [] rest := by
    intro rest
    have hstep : tree.step [] "" = some [] := by
      unfold step
      rw [if_pos tree.root_directory]
      rfl
    rw [walk_cons, hstep, Option.bind_some]
  have hcomponents : components (render location) =
      "" :: components ("/".intercalate location) := by
    rw [render_eq, components_append_slash, String.ofList_toList]
    rfl
  have horigin : tree.origin (render location) = [] := by
    unfold origin isAbsolute
    rw [render_eq, String.toList_ofList]
    rfl
  unfold locate
  rw [if_neg (render_ne_empty location), horigin, hcomponents, hroot]
  by_cases hnil : location = []
  · rw [hnil]
    exact hroot []
  · rw [components_intercalate (tree.entry_names location h) hnil]
    exact walk_location h

theorem weaklyCanonical_of_locate {path : String} {location : Location}
    (h : tree.locate path = some location) : tree.weaklyCanonical path = render location := by
  unfold weaklyCanonical
  rw [h]

/-- Paths that lead to one location have one canonical path. -/
theorem weaklyCanonical_congr {path other : String} (h : tree.locate path = tree.locate other)
    (he : tree.fileExists path = true) :
    tree.weaklyCanonical path = tree.weaklyCanonical other := by
  obtain ⟨location, hl⟩ := Option.isSome_iff_exists.mp he
  rw [weaklyCanonical_of_locate hl, weaklyCanonical_of_locate (h.symm.trans hl)]

theorem locate_weaklyCanonical {path : String} (h : tree.fileExists path = true) :
    tree.locate (tree.weaklyCanonical path) = tree.locate path := by
  obtain ⟨location, hl⟩ := Option.isSome_iff_exists.mp h
  rw [weaklyCanonical_of_locate hl, locate_render (kind_locate hl), hl]

theorem isFile_weaklyCanonical {path : String} (h : tree.fileExists path = true) :
    tree.isFile (tree.weaklyCanonical path) = tree.isFile path := by
  unfold isFile
  rw [locate_weaklyCanonical h]

theorem fileExists_of_isFile {path : String} (h : tree.isFile path = true) :
    tree.fileExists path = true := by
  unfold isFile at h
  unfold fileExists
  cases hl : tree.locate path with
  | none =>
    rw [hl] at h
    cases h
  | some location => rfl

/-- A directory that a relative path is put behind: nothing, or a text that ends in a slash. -/
def IsStem (text : String) : Prop := text = "" ∨ ∃ letters, text.toList = letters ++ ['/']

/-- `./` before a relative path leads to the same place. -/
theorem locate_dot {text path : String} (ht : IsStem text) (hp : isAbsolute path = false)
    (he : tree.fileExists (text ++ path) = true) :
    tree.locate (text ++ ("./" ++ path)) = tree.locate (text ++ path) := by
  obtain ⟨component, rest, hcomponents⟩ := exists_components path
  have hdot : components ("./" ++ path) = "." :: component :: rest := by
    have htext : "./" ++ path = String.ofList (['.'] ++ '/' :: path.toList) := by
      rw [← String.toList_inj, String.toList_append, String.toList_ofList, String.toList_ofList]
      rfl
    rw [htext, components_append_slash, String.ofList_toList, hcomponents]
    rfl
  have hne : text ++ path ≠ "" := by
    intro hempty
    unfold fileExists locate at he
    rw [if_pos hempty] at he
    cases he
  have hne' : text ++ ("./" ++ path) ≠ "" := by
    intro hempty
    have hlist := congrArg String.toList hempty
    rw [String.toList_append, String.toList_append] at hlist
    exact absurd (List.append_eq_nil_iff.mp hlist).2 (List.cons_ne_nil _ _)
  have hcase : ∃ before, components (text ++ path) = before ++ component :: rest ∧
      components (text ++ ("./" ++ path)) = before ++ "." :: component :: rest ∧
      tree.origin (text ++ ("./" ++ path)) = tree.origin (text ++ path) := by
    rcases ht with rfl | ⟨letters, hletters⟩
    · refine ⟨[], ?_, ?_, ?_⟩
      · rw [String.empty_append, hcomponents]
        rfl
      · rw [String.empty_append, hdot]
        rfl
      · have hrelative : isAbsolute ("./" ++ path) = false := by
          unfold isAbsolute
          rw [String.toList_append]
          rfl
        rw [String.empty_append, String.empty_append]
        unfold origin
        rw [hp, hrelative]
    · have hjoin : ∀ other : String, text ++ other =
          String.ofList (letters ++ '/' :: other.toList) := by
        intro other
        rw [← String.toList_inj, String.toList_append, String.toList_ofList, hletters,
          List.append_assoc]
        rfl
      refine ⟨components (String.ofList letters), ?_, ?_, ?_⟩
      · rw [hjoin, components_append_slash, String.ofList_toList, hcomponents]
      · rw [hjoin, components_append_slash, String.ofList_toList, hdot]
      · unfold origin isAbsolute
        rw [hjoin, hjoin, String.toList_ofList, String.toList_ofList]
        cases letters with
        | nil => rfl
        | cons c letters => rfl
  obtain ⟨before, hbefore, hbefore', horigin⟩ := hcase
  unfold fileExists locate at he
  rw [if_neg hne, hbefore] at he
  unfold locate
  rw [if_neg hne, if_neg hne', horigin, hbefore, hbefore', walk_dot he]

end FileTree

end FalconLib.Base
