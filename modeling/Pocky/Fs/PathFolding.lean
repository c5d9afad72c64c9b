import Pocky.Fs.PathLaws

/-! Resolving a path is looking its components up one after another. -/

namespace Pocky

/-- A component of a path: not empty, without a slash, and fit for a path buffer. -/
structure PathComponent (name : Name) : Prop where
  /-- There is a byte in it. -/
  filled : name ≠ []
  /-- It is cut nowhere. -/
  whole : slash ∉ name
  /-- It leaves room for its zero byte. -/
  short : name.length < maxPath

/-- Names with a slash between any two of them. -/
def joinPath : List Name → Name
  | [] => []
  | [name] => name
  | name :: second :: rest => name ++ slash :: joinPath (second :: rest)

/-- A name in front of a slash is the first component. -/
theorem components_append_slash {name : Name} (whole : slash ∉ name) (rest : Name) :
    components (name ++ slash :: rest) = name :: components rest := by
  -- By induction on the name, none of whose bytes is a slash.
  induction name with
  | nil =>
    rw [List.nil_append, components]
    cases parts : components rest with
    | nil => exact absurd parts (components_ne_nil rest)
    | cons first others => simp
  | cons byte name ih =>
    obtain ⟨other, later⟩ := not_or.mp (mt List.mem_cons.mpr whole)
    rw [List.cons_append, components, ih later]
    exact if_neg fun same => other same.symm

/-- The components of joined names are these names. -/
theorem components_joinPath {names : List Name} (nonempty : names ≠ [])
    (plain : ∀ name ∈ names, PathComponent name) : components (joinPath names) = names := by
  -- By induction on the names.
  induction names with
  | nil => exact absurd rfl nonempty
  | cons name rest ih =>
    have first := plain name List.mem_cons_self
    cases rest with
    | nil => exact components_of_no_slash (FileSystem.cutLastSlash_of_notMem first.whole)
    | cons second rest =>
      rw [joinPath, components_append_slash first.whole,
        ih (List.cons_ne_nil _ _) fun other member => plain other (List.mem_cons_of_mem _ member)]

/-- Joining two lists of names puts a slash between the two paths. -/
theorem joinPath_append {left right : List Name} (nonempty : left ≠ []) (nonempty' : right ≠ []) :
    joinPath (left ++ right) = joinPath left ++ slash :: joinPath right := by
  -- By induction on the first list.
  induction left with
  | nil => exact absurd rfl nonempty
  | cons name rest ih =>
    cases rest with
    | nil =>
      obtain ⟨first, others, rfl⟩ := List.exists_cons_of_ne_nil nonempty'
      rfl
    | cons second rest =>
      have later := ih (List.cons_ne_nil _ _)
      calc joinPath (name :: second :: rest ++ right)
          = name ++ slash :: joinPath (second :: rest ++ right) := rfl
        _ = joinPath (name :: second :: rest) ++ slash :: joinPath right := by
          rw [later, joinPath, List.append_assoc, List.cons_append]

/-- Joined names do not begin with a slash. -/
theorem joinPath_cons_ne {names : List Name} (nonempty : names ≠ [])
    (plain : ∀ name ∈ names, PathComponent name) :
    ∃ byte rest, joinPath names = byte :: rest ∧ byte ≠ slash := by
  obtain ⟨name, others, rfl⟩ := List.exists_cons_of_ne_nil nonempty
  have first := plain name List.mem_cons_self
  obtain ⟨byte, rest, rfl⟩ := List.exists_cons_of_ne_nil first.filled
  have other : byte ≠ slash := fun same => first.whole (by simp [same])
  cases others with
  | nil => exact ⟨byte, rest, rfl, other⟩
  | cons second others => exact ⟨byte, _, rfl, other⟩

namespace FileSystem

variable (fs : FileSystem)

/-- One lookup, in the directory that the lookups before it have led to. -/
def lookupStep (place : Option Found) (name : Name) : Run (Option Found) :=
  match place with
  | none => .ok none
  | some found =>
    if isDirectory found.attributes then fs.findFileInDirectory found.cluster name else .ok none

/-- Looking names up one after another, from a directory on. -/
def lookUpEach (start : Nat) (names : List Name) : Run (Option Found) :=
  names.foldlM fs.lookupStep (some (.directory start))

/-- Every lookup but the last finds a directory, and the last one finds what is reported. -/
def Resolves (start : Nat) : List Name → Found → Prop
  | [], _ => False
  | [name], found => fs.findFileInDirectory start name = .ok (some found)
  | name :: second :: rest, found => ∃ middle, fs.findFileInDirectory start name = .ok (some middle) ∧
    isDirectory middle.attributes = true ∧ Resolves middle.cluster (second :: rest) found

/-- Where a path leads to that continues behind another one. -/
def continueFrom (rest : Name) (place : Option Found) : Run (Option Found) :=
  match place with
  | none => .ok none
  | some found =>
    if isDirectory found.attributes then fs.findFileFrom rest found.cluster else .ok none

/-- Nothing is found behind a name that is not. -/
theorem foldlM_lookupStep_none (names : List Name) :
    names.foldlM fs.lookupStep none = .ok none := by
  -- By induction on the names, each of which is not looked up.
  induction names with
  | nil => rfl
  | cons name rest ih => exact ih

/-- Resolving components is looking them up one after another. -/
theorem findComponents_eq_foldlM {names : List Name} (nonempty : names ≠ [])
    (plain : ∀ name ∈ names, PathComponent name) {place : Found}
    (kind : isDirectory place.attributes = true) :
    fs.findComponents place.cluster names = names.foldlM fs.lookupStep (some place) := by
  -- By induction on the names, from the directory that the first of them leads to.
  induction names generalizing place with
  | nil => exact absurd rfl nonempty
  | cons name rest ih =>
    have first := plain name List.mem_cons_self
    have step : fs.lookupStep (some place) name = fs.findFileInDirectory place.cluster name := by
      rw [lookupStep, if_pos kind]
    rw [List.foldlM_cons, step]
    cases rest with
    | nil =>
      rw [findComponents, if_neg first.filled]
      cases fs.findFileInDirectory place.cluster name with
      | error fault => rfl
      | ok answer => rfl
    | cons second rest =>
      have others : ∀ other ∈ second :: rest, PathComponent other :=
        fun other member => plain other (List.mem_cons_of_mem _ member)
      have further : second :: rest ≠ [[]] := by
        intro blank
        exact (others second List.mem_cons_self).filled (List.cons.inj blank).1
      have copied : copyPath name = .ok name := copyPath_eq_ok.mpr ⟨rfl, first.short⟩
      rw [findComponents, copied, Run.ok_bind]
      · cases fs.findFileInDirectory place.cluster name with
        | error fault => rfl
        | ok answer =>
          cases answer with
          | none => exact (fs.foldlM_lookupStep_none (second :: rest)).symm
          | some found =>
            simp only [Run.ok_bind, if_neg further]
            cases kind' : isDirectory found.attributes with
            | false =>
              simp only [Bool.not_false, if_true, List.foldlM_cons, lookupStep, kind',
                Bool.false_eq_true, if_false, Run.ok_bind]
              exact (fs.foldlM_lookupStep_none rest).symm
            | true =>
              simp only [Bool.not_true, Bool.false_eq_true, if_false]
              exact ih (List.cons_ne_nil _ _) others kind'
      · simp

/-- What looking names up one after another finds. -/
theorem foldlM_lookupStep_eq_some {names : List Name} (nonempty : names ≠ []) {place found : Found}
    (kind : isDirectory place.attributes = true) :
    names.foldlM fs.lookupStep (some place) = .ok (some found) ↔
      fs.Resolves place.cluster names found := by
  -- By induction on the names, from the directory that the first of them leads to.
  induction names generalizing place with
  | nil => exact absurd rfl nonempty
  | cons name rest ih =>
    have step : fs.lookupStep (some place) name = fs.findFileInDirectory place.cluster name := by
      rw [lookupStep, if_pos kind]
    rw [List.foldlM_cons, step]
    cases rest with
    | nil =>
      rw [Resolves]
      cases fs.findFileInDirectory place.cluster name with
      | error fault => rfl
      | ok answer => rfl
    | cons second rest =>
      rw [Resolves]
      constructor
      · intro looked
        obtain ⟨answer, here, later⟩ := Run.bind_eq_ok.mp looked
        cases answer with
        | none =>
          rw [fs.foldlM_lookupStep_none] at later
          cases later
        | some middle =>
          cases kind' : isDirectory middle.attributes with
          | false =>
            rw [List.foldlM_cons, lookupStep, kind'] at later
            simp only [Bool.false_eq_true, if_false, Run.ok_bind, fs.foldlM_lookupStep_none] at later
            cases later
          | true => exact ⟨middle, here, kind', (ih (List.cons_ne_nil _ _) kind').mp later⟩
      · rintro ⟨middle, here, kind', later⟩
        rw [here, Run.ok_bind]
        exact (ih (List.cons_ne_nil _ _) kind').mpr later

/-- The overload that starts from a given directory looks the names up from there. -/
theorem findFileFrom_joinPath {names : List Name} (nonempty : names ≠ [])
    (plain : ∀ name ∈ names, PathComponent name) (start : Nat) :
    fs.findFileFrom (joinPath names) start = fs.lookUpEach start names := by
  rw [findFileFrom, components_joinPath nonempty plain]
  exact fs.findComponents_eq_foldlM nonempty plain (Found.directory_isDirectory start)

/-- A path without a leading slash is resolved from the current directory. -/
theorem findFile_joinPath {names : List Name} (nonempty : names ≠ [])
    (plain : ∀ name ∈ names, PathComponent name) :
    fs.findFile (joinPath names) = fs.lookUpEach fs.currentDirectoryCluster names := by
  obtain ⟨byte, rest, shape, other⟩ := joinPath_cons_ne nonempty plain
  have start : fs.startOf (joinPath names) = (fs.currentDirectoryCluster, joinPath names) := by
    rw [shape, startOf]
    exact if_neg other
  rw [findFile, start]
  exact fs.findFileFrom_joinPath nonempty plain _

/-- A path with a leading slash is resolved from the root. -/
theorem findFile_slash_joinPath {names : List Name} (nonempty : names ≠ [])
    (plain : ∀ name ∈ names, PathComponent name) :
    fs.findFile (slash :: joinPath names) = fs.lookUpEach rootCluster names :=
  fs.findFileFrom_joinPath nonempty plain rootCluster

/-- Looking two lists of names up is looking up the second from where the first leads to. -/
theorem lookUpEach_append {left right : List Name} (nonempty : right ≠ [])
    (plain : ∀ name ∈ right, PathComponent name) (start : Nat) :
    fs.lookUpEach start (left ++ right) =
      fs.lookUpEach start left >>= fs.continueFrom (joinPath right) := by
  rw [lookUpEach, List.foldlM_append, ← lookUpEach]
  refine congrArg (fs.lookUpEach start left >>= ·) (funext fun place => ?_)
  cases place with
  | none => exact fs.foldlM_lookupStep_none right
  | some found =>
    cases kind : isDirectory found.attributes with
    | false =>
      obtain ⟨name, rest, rfl⟩ := List.exists_cons_of_ne_nil nonempty
      simp only [continueFrom, List.foldlM_cons, lookupStep, kind, Bool.false_eq_true, if_false,
        Run.ok_bind]
      exact fs.foldlM_lookupStep_none rest
    | true =>
      simp only [continueFrom, kind, if_true]
      rw [findFileFrom, components_joinPath nonempty plain,
        fs.findComponents_eq_foldlM nonempty plain kind]

/--
Resolving a path is looking its components up one after another.

It starts from the current directory, from the root or from a given one.
It succeeds exactly if every lookup but the last finds a directory and the last one finds something, and
that is what it reports.
A path in two parts is resolved by resolving the second from where the first leads to.
-/
theorem findFile_is_fold {names : List Name} (nonempty : names ≠ [])
    (plain : ∀ name ∈ names, PathComponent name) :
    fs.findFile (joinPath names) = fs.lookUpEach fs.currentDirectoryCluster names ∧
    fs.findFile (slash :: joinPath names) = fs.lookUpEach rootCluster names ∧
    (∀ start, fs.findFileFrom (joinPath names) start = fs.lookUpEach start names) ∧
    (∀ start found, fs.lookUpEach start names = .ok (some found) ↔ fs.Resolves start names found) ∧
    ∀ left right, names = left ++ right → left ≠ [] → right ≠ [] →
      joinPath names = joinPath left ++ slash :: joinPath right ∧
      fs.findFile (joinPath names) = fs.findFile (joinPath left) >>= fs.continueFrom (joinPath right) ∧
      fs.findFile (slash :: joinPath names) =
        fs.findFile (slash :: joinPath left) >>= fs.continueFrom (joinPath right) ∧
      ∀ start, fs.findFileFrom (joinPath names) start =
        fs.findFileFrom (joinPath left) start >>= fs.continueFrom (joinPath right) := by
  refine ⟨fs.findFile_joinPath nonempty plain, fs.findFile_slash_joinPath nonempty plain,
    fs.findFileFrom_joinPath nonempty plain, fun start found =>
      fs.foldlM_lookupStep_eq_some nonempty (Found.directory_isDirectory start), ?_⟩
  rintro left right rfl filled filled'
  have front : ∀ name ∈ left, PathComponent name :=
    fun name member => plain name (List.mem_append_left _ member)
  have back : ∀ name ∈ right, PathComponent name :=
    fun name member => plain name (List.mem_append_right _ member)
  refine ⟨joinPath_append filled filled', ?_, ?_, fun start => ?_⟩
  · rw [fs.findFile_joinPath nonempty plain, fs.findFile_joinPath filled front]
    exact fs.lookUpEach_append filled' back _
  · rw [fs.findFile_slash_joinPath nonempty plain, fs.findFile_slash_joinPath filled front]
    exact fs.lookUpEach_append filled' back _
  · rw [fs.findFileFrom_joinPath nonempty plain, fs.findFileFrom_joinPath filled front]
    exact fs.lookUpEach_append filled' back _

/-- A root directory with a directory d, in which there is a file x. -/
def nestedFile : Buffer :=
  withLink 2 endMark <| withLink 3 endMark <| withLink 4 endMark <|
    withEntry 2 0 [0x64] 0x10 3 <| withEntry 3 0 [0x78] 0x20 4 fun _ => 0

/-- The path d/x is looked up in two steps, and leads to the file. -/
theorem findFile_is_fold_nested :
    (smallVolume nestedFile 2).findFile (joinPath [[0x64], [0x78]]) =
      (smallVolume nestedFile 2).lookUpEach 2 [[0x64], [0x78]] ∧
    (smallVolume nestedFile 2).findFile [0x64, slash, 0x78] =
      .ok (some ⟨4, 0, 0x20, some (3, 0)⟩) := by
  have plain : ∀ name ∈ ([[0x64], [0x78]] : List Name), PathComponent name := by
    intro name member
    rcases List.mem_pair.mp member with rfl | rfl
    · exact ⟨by decide, by decide, by decide⟩
    · exact ⟨by decide, by decide, by decide⟩
  exact ⟨((smallVolume nestedFile 2).findFile_is_fold (by decide) plain).1, by decide +kernel⟩

end FileSystem

end Pocky
