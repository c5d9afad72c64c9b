import Pocky.Fs.PrunedTree
import Pocky.Fs.RecursiveDelete

/-! What the calls do that a recursive deletion makes for the entries of a directory. -/

namespace Pocky

/-- An entry that the scan of a sector comes to; dot entries are not counted. -/
structure Visible (data : Buffer) (slot : Nat) : Prop where
  /-- No unused slot comes before it. -/
  used : ∀ earlier ≤ slot, data (slotSize * earlier) ≠ 0x00
  /-- It has not been deleted. -/
  live : freeByte (data (slotSize * slot)) = false
  /-- It is not part of a long name. -/
  short : entryAttributes data (slotSize * slot) ≠ 0x0F
  /-- It does not lead to the directory itself, -/
  notDot : entryName data (slotSize * slot) ≠ dot
  /-- and not to its parent. -/
  notDotDot : entryName data (slotSize * slot) ≠ dotDot

namespace FileSystem

section Clear

variable {delete : FileSystem → Name → UInt8 → Run FileSystem} (invariant : FileSystem → Prop)

/-- What is kept by each call is kept by the scan of a sector. -/
theorem clearSlots_preserves (handled : Nat → Prop) {data : Buffer}
    (step : ∀ slot < 16, Visible data slot → ∀ fs after, invariant fs →
      delete fs (entryName data (slotSize * slot)) (entryAttributes data (slotSize * slot)) =
        .ok after → invariant after ∧ handled slot)
    {remaining first : Nat} {fs after : FileSystem} (end' : first + remaining ≤ 16)
    (used : ∀ earlier < first, data (slotSize * earlier) ≠ 0x00) (holds : invariant fs)
    (returned : clearSlots delete data remaining (slotSize * first) fs = .ok after) :
    invariant after ∧ ∀ slot, first ≤ slot → slot < first + remaining → Visible data slot →
      handled slot := by
  -- By induction on the slots that are left.
  induction remaining generalizing first fs with
  | zero =>
    cases returned
    exact ⟨holds, fun slot low high => absurd high (by omega)⟩
  | succ remaining ih =>
    rw [clearSlots] at returned
    have next : slotSize * first + slotSize = slotSize * (first + 1) := rfl
    -- Unless the scan ends here, it goes on at the next slot.
    have further : ∀ middle, data (slotSize * first) ≠ 0x00 → invariant middle →
        clearSlots delete data remaining (slotSize * first + slotSize) middle = .ok after →
        (Visible data first → handled first) → invariant after ∧
          ∀ slot, first ≤ slot → slot < first + (remaining + 1) → Visible data slot →
            handled slot := by
      intro middle filled holds rest here
      rw [next] at rest
      obtain ⟨kept, later⟩ := ih (by omega) (fun earlier below => by
        rcases Nat.lt_succ_iff_lt_or_eq.mp below with before | rfl
        · exact used earlier before
        · exact filled) holds rest
      refine ⟨kept, fun slot low high visible => ?_⟩
      rcases Nat.eq_or_lt_of_le low with rfl | above
      · exact here visible
      · exact later slot above (by omega) visible
    split at returned
    · rename_i unused
      cases returned
      exact ⟨holds, fun slot low _ visible => absurd unused (visible.used first low)⟩
    · rename_i filled
      split at returned
      · rename_i deleted
        refine further fs filled holds returned fun visible => ?_
        have live := visible.live
        rw [deleted] at live
        cases live
      · rename_i kept
        split at returned
        · rename_i long
          exact further fs filled holds returned fun visible => absurd long visible.short
        · rename_i short
          split at returned
          · rename_i dots
            refine further fs filled holds returned fun visible => ?_
            exact absurd dots (not_or.mpr ⟨visible.notDot, visible.notDotDot⟩)
          · rename_i proper
            obtain ⟨one, two⟩ := not_or.mp proper
            obtain ⟨middle, called, rest⟩ := Run.bind_eq_ok.mp returned
            have visible : Visible data first := by
              refine ⟨fun earlier below => ?_, by simp [freeByte, filled, kept], short, one, two⟩
              rcases Nat.eq_or_lt_of_le below with rfl | before
              · exact filled
              · exact used earlier before
            obtain ⟨holds', handled'⟩ := step first (by omega) visible fs middle holds called
            exact further middle filled holds' rest fun _ => handled'

/-- What is kept by each call is kept by the scan of a directory. -/
theorem clearChain_preserves
    (step : ∀ data slot, Visible data slot → ∀ fs after, invariant fs →
      delete fs (entryName data (slotSize * slot)) (entryAttributes data (slotSize * slot)) =
        .ok after → invariant after)
    (sector512 : ∀ fs, invariant fs → fs.bpb.bytesPerSector = 512)
    {steps cluster : Nat} {fs after : FileSystem} {told : Bool} (holds : invariant fs)
    (returned : clearChain delete steps cluster fs = .ok (told, after)) : invariant after := by
  -- By induction on the clusters, and in each of them on the sectors.
  have sectors : ∀ {remaining sector index : Nat} {fs after : FileSystem} {told : Bool},
      invariant fs → clearSectors delete sector remaining index fs = .ok (told, after) →
      invariant after := by
    intro remaining sector index fs after told holds returned
    induction remaining generalizing index fs with
    | zero =>
      cases returned
      exact holds
    | succ remaining ih =>
      rw [clearSectors] at returned
      split at returned
      · cases returned
        exact holds
      · rename_i data read
        obtain ⟨middle, scanned, rest⟩ := Run.bind_eq_ok.mp returned
        rw [slotsPerSector_eq (sector512 fs holds)] at scanned
        have start : clearSlots delete data 16 (slotSize * 0) fs = .ok middle := scanned
        refine ih (clearSlots_preserves invariant (fun _ => True) ?_ (Nat.le_refl 16) (by simp) holds start).1 rest
        exact fun slot _ visible fs after holds called =>
          ⟨step data slot visible fs after holds called, trivial⟩
  induction steps generalizing cluster fs with
  | zero => cases returned
  | succ steps ih =>
    rw [clearChain] at returned
    obtain ⟨⟨cleared, middle⟩, scanned, rest⟩ := Run.bind_eq_ok.mp returned
    have holds' := sectors holds scanned
    dsimp only at rest
    cases cleared with
    | false =>
      cases rest
      exact holds'
    | true =>
      simp only [Bool.not_true, Bool.false_eq_true, if_false] at rest
      split at rest
      · cases rest
        exact holds'
      · split at rest
        · cases rest
          exact holds'
        · exact ih holds' rest

section Still

variable {fs : FileSystem} {handled : UInt8 → Prop} {sectors : List Nat}

/-- A call for an entry of these sectors that returns changes nothing. -/
def CallsStill (fs : FileSystem) (delete : FileSystem → Name → UInt8 → Run FileSystem)
    (handled : UInt8 → Prop) (sectors : List Nat) : Prop :=
  ∀ sector ∈ sectors, ∀ slot < 16, Visible (fs.block sector) slot → ∀ after,
    delete fs (entryName (fs.block sector) (slotSize * slot))
      (entryAttributes (fs.block sector) (slotSize * slot)) = .ok after →
    after = fs ∧ handled (entryAttributes (fs.block sector) (slotSize * slot))

/-- Every entry of these sectors has been handed on. -/
def AllHandled (fs : FileSystem) (handled : UInt8 → Prop) (sectors : List Nat) : Prop :=
  ∀ sector ∈ sectors, ∀ slot < 16, Visible (fs.block sector) slot →
    handled (entryAttributes (fs.block sector) (slotSize * slot))

/-- If no call changes anything, the scan of a cluster comes to all of its entries. -/
theorem clearSectors_still (layout : fs.Layout) (reliable : fs.Reliable) {sector remaining : Nat}
    {index : Nat} (step : fs.CallsStill delete handled
      ((List.range' index remaining).map fun i => (sector + i) % 2 ^ 32))
    {after : FileSystem} {told : Bool}
    (returned : clearSectors delete sector remaining index fs = .ok (told, after)) :
    told = true ∧ after = fs ∧
      fs.AllHandled handled ((List.range' index remaining).map fun i => (sector + i) % 2 ^ 32) := by
  -- By induction on the sectors that are left.
  induction remaining generalizing index with
  | zero =>
    cases returned
    exact ⟨rfl, rfl, by simp [AllHandled]⟩
  | succ remaining ih =>
    rw [List.range'_succ, List.map_cons] at step ⊢
    rw [clearSectors, readSector_eq layout.sector reliable] at returned
    obtain ⟨middle, scanned, rest⟩ := Run.bind_eq_ok.mp returned
    rw [slotsPerSector_eq layout.sector] at scanned
    have start : clearSlots delete (fs.block ((sector + index) % 2 ^ 32)) 16 (slotSize * 0) fs =
      .ok middle := scanned
    -- The sector has been read before any call, and no call changes the state.
    have stays : ∀ slot < 16, Visible (fs.block ((sector + index) % 2 ^ 32)) slot →
        ∀ state after, (state = fs) → delete state
          (entryName (fs.block ((sector + index) % 2 ^ 32)) (slotSize * slot))
          (entryAttributes (fs.block ((sector + index) % 2 ^ 32)) (slotSize * slot)) = .ok after →
        (after = fs) ∧
          handled (entryAttributes (fs.block ((sector + index) % 2 ^ 32)) (slotSize * slot)) := by
      rintro slot small visible state after rfl called
      exact step _ List.mem_cons_self slot small visible after called
    obtain ⟨rfl, here⟩ := clearSlots_preserves (fun state => state = fs) _ stays (Nat.le_refl 16) (by simp) rfl start
    obtain ⟨told', same, later⟩ :=
      ih (fun other member => step other (List.mem_cons_of_mem _ member)) rest
    refine ⟨told', same, ?_⟩
    rw [AllHandled, List.forall_mem_cons]
    exact ⟨fun slot small => here slot (Nat.zero_le _) (by omega), later⟩

/-- If no call changes anything, the scan of a directory comes to all of its entries. -/
theorem clearChain_still (layout : fs.Layout) (reliable : fs.Reliable) {start steps : Nat}
    {clusters : List Nat} (linked : Linked fs.fatEntry (endMark ≤ ·) clusters)
    (head : clusters.head? = some start) (valid : ∀ cluster ∈ clusters, fs.InVolume cluster)
    (step : fs.CallsStill delete handled (fs.directorySectors clusters))
    {after : FileSystem} {told : Bool}
    (returned : clearChain delete steps start fs = .ok (told, after)) :
    told = true ∧ after = fs ∧ fs.AllHandled handled (fs.directorySectors clusters) := by
  -- By induction along the chain.
  induction clusters generalizing start steps with
  | nil => exact linked.elim
  | cons cluster rest ih =>
    obtain rfl : cluster = start := Option.some.inj head
    rw [directorySectors_cons] at step ⊢
    cases steps with
    | zero => cases returned
    | succ steps =>
      rw [clearChain] at returned
      obtain ⟨⟨cleared, middle⟩, scanned, further⟩ := Run.bind_eq_ok.mp returned
      obtain ⟨rfl, rfl, here⟩ := clearSectors_still layout reliable
        (fun sector member => step sector (List.mem_append_left _ member)) scanned
      dsimp only at further
      simp only [Bool.not_true, Bool.false_eq_true, if_false] at further
      rw [readFatEntry_eq layout.sector reliable] at further
      cases rest with
      | nil =>
        have last : endMark ≤ middle.fatEntry cluster := linked
        rw [if_pos last] at further
        cases further
        refine ⟨rfl, rfl, fun sector member => ?_⟩
        rw [directorySectors, List.flatMap_nil, List.append_nil] at member
        exact here sector member
      | cons second rest =>
        have link : middle.fatEntry cluster = second := linked.1
        obtain ⟨small, inner⟩ := layout.not_mark (valid second (by simp))
        rw [link, if_neg inner, if_neg (Nat.ne_of_lt small)] at further
        obtain ⟨told', same, later⟩ := ih linked.2 rfl
          (fun other member => valid other (List.mem_cons_of_mem _ member))
          (fun sector member => step sector (List.mem_append_right _ member)) further
        refine ⟨told', same, fun sector member => ?_⟩
        rcases List.mem_append.mp member with first | others
        · exact here sector first
        · exact later sector others

end Still

end Clear

/-- The name that both components of the nested paths have. -/
def placeholder : Name := [0x25, 0x73]

/-- What the path of the nested calls leads to, and the directory that has it. -/
structure Nested (fs : FileSystem) (directory : Nat) (found : Found) : Prop where
  /-- The current directory has a directory of this name, -/
  above : ∃ entry, fs.findFileInDirectory fs.currentDirectoryCluster placeholder = .ok (some entry) ∧
    isDirectory entry.attributes = true ∧ entry.cluster = directory
  /-- and that one has a file or directory of the same name. -/
  found : fs.findFileInDirectory directory placeholder = .ok (some found)

/-- The nested path starts at the current directory. -/
theorem startOf_slashFormat (fs : FileSystem) :
    fs.startOf slashFormat = (fs.currentDirectoryCluster, slashFormat) := rfl

/-- The components of the nested path. -/
theorem components_slashFormat : components slashFormat = [placeholder, placeholder] := by decide

/-- The two parts of the nested path. -/
theorem cutLastSlash_slashFormat : cutLastSlash slashFormat = some (placeholder, placeholder) := by
  decide

/-- A lookup of the first part of the nested path. -/
theorem findFile_placeholder (fs : FileSystem) :
    fs.findFile placeholder = fs.findFileInDirectory fs.currentDirectoryCluster placeholder := by
  have start : fs.startOf placeholder = (fs.currentDirectoryCluster, placeholder) := rfl
  have parts : components placeholder = [placeholder] := by decide
  rw [findFile, start]
  dsimp only
  rw [parts, findComponents, if_neg (by decide)]

/-- Where a lookup of the nested path leads. -/
theorem nested_of_findFile {fs : FileSystem} {found : Found}
    (resolved : fs.findFile slashFormat = .ok (some found)) :
    ∃ directory, fs.Nested directory found := by
  rw [findFile, startOf_slashFormat] at resolved
  dsimp only at resolved
  rw [components_slashFormat] at resolved
  obtain ⟨entry, looked, kind, ⟨blank, -⟩ | further⟩ := findComponents_cons resolved
  · cases blank
  · rw [findComponents, if_neg (by decide)] at further
    exact ⟨entry.cluster, ⟨entry, looked, kind, rfl⟩, further⟩

/-- The directory that the nested calls change. -/
theorem Nested.parentOf {fs : FileSystem} {directory : Nat} {found : Found}
    (nested : fs.Nested directory found) :
    fs.parentOf slashFormat = .ok (some (directory, placeholder)) := by
  obtain ⟨entry, looked, kind, rfl⟩ := nested.above
  have copied : copyPath placeholder = .ok placeholder := rfl
  rw [FileSystem.parentOf, startOf_slashFormat]
  dsimp only
  rw [cutLastSlash_slashFormat]
  dsimp only
  rw [copied, Run.ok_bind, findFile_placeholder, looked, Run.ok_bind]
  dsimp only
  rw [kind]
  rfl

/-- A directory of which no lookup leads to another one, dot names aside. -/
def Leaf (fs : FileSystem) (directory : Nat) : Prop :=
  ∀ name entry, fs.findFileInDirectory directory name = .ok (some entry) →
    isDirectory entry.attributes = true → name = dot ∨ name = dotDot

/-- A nested call has deleted what its path leads to. -/
structure Uproots (fs after : FileSystem) (directory : Nat) (found : Found)
    (clusters : List Nat) : Prop where
  /-- The path leads there. -/
  nested : fs.Nested directory found
  /-- This is the chain of what has been deleted. -/
  links : fs.Links found.cluster clusters
  /-- It has been freed, and its entry marked. -/
  prunes : fs.Prunes after directory placeholder clusters
  /-- A directory is deleted only if it has no other directory. -/
  leaf : isDirectory found.attributes = true → fs.Leaf found.cluster

/-- What a nested call can do. -/
def NestedStep (fs after : FileSystem) : Prop :=
  after = fs ∨ ∃ directory found clusters, fs.Uproots after directory found clusters

section Calls

variable {fs : FileSystem}

/-- Where the nested path leads, if it leads anywhere. -/
theorem Nested.laws {directory : Nat} {found : Found} (nested : fs.Nested directory found) (hierarchy : fs.Hierarchy)
    (layout : fs.Layout) (reliable : fs.Reliable) :
    ∃ depth place, fs.DirectoryAt fs.currentDirectoryCluster depth ∧
      fs.DirectoryAt directory (depth + 1) ∧
      found.slot = some (place.1, slotSize * place.2) ∧
      fs.Entry ⟨directory, true⟩ place ⟨found.cluster, isDirectory found.attributes⟩ := by
  obtain ⟨depth, current⟩ := hierarchy.current
  obtain ⟨entry, looked, kind, rfl⟩ := nested.above
  have inside := hierarchy.tree.lookup_directory layout reliable current looked kind
  have proper : stepDepth depth placeholder = depth + 1 := rfl
  rw [proper] at inside
  obtain ⟨place, slot, at', -, live, named, cluster, told⟩ :=
    hierarchy.tree.lookup layout reliable inside nested.found
  refine ⟨depth, place, current, inside, at', rfl, slot, ?_⟩
  rw [cluster, told]
  refine (fs.slotHead_eq place).mpr ⟨live, ?_, ?_⟩
  · rw [named]
    decide
  · rw [named]
    decide

/-- The nested call for an entry of a file. -/
theorem deleteFile_nested (hierarchy : fs.Hierarchy) (layout : fs.Layout) (reliable : fs.Reliable)
    {told : Bool} {after : FileSystem} (returned : fs.deleteFile slashFormat = .ok (told, after)) :
    fs.NestedStep after := by
  rw [deleteFile] at returned
  obtain ⟨answer, resolved, returned⟩ := Run.bind_eq_ok.mp returned
  cases answer with
  | none =>
    cases returned
    exact Or.inl rfl
  | some found =>
    dsimp only at returned
    split at returned
    · cases returned
      exact Or.inl rfl
    · rename_i file
      obtain ⟨directory, nested⟩ := nested_of_findFile resolved
      obtain ⟨depth, place, -, inside, -, leads⟩ := nested.laws hierarchy layout reliable
      obtain ⟨sectors, directoryLinks⟩ := hierarchy.tree.chained inside
      obtain ⟨clusters, links⟩ := hierarchy.tree.chained (Reach.child inside leads)
      rw [removeEntry, nested.parentOf, Run.ok_bind] at returned
      obtain ⟨⟨marked, middle⟩, marking, returned⟩ := Run.bind_eq_ok.mp returned
      obtain rfl := directoryLinks.markChain_told layout reliable marking
      obtain ⟨last, freeing, returned⟩ := Run.bind_eq_ok.mp returned
      cases returned
      have prunes := markChain_prunes layout reliable directoryLinks links marking freeing
      exact Or.inr ⟨directory, found, clusters, nested, links, prunes, fun kind => absurd kind file⟩

/-- A directory is not deleted as a file. -/
theorem deleteFile_directory {name : Name} {found : Found} {told : Bool} {after : FileSystem}
    (resolved : fs.findFile name = .ok (some found)) (kind : isDirectory found.attributes = true)
    (returned : fs.deleteFile name = .ok (told, after)) : after = fs := by
  rw [deleteFile, resolved, Run.ok_bind] at returned
  dsimp only at returned
  rw [if_pos kind] at returned
  cases returned
  rfl

/-- Whatever the entry, the path that is handed on is the same. -/
theorem deleteNested_eq {recurse : FileSystem → Name → Run (Bool × FileSystem)} {fullPath : Name}
    {fs after : FileSystem} {entryName : Name} {attributes : UInt8}
    (returned : deleteNested recurse fullPath fs entryName attributes = .ok after) :
    ∃ told, (if isDirectory attributes then recurse fs slashFormat
      else fs.deleteFile slashFormat) = .ok (told, after) := by
  rw [deleteNested] at returned
  split at returned
  · rename_i directory
    obtain ⟨⟨told, middle⟩, called, rest⟩ := Run.bind_eq_ok.mp returned
    cases rest
    exact ⟨told, by rw [if_pos directory]; exact called⟩
  · rename_i file
    obtain ⟨⟨told, middle⟩, called, rest⟩ := Run.bind_eq_ok.mp returned
    cases rest
    exact ⟨told, by rw [if_neg file]; exact called⟩

/-- The steps of a recursive deletion that returns. -/
theorem deleteRecursive_cases {depth : Nat} {name : Name} {told : Bool} {after : FileSystem}
    (returned : deleteRecursive depth fs name = .ok (told, after)) :
    (told = false ∧ after = fs ∧ ∀ found, fs.findFile name = .ok (some found) →
      isDirectory found.attributes = false) ∨ ∃ depth' found cleared middle, depth = depth' + 1 ∧
      fs.findFile name = .ok (some found) ∧ isDirectory found.attributes = true ∧
      clearChain (deleteNested (deleteRecursive depth') (fs.fullPath name)) walkSteps found.cluster
        fs = .ok (cleared, middle) ∧
      ((told = false ∧ after = middle ∧ (cleared = true → middle.parentOf name = .ok none)) ∨
        cleared = true ∧ ∃ directory dirName marked edited, middle.parentOf name = .ok (some (directory, dirName)) ∧
        middle.editEntry directory dirName (fun entryData offset =>
          .ok (Function.update entryData offset 0xE5)) = .ok (marked, edited) ∧
        ((marked = false ∧ told = false ∧ after = edited) ∨
          marked = true ∧ told = true ∧ edited.freeChain walkSteps found.cluster = .ok after)) := by
  cases depth with
  | zero => cases returned
  | succ depth =>
    rw [deleteRecursive] at returned
    obtain ⟨answer, resolved, returned⟩ := Run.bind_eq_ok.mp returned
    cases answer with
    | none =>
      cases returned
      refine Or.inl ⟨rfl, rfl, fun found wrong => ?_⟩
      rw [resolved] at wrong
      cases wrong
    | some found =>
      dsimp only at returned
      cases kind : isDirectory found.attributes with
      | false =>
        rw [kind] at returned
        cases returned
        refine Or.inl ⟨rfl, rfl, fun other same => ?_⟩
        rw [resolved] at same
        cases same
        exact kind
      | true =>
        simp only [kind, Bool.not_true, Bool.false_eq_true, if_false] at returned
        obtain ⟨⟨cleared, middle⟩, clearing, returned⟩ := Run.bind_eq_ok.mp returned
        refine Or.inr ⟨depth, found, cleared, middle, rfl, resolved, kind, clearing, ?_⟩
        dsimp only at returned
        cases cleared with
        | false =>
          cases returned
          exact Or.inl ⟨rfl, rfl, fun wrong => by cases wrong⟩
        | true =>
          simp only [Bool.not_true, Bool.false_eq_true, if_false] at returned
          obtain ⟨answer, parentIs, returned⟩ := Run.bind_eq_ok.mp returned
          cases answer with
          | none =>
            cases returned
            exact Or.inl ⟨rfl, rfl, fun _ => parentIs⟩
          | some pair =>
            obtain ⟨directory, dirName⟩ := pair
            obtain ⟨⟨marked, edited⟩, marking, returned⟩ := Run.bind_eq_ok.mp returned
            refine Or.inr ⟨rfl, directory, dirName, marked, edited, parentIs, marking, ?_⟩
            cases marked with
            | false =>
              cases returned
              exact Or.inl ⟨rfl, rfl, rfl⟩
            | true =>
              obtain ⟨last, freeing, returned⟩ := Run.bind_eq_ok.mp returned
              cases returned
              exact Or.inr ⟨rfl, rfl, freeing⟩

/-- A directory that the nested path leads to can only be scanned if it holds no other directory. -/
theorem clearChain_nested (layout : fs.Layout) (reliable : fs.Reliable) {found : Found}
    (resolved : fs.findFile slashFormat = .ok (some found))
    (kind : isDirectory found.attributes = true) {clusters : List Nat}
    (links : fs.Links found.cluster clusters) (fullPath : Name) (depth : Nat) {steps : Nat}
    {told : Bool} {after : FileSystem}
    (returned : clearChain (deleteNested (deleteRecursive depth) fullPath) steps found.cluster fs =
      .ok (told, after)) : told = true ∧ after = fs ∧
      fs.AllHandled (fun attributes => isDirectory attributes = false)
        (fs.directorySectors clusters) := by
  -- By induction on the depth, as the call for a directory scans the same directory again.
  induction depth generalizing fullPath steps told after with
  | zero =>
    refine clearChain_still layout reliable links.linked links.head links.valid ?_ returned
    intro sector member slot small visible after called
    obtain ⟨told, call⟩ := deleteNested_eq called
    split at call
    · cases call
    · rename_i file
      exact ⟨deleteFile_directory resolved kind call, Bool.eq_false_iff.mpr file⟩
  | succ depth ih =>
    refine clearChain_still layout reliable links.linked links.head links.valid ?_ returned
    intro sector member slot small visible after called
    obtain ⟨told, call⟩ := deleteNested_eq called
    split at call
    · rename_i directory
      rcases deleteRecursive_cases call with ⟨-, -, file⟩ | ⟨depth', other, cleared, middle, same, looked, -, clearing, -⟩
      · rw [file found resolved] at kind
        cases kind
      · cases same
        rw [resolved] at looked
        cases looked
        -- The nested scan has come past this entry without failing.
        obtain ⟨-, -, handled⟩ := ih _ clearing
        have file : isDirectory _ = false := handled sector member slot small visible
        rw [file] at directory
        cases directory
    · rename_i file
      exact ⟨deleteFile_directory resolved kind call, Bool.eq_false_iff.mpr file⟩

/-- If no entry is that of a directory, no lookup leads to one. -/
theorem AllHandled.leaf (layout : fs.Layout) (reliable : fs.Reliable) {directory : Nat}
    {clusters : List Nat} (links : fs.Links directory clusters)
    (handled : fs.AllHandled (fun attributes => isDirectory attributes = false)
      (fs.directorySectors clusters)) : fs.Leaf directory := by
  intro name entry looked kind
  by_contra proper
  obtain ⟨one, two⟩ := not_or.mp proper
  rcases links.findFileInDirectory_cases layout reliable name with
    ⟨absent, -⟩ | ⟨sector, member, offset, hit, told⟩
  · rw [absent] at looked
    cases looked
  · rw [told] at looked
    cases looked
    obtain ⟨slot, small, place, live, short, named, used⟩ := findName_some hit
    simp only [Nat.zero_add] at place used
    subst place
    have visible : Visible (fs.block sector) slot := ⟨used, live, short, named ▸ one, named ▸ two⟩
    have file : isDirectory (entryAttributes (fs.block sector) (slotSize * slot)) = false :=
      handled sector member slot small visible
    rw [file] at kind
    cases kind

/-- A nested call changes nothing, or deletes what its path leads to. -/
theorem deleteNested_step (hierarchy : fs.Hierarchy) (layout : fs.Layout) (reliable : fs.Reliable)
    {depth : Nat} {fullPath entryName : Name} {attributes : UInt8} {after : FileSystem}
    (returned : deleteNested (deleteRecursive depth) fullPath fs entryName attributes = .ok after) :
    fs.NestedStep after := by
  obtain ⟨told, call⟩ := deleteNested_eq returned
  split at call
  · rcases deleteRecursive_cases call with
      ⟨-, same, -⟩ | ⟨depth', found, cleared, middle, -, resolved, kind, clearing, outcome⟩
    · exact Or.inl same
    · obtain ⟨directory, nested⟩ := nested_of_findFile resolved
      obtain ⟨above, place, -, inside, -, leads⟩ := nested.laws hierarchy layout reliable
      obtain ⟨sectors, directoryLinks⟩ := hierarchy.tree.chained inside
      obtain ⟨clusters, links⟩ := hierarchy.tree.chained (Reach.child inside leads)
      obtain ⟨-, rfl, handled⟩ :=
        clearChain_nested layout reliable resolved kind links _ _ clearing
      rcases outcome with ⟨-, same, -⟩ | ⟨-, parent, name, marked, edited, parentIs, marking, last⟩
      · exact Or.inl same
      · rw [nested.parentOf] at parentIs
        cases parentIs
        rcases editEntry_prunes layout reliable directoryLinks links marking with
          ⟨rfl, rfl, -⟩ | ⟨rfl, entry, slot, -, -, pruned⟩
        · rcases last with ⟨-, -, same⟩ | ⟨wrong, -⟩
          · exact Or.inl same
          · cases wrong
        · rcases last with ⟨wrong, -⟩ | ⟨-, -, freeing⟩
          · cases wrong
          · exact Or.inr ⟨directory, found, clusters, nested, links, (pruned after freeing).1,
              fun _ => handled.leaf layout reliable links⟩
  · exact deleteFile_nested hierarchy layout reliable call

/-- What lies where, if a nested call has deleted what its path leads to. -/
theorem Uproots.laws {after : FileSystem} {directory : Nat} {found : Found} {clusters : List Nat}
    (uproots : fs.Uproots after directory found clusters) (hierarchy : fs.Hierarchy)
    (layout : fs.Layout) (reliable : fs.Reliable) :
    ∃ depth place, fs.DirectoryAt fs.currentDirectoryCluster depth ∧
      fs.DirectoryAt directory (depth + 1) ∧
      fs.Entry ⟨directory, true⟩ place ⟨found.cluster, isDirectory found.attributes⟩ ∧
      fs.Marked after placeholder place ∧
      (⟨found.cluster, isDirectory found.attributes⟩ : Head) ≠ rootHead := by
  obtain ⟨depth, place, currentAt, inside, slot, leads⟩ :=
    uproots.nested.laws hierarchy layout reliable
  refine ⟨depth, place, currentAt, inside, leads,
    uproots.prunes.removed found place uproots.nested.found slot, ?_⟩
  intro isRoot
  rw [isRoot] at leads
  exact hierarchy.tree.rooted.rootless inside leads

/-- A nested call leaves a tree to work in. -/
theorem NestedStep.hierarchy {after : FileSystem} (step : fs.NestedStep after)
    (hierarchy : fs.Hierarchy) (layout : fs.Layout) (reliable : fs.Reliable) : after.Hierarchy := by
  rcases step with rfl | ⟨directory, found, clusters, uproots⟩
  · exact hierarchy
  · obtain ⟨depth, place, currentAt, inside, leads, removed, notRoot⟩ :=
      uproots.laws hierarchy layout reliable
    have links : fs.Links (⟨found.cluster, isDirectory found.attributes⟩ : Head).cluster clusters :=
      uproots.links
    refine ⟨uproots.prunes.tree hierarchy.tree layout links notRoot inside leads removed, depth, ?_⟩
    -- The current directory lies less deep than what has changed.
    rw [show after.currentDirectoryCluster = fs.currentDirectoryCluster by
      rw [uproots.prunes.same.fields]]
    exact uproots.prunes.shallow hierarchy.tree layout links (Reach.child inside leads) inside
      currentAt (Nat.le_succ depth) (by omega)

end Calls


end FileSystem

end Pocky
