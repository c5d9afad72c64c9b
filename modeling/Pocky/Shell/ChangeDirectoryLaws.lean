import Pocky.Fs.ChainLaws
import Pocky.Shell.ChangeDirectory

/-! When the current directory is the top of the stack, and when cd .. goes back. -/

namespace Pocky

namespace DirectorySession

/-- The first cluster of the directory on top of the stack. -/
def topCluster (session : DirectorySession) : Nat :=
  (session.dirStack (session.dirStackSize - 1)).cluster

/-- The first cluster of the directory below the top of the stack. -/
def belowCluster (session : DirectorySession) : Nat :=
  (session.dirStack (session.dirStackSize - 2)).cluster

/-- The current directory is the one on top of the stack. -/
def OnTop (session : DirectorySession) : Prop :=
  session.fs.currentDirectoryCluster = session.topCluster

/-- The stack has at least one directory and at most as many as fit, and the root at its bottom. -/
structure Grounded (session : DirectorySession) : Prop where
  /-- There is a directory on it. -/
  nonempty : 1 ≤ session.dirStackSize
  /-- There are not too many. -/
  fits : session.dirStackSize ≤ maxDirStack
  /-- The lowest one is the root. -/
  bottom : (session.dirStack 0).cluster = rootCluster

/-- An argument that takes the command to the root. -/
def GoesHome (path : Option Name) : Prop := path = none ∨ path = some [] ∨ path = some [slash]

/--
A use of the command that keeps the current directory on top of the stack.

It goes to the root only if the root is on top, and enters a directory only if there is room for it.
-/
def Keeps (session : DirectorySession) (call : CdCall) : Prop :=
  (GoesHome call.path → session.topCluster = rootCluster) ∧
    ∀ path, call.path = some path → ¬ GoesHome call.path → path ≠ dotDot →
      ∀ dirCluster, session.entered path call.buffer = some dirCluster →
        session.dirStackSize < maxDirStack ∨ dirCluster = session.topCluster

variable {session : DirectorySession}

/-- A missing argument or the root's path takes the command to the root. -/
theorem cmdCd_home {path : Option Name} (home : GoesHome path) (buffer : Buffer) :
    session.cmdCd path buffer = session.goHome := by
  rcases home with rfl | rfl | rfl
  · rfl
  · rfl
  · rfl

/-- The parent's name goes up. -/
theorem cmdCd_dotDot (buffer : Buffer) : session.cmdCd (some dotDot) buffer = session.goUp := rfl

/-- Any other argument is a name that is looked for. -/
theorem cmdCd_name {path : Name} (away : ¬ GoesHome (some path)) (other : path ≠ dotDot)
    (buffer : Buffer) :
    session.cmdCd (some path) buffer = ((session.entered path buffer).map (session.enter path)).getD
      session := by
  have filled : path ≠ [] := fun empty => away (Or.inr (Or.inl (by rw [empty])))
  have below : path ≠ [slash] := fun root => away (Or.inr (Or.inr (by rw [root])))
  rw [cmdCd, if_neg filled, if_neg below, if_neg other]
  cases session.entered path buffer with
  | none => rfl
  | some dirCluster => rfl

/-- Going up from a directory below the root. -/
theorem goUp_deep (deep : 1 < session.dirStackSize) :
    session.goUp.fs.currentDirectoryCluster = session.belowCluster ∧
      session.goUp.dirStack = session.dirStack ∧
      session.goUp.dirStackSize = session.dirStackSize - 1 := by
  rw [goUp, popDirectory, if_neg (by omega)]
  exact ⟨rfl, rfl, rfl⟩

/-- Going up from the lowest directory of the stack goes to the root. -/
theorem goUp_shallow (shallow : session.dirStackSize ≤ 1) : session.goUp = session.goHome := by
  rw [goUp, popDirectory, if_pos shallow]

/-- Entering a directory with room on the stack puts it on top. -/
theorem enter_room (room : session.dirStackSize < maxDirStack) (path : Name) (dirCluster : Nat) :
    (session.enter path dirCluster).dirStackSize = session.dirStackSize + 1 ∧
      ∃ entry : DirStackEntry, entry.cluster = dirCluster ∧
        (session.enter path dirCluster).dirStack =
          Function.update session.dirStack session.dirStackSize entry := by
  rw [enter, pushDirectory, if_neg (by omega)]
  exact ⟨rfl, _, rfl, rfl⟩

/-- Entering a directory without room leaves the stack as it is. -/
theorem enter_full (full : maxDirStack ≤ session.dirStackSize) (path : Name) (dirCluster : Nat) :
    (session.enter path dirCluster).dirStackSize = session.dirStackSize ∧
      (session.enter path dirCluster).dirStack = session.dirStack := by
  rw [enter, pushDirectory, if_pos full]
  exact ⟨rfl, rfl⟩

/-- Every use of the command leaves the root at the bottom of the stack. -/
theorem Grounded.cmdCd (grounded : session.Grounded) (path : Option Name) (buffer : Buffer) :
    (session.cmdCd path buffer).Grounded := by
  obtain ⟨nonempty, fits, bottom⟩ := grounded
  by_cases home : GoesHome path
  · rw [cmdCd_home home]
    exact ⟨nonempty, fits, bottom⟩
  · cases path with
    | none => exact absurd (Or.inl rfl) home
    | some path =>
      by_cases parent : path = dotDot
      · rw [parent, cmdCd_dotDot]
        by_cases deep : 1 < session.dirStackSize
        · obtain ⟨-, stack, size⟩ := goUp_deep deep
          exact ⟨by omega, by omega, by rw [stack]; exact bottom⟩
        · rw [goUp_shallow (by omega)]
          exact ⟨nonempty, fits, bottom⟩
      · rw [cmdCd_name home parent]
        cases session.entered path buffer with
        | none => exact ⟨nonempty, fits, bottom⟩
        | some dirCluster =>
          by_cases room : session.dirStackSize < maxDirStack
          · obtain ⟨size, entry, -, stack⟩ := enter_room room path dirCluster
            refine ⟨?_, ?_, ?_⟩
            · show 1 ≤ (session.enter path dirCluster).dirStackSize
              omega
            · show (session.enter path dirCluster).dirStackSize ≤ maxDirStack
              omega
            · show ((session.enter path dirCluster).dirStack 0).cluster = rootCluster
              rw [stack, Function.update_of_ne (by omega)]
              exact bottom
          · obtain ⟨size, stack⟩ := enter_full (Nat.le_of_not_lt room) path dirCluster
            refine ⟨?_, ?_, ?_⟩
            · show 1 ≤ (session.enter path dirCluster).dirStackSize
              omega
            · show (session.enter path dirCluster).dirStackSize ≤ maxDirStack
              omega
            · show ((session.enter path dirCluster).dirStack 0).cluster = rootCluster
              rw [stack]
              exact bottom

/-- A use of the command leaves the current directory on top of the stack exactly if it keeps it there. -/
theorem onTop_cmdCd_iff (grounded : session.Grounded) (onTop : session.OnTop) (call : CdCall) :
    (session.cmdCd call.path call.buffer).OnTop ↔ session.Keeps call := by
  obtain ⟨path, buffer⟩ := call
  by_cases home : GoesHome path
  · rw [cmdCd_home home]
    have root : session.goHome.OnTop ↔ session.topCluster = rootCluster := eq_comm
    rw [root]
    exact ⟨fun top => ⟨fun _ => top, fun _ _ away => absurd home away⟩, fun keeps => keeps.1 home⟩
  · cases path with
    | none => exact absurd (Or.inl rfl) home
    | some path =>
      by_cases parent : path = dotDot
      · -- Going up ends at the new top, which is the root if there is nothing below.
        have keeps : session.Keeps ⟨some path, buffer⟩ :=
          ⟨fun wrong => absurd wrong home, fun other same _ different =>
            absurd ((Option.some.inj same).symm.trans parent) different⟩
        refine ⟨fun _ => keeps, fun _ => ?_⟩
        rw [parent, cmdCd_dotDot, OnTop, topCluster]
        by_cases deep : 1 < session.dirStackSize
        · obtain ⟨current, stack, size⟩ := goUp_deep deep
          rw [current, stack, size, belowCluster]
          rfl
        · rw [goUp_shallow (Nat.le_of_not_lt deep)]
          have lowest : session.dirStackSize - 1 = 0 := by omega
          show rootCluster = (session.dirStack (session.dirStackSize - 1)).cluster
          rw [lowest, grounded.bottom]
      · rw [cmdCd_name home parent]
        have keeps : session.Keeps ⟨some path, buffer⟩ ↔
            ∀ dirCluster, session.entered path buffer = some dirCluster →
              session.dirStackSize < maxDirStack ∨ dirCluster = session.topCluster := by
          refine ⟨fun keeps => keeps.2 path rfl home parent, fun condition =>
            ⟨fun wrong => absurd wrong home, fun other same _ _ => ?_⟩⟩
          obtain rfl := Option.some.inj same
          exact condition
        rw [keeps]
        cases session.entered path buffer with
        | none => exact ⟨fun _ _ wrong => (nomatch wrong), fun _ => onTop⟩
        | some dirCluster =>
          have reached : ((some dirCluster).map (session.enter path)).getD session =
              session.enter path dirCluster := rfl
          have current : (session.enter path dirCluster).fs.currentDirectoryCluster = dirCluster := rfl
          rw [reached, OnTop, current, topCluster]
          by_cases room : session.dirStackSize < maxDirStack
          · obtain ⟨size, entry, same, stack⟩ := enter_room room path dirCluster
            rw [size, stack, Nat.add_sub_cancel, Function.update_self, same]
            exact ⟨fun _ _ _ => Or.inl room, fun _ => rfl⟩
          · obtain ⟨size, stack⟩ := enter_full (Nat.le_of_not_lt room) path dirCluster
            rw [size, stack]
            refine ⟨fun same other told => Or.inr ?_, fun condition => ?_⟩
            · rw [← Option.some.inj told]
              exact same
            · exact (condition dirCluster rfl).resolve_left room

/-- Going up after entering a directory goes back exactly if there was room, or below is the same. -/
theorem goUp_enter_iff (grounded : session.Grounded) (onTop : session.OnTop) (path : Name)
    (dirCluster : Nat) :
    (session.enter path dirCluster).goUp.fs.currentDirectoryCluster =
        session.fs.currentDirectoryCluster ↔
      session.dirStackSize < maxDirStack ∨ session.belowCluster = session.topCluster := by
  have nonempty := grounded.nonempty
  have top : session.fs.currentDirectoryCluster = session.topCluster := onTop
  rw [top]
  by_cases room : session.dirStackSize < maxDirStack
  · obtain ⟨size, entry, -, stack⟩ := enter_room room path dirCluster
    have back := (goUp_deep (show 1 < (session.enter path dirCluster).dirStackSize by omega)).1
    have below : session.dirStackSize + 1 - 2 = session.dirStackSize - 1 := by omega
    rw [back, belowCluster, size, stack, below, Function.update_of_ne (by omega)]
    exact ⟨fun _ => Or.inl room, fun _ => rfl⟩
  · obtain ⟨size, stack⟩ := enter_full (Nat.le_of_not_lt room) path dirCluster
    have many : 32 ≤ session.dirStackSize := Nat.le_of_not_lt room
    have back := (goUp_deep (show 1 < (session.enter path dirCluster).dirStackSize by omega)).1
    rw [back, belowCluster, size, stack]
    exact ⟨fun same => Or.inr same, fun condition => condition.resolve_left room⟩

/--
In every session that uses of cd lead to, each of which keeps the current directory on top of the
stack, it is on top of the stack.

One more use leaves it there exactly if it keeps it there too.
For a name that a directory is entered by, cd .. goes back to where it was entered from exactly if the
stack has room for it, or the two directories on top are the same.
-/
theorem cd_run (fs : FileSystem) (dirStack : Nat → DirStackEntry) (calls : List CdCall)
    (session : DirectorySession) (keep : Calls.AllMeet perform Keeps (initShell fs dirStack) calls)
    (ran : (initShell fs dirStack).run calls = some session) :
    session.OnTop ∧
    (∀ call : CdCall, (session.cmdCd call.path call.buffer).OnTop ↔ session.Keeps call) ∧
    ∀ path buffer buffer' dirCluster, ¬ GoesHome (some path) → path ≠ dotDot →
      session.entered path buffer = some dirCluster →
      (((session.cmdCd (some path) buffer).cmdCd (some dotDot) buffer').fs.currentDirectoryCluster =
        session.fs.currentDirectoryCluster ↔
          session.dirStackSize < maxDirStack ∨ session.belowCluster = session.topCluster) := by
  have booted : (initShell fs dirStack).Grounded ∧ (initShell fs dirStack).OnTop :=
    ⟨⟨Nat.le_refl 1, show 1 ≤ 32 by decide, rfl⟩, rfl⟩
  obtain ⟨grounded, onTop⟩ := Calls.run_invariant (fun session => session.Grounded ∧ session.OnTop)
    (fun state call next kept keeps performed => by
      obtain rfl := Option.some.inj performed
      exact ⟨kept.1.cmdCd _ _, (onTop_cmdCd_iff kept.1 kept.2 call).mpr keeps⟩) calls _ _ booted
    keep ran
  refine ⟨onTop, onTop_cmdCd_iff grounded onTop, ?_⟩
  intro path buffer buffer' dirCluster away other enters
  have reached : session.cmdCd (some path) buffer = session.enter path dirCluster := by
    rw [cmdCd_name away other, enters]
    rfl
  rw [reached, cmdCd_dotDot]
  exact goUp_enter_iff grounded onTop path dirCluster

/-- A root with the directories a and b, the first of which has a directory c. -/
def twoBranches : Buffer :=
  FileSystem.withLink 2 endMark <| FileSystem.withLink 3 endMark <|
    FileSystem.withLink 4 endMark <| FileSystem.withLink 5 endMark <|
      FileSystem.withEntry 2 0 [0x61] 0x10 3 <| FileSystem.withEntry 2 1 [0x62] 0x10 4 <|
        FileSystem.withEntry 3 0 [0x63] 0x10 5 fun _ => 0

/-- The shell on such a volume. -/
def branchedShell : DirectorySession :=
  initShell (FileSystem.smallVolume twoBranches 2) fun _ => ⟨[], [], 0⟩

/-- Using cd with a name and an empty buffer. -/
def cdTo (name : Name) : CdCall := ⟨some name, fun _ => 0⟩

/-- After cd a the current directory is on top of the stack, and cd c and cd .. go back to it. -/
theorem cd_run_nested : ∃ session, branchedShell.run [cdTo [0x61]] = some session ∧
    session.OnTop ∧ session.fs.currentDirectoryCluster = 3 ∧
    ((session.cmdCd (some [0x63]) fun _ => 0).cmdCd (some dotDot) fun _ =>
      0).fs.currentDirectoryCluster = session.fs.currentDirectoryCluster := by
  have enters : branchedShell.entered [0x61] (fun _ => 0) = some 3 := by decide +kernel
  have away : ∀ byte : UInt8, byte ≠ slash → ¬ GoesHome (some [byte]) := by
    rintro byte other (wrong | wrong | same)
    · cases wrong
    · cases wrong
    · exact other (List.cons.inj (Option.some.inj same)).1
  have reached : branchedShell.cmdCd (some [0x61]) (fun _ => 0) = branchedShell.enter [0x61] 3 := by
    rw [cmdCd_name (away 0x61 (by decide)) (by decide), enters]
    rfl
  have ran : branchedShell.run [cdTo [0x61]] = some (branchedShell.enter [0x61] 3) :=
    Calls.run_cons.mpr ⟨_, congrArg some reached, rfl⟩
  have keeps : branchedShell.Keeps (cdTo [0x61]) :=
    ⟨fun home => absurd home (away 0x61 (by decide)),
      fun _ _ _ _ _ _ => Or.inl (show 1 < 32 by decide)⟩
  have deeper : (branchedShell.enter [0x61] 3).entered [0x63] (fun _ => 0) = some 5 := by
    decide +kernel
  obtain ⟨onTop, -, back⟩ := cd_run (FileSystem.smallVolume twoBranches 2) (fun _ => ⟨[], [], 0⟩)
    [cdTo [0x61]] _ ⟨keeps, fun _ _ => trivial⟩ ran
  refine ⟨_, ran, onTop, rfl, ?_⟩
  exact (back [0x63] (fun _ => 0) (fun _ => 0) 5 (away 0x63 (by decide)) (by decide) deeper).mpr
    (Or.inl (show 2 < 32 by decide))

/-- After cd a and cd / the top of the stack is still a, and cd b and cd .. lead there. -/
theorem cd_forgets_root : ∃ session, branchedShell.run [cdTo [0x61], cdTo [slash]] = some session ∧
    session.fs.currentDirectoryCluster = rootCluster ∧ session.topCluster = 3 ∧
    session.entered [0x62] (fun _ => 0) = some 4 ∧
    ((session.cmdCd (some [0x62]) fun _ => 0).cmdCd (some dotDot) fun _ =>
      0).fs.currentDirectoryCluster = 3 :=
  ⟨_, rfl, by decide +kernel, by decide +kernel, by decide +kernel, by decide +kernel⟩

end DirectorySession

end Pocky
