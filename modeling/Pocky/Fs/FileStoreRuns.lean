import Pocky.Fs.FileStore
import Pocky.Lib.Simulation

/-! Every sequence of calls on files of a fresh volume is answered as by a map from names to files. -/

namespace Pocky

/-- The calls on files of the current directory. -/
inductive StoreCall where
  /-- Creating a file with contents. -/
  | create (name : Name) (data : Buffer) (dataSize : Nat) (attributes : UInt8)
  /-- Replacing its contents. -/
  | write (name : Name) (data : Buffer) (dataSize : Nat)
  /-- Deleting it. -/
  | delete (name : Name)
  /-- Giving it another name. -/
  | rename (name newName : Name)
  /-- Reading its first bytes into a buffer. -/
  | read (name : Name) (buffer : Buffer) (bufferSize : Nat)
  /-- Asking for its size and its attributes. -/
  | find (name : Name)

/-- What the calls return. -/
inductive StoreAnswer where
  /-- Whether it has been done. -/
  | told (done : Bool)
  /-- Whether the file was found, and the buffer. -/
  | read (found : Bool) (buffer : Buffer)
  /-- Size and attributes, if the file was found. -/
  | found (file : Option (Nat × UInt8))

/-- Names are plain, and what is created is a file. -/
def StoreCall.Proper : StoreCall → Prop
  | .create name _ _ attributes => Plain name ∧ attributes ≠ 0x0F ∧ isDirectory attributes = false
  | .rename name newName => Plain name ∧ Plain newName
  | .write name _ _ | .delete name | .read name _ _ | .find name => Plain name

/-- What a map from names to files may answer, and what it is then; writing depends on the room. -/
inductive FileStore.May (room : Prop) (store : FileStore) : StoreCall → StoreAnswer → FileStore → Prop where
  /-- A file is created under a new name. -/
  | created {name : Name} {data : Buffer} {dataSize : Nat} {attributes : UInt8}
    (fresh : store name = none) : May room store (.create name data dataSize attributes) (.told true)
      (Function.update store name (some ⟨attributes, dataSize, some data⟩))
  /-- A name that is taken is refused. -/
  | taken {name : Name} {data : Buffer} {dataSize : Nat} {attributes : UInt8}
    (present : store name ≠ none) : May room store (.create name data dataSize attributes)
      (.told false) store
  /-- Without room nothing is created. -/
  | notCreated {name : Name} {data : Buffer} {dataSize : Nat} {attributes : UInt8}
    (fresh : store name = none) (full : ¬ room) :
    May room store (.create name data dataSize attributes) (.told false) store
  /-- Or the file is left without its contents. -/
  | leftEmpty {name : Name} {data : Buffer} {dataSize : Nat} {attributes : UInt8}
    (fresh : store name = none) (full : ¬ room) :
    May room store (.create name data dataSize attributes) (.told false)
      (Function.update store name (some ⟨attributes, 0, none⟩))
  /-- The contents of a file are replaced. -/
  | written {name : Name} {data : Buffer} {dataSize : Nat} {file : StoredFile}
    (present : store name = some file) : May room store (.write name data dataSize) (.told true)
      (Function.update store name (some ⟨file.attributes, dataSize, some data⟩))
  /-- There is no such file to write. -/
  | notWritten {name : Name} {data : Buffer} {dataSize : Nat} (absent : store name = none) :
    May room store (.write name data dataSize) (.told false) store
  /-- Without room the contents are lost. -/
  | damaged {name : Name} {data : Buffer} {dataSize : Nat} {file : StoredFile}
    (present : store name = some file) (full : ¬ room) :
    May room store (.write name data dataSize) (.told false)
      (Function.update store name (some { file with contents := none }))
  /-- A file is deleted, if there is one. -/
  | deleted {name : Name} : May room store (.delete name) (.told (store name).isSome)
      (Function.update store name none)
  /-- A file gets a name that is free. -/
  | renamed {name newName : Name} {file : StoredFile} (present : store name = some file)
    (fresh : store newName = none) : May room store (.rename name newName) (.told true)
      (Function.update (Function.update store name none) newName (some file))
  /-- It gets no other. -/
  | notRenamed {name newName : Name} (unfit : store name = none ∨ store newName ≠ none) :
    May room store (.rename name newName) (.told false) store
  /-- The first bytes of a file are read, if they are known. -/
  | read {name : Name} {buffer buffer' : Buffer} {bufferSize : Nat} {file : StoredFile}
    (present : store name = some file)
    (bytes : ∀ data, file.contents = some data → bufferSize ≤ file.size →
      buffer' = putBytes buffer 0 bufferSize data) :
    May room store (.read name buffer bufferSize) (.read true buffer') store
  /-- There is no such file to read. -/
  | notRead {name : Name} {buffer : Buffer} {bufferSize : Nat} (absent : store name = none) :
    May room store (.read name buffer bufferSize) (.read false buffer) store
  /-- Size and attributes are those of the file. -/
  | found {name : Name} : May room store (.find name)
      (.found ((store name).map fun file => (file.size, file.attributes))) store

namespace FileSystem

/-- What the file system does for a call. -/
def call (fs : FileSystem) : StoreCall → Run (StoreAnswer × FileSystem)
  | .create name data dataSize attributes => do
    let (done, fs) ← fs.createFileWithContent name data dataSize attributes
    return (.told done, fs)
  | .write name data dataSize => do
    let (done, fs) ← fs.writeFileByPath name data dataSize
    return (.told done, fs)
  | .delete name => do
    let (done, fs) ← fs.deleteFile name
    return (.told done, fs)
  | .rename name newName => do
    let (done, fs) ← fs.renameFile name newName
    return (.told done, fs)
  | .read name buffer bufferSize => do
    let ((found, buffer), fs) ← fs.readFileByPath name buffer bufferSize
    return (.read found buffer, fs)
  | .find name => do
    let found ← fs.findFile name
    return (.found (found.map fun found => (found.size, found.attributes)), fs)

/-- There is room for what a call writes, and for the entry if it makes one. -/
def HasRoom (fs : FileSystem) : StoreCall → Prop
  | .create _ _ dataSize _ => findFree (fs.content rootCluster) 16 0 ≠ none ∧
    fs.freeClusters.Nonempty ∧ fs.clustersFor dataSize ≤ fs.freeClusters.card
  | .write name _ dataSize => fs.RoomFor name dataSize
  | .delete _ | .rename _ _ | .read _ _ _ | .find _ => True

section Calls

variable {fs after : FileSystem} {store : FileStore} {name : Name}

/-- Work on a plain name in the root directory is done there. -/
theorem inDirectory_root {α : Type} (path : fs.currentPath = [slash]) (plain : Plain name) (absent : α)
    (work : FileSystem → Name → Run (α × FileSystem)) :
    fs.inDirectory name absent work =
      (work fs name).map fun result => (result.1, result.2.restoreDirectory fs) := by
  have short : name.length < maxPath := by
    have fits := plain.short
    rw [maxPath]
    omega
  rw [inDirectory, splitPath, cutLastSlash_of_notMem (slash_notMem_of_valid plain.valid)]
  simp only [copyPath, if_pos short, Run.ok_bind, path, pure, Except.pure, enterDirectory, if_true]
  cases work fs name with
  | error stop => rfl
  | ok result => rfl

/-- Going back to the root changes nothing. -/
theorem Keeps.restored (keeps : after.Keeps store) (path : fs.currentPath = [slash])
    (here : fs.currentDirectoryCluster = rootCluster) : (after.restoreDirectory fs).Keeps store := by
  have path' : (after.restoreDirectory fs).currentPath = [slash] := by
    simp [restoreDirectory, setCurrentDirName, setCurrentPath, setCurrentDirectoryCluster, path, maxPath]
  have here' : (after.restoreDirectory fs).currentDirectoryCluster = rootCluster := here
  obtain ⟨⟨⟨⟨sector, first, copies, apart, bounded, covered, numbered⟩, ⟨read, write⟩, one, few⟩,
    ⟨root, single, ⟨chained, disjoint⟩, subdirectory, unique⟩, -, short⟩, distinct, -, present,
    absent⟩ := keeps
  refine ⟨⟨⟨⟨sector, first, copies, apart, bounded, covered, numbered⟩, ⟨read, write⟩, one, few⟩,
    ⟨root, fun directory member => ⟨(single directory member).valid, (single directory member).last⟩,
      ⟨chained, disjoint⟩, subdirectory, unique⟩, here', short⟩, distinct, path', ?_, absent⟩
  intro name file stored
  obtain ⟨plain, slot, small, names, holds⟩ := present name file stored
  exact ⟨plain, slot, small, names, holds.leads, holds.attributes, holds.size, holds.contents⟩

/-- A file has room for what fits in one cluster and the free ones. -/
theorem Keeps.roomFor (keeps : fs.Keeps store) (plain : Plain name) {file : StoredFile}
    (stored : store name = some file) {dataSize : Nat}
    (enough : fs.clustersFor dataSize ≤ 1 + fs.freeClusters.card) : fs.RoomFor name dataSize := by
  rcases keeps.findFile plain with ⟨none, -⟩ | ⟨file', slot, -, small, -, holds, -, lookup⟩
  · rw [stored] at none
    cases none
  · obtain ⟨clusters, links, -⟩ := keeps.chain small holds
    obtain ⟨rest, shape⟩ := ChainFrom.exists_cons links
    refine ⟨_, clusters, lookup, links, ?_⟩
    have length := congrArg List.length shape
    rw [List.length_cons] at length
    omega

/-- Creating a file with contents in the root. -/
theorem Keeps.create (keeps : fs.Keeps store) (plain : Plain name) (data : Buffer) (dataSize : Nat)
    {attributes : UInt8} (kind : attributes ≠ 0x0F) (file : isDirectory attributes = false) :
    ∃ answer next store', fs.call (.create name data dataSize attributes) = .ok (answer, next) ∧
      store.May (fs.HasRoom (.create name data dataSize attributes))
        (.create name data dataSize attributes) answer store' ∧ next.Keeps store' := by
  -- The call is the work in the root, and going back there.
  have called : ∀ done after, fs.createContent name data dataSize attributes = .ok (done, after) →
      fs.call (.create name data dataSize attributes) = .ok (.told done, after.restoreDirectory fs) := by
    intro done after worked
    rw [call, createFileWithContent_eq, inDirectory_root keeps.path plain, worked]
    rfl
  rcases keeps.createFile plain kind file with
    ⟨full, after, created, keeps'⟩ | ⟨fresh, slot, cluster, after, created, enters, keeps'⟩
  · have answered := called false after (by rw [createContent, created]; rfl)
    refine ⟨_, _, store, answered, ?_, keeps'.restored keeps.path keeps.here⟩
    cases stored : store name with
    | some file => exact .taken (by rw [stored]; simp)
    | none =>
      refine .notCreated stored ?_
      rintro ⟨slot, ⟨cluster, free⟩, -⟩
      simp only [freeClusters, Finset.mem_filter, Finset.mem_range] at free
      refine full ⟨?_, ⟨cluster, ⟨free.2.1, free.1⟩, free.2.2⟩, by rw [keeps.here]; exact slot⟩
      rcases keeps.findFile plain with ⟨-, absent, -⟩ | ⟨_, _, stored', _⟩
      · rw [keeps.here]
        exact absent
      · rw [stored] at stored'
        cases stored'
  · obtain ⟨told, last, returned, keeps'', full⟩ :=
      keeps'.storeFile plain (Function.update_self _ _ _) data dataSize
    have answered := called told last (by rw [createContent, created]; exact returned)
    rw [Function.update_idem] at keeps''
    refine ⟨_, _, _, answered, ?_, keeps''.restored keeps.path keeps.here⟩
    cases told with
    | true => exact .created fresh
    | false =>
      refine .leftEmpty fresh ?_
      rintro ⟨-, -, enough⟩
      refine full rfl (keeps'.roomFor plain (Function.update_self _ _ _) ?_)
      have card := card_freeClusters_take enters.valid enters.free enters.becomes.same
        enters.becomes.fat
      rw [enters.becomes.same.clustersFor]
      omega

/-- Replacing the contents of a file of the root. -/
theorem Keeps.write (keeps : fs.Keeps store) (plain : Plain name) (data : Buffer) (dataSize : Nat) :
    ∃ answer next store', fs.call (.write name data dataSize) = .ok (answer, next) ∧
      store.May (fs.HasRoom (.write name data dataSize)) (.write name data dataSize) answer store' ∧
      next.Keeps store' := by
  have called : ∀ done after, fs.storeFile name data dataSize = .ok (done, after) →
      fs.call (.write name data dataSize) = .ok (.told done, after.restoreDirectory fs) := by
    intro done after worked
    rw [call, writeFileByPath, inDirectory_root keeps.path plain, worked]
    rfl
  cases stored : store name with
  | none =>
    have nothing : fs.storeFile name data dataSize = .ok (false, fs) := by
      rcases keeps.findFile plain with ⟨-, -, absent⟩ | ⟨_, _, stored', _⟩
      · rw [FileSystem.storeFile, absent]
        rfl
      · rw [stored] at stored'
        cases stored'
    exact ⟨_, _, store, called false fs nothing, .notWritten stored,
      keeps.restored keeps.path keeps.here⟩
  | some file =>
    obtain ⟨told, last, returned, keeps', full⟩ := keeps.storeFile plain stored data dataSize
    refine ⟨_, _, _, called told last returned, ?_, keeps'.restored keeps.path keeps.here⟩
    cases told with
    | true => exact .written stored
    | false => exact .damaged stored (full rfl)

/-- Reading a file of the root. -/
theorem Keeps.read (keeps : fs.Keeps store) (plain : Plain name) (buffer : Buffer) (bufferSize : Nat) :
    ∃ answer next, fs.call (.read name buffer bufferSize) = .ok (answer, next) ∧
      store.May (fs.HasRoom (.read name buffer bufferSize)) (.read name buffer bufferSize) answer store ∧
      next.Keeps store := by
  rcases keeps.findFile plain with ⟨none, -, absent⟩ | ⟨file, slot, stored, small, -, holds, -, lookup⟩
  · refine ⟨.read false buffer, fs.restoreDirectory fs, ?_, .notRead none,
      keeps.restored keeps.path keeps.here⟩
    rw [call, readFileByPath, inDirectory_root keeps.path plain, absent]
    rfl
  · refine ⟨.read true (fs.readFile (fs.foundIn rootCluster (slotSize * slot)).cluster buffer bufferSize),
      fs.restoreDirectory fs, ?_, .read stored ?_,
      keeps.restored keeps.path keeps.here⟩
    · rw [call, readFileByPath, inDirectory_root keeps.path plain, lookup]
      rfl
    · intro data known fits
      obtain ⟨clusters, links, held⟩ := holds.contents data known
      have first : fs.HoldsData data (clusters ++ []) bufferSize := held.mono fits
      rw [List.append_nil] at first
      exact keeps.tidy.sound.layout.readFile_eq keeps.tidy.sound.reliable links first buffer

/-- Every call is answered as the map may answer it, and keeps the map. -/
theorem Keeps.step (keeps : fs.Keeps store) {call : StoreCall} (proper : call.Proper) :
    ∃ answer next store', fs.call call = .ok (answer, next) ∧
      store.May (fs.HasRoom call) call answer store' ∧ next.Keeps store' := by
  cases call with
  | create name data dataSize attributes =>
    exact keeps.create proper.1 data dataSize proper.2.1 proper.2.2
  | write name data dataSize => exact keeps.write proper data dataSize
  | delete name =>
    obtain ⟨after, deleted, keeps'⟩ := keeps.deleteFile proper
    exact ⟨_, after, _, by rw [FileSystem.call, deleted]; rfl, .deleted, keeps'⟩
  | rename name newName =>
    rcases keeps.renameFile proper.1 proper.2 with
      ⟨file, after, stored, fresh, renamed, keeps'⟩ | ⟨unfit, refused⟩
    · exact ⟨_, after, _, by rw [FileSystem.call, renamed]; rfl, .renamed stored fresh, keeps'⟩
    · exact ⟨_, fs, store, by rw [FileSystem.call, refused]; rfl, .notRenamed unfit, keeps⟩
  | read name buffer bufferSize =>
    obtain ⟨answer, next, answered, may, keeps'⟩ := keeps.read proper buffer bufferSize
    exact ⟨answer, next, store, answered, may, keeps'⟩
  | find name =>
    refine ⟨.found ((store name).map fun file => (file.size, file.attributes)), fs, store, ?_, .found,
      keeps⟩
    rcases keeps.findFile proper with ⟨none, -, absent⟩ | ⟨file, slot, stored, -, -, holds, -, lookup⟩
    · rw [FileSystem.call, absent, none]
      rfl
    · rw [FileSystem.call, lookup, stored, Option.map_some, ← holds.size, ← holds.attributes]
      rfl

/-- A fresh volume has no files. -/
theorem Fresh.keeps {before : FileSystem} (fresh : Fresh before fs) (unused : UnusedRoot before fs)
    (path : fs.currentPath = [slash]) : fs.Keeps fun _ => none where
  tidy := fresh.tidy
  distinct := (fresh.namedApart unused).distinct rootCluster rfl
  path := path
  present name file stored := by cases stored
  absent name plain _ slot small names := by
    have leads := slotHead_plain plain names.1 names.2.1 names.2.2
    rw [(fresh.root small).1] at leads
    cases leads

end Calls

end FileSystem

end Pocky
