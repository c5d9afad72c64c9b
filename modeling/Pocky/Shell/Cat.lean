import Mathlib.Data.List.GetD
import Pocky.Fs.FileData
import Pocky.Shell.Screen
import Pocky.Text.Printf

/-! Printing a file to the screen, chunk by chunk. -/

namespace Pocky

/-- The bytes that are read at a time. -/
def chunkSize : Nat := 4096

/-- Characters that are printed one by one. -/
def Printed.characters (output : List UInt8) : Printed := ⟨output, 0, false, false⟩

/-- The character a byte is printed as. -/
def printByte (byte : UInt8) : UInt8 :=
  if byte = newline then newline else if 32 ≤ byte ∧ byte ≤ 126 then byte else ascii '.'

/-- Printing the bytes at the start of a buffer. -/
def printBytes (buffer : Buffer) (chunk : Nat) : List UInt8 :=
  (List.range chunk).map fun i => printByte (buffer i)

/-- Whether the last byte that has been printed is a newline. -/
def endsWithNewline (buffer : Buffer) (chunk : Nat) (before : Bool) : Bool :=
  (List.range chunk).foldl (fun _ i => buffer i == newline) before

namespace FileSystem

/-- The loop over the chunks of a file, each of which is read from the start cluster on. -/
def catLoop (fs : FileSystem) (cluster remaining : Nat) (buffer : Buffer) (before : Bool) :
    List UInt8 × Bool :=
  if 0 < remaining then
    let chunk := if remaining < chunkSize then remaining else chunkSize
    -- Every round reads from the start of the file again.
    let buffer := fs.readFile cluster buffer chunk
    let (printed, ends) :=
      fs.catLoop cluster (remaining - chunk) buffer (endsWithNewline buffer chunk before)
    (printBytes buffer chunk ++ printed, ends)
  else ([], before)
termination_by remaining
decreasing_by
  unfold chunkSize
  split <;> omega

/-- The command that prints a file; the memory it is read into is not cleared. -/
def cmdCat (fs : FileSystem) (path : Option Name) (memory : Buffer) : Run Printed :=
  match path with
  | none | some [] => .ok (vprintf (chars "cat: missing operand\n") [])
  | some path => do
    match ← fs.findFile path with
    | none => return vprintf (chars "File not found: %s\n") [.text (some path)]
    | some found =>
      if isDirectory found.attributes then
        return vprintf (chars "%s is a directory\n") [.text (some path)]
      -- Of an empty file not even a newline is printed.
      else if found.size = 0 then return .nothing
      else
        let (printed, ends) := fs.catLoop found.cluster found.size memory false
        return .characters (if ends then printed else printed ++ [newline])

/-- The bytes of a chain of clusters, one after the other. -/
def chainBytes (fs : FileSystem) (clusters : List Nat) : Buffer := fun index =>
  fs.sectorData (clusters.getD (index / 512 / fs.bpb.sectorsPerCluster) 0)
    (index / 512 % fs.bpb.sectorsPerCluster) (index % 512)

/-- What is to be printed of a file: its bytes, and a newline if it does not end with one. -/
def shownFile (data : Buffer) (size : Nat) : List UInt8 :=
  (List.range size).map (fun i => printByte (data i)) ++
    if data (size - 1) = newline then [] else [newline]

/-- A chain holds its own bytes as far as it reaches. -/
theorem Layout.holdsData_chain {fs : FileSystem} (layout : fs.Layout) {clusters : List Nat}
    {size : Nat} (covered : size ≤ fs.clusterSize * clusters.length) :
    fs.HoldsData (fs.chainBytes clusters) clusters size := by
  intro index inside
  have place : index / fs.bpb.sectorsPerCluster < clusters.length := by
    rw [Nat.div_lt_iff_lt_mul layout.cluster]
    rw [clusterSize, Nat.mul_assoc] at covered
    have : index < fs.bpb.sectorsPerCluster * clusters.length := by omega
    rwa [Nat.mul_comm] at this
  refine ⟨_, List.getElem?_eq_getElem place, ?_⟩
  funext offset
  by_cases within : offset < 512
  · have sector : (512 * index + offset) / 512 = index := by omega
    have byte : (512 * index + offset) % 512 = offset := by omega
    rw [cutBlock, if_pos within, shifted, chainBytes, sector, byte, List.getD_eq_getElem _ _ place]
  · rw [cutBlock, if_neg within, sectorData, block, cutBlock, if_neg within]

/-- A newline and nothing else is printed as one. -/
theorem printByte_eq_newline (byte : UInt8) : printByte byte = newline ↔ byte = newline := by
  have dot : ascii '.' ≠ newline := by decide
  unfold printByte
  split_ifs <;> simp_all

/-- The last byte of what has been printed counts. -/
theorem endsWithNewline_succ (buffer : Buffer) (chunk : Nat) (before : Bool) :
    endsWithNewline buffer (chunk + 1) before = (buffer chunk == newline) := by
  simp [endsWithNewline, List.range_succ]

/-- A chunk that has been read is printed. -/
theorem printBytes_chunk (buffer data : Buffer) {chunk : Nat} (short : chunk ≤ chunkSize) :
    printBytes (putBytes buffer 0 chunk data) chunk =
      (List.range chunk).map fun i => printByte (data (i % chunkSize)) := by
  refine List.map_congr_left fun i member => ?_
  have small := List.mem_range.mp member
  rw [putBytes, if_pos (by omega), Nat.sub_zero, Nat.mod_eq_of_lt (by omega)]

/-- Its last byte is the one that counts. -/
theorem endsWithNewline_chunk (buffer data : Buffer) {chunk : Nat} (positive : 0 < chunk)
    (short : chunk ≤ chunkSize) (before : Bool) :
    endsWithNewline (putBytes buffer 0 chunk data) chunk before =
      (data ((chunk - 1) % chunkSize) == newline) := by
  obtain ⟨last, rfl⟩ : ∃ last, chunk = last + 1 := ⟨chunk - 1, by omega⟩
  rw [endsWithNewline_succ, putBytes, if_pos (by omega), Nat.sub_zero, Nat.add_sub_cancel,
    Nat.mod_eq_of_lt (by omega)]

/-- Every chunk is a start of the file. -/
theorem catLoop_eq {fs : FileSystem} (layout : fs.Layout) (reliable : fs.Reliable)
    {start : Nat} {clusters : List Nat} (links : fs.Links start clusters) {data : Buffer}
    {size : Nat} (holds : fs.HoldsData data clusters size) {remaining : Nat}
    (inside : remaining ≤ size) (buffer : Buffer) (before : Bool) :
    fs.catLoop start remaining buffer before =
      ((List.range remaining).map (fun i => printByte (data (i % chunkSize))),
        if 0 < remaining then data ((remaining - 1) % chunkSize) == newline else before) := by
  induction remaining using Nat.strongRecOn generalizing buffer before with
  | ind remaining ih =>
    rw [catLoop]
    by_cases some : 0 < remaining
    · rw [if_pos some, if_pos some]
      have whole : 0 < chunkSize := by decide
      generalize length : (if remaining < chunkSize then remaining else chunkSize) = chunk
      have bound : 0 < chunk ∧ chunk ≤ remaining ∧ chunk ≤ chunkSize ∧
          (chunk < chunkSize → chunk = remaining) := by
        split at length <;> omega
      obtain ⟨positive, within, short, last⟩ := bound
      have here : fs.HoldsData data clusters chunk := by
        have fewer := @HoldsData.mono fs data clusters [] size chunk holds (by omega)
        rwa [List.append_nil] at fewer
      dsimp only
      rw [layout.readFile_eq reliable links here buffer, ih _ (by omega) (by omega),
        printBytes_chunk buffer data short, endsWithNewline_chunk buffer data positive short]
      -- Something is left only behind a whole chunk, so that the next one starts there.
      have split : remaining = chunk + (remaining - chunk) := by omega
      refine Prod.ext ?_ ?_
      · dsimp only
        conv_rhs => rw [split, List.range_add, List.map_append, List.map_map]
        congr 1
        refine List.map_congr_left fun i member => ?_
        have small := List.mem_range.mp member
        have full : chunk = chunkSize := by omega
        simp [full]
      · dsimp only
        split
        · next left =>
          have full : chunk = chunkSize := by omega
          have index : remaining - 1 = (remaining - chunk - 1) + chunkSize := by omega
          rw [index, Nat.add_mod_right]
        · next none =>
          have done : chunk = remaining := by omega
          rw [done]
    · rw [if_neg some, if_neg some]
      have zero : remaining = 0 := by omega
      simp [zero]

/-- The command that prints a file does so with the bytes of its first chunk. -/
theorem cmdCat_eq {fs : FileSystem} (layout : fs.Layout) (reliable : fs.Reliable) {path : Name}
    (named : path ≠ []) {found : Found} (resolved : fs.findFile path = .ok (some found))
    (file : isDirectory found.attributes = false) (positive : 0 < found.size)
    {clusters : List Nat} (chain : fs.Chain found.cluster clusters)
    (covered : found.size ≤ fs.clusterSize * clusters.length) (memory : Buffer) :
    fs.cmdCat (some path) memory = .ok (.characters
      (shownFile (fun i => fs.chainBytes clusters (i % chunkSize)) found.size)) := by
  obtain ⟨first, rest, rfl⟩ := List.exists_cons_of_ne_nil named
  unfold cmdCat
  simp only [resolved, Run.ok_bind, file, positive.ne', Bool.false_eq_true, if_false,
    catLoop_eq layout reliable (chain.links layout) (layout.holdsData_chain covered) (le_refl _),
    if_pos positive, shownFile, beq_iff_eq]
  split <;> simp [pure, Except.pure]

/-- The bytes of the first chunk are shown as the whole file just when the others are like them. -/
theorem shownFile_mod_iff (data : Buffer) {size : Nat} (positive : 0 < size) :
    shownFile (fun i => data (i % chunkSize)) size = shownFile data size ↔
      ∀ i < size, printByte (data i) = printByte (data (i % chunkSize)) := by
  unfold shownFile
  constructor
  · intro same i inside
    have front := (List.append_inj same (by simp)).1
    exact (List.map_inj_left.mp front i (List.mem_range.mpr inside)).symm
  · intro same
    have last : (data ((size - 1) % chunkSize) = newline) = (data (size - 1) = newline) := by
      rw [← printByte_eq_newline, ← same (size - 1) (by omega), printByte_eq_newline]
    congr 1
    · exact List.map_congr_left fun i member => (same i (List.mem_range.mp member)).symm
    · simp only [last]

/--
Printing a file prints its bytes just when every byte is printed as the one at the same place in
the first chunk.

In particular this is so for a file of one chunk.
-/
theorem cmdCat_iff {fs : FileSystem} (layout : fs.Layout) (reliable : fs.Reliable) {path : Name}
    (named : path ≠ []) {found : Found} (resolved : fs.findFile path = .ok (some found))
    (file : isDirectory found.attributes = false) (positive : 0 < found.size)
    {clusters : List Nat} (chain : fs.Chain found.cluster clusters)
    (covered : found.size ≤ fs.clusterSize * clusters.length) (memory : Buffer) :
    fs.cmdCat (some path) memory =
        .ok (.characters (shownFile (fs.chainBytes clusters) found.size)) ↔
      ∀ i < found.size, printByte (fs.chainBytes clusters i) =
        printByte (fs.chainBytes clusters (i % chunkSize)) := by
  rw [cmdCat_eq layout reliable named resolved file positive chain covered memory,
    ← shownFile_mod_iff _ positive]
  simp [Printed.characters]

/-- A volume with a file of so many bytes in the clusters 3 to 11, the last one of another kind. -/
def longFile (size : Nat) : FileSystem :=
  smallVolume (putWord (withEntry 2 0 [0x61] 0x20 3 <| withLink 2 endMark <| withLink 3 4 <|
    withLink 4 5 <| withLink 5 6 <| withLink 6 7 <| withLink 7 8 <| withLink 8 9 <|
    withLink 9 10 <| withLink 10 11 <| withLink 11 endMark fun offset =>
      if offset = 512 * 11 then ascii 'b' else 0) (512 * 2 + 28) size) 2

/-- The clusters of the file. -/
def longClusters : List Nat := [3, 4, 5, 6, 7, 8, 9, 10, 11]

/-- The file's chain, for a file of one byte and one of a chunk and a byte. -/
theorem longFile_chain {size : Nat} (is : size = 1 ∨ size = 4097) :
    (longFile size).Chain 3 longClusters := by
  have bounds : ∀ cluster ∈ longClusters, 2 ≤ cluster ∧ cluster < 20 := by decide
  have last : endMark ≤ (longFile size).readFatEntry 11 := by
    obtain rfl | rfl := is <;> decide +kernel
  have next : ∀ cluster ∈ [3, 4, 5, 6, 7, 8, 9, 10],
      (longFile size).readFatEntry cluster = cluster + 1 := by
    obtain rfl | rfl := is <;> decide +kernel
  refine ⟨⟨next 3 ?_, next 4 ?_, next 5 ?_, next 6 ?_, next 7 ?_, next 8 ?_, next 9 ?_,
    next 10 ?_, last⟩, rfl, by decide, fun cluster member => bounds cluster member⟩
  all_goals decide

/-- Of a file of one byte that byte is printed. -/
theorem cmdCat_iff_one_byte :
    (longFile 1).cmdCat (some [0x61]) (fun _ => 0) =
      .ok (.characters (shownFile ((longFile 1).chainBytes longClusters) 1)) :=
  (@cmdCat_iff (longFile 1) (smallVolume_layout _ _) (smallVolume_reliable _ _) [0x61] (by decide)
    ⟨3, 1, 0x20, some (2, 0)⟩ (by decide +kernel) (by decide) (by decide) longClusters
    (longFile_chain (Or.inl rfl)) (by decide) fun _ => 0).mpr fun i small => by
      obtain rfl : i = 0 := Nat.lt_one_iff.mp small
      rfl

/-- The first byte behind a chunk is printed as the first one of the file. -/
theorem cmdCat_repeats_chunk :
    ¬ ∀ (fs : FileSystem) (path : Name) (found : Found) (clusters : List Nat) (memory : Buffer),
      fs.Layout → fs.Reliable → path ≠ [] → fs.findFile path = .ok (some found) →
      isDirectory found.attributes = false → 0 < found.size → fs.Chain found.cluster clusters →
      found.size ≤ fs.clusterSize * clusters.length →
      fs.cmdCat (some path) memory =
        .ok (.characters (shownFile (fs.chainBytes clusters) found.size)) := by
  intro prints
  have resolved : (longFile 4097).findFile [0x61] = .ok (some ⟨3, 4097, 0x20, some (2, 0)⟩) := by
    decide +kernel
  have layout : (longFile 4097).Layout := smallVolume_layout _ _
  have reliable : (longFile 4097).Reliable := smallVolume_reliable _ _
  have here := prints (longFile 4097) [0x61] _ longClusters (fun _ => 0) layout reliable
    (by decide) resolved (by decide) (by decide) (longFile_chain (Or.inr rfl)) (by decide)
  rw [cmdCat_eq layout reliable (by decide) resolved (by decide) (by decide)
    (longFile_chain (Or.inr rfl)) (by decide)] at here
  simp only [Printed.characters, Except.ok.injEq, Printed.mk.injEq, and_true,
    shownFile_mod_iff _ (by decide : 0 < 4097)] at here
  exact absurd (here 4096 (by decide)) (by decide +kernel)

end FileSystem

end Pocky
