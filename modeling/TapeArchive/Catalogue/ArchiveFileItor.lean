/-
  **LISTING ARCHIVE FILES** (`RdbmsCatalogueGetArchiveFilesItor.cpp`,
  `ArchiveFileBuilder.hpp`).

  The rows of a query, one for each copy of a file, are put together to files. A
  file is complete when the row of another one comes, which then is under
  construction while the first one is given out.
-/
import TapeArchive.Catalogue.Tables

namespace TapeArchive.Catalogue

open List

/-! ## The iterator -/

/-- `ArchiveFileBuilder::append`: the file that is complete now, and the one under construction. -/
def ArchiveFileBuilder.append (m_archiveFile : Option ArchiveFile) (row : ArchiveFile) :
    Option (Option ArchiveFile × Option ArchiveFile) :=
  match m_archiveFile with
  | none =>
    if row.tapeFiles.isEmpty then some (some row, none)
    else if row.tapeFiles.length ≠ 1 then none
    else some (none, some row)
  | some file =>
    if row.tapeFiles.isEmpty then some (some file, some row)
    else if row.archiveFileID = file.archiveFileID then
      if row.tapeFiles.length ≠ 1 then none
      else some (none, some { file with tapeFiles := file.tapeFiles ++ row.tapeFiles.take 1 })
    else some (some file, some row)

/-- `RdbmsCatalogueGetArchiveFilesItor`; there are rows left unless `m_rsetIsEmpty`. -/
structure ArchiveFileItor where
  m_rset : List ArchiveFile
  m_archiveFile : Option ArchiveFile := none
  m_hasMoreHasBeenCalled : Bool := false

namespace ArchiveFileItor

def hasMore (itor : ArchiveFileItor) : Bool × ArchiveFileItor :=
  (!itor.m_rset.isEmpty || itor.m_archiveFile.isSome, { itor with m_hasMoreHasBeenCalled := true })

/-- The file under construction is given out, if there is one. -/
def takeArchiveFile (m_archiveFile : Option ArchiveFile) : Option (ArchiveFile × ArchiveFileItor) :=
  m_archiveFile.map fun file => (file, { m_rset := [] })

/-- The loop of `next` over the rows. -/
def nextLoop : List ArchiveFile → Option ArchiveFile → Option (ArchiveFile × ArchiveFileItor)
  | [], m_archiveFile => takeArchiveFile m_archiveFile
  | row :: m_rset, m_archiveFile => do
    let (complete, m_archiveFile) ← ArchiveFileBuilder.append m_archiveFile row
    match complete with
    | some file => some (file, { m_rset, m_archiveFile })
    | none => nextLoop m_rset m_archiveFile

/-- `next`; an exception is `none`. -/
def next (itor : ArchiveFileItor) : Option (ArchiveFile × ArchiveFileItor) :=
  if !itor.m_hasMoreHasBeenCalled then none else nextLoop itor.m_rset itor.m_archiveFile

/-- `hasMore` and `next` in turn, at most `turns` times. -/
def list : Nat → ArchiveFileItor → Option (List ArchiveFile)
  | 0, itor => if itor.hasMore.1 then none else some []
  | turns + 1, itor =>
    if itor.hasMore.1 then do
      let (file, itor) ← itor.hasMore.2.next
      let files ← itor.list turns
      some (file :: files)
    else some []

/-! ## The listing -/

/-- The rows of a file. -/
def rowsOf (file : ArchiveFile) : List ArchiveFile :=
  if file.tapeFiles.isEmpty then [file]
  else file.tapeFiles.map fun tapeFile => { file with tapeFiles := [tapeFile] }

/-- The files that are left to list, from the one under construction and the rows. -/
inductive Lists : List ArchiveFile → Option ArchiveFile → List ArchiveFile → Prop where
  | idle (files) : Lists (files.flatMap rowsOf) none files
  | building (file tapeFiles files) :
      Lists (tapeFiles.map (fun t => { file with tapeFiles := [t] }) ++ files.flatMap rowsOf)
        (some file) ({ file with tapeFiles := file.tapeFiles ++ tapeFiles } :: files)

/-- The next file is given out, and the others are left. -/
def Gives (result : Option (ArchiveFile × ArchiveFileItor)) (file : ArchiveFile)
    (files : List ArchiveFile) : Prop :=
  ∃ itor, result = some (file, itor) ∧ Lists itor.m_rset itor.m_archiveFile files

variable {file : ArchiveFile} {files : List ArchiveFile}

theorem nextLoop_complete (hne : file.archiveFileID ∉ files.map (·.archiveFileID)) :
    Gives (nextLoop (files.flatMap rowsOf) (some file)) file files := by
  cases files with
  | nil => exact ⟨_, rfl, .idle []⟩
  | cons g files =>
    have hid : g.archiveFileID ≠ file.archiveFileID := fun heq => hne (by simp [heq])
    cases hg : g.tapeFiles with
    | nil =>
      refine ⟨⟨files.flatMap rowsOf, some g, false⟩, ?_, ?_⟩
      · simp [rowsOf, nextLoop, ArchiveFileBuilder.append, hg]
      · simpa using Lists.building g [] files
    | cons t ts =>
      refine ⟨⟨ts.map (fun t => { g with tapeFiles := [t] }) ++ files.flatMap rowsOf,
        some { g with tapeFiles := [t] }, false⟩, ?_, ?_⟩
      · simp [rowsOf, nextLoop, ArchiveFileBuilder.append, hg, hid]
      · simpa [← hg] using Lists.building { g with tapeFiles := [t] } ts files

theorem nextLoop_building (hne : file.archiveFileID ∉ files.map (·.archiveFileID))
    (tapeFiles : List TapeFile) :
    Gives (nextLoop (tapeFiles.map (fun t => { file with tapeFiles := [t] })
      ++ files.flatMap rowsOf) (some file))
      { file with tapeFiles := file.tapeFiles ++ tapeFiles } files := by
  induction tapeFiles generalizing file with
  | nil => simpa using nextLoop_complete hne
  | cons t ts ih =>
    have h := @ih { file with tapeFiles := file.tapeFiles ++ [t] } hne
    simpa [nextLoop, ArchiveFileBuilder.append] using h

theorem Lists.nextLoop {m_rset : List ArchiveFile} {m_archiveFile : Option ArchiveFile}
    (h : Lists m_rset m_archiveFile (file :: files))
    (hne : file.archiveFileID ∉ files.map (·.archiveFileID)) :
    Gives (ArchiveFileItor.nextLoop m_rset m_archiveFile) file files := by
  cases h with
  | building f tapeFiles => exact @nextLoop_building f files hne tapeFiles
  | idle =>
    cases hf : file.tapeFiles with
    | nil =>
      refine ⟨⟨files.flatMap rowsOf, none, false⟩, ?_, .idle files⟩
      simp [rowsOf, ArchiveFileItor.nextLoop, ArchiveFileBuilder.append, hf]
    | cons t ts =>
      have hfu : { file with tapeFiles := t :: ts } = file := by rw [← hf]
      have h := @nextLoop_building { file with tapeFiles := [t] } files hne ts
      simpa [rowsOf, ArchiveFileItor.nextLoop, ArchiveFileBuilder.append, hf, hfu] using h

theorem Lists.hasMore {itor : ArchiveFileItor} (h : Lists itor.m_rset itor.m_archiveFile files) :
    itor.hasMore.1 = !files.isEmpty := by
  unfold ArchiveFileItor.hasMore
  generalize itor.m_rset = m_rset, itor.m_archiveFile = m_archiveFile at h
  cases h with
  | building => simp
  | idle =>
    cases files with
    | nil => rfl
    | cons file files =>
      cases hf : file.tapeFiles <;> simp [rowsOf, hf]

theorem list_eq (hd : (files.map (·.archiveFileID)).Nodup) : ∀ {itor : ArchiveFileItor},
    Lists itor.m_rset itor.m_archiveFile files → itor.list files.length = some files := by
  induction files with
  | nil =>
    intro itor h
    simp [list, h.hasMore]
  | cons file files ih =>
    intro itor h
    obtain ⟨hne, hrest⟩ := nodup_cons.mp hd
    obtain ⟨itor', hnext, h'⟩ := h.nextLoop hne
    have hf := ih hrest h'
    have hm := h.hasMore
    simp only [length_cons, list, hm, isEmpty_cons, Bool.not_false, if_true]
    have htu : itor.hasMore.2.next = some (file, itor') := hnext
    rw [htu]
    simp [hf]

/-- **EVERY FILE IS LISTED ONCE, WITH ITS COPIES**, and `next` never throws. -/
theorem listing_complete (files : List ArchiveFile)
    (hdistinct : (files.map (·.archiveFileID)).Nodup) :
    list files.length { m_rset := files.flatMap rowsOf } = some files :=
  list_eq hdistinct (.idle files)

/-- A file with copies of these numbers. -/
def fileOf (archiveFileID : UInt64) (copyNbs : List UInt8) : ArchiveFile :=
  ⟨archiveFileID, "", "", 1, ⟨[]⟩, "", ⟨"", 0, 0⟩, copyNbs.map (⟨"V00001", 1, 0, 1, ·, 0⟩), 0, 0⟩

theorem two_files_listed : list 2 { m_rset := [fileOf 1 [], fileOf 2 [1], fileOf 2 [2]] }
      = some [fileOf 1 [], fileOf 2 [1, 2]] :=
  listing_complete [fileOf 1 [], fileOf 2 [1, 2]] (by decide)

end ArchiveFileItor

end TapeArchive.Catalogue
