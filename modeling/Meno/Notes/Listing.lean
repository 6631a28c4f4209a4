import Meno.Notes.Dto
import Meno.Shared.Repository

/-!
# Meno.Notes.Listing

`get_notes` and `get_folders`: the pages of a user's notes and folders, newest first.
-/

namespace Meno

open Lib Lib.Sql Lib.Text

structure NotesQuery where
  folderId : Option Uuid
  pinned : Option Bool
  keywords : Option String
  pagination : CursorParams

structure FoldersQuery where
  pinned : Option Bool
  keywords : Option String
  pagination : CursorParams

namespace NotesRepository

-- `t` reads and writes cursors; `search` is PostgreSQL's full text search, of a query in a text.
variable (t : CursorText) (search : String → String → Bool)

def notesWhere (creatorId : Uuid) (query : NotesQuery) : Select Note SqlValue :=
  let qb : Select Note SqlValue := { conditions := [fun n => some (n.creatorId == creatorId)] }
  let qb := qb.and fun n => some n.deletedAt.isNone
  let qb := qb.andIf query.folderId fun fid n => n.fields.folderId.map (· == fid)
  let qb := qb.andIf query.pinned fun p n => some (n.fields.pinned == p)
  qb.andIf query.keywords fun kw n =>
    some (search (trim kw) (n.fields.title ++ " " ++ n.fields.content))

def notesSelect (creatorId : Uuid) (query : NotesQuery) (cursorTs : Option OffsetDateTime)
    (cursorId : Option Uuid) : Select Note SqlValue :=
  let createdAt := fun n : Note => some (.timestamptz n.createdAt)
  let id := fun n : Note => some (.uuid n.id)
  let qb := notesWhere search creatorId query
  let qb := pushCursorCondition qb createdAt id cursorTs cursorId .desc
  pushOrderAndLimit qb createdAt id .desc query.pagination.limitPlusOne

def findNotes (db : NotesDb) (creatorId : Uuid) (query : NotesQuery) :
    Except ListError (List Note) := do
  let (cursorTs, cursorId) ← timestampCursor t query.pagination.cursor
  fetchAll (notesSelect search creatorId query cursorTs cursorId) query.keywords db.notes.rows

def foldersWhere (creatorId : Uuid) (query : FoldersQuery) : Select Folder SqlValue :=
  let qb : Select Folder SqlValue := { conditions := [fun f => some (f.creatorId == creatorId)] }
  let qb := qb.and fun f => some f.deletedAt.isNone
  let qb := qb.andIf query.pinned fun p f => some (f.fields.pinned == p)
  qb.andIf query.keywords fun kw f => some (search (trim kw) f.fields.title)

def foldersSelect (creatorId : Uuid) (query : FoldersQuery) (cursorTs : Option OffsetDateTime)
    (cursorId : Option Uuid) : Select Folder SqlValue :=
  let createdAt := fun f : Folder => some (.timestamptz f.createdAt)
  let id := fun f : Folder => some (.uuid f.id)
  let qb := foldersWhere search creatorId query
  let qb := pushCursorCondition qb createdAt id cursorTs cursorId .desc
  pushOrderAndLimit qb createdAt id .desc query.pagination.limitPlusOne

def findFolders (db : NotesDb) (creatorId : Uuid) (query : FoldersQuery) :
    Except ListError (List Folder) := do
  let (cursorTs, cursorId) ← timestampCursor t query.pagination.cursor
  fetchAll (foldersSelect search creatorId query cursorTs cursorId) query.keywords db.folders.rows

end NotesRepository

namespace NotesService

variable (t : CursorText) (search : String → String → Bool)

def getNotes (db : NotesDb) (creatorId : Uuid) (query : NotesQuery) :
    Except ListError (CursorPage NoteDto) := do
  let rows ← NotesRepository.findNotes t search db creatorId query
  return .fromRows (rows.map Dto.ofRow) query.pagination.pageLimit fun n =>
    .fromTimestampId t n.createdAt n.id

def getFolders (db : NotesDb) (creatorId : Uuid) (query : FoldersQuery) :
    Except ListError (CursorPage FolderDto) := do
  let rows ← NotesRepository.findFolders t search db creatorId query
  return .fromRows (rows.map Dto.ofRow) query.pagination.pageLimit fun f =>
    .fromTimestampId t f.createdAt f.id

end NotesService

/-! ## Walks -/

/-- The same request from the position `c` on. -/
def NotesQuery.resume (query : NotesQuery) (c : Option Cursor) : NotesQuery :=
  { query with pagination := query.pagination.resume c }

def FoldersQuery.resume (query : FoldersQuery) (c : Option Cursor) : FoldersQuery :=
  { query with pagination := query.pagination.resume c }

/-- The notes that a request is about. -/
def NotesQuery.wants (search : String → String → Bool) (query : NotesQuery) (creatorId : Uuid)
    (n : Note) : Bool :=
  n.creatorId == creatorId && n.deletedAt.isNone &&
    query.folderId.all (fun fid => n.fields.folderId == some fid) &&
    query.pinned.all (fun p => n.fields.pinned == p) &&
    query.keywords.all fun kw =>
      search (trim kw) (n.fields.title ++ " " ++ n.fields.content)

def FoldersQuery.wants (search : String → String → Bool) (query : FoldersQuery) (creatorId : Uuid)
    (f : Folder) : Bool :=
  f.creatorId == creatorId && f.deletedAt.isNone &&
    query.pinned.all (fun p => f.fields.pinned == p) &&
    query.keywords.all fun kw => search (trim kw) f.fields.title

section

variable {t : CursorText} {search : String → String → Bool} {db : NotesDb}

theorem matching_notesWhere (creatorId : Uuid) (query : NotesQuery) :
    (NotesRepository.notesWhere search creatorId query).matching = query.wants search creatorId := by
  funext n
  unfold NotesRepository.notesWhere NotesQuery.wants
  cases hf : n.fields.folderId <;> simp [hf]

theorem matching_foldersWhere (creatorId : Uuid) (query : FoldersQuery) :
    (NotesRepository.foldersWhere search creatorId query).matching =
      query.wants search creatorId := by
  funext f
  unfold NotesRepository.foldersWhere FoldersQuery.wants
  simp

theorem getNotes_resume (query : NotesQuery) (creatorId : Uuid) (c : Option Cursor) :
    NotesService.getNotes t search db creatorId (query.resume c) =
      timestampPage t (NotesRepository.notesSelect search creatorId query) query.keywords
        db.notes.rows query.pagination.pageLimit Dto.ofRow Dto.createdAt Dto.id c := by
  simp only [NotesService.getNotes, NotesRepository.findNotes, NotesQuery.resume,
    CursorParams.cursor_resume, CursorParams.pageLimit_resume, timestampPage, bind_assoc]
  rfl

theorem getFolders_resume (query : FoldersQuery) (creatorId : Uuid) (c : Option Cursor) :
    NotesService.getFolders t search db creatorId (query.resume c) =
      timestampPage t (NotesRepository.foldersSelect search creatorId query) query.keywords
        db.folders.rows query.pagination.pageLimit Dto.ofRow Dto.createdAt Dto.id c := by
  simp only [NotesService.getFolders, NotesRepository.findFolders, FoldersQuery.resume,
    CursorParams.cursor_resume, CursorParams.pageLimit_resume, timestampPage, bind_assoc]
  rfl

theorem notes_walk {query : NotesQuery} (hkw : query.keywords.all storable = true)
    (htimes : ∀ n ∈ db.notes.rows, representable n.createdAt = true) (creatorId : Uuid) :
    ∃ items, Walk (fun _ c => NotesService.getNotes t search db creatorId (query.resume c)) 0 none
        items ∧
      items.Perm ((db.notes.rows.filter (query.wants search creatorId)).map Dto.ofRow) ∧
      items.Pairwise (newerFirst Dto.createdAt Dto.id) := by
  have hpos := query.pagination.pageLimit_pos
  have hlists := listsByTime_push (NotesRepository.notesWhere search creatorId query)
    (by simp [NotesRepository.notesWhere]) hpos.le Row.createdAt Row.id
  rw [matching_notesWhere] at hlists
  simp only [getNotes_resume]
  exact timestamp_walk hlists hkw (by omega) (db.notes.nodup.sublist (List.filter_sublist.map _))
    htimes fun _ _ => ⟨rfl, rfl⟩

theorem folders_walk {query : FoldersQuery} (hkw : query.keywords.all storable = true)
    (htimes : ∀ f ∈ db.folders.rows, representable f.createdAt = true) (creatorId : Uuid) :
    ∃ items, Walk (fun _ c => NotesService.getFolders t search db creatorId (query.resume c)) 0 none
        items ∧
      items.Perm ((db.folders.rows.filter (query.wants search creatorId)).map Dto.ofRow) ∧
      items.Pairwise (newerFirst Dto.createdAt Dto.id) := by
  have hpos := query.pagination.pageLimit_pos
  have hlists := listsByTime_push (NotesRepository.foldersWhere search creatorId query)
    (by simp [NotesRepository.foldersWhere]) hpos.le Row.createdAt Row.id
  rw [matching_foldersWhere] at hlists
  simp only [getFolders_resume]
  exact timestamp_walk hlists hkw (by omega) (db.folders.nodup.sublist (List.filter_sublist.map _))
    htimes fun _ _ => ⟨rfl, rfl⟩

end

end Meno
