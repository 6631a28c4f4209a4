import Meno.Lib.Numbered
import Meno.Notes.Repository

/-!
# Meno.Notes.Service

The operations of `NotesService` as programs over the statements of the repository. `query .pool`
is a statement on `&self.db` (or on the repository's own pool), `query .tx` one on `&mut **tx`;
a failed statement ends the program with `NotesError::Database`, as `?` does.

The note and the folder member of a pair that differ in the entity only are one definition, with
the entity type as an argument; each member is that definition at its type.
-/

namespace Meno

open Lib

/-- An operation of the notes service. -/
abbrev NotesSvc (α : Type) := Txn NotesStmt DbError NotesError α

def query {β : Type} (e : Executor) (s : NotesStmt β) : NotesSvc β :=
  Act.ask NotesError.database (.exec e s)

def beginTx : NotesSvc Unit := Act.ask NotesError.database .begin

def commitTx : NotesSvc Unit := Act.ask NotesError.database .commit

/-- `.ok_or(error)?`. -/
def okOr {α : Type} (error : NotesError) : Option α → NotesSvc α
  | some a => pure a
  | none => throw error

/-! ## Single notes and folders -/

/-- `find_note_by_id(..).await?.ok_or(NotesError::NoteNotFound)?` and the same for folders. -/
def findOrFail (k : EntityType) (id creatorId : Uuid) : NotesSvc (Row k.Fields) := do
  okOr k.notFound (← query .pool (.findById k id creatorId))

/-- The tail of a version-guarded update: the row, or the current row as a conflict. -/
def rowOrConflict (k : EntityType) (id creatorId : Uuid) :
    Option (Row k.Fields) → NotesSvc (Dto k.Fields)
  | some row => pure (Dto.ofRow row)
  | none => do
    let current ← findOrFail k id creatorId
    throw (.versionConflict (ConflictEntity.ofRow k current))

namespace NotesService

def createNote (creatorId : Uuid) (req : CreateNoteRequest) : NotesSvc NoteDto := do
  let note ← query .pool <| .createNote {
    id := req.id, title := req.title, content := req.content, pinned := req.pinned,
    folderId := req.folderId, creatorId }
  return Dto.ofRow note

def createFolder (creatorId : Uuid) (req : CreateFolderRequest) : NotesSvc FolderDto := do
  let folder ← query .pool <| .createFolder {
    id := req.id, title := req.title, pinned := req.pinned, creatorId }
  return Dto.ofRow folder

def updateNote (id creatorId : Uuid) (req : UpdateNoteRequest) : NotesSvc NoteDto := do
  let row ← query .pool <| .updateNoteByVersion {
    title := req.title, content := req.content, pinned := req.pinned, folderId := req.folderId,
    baseVersion := req.baseVersion, noteId := id, creatorId }
  rowOrConflict .note id creatorId row

def updateFolder (id creatorId : Uuid) (req : UpdateFolderRequest) : NotesSvc FolderDto := do
  let row ← query .pool <| .updateFolderByVersion {
    title := req.title, pinned := req.pinned, folderId := id, creatorId,
    baseVersion := req.baseVersion }
  rowOrConflict .folder id creatorId row

def deleteEntity (k : EntityType) (id creatorId : Uuid) (baseVersion : Int) :
    NotesSvc (Dto k.Fields) := do
  let row ← query .pool (.softDelete k id creatorId baseVersion)
  rowOrConflict k id creatorId row

def deleteNote (id creatorId : Uuid) (baseVersion : Int) : NotesSvc NoteDto :=
  deleteEntity .note id creatorId baseVersion

/-- `should_delete_notes` of the request is never read; the notes of the folder stay filed. -/
def deleteFolder (id creatorId : Uuid) (baseVersion : Int) : NotesSvc FolderDto :=
  deleteEntity .folder id creatorId baseVersion

/-! ## Filing -/

def addNoteToFolder (creatorId noteId folderId : Uuid) : NotesSvc NoteDto := do
  let noteResult ← Act.attempt (query .pool (.findById .note noteId creatorId))
  let folderResult ← Act.attempt (query .pool (.findById .folder folderId creatorId))
  let note ← okOr .noteNotFound (← Act.ofExcept noteResult)
  let folder ← okOr .folderNotFound (← Act.ofExcept folderResult)
  if note.fields.folderId = some folderId then
    return Dto.ofRow note
  else if note.creatorId ≠ creatorId then
    throw .notNoteOwner
  else if folder.creatorId ≠ creatorId then
    throw .notFolderOwner
  else
    match ← query .pool (.addNoteToFolder creatorId noteId folderId) with
    | some n => return Dto.ofRow n
    | none => throw (.versionConflict (ConflictEntity.ofRow .note note))

def removeNoteToFolder (creatorId noteId folderId : Uuid) : NotesSvc NoteDto := do
  let note ← okOr .noteNotFound
    (← query .pool (.removeNoteFromFolder creatorId noteId folderId))
  return Dto.ofRow note

/-- The target folder of a move, if there is one, is a live folder of the caller. -/
def checkTarget (creatorId : Uuid) : Option Uuid → NotesSvc Unit
  | some folderId => do
    let _ ← findOrFail .folder folderId creatorId
  | none => pure ()

def moveNotesToFolder (creatorId : Uuid) (req : MoveNotesToFolderRequest) :
    NotesSvc (List NoteDto) := do
  if req.noteIds.isEmpty then
    return []
  else if req.noteIds.length > 200 then
    throw (.badRequest "Cannot move more than 200 notes at once")
  else
    checkTarget creatorId req.folderId
    let notes ← query .pool (.moveNotesToFolder creatorId req)
    return notes.map Dto.ofRow

/-! ## Push -/

/-- The per-item validation of a mutation: the reason it is rejected for. -/
def rejection : (k : EntityType) → k.Fields → Option String
  | .note, f =>
    if f.title.length > 100 then some "title exceeds 100 characters"
    else if f.content.length > 10000 then some "content exceeds 10,000 characters"
    else none
  | .folder, f =>
    if f.title.length > 100 then some "title exceeds 100 characters"
    else none

/-- `apply_note_mutation` and `apply_folder_mutation`. -/
def applyMutation (k : EntityType) (creatorId : Uuid) (m : Mutation k.Fields) :
    NotesSvc MutationResult := do
  if let some reason := rejection k m.fields then
    return .rejected m.id k reason
  let snapshot : Snapshot k.Fields := { fields := m.fields, deleted := m.deleted }
  match m.baseVersion with
  | none =>
    if m.deleted then
      return .appliedUnpersisted m.id k
    match ← query .tx (.upsertIfAbsent k m.id creatorId snapshot) with
    | some row => return .applied k (ConflictEntity.ofRow k row)
    | none =>
      -- id collision: the lookup runs on the pool and does not see this transaction
      let existing ← findOrFail k m.id creatorId
      if m.clientUpdatedAt > existing.updatedAt then
        let row ← query .tx (.forceApplySnapshot k m.id creatorId snapshot)
        return .applied k (ConflictEntity.ofRow k row)
      else
        return .conflict k (ConflictEntity.ofRow k existing)
  | some baseVersion =>
    match ← query .tx (.applySnapshotIfVersionMatches k m.id creatorId baseVersion snapshot) with
    | some row => return .applied k (ConflictEntity.ofRow k row)
    | none =>
      let existing ← findOrFail k m.id creatorId
      return .conflict k (ConflictEntity.ofRow k existing)

def applyNoteMutation (creatorId : Uuid) (m : NoteMutation) : NotesSvc MutationResult :=
  applyMutation .note creatorId m

def applyFolderMutation (creatorId : Uuid) (m : FolderMutation) : NotesSvc MutationResult :=
  applyMutation .folder creatorId m

/-- A loop over numbered mutations that collects numbered results. -/
def applyEach {M : Type} (f : M → NotesSvc MutationResult) :
    List (Nat × M) → NotesSvc (List (Nat × MutationResult))
  | [] => pure []
  | (idx, m) :: ms => do
    let result ← f m
    let results ← applyEach f ms
    return (idx, result) :: results

/-- The mutations of one entity type, numbered by their place in the batch. -/
def mutationsOf (k : EntityType) (mutations : List SyncMutation) : List (Nat × Mutation k.Fields) :=
  select (SyncMutation.as k) mutations

def folderMutations (mutations : List SyncMutation) : List (Nat × FolderMutation) :=
  mutationsOf .folder mutations

def noteMutations (mutations : List SyncMutation) : List (Nat × NoteMutation) :=
  mutationsOf .note mutations

/-- A note that names a folder the caller does not own is unfiled. -/
def unfile (owned : List Uuid) (nm : NoteMutation) : NoteMutation :=
  match nm.fields.folderId with
  | some fid => if owned.contains fid then nm else { nm with fields.folderId := none }
  | none => nm

def referencedFolderIds (nms : List (Nat × NoteMutation)) : List Uuid :=
  (nms.filterMap fun p => p.2.fields.folderId).dedup

/-- The ownership check: one query on the pool, none when there is nothing to ask. -/
def ownedOf (creatorId : Uuid) (referenced : List Uuid) : NotesSvc (List Uuid) :=
  if referenced.isEmpty then pure []
  else query .pool (.ownedFolderIds creatorId referenced)

def maxMutationsPerPush : Nat := 200

def syncPush (creatorId : Uuid) (mutations : List SyncMutation) :
    NotesSvc (List MutationResult) := do
  if mutations.isEmpty then
    return []
  if mutations.length > maxMutationsPerPush then
    throw (.badRequest s!"Cannot push more than {maxMutationsPerPush} mutations per request")
  beginTx
  let folderResults ← applyEach (applyFolderMutation creatorId) (folderMutations mutations)
  let referenced := referencedFolderIds (noteMutations mutations)
  let owned ← ownedOf creatorId referenced
  let noteResults ← applyEach (fun nm => applyNoteMutation creatorId (unfile owned nm))
    (noteMutations mutations)
  commitTx
  return inOrder (folderResults ++ noteResults)

/-! ## Purge -/

/-- The loop of `purge_batched`, cut off after `rounds` rounds: a run that is cut off ends like
one that loses its connection there. -/
def purgeBatched (k : EntityType) (cutoff : OffsetDateTime) : Nat → Nat → NotesSvc Nat
  | 0, _ => throw (.database .infrastructure)
  | rounds + 1, total => do
    let n ← query .pool (.purgeBatch k cutoff)
    if n < 5000 then return total + n
    else purgeBatched k cutoff rounds (total + n)

def purgeStale (cutoff : OffsetDateTime) (rounds : Nat) : NotesSvc (Nat × Nat) := do
  let notesDeleted ← purgeBatched .note cutoff rounds 0
  let foldersDeleted ← purgeBatched .folder cutoff rounds 0
  return (notesDeleted, foldersDeleted)

end NotesService

end Meno
