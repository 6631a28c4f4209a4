import Meno.Lib.Txn
import Meno.Notes.Dto
import Mathlib.Data.List.Sort
import Mathlib.Data.Prod.Lex

/-!
# Meno.Notes.Repository

The SQL statements of `NotesRepository`, one definition a statement. Each gives the statement's
answer and its row writes on a database, or the error PostgreSQL reports. Where the two tables
have the same statement, it is one definition with the entity type as an argument.

Common to all: `INSERT` takes the column defaults (`version` 1, both stamps `NOW()`), `NOW()` is
the start of the enclosing transaction, and the trigger `update_updated_at_column` stamps every
updated row with it.
-/

namespace Meno

/-- A statement's answer with its row writes. -/
abbrev Written (β : Type) := β × List Write

/-! ## Inputs -/

structure CreateNoteInput where
  id : Uuid
  title : String
  content : String
  pinned : Bool
  folderId : Option Uuid
  creatorId : Uuid

structure CreateFolderInput where
  id : Uuid
  title : String
  pinned : Option Bool
  creatorId : Uuid

structure UpdateNoteInput where
  title : Option String
  content : Option String
  pinned : Option Bool
  folderId : Option Uuid
  noteId : Uuid
  creatorId : Uuid
  baseVersion : Int

structure UpdateFolderInput where
  title : Option String
  pinned : Option Bool
  folderId : Uuid
  creatorId : Uuid
  baseVersion : Int

/-- `NoteSnapshotInput` and `FolderSnapshotInput`: full replacement, used only by sync. -/
structure Snapshot (F : Type) where
  fields : F
  deleted : Bool
deriving DecidableEq

/-! ## Column constraints -/

/-- Binding the text parameters of a full set of fields. -/
def EntityType.bindFields : (k : EntityType) → k.Fields → Except DbError Unit
  | .note, f => do bindText f.title; bindText f.content
  | .folder, f => bindText f.title

/-- The foreign key of `notes.folder_id`: the folder row exists, whoever owns it. -/
def NotesDb.checkFolder (db : NotesDb) : Option Uuid → Except DbError Unit
  | none => .ok ()
  | some f => if (db.get .folder f).isSome then .ok () else .error .foreignKeyViolation

/-- What is stored when a full set of fields is assigned to a row's columns. -/
def EntityType.storeFields : (k : EntityType) → k.Fields → Except DbError k.Fields
  | .note, f => do
    let title ← varchar 100 f.title
    let content ← varchar 10000 f.content
    return { f with title, content }
  | .folder, f => do
    let title ← varchar 100 f.title
    return { f with title }

/-- The references of a row that holds the fields. -/
def NotesDb.checkRefs (db : NotesDb) : (k : EntityType) → k.Fields → Except DbError Unit
  | .note, f => db.checkFolder f.folderId
  | .folder, _ => .ok ()

/-! ## INSERT -/

/-- The row an `INSERT` stores: the given columns and the defaults of the others. -/
def newRow {F : Type} (now : OffsetDateTime) (id creatorId : Uuid) (fields : F) : Row F :=
  { id, fields, creatorId, version := 1, createdAt := now, updatedAt := now, deletedAt := none }

def insertRow (db : NotesDb) (now : OffsetDateTime) (k : EntityType) (id creatorId : Uuid)
    (fields : k.Fields) : Except DbError (Written (Row k.Fields)) := do
  k.bindFields fields
  let fields ← k.storeFields fields
  if (db.get k id).isSome then throw .uniqueViolation
  db.checkRefs k fields
  let row := newRow now id creatorId fields
  return (row, [.put k row none])

def createNote (db : NotesDb) (now : OffsetDateTime) (input : CreateNoteInput) : Except DbError
    (Written Note) :=
  insertRow db now .note input.id input.creatorId
    { title := input.title, content := input.content, pinned := input.pinned,
      folderId := input.folderId }

/-- `pinned` is bound even when it is `NULL`, and the column is `NOT NULL`: its default does not
apply to a value that is given. -/
def createFolder (db : NotesDb) (now : OffsetDateTime) (input : CreateFolderInput) :
    Except DbError (Written Folder) :=
  match input.pinned with
  | none => .error .notNullViolation
  | some pinned =>
    insertRow db now .folder input.id input.creatorId { title := input.title, pinned }

/-- `INSERT .. ON CONFLICT (id) DO NOTHING`. -/
def upsertIfAbsent (db : NotesDb) (now : OffsetDateTime) (k : EntityType) (id creatorId : Uuid)
    (snapshot : Snapshot k.Fields) : Except DbError (Written (Option (Row k.Fields))) := do
  k.bindFields snapshot.fields
  let fields ← k.storeFields snapshot.fields
  if (db.get k id).isSome then return (none, [])
  db.checkRefs k fields
  let row := newRow now id creatorId fields
  return (some row, [.put k row none])

/-! ## UPDATE of one row -/

/-- `UPDATE .. SET .. WHERE id = $id AND cond RETURNING *`. -/
def updateRow (db : NotesDb) (k : EntityType) (id : Uuid) (guard : Option Int)
    (cond : Row k.Fields → Bool) (set : Row k.Fields → Except DbError (Row k.Fields)) :
    Except DbError (Written (Option (Row k.Fields))) :=
  match db.get k id with
  | none => .ok (none, [])
  | some r =>
    if cond r then do
      let row ← set r
      return (some row, [.put k row guard])
    else .ok (none, [])

def updateNoteByVersion (db : NotesDb) (now : OffsetDateTime) (input : UpdateNoteInput) :
    Except DbError (Written (Option Note)) := do
  bindTextOpt input.title
  bindTextOpt input.content
  updateRow db .note input.noteId (some input.baseVersion)
    (fun r => r.creatorId == input.creatorId && r.version == input.baseVersion &&
      r.deletedAt.isNone)
    fun r => do
      let fields ← EntityType.note.storeFields {
        title := input.title.getD r.fields.title
        content := input.content.getD r.fields.content
        pinned := input.pinned.getD r.fields.pinned
        folderId := input.folderId }
      db.checkFolder input.folderId
      let version ← intSucc r.version
      return { r with fields, version, updatedAt := now }

def updateFolderByVersion (db : NotesDb) (now : OffsetDateTime) (input : UpdateFolderInput) :
    Except DbError (Written (Option Folder)) := do
  bindTextOpt input.title
  updateRow db .folder input.folderId (some input.baseVersion)
    (fun r => r.creatorId == input.creatorId && r.version == input.baseVersion &&
      r.deletedAt.isNone)
    fun r => do
      let fields ← EntityType.folder.storeFields {
        title := input.title.getD r.fields.title
        pinned := input.pinned.getD r.fields.pinned }
      let version ← intSucc r.version
      return { r with fields, version, updatedAt := now }

/-- `soft_delete_note` and `soft_delete_folder`. -/
def softDelete (db : NotesDb) (now : OffsetDateTime) (k : EntityType) (id creatorId : Uuid)
    (baseVersion : Int) : Except DbError (Written (Option (Row k.Fields))) :=
  updateRow db k id (some baseVersion)
    (fun r => r.creatorId == creatorId && r.version == baseVersion && r.deletedAt.isNone)
    fun r => do
      let version ← intSucc r.version
      return { r with deletedAt := some now, version, updatedAt := now }

def addNoteToFolder (db : NotesDb) (now : OffsetDateTime) (creatorId noteId folderId : Uuid) :
    Except DbError (Written (Option Note)) :=
  updateRow db .note noteId none
    (fun r => r.creatorId == creatorId && r.deletedAt.isNone)
    fun r => do
      db.checkFolder (some folderId)
      let version ← intSucc r.version
      return { r with fields := { r.fields with folderId := some folderId }, version,
                      updatedAt := now }

def removeNoteFromFolder (db : NotesDb) (now : OffsetDateTime)
    (creatorId noteId folderId : Uuid) : Except DbError (Written (Option Note)) :=
  updateRow db .note noteId none
    (fun r => r.creatorId == creatorId && r.fields.folderId == some folderId &&
      r.deletedAt.isNone)
    fun r => do
      let version ← intSucc r.version
      return { r with fields := { r.fields with folderId := none }, version, updatedAt := now }

/-- The assignments that the two snapshot statements share: no `COALESCE`, and `deleted_at` moves
in either direction. -/
def setSnapshot (db : NotesDb) (now : OffsetDateTime) (k : EntityType)
    (snapshot : Snapshot k.Fields) (r : Row k.Fields) : Except DbError (Row k.Fields) := do
  let fields ← k.storeFields snapshot.fields
  db.checkRefs k fields
  let version ← intSucc r.version
  return { r with
    fields
    deletedAt := if snapshot.deleted then some (r.deletedAt.getD now) else none
    version
    updatedAt := now }

/-- The version is the only check; a tombstone matches like any other row. -/
def applySnapshotIfVersionMatches (db : NotesDb) (now : OffsetDateTime) (k : EntityType)
    (id creatorId : Uuid) (baseVersion : Int) (snapshot : Snapshot k.Fields) :
    Except DbError (Written (Option (Row k.Fields))) := do
  k.bindFields snapshot.fields
  updateRow db k id (some baseVersion)
    (fun r => r.creatorId == creatorId && r.version == baseVersion) (setSnapshot db now k snapshot)

/-- Read with `fetch_one`: no row is an error. -/
def forceApplySnapshot (db : NotesDb) (now : OffsetDateTime) (k : EntityType)
    (id creatorId : Uuid) (snapshot : Snapshot k.Fields) : Except DbError (Written (Row k.Fields)) := do
  k.bindFields snapshot.fields
  match ← updateRow db k id none (fun r => r.creatorId == creatorId)
    (setSnapshot db now k snapshot) with
  | (some row, ws) => return (row, ws)
  | (none, _) => throw .rowNotFound

/-! ## UPDATE of many rows -/

/-- `SET folder_id = $1, version = version + 1, updated_at = NOW()` on every row of `rows`. -/
def refile (db : NotesDb) (now : OffsetDateTime) (folderId : Option Uuid) :
    List Note → Except DbError (Written (List Note))
  | [] => .ok ([], [])
  | r :: rs => do
    let version ← intSucc r.version
    db.checkFolder folderId
    let row := { r with fields := { r.fields with folderId }, version, updatedAt := now }
    let (rows, ws) ← refile db now folderId rs
    return (row :: rows, .put .note row none :: ws)

def moveNotesToFolder (db : NotesDb) (now : OffsetDateTime) (creatorId : Uuid)
    (req : MoveNotesToFolderRequest) : Except DbError (Written (List Note)) :=
  refile db now req.folderId <| db.notes.rows.filter fun r =>
    req.noteIds.contains r.id && r.creatorId == creatorId && r.deletedAt.isNone

def orphanNotesInFolder (db : NotesDb) (now : OffsetDateTime) (folderId creatorId : Uuid) :
    Except DbError (Written Nat) := do
  let (rows, ws) ← refile db now none <| db.notes.rows.filter fun r =>
    r.fields.folderId == some folderId && r.creatorId == creatorId && r.deletedAt.isNone
  return (rows.length, ws)

/-! ## SELECT -/

/-- `find_note_by_id` and `find_folder_by_id`: a live row of the caller. -/
def findById (db : NotesDb) (k : EntityType) (id creatorId : Uuid) : Option (Row k.Fields) :=
  (db.get k id).filter fun r => r.creatorId == creatorId && r.deletedAt.isNone

/-- Tombstoned folders count as owned. -/
def ownedFolderIds (db : NotesDb) (creatorId : Uuid) (candidateIds : List Uuid) : List Uuid :=
  (db.folders.rows.filter fun r => r.creatorId == creatorId && candidateIds.contains r.id).map
    Row.id

/-- The order of the sync feed, `(updated_at, id)`. -/
def Row.syncKey {F : Type} (r : Row F) : OffsetDateTime ×ₗ Uuid := toLex (r.updatedAt, r.id)

/-- The two parameters of a cursor. -/
def bindCursor : Option (OffsetDateTime × Uuid) → Except DbError (Option (OffsetDateTime × Uuid))
  | none => .ok none
  | some (ts, id) => do return some (← bindTime ts, id)

/-- `find_notes_changed_since` and `find_folders_changed_since`. -/
def findChangedSince (db : NotesDb) (k : EntityType) (creatorId : Uuid)
    (cursor : Option (OffsetDateTime × Uuid)) (limit : Int) :
    Except DbError (List (Row k.Fields)) := do
  let cursor ← bindCursor cursor
  return (((db.table k).rows.filter fun r => r.creatorId == creatorId &&
      cursor.all fun c => toLex c < r.syncKey).insertionSort
    fun r r' => r.syncKey ≤ r'.syncKey).take limit.toNat

/-! ## DELETE -/

/-- One round of `purge_batched`. Deleting a folder row makes the foreign key clear the
`folder_id` of its notes: the trigger stamps them, their version stays. -/
def purgeBatch (db : NotesDb) (now : OffsetDateTime) (k : EntityType) (cutoff : OffsetDateTime) :
    Except DbError (Written Nat) :=
  let stale := ((db.table k).rows.filter fun r => r.deletedAt.any (· < cutoff)).take 5000
  .ok (stale.length, stale.flatMap fun r =>
    .erase k r.id ::
      match k with
      | .note => []
      | .folder => (db.notes.rows.filter fun n => n.fields.folderId == some r.id).map fun n =>
          .put .note { n with fields := { n.fields with folderId := none }, updatedAt := now } none)

/-! ## The statements as calls -/

inductive NotesStmt : Type → Type where
  | createNote (input : CreateNoteInput) : NotesStmt Note
  | createFolder (input : CreateFolderInput) : NotesStmt Folder
  | updateNoteByVersion (input : UpdateNoteInput) : NotesStmt (Option Note)
  | updateFolderByVersion (input : UpdateFolderInput) : NotesStmt (Option Folder)
  | softDelete (k : EntityType) (id creatorId : Uuid) (baseVersion : Int) :
      NotesStmt (Option (Row k.Fields))
  | addNoteToFolder (creatorId noteId folderId : Uuid) : NotesStmt (Option Note)
  | removeNoteFromFolder (creatorId noteId folderId : Uuid) : NotesStmt (Option Note)
  | moveNotesToFolder (creatorId : Uuid) (req : MoveNotesToFolderRequest) : NotesStmt (List Note)
  | orphanNotesInFolder (folderId creatorId : Uuid) : NotesStmt Nat
  | upsertIfAbsent (k : EntityType) (id creatorId : Uuid) (snapshot : Snapshot k.Fields) :
      NotesStmt (Option (Row k.Fields))
  | applySnapshotIfVersionMatches (k : EntityType) (id creatorId : Uuid) (baseVersion : Int)
      (snapshot : Snapshot k.Fields) : NotesStmt (Option (Row k.Fields))
  | forceApplySnapshot (k : EntityType) (id creatorId : Uuid) (snapshot : Snapshot k.Fields) :
      NotesStmt (Row k.Fields)
  | findById (k : EntityType) (id creatorId : Uuid) : NotesStmt (Option (Row k.Fields))
  | ownedFolderIds (creatorId : Uuid) (candidateIds : List Uuid) : NotesStmt (List Uuid)
  | findChangedSince (k : EntityType) (creatorId : Uuid)
      (cursor : Option (OffsetDateTime × Uuid)) (limit : Int) : NotesStmt (List (Row k.Fields))
  | purgeBatch (k : EntityType) (cutoff : OffsetDateTime) : NotesStmt Nat

/-- An answer without writes. -/
def answerOnly {β : Type} (b : β) : Except DbError (Written β) := .ok (b, [])

def NotesStmt.exec : {β : Type} → NotesStmt β → OffsetDateTime → NotesDb → Except DbError (Written β)
  | _, .createNote input, now, db => Meno.createNote db now input
  | _, .createFolder input, now, db => Meno.createFolder db now input
  | _, .updateNoteByVersion input, now, db => Meno.updateNoteByVersion db now input
  | _, .updateFolderByVersion input, now, db => Meno.updateFolderByVersion db now input
  | _, .softDelete k id c v, now, db => Meno.softDelete db now k id c v
  | _, .addNoteToFolder c n f, now, db => Meno.addNoteToFolder db now c n f
  | _, .removeNoteFromFolder c n f, now, db => Meno.removeNoteFromFolder db now c n f
  | _, .moveNotesToFolder c req, now, db => Meno.moveNotesToFolder db now c req
  | _, .orphanNotesInFolder f c, now, db => Meno.orphanNotesInFolder db now f c
  | _, .upsertIfAbsent k id c s, now, db => Meno.upsertIfAbsent db now k id c s
  | _, .applySnapshotIfVersionMatches k id c v s, now, db =>
    Meno.applySnapshotIfVersionMatches db now k id c v s
  | _, .forceApplySnapshot k id c s, now, db => Meno.forceApplySnapshot db now k id c s
  | _, .findById k id c, _, db => answerOnly (Meno.findById db k id c)
  | _, .ownedFolderIds c ids, _, db => answerOnly (Meno.ownedFolderIds db c ids)
  | _, .findChangedSince k c cursor limit, _, db =>
    Meno.findChangedSince db k c cursor limit >>= answerOnly
  | _, .purgeBatch k cutoff, now, db => Meno.purgeBatch db now k cutoff

/-- The notes tables as a transactional store. -/
def notesEngine : Lib.Engine NotesStmt NotesDb Write OffsetDateTime DbError where
  exec := NotesStmt.exec
  apply := NotesDb.apply
  fault := .infrastructure

end Meno
