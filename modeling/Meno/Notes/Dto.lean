import Meno.Notes.Model

/-!
# Meno.Notes.Dto

Requests and answers of the notes endpoints, and the errors they end in.
-/

namespace Meno

/-! ## Requests -/

structure CreateNoteRequest where
  id : Uuid
  title : String
  content : String
  pinned : Bool
  folderId : Option Uuid

structure CreateFolderRequest where
  id : Uuid
  title : String
  pinned : Option Bool

structure UpdateNoteRequest where
  title : Option String
  content : Option String
  pinned : Option Bool
  folderId : Option Uuid
  baseVersion : Int

structure UpdateFolderRequest where
  title : Option String
  pinned : Option Bool
  baseVersion : Int

structure DeleteFolderRequest where
  baseVersion : Int
  shouldDeleteNotes : Option Bool

structure MoveNotesToFolderRequest where
  noteIds : List Uuid
  folderId : Option Uuid

/-- `NoteMutation` and `FolderMutation`: the complete desired state of one entity. `baseVersion`
is the last version the client saw, `none` when it believes the id never reached the server. -/
structure Mutation (F : Type) where
  id : Uuid
  fields : F
  deleted : Bool
  baseVersion : Option Int
  clientUpdatedAt : OffsetDateTime

abbrev NoteMutation := Mutation NoteFields
abbrev FolderMutation := Mutation FolderFields

inductive SyncMutation where
  | note (m : NoteMutation)
  | folder (m : FolderMutation)

def SyncMutation.id : SyncMutation → Uuid
  | .note m => m.id
  | .folder m => m.id

def SyncMutation.entityType : SyncMutation → EntityType
  | .note _ => .note
  | .folder _ => .folder

def SyncMutation.baseVersion : SyncMutation → Option Int
  | .note m => m.baseVersion
  | .folder m => m.baseVersion

/-- The mutation, when it is one of entity type `k`. -/
def SyncMutation.as : (k : EntityType) → SyncMutation → Option (Mutation k.Fields)
  | .note, .note m => some m
  | .folder, .folder m => some m
  | .note, .folder _ => none
  | .folder, .note _ => none

theorem SyncMutation.of_as {k : EntityType} {m : SyncMutation} {m' : Mutation k.Fields}
    (h : m.as k = some m') :
    m.id = m'.id ∧ m.entityType = k ∧ m.baseVersion = m'.baseVersion := by
  cases k <;> cases m <;> cases h <;> exact ⟨rfl, rfl, rfl⟩

/-! ## Answers -/

/-- `NoteDto` and `FolderDto`: a row as a client sees it. -/
structure Dto (F : Type) where
  id : Uuid
  fields : F
  version : Int
  createdAt : OffsetDateTime
  updatedAt : OffsetDateTime
  deleted : Bool
deriving DecidableEq

abbrev NoteDto := Dto NoteFields
abbrev FolderDto := Dto FolderFields

def Dto.ofRow {F : Type} (r : Row F) : Dto F :=
  { id := r.id, fields := r.fields, version := r.version, createdAt := r.createdAt,
    updatedAt := r.updatedAt, deleted := r.deletedAt.isSome }

inductive ConflictEntity where
  | note (n : NoteDto)
  | folder (f : FolderDto)
deriving DecidableEq

namespace ConflictEntity

def id : ConflictEntity → Uuid
  | .note n => n.id
  | .folder f => f.id

def ofRow : (k : EntityType) → Row k.Fields → ConflictEntity
  | .note, r => .note (Dto.ofRow r)
  | .folder, r => .folder (Dto.ofRow r)

@[simp] theorem id_ofRow (k : EntityType) (r : Row k.Fields) : (ofRow k r).id = r.id := by
  cases k <;> rfl

end ConflictEntity

inductive MutationOutcome where
  | applied
  | conflict
  | rejected
deriving DecidableEq, Repr

structure MutationResult where
  id : Uuid
  entityType : EntityType
  outcome : MutationOutcome
  serverEntity : Option ConflictEntity
  reason : Option String
deriving DecidableEq

namespace MutationResult

def applied (entityType : EntityType) (entity : ConflictEntity) : MutationResult :=
  { id := entity.id, entityType, outcome := .applied, serverEntity := some entity, reason := none }

def appliedUnpersisted (id : Uuid) (entityType : EntityType) : MutationResult :=
  { id, entityType, outcome := .applied, serverEntity := none, reason := none }

def conflict (entityType : EntityType) (entity : ConflictEntity) : MutationResult :=
  { id := entity.id, entityType, outcome := .conflict, serverEntity := some entity,
    reason := none }

def rejected (id : Uuid) (entityType : EntityType) (reason : String) : MutationResult :=
  { id, entityType, outcome := .rejected, serverEntity := none, reason := some reason }

end MutationResult

/-! ## Errors -/

inductive NotesError where
  | noteNotFound
  | folderNotFound
  | badRequest (message : String)
  | versionConflict (entity : ConflictEntity)
  | notNoteOwner
  | notFolderOwner
  | cursor (e : CursorError)
  | database (e : DbError)
deriving DecidableEq

/-- The error of a lookup that finds no live row of the caller. -/
def EntityType.notFound : EntityType → NotesError
  | .note => .noteNotFound
  | .folder => .folderNotFound

end Meno
