import Meno.Basic
import Meno.Lib.Table

/-!
# Meno.Notes.Model

The rows of the tables `notes` and `folders`. Both have the same bookkeeping columns (`Row`) and
differ in the fields a client edits, so a row is generic in those.
-/

namespace Meno

/-- The two kinds of entity that the sync log mixes. -/
inductive EntityType where
  | note
  | folder
deriving DecidableEq, Repr

structure NoteFields where
  title : String
  content : String
  pinned : Bool
  folderId : Option Uuid
deriving DecidableEq, Repr

structure FolderFields where
  title : String
  pinned : Bool
deriving DecidableEq, Repr

abbrev EntityType.Fields : EntityType → Type
  | .note => NoteFields
  | .folder => FolderFields

instance : (k : EntityType) → DecidableEq k.Fields
  | .note => inferInstanceAs (DecidableEq NoteFields)
  | .folder => inferInstanceAs (DecidableEq FolderFields)

/-- A stored row: the client's fields and the columns the server keeps. -/
structure Row (F : Type) where
  id : Uuid
  fields : F
  creatorId : Uuid
  version : Int
  createdAt : OffsetDateTime
  updatedAt : OffsetDateTime
  deletedAt : Option OffsetDateTime
deriving DecidableEq

abbrev Note := Row NoteFields
abbrev Folder := Row FolderFields

def Row.isDeleted {F : Type} (r : Row F) : Bool := r.deletedAt.isSome

/-! ## The database -/

structure NotesDb where
  notes : Lib.Table Note Row.id
  folders : Lib.Table Folder Row.id

namespace NotesDb

def empty : NotesDb := ⟨.empty, .empty⟩

def table (db : NotesDb) : (k : EntityType) → Lib.Table (Row k.Fields) Row.id
  | .note => db.notes
  | .folder => db.folders

def get (db : NotesDb) (k : EntityType) (id : Uuid) : Option (Row k.Fields) := (db.table k).get id

def setTable (db : NotesDb) : (k : EntityType) → Lib.Table (Row k.Fields) Row.id → NotesDb
  | .note, t => { db with notes := t }
  | .folder, t => { db with folders := t }

def put (db : NotesDb) (k : EntityType) (r : Row k.Fields) : NotesDb :=
  db.setTable k ((db.table k).put r)

def erase (db : NotesDb) (k : EntityType) (id : Uuid) : NotesDb :=
  db.setTable k ((db.table k).erase id)

@[simp] theorem get_empty (k : EntityType) (id : Uuid) : empty.get k id = none := by
  cases k <;> rfl

@[simp] theorem table_setTable_self (db : NotesDb) (k : EntityType)
    (t : Lib.Table (Row k.Fields) Row.id) : (db.setTable k t).table k = t := by
  cases k <;> rfl

theorem table_setTable_ne (db : NotesDb) {k k' : EntityType} (h : k' ≠ k)
    (t : Lib.Table (Row k.Fields) Row.id) : (db.setTable k t).table k' = db.table k' := by
  cases k <;> cases k' <;> first | rfl | exact absurd rfl h

theorem get_put_same (db : NotesDb) (k : EntityType) (r : Row k.Fields) (id : Uuid) :
    (db.put k r).get k id = if id = r.id then some r else db.get k id := by
  simp only [get, put, table_setTable_self, Lib.Table.get_put]

theorem get_put_ne (db : NotesDb) {k k' : EntityType} (h : k' ≠ k) (r : Row k.Fields) (id : Uuid) :
    (db.put k r).get k' id = db.get k' id := by
  simp only [get, put, table_setTable_ne db h]

theorem get_put_self (db : NotesDb) (k : EntityType) (r : Row k.Fields) :
    (db.put k r).get k r.id = some r := by
  rw [get_put_same, if_pos rfl]

theorem get_put_other (db : NotesDb) (k : EntityType) (r : Row k.Fields) {k' : EntityType}
    {id : Uuid} (h : (k', id) ≠ (k, r.id)) : (db.put k r).get k' id = db.get k' id := by
  by_cases hk : k' = k
  · subst hk
    rw [get_put_same, if_neg]
    rintro rfl
    exact h rfl
  · exact get_put_ne db hk r id

theorem get_erase_same (db : NotesDb) (k : EntityType) (id id' : Uuid) :
    (db.erase k id).get k id' = if id' = id then none else db.get k id' := by
  simp only [get, erase, table_setTable_self, Lib.Table.get_erase]

theorem get_erase_ne (db : NotesDb) {k k' : EntityType} (h : k' ≠ k) (id id' : Uuid) :
    (db.erase k id).get k' id' = db.get k' id' := by
  simp only [get, erase, table_setTable_ne db h]

theorem id_of_get {db : NotesDb} {k : EntityType} {id : Uuid} {r : Row k.Fields}
    (h : db.get k id = some r) : r.id = id := Lib.Table.key_of_get h

end NotesDb

/-- What a statement changes: a row version stored under its id, or a row removed. `guard` is
the version the statement's `WHERE` clause compared the old row to, if it did. -/
inductive Write where
  | put (k : EntityType) (row : Row k.Fields) (guard : Option Int)
  | erase (k : EntityType) (id : Uuid)

/-- The row a write locks. -/
def Write.key : Write → EntityType × Uuid
  | .put k row _ => (k, row.id)
  | .erase k id => (k, id)

def NotesDb.apply (db : NotesDb) : Write → NotesDb
  | .put k row _ => db.put k row
  | .erase k id => db.erase k id

theorem NotesDb.get_apply_other (db : NotesDb) (w : Write) {k : EntityType} {id : Uuid}
    (h : (k, id) ≠ w.key) : (db.apply w).get k id = db.get k id := by
  cases w with
  | put k' row guard => exact get_put_other db k' row h
  | erase k' id' =>
    by_cases hk : k = k'
    · subst hk
      rw [NotesDb.apply, get_erase_same, if_neg]
      rintro rfl
      exact h rfl
    · exact get_erase_ne db hk id' id

end Meno
