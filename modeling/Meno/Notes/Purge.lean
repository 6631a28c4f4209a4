import Meno.Lib.Batches
import Meno.Notes.Incarnations

/-!
# Meno.Notes.Purge

`purge_batched` with rounds that take whatever rows the database picks, up to 5000 of them. The loop
ends, and the tombstones from before the cutoff are gone (`purgeBatched_eq`); a note whose folder was
purged is filed nowhere.
-/

namespace Meno

open Lib Lib.Batches

/-- What deleting a row makes the store write. -/
def deleteWrites (db : NotesDb) (now : OffsetDateTime) (k : EntityType) (id : Uuid) : List Write :=
  match k with
  | .note => [.erase .note id]
  | .folder => deleteFolderWrites db now id

namespace NotesRepository

variable {k : EntityType}

/-- The `i`th round: of the stale rows the database picks at most 5000. -/
def purgeRound (sel : Selection (Row k.Fields) 5000) (clock : Nat → OffsetDateTime)
    (cutoff : OffsetDateTime) (i : Nat) (db : NotesDb) : Nat × NotesDb :=
  let picked := sel.pick i ((db.table k).rows.filter fun r => r.isStale cutoff)
  (picked.length,
    notesEngine.applyAll db (picked.flatMap fun r => deleteWrites db (clock i) k r.id))

/-- `purge_batched`; nothing if it is not over after so many rounds. -/
def purgeBatched (sel : Selection (Row k.Fields) 5000) (clock : Nat → OffsetDateTime)
    (cutoff : OffsetDateTime) (rounds : Nat) (db : NotesDb) : Option (Nat × NotesDb) :=
  loop 5000 (purgeRound sel clock cutoff) rounds 0 0 db

/-- A folder, or a note as it was or taken out of a folder that is stale. -/
structure OthersKept (k : EntityType) (cutoff : OffsetDateTime) (db db' : NotesDb) : Prop where
  folders : k = .note → db'.folders = db.folders
  notes : k = .folder → ∀ id, db'.get .note id = db.get .note id ∨
    ∃ n f now, db.get .note id = some n ∧ f ∈ db.folders.rows ∧ f.isStale cutoff = true ∧
      n.fields.folderId = some f.id ∧ db'.get .note id = some (clearFolder now n)

/-! ## One round -/

section Round

variable {db db₀ : NotesDb} {now cutoff : OffsetDateTime}

theorem folders_puts {ns : List Note} {g : Note → Note} (db : NotesDb) :
    (notesEngine.applyAll db (ns.map fun n => .put .note (g n) none)).folders = db.folders := by
  induction ns generalizing db with
  | nil => rfl
  | cons n ns ih => exact ih (db.put .note (g n))

/-- The rows are gone, and in their table nothing else. -/
theorem table_deletes (rs : List (Row k.Fields)) (db : NotesDb) :
    (notesEngine.applyAll db (rs.flatMap fun r => deleteWrites db₀ now k r.id)).table k =
      without (db.table k) (rs.map Row.id) := by
  induction rs generalizing db with
  | nil => exact (without_nil _).symm
  | cons r rs ih =>
    have hstep : (notesEngine.applyAll db (deleteWrites db₀ now k r.id)).table k =
        (db.table k).erase r.id := by
      cases k with
      | note => rfl
      | folder => exact folders_puts (db.erase .folder r.id)
    rw [List.flatMap_cons, Engine.applyAll_append, ih, hstep, List.map_cons, without_cons]

theorem folders_deletes (rs : List Note) (db : NotesDb) :
    (notesEngine.applyAll db (rs.flatMap fun r => deleteWrites db₀ now .note r.id)).folders =
      db.folders := by
  induction rs generalizing db with
  | nil => rfl
  | cons r rs ih => exact ih (db.erase .note r.id)

theorem drains (sel : Selection (Row k.Fields) 5000) (clock : Nat → OffsetDateTime)
    (cutoff : OffsetDateTime) :
    Drains (fun db : NotesDb => db.table k) (fun _ r => r.isStale cutoff) 5000
      (purgeRound sel clock cutoff) := by
  intro i db
  refine ⟨sel.pick i ((db.table k).rows.filter fun r => r.isStale cutoff), sel.subperm _ _, ?_,
    rfl, table_deletes _ db⟩
  rw [sel.length, List.countP_eq_length_filter]

/-- A note is put, or it stays as it was. -/
theorem get_note_puts {g : Note → Note} (hg : ∀ n, (g n).id = n.id) (ns : List Note) (db : NotesDb)
    (id : Uuid) :
    (notesEngine.applyAll db (ns.map fun n => .put .note (g n) none)).get .note id =
        db.get .note id ∨
      ∃ n ∈ ns, n.id = id ∧
        (notesEngine.applyAll db (ns.map fun n => .put .note (g n) none)).get .note id =
          some (g n) := by
  induction ns generalizing db with
  | nil => exact .inl rfl
  | cons m ns ih =>
    rw [List.map_cons, Engine.applyAll_cons]
    rcases ih (db.put .note (g m)) with hsame | ⟨n, hn, hid, hput⟩
    · by_cases hid : id = m.id
      · refine .inr ⟨m, List.mem_cons_self, hid.symm, hsame.trans ?_⟩
        rw [NotesDb.get_put_same, hg, if_pos hid]
      · refine .inl (hsame.trans ?_)
        rw [NotesDb.get_put_same, hg, if_neg hid]
    · exact .inr ⟨n, List.mem_cons_of_mem _ hn, hid, hput⟩

/-- A note stays as it was, or it was in one of the folders. -/
theorem get_note_deletes (rs : List Folder) (db : NotesDb) (id : Uuid) :
    (notesEngine.applyAll db (rs.flatMap fun r => deleteWrites db₀ now .folder r.id)).get .note id =
        db.get .note id ∨
      ∃ n, ∃ f ∈ rs, db₀.get .note id = some n ∧ n.fields.folderId = some f.id ∧
        (notesEngine.applyAll db (rs.flatMap fun r => deleteWrites db₀ now .folder r.id)).get .note
          id = some (clearFolder now n) := by
  induction rs generalizing db with
  | nil => exact .inl rfl
  | cons r rs ih =>
    rw [List.flatMap_cons, Engine.applyAll_append]
    rcases ih (notesEngine.applyAll db (deleteWrites db₀ now .folder r.id)) with
      hsame | ⟨n, f, hf, hn, hfile, hput⟩
    · rcases get_note_puts (g := clearFolder now) (fun _ => rfl)
        (db₀.notes.rows.filter fun n => n.fields.folderId == some r.id)
        (db.erase .folder r.id) id with hkept | ⟨n, hn, rfl, hput⟩
      · refine .inl (hsame.trans (hkept.trans ?_))
        exact NotesDb.get_erase_ne db (by decide) r.id id
      · obtain ⟨hrow, hfile⟩ := List.mem_filter.1 hn
        exact .inr ⟨n, r, List.mem_cons_self, Table.mem_rows_iff.1 hrow, eq_of_beq hfile,
          hsame.trans hput⟩
    · exact .inr ⟨n, f, List.mem_cons_of_mem _ hf, hn, hfile, hput⟩

/-- The folders are some of those of `db₀`, and the rest is kept. -/
def Purging (k : EntityType) (cutoff : OffsetDateTime) (db₀ db : NotesDb) : Prop :=
  (∀ f ∈ db.folders.rows, f ∈ db₀.folders.rows) ∧ OthersKept k cutoff db₀ db

theorem Purging.round (h : Purging k cutoff db₀ db) (sel : Selection (Row k.Fields) 5000)
    (clock : Nat → OffsetDateTime) (i : Nat) :
    Purging k cutoff db₀ (purgeRound sel clock cutoff i db).2 := by
  let picked := sel.pick i ((db.table k).rows.filter fun r => r.isStale cutoff)
  cases k with
  | note =>
    have hfolders : (purgeRound sel clock cutoff i db).2.folders = db.folders :=
      folders_deletes picked db
    refine ⟨?_, ⟨fun _ => hfolders.trans (h.2.folders rfl), fun hk => nomatch hk⟩⟩
    rw [hfolders]
    exact h.1
  | folder =>
    have htable : (purgeRound sel clock cutoff i db).2.folders =
        without db.folders (picked.map Row.id) := table_deletes picked db
    refine ⟨fun f hf => ?_, ⟨fun hk => (nomatch hk), fun _ id => ?_⟩⟩
    · rw [htable] at hf
      exact h.1 f (Table.mem_filter_rows.1 hf).1
    · rcases @get_note_deletes db (clock i) picked db id with
        hsame | ⟨n, f, hf, hn, hfile, hput⟩
      · rw [show (purgeRound sel clock cutoff i db).2.get .note id = _ from hsame]
        exact h.2.notes rfl id
      · obtain ⟨hrow, hstale⟩ := List.mem_filter.1 ((sel.subperm _ _).subset hf)
        refine .inr ⟨n, f, clock i, ?_, h.1 f hrow, hstale, hfile, hput⟩
        rcases h.2.notes rfl id with hbefore | ⟨m, f', now, -, -, -, -, hcleared⟩
        · rw [← hbefore, hn]
        · -- A note that was taken out of its folder is in no other.
          obtain rfl := Option.some.inj (hn.symm.trans hcleared)
          cases hfile

end Round

/-! ## The loop -/

/-- **The purge ends**: the tombstones from before the cutoff are gone, and counted, and the other
rows are there. -/
theorem purgeBatched_eq (sel : Selection (Row k.Fields) 5000) (clock : Nat → OffsetDateTime)
    (cutoff : OffsetDateTime) (db : NotesDb) : ∃ db',
      Deletes (fun db : NotesDb => db.table k) 5000
        (fun rounds => purgeBatched sel clock cutoff rounds db) (fun r => r.isStale cutoff) db db' ∧
      OthersKept k cutoff db db' := by
  obtain ⟨-, db', -, hdeletes, -, hkept⟩ := (drains sel clock cutoff).loop_eq
    (fun _ _ h => h) (by decide) (fun i _ h => h.round sel clock i) db
    (show Purging k cutoff db db from ⟨fun _ h => h, fun _ => rfl, fun _ _ => .inl rfl⟩)
  exact ⟨db', hdeletes, hkept⟩

/-- The loop of the service is this one where the database picks the rows that come first. -/
theorem run_purgeBatched {rounds n : Nat} {db' : NotesDb} {now : OffsetDateTime} (i total : Nat)
    (db : NotesDb)
    (h : loop 5000 (purgeRound (k := k) (.first _ 5000) (fun _ => now) cutoff) rounds i total db =
      some (n, db')) :
    Txn.run notesEngine (NotesService.purgeBatched k cutoff rounds total) db now [] =
      (.ok n, db') := by
  induction rounds generalizing i total db with
  | zero => cases h
  | succ rounds ih =>
    have hexec : notesEngine.exec (.purgeBatch k cutoff) now db = .ok
        ((staleRows db k cutoff).length,
          (staleRows db k cutoff).flatMap fun r => deleteWrites db now k r.id) := by
      cases k <;> rfl
    have hpicked : ((db.table k).rows.filter fun r => r.isStale cutoff).take 5000 =
        staleRows db k cutoff := rfl
    rw [NotesService.purgeBatched, query, Txn.run_pool_ok hexec]
    simp only [loop, purgeRound, Selection.first, hpicked] at h
    split at h
    · rename_i hlast
      obtain ⟨rfl, rfl⟩ := Prod.mk.inj (Option.some.inj h)
      rw [if_pos hlast]
      rfl
    · rename_i hmore
      rw [if_neg hmore]
      exact ih _ _ _ h

end NotesRepository

end Meno
