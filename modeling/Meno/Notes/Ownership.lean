import Meno.Notes.Ops
import Meno.Notes.PushFiling

/-!
# Meno.Notes.Ownership

Is a filed note always filed in a folder of its own creator? Six statements write `folder_id`;
the foreign key makes each of them name a folder that exists, and whose it is was checked before,
or was not: `create_note` and `update_note` take the folder of the request as it is.

`exec_folderOwned` is the step lemma, for every statement but the purge, with what the statement
files into as its hypothesis; the rest shows which operations establish that hypothesis.
-/

namespace Meno

open Lib NotesService

/-- A note that is filed is filed in a folder row of the same creator. -/
def FolderOwned (db : NotesDb) : Prop :=
  ∀ id (n : Note), db.get .note id = some n → ∀ f, n.fields.folderId = some f →
    ∃ r : Folder, db.get .folder f = some r ∧ r.creatorId = n.creatorId

/-- Nobody but `c` has the folder `f`. -/
def NotOthers (db : NotesDb) (c f : Uuid) : Prop :=
  ∀ r : Folder, db.get .folder f = some r → r.creatorId = c

theorem folderOwned_empty : FolderOwned .empty := by
  intro id n hn
  rw [NotesDb.get_empty] at hn
  cases hn

/-! ## One write -/

/-- The folder that the fields of a row name. -/
def EntityType.folderOf : (k : EntityType) → k.Fields → Option Uuid
  | .note, f => f.folderId
  | .folder, _ => none

/-- The row, if it is filed, is filed in a folder of `db` that belongs to the row's creator. -/
def FiledOwn (db : NotesDb) {k : EntityType} (row : Row k.Fields) : Prop :=
  ∀ f, k.folderOf row.fields = some f →
    ∃ r : Folder, db.get .folder f = some r ∧ r.creatorId = row.creatorId

section Write

variable {db : NotesDb} {k : EntityType}

theorem checkRefs_ok {fields : k.Fields} (h : db.checkRefs k fields = .ok ()) {f : Uuid}
    (hf : k.folderOf fields = some f) : ∃ r : Folder, db.get .folder f = some r := by
  cases k with
  | folder => cases hf
  | note =>
    have hf : fields.folderId = some f := hf
    simp only [NotesDb.checkRefs, hf, NotesDb.checkFolder] at h
    cases hr : db.get .folder f with
    | none =>
      rw [hr] at h
      cases h
    | some r => exact ⟨r, rfl⟩

theorem storeFields_folderOf {f f' : k.Fields} (h : k.storeFields f = .ok f') :
    k.folderOf f' = k.folderOf f := by
  cases k with
  | folder => rfl
  | note =>
    simp only [EntityType.storeFields, bind_eq_ok, pure_eq_ok] at h
    obtain ⟨_, _, _, _, rfl⟩ := h
    rfl

/-- A row with checked references, whose folder is not somebody else's. -/
theorem filedOwn_of_checked {row : Row k.Fields} {c : Uuid} (hc : row.creatorId = c)
    (href : db.checkRefs k row.fields = .ok ())
    (hown : ∀ f, k.folderOf row.fields = some f → NotOthers db c f) : FiledOwn db row := by
  intro f hf
  obtain ⟨r, hr⟩ := checkRefs_ok href hf
  exact ⟨r, hr, (hown f hf r hr).trans hc.symm⟩

/-- A row is stored that is filed where it may be; a folder row stays with its creator. -/
theorem FolderOwned.put (h : FolderOwned db) {row : Row k.Fields} (hfile : FiledOwn db row)
    (hkeep : ∀ r : Row k.Fields, db.get k row.id = some r → row.creatorId = r.creatorId) :
    FolderOwned (db.put k row) := by
  intro id n hn f hf
  cases k with
  | note =>
    rw [NotesDb.get_put_ne db (by decide : EntityType.folder ≠ .note)]
    rw [NotesDb.get_put_same] at hn
    split at hn
    · cases hn
      exact hfile f hf
    · exact h id n hn f hf
  | folder =>
    rw [NotesDb.get_put_ne db (by decide : EntityType.note ≠ .folder)] at hn
    obtain ⟨r, hr, hc⟩ := h id n hn f hf
    rw [NotesDb.get_put_same]
    split
    · rename_i hid
      subst hid
      exact ⟨row, rfl, (hkeep r hr).trans hc⟩
    · exact ⟨r, hr, hc⟩

end Write

/-- Notes put one after the other do not touch the folders. -/
theorem FolderOwned.put_notes (ws : List Write) :
    ∀ {db : NotesDb}, FolderOwned db →
      (∀ w ∈ ws, ∃ (n : Note) (g : Option Int), w = .put .note n g ∧ FiledOwn (k := .note) db n) →
      FolderOwned (notesEngine.applyAll db ws) := by
  induction ws with
  | nil => intro db h _; exact h
  | cons w ws ih =>
    intro db h hws
    obtain ⟨n, g, rfl, hn⟩ := hws w List.mem_cons_self
    have hfolder : ∀ f, (db.put .note n).get .folder f = db.get .folder f :=
      NotesDb.get_put_ne (k := .note) db (by decide) n
    have hput : FolderOwned (db.put .note n) := by
      intro id m hm f hf
      rw [hfolder]
      rw [NotesDb.get_put_same] at hm
      split at hm
      · cases hm
        exact hn f hf
      · exact h id m hm f hf
    refine ih hput ?_
    intro w' hw'
    obtain ⟨n', g', rfl, hn'⟩ := hws w' (List.mem_cons_of_mem _ hw')
    refine ⟨n', g', rfl, ?_⟩
    intro f hf
    have hsame : (notesEngine.apply db (.put .note n g)).get .folder f = db.get .folder f :=
      hfolder f
    rw [hsame]
    exact hn' f hf

/-! ## One statement -/

/-- The folder that a statement files notes into, and for whom. -/
def NotesStmt.filesInto : {β : Type} → NotesStmt β → Uuid × Option Uuid
  | _, .createNote i => (i.creatorId, i.folderId)
  | _, .updateNoteByVersion i => (i.creatorId, i.folderId)
  | _, .addNoteToFolder c _ f => (c, some f)
  | _, .moveNotesToFolder c req => (c, req.folderId)
  | _, .upsertIfAbsent k _ c s => (c, k.folderOf s.fields)
  | _, .applySnapshotIfVersionMatches k _ c _ s => (c, k.folderOf s.fields)
  | _, .forceApplySnapshot k _ c s => (c, k.folderOf s.fields)
  | _, _ => (⟨0⟩, none)

section Exec

variable {db : NotesDb} {now : OffsetDateTime} {c id : Uuid} {ws : List Write} {k : EntityType}

/-- A new row that holds the stored form of `fields`. -/
theorem newRow_folderOwned {fields f' : k.Fields} (hI : FolderOwned db)
    (hnone : db.get k id = none) (hf : k.storeFields fields = .ok f')
    (href : db.checkRefs k f' = .ok ())
    (hown : ∀ f, k.folderOf fields = some f → NotOthers db c f) :
    FolderOwned (db.put k (newRow now id c f')) := by
  refine hI.put (filedOwn_of_checked rfl href ?_) ?_
  · intro f hfile
    exact hown f ((storeFields_folderOf hf).symm.trans hfile)
  · intro r hr
    have hid : (newRow now id c f').id = id := rfl
    rw [hid, hnone] at hr
    cases hr

theorem insertRow_folderOwned {fields : k.Fields} {row : Row k.Fields} (hI : FolderOwned db)
    (hown : ∀ f, k.folderOf fields = some f → NotOthers db c f)
    (h : insertRow db now k id c fields = .ok (row, ws)) :
    FolderOwned (notesEngine.applyAll db ws) := by
  obtain ⟨f', hnone, hf, href, rfl, rfl⟩ := insertRow_ok h
  exact newRow_folderOwned hI hnone hf href hown

theorem refile_folderOwned {target : Option Uuid} {p : Note → Bool} {rows : List Note}
    (hI : FolderOwned db) (hp : ∀ n, p n = true → n.creatorId = c)
    (hown : ∀ f, target = some f → NotOthers db c f)
    (h : refile db now target (db.notes.rows.filter p) = .ok (rows, ws)) :
    FolderOwned (notesEngine.applyAll db ws) := by
  obtain ⟨_, hws⟩ := refile_ok h
  refine hI.put_notes ws ?_
  intro w hw
  obtain ⟨r, hr, href, rfl⟩ := hws w hw
  refine ⟨_, none, rfl, filedOwn_of_checked (k := .note) ?_ href hown⟩
  exact hp r (List.mem_filter.1 hr).2

/-- An update of one row that keeps the creator and leaves the row filed where it may be. -/
theorem updateRow_folderOwned (now : OffsetDateTime) {guard : Option Int} {cond : Row k.Fields → Bool}
    {set : Row k.Fields → Except DbError (Row k.Fields)} {o : Option (Row k.Fields)}
    (hI : FolderOwned db) (hset : ∀ r row, set r = .ok row → Bump now r row)
    (hfile : ∀ r row, cond r = true → set r = .ok row → db.get k r.id = some r → FiledOwn db row)
    (h : updateRow db k id guard cond set = .ok (o, ws)) :
    FolderOwned (notesEngine.applyAll db ws) := by
  rcases updateRow_ok h with ⟨_, rfl, _⟩ | ⟨r, row, hr, hc, hs, _, rfl⟩
  · exact hI
  have hb := hset r row hs
  have hget : db.get k r.id = some r := by rw [NotesDb.id_of_get hr, hr]
  refine FolderOwned.put hI (hfile r row hc hs hget) ?_
  intro r' hr'
  rw [hb.id, hget] at hr'
  cases hr'
  exact hb.creatorId

/-- A full snapshot over one of the caller's rows. -/
theorem setSnapshot_filedOwn {s : Snapshot k.Fields} {r row : Row k.Fields}
    (hown : ∀ f, k.folderOf s.fields = some f → NotOthers db c f) (hc : r.creatorId = c)
    (hs : setSnapshot db now k s r = .ok row) : FiledOwn db row := by
  obtain ⟨f', hf, href, _, rfl⟩ := setSnapshot_ok hs
  refine filedOwn_of_checked hc href ?_
  intro f hfile
  exact hown f ((storeFields_folderOf hf).symm.trans hfile)

/-- A row whose fields stay as they were. -/
theorem filedOwn_of_same (hI : FolderOwned db) {r row : Row k.Fields}
    (hget : db.get k r.id = some r) (hf : row.fields = r.fields) (hc : row.creatorId = r.creatorId) :
    FiledOwn db row := by
  intro f hfile
  cases k with
  | folder => cases hfile
  | note =>
    rw [hc]
    rw [hf] at hfile
    exact hI r.id r hget f hfile

/-- A statement other than the purge keeps the invariant when the folder it files into is not
somebody else's. -/
theorem exec_folderOwned {β : Type} {s : NotesStmt β} {b : β} (hp : s.isPurge = false)
    (hI : FolderOwned db)
    (hown : ∀ f, s.filesInto.2 = some f → NotOthers db s.filesInto.1 f)
    (h : s.exec now db = .ok (b, ws)) : FolderOwned (notesEngine.applyAll db ws) := by
  cases s with
  | createNote i =>
    refine insertRow_folderOwned (k := .note) hI ?_ h
    intro f hf
    exact hown f hf
  | createFolder i =>
    simp only [NotesStmt.exec, createFolder] at h
    cases hpin : i.pinned with
    | none => rw [hpin] at h; cases h
    | some pinned =>
      rw [hpin] at h
      exact insertRow_folderOwned (k := .folder) hI (fun _ h => by cases h) h
  | updateNoteByVersion i =>
    simp only [NotesStmt.exec, updateNoteByVersion, bind_eq_ok] at h
    obtain ⟨_, _, _, _, h⟩ := h
    refine updateRow_folderOwned now hI ?_ ?_ h
    · intro r row hs
      simp only [bind_eq_ok, pure_eq_ok, intSucc_eq_ok] at hs
      obtain ⟨_, _, _, _, _, ⟨_, rfl⟩, rfl⟩ := hs
      exact ⟨rfl, rfl, rfl, rfl, rfl⟩
    · intro r row hc hs _
      simp only [bind_eq_ok, pure_eq_ok, intSucc_eq_ok] at hs
      obtain ⟨f', hf, _, href, _, _, rfl⟩ := hs
      simp only [Bool.and_eq_true, beq_iff_eq] at hc
      have hfolder : f'.folderId = i.folderId := storeFields_folderOf (k := .note) hf
      refine filedOwn_of_checked (k := .note) hc.1.1 ?_ ?_
      · show db.checkFolder f'.folderId = .ok ()
        rw [hfolder]
        exact href
      · intro f hfile
        exact hown f (hfolder.symm.trans hfile)
  | updateFolderByVersion i =>
    simp only [NotesStmt.exec, updateFolderByVersion, bind_eq_ok] at h
    obtain ⟨_, _, h⟩ := h
    refine updateRow_folderOwned now hI ?_ (fun _ _ _ _ _ _ h => by cases h) h
    intro r row hs
    simp only [bind_eq_ok, pure_eq_ok, intSucc_eq_ok] at hs
    obtain ⟨_, _, _, ⟨_, rfl⟩, rfl⟩ := hs
    exact ⟨rfl, rfl, rfl, rfl, rfl⟩
  | softDelete k id c v =>
    refine updateRow_folderOwned now hI ?_ ?_ h
    · intro r row hs
      simp only [bind_eq_ok, pure_eq_ok, intSucc_eq_ok] at hs
      obtain ⟨_, ⟨_, rfl⟩, rfl⟩ := hs
      exact ⟨rfl, rfl, rfl, rfl, rfl⟩
    · intro r row _ hs hget
      simp only [bind_eq_ok, pure_eq_ok, intSucc_eq_ok] at hs
      obtain ⟨_, _, rfl⟩ := hs
      exact filedOwn_of_same hI hget rfl rfl
  | addNoteToFolder c n f =>
    refine updateRow_folderOwned now hI ?_ ?_ h
    · intro r row hs
      simp only [bind_eq_ok, pure_eq_ok, intSucc_eq_ok] at hs
      obtain ⟨_, _, _, ⟨_, rfl⟩, rfl⟩ := hs
      exact ⟨rfl, rfl, rfl, rfl, rfl⟩
    · intro r row hc hs _
      simp only [bind_eq_ok, pure_eq_ok, intSucc_eq_ok] at hs
      obtain ⟨_, href, _, _, rfl⟩ := hs
      simp only [Bool.and_eq_true, beq_iff_eq] at hc
      exact filedOwn_of_checked (k := .note) hc.1 href hown
  | removeNoteFromFolder c n f =>
    refine updateRow_folderOwned now hI ?_ ?_ h
    · intro r row hs
      simp only [bind_eq_ok, pure_eq_ok, intSucc_eq_ok] at hs
      obtain ⟨_, ⟨_, rfl⟩, rfl⟩ := hs
      exact ⟨rfl, rfl, rfl, rfl, rfl⟩
    · intro r row _ hs _ g hg
      simp only [bind_eq_ok, pure_eq_ok, intSucc_eq_ok] at hs
      obtain ⟨_, _, rfl⟩ := hs
      cases hg
  | moveNotesToFolder c req =>
    refine refile_folderOwned hI (fun n hn => ?_) hown h
    simp only [Bool.and_eq_true, beq_iff_eq] at hn
    exact hn.1.2
  | orphanNotesInFolder f c =>
    simp only [NotesStmt.exec, orphanNotesInFolder, bind_eq_ok, pure_eq_ok] at h
    obtain ⟨⟨rows, ws'⟩, hr, h⟩ := h
    cases h
    refine refile_folderOwned (c := c) hI (fun n hn => ?_) (fun _ h => by cases h) hr
    simp only [Bool.and_eq_true, beq_iff_eq] at hn
    exact hn.1.2
  | upsertIfAbsent k id c s =>
    rcases upsertIfAbsent_ok h with ⟨_, rfl, _⟩ | ⟨f', hnone, hf, href, _, rfl⟩
    · exact hI
    · exact newRow_folderOwned hI hnone hf href hown
  | applySnapshotIfVersionMatches k id c v s =>
    refine updateRow_folderOwned now hI (fun _ _ hs => setSnapshot_bump hs) ?_
      (applySnapshotIfVersionMatches_ok h)
    intro r row hc hs _
    simp only [Bool.and_eq_true, beq_iff_eq] at hc
    exact setSnapshot_filedOwn hown hc.1 hs
  | forceApplySnapshot k id c s =>
    refine updateRow_folderOwned now hI (fun _ _ hs => setSnapshot_bump hs) ?_
      (forceApplySnapshot_ok h)
    intro r row hc hs _
    simp only [beq_iff_eq] at hc
    exact setSnapshot_filedOwn hown hc hs
  | findById k id c => cases h; exact hI
  | ownedFolderIds c ids => cases h; exact hI
  | findChangedSince k c cursor limit =>
    rw [(findChangedSince_ok h).2]
    exact hI
  | purgeBatch k cutoff => cases hp

end Exec

/-! ## The purge -/

/-- The note that is put for `n` has its id. -/
theorem mem_of_puts {ns : List Note} {g : Note → Note} (hg : ∀ n, (g n).id = n.id) :
    ∀ {db : NotesDb} {id : Uuid} {n : Note},
      (notesEngine.applyAll db (ns.map fun n => .put .note (g n) none)).get .note id = some n →
      (∃ m ∈ ns, n = g m) ∨ (db.get .note id = some n ∧ ∀ m ∈ ns, m.id ≠ id) := by
  induction ns with
  | nil =>
    intro db id n h
    exact .inr ⟨h, by simp⟩
  | cons m ns ih =>
    intro db id n h
    rcases ih h with ⟨m', hm', rfl⟩ | ⟨hn, hns⟩
    · exact .inl ⟨m', List.mem_cons_of_mem _ hm', rfl⟩
    · have hn : (db.put .note (g m)).get .note id = some n := hn
      rw [NotesDb.get_put_same] at hn
      split at hn
      · cases hn
        exact .inl ⟨m, List.mem_cons_self, rfl⟩
      · rename_i hid
        refine .inr ⟨hn, ?_⟩
        intro m' hm'
        rcases List.mem_cons.1 hm' with rfl | hm'
        · rw [hg] at hid
          exact Ne.symm hid
        · exact hns m' hm'

theorem get_folder_puts {ns : List Note} {g : Note → Note} :
    ∀ {db : NotesDb} {f : Uuid},
      (notesEngine.applyAll db (ns.map fun n => .put .note (g n) none)).get .folder f =
        db.get .folder f := by
  induction ns with
  | nil => intro db f; rfl
  | cons m ns ih =>
    intro db f
    exact ih.trans (NotesDb.get_put_ne (k := .note) db (by decide) (g m) f)

/-- The note that the foreign key leaves when the note's folder is deleted. -/
def clearFolder (now : OffsetDateTime) (n : Note) : Note :=
  { n with fields := { n.fields with folderId := none }, updatedAt := now }

/-- The writes of one deleted folder: the row, and its notes, which are looked up in `db₀`. -/
def deleteFolderWrites (db₀ : NotesDb) (now : OffsetDateTime) (f : Uuid) : List Write :=
  .erase .folder f :: (db₀.notes.rows.filter fun n => n.fields.folderId == some f).map fun n =>
    .put .note (clearFolder now n) none

/-- A note of `db` is one of `db₀`, or not filed. -/
def NotesFrom (db₀ db : NotesDb) : Prop :=
  ∀ id (n : Note), db.get .note id = some n → db₀.get .note id = some n ∨ n.fields.folderId = none

theorem deleteFolder_folderOwned {db₀ db : NotesDb} {now : OffsetDateTime} {f : Uuid}
    (hI : FolderOwned db) (hfrom : NotesFrom db₀ db) :
    FolderOwned (notesEngine.applyAll db (deleteFolderWrites db₀ now f)) ∧
      NotesFrom db₀ (notesEngine.applyAll db (deleteFolderWrites db₀ now f)) := by
  have hnote : ∀ id, (db.erase .folder f).get .note id = db.get .note id :=
    NotesDb.get_erase_ne db (by decide) f
  -- a note is put without a folder, or it is as it was and not in the deleted folder
  have key : ∀ id n, (notesEngine.applyAll db (deleteFolderWrites db₀ now f)).get .note id =
      some n → n.fields.folderId = none ∨
        (db.get .note id = some n ∧ n.fields.folderId ≠ some f) := by
    intro id n hn
    rcases mem_of_puts (g := clearFolder now) (fun _ => rfl) hn with ⟨m, _, rfl⟩ | ⟨hn, hrest⟩
    · exact .inl rfl
    · have hn : (db.erase .folder f).get .note id = some n := hn
      rw [hnote] at hn
      rcases hfrom id n hn with h₀ | hnone
      · refine .inr ⟨hn, ?_⟩
        intro hf
        have hmem : n ∈ db₀.notes.rows.filter fun n => n.fields.folderId == some f := by
          refine List.mem_filter.2 ⟨Lib.Table.mem_rows_iff.2 ?_, by simp [hf]⟩
          rw [NotesDb.id_of_get hn]
          exact h₀
        exact hrest n hmem (NotesDb.id_of_get hn)
      · exact .inl hnone
  constructor
  · intro id n hn g hg
    rcases key id n hn with hnone | ⟨hdb, hne⟩
    · rw [hnone] at hg
      cases hg
    · obtain ⟨r, hr, hc⟩ := hI id n hdb g hg
      refine ⟨r, ?_, hc⟩
      have hfolder : (notesEngine.applyAll db (deleteFolderWrites db₀ now f)).get .folder g =
          (db.erase .folder f).get .folder g := get_folder_puts
      rw [hfolder, NotesDb.get_erase_same, if_neg, hr]
      rintro rfl
      exact hne hg
  · intro id n hn
    rcases key id n hn with hnone | ⟨hdb, _⟩
    · exact .inr hnone
    · exact hfrom id n hdb

theorem purge_folders_folderOwned {db₀ : NotesDb} {now : OffsetDateTime} (fs : List Folder) :
    ∀ {db : NotesDb}, FolderOwned db → NotesFrom db₀ db →
      FolderOwned (notesEngine.applyAll db (fs.flatMap fun r => deleteFolderWrites db₀ now r.id)) := by
  induction fs with
  | nil => intro db hI _; exact hI
  | cons r fs ih =>
    intro db hI hfrom
    rw [List.flatMap_cons, Engine.applyAll_append]
    exact ih (deleteFolder_folderOwned hI hfrom).1 (deleteFolder_folderOwned hI hfrom).2

theorem purge_notes_folderOwned (ns : List Note) :
    ∀ {db : NotesDb}, FolderOwned db →
      FolderOwned (notesEngine.applyAll db (ns.flatMap fun n => [.erase .note n.id])) := by
  induction ns with
  | nil => intro db hI; exact hI
  | cons n ns ih =>
    intro db hI
    have hI' : FolderOwned (db.erase .note n.id) := by
      intro id m hm f hf
      rw [NotesDb.get_erase_ne db (by decide : EntityType.folder ≠ .note)]
      rw [NotesDb.get_erase_same] at hm
      split at hm
      · cases hm
      · exact hI id m hm f hf
    exact ih hI'

theorem purgeBatch_folderOwned {db : NotesDb} {now cutoff : OffsetDateTime} {k : EntityType}
    {b : Nat} {ws : List Write} (hI : FolderOwned db)
    (h : purgeBatch db now k cutoff = .ok (b, ws)) : FolderOwned (notesEngine.applyAll db ws) := by
  cases k with
  | note =>
    cases h
    exact purge_notes_folderOwned _ hI
  | folder =>
    cases h
    exact purge_folders_folderOwned _ hI fun _ _ hn => .inl hn

/-! ## Whole operations -/

section Wp

variable {s : Session NotesDb Write OffsetDateTime}

theorem wp_rowOrConflict {k : EntityType} {id c : Uuid} {o : Option (Row k.Fields)} {db : NotesDb}
    (hs : s.committed = db) :
    Act.wp (Session.handle notesEngine) (rowOrConflict k id c o) (fun _ s' => s'.committed = db) s := by
  cases o with
  | some row => exact hs
  | none =>
    unfold rowOrConflict
    rw [Act.wp_bind]
    exact wp_findOrFail hs (fun _ _ h _ => h) (fun _ _ h => h)

/-- One statement that keeps the invariant, and then nothing that writes. -/
theorem wp_write {β α : Type} {c : NotesStmt β} {f : β → NotesSvc α}
    (hI : FolderOwned s.committed) (hp : c.isPurge = false)
    (hown : ∀ g, c.filesInto.2 = some g → NotOthers s.committed c.filesInto.1 g)
    (hf : ∀ b s', FolderOwned s'.committed →
      Act.wp (Session.handle notesEngine) (f b) (fun _ s'' => FolderOwned s''.committed) s') :
    Act.wp (Session.handle notesEngine) (query .pool c >>= f)
      (fun _ s' => FolderOwned s'.committed) s := by
  rw [Act.wp_bind]
  refine wp_pool ?_ ?_
  · intro b ws s' he hs' _
    refine hf b s' ?_
    rw [hs']
    exact exec_folderOwned hp hI hown he
  · intro err s' hs' _
    rw [hs']
    exact hI

end Wp

/-- The request of a `create_note` or `update_note` names no folder of another user. -/
def NotesOp.FilesOwn : NotesOp → NotesDb → Prop
  | .createNote c req, db => ∀ f, req.folderId = some f → NotOthers db c f
  | .updateNote _ c req, db => ∀ f, req.folderId = some f → NotOthers db c f
  | _, _ => True

section Ops

variable {s : Session NotesDb Write OffsetDateTime}

/-- The final answer of an operation is made without a statement. -/
theorem wp_answer {α : Type} {x : NotesSvc α} {g : α → NotesAnswer}
    (h : Act.wp (Session.handle notesEngine) x (fun _ s' => FolderOwned s'.committed) s) :
    Act.wp (Session.handle notesEngine) (x >>= fun a => pure (g a))
      (fun _ s' => FolderOwned s'.committed) s := by
  rw [Act.wp_bind]
  refine Act.wp_mono _ h ?_
  intro r s' hs'
  cases r <;> exact hs'

theorem wp_rowOrConflict_owned {k : EntityType} {id c : Uuid} {o : Option (Row k.Fields)}
    (hI : FolderOwned s.committed) :
    Act.wp (Session.handle notesEngine) (rowOrConflict k id c o)
      (fun _ s' => FolderOwned s'.committed) s := by
  refine Act.wp_mono _ (wp_rowOrConflict rfl) ?_
  intro _ s' hs'
  rw [hs']
  exact hI

/-- The folder that the lookup found is the caller's when the note is filed into it. -/
theorem addNoteToFolder_owned {c n f : Uuid} (hI : FolderOwned s.committed) :
    Act.wp (Session.handle notesEngine) (NotesService.addNoteToFolder c n f)
      (fun _ s' => FolderOwned s'.committed) s := by
  have herr : ∀ (e : NotesError) (s' : Session NotesDb Write OffsetDateTime),
      s'.committed = s.committed → FolderOwned s'.committed := by
    intro e s' hs'
    rw [hs']
    exact hI
  unfold NotesService.addNoteToFolder
  rw [Act.wp_bind, Act.wp_attempt]
  refine Act.wp_mono _ (Q := fun _ s' => s'.committed = s.committed)
    (wp_query (quiet_findById _ _ _ _) rfl (fun _ _ _ _ h _ => h) fun _ _ h => h) ?_
  intro noteResult s₁ hs₁
  simp only
  rw [Act.wp_bind, Act.wp_attempt]
  -- the result of the second lookup, if it is there, comes from the same committed database
  refine Act.wp_mono _ (Q := fun r s' => s'.committed = s.committed ∧ ∀ folder,
      r = .ok (some folder) → NotOthers s.committed c f) ?_ ?_
  · refine wp_pool ?_ ?_
    · intro b ws s' he hs' _
      cases he
      refine ⟨by rw [hs', hs₁]; rfl, ?_⟩
      intro folder hfolder r hr
      have hfind : findById s₁.committed .folder f c = some folder := Except.ok.inj hfolder
      obtain ⟨hget, hcond⟩ := Option.filter_eq_some_iff.1 hfind
      rw [hs₁, hr] at hget
      cases hget
      simp only [Bool.and_eq_true, beq_iff_eq] at hcond
      exact hcond.1
    · intro err s' hs' _
      exact ⟨by rw [hs', hs₁], fun _ h => by cases h⟩
  · rintro folderResult s₂ ⟨hs₂, hown⟩
    simp only
    rw [Act.wp_bind, Act.wp_ofExcept]
    cases noteResult with
    | error e => exact herr e s₂ hs₂
    | ok note? =>
      simp only
      cases note? with
      | none => exact herr .noteNotFound s₂ hs₂
      | some note =>
        simp only [okOr]
        cases folderResult with
        | error e => exact herr e s₂ hs₂
        | ok folder? =>
          cases folder? with
          | none => exact herr .folderNotFound s₂ hs₂
          | some folder =>
            simp only [Act.ofExcept, pure_bind]
            split
            · exact herr .noteNotFound s₂ hs₂
            split
            · exact herr .noteNotFound s₂ hs₂
            split
            · exact herr .noteNotFound s₂ hs₂
            refine wp_write (herr .noteNotFound s₂ hs₂) rfl ?_ ?_
            · intro g hg
              cases hg
              rw [hs₂]
              exact hown folder rfl
            · intro o s' hI'
              cases o <;> exact hI'

theorem moveNotesToFolder_owned {c : Uuid} {req : MoveNotesToFolderRequest}
    (hI : FolderOwned s.committed) :
    Act.wp (Session.handle notesEngine) (NotesService.moveNotesToFolder c req)
      (fun _ s' => FolderOwned s'.committed) s := by
  unfold NotesService.moveNotesToFolder
  split
  · exact hI
  split
  · exact hI
  rw [Act.wp_bind]
  refine Act.wp_mono _ (Q := fun r s' => s'.committed = s.committed ∧
    (r = .ok () → ∀ f, req.folderId = some f → NotOthers s.committed c f)) ?_ ?_
  · unfold checkTarget
    cases req.folderId with
    | none => exact ⟨rfl, fun _ _ h => by cases h⟩
    | some f =>
      simp only
      rw [Act.wp_bind, findOrFail, Act.wp_bind]
      refine wp_pool ?_ ?_
      · intro b ws s' he hs' _
        cases he
        cases hfind : findById s.committed .folder f c with
        | none => exact ⟨hs', fun h => by cases h⟩
        | some folder =>
          refine ⟨hs', ?_⟩
          intro _ g hg r hr
          cases hg
          obtain ⟨hget, hcond⟩ := Option.filter_eq_some_iff.1 hfind
          rw [hr] at hget
          cases hget
          simp only [Bool.and_eq_true, beq_iff_eq] at hcond
          exact hcond.1
      · intro err s' hs' _
        exact ⟨hs', fun h => by cases h⟩
  · rintro (err | u) s₁ ⟨hs₁, hown⟩
    · rw [hs₁]
      exact hI
    · simp only
      refine wp_write (by rw [hs₁]; exact hI) rfl ?_ fun _ _ h => h
      rw [hs₁]
      exact hown rfl

end Ops

theorem syncPush_owned {db db' : NotesDb} {c : Uuid} {now : OffsetDateTime} {faults : List Bool}
    {batch : List SyncMutation} {rs : List MutationResult} (hI : FolderOwned db)
    (h : Txn.run notesEngine (NotesService.syncPush c batch) db now faults = (.ok rs, db')) :
    FolderOwned db' := by
  obtain ⟨_, hp⟩ := pushed_of_ok h
  -- the folders of `db` are still there, with the same creators
  have hfolders : ∀ f (r : Folder), db.get .folder f = some r →
      ∃ r' : Folder, db'.get .folder f = some r' ∧ r'.creatorId = r.creatorId := by
    intro f r hr
    rcases hp.row .folder f with ⟨_, hsame⟩ | ⟨_, r', _, hr', _, _, hc, _⟩
    · exact ⟨r, hsame.trans hr, rfl⟩
    · refine ⟨r', hr', ?_⟩
      rw [hc, hr]
      rfl
  intro id n hn f hf
  rcases hp.row .note id with ⟨_, hsame⟩ | ⟨m, n', hlast, hn', hfields, _, hc, _⟩
  · rw [hsame] at hn
    obtain ⟨r, hr, hrc⟩ := hI id n hn f hf
    obtain ⟨r', hr', hrc'⟩ := hfolders f r hr
    exact ⟨r', hr', hrc'.trans hrc⟩
  · rw [hn] at hn'
    cases hn'
    have hfilter : m.fields.folderId.filter (ownsFolder db c) = some f :=
      (congrArg NoteFields.folderId hfields).symm.trans hf
    obtain ⟨_, howned⟩ := Option.filter_eq_some_iff.1 hfilter
    obtain ⟨r, hr, hrc⟩ := (Option.any_eq_true _ _).1 howned
    obtain ⟨r', hr', hrc'⟩ := hfolders f r hr
    have hw : writtenTo c db batch .note id ≠ [] := by
      intro hnil
      rw [hnil] at hlast
      cases hlast
    have howner := owner_of_landed hw
    refine ⟨r', hr', ?_⟩
    rw [hrc', hc]
    simp only [beq_iff_eq] at hrc
    cases hseen : db.get .note id with
    | none => exact hrc
    | some n₀ =>
      rw [hseen] at howner
      simp only [Option.all_some, beq_iff_eq] at howner
      rw [hrc]
      exact howner.symm

/-- Every operation keeps the invariant, when the folder of its request is nobody else's. -/
theorem op_folderOwned {op : NotesOp} {db : NotesDb} {now : OffsetDateTime} {faults : List Bool}
    (hI : FolderOwned db) (hok : op.FilesOwn db) : FolderOwned (op.run now faults db).2 := by
  have hI₀ : FolderOwned (Session.start db now faults : Session NotesDb Write _).committed := hI
  show Act.wp (Session.handle notesEngine) op.prog (fun _ s' => FolderOwned s'.committed)
    (Session.start db now faults)
  cases op with
  | createNote c req =>
    exact wp_answer (wp_write hI₀ rfl hok fun _ _ h => h)
  | createFolder c req =>
    exact wp_answer (wp_write hI₀ rfl (fun _ h => by cases h) fun _ _ h => h)
  | updateNote id c req =>
    exact wp_answer (wp_write hI₀ rfl hok fun _ _ h => wp_rowOrConflict_owned h)
  | updateFolder id c req =>
    exact wp_answer (wp_write hI₀ rfl (fun _ h => by cases h) fun _ _ h => wp_rowOrConflict_owned h)
  | deleteNote id c v =>
    exact wp_answer (wp_write hI₀ rfl (fun _ h => by cases h) fun _ _ h => wp_rowOrConflict_owned h)
  | deleteFolder id c v =>
    exact wp_answer (wp_write hI₀ rfl (fun _ h => by cases h) fun _ _ h => wp_rowOrConflict_owned h)
  | addNoteToFolder c n f => exact wp_answer (addNoteToFolder_owned hI₀)
  | removeNoteToFolder c n f =>
    refine wp_answer (wp_write hI₀ rfl (fun _ h => by cases h) ?_)
    intro o s' hs'
    cases o <;> exact hs'
  | moveNotesToFolder c req => exact wp_answer (moveNotesToFolder_owned hI₀)
  | syncPush c batch =>
    refine wp_answer ?_
    have hends := syncPush_ends db now faults c batch
    have howned : ∀ rs db', Txn.run notesEngine (NotesService.syncPush c batch) db now faults =
        (.ok rs, db') → FolderOwned db' := fun _ _ h => syncPush_owned hI h
    show FolderOwned (Txn.run notesEngine (NotesService.syncPush c batch) db now faults).2
    generalize Txn.run notesEngine (NotesService.syncPush c batch) db now faults = out at *
    obtain ⟨err | rs, db'⟩ := out
    · have hdb : db' = db := hends
      rw [hdb]
      exact hI
    · exact howned rs db' rfl
  | purgeStale cutoff rounds =>
    show Act.wp (Session.handle notesEngine)
      (NotesService.purgeStale cutoff rounds >>= fun p => pure (NotesAnswer.purged p.1 p.2)) _ _
    have hloop := fun k s hI => @purgeBatched_wp k cutoff FolderOwned (fun _ => True)
      (fun _ _ _ _ hI he => ⟨purgeBatch_folderOwned hI he, fun _ => trivial⟩) rounds 0 s hI
    refine wp_answer ?_
    unfold NotesService.purgeStale
    rw [Act.wp_bind]
    refine Act.wp_mono _ (hloop .note _ hI₀) ?_
    rintro (err | notes) s₁ ⟨hs₁, _⟩
    · exact hs₁
    · simp only
      rw [Act.wp_bind]
      refine Act.wp_mono _ (hloop .folder s₁ hs₁) ?_
      rintro (err | folders) s₂ ⟨hs₂, _⟩
      · exact hs₂
      · exact hs₂

/-- In every run whose `create_note` and `update_note` requests name no folder of another user,
every filed note is filed in a folder of its creator. -/
theorem reached_folderOwned (db : NotesDb) (h : Reached NotesOp.FilesOwn db) : FolderOwned db :=
  h.inv folderOwned_empty fun _ _ _ _ hI hok => op_folderOwned hI hok

def homeFolder : CreateFolderRequest := { id := ⟨3⟩, title := "Home", pinned := some false }

def noteInHome : CreateNoteRequest :=
  { id := ⟨1⟩, title := "Groceries", content := "milk", pinned := false, folderId := some ⟨3⟩ }

/-- The database after user 7 has made the folder. -/
def withHome : NotesDb := (NotesOp.run (.createFolder ⟨7⟩ homeFolder) 10 [] .empty).2

theorem reached_withHome_owned :
    FolderOwned (NotesOp.run (.createNote ⟨7⟩ noteInHome) 20 [] withHome).2 := by
  refine reached_folderOwned _ (.step 20 [] (.step 10 [] .empty trivial) ?_)
  intro f hf r hr
  cases hf
  cases hr
  rfl

/-- User 8 files a note into the folder of user 7. -/
theorem foreign_note_in_home :
    ∃ db, Reached (fun _ _ => True) db ∧ ¬FolderOwned db := by
  refine ⟨(NotesOp.run (.createNote ⟨8⟩ noteInHome) 20 [] withHome).2,
    .step 20 [] (.step 10 [] .empty trivial) trivial, ?_⟩
  intro h
  obtain ⟨r, hr, hc⟩ := h ⟨1⟩ _ rfl ⟨3⟩ rfl
  cases hr
  cases hc

end Meno
