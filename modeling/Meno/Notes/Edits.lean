import Meno.Lib.Ends
import Meno.Notes.PushResults
import Meno.Notes.Statements

/-!
# Meno.Notes.Edits

The two edits of one row that reach, or should reach, further than the row's own columns: deleting
a folder, which has notes in it, and updating a note by a request that leaves fields out. Both are
one `UPDATE` that compares the version, and a look at the current row when it has found none.
-/

namespace Meno

open Lib

namespace NotesService

variable {db : NotesDb} {now : OffsetDateTime} {faults : List Bool} {k : EntityType} {id c : Uuid}

/-! ## An UPDATE and its conflict -/

/-- The look at the current row ends in an error, whatever it finds, and changes nothing. -/
theorem rowOrConflict_none (id c : Uuid) (s : Session NotesDb Write OffsetDateTime) :
    Act.wp (Session.handle notesEngine) (rowOrConflict k id c none)
      (fun r s' => (∃ e, r = .error e) ∧ s'.committed = s.committed) s := by
  rw [rowOrConflict, Act.wp_bind]
  refine wp_findOrFail rfl ?_ ?_
  · intro row s' hs' _
    exact ⟨⟨_, rfl⟩, hs'⟩
  · intro e s' hs'
    exact ⟨⟨e, rfl⟩, hs'⟩

variable (stmt : NotesStmt (Option (Row k.Fields)))

theorem edit_ok {row : Row k.Fields} {ws : List Write}
    (hexec : stmt.exec now db = .ok (some row, ws)) (hcall : faults.headD false = false) :
    Txn.run notesEngine (query .pool stmt >>= rowOrConflict k id c) db now faults =
      (.ok (Dto.ofRow row), notesEngine.applyAll db ws) := by
  have hanswer : Act.answer (Session.handle notesEngine) (query .pool stmt)
      (Session.start db now faults) =
        (.ok (some row), Session.start (notesEngine.applyAll db ws) now faults.tail) := by
    have hexec : notesEngine.exec stmt now db = .ok (some row, ws) := hexec
    rw [query, Act.answer_ask]
    simp only [Session.handle, Session.start, hcall, hexec, Bool.false_eq_true, if_false]
    rfl
  exact Txn.run_eq (Act.answer_bind_ok _ hanswer)

theorem edit_error (hread : ∀ ws, stmt.exec now db = .ok (none, ws) → ws = [])
    (hno : ∀ row ws, stmt.exec now db = .ok (some row, ws) → faults.headD false = true) :
    ∃ e, Txn.run notesEngine (query .pool stmt >>= rowOrConflict k id c) db now faults =
      (.error e, db) := by
  have hwp : ∀ s : Session NotesDb Write OffsetDateTime, s.committed = db → s.now = now →
      s.faults = faults → Act.wp (Session.handle notesEngine) (query .pool stmt >>= rowOrConflict k id c)
        (fun r s' => (∃ e, r = .error e) ∧ s'.committed = db) s := by
    rintro s rfl rfl rfl
    rw [query, Act.wp_bind, Act.wp_ask]
    simp only [Session.handle]
    by_cases hcall : s.faults.headD false = true
    · rw [if_pos hcall]
      exact ⟨⟨_, rfl⟩, rfl⟩
    · rw [if_neg hcall]
      cases hexec : notesEngine.exec stmt s.now s.committed with
      | error e => exact ⟨⟨_, rfl⟩, rfl⟩
      | ok p =>
        obtain ⟨_ | row, ws⟩ := p
        · obtain rfl := hread ws hexec
          exact rowOrConflict_none id c _
        · exact absurd (hno row ws hexec) hcall
  replace hwp := hwp (Session.start db now faults) rfl rfl rfl
  obtain ⟨⟨e, he⟩, hdb⟩ := hwp
  exact ⟨e, Prod.ext he hdb⟩

/-! ## Deleting a folder -/

/-- A live note of the caller in the folder. -/
def LiveIn (c folderId : Uuid) (n : Note) : Prop :=
  n.creatorId = c ∧ n.deletedAt = none ∧ n.fields.folderId = some folderId

/-- The folder's notes went with it: none of the caller's live notes is in the folder any more, each
that was is a tombstone or unfiled, as the request has it, with its version raised by one, and the
other notes are as they were. -/
structure NotesWentToo (c folderId : Uuid) (req : DeleteFolderRequest) (db db' : NotesDb) :
    Prop where
  emptied : ∀ id n, db'.get .note id = some n → ¬LiveIn c folderId n
  each : ∀ id n, db.get .note id = some n → LiveIn c folderId n →
    ∃ n', db'.get .note id = some n' ∧ n'.version = n.version + 1 ∧
      if req.shouldDeleteNotes.getD false then n'.isDeleted = true else n'.fields.folderId = none
  others : ∀ id, (∀ n, db.get .note id = some n → ¬LiveIn c folderId n) →
    db'.get .note id = db.get .note id

/-- A folder that is deleted takes its notes along; one that is not leaves every row. -/
def FolderDeletionCascades (id c : Uuid) (req : DeleteFolderRequest) (db : NotesDb)
    (out : Except NotesError FolderDto × NotesDb) : Prop :=
  match out.1 with
  | .ok _ => NotesWentToo c id req db out.2
  | .error _ => out.2 = db

/-- The deletion goes through: the statement reaches the database, and the folder is live, the
caller's, of the version that the request names, and that version can be raised. -/
def DeletesFolder (id c : Uuid) (req : DeleteFolderRequest) (faults : List Bool) (db : NotesDb) :
    Prop :=
  faults.headD false = false ∧ ∃ f, db.get .folder id = some f ∧ f.creatorId = c ∧
    f.deletedAt = none ∧ f.version = req.baseVersion ∧ f.version < intMax

theorem softDelete_none {v : Int} {ws : List Write}
    (h : softDelete db now k id c v = .ok (none, ws)) : ws = [] := by
  rcases updateRow_ok h with ⟨_, rfl, _⟩ | ⟨_, _, _, _, _, ho, _⟩
  · rfl
  · cases ho

theorem softDelete_some {v : Int} {row : Row k.Fields} {ws : List Write}
    (h : softDelete db now k id c v = .ok (some row, ws)) :
    (∃ r, db.get k id = some r ∧ r.creatorId = c ∧ r.deletedAt = none ∧ r.version = v ∧
      r.version < intMax) ∧ ws = [.put k row (some v)] := by
  rcases updateRow_ok h with ⟨ho, _, _⟩ | ⟨r, row', hr, hcond, hset, ho, rfl⟩
  · cases ho
  · cases ho
    simp only [Bool.and_eq_true, beq_iff_eq, Option.isNone_iff_eq_none] at hcond
    simp only [bind_eq_ok, intSucc_eq_ok] at hset
    obtain ⟨_, ⟨hroom, rfl⟩, _⟩ := hset
    exact ⟨⟨r, hr, hcond.1.1, hcond.2, hcond.1.2, hroom⟩, rfl⟩

theorem softDelete_live {v : Int} {r : Row k.Fields} (hr : db.get k id = some r)
    (hc : r.creatorId = c) (hd : r.deletedAt = none) (hv : r.version = v) (hroom : r.version < intMax) :
    softDelete db now k id c v =
      .ok (some { r with deletedAt := some now, version := r.version + 1, updatedAt := now },
        [.put k { r with deletedAt := some now, version := r.version + 1, updatedAt := now }
          (some v)]) := by
  subst hc hv
  simp only [softDelete, updateRow, hr, hd, beq_self_eq_true, Option.isNone_none, Bool.and_self,
    if_true, intSucc, if_pos hroom, ok_bind, pure_ok]

variable (now) in
/-- Nothing else of the caller's goes: a deleted folder's notes stay as they are. -/
theorem deleteFolder_ok {req : DeleteFolderRequest} (h : DeletesFolder id c req faults db) :
    ∃ dto db', Txn.run notesEngine (deleteFolder id c req.baseVersion) db now faults =
      (.ok dto, db') ∧ ∀ i, db'.get .note i = db.get .note i := by
  obtain ⟨hcall, f, hf, hc, hd, hv, hroom⟩ := h
  have hother : ∀ (row : Folder) i, (db.put .folder row).get .note i = db.get .note i :=
    fun row i => NotesDb.get_put_ne db (k := .folder) (by decide) row i
  exact ⟨_, _, edit_ok (.softDelete .folder id c req.baseVersion)
    (softDelete_live hf hc hd hv hroom) hcall, fun i => hother _ i⟩

variable (now) in
theorem deleteFolder_error {req : DeleteFolderRequest} (h : ¬DeletesFolder id c req faults db) :
    ∃ e, Txn.run notesEngine (deleteFolder id c req.baseVersion) db now faults = (.error e, db) := by
  refine edit_error (.softDelete .folder id c req.baseVersion)
    (fun ws hexec => softDelete_none hexec) fun row ws hexec => ?_
  obtain ⟨⟨f, hf, hc, hd, hv, hroom⟩, _⟩ := softDelete_some hexec
  by_contra hcall
  exact h ⟨by simpa using hcall, f, hf, hc, hd, hv, hroom⟩

theorem deleteFolder_cascades_iff (db : NotesDb) (now : OffsetDateTime) (faults : List Bool)
    (id c : Uuid) (req : DeleteFolderRequest) :
    FolderDeletionCascades id c req db
        (Txn.run notesEngine (deleteFolder id c req.baseVersion) db now faults) ↔
      (DeletesFolder id c req faults db →
        ∀ i n, db.get .note i = some n → ¬LiveIn c id n) := by
  by_cases hdel : DeletesFolder id c req faults db
  · obtain ⟨dto, db', hrun, hnotes⟩ := deleteFolder_ok now hdel
    rw [hrun]
    constructor
    · intro hwent _ i n hn
      exact hwent.emptied i n (by rw [hnotes, hn])
    · intro hempty
      refine ⟨?_, ?_, fun i _ => hnotes i⟩
      · intro i n hn
        exact hempty hdel i n (by rw [← hnotes, hn])
      · intro i n hn hlive
        exact absurd hlive (hempty hdel i n hn)
  · obtain ⟨e, hrun⟩ := deleteFolder_error now hdel
    rw [hrun]
    exact iff_of_true rfl fun h => absurd h hdel

/-- A folder of the user 7, and a note of theirs in it. -/
def prayers : Folder where
  id := ⟨1⟩
  fields := { title := "Prayers", pinned := false }
  creatorId := ⟨7⟩
  version := 1
  createdAt := 0
  updatedAt := 0
  deletedAt := none

def filed : Note where
  id := ⟨2⟩
  fields := { title := "Morning", content := "Psalm 5", pinned := true, folderId := some ⟨1⟩ }
  creatorId := ⟨7⟩
  version := 1
  createdAt := 0
  updatedAt := 0
  deletedAt := none

def filedDb : NotesDb := (NotesDb.empty.put .folder prayers).put .note filed

/-- The folder is deleted, its notes were to be deleted with it, and the note is live in it. -/
theorem deleted_folder_keeps_note :
    ¬FolderDeletionCascades ⟨1⟩ ⟨7⟩ { baseVersion := 1, shouldDeleteNotes := some true } filedDb
      (Txn.run notesEngine (deleteFolder ⟨1⟩ ⟨7⟩ 1) filedDb 10 []) := by
  intro h
  have hwent : NotesWentToo ⟨7⟩ ⟨1⟩ { baseVersion := 1, shouldDeleteNotes := some true } filedDb
    (Txn.run notesEngine (deleteFolder ⟨1⟩ ⟨7⟩ 1) filedDb 10 []).2 := h
  exact hwent.emptied ⟨2⟩ filed rfl ⟨rfl, rfl, rfl⟩

/-! ## Updating a note -/

/-- What the request asks for: its fields, and the note's own where it leaves one out. -/
def sent (req : UpdateNoteRequest) (f : NoteFields) : NoteFields where
  title := req.title.getD f.title
  content := req.content.getD f.content
  pinned := req.pinned.getD f.pinned
  folderId := req.folderId.or f.folderId

/-- An update that succeeds sets the fields that are sent, and nothing else, in the note and in the
other rows; one that does not leaves every row. -/
def UpdateSetsWhatIsSent (now : OffsetDateTime) (req : UpdateNoteRequest) (r : Note) (db : NotesDb)
    (out : Except NotesError NoteDto × NotesDb) : Prop :=
  match out.1 with
  | .ok _ =>
    out.2.get .note r.id = some { r with
      fields := sent req r.fields, version := r.version + 1, updatedAt := now } ∧
    ∀ k i, (k, i) ≠ (.note, r.id) → out.2.get k i = db.get k i
  | .error _ => out.2 = db

/-- What the statement assigns: the folder is not merged. -/
def assigned (req : UpdateNoteRequest) (f : NoteFields) : NoteFields :=
  { sent req f with folderId := req.folderId }

/-- The update goes through: the statement reaches the database, its texts can be bound and stored,
its folder exists, and the note's version can be raised. -/
structure UpdatesNote (req : UpdateNoteRequest) (r : Note) (faults : List Bool) (db : NotesDb) :
    Prop where
  call : faults.headD false = false
  title : bindTextOpt req.title = .ok ()
  content : bindTextOpt req.content = .ok ()
  stored : ∃ f, EntityType.note.storeFields (assigned req r.fields) = .ok f
  folder : db.checkFolder req.folderId = .ok ()
  room : r.version < intMax

/-- What is sent fits its columns, as the request's validation has it. -/
def FitsColumns (req : UpdateNoteRequest) (f : NoteFields) : Prop :=
  (sent req f).title.length ≤ 100 ∧ (sent req f).content.length ≤ 10000

/-- A column holds a text as it is given when the text fits. -/
theorem varchar_eq_self_iff {n : Nat} {s s' : String} (h : varchar n s = .ok s') :
    s' = s ↔ s.length ≤ n := by
  unfold varchar at h
  by_cases hfits : s.length ≤ n
  · rw [if_pos hfits] at h
    cases h
    exact iff_of_true rfl hfits
  · rw [if_neg hfits] at h
    split at h
    · cases h
      refine iff_of_false (fun hsame => hfits ?_) hfits
      have hlen := congrArg String.length hsame
      rw [String.length_ofList, List.length_take] at hlen
      omega
    · cases h

theorem storeFields_eq_self_iff {f g : NoteFields} (h : EntityType.note.storeFields f = .ok g) :
    g = f ↔ f.title.length ≤ 100 ∧ f.content.length ≤ 10000 := by
  simp only [EntityType.storeFields, bind_eq_ok, pure_eq_ok] at h
  obtain ⟨title, htitle, content, hcontent, rfl⟩ := h
  rw [← varchar_eq_self_iff htitle, ← varchar_eq_self_iff hcontent]
  obtain ⟨t, c, p, fid⟩ := f
  simp

theorem folderId_of_storeFields {f g : NoteFields} (h : EntityType.note.storeFields f = .ok g) :
    g.folderId = f.folderId := by
  simp only [EntityType.storeFields, bind_eq_ok, pure_eq_ok] at h
  obtain ⟨_, _, _, _, rfl⟩ := h
  rfl

theorem assigned_eq_sent_iff {req : UpdateNoteRequest} {f : NoteFields} :
    assigned req f = sent req f ↔ req.folderId.isSome = true ∨ f.folderId = none := by
  simp only [assigned, sent, NoteFields.mk.injEq, true_and]
  cases req.folderId with
  | none => simp [eq_comm]
  | some fid => simp

/-- What is stored is what is sent when that fits, and when it is what is assigned. -/
theorem stored_eq_sent_iff {req : UpdateNoteRequest} {f g : NoteFields}
    (h : EntityType.note.storeFields (assigned req f) = .ok g) :
    g = sent req f ↔ FitsColumns req f ∧ assigned req f = sent req f := by
  have hfits := storeFields_eq_self_iff h
  constructor
  · intro hsent
    have hfolder : req.folderId = (sent req f).folderId := by
      rw [← hsent]
      exact (folderId_of_storeFields h).symm
    have hsame : assigned req f = sent req f := by
      unfold assigned
      rw [hfolder]
    exact ⟨hfits.1 (hsent.trans hsame.symm), hsame⟩
  · rintro ⟨hlen, hsame⟩
    exact (hfits.2 hlen).trans hsame

/-- The statement of a request. -/
def updateInput (id c : Uuid) (req : UpdateNoteRequest) : UpdateNoteInput where
  title := req.title
  content := req.content
  pinned := req.pinned
  folderId := req.folderId
  noteId := id
  creatorId := c
  baseVersion := req.baseVersion

/-- The statement of an update that goes through. -/
theorem updateNoteByVersion_live {req : UpdateNoteRequest} {r : Note} (hr : db.get .note id = some r)
    (hc : r.creatorId = c) (hd : r.deletedAt = none) (hv : r.version = req.baseVersion)
    (h : UpdatesNote req r faults db) {f : NoteFields}
    (hf : EntityType.note.storeFields (assigned req r.fields) = .ok f) :
    Meno.updateNoteByVersion db now (updateInput id c req) =
      .ok (some { r with fields := f, version := r.version + 1, updatedAt := now },
        [.put .note { r with fields := f, version := r.version + 1, updatedAt := now }
          (some req.baseVersion)]) := by
  have hf : EntityType.note.storeFields {
      title := req.title.getD r.fields.title
      content := req.content.getD r.fields.content
      pinned := req.pinned.getD r.fields.pinned
      folderId := req.folderId } = .ok f := hf
  subst hc
  simp only [Meno.updateNoteByVersion, updateInput, h.title, h.content, ok_bind, updateRow, hr, hd, hv, hf,
    h.folder, beq_self_eq_true, Option.isNone_none, Bool.and_self, if_true, intSucc, pure_ok]
  rw [← hv, if_pos h.room]
  rfl

/-- And that of one that does not: it ends in an error, or finds no row. -/
theorem updatesNote_of_some {req : UpdateNoteRequest} {r row : Note} {ws : List Write}
    (hr : db.get .note id = some r) (hcall : faults.headD false = false)
    (h : Meno.updateNoteByVersion db now (updateInput id c req) = .ok (some row, ws)) :
    UpdatesNote req r faults db := by
  simp only [Meno.updateNoteByVersion, updateInput, bind_eq_ok] at h
  obtain ⟨⟨⟩, htitle, ⟨⟩, hcontent, h⟩ := h
  rcases updateRow_ok h with ⟨ho, _, _⟩ | ⟨r', row', hr', _, hset, _, _⟩
  · cases ho
  · rw [hr] at hr'
    cases hr'
    simp only [bind_eq_ok, intSucc_eq_ok] at hset
    obtain ⟨f, hf, ⟨⟩, hfolder, _, ⟨hroom, _⟩, _⟩ := hset
    exact ⟨hcall, htitle, hcontent, ⟨f, hf⟩, hfolder, hroom⟩

theorem updateNoteByVersion_none {input : UpdateNoteInput} {ws : List Write}
    (h : Meno.updateNoteByVersion db now input = .ok (none, ws)) : ws = [] := by
  simp only [Meno.updateNoteByVersion, bind_eq_ok] at h
  obtain ⟨_, _, _, _, h⟩ := h
  rcases updateRow_ok h with ⟨_, rfl, _⟩ | ⟨_, _, _, _, _, ho, _⟩
  · rfl
  · cases ho

/-- Of a note that the request names by its version, an update sets what is sent and nothing else,
unless it goes through with a text that does not fit, or without a folder for a filed note. -/
theorem updateNote_sets_iff (db : NotesDb) (now : OffsetDateTime) (faults : List Bool) (id c : Uuid)
    (req : UpdateNoteRequest) (r : Note) (hr : db.get .note id = some r) (hc : r.creatorId = c)
    (hd : r.deletedAt = none) (hv : r.version = req.baseVersion) :
    UpdateSetsWhatIsSent now req r db
        (Txn.run notesEngine (updateNote id c req) db now faults) ↔
      (UpdatesNote req r faults db → FitsColumns req r.fields ∧
        (req.folderId.isSome = true ∨ r.fields.folderId = none)) := by
  by_cases hgoes : UpdatesNote req r faults db
  · obtain ⟨f, hf⟩ := hgoes.stored
    have hrun : Txn.run notesEngine (updateNote id c req) db now faults = _ :=
      edit_ok (k := .note) (.updateNoteByVersion (updateInput id c req))
        (updateNoteByVersion_live hr hc hd hv hgoes hf) hgoes.call
    rw [hrun]
    have hstored : f = sent req r.fields ↔
        FitsColumns req r.fields ∧ (req.folderId.isSome = true ∨ r.fields.folderId = none) := by
      rw [stored_eq_sent_iff hf, assigned_eq_sent_iff]
    constructor
    · rintro ⟨hrow, _⟩ _
      have hput := hrow.symm.trans (NotesDb.get_put_self db .note
        { r with fields := f, version := r.version + 1, updatedAt := now })
      have hfields := congrArg Row.fields (Option.some.inj hput)
      exact hstored.1 hfields.symm
    · intro hcond
      obtain rfl := hstored.2 (hcond hgoes)
      refine ⟨NotesDb.get_put_self db .note _, fun k i hne => ?_⟩
      exact NotesDb.get_put_other db .note _ hne
  · have hrun : ∃ e, Txn.run notesEngine (updateNote id c req) db now faults = (.error e, db) :=
      edit_error (k := .note) (.updateNoteByVersion (updateInput id c req))
        (fun ws hexec => updateNoteByVersion_none hexec) (fun row ws hexec => by
          by_contra hcall
          exact hgoes (updatesNote_of_some hr (by simpa using hcall) hexec))
    obtain ⟨e, hrun⟩ := hrun
    rw [hrun]
    exact iff_of_true rfl fun h => absurd h hgoes

/-- The note's new title, and the folder that it is in. -/
def retitle : UpdateNoteRequest where
  title := some "Evening"
  content := none
  pinned := none
  folderId := some ⟨1⟩
  baseVersion := 1

theorem updateNote_sets_title :
    UpdateSetsWhatIsSent 10 retitle filed filedDb
        (Txn.run notesEngine (updateNote ⟨2⟩ ⟨7⟩ retitle) filedDb 10 []) ↔
      (UpdatesNote retitle filed [] filedDb → FitsColumns retitle filed.fields ∧
        (retitle.folderId.isSome = true ∨ filed.fields.folderId = none)) :=
  updateNote_sets_iff filedDb 10 [] ⟨2⟩ ⟨7⟩ retitle filed rfl rfl rfl rfl

/-- A new title alone takes the note out of its folder. -/
theorem new_title_unfiles :
    filedDb.get .note ⟨2⟩ = some filed ∧ filed.version = 1 ∧
      ¬UpdateSetsWhatIsSent 10 { retitle with folderId := none } filed filedDb
        (Txn.run notesEngine (updateNote ⟨2⟩ ⟨7⟩ { retitle with folderId := none }) filedDb 10
          []) := by
  refine ⟨rfl, rfl, ?_⟩
  rintro ⟨hrow, _⟩
  have hfolder : (none : Option Uuid) = some ⟨1⟩ :=
    congrArg (fun o : Option Note => o.bind fun n => n.fields.folderId) hrow
  cases hfolder

end NotesService

end Meno
