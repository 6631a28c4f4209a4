import Meno.Lib.Tenants
import Meno.Notes.Interleaving
import Meno.Notes.Listing
import Meno.Notes.SyncPull

/-!
# Meno.Notes.Tenants

What do the other users' requests do to a user's notes and folders? Every statement but the purge
names a user and writes rows of that user only (`exec_own`), and every `SELECT` answers from the
rows of the user it names (`Sees`). So in any run the user's part of the tables is made by the
user's own requests and the purge.
-/

namespace Meno

open Lib

def AnyRow.creatorId (r : AnyRow) : Uuid := r.2.creatorId

/-- The user that a statement is about; the purge is about all of them. -/
def NotesStmt.creator : {β : Type} → NotesStmt β → Option Uuid
  | _, .createNote i => some i.creatorId
  | _, .createFolder i => some i.creatorId
  | _, .updateNoteByVersion i => some i.creatorId
  | _, .updateFolderByVersion i => some i.creatorId
  | _, .softDelete _ _ c _ => some c
  | _, .addNoteToFolder c _ _ => some c
  | _, .removeNoteFromFolder c _ _ => some c
  | _, .moveNotesToFolder c _ => some c
  | _, .orphanNotesInFolder _ c => some c
  | _, .upsertIfAbsent _ _ c _ => some c
  | _, .applySnapshotIfVersionMatches _ _ c _ _ => some c
  | _, .forceApplySnapshot _ _ c _ => some c
  | _, .findById _ _ c => some c
  | _, .ownedFolderIds c _ => some c
  | _, .findChangedSince _ c _ _ => some c
  | _, .purgeBatch _ _ => none

/-- The user who makes the request; the purge is a job. -/
def NotesOp.creator : NotesOp → Option Uuid
  | .createNote c _ => some c
  | .createFolder c _ => some c
  | .updateNote _ c _ => some c
  | .updateFolder _ c _ => some c
  | .deleteNote _ c _ => some c
  | .deleteFolder _ c _ => some c
  | .addNoteToFolder c _ _ => some c
  | .removeNoteToFolder c _ _ => some c
  | .moveNotesToFolder c _ => some c
  | .syncPush c _ => some c
  | .purgeStale _ _ => none

/-! ## Writes -/

/-- The statement's writes are to rows of `c`. -/
abbrev OwnWrites (c : Uuid) (db : NotesDb) (ws : List Write) : Prop :=
  ∀ w ∈ ws, World.WritesOwn notesKeyed AnyRow.creatorId c db w

section Writes

variable {db : NotesDb} {now : OffsetDateTime} {k : EntityType} {id c : Uuid} {ws : List Write}

theorem ownWrites_nil : OwnWrites c db [] := by
  intro w hw
  cases hw

theorem look_of_get {r : Row k.Fields} (h : db.get k id = some r) :
    notesKeyed.look db (k, id) = some ⟨k, r⟩ := by
  show (db.get k id).map _ = _
  rw [h]
  rfl

theorem ownWrites_insert {f : k.Fields} (h : db.get k id = none) :
    OwnWrites c db [.put k (newRow now id c f) none] := by
  intro w hw
  obtain rfl := List.mem_singleton.1 hw
  refine ⟨⟨_, rfl, rfl⟩, ?_⟩
  intro r hr
  have hnone : notesKeyed.look db (k, id) = none := by
    show (db.get k id).map _ = _
    rw [h]
    rfl
  cases hnone.symm.trans hr

theorem writesOwn_bump {r row : Row k.Fields} {guard : Option Int} (hr : db.get k r.id = some r)
    (hb : Bump now r row) (hc : r.creatorId = c) :
    World.WritesOwn notesKeyed AnyRow.creatorId c db (.put k row guard) where
  stores := ⟨⟨k, row⟩, rfl, hb.creatorId.trans hc⟩
  place r' hr' := by
    have hlook : notesKeyed.look db (k, row.id) = some ⟨k, r⟩ := by
      rw [hb.id]
      exact look_of_get hr
    cases hlook.symm.trans hr'
    exact hc

variable (now) in
theorem ownWrites_updateRow {guard : Option Int} {cond : Row k.Fields → Bool}
    {set : Row k.Fields → Except DbError (Row k.Fields)} {o : Option (Row k.Fields)}
    (hset : ∀ r row, set r = .ok row → Bump now r row)
    (hcond : ∀ r, cond r = true → r.creatorId = c)
    (h : updateRow db k id guard cond set = .ok (o, ws)) : OwnWrites c db ws := by
  rcases updateRow_ok h with ⟨_, rfl, _⟩ | ⟨r, row, hr, hc, hs, _, rfl⟩
  · exact ownWrites_nil
  · intro w hw
    obtain rfl := List.mem_singleton.1 hw
    have hget : db.get k r.id = some r := by rw [NotesDb.id_of_get hr, hr]
    exact writesOwn_bump hget (hset r row hs) (hcond r hc)

theorem ownWrites_refile {f : Option Uuid} {p : Note → Bool} {rows : List Note}
    (hp : ∀ r, p r = true → r.creatorId = c)
    (h : refile db now f (db.notes.rows.filter p) = .ok (rows, ws)) : OwnWrites c db ws := by
  intro w hw
  obtain ⟨r, hr, _, rfl⟩ := (refile_ok h).2 w hw
  obtain ⟨hmem, hpr⟩ := List.mem_filter.1 hr
  have hb : Bump now r { r with
      fields := { r.fields with folderId := f }, version := r.version + 1,
      updatedAt := now } := ⟨rfl, rfl, rfl, rfl, rfl⟩
  exact writesOwn_bump (k := .note) (Table.mem_rows_iff.1 hmem) hb (hp r hpr)

end Writes

theorem exec_own {β : Type} {s : NotesStmt β} {now : OffsetDateTime} {db : NotesDb} {b : β}
    {ws : List Write} {c : Uuid} (hc : s.creator = some c) (h : s.exec now db = .ok (b, ws)) :
    OwnWrites c db ws := by
  cases s with
  | createNote i =>
    cases hc
    obtain ⟨f', hn, _, _, rfl, rfl⟩ := insertRow_ok h
    exact ownWrites_insert hn
  | createFolder i =>
    cases hc
    simp only [NotesStmt.exec, createFolder] at h
    cases hpin : i.pinned with
    | none => rw [hpin] at h; cases h
    | some pinned =>
      rw [hpin] at h
      obtain ⟨f', hn, _, _, rfl, rfl⟩ := insertRow_ok h
      exact ownWrites_insert hn
  | updateNoteByVersion i =>
    cases hc
    simp only [NotesStmt.exec, updateNoteByVersion, bind_eq_ok] at h
    obtain ⟨_, _, _, _, h⟩ := h
    refine ownWrites_updateRow now ?_ ?_ h
    · intro r row hs
      simp only [bind_eq_ok, pure_eq_ok, intSucc_eq_ok] at hs
      obtain ⟨_, _, _, _, _, ⟨_, rfl⟩, rfl⟩ := hs
      exact ⟨rfl, rfl, rfl, rfl, rfl⟩
    · intro r hr
      simp only [Bool.and_eq_true, beq_iff_eq] at hr
      exact hr.1.1
  | updateFolderByVersion i =>
    cases hc
    simp only [NotesStmt.exec, updateFolderByVersion, bind_eq_ok] at h
    obtain ⟨_, _, h⟩ := h
    refine ownWrites_updateRow now ?_ ?_ h
    · intro r row hs
      simp only [bind_eq_ok, pure_eq_ok, intSucc_eq_ok] at hs
      obtain ⟨_, _, _, ⟨_, rfl⟩, rfl⟩ := hs
      exact ⟨rfl, rfl, rfl, rfl, rfl⟩
    · intro r hr
      simp only [Bool.and_eq_true, beq_iff_eq] at hr
      exact hr.1.1
  | softDelete k id c' v =>
    cases hc
    refine ownWrites_updateRow now ?_ ?_ h
    · intro r row hs
      simp only [bind_eq_ok, pure_eq_ok, intSucc_eq_ok] at hs
      obtain ⟨_, ⟨_, rfl⟩, rfl⟩ := hs
      exact ⟨rfl, rfl, rfl, rfl, rfl⟩
    · intro r hr
      simp only [Bool.and_eq_true, beq_iff_eq] at hr
      exact hr.1.1
  | addNoteToFolder c' n f =>
    cases hc
    refine ownWrites_updateRow now ?_ ?_ h
    · intro r row hs
      simp only [bind_eq_ok, pure_eq_ok, intSucc_eq_ok] at hs
      obtain ⟨_, _, _, ⟨_, rfl⟩, rfl⟩ := hs
      exact ⟨rfl, rfl, rfl, rfl, rfl⟩
    · intro r hr
      simp only [Bool.and_eq_true, beq_iff_eq] at hr
      exact hr.1
  | removeNoteFromFolder c' n f =>
    cases hc
    refine ownWrites_updateRow now ?_ ?_ h
    · intro r row hs
      simp only [bind_eq_ok, pure_eq_ok, intSucc_eq_ok] at hs
      obtain ⟨_, ⟨_, rfl⟩, rfl⟩ := hs
      exact ⟨rfl, rfl, rfl, rfl, rfl⟩
    · intro r hr
      simp only [Bool.and_eq_true, beq_iff_eq] at hr
      exact hr.1.1
  | moveNotesToFolder c' req =>
    cases hc
    refine ownWrites_refile ?_ h
    intro r hr
    simp only [Bool.and_eq_true, beq_iff_eq] at hr
    exact hr.1.2
  | orphanNotesInFolder f c' =>
    cases hc
    simp only [NotesStmt.exec, orphanNotesInFolder, bind_eq_ok, pure_eq_ok] at h
    obtain ⟨⟨rows, ws'⟩, hr, h⟩ := h
    cases h
    refine ownWrites_refile ?_ hr
    intro r hr
    simp only [Bool.and_eq_true, beq_iff_eq] at hr
    exact hr.1.2
  | upsertIfAbsent k id c' s =>
    cases hc
    rcases upsertIfAbsent_ok h with ⟨_, rfl, _⟩ | ⟨f', hn, _, _, _, rfl⟩
    · exact ownWrites_nil
    · exact ownWrites_insert hn
  | applySnapshotIfVersionMatches k id c' v s =>
    cases hc
    refine ownWrites_updateRow now (fun _ _ hs => setSnapshot_bump hs) ?_
      (applySnapshotIfVersionMatches_ok h)
    intro r hr
    simp only [Bool.and_eq_true, beq_iff_eq] at hr
    exact hr.1
  | forceApplySnapshot k id c' s =>
    cases hc
    refine ownWrites_updateRow now (fun _ _ hs => setSnapshot_bump hs) ?_ (forceApplySnapshot_ok h)
    intro r hr
    exact beq_iff_eq.1 hr
  | findById k id c' => cases h; exact ownWrites_nil
  | ownedFolderIds c' ids => cases h; exact ownWrites_nil
  | findChangedSince k c' cursor limit =>
    rw [(findChangedSince_ok h).2]
    exact ownWrites_nil
  | purgeBatch k cutoff => cases hc

/-- A request's statements are about the user who makes it; a job's are about anyone. -/
def NotesOp.About (op : NotesOp) {β : Type} (s : NotesStmt β) : Prop :=
  ∀ c, op.creator = some c → s.creator = some c

theorem about_disciplined (op : NotesOp) :
    World.Disciplined (K := notesKeyed) (fun s => op.About s)
      (World.WritesFor notesKeyed AnyRow.creatorId op.creator) where
  exec := by
    intro β s now db b ws hs he
    cases hop : op.creator with
    | none => exact World.chain_of_forall (fun _ _ _ _ hu => by cases hu) db
    | some c =>
      have hc := hs c hop
      have hlegal := exec_legal (by cases s <;> first | rfl | cases hc) he
      refine chain_of_nodup notesKeyed ?_ ws db ?_ hlegal.2
      · exact fun _ _ _ hsame h u hu => (h u hu).congr hsame
      · rintro w hw u ⟨⟩
        exact exec_own hc he w hw
  row _ _ _ hsame h u hu := (h u hu).congr hsame

/-! ## Requests -/

section Requests

variable {c : Uuid}

/-- The call is a statement about `c`, or none. -/
abbrev AboutUser (c : Uuid) {β : Type} : Cmd NotesStmt DbError β → Prop :=
  World.AllGood fun s => s.creator = some c

theorem about_findOrFail (k : EntityType) (id : Uuid) :
    Act.Uses (AboutUser c) (findOrFail k id c) := uses_findOrFail rfl

theorem about_answer {α : Type} {x : NotesSvc α} {f : α → NotesAnswer}
    (h : Act.Uses (AboutUser c) x) : Act.Uses (AboutUser c) (x >>= fun a => pure (f a)) :=
  Act.uses_bind h fun _ => Act.uses_pure _

/-- The operations that guard their update by a version. -/
theorem about_guarded {k : EntityType} {id : Uuid} {s : NotesStmt (Option (Row k.Fields))}
    (hs : s.creator = some c) :
    Act.Uses (AboutUser c) (query .pool s >>= rowOrConflict k id c) :=
  Act.uses_bind (uses_query hs) fun o => uses_rowOrConflict rfl o

theorem about_addNoteToFolder (n f : Uuid) :
    Act.Uses (AboutUser c) (NotesService.addNoteToFolder c n f) := by
  unfold NotesService.addNoteToFolder
  refine Act.uses_bind (Act.uses_attempt (uses_query rfl)) fun noteResult => ?_
  refine Act.uses_bind (Act.uses_attempt (uses_query rfl)) fun folderResult => ?_
  refine Act.uses_bind (Act.uses_ofExcept _) fun note? => ?_
  refine Act.uses_bind (uses_okOr _ _) fun note => ?_
  refine Act.uses_bind (Act.uses_ofExcept _) fun folder? => ?_
  refine Act.uses_bind (uses_okOr _ _) fun folder => ?_
  split
  · exact Act.uses_pure _
  split
  · exact Act.uses_throw _
  split
  · exact Act.uses_throw _
  refine Act.uses_bind (uses_query rfl) ?_
  rintro (_ | row)
  · exact Act.uses_throw _
  · exact Act.uses_pure _

theorem about_moveNotesToFolder (req : MoveNotesToFolderRequest) :
    Act.Uses (AboutUser c) (NotesService.moveNotesToFolder c req) := by
  have htarget : ∀ f, Act.Uses (AboutUser c) (NotesService.checkTarget c f) := by
    rintro (_ | f)
    · exact Act.uses_pure _
    · exact Act.uses_bind (about_findOrFail .folder f) fun _ => Act.uses_pure _
  unfold NotesService.moveNotesToFolder
  split
  · exact Act.uses_pure _
  split
  · exact Act.uses_throw _
  refine Act.uses_bind (htarget _) fun _ => ?_
  exact Act.uses_bind (uses_query rfl) fun _ => Act.uses_pure _

theorem about_syncPush (ms : List SyncMutation) :
    Act.Uses (AboutUser c) (NotesService.syncPush c ms) := by
  have hm : ∀ (k : EntityType) (m : Mutation k.Fields),
      Act.Uses (AboutUser c) (NotesService.applyMutation k c m) :=
    fun k m => uses_applyMutation rfl (fun _ _ _ => rfl) (fun _ => rfl) fun _ _ => rfl
  unfold NotesService.syncPush
  by_cases hempty : ms.isEmpty = true
  · rw [if_pos hempty]
    exact Act.uses_pure _
  rw [if_neg hempty]
  by_cases hlen : ms.length > NotesService.maxMutationsPerPush
  · rw [if_pos hlen]
    exact Act.uses_throw _
  rw [if_neg hlen]
  refine Act.uses_bind (Act.uses_ask trivial) fun _ => ?_
  refine Act.uses_bind (uses_applyEach fun p _ => hm .folder p.2) fun _ => ?_
  refine Act.uses_bind ?_ fun owned => ?_
  · unfold NotesService.ownedOf
    split
    · exact Act.uses_pure _
    · exact uses_query rfl
  refine Act.uses_bind (uses_applyEach fun p _ => hm .note (NotesService.unfile owned p.2)) ?_
  exact fun _ => Act.uses_bind (Act.uses_ask trivial) fun _ => Act.uses_pure _

/-- A user's request makes statements about that user only. -/
theorem about_of_creator {op : NotesOp} (h : op.creator = some c) :
    Act.Uses (AboutUser c) op.prog := by
  cases op <;> cases h
  case createNote req =>
    exact about_answer (Act.uses_bind (uses_query rfl) fun _ => Act.uses_pure _)
  case createFolder req =>
    exact about_answer (Act.uses_bind (uses_query rfl) fun _ => Act.uses_pure _)
  case updateNote id req => exact about_answer (about_guarded (k := .note) rfl)
  case updateFolder id req => exact about_answer (about_guarded (k := .folder) rfl)
  case deleteNote id v => exact about_answer (about_guarded (k := .note) rfl)
  case deleteFolder id v => exact about_answer (about_guarded (k := .folder) rfl)
  case addNoteToFolder n f => exact about_answer (about_addNoteToFolder n f)
  case removeNoteToFolder n f =>
    refine about_answer (Act.uses_bind (uses_query rfl) fun _ => ?_)
    exact Act.uses_bind (uses_okOr _ _) fun _ => Act.uses_pure _
  case moveNotesToFolder req => exact about_answer (about_moveNotesToFolder req)
  case syncPush ms => exact about_answer (about_syncPush ms)

theorem uses_about (op : NotesOp) :
    Prog.Uses (World.AllGood fun s => op.About s) (ExceptT.run op.prog) := by
  cases hop : op.creator with
  | none =>
    refine World.uses_allGood_mono ?_ (World.uses_anything _)
    rintro β s - c hc
    rw [hop] at hc
    cases hc
  | some c =>
    refine World.uses_allGood_mono ?_ (about_of_creator hop)
    intro β s hs c' hc'
    rw [hop] at hc'
    cases hc'
    exact hs

end Requests

/-! ## What a user sees -/

/-- A user has the same rows in both. -/
def SameFor (u : Uuid) (db db' : NotesDb) : Prop :=
  ∀ κ, World.rowOf notesKeyed AnyRow.creatorId u db κ =
    World.rowOf notesKeyed AnyRow.creatorId u db' κ

/-- Every `SELECT` of the repository finds the same for the user in both. -/
structure SeesSame (u : Uuid) (db db' : NotesDb) : Prop where
  findById : ∀ k id, findById db k id u = findById db' k id u
  ownedFolderIds : ∀ ids, (ownedFolderIds db u ids).Perm (ownedFolderIds db' u ids)
  findChangedSince : ∀ k cursor limit,
    findChangedSince db k u cursor limit = findChangedSince db' k u cursor limit
  findNotes : ∀ t search query, NotesRepository.findNotes t search db u query =
    NotesRepository.findNotes t search db' u query
  findFolders : ∀ t search query, NotesRepository.findFolders t search db u query =
    NotesRepository.findFolders t search db' u query

section Sees

variable {u : Uuid} {db db' : NotesDb} {k : EntityType}

theorem rowOf_eq_some_iff {id : Uuid} {r : Row k.Fields} :
    World.rowOf notesKeyed AnyRow.creatorId u db (k, id) = some ⟨k, r⟩ ↔
      db.get k id = some r ∧ r.creatorId = u := by
  have hrow : World.rowOf notesKeyed AnyRow.creatorId u db (k, id) =
      ((db.get k id).map fun r => (⟨k, r⟩ : AnyRow)).filter fun r => AnyRow.creatorId r = u := rfl
  rw [hrow, Option.filter_eq_some_iff, Option.map_eq_some_iff, decide_eq_true_eq]
  constructor
  · rintro ⟨⟨r', hr', ⟨⟩⟩, hu⟩
    exact ⟨hr', hu⟩
  · rintro ⟨hr, hu⟩
    exact ⟨⟨r, hr, rfl⟩, hu⟩

theorem SameFor.get_iff (h : SameFor u db db') {id : Uuid} {r : Row k.Fields}
    (hr : r.creatorId = u) : db.get k id = some r ↔ db'.get k id = some r := by
  have hsame := h (k, id)
  constructor
  · intro hget
    rw [rowOf_eq_some_iff.2 ⟨hget, hr⟩] at hsame
    exact (rowOf_eq_some_iff.1 hsame.symm).1
  · intro hget
    rw [rowOf_eq_some_iff.2 ⟨hget, hr⟩] at hsame
    exact (rowOf_eq_some_iff.1 hsame).1

/-- A condition that only rows of the user meet selects the same rows. -/
theorem SameFor.filter_perm (h : SameFor u db db') {p : Row k.Fields → Bool}
    (hp : ∀ r, p r = true → r.creatorId = u) :
    ((db.table k).rows.filter p).Perm ((db'.table k).rows.filter p) := by
  have hnodup : ∀ db : NotesDb, ((db.table k).rows.filter p).Nodup := fun db =>
    (List.Nodup.of_map _ (db.table k).nodup).filter _
  refine (List.perm_ext_iff_of_nodup (hnodup db) (hnodup db')).2 fun r => ?_
  rw [List.mem_filter, List.mem_filter]
  refine and_congr_left fun hr => ?_
  rw [Table.mem_rows_iff, Table.mem_rows_iff]
  exact h.get_iff (hp r hr)

theorem SameFor.findById (h : SameFor u db db') (k : EntityType) (id : Uuid) :
    findById db k id u = findById db' k id u := by
  refine Option.ext fun r => ?_
  simp only [Meno.findById, Option.filter_eq_some_iff, Bool.and_eq_true, beq_iff_eq]
  exact and_congr_left fun hr => h.get_iff hr.1

theorem SameFor.findChangedSince (h : SameFor u db db') (k : EntityType)
    (cursor : Option (OffsetDateTime × Uuid)) (limit : Int) :
    findChangedSince db k u cursor limit = findChangedSince db' k u cursor limit := by
  rw [findChangedSince_eq, findChangedSince_eq]
  refine congrArg (fun shown => (bindCursor cursor).map shown) (funext fun pos => ?_)
  have hperm : (changed db k u pos).Perm (changed db' k u pos) := by
    refine (List.perm_insertionSort _ _).trans ?_
    refine (h.filter_perm fun r hr => ?_).trans (List.perm_insertionSort _ _).symm
    rw [Bool.and_eq_true, beq_iff_eq] at hr
    exact hr.1
  -- both are in the order of the feed, in which no two rows have one place
  refine congrArg _ (@List.Perm.eq_of_pairwise _ (fun r r' => r.syncKey < r'.syncKey) _ _ ?_
    (changed_ascending db k u pos) (changed_ascending db' k u pos) hperm)
  intro r r' _ _ hlt hgt
  exact absurd hgt (lt_asymm hlt)

/-- A listing by time and id whose conditions only rows of the user meet. -/
theorem SameFor.fetchAll (h : SameFor u db db') {qb : Sql.Select (Row k.Fields) SqlValue}
    (hqb : ∀ r, qb.matching r = true → r.creatorId = u) (keywords : Option String)
    {n : Sql.Nulls} (hkeys : qb.orderBy.mapM Sql.SortItem.key =
      .ok (Sql.sameKeys .desc n (timestampCols Row.createdAt Row.id))) :
    fetchAll qb keywords (db.table k).rows = fetchAll qb keywords (db'.table k).rows := by
  have hid : (((db.table k).rows.filter qb.matching).map Row.id).Nodup :=
    (db.table k).nodup.sublist (List.filter_sublist.map _)
  have hrun := Sql.run_perm qb hkeys (identify_timestamp hid) (h.filter_perm hqb).symm
  rw [Meno.fetchAll, Meno.fetchAll, hrun]

theorem matching_notesSelect {search : String → String → Bool} {query : NotesQuery}
    {ts : Option OffsetDateTime} {i : Option Uuid} {n : Note}
    (hn : (NotesRepository.notesSelect search u query ts i).matching n = true) :
    n.creatorId = u := by
  have hmatching : (NotesRepository.notesSelect search u query ts i).matching =
      query.wants search u := by
    rw [← matching_notesWhere]
    cases ts <;> cases i <;> rfl
  rw [hmatching] at hn
  simp only [NotesQuery.wants, Bool.and_eq_true, beq_iff_eq] at hn
  exact hn.1.1.1.1

theorem matching_foldersSelect {search : String → String → Bool} {query : FoldersQuery}
    {ts : Option OffsetDateTime} {i : Option Uuid} {f : Folder}
    (hf : (NotesRepository.foldersSelect search u query ts i).matching f = true) :
    f.creatorId = u := by
  have hmatching : (NotesRepository.foldersSelect search u query ts i).matching =
      query.wants search u := by
    rw [← matching_foldersWhere]
    cases ts <;> cases i <;> rfl
  rw [hmatching] at hf
  simp only [FoldersQuery.wants, Bool.and_eq_true, beq_iff_eq] at hf
  exact hf.1.1.1

theorem seesSame_of_same (h : SameFor u db db') : SeesSame u db db' where
  findById := h.findById
  ownedFolderIds ids := by
    refine (h.filter_perm (k := .folder) fun r hr => ?_).map _
    rw [Bool.and_eq_true, beq_iff_eq] at hr
    exact hr.1
  findChangedSince := h.findChangedSince
  findNotes t search query := by
    refine congrArg _ (funext fun pos => ?_)
    exact h.fetchAll (k := .note) (fun _ => matching_notesSelect) query.keywords rfl
  findFolders t search query := by
    refine congrArg _ (funext fun pos => ?_)
    exact h.fetchAll (k := .folder) (fun _ => matching_foldersSelect) query.keywords rfl

end Sees

/-! ## Every run -/

section Runs

variable {ι : Type} [DecidableEq ι]

/-- The tables as the requests of `u` and the purge alone have made them. -/
def tablesOf (ops : ι → NotesOp) (db : NotesDb) (w : NotesWorld ι) (u : Uuid) : NotesDb :=
  notesEngine.applyAll db (World.commitsFor (fun i => (ops i).creator) u w.log)

/-- `rows`: a user's notes and folders are what the commits of the user's own requests and of the
purge have made of them. `sees`: so is everything that the user is shown. -/
structure UsersApart (ops : ι → NotesOp) (db : NotesDb) (w : NotesWorld ι) : Prop where
  rows : ∀ u k id (r : Row k.Fields), r.creatorId = u →
    (w.committed.get k id = some r ↔ (tablesOf ops db w u).get k id = some r)
  sees : ∀ u, SeesSame u w.committed (tablesOf ops db w u)

theorem users_apart (ops : ι → NotesOp) (db : NotesDb) (t : OffsetDateTime) (w : NotesWorld ι)
    (h : World.Reaches notesKeyed (fun i => ExceptT.run (ops i).prog) db t w) :
    UsersApart ops db w := by
  have hsame : ∀ u, SameFor u w.committed (tablesOf ops db w u) := fun u κ =>
    World.rowOf_of_reaches (fun i => (ops i).creator)
      (fun i => about_disciplined (ops i)) (fun i => uses_about (ops i)) h u κ
  exact ⟨fun u k id r hr => (hsame u).get_iff hr, fun u => seesSame_of_same (hsame u)⟩

/-- User 8 knows the id of a note of user 7, and tries to change it. -/
def intrusion : Fin 2 → NotesOp
  | 0 => .createNote ⟨7⟩ groceries
  | 1 => .updateNote ⟨1⟩ ⟨8⟩ (editTo "bread")

theorem users_apart_intrusion :
    ∃ w : NotesWorld (Fin 2), w.log.length = 1 ∧
      w.callers 1 = ⟨.ret (.error .noteNotFound), none, 0⟩ ∧ UsersApart intrusion .empty w := by
  refine ⟨_, ?_, ?_, users_apart intrusion .empty 0 _ (.tail (.tail (.tail .refl
    (.call (i := 0) false rfl (free_of_idle ?_ _ _ _)))
    (.call (i := 1) false rfl (free_of_idle ?_ _ _ _)))
    (.call (i := 1) false rfl (free_of_idle ?_ _ _ _)))⟩
  · rfl
  · rfl
  · decide
  · decide
  · decide

end Runs

end Meno
