import Meno.Notes.Repository

/-!
# Meno.Notes.Statements

What a statement of the repository can write, once for all statements.

`Legal` is the discipline of a row write: an insert starts at version 1, an update raises the
version by exactly one, stamps the row with `NOW()` and keeps the id, the creator and the
creation time; a write that was guarded by a version found that version. `exec_legal` shows
that every statement but the purge keeps it; the later modules derive their invariants from it.
-/

namespace Meno

/-- What the assignments of a versioned `UPDATE` have in common. -/
structure Bump {F : Type} (now : OffsetDateTime) (r row : Row F) : Prop where
  id : row.id = r.id
  creatorId : row.creatorId = r.creatorId
  version : row.version = r.version + 1
  createdAt : row.createdAt = r.createdAt
  updatedAt : row.updatedAt = now

/-- The row writes of a statement that inserts the row `ins`, if any. -/
inductive Legal (now : OffsetDateTime) (db : NotesDb) (ins : Option (EntityType × Uuid)) :
    Write → Prop where
  | insert {k : EntityType} {id c : Uuid} {f : k.Fields} :
      ins = some (k, id) → db.get k id = none → Legal now db ins (.put k (newRow now id c f) none)
  | update {k : EntityType} {r row : Row k.Fields} {guard : Option Int} :
      db.get k r.id = some r → Bump now r row → (∀ v, guard = some v → v = r.version) →
        Legal now db ins (.put k row guard)

/-- The writes of one statement: each keeps the discipline, and they are to different rows. -/
def LegalWrites (now : OffsetDateTime) (db : NotesDb) (ins : Option (EntityType × Uuid))
    (ws : List Write) : Prop :=
  (∀ w ∈ ws, Legal now db ins w) ∧ (ws.map Write.key).Nodup

section LegalWrites

variable {now : OffsetDateTime} {db : NotesDb} {ins : Option (EntityType × Uuid)}

theorem legalWrites_nil : LegalWrites now db ins [] := by simp [LegalWrites]

theorem legalWrites_single {w : Write} (h : Legal now db ins w) : LegalWrites now db ins [w] := by
  simpa [LegalWrites] using h

end LegalWrites

/-! ## INSERT -/

theorem insertRow_ok {db : NotesDb} {now : OffsetDateTime} {k : EntityType} {id c : Uuid}
    {f : k.Fields} {row : Row k.Fields} {ws : List Write}
    (h : insertRow db now k id c f = .ok (row, ws)) :
    ∃ f', db.get k id = none ∧ k.storeFields f = .ok f' ∧ db.checkRefs k f' = .ok () ∧
      row = newRow now id c f' ∧ ws = [.put k row none] := by
  simp only [insertRow, bind_eq_ok] at h
  obtain ⟨_, _, f', hf, h⟩ := h
  by_cases he : (db.get k id).isSome = true
  · rw [if_pos he] at h
    cases h
  · rw [if_neg he] at h
    simp only [bind_eq_ok, pure_eq_ok, Prod.mk.injEq] at h
    obtain ⟨_, hr, rfl, rfl⟩ := h
    exact ⟨f', by simpa using he, hf, hr, rfl, rfl⟩

theorem upsertIfAbsent_ok {db : NotesDb} {now : OffsetDateTime} {k : EntityType} {id c : Uuid}
    {s : Snapshot k.Fields} {o : Option (Row k.Fields)} {ws : List Write}
    (h : upsertIfAbsent db now k id c s = .ok (o, ws)) :
    (o = none ∧ ws = [] ∧ (db.get k id).isSome = true) ∨
    ∃ f', db.get k id = none ∧ k.storeFields s.fields = .ok f' ∧ db.checkRefs k f' = .ok () ∧
      o = some (newRow now id c f') ∧ ws = [.put k (newRow now id c f') none] := by
  simp only [upsertIfAbsent, bind_eq_ok] at h
  obtain ⟨_, _, f', hf, h⟩ := h
  by_cases he : (db.get k id).isSome = true
  · rw [if_pos he, pure_eq_ok] at h
    cases h
    exact .inl ⟨rfl, rfl, he⟩
  · rw [if_neg he] at h
    simp only [bind_eq_ok, pure_eq_ok, Prod.mk.injEq] at h
    obtain ⟨_, hr, rfl, rfl⟩ := h
    exact .inr ⟨f', by simpa using he, hf, hr, rfl, rfl⟩

/-! ## UPDATE -/

theorem updateRow_ok {db : NotesDb} {k : EntityType} {id : Uuid} {guard : Option Int}
    {cond : Row k.Fields → Bool} {set : Row k.Fields → Except DbError (Row k.Fields)}
    {o : Option (Row k.Fields)} {ws : List Write}
    (h : updateRow db k id guard cond set = .ok (o, ws)) :
    (o = none ∧ ws = [] ∧ ∀ r, db.get k id = some r → cond r = false) ∨
    ∃ r row, db.get k id = some r ∧ cond r = true ∧ set r = .ok row ∧ o = some row ∧
      ws = [.put k row guard] := by
  unfold updateRow at h
  cases hr : db.get k id with
  | none =>
    rw [hr] at h
    cases h
    exact .inl ⟨rfl, rfl, fun _ h => by cases h⟩
  | some r =>
    rw [hr] at h
    by_cases hc : cond r = true
    · simp only [hc, if_true, bind_eq_ok, pure_eq_ok, Prod.mk.injEq] at h
      obtain ⟨row, hrow, ho, hws⟩ := h
      exact .inr ⟨r, row, rfl, hc, hrow, ho.symm, hws.symm⟩
    · simp only [hc, Bool.false_eq_true, if_false] at h
      cases h
      refine .inl ⟨rfl, rfl, ?_⟩
      rintro r' hr'
      cases hr'
      simpa using hc

/-- The writes of an `UPDATE` whose assignments bump the row and whose guard, if it has one, is
part of its condition. -/
theorem updateRow_legal {ins : Option (EntityType × Uuid)} {db : NotesDb} {now : OffsetDateTime}
    {k : EntityType} {id : Uuid}
    {guard : Option Int} {cond : Row k.Fields → Bool}
    {set : Row k.Fields → Except DbError (Row k.Fields)} {o : Option (Row k.Fields)}
    {ws : List Write} (hset : ∀ r row, set r = .ok row → Bump now r row)
    (hg : ∀ r v, cond r = true → guard = some v → v = r.version)
    (h : updateRow db k id guard cond set = .ok (o, ws)) :
    LegalWrites now db ins ws := by
  rcases updateRow_ok h with ⟨_, rfl, _⟩ | ⟨r, row, hr, hc, hs, _, rfl⟩
  · exact legalWrites_nil
  · have hget : db.get k r.id = some r := by rw [NotesDb.id_of_get hr, hr]
    exact legalWrites_single (.update hget (hset r row hs) fun v => hg r v hc)

theorem setSnapshot_ok {db : NotesDb} {now : OffsetDateTime} {k : EntityType}
    {s : Snapshot k.Fields} {r row : Row k.Fields} (h : setSnapshot db now k s r = .ok row) :
    ∃ f', k.storeFields s.fields = .ok f' ∧ db.checkRefs k f' = .ok () ∧ r.version < intMax ∧
      row = { r with
        fields := f'
        deletedAt := if s.deleted then some (r.deletedAt.getD now) else none
        version := r.version + 1
        updatedAt := now } := by
  simp only [setSnapshot, bind_eq_ok, pure_eq_ok, intSucc_eq_ok] at h
  obtain ⟨f', hf, _, hr, _, ⟨hv, rfl⟩, rfl⟩ := h
  exact ⟨f', hf, hr, hv, rfl⟩

theorem setSnapshot_bump {db : NotesDb} {now : OffsetDateTime} {k : EntityType}
    {s : Snapshot k.Fields} {r row : Row k.Fields} (h : setSnapshot db now k s r = .ok row) :
    Bump now r row := by
  obtain ⟨_, _, _, _, rfl⟩ := setSnapshot_ok h
  exact ⟨rfl, rfl, rfl, rfl, rfl⟩

theorem updateNoteByVersion_legal {ins : Option (EntityType × Uuid)} {db : NotesDb}
    {now : OffsetDateTime} {i : UpdateNoteInput}
    {o : Option Note} {ws : List Write} (h : updateNoteByVersion db now i = .ok (o, ws)) :
    LegalWrites now db ins ws := by
  simp only [updateNoteByVersion, bind_eq_ok] at h
  obtain ⟨_, _, _, _, h⟩ := h
  refine updateRow_legal ?_ ?_ h
  · intro r row hs
    simp only [bind_eq_ok, pure_eq_ok, intSucc_eq_ok] at hs
    obtain ⟨_, _, _, _, _, ⟨_, rfl⟩, rfl⟩ := hs
    exact ⟨rfl, rfl, rfl, rfl, rfl⟩
  · intro r v hc hv
    cases hv
    simp only [Bool.and_eq_true, beq_iff_eq] at hc
    exact hc.1.2.symm

theorem updateFolderByVersion_legal {ins : Option (EntityType × Uuid)} {db : NotesDb}
    {now : OffsetDateTime} {i : UpdateFolderInput}
    {o : Option Folder} {ws : List Write} (h : updateFolderByVersion db now i = .ok (o, ws)) :
    LegalWrites now db ins ws := by
  simp only [updateFolderByVersion, bind_eq_ok] at h
  obtain ⟨_, _, h⟩ := h
  refine updateRow_legal ?_ ?_ h
  · intro r row hs
    simp only [bind_eq_ok, pure_eq_ok, intSucc_eq_ok] at hs
    obtain ⟨_, _, _, ⟨_, rfl⟩, rfl⟩ := hs
    exact ⟨rfl, rfl, rfl, rfl, rfl⟩
  · intro r v hc hv
    cases hv
    simp only [Bool.and_eq_true, beq_iff_eq] at hc
    exact hc.1.2.symm

theorem softDelete_legal {ins : Option (EntityType × Uuid)} {db : NotesDb} {now : OffsetDateTime}
    {k : EntityType} {id c : Uuid}
    {v : Int} {o : Option (Row k.Fields)} {ws : List Write}
    (h : softDelete db now k id c v = .ok (o, ws)) :
    LegalWrites now db ins ws := by
  refine updateRow_legal ?_ ?_ h
  · intro r row hs
    simp only [bind_eq_ok, pure_eq_ok, intSucc_eq_ok] at hs
    obtain ⟨_, ⟨_, rfl⟩, rfl⟩ := hs
    exact ⟨rfl, rfl, rfl, rfl, rfl⟩
  · intro r v hc hv
    cases hv
    simp only [Bool.and_eq_true, beq_iff_eq] at hc
    exact hc.1.2.symm

theorem addNoteToFolder_legal {ins : Option (EntityType × Uuid)} {db : NotesDb}
    {now : OffsetDateTime} {c n f : Uuid}
    {o : Option Note} {ws : List Write} (h : addNoteToFolder db now c n f = .ok (o, ws)) :
    LegalWrites now db ins ws := by
  refine updateRow_legal ?_ (fun _ _ _ hv => by cases hv) h
  intro r row hs
  simp only [bind_eq_ok, pure_eq_ok, intSucc_eq_ok] at hs
  obtain ⟨_, _, _, ⟨_, rfl⟩, rfl⟩ := hs
  exact ⟨rfl, rfl, rfl, rfl, rfl⟩

theorem removeNoteFromFolder_legal {ins : Option (EntityType × Uuid)} {db : NotesDb}
    {now : OffsetDateTime} {c n f : Uuid}
    {o : Option Note} {ws : List Write} (h : removeNoteFromFolder db now c n f = .ok (o, ws)) :
    LegalWrites now db ins ws := by
  refine updateRow_legal ?_ (fun _ _ _ hv => by cases hv) h
  intro r row hs
  simp only [bind_eq_ok, pure_eq_ok, intSucc_eq_ok] at hs
  obtain ⟨_, ⟨_, rfl⟩, rfl⟩ := hs
  exact ⟨rfl, rfl, rfl, rfl, rfl⟩

theorem updateRow_id {db : NotesDb} {k : EntityType} {id : Uuid} {guard : Option Int}
    {cond : Row k.Fields → Bool} {set : Row k.Fields → Except DbError (Row k.Fields)}
    {row : Row k.Fields} {ws : List Write} (hset : ∀ r row, set r = .ok row → row.id = r.id)
    (h : updateRow db k id guard cond set = .ok (some row, ws)) : row.id = id := by
  obtain ⟨h, _⟩ | ⟨r, row', hr, _, hs, h, _⟩ := updateRow_ok h
  · cases h
  · cases h
    rw [hset r row hs, NotesDb.id_of_get hr]

theorem applySnapshotIfVersionMatches_ok {db : NotesDb} {now : OffsetDateTime} {k : EntityType}
    {id c : Uuid} {v : Int} {s : Snapshot k.Fields} {o : Option (Row k.Fields)} {ws : List Write}
    (h : applySnapshotIfVersionMatches db now k id c v s = .ok (o, ws)) :
    updateRow db k id (some v) (fun r => r.creatorId == c && r.version == v)
      (setSnapshot db now k s) = .ok (o, ws) := by
  simp only [applySnapshotIfVersionMatches, bind_eq_ok] at h
  obtain ⟨_, _, h⟩ := h
  exact h

theorem applySnapshotIfVersionMatches_legal {ins : Option (EntityType × Uuid)} {db : NotesDb}
    {now : OffsetDateTime} {k : EntityType}
    {id c : Uuid} {v : Int} {s : Snapshot k.Fields} {o : Option (Row k.Fields)} {ws : List Write}
    (h : applySnapshotIfVersionMatches db now k id c v s = .ok (o, ws)) :
    LegalWrites now db ins ws := by
  refine updateRow_legal (fun r row hs => setSnapshot_bump hs) ?_
    (applySnapshotIfVersionMatches_ok h)
  intro r v hc hv
  cases hv
  simp only [Bool.and_eq_true, beq_iff_eq] at hc
  exact hc.2.symm

/-- `fetch_one` on an `UPDATE`: it succeeds only where the statement found the row. -/
theorem forceApplySnapshot_ok {db : NotesDb} {now : OffsetDateTime} {k : EntityType} {id c : Uuid}
    {s : Snapshot k.Fields} {row : Row k.Fields} {ws : List Write}
    (h : forceApplySnapshot db now k id c s = .ok (row, ws)) :
    updateRow db k id none (fun r => r.creatorId == c) (setSnapshot db now k s) =
      .ok (some row, ws) := by
  simp only [forceApplySnapshot, bind_eq_ok] at h
  obtain ⟨_, _, ⟨o, ws'⟩, hu, h⟩ := h
  cases o with
  | none => cases h
  | some row' =>
    rw [pure_eq_ok] at h
    cases h
    exact hu

theorem forceApplySnapshot_legal {ins : Option (EntityType × Uuid)} {db : NotesDb}
    {now : OffsetDateTime} {k : EntityType}
    {id c : Uuid} {s : Snapshot k.Fields} {row : Row k.Fields} {ws : List Write}
    (h : forceApplySnapshot db now k id c s = .ok (row, ws)) :
    LegalWrites now db ins ws :=
  updateRow_legal (fun _ _ hs => setSnapshot_bump hs) (fun _ _ _ hv => by cases hv)
    (forceApplySnapshot_ok h)

/-! ## UPDATE of many rows -/

theorem refile_ok {db : NotesDb} {now : OffsetDateTime} {f : Option Uuid} {rs rows : List Note}
    {ws : List Write} (h : refile db now f rs = .ok (rows, ws)) :
    ws.map Write.key = rs.map (fun r => (EntityType.note, r.id)) ∧
    ∀ w ∈ ws, ∃ r ∈ rs, db.checkFolder f = .ok () ∧
      w = .put .note { r with
        fields := { r.fields with folderId := f }, version := r.version + 1,
        updatedAt := now } none := by
  induction rs generalizing rows ws with
  | nil => cases h; simp
  | cons r rs ih =>
    simp only [refile, bind_eq_ok, pure_eq_ok, intSucc_eq_ok] at h
    obtain ⟨_, ⟨_, rfl⟩, _, hf, ⟨rows', ws'⟩, h', h⟩ := h
    cases h
    obtain ⟨hkeys, hws⟩ := ih h'
    refine ⟨by simp [hkeys, Write.key], ?_⟩
    intro w hw
    rcases List.mem_cons.1 hw with rfl | hw
    · exact ⟨r, List.mem_cons_self, hf, rfl⟩
    · obtain ⟨r', hr', hw'⟩ := hws w hw
      exact ⟨r', List.mem_cons_of_mem _ hr', hw'⟩

theorem refile_legal {ins : Option (EntityType × Uuid)} {db : NotesDb} {now : OffsetDateTime}
    {f : Option Uuid} {p : Note → Bool}
    {rows : List Note} {ws : List Write}
    (h : refile db now f (db.notes.rows.filter p) = .ok (rows, ws)) :
    LegalWrites now db ins ws := by
  obtain ⟨hkeys, hws⟩ := refile_ok h
  refine ⟨fun w hw => ?_, ?_⟩
  · obtain ⟨r, hr, _, rfl⟩ := hws w hw
    have hget : db.get .note r.id = some r := Lib.Table.mem_rows_iff.1 (List.mem_filter.1 hr).1
    have hb : Bump now r { r with
        fields := { r.fields with folderId := f }, version := r.version + 1,
        updatedAt := now } := ⟨rfl, rfl, rfl, rfl, rfl⟩
    exact .update (k := .note) hget hb (fun _ hv => by cases hv)
  · rw [hkeys]
    have hn : ((db.notes.filter p).rows.map Row.id).Nodup := (db.notes.filter p).nodup
    have hmap := hn.map (f := fun id => (EntityType.note, id)) fun a b h => (Prod.mk.inj h).2
    rwa [List.map_map] at hmap

/-! ## SELECT -/

theorem findChangedSince_ok {db : NotesDb} {k : EntityType} {c : Uuid}
    {cursor : Option (OffsetDateTime × Uuid)} {limit : Int} {rows : List (Row k.Fields)}
    {ws : List Write} (h : (findChangedSince db k c cursor limit >>= answerOnly) = .ok (rows, ws)) :
    findChangedSince db k c cursor limit = .ok rows ∧ ws = [] := by
  obtain ⟨_, hfound, h⟩ := bind_eq_ok.1 h
  cases h
  exact ⟨hfound, rfl⟩

/-! ## Every statement -/

/-- The statement deletes rows. -/
def NotesStmt.isPurge : {β : Type} → NotesStmt β → Bool
  | _, .purgeBatch _ _ => true
  | _, _ => false

/-- The row that a statement inserts, if it inserts one. -/
def NotesStmt.inserts : {β : Type} → NotesStmt β → Option (EntityType × Uuid)
  | _, .createNote i => some (.note, i.id)
  | _, .createFolder i => some (.folder, i.id)
  | _, .upsertIfAbsent k id _ _ => some (k, id)
  | _, _ => none

theorem exec_legal {β : Type} {s : NotesStmt β} {now : OffsetDateTime} {db : NotesDb} {b : β}
    {ws : List Write} (hp : s.isPurge = false) (h : s.exec now db = .ok (b, ws)) :
    LegalWrites now db s.inserts ws := by
  cases s with
  | createNote input =>
    obtain ⟨f', hn, _, _, rfl, rfl⟩ := insertRow_ok h
    exact legalWrites_single (.insert rfl hn)
  | createFolder input =>
    simp only [NotesStmt.exec, createFolder] at h
    cases hpin : input.pinned with
    | none => rw [hpin] at h; cases h
    | some pinned =>
      rw [hpin] at h
      obtain ⟨f', hn, _, _, rfl, rfl⟩ := insertRow_ok h
      exact legalWrites_single (.insert rfl hn)
  | updateNoteByVersion input => exact updateNoteByVersion_legal h
  | updateFolderByVersion input => exact updateFolderByVersion_legal h
  | softDelete k id c v => exact softDelete_legal h
  | addNoteToFolder c n f => exact addNoteToFolder_legal h
  | removeNoteFromFolder c n f => exact removeNoteFromFolder_legal h
  | moveNotesToFolder c req => exact refile_legal h
  | orphanNotesInFolder f c =>
    simp only [NotesStmt.exec, orphanNotesInFolder, bind_eq_ok, pure_eq_ok] at h
    obtain ⟨⟨rows, ws'⟩, hr, h⟩ := h
    cases h
    exact refile_legal hr
  | upsertIfAbsent k id c s =>
    rcases upsertIfAbsent_ok h with ⟨_, rfl, _⟩ | ⟨f', hn, _, _, _, rfl⟩
    · exact legalWrites_nil
    · exact legalWrites_single (.insert rfl hn)
  | applySnapshotIfVersionMatches k id c v s => exact applySnapshotIfVersionMatches_legal h
  | forceApplySnapshot k id c s => exact forceApplySnapshot_legal h
  | findById k id c => cases h; exact legalWrites_nil
  | ownedFolderIds c ids => cases h; exact legalWrites_nil
  | findChangedSince k c cursor limit =>
    rw [(findChangedSince_ok h).2]
    exact legalWrites_nil
  | purgeBatch k cutoff => cases hp

/-! ## The rows after a statement -/

section After

variable {k : EntityType} {id : Uuid}

theorem get_applyAll_other (ws : List Write) :
    ∀ db : NotesDb, (∀ w ∈ ws, w.key ≠ (k, id)) →
      (notesEngine.applyAll db ws).get k id = db.get k id := by
  induction ws with
  | nil => intro db _; rfl
  | cons w ws ih =>
    intro db h
    have hw : (k, id) ≠ w.key := Ne.symm (h w List.mem_cons_self)
    rw [Lib.Engine.applyAll_cons, ih _ fun w' hw' => h w' (List.mem_cons_of_mem _ hw')]
    exact NotesDb.get_apply_other db w hw

/-- Writes to different rows: what one of them puts is there afterwards. -/
theorem get_applyAll_put {row : Row k.Fields} {guard : Option Int} (ws : List Write) :
    ∀ db : NotesDb, (ws.map Write.key).Nodup → .put k row guard ∈ ws →
      (notesEngine.applyAll db ws).get k row.id = some row := by
  induction ws with
  | nil => intro db _ h; cases h
  | cons w ws ih =>
    intro db hn h
    obtain ⟨hnew, hn⟩ := List.nodup_cons.1 hn
    rcases List.mem_cons.1 h with rfl | h
    · rw [Lib.Engine.applyAll_cons, get_applyAll_other]
      · exact NotesDb.get_put_self db k row
      · intro w' hw' hkey
        exact hnew (List.mem_map.2 ⟨w', hw', hkey⟩)
    · exact ih _ hn h

/-- What legal writes do to one row: nothing, insert it, or bump it. -/
theorem LegalWrites.row {now : OffsetDateTime} {db : NotesDb} {ins : Option (EntityType × Uuid)}
    {ws : List Write} (h : LegalWrites now db ins ws) (k : EntityType) (id : Uuid) :
    (notesEngine.applyAll db ws).get k id = db.get k id ∨
    (∃ c f, ins = some (k, id) ∧ db.get k id = none ∧
      (notesEngine.applyAll db ws).get k id = some (newRow now id c f)) ∨
    ∃ r row, db.get k id = some r ∧ Bump now r row ∧
      (notesEngine.applyAll db ws).get k id = some row := by
  by_cases htouch : ∃ w ∈ ws, w.key = (k, id)
  · obtain ⟨w, hw, hkey⟩ := htouch
    cases h.1 w hw with
    | insert hins hnone =>
      cases hkey
      exact .inr (.inl ⟨_, _, hins, hnone, get_applyAll_put ws db h.2 hw⟩)
    | @update _ r row _ hr hb _ =>
      cases hkey
      have hafter := get_applyAll_put ws db h.2 hw
      rw [hb.id] at hafter
      rw [hb.id]
      exact .inr (.inr ⟨r, row, hr, hb, hafter⟩)
  · refine .inl (get_applyAll_other ws db fun w hw hkey => htouch ⟨w, hw, hkey⟩)

end After

end Meno
