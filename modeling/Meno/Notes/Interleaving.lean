import Meno.Lib.World
import Meno.Notes.Ops
import Meno.Notes.PushResults

/-!
# Meno.Notes.Interleaving

All users' requests at once: each request is a caller of `Lib.World`, and their statements are
answered in any order. The history of committed row writes is a chain of legal writes, so the
changes of a row have the versions 1, 2, 3, .., and no two of them were guarded by the same
version; and an operation that reports a guarded write as successful has one in the history.
-/

namespace Meno

open Lib NotesService

/-! ## The store -/

/-- A row of either table. -/
abbrev AnyRow := Σ k : EntityType, Row k.Fields

def AnyRow.version (r : AnyRow) : Int := r.2.version

def Write.value : Write → Option AnyRow
  | .put k row _ => some ⟨k, row⟩
  | .erase _ _ => none

def Write.guard : Write → Option Int
  | .put _ _ guard => guard
  | .erase _ _ => none

def notesKeyed : Keyed notesEngine (EntityType × Uuid) AnyRow where
  key := Write.key
  value := Write.value
  look db κ := (db.get κ.1 κ.2).map fun r => ⟨κ.1, r⟩
  look_apply := by
    intro db w κ
    by_cases hκ : κ = w.key
    · rw [if_pos hκ]
      subst hκ
      cases w with
      | put k row guard =>
        show ((db.put k row).get k row.id).map _ = _
        rw [NotesDb.get_put_self]
        rfl
      | erase k id =>
        show ((db.erase k id).get k id).map _ = _
        rw [NotesDb.get_erase_same, if_pos rfl]
        rfl
    · rw [if_neg hκ]
      show ((db.apply w).get κ.1 κ.2).map _ = _
      rw [NotesDb.get_apply_other db w hκ]

/-- A write is in order when some statement could make it. -/
def Lawful (db : NotesDb) (w : Write) : Prop := ∃ now ins, Legal now db ins w

theorem look_eq_iff {db db' : NotesDb} {k : EntityType} {id : Uuid}
    (h : notesKeyed.look db (k, id) = notesKeyed.look db' (k, id)) : db.get k id = db'.get k id := by
  have hinj : Function.Injective fun r : Row k.Fields => (⟨k, r⟩ : AnyRow) := by
    intro r r' hr
    cases hr
    rfl
  exact Option.map_injective hinj h

theorem lawful_row (db db' : NotesDb) (w : Write)
    (hsame : notesKeyed.look db (notesKeyed.key w) = notesKeyed.look db' (notesKeyed.key w))
    (h : Lawful db w) : Lawful db' w := by
  obtain ⟨now, ins, hl⟩ := h
  refine ⟨now, ins, ?_⟩
  cases hl with
  | insert hins hnone => exact .insert hins ((look_eq_iff hsame).symm.trans hnone)
  | update hr hb hg =>
    have hget := look_eq_iff hsame
    rw [hb.id] at hget
    exact .update (hget.symm.trans hr) hb hg

theorem notes_disciplined :
    World.Disciplined (K := notesKeyed) (fun s => s.isPurge = false) Lawful where
  exec := by
    intro β s now db b ws hs he
    obtain ⟨hlegal, hkeys⟩ := exec_legal hs he
    exact chain_of_nodup notesKeyed lawful_row ws db (fun w hw => ⟨now, _, hlegal w hw⟩) hkeys
  row := lawful_row

theorem versionAt_of_get {db : NotesDb} {k : EntityType} {id : Uuid} {r : Row k.Fields}
    (h : db.get k id = some r) : versionAt notesKeyed AnyRow.version db (k, id) = r.version := by
  simp [versionAt, notesKeyed, h, AnyRow.version]

theorem versionAt_of_none {db : NotesDb} {k : EntityType} {id : Uuid}
    (h : db.get k id = none) : versionAt notesKeyed AnyRow.version db (k, id) = 0 := by
  simp [versionAt, notesKeyed, h]

theorem notes_raising : Raising notesKeyed AnyRow.version Write.guard Lawful := by
  intro db w h
  obtain ⟨now, ins, hl⟩ := h
  cases hl with
  | @insert k id c f hins hnone =>
    have hv : versionAt notesKeyed AnyRow.version db (k, id) = 0 := versionAt_of_none hnone
    refine ⟨⟨k, newRow now id c f⟩, rfl, ?_, fun _ hg => by cases hg⟩
    show (1 : Int) = versionAt notesKeyed AnyRow.version db (k, id) + 1
    omega
  | @update k r row guard hr hb hg =>
    have hv : versionAt notesKeyed AnyRow.version db (k, row.id) = r.version := by
      rw [hb.id]
      exact versionAt_of_get hr
    refine ⟨⟨k, row⟩, rfl, ?_, ?_⟩
    · show row.version = versionAt notesKeyed AnyRow.version db (k, row.id) + 1
      rw [hv, hb.version]
    · intro v hv'
      show v = versionAt notesKeyed AnyRow.version db (k, row.id)
      rw [hv]
      exact hg v hv'

/-! ## What the answers tell of guarded writes -/

/-- The row that a write was made to and the version it was guarded by. -/
abbrev Guard := (EntityType × Uuid) × Int

def mark : Write → Option Guard := guarded notesKeyed Write.guard

/-- The guarded write behind a statement's answer. -/
def told : {β : Type} → NotesStmt β → β → List Guard
  | _, .updateNoteByVersion i, some _ => [((.note, i.noteId), i.baseVersion)]
  | _, .updateFolderByVersion i, some _ => [((.folder, i.folderId), i.baseVersion)]
  | _, .softDelete k id _ v, some _ => [((k, id), v)]
  | _, .applySnapshotIfVersionMatches k id _ v _, some _ => [((k, id), v)]
  | _, _, _ => []

section Told

variable {db : NotesDb} {now : OffsetDateTime} {k : EntityType} {id : Uuid} {ws : List Write}

theorem told_updateRow {guard : Option Int} {cond : Row k.Fields → Bool}
    {set : Row k.Fields → Except DbError (Row k.Fields)} {o : Option (Row k.Fields)}
    (hset : ∀ r row, set r = .ok row → row.id = r.id)
    (h : updateRow db k id guard cond set = .ok (o, ws)) :
    ws.filterMap mark = match o, guard with
      | some _, some v => [((k, id), v)]
      | _, _ => [] := by
  rcases updateRow_ok h with ⟨rfl, rfl, _⟩ | ⟨r, row, hr, _, hs, rfl, rfl⟩
  · rfl
  · have hid : row.id = id := (hset r row hs).trans (NotesDb.id_of_get hr)
    cases guard with
    | none => rfl
    | some v =>
      show [((k, row.id), v)] = [((k, id), v)]
      rw [hid]

theorem told_insertRow {c : Uuid} {f : k.Fields} {row : Row k.Fields}
    (h : insertRow db now k id c f = .ok (row, ws)) : ws.filterMap mark = [] := by
  obtain ⟨_, _, _, _, _, rfl⟩ := insertRow_ok h
  rfl

theorem told_refile {f : Option Uuid} {rs rows : List Note}
    (h : refile db now f rs = .ok (rows, ws)) : ws.filterMap mark = [] := by
  refine List.filterMap_eq_nil_iff.2 ?_
  intro w hw
  obtain ⟨_, _, _, rfl⟩ := (refile_ok h).2 w hw
  rfl

end Told

/-- The purge guards nothing. -/
theorem told_purgeBatch {db : NotesDb} {now cutoff : OffsetDateTime} {k : EntityType} {n : Nat}
    {ws : List Write} (h : purgeBatch db now k cutoff = .ok (n, ws)) : ws.filterMap mark = [] := by
  refine List.filterMap_eq_nil_iff.2 ?_
  intro w hw
  cases h
  obtain ⟨r, _, hw⟩ := List.mem_flatMap.1 hw
  rcases List.mem_cons.1 hw with rfl | hw
  · rfl
  · cases k with
    | note => cases hw
    | folder =>
      obtain ⟨n, _, rfl⟩ := List.mem_map.1 hw
      rfl

theorem notes_honest : World.Honest mark told notesEngine := by
  intro β s now db b ws h
  cases s with
  | createNote i => exact told_insertRow h
  | createFolder i =>
    have h : createFolder db now i = .ok (b, ws) := h
    unfold createFolder at h
    split at h
    · cases h
    · exact told_insertRow h
  | updateNoteByVersion i =>
    have h : updateNoteByVersion db now i = .ok (b, ws) := h
    simp only [updateNoteByVersion, bind_eq_ok] at h
    obtain ⟨_, _, _, _, h⟩ := h
    have ht := told_updateRow (fun r row hs => by
      simp only [bind_eq_ok, pure_eq_ok] at hs
      obtain ⟨_, _, _, _, _, _, rfl⟩ := hs
      rfl) h
    rw [ht]
    cases b <;> rfl
  | updateFolderByVersion i =>
    have h : updateFolderByVersion db now i = .ok (b, ws) := h
    simp only [updateFolderByVersion, bind_eq_ok] at h
    obtain ⟨_, _, h⟩ := h
    have ht := told_updateRow (fun r row hs => by
      simp only [bind_eq_ok, pure_eq_ok] at hs
      obtain ⟨_, _, _, _, rfl⟩ := hs
      rfl) h
    rw [ht]
    cases b <;> rfl
  | softDelete k id c v =>
    have ht := told_updateRow (fun r row hs => by
      simp only [bind_eq_ok, pure_eq_ok] at hs
      obtain ⟨_, _, rfl⟩ := hs
      rfl) (show softDelete db now k id c v = .ok (b, ws) from h)
    rw [ht]
    cases b <;> rfl
  | addNoteToFolder c n f =>
    have ht := told_updateRow (fun r row hs => by
      simp only [bind_eq_ok, pure_eq_ok] at hs
      obtain ⟨_, _, _, _, rfl⟩ := hs
      rfl) (show addNoteToFolder db now c n f = .ok (b, ws) from h)
    rw [ht]
    cases b <;> rfl
  | removeNoteFromFolder c n f =>
    have ht := told_updateRow (fun r row hs => by
      simp only [bind_eq_ok, pure_eq_ok] at hs
      obtain ⟨_, _, rfl⟩ := hs
      rfl) (show removeNoteFromFolder db now c n f = .ok (b, ws) from h)
    rw [ht]
    cases b <;> rfl
  | moveNotesToFolder c req => exact told_refile h
  | orphanNotesInFolder f c =>
    have h : orphanNotesInFolder db now f c = .ok (b, ws) := h
    simp only [orphanNotesInFolder, bind_eq_ok, pure_eq_ok] at h
    obtain ⟨⟨rows, ws'⟩, hr, h⟩ := h
    cases h
    exact told_refile hr
  | upsertIfAbsent k id c s =>
    rcases upsertIfAbsent_ok h with ⟨_, rfl, _⟩ | ⟨f', _, _, _, _, rfl⟩
    · rfl
    · rfl
  | applySnapshotIfVersionMatches k id c v s =>
    have ht := told_updateRow (fun r row hs => (setSnapshot_bump hs).id)
      (applySnapshotIfVersionMatches_ok h)
    rw [ht]
    cases b <;> rfl
  | forceApplySnapshot k id c s =>
    exact told_updateRow (fun r row hs => (setSnapshot_bump hs).id) (forceApplySnapshot_ok h)
  | findById k id c => cases h; rfl
  | ownedFolderIds c ids => cases h; rfl
  | findChangedSince k c cursor limit =>
    rw [(findChangedSince_ok h).2]
    rfl
  | purgeBatch k cutoff => exact told_purgeBatch h

/-! ## Programs -/

section Wlp

/-- The ghost of `World.told_of_reaches`, for the notes store. -/
abbrev tell {β : Type} : Cmd NotesStmt DbError β → β → List Guard × List Guard →
    List Guard × List Guard := World.note told

variable {g : List Guard × List Guard} {k : EntityType} {c id : Uuid}

/-- A statement that tells of no guarded write. -/
theorem wlp_read {β : Type} {e : Executor} {s : NotesStmt β}
    {Q : Except NotesError β → List Guard × List Guard → Prop} (hs : ∀ b, told s b = [])
    (hok : ∀ b, Q (.ok b) g) (herr : ∀ err, Q (.error err) g) : Act.wlp tell (query e s) Q g := by
  refine Act.wlp_ask.2 ⟨?_, fun err => ?_⟩
  · intro b
    have hb := hok b
    cases e with
    | pool =>
      show Q (.ok b) (g.1 ++ told s b, g.2)
      rw [hs b, List.append_nil]
      exact hb
    | tx =>
      show Q (.ok b) (g.1, g.2 ++ told s b)
      rw [hs b, List.append_nil]
      exact hb
  · have he := herr (.database err)
    cases e <;> exact he

theorem wlp_findOrFail {Q : Except NotesError (Row k.Fields) → List Guard × List Guard → Prop}
    (hok : ∀ row, Q (.ok row) g) (herr : ∀ err, Q (.error err) g) :
    Act.wlp tell (findOrFail k id c) Q g := by
  rw [findOrFail, Act.wlp_bind]
  refine wlp_read (fun _ => rfl) ?_ herr
  intro o
  cases o with
  | none => exact herr _
  | some row => exact hok row

/-- What a push's answer to one mutation tells. -/
def wonBy (m : Mutation k.Fields) (res : MutationResult) : List Guard :=
  if res.outcome = .applied then (m.baseVersion.map fun v => ((k, m.id), v)).toList else []

theorem wonBy_of_none {m : Mutation k.Fields} (h : m.baseVersion = none) (res : MutationResult) :
    wonBy m res = [] := by
  unfold wonBy
  rw [h]
  split <;> rfl

theorem applyMutation_tells (m : Mutation k.Fields) (g : List Guard × List Guard) :
    Act.wlp tell (applyMutation k c m)
      (fun r g' => ∀ res, r = .ok res → g' = (g.1, g.2 ++ wonBy m res)) g := by
  -- an answer that tells of nothing, and one that is not there
  have hquiet : ∀ res : MutationResult, wonBy m res = [] →
      ∀ res', (.ok res : Except NotesError MutationResult) = .ok res' →
        g = (g.1, g.2 ++ wonBy m res') := by
    intro res hres res' he
    cases he
    rw [hres, List.append_nil]
  have herr : ∀ (err : NotesError) (g' : List Guard × List Guard) (res : MutationResult),
      (.error err : Except NotesError MutationResult) = .ok res → g' = (g.1, g.2 ++ wonBy m res) := by
    intro err g' res he
    cases he
  unfold applyMutation
  cases rejection k m.fields with
  | some reason => exact hquiet _ rfl
  | none =>
    cases hb : m.baseVersion with
    | none =>
      have hnone := wonBy_of_none hb
      cases hd : m.deleted with
      | true => exact hquiet _ (hnone _)
      | false =>
        simp only
        rw [if_neg Bool.false_ne_true, Act.wlp_bind]
        refine wlp_read (fun _ => rfl) ?_ fun err => herr err g
        intro o
        cases o with
        | some row => exact hquiet _ (hnone _)
        | none =>
          simp only
          rw [Act.wlp_bind]
          refine wlp_findOrFail ?_ fun err => herr err g
          intro existing
          simp only
          by_cases hlww : m.clientUpdatedAt > existing.updatedAt
          · rw [if_pos hlww, Act.wlp_bind]
            refine wlp_read (fun _ => rfl) ?_ fun err => herr err g
            intro row
            exact hquiet _ (hnone _)
          · rw [if_neg hlww]
            exact hquiet _ (hnone _)
    | some b =>
      simp only
      rw [Act.wlp_bind]
      refine Act.wlp_ask.2 ⟨?_, fun err => herr _ _⟩
      intro o
      cases o with
      | some row =>
        intro res he
        cases he
        have hwon : wonBy m (.applied k (ConflictEntity.ofRow k row)) = [((k, m.id), b)] := by
          simp [wonBy, MutationResult.applied, hb]
        rw [hwon]
        rfl
      | none =>
        simp only
        have hg : tell (.exec .tx (.applySnapshotIfVersionMatches k m.id c b ⟨m.fields, m.deleted⟩))
            (.ok none) g = g := by
          show (g.1, g.2 ++ []) = g
          rw [List.append_nil]
        rw [hg, Act.wlp_bind]
        refine wlp_findOrFail ?_ fun err => herr err g
        intro existing
        exact hquiet _ rfl

/-- What the results of a loop tell of its mutations. -/
def wonByAll (ms : List (Nat × Mutation k.Fields)) (rs : List (Nat × MutationResult)) : List Guard :=
  (ms.zip rs).flatMap fun x => wonBy x.1.2 x.2.2

theorem applyEach_tells {f : Mutation k.Fields → NotesSvc MutationResult}
    (hf : ∀ m g, Act.wlp tell (f m) (fun r g' => ∀ res, r = .ok res →
      g' = (g.1, g.2 ++ wonBy m res)) g) (ms : List (Nat × Mutation k.Fields)) :
    ∀ g, Act.wlp tell (applyEach f ms) (fun r g' => ∀ rs, r = .ok rs →
      rs.map Prod.fst = ms.map Prod.fst ∧ g' = (g.1, g.2 ++ wonByAll ms rs)) g := by
  induction ms with
  | nil =>
    intro g rs hrs
    cases hrs
    refine ⟨rfl, ?_⟩
    rw [wonByAll, List.zip_nil_left, List.flatMap_nil, List.append_nil]
  | cons p ms ih =>
    intro g
    rw [applyEach, Act.wlp_bind]
    refine Act.wlp_mono (hf p.2 g) ?_
    rintro (err | res) g' hres
    · intro rs hrs
      cases hrs
    · obtain rfl := hres res rfl
      simp only
      rw [Act.wlp_bind]
      refine Act.wlp_mono (ih _) ?_
      rintro (err | rs) g'' hrs
      · intro rs' hrs'
        cases hrs'
      · obtain ⟨hnum, rfl⟩ := hrs rs rfl
        intro rs' hrs'
        cases hrs'
        refine ⟨by rw [List.map_cons, List.map_cons, hnum], ?_⟩
        rw [wonByAll, wonByAll, List.zip_cons_cons, List.flatMap_cons, List.append_assoc]

theorem wonBy_unfile (owned : List Uuid) (m : NoteMutation) (res : MutationResult) :
    wonBy (k := .note) (unfile owned m) res = wonBy (k := .note) m res := by
  unfold unfile
  split
  · split
    · rfl
    · rfl
  · rfl

end Wlp

/-! ## Operations -/

/-- The guarded writes `l` bear out the operation's answer: it has made each write that it reports
as won, and if none of them was made twice, it reports none twice. -/
structure BearsOut (op : NotesOp) (answer : NotesAnswer) (l : List Guard) : Prop where
  made : ∀ p κ v, op.Wins answer p κ v → (κ, v) ∈ l
  once : l.Nodup → ∀ p q κ v, op.Wins answer p κ v → op.Wins answer q κ v → p = q

theorem bearsOut_of_not_wins {op : NotesOp} {answer : NotesAnswer} {l : List Guard}
    (h : ∀ p κ v, ¬op.Wins answer p κ v) : BearsOut op answer l where
  made p κ v hw := absurd hw (h p κ v)
  once _ p _ κ v hw := absurd hw (h p κ v)

/-- The results of the loop over entity type `k`. -/
def loopResults (frs nrs : List (Nat × MutationResult)) : EntityType → List (Nat × MutationResult)
  | .folder => frs
  | .note => nrs

section Push

variable {c : Uuid} {batch : List SyncMutation} {frs nrs : List (Nat × MutationResult)}
  (hf : frs.map Prod.fst = (mutationsOf .folder batch).map Prod.fst)
  (hn : nrs.map Prod.fst = (mutationsOf .note batch).map Prod.fst)
include hf hn

/-- A mutation stands beside its result in its own loop. -/
theorem zip_of_result {p : Nat} {sm : SyncMutation} {m : Mutation sm.entityType.Fields}
    {r : MutationResult} (hm : batch[p]? = some sm) (has : sm.as sm.entityType = some m)
    (hr : (inOrder (frs ++ nrs))[p]? = some r) :
    ((p, m), (p, r)) ∈ (mutationsOf sm.entityType batch).zip (loopResults frs nrs sm.entityType) := by
  have hperm := numbers_perm hf hn
  have hnodup : ((frs ++ nrs).map Prod.fst).Nodup := hperm.nodup_iff.2 List.nodup_range
  rw [List.map_append] at hnodup
  obtain ⟨hfn, hnn, hdisj⟩ := List.nodup_append.1 hnodup
  have hmem : (p, m) ∈ mutationsOf sm.entityType batch := mem_select.2 ⟨sm, hm, has⟩
  have hnum : p ∈ (mutationsOf sm.entityType batch).map Prod.fst :=
    List.mem_map.2 ⟨(p, m), hmem, rfl⟩
  have hin := (getElem?_inOrder hperm).1 hr
  -- the number is one of its own loop only
  cases sm with
  | folder m' =>
    have hnum : p ∈ frs.map Prod.fst := by
      rw [hf]
      exact hnum
    have hrf : (p, r) ∈ frs := by
      refine (List.mem_append.1 hin).resolve_right fun hrn => ?_
      exact hdisj p hnum p (List.mem_map.2 ⟨(p, r), hrn, rfl⟩) rfl
    exact mem_zip_of_numbers hf (hf ▸ hfn) hmem hrf
  | note m' =>
    have hnum : p ∈ nrs.map Prod.fst := by
      rw [hn]
      exact hnum
    have hrn : (p, r) ∈ nrs := by
      refine (List.mem_append.1 hin).resolve_left fun hrf => ?_
      exact hdisj p (List.mem_map.2 ⟨(p, r), hrf, rfl⟩) p hnum rfl
    exact mem_zip_of_numbers hn (hn ▸ hnn) hmem hrn

/-- A win of the push is told of in its loop. -/
theorem won_of_wins {p : Nat} {κ : EntityType × Uuid} {v : Int}
    (hw : (NotesOp.syncPush c batch).Wins (.pushed (inOrder (frs ++ nrs))) p κ v) :
    ∃ x ∈ (mutationsOf κ.1 batch).zip (loopResults frs nrs κ.1),
      x.1.1 = p ∧ (κ, v) ∈ wonBy x.1.2 x.2.2 := by
  obtain ⟨sm, r, hm, rfl, hb, hr, hout⟩ := hw
  obtain ⟨m, has⟩ : ∃ m : Mutation sm.entityType.Fields, sm.as sm.entityType = some m := by
    cases sm with
    | note m => exact ⟨m, rfl⟩
    | folder m => exact ⟨m, rfl⟩
  obtain ⟨hid, _, hbase⟩ := SyncMutation.of_as has
  refine ⟨_, zip_of_result hf hn hm has hr, rfl, ?_⟩
  rw [wonBy, if_pos hout, ← hbase, hb, hid]
  simp

theorem push_bearsOut :
    BearsOut (.syncPush c batch) (.pushed (inOrder (frs ++ nrs)))
      (wonByAll (mutationsOf .folder batch) frs ++ wonByAll (mutationsOf .note batch) nrs) where
  made p κ v hw := by
    obtain ⟨x, hx, _, hwon⟩ := won_of_wins hf hn hw
    obtain ⟨k, id⟩ := κ
    cases k with
    | folder => exact List.mem_append_left _ (List.mem_flatMap.2 ⟨x, hx, hwon⟩)
    | note => exact List.mem_append_right _ (List.mem_flatMap.2 ⟨x, hx, hwon⟩)
  once hl p q κ v hp hq := by
    obtain ⟨x, hx, rfl, hwx⟩ := won_of_wins hf hn hp
    obtain ⟨y, hy, rfl, hwy⟩ := won_of_wins hf hn hq
    obtain ⟨hlf, hln, _⟩ := List.nodup_append.1 hl
    obtain ⟨k, id⟩ := κ
    cases k with
    | folder => rw [eq_of_mem_flatMap hlf hx hy hwx hwy]
    | note => rw [eq_of_mem_flatMap hln hx hy hwx hwy]

end Push

theorem syncPush_tells (c : Uuid) (batch : List SyncMutation) :
    Act.wlp tell (NotesService.syncPush c batch)
      (fun r g => ∀ rs, r = .ok rs → BearsOut (.syncPush c batch) (.pushed rs) g.1) ([], []) := by
  have herr : ∀ (err : NotesError) (g : List Guard × List Guard) (rs : List MutationResult),
      (.error err : Except NotesError (List MutationResult)) = .ok rs →
        BearsOut (.syncPush c batch) (.pushed rs) g.1 := by
    intro err g rs h
    cases h
  unfold NotesService.syncPush
  by_cases hempty : batch.isEmpty = true
  · rw [if_pos hempty]
    intro rs hrs
    cases hrs
    rw [List.isEmpty_iff] at hempty
    refine bearsOut_of_not_wins ?_
    rintro p κ v ⟨m, r, hm, _⟩
    rw [hempty] at hm
    cases hm
  rw [if_neg hempty]
  by_cases hlen : batch.length > maxMutationsPerPush
  · rw [if_pos hlen]
    exact herr _ _
  rw [if_neg hlen]
  rw [Act.wlp_bind]
  refine Act.wlp_ask.2 ⟨fun _ => ?_, fun err => herr _ _⟩
  simp only
  have hm : ∀ {k : EntityType} (m : Mutation k.Fields) (g : List Guard × List Guard),
      Act.wlp tell (applyMutation k c m) (fun r g' => ∀ res, r = .ok res →
        g' = (g.1, g.2 ++ wonBy m res)) g := fun m g => applyMutation_tells m g
  rw [Act.wlp_bind]
  refine Act.wlp_mono (applyEach_tells (k := .folder) (hm (k := .folder)) _ _) ?_
  rintro (err | frs) g hfolders
  · exact herr _ _
  obtain ⟨hf, rfl⟩ := hfolders frs rfl
  simp only
  rw [Act.wlp_bind]
  -- the ownership check tells of nothing
  refine Act.wlp_mono (Q := fun _ g => g = ([], wonByAll (mutationsOf .folder batch) frs)) ?_ ?_
  · unfold ownedOf
    split
    · rfl
    · exact wlp_read (fun _ => rfl) (fun _ => rfl) (fun _ => rfl)
  rintro (err | owned) g rfl
  · exact herr _ _
  simp only
  rw [Act.wlp_bind]
  have hu : ∀ (m : NoteMutation) (g : List Guard × List Guard),
      Act.wlp tell (applyNoteMutation c (unfile owned m)) (fun r g' => ∀ res, r = .ok res →
        g' = (g.1, g.2 ++ wonBy (k := .note) m res)) g := by
    intro m g
    refine Act.wlp_mono (hm (k := .note) (unfile owned m) g) ?_
    intro r g' hr res hres
    rw [hr res hres, wonBy_unfile]
  refine Act.wlp_mono (applyEach_tells (k := .note) hu _ _) ?_
  rintro (err | nrs) g hnotes
  · exact herr _ _
  obtain ⟨hn, rfl⟩ := hnotes nrs rfl
  simp only
  rw [Act.wlp_bind]
  refine Act.wlp_ask.2 ⟨fun _ => ?_, fun err => herr _ _⟩
  intro rs hrs
  cases hrs
  exact push_bearsOut hf hn

/-- The tail of the single operations ends well only with the row of its statement. -/
theorem single_tells {k : EntityType} {id c : Uuid} {v : Int}
    {stmt : NotesStmt (Option (Row k.Fields))} (hs : ∀ row, told stmt (some row) = [((k, id), v)]) :
    Act.wlp tell (query .pool stmt >>= rowOrConflict k id c)
      (fun r g => ∀ a, r = .ok a → g.1 = [((k, id), v)]) ([], []) := by
  rw [Act.wlp_bind]
  refine Act.wlp_ask.2 ⟨?_, fun err a h => by cases h⟩
  intro o
  cases o with
  | some row =>
    intro a _
    exact hs row
  | none =>
    simp only [rowOrConflict]
    rw [Act.wlp_bind]
    refine wlp_findOrFail ?_ ?_
    · intro row a h
      cases h
    · intro err a h
      cases h

/-- The final answer is made without a statement. -/
theorem answer_tells {α : Type} {x : NotesSvc α} {f : α → NotesAnswer} {op : NotesOp}
    {g : List Guard × List Guard}
    (h : Act.wlp tell x (fun r g' => ∀ a, r = .ok a → BearsOut op (f a) g'.1) g) :
    Act.wlp tell (x >>= fun a => pure (f a)) (fun r g' => ∀ a, r = .ok a → BearsOut op a g'.1) g := by
  rw [Act.wlp_bind]
  refine Act.wlp_mono h ?_
  rintro (err | a) g' ha
  · intro a h
    cases h
  · intro a' ha'
    cases ha'
    exact ha a rfl

theorem bearsOut_single {op : NotesOp} {answer : NotesAnswer} {κ : EntityType × Uuid} {v : Int}
    (h : ∀ p κ' v', op.Wins answer p κ' v' → p = 0 ∧ κ' = κ ∧ v' = v) :
    BearsOut op answer [(κ, v)] where
  made p κ' v' hw := by
    obtain ⟨_, rfl, rfl⟩ := h p κ' v' hw
    exact List.mem_singleton.2 rfl
  once _ p q κ' v' hp hq := (h p κ' v' hp).1.trans (h q κ' v' hq).1.symm

/-- Every operation's answer is borne out by what it was told. -/
theorem op_tells (op : NotesOp) :
    Act.wlp tell op.prog (fun r g => ∀ a, r = .ok a → BearsOut op a g.1) ([], []) := by
  -- a single guarded operation, and one that guards nothing
  have hsingle : ∀ {k : EntityType} {id c : Uuid} {v : Int} {op : NotesOp}
      {stmt : NotesStmt (Option (Row k.Fields))} {f : Dto k.Fields → NotesAnswer},
      (∀ row, told stmt (some row) = [((k, id), v)]) →
      (∀ a p κ' v', op.Wins a p κ' v' → p = 0 ∧ κ' = (k, id) ∧ v' = v) →
      Act.wlp tell ((query .pool stmt >>= rowOrConflict k id c) >>= fun a => pure (f a))
        (fun r g => ∀ a, r = .ok a → BearsOut op a g.1) ([], []) := by
    intro k id c v op stmt f hs hw
    refine answer_tells (Act.wlp_mono (single_tells hs) ?_)
    intro r g hg a ha
    rw [hg a ha]
    exact bearsOut_single fun p κ' v' => hw _ p κ' v'
  have hplain : ∀ {x : NotesSvc NotesAnswer} {op : NotesOp}, (∀ a p κ v, ¬op.Wins a p κ v) →
      Act.wlp tell x (fun r g => ∀ a, r = .ok a → BearsOut op a g.1) ([], []) := by
    intro x op hw
    exact Prog.wlp_of_forall (fun r g a _ => bearsOut_of_not_wins (hw a)) _
  cases op with
  | createNote c req => exact hplain fun _ _ _ _ h => h
  | createFolder c req => exact hplain fun _ _ _ _ h => h
  | addNoteToFolder c n f => exact hplain fun _ _ _ _ h => h
  | removeNoteToFolder c n f => exact hplain fun _ _ _ _ h => h
  | moveNotesToFolder c req => exact hplain fun _ _ _ _ h => h
  | purgeStale cutoff rounds => exact hplain fun _ _ _ _ h => h
  | updateNote id c req => exact hsingle (k := .note) (fun _ => rfl) fun _ _ _ _ h => h
  | updateFolder id c req => exact hsingle (k := .folder) (fun _ => rfl) fun _ _ _ _ h => h
  | deleteNote id c v => exact hsingle (k := .note) (fun _ => rfl) fun _ _ _ _ h => h
  | deleteFolder id c v => exact hsingle (k := .folder) (fun _ => rfl) fun _ _ _ _ h => h
  | syncPush c batch => exact answer_tells (syncPush_tells c batch)

/-! ## The discipline -/

abbrev NotesWorld (ι : Type) :=
  World NotesStmt NotesDb Write OffsetDateTime DbError (Except NotesError NotesAnswer) ι

section Discipline

variable {ι : Type} [DecidableEq ι]

/-- The worlds that the requests `ops` reach from the empty tables, in whatever order their
statements are answered. -/
def NotesReaches (ops : ι → NotesOp) (t : OffsetDateTime) (w : NotesWorld ι) : Prop :=
  World.Reaches notesKeyed (fun i => ExceptT.run (ops i).prog) .empty t w

/-- The request has come to its answer. -/
def Answered (w : NotesWorld ι) (i : ι) (answer : NotesAnswer) : Prop :=
  (w.callers i).prog = .ret (.ok answer)

/-- The committed changes of a row, in order. -/
def changesTo (w : NotesWorld ι) (κ : EntityType × Uuid) : List Write :=
  writesTo notesKeyed (w.log.map Prod.snd) κ

/-- `history`: the tables are what the committed changes make of empty ones. `versions`: a row
starts at version 1 and every change raises it by one. `current`: so its version is the number of
its changes. `unique`: of the guarded writes of one version to a row one at most has succeeded. -/
structure VersionDiscipline (ops : ι → NotesOp) (w : NotesWorld ι) : Prop where
  history : notesEngine.applyAll .empty (w.log.map Prod.snd) = w.committed
  versions : ∀ κ (n : Nat) x, (changesTo w κ)[n]? = some x →
    ∃ k row guard, x = .put k row guard ∧ row.version = n + 1
  current : ∀ k id (r : Row k.Fields), w.committed.get k id = some r →
    r.version = (changesTo w (k, id)).length
  unique : ∀ i j a b p q κ v, Answered w i a → Answered w j b →
    (ops i).Wins a p κ v → (ops j).Wins b q κ v → i = j ∧ p = q

theorem versionDiscipline (ops : ι → NotesOp) (hops : ∀ i, (ops i).isPurge = false)
    (t : OffsetDateTime) (w : NotesWorld ι) (h : NotesReaches ops t w) : VersionDiscipline ops w := by
  have hinv := World.inv_of_reaches notes_disciplined (fun i => NotesOp.uses_notPurge (hops i)) h
  have hzero : ∀ κ, versionAt notesKeyed AnyRow.version NotesDb.empty κ = 0 :=
    fun κ => versionAt_of_none (NotesDb.get_empty κ.1 κ.2)
  refine ⟨hinv.replay, ?_, ?_, ?_⟩
  · intro κ n x hx
    obtain ⟨r, hv, hver⟩ := version_of_nth notes_raising κ _ _ n x hinv.lawful hx
    rw [hzero, Int.zero_add] at hver
    cases x with
    | erase k id => cases hv
    | put k row guard =>
      cases hv
      exact ⟨k, row, guard, rfl, hver⟩
  · intro k id r hr
    have hlen := versionAt_applyAll notes_raising (k, id) _ _ hinv.lawful
    rw [hinv.replay, versionAt_of_get hr, hzero, Int.zero_add] at hlen
    exact hlen
  · intro i j a b p q κ v hi hj hp hq
    have hnodup := guards_nodup notes_raising _ _ hinv.lawful
    have htold : ∀ i a, Answered w i a → BearsOut (ops i) a (w.marks mark i).1 := by
      intro i a ha
      have ht := World.told_of_reaches notesKeyed notes_honest
        (Q := fun i (r : Except NotesError NotesAnswer) l => ∀ a, r = .ok a → BearsOut (ops i) a l)
        (fun i => op_tells (ops i)) h i
      rw [show (w.callers i).prog = .ret (.ok a) from ha] at ht
      exact ht a rfl
    have hbi := htold i a hi
    obtain rfl : i = j := World.marks_apart hnodup (hbi.made p κ v hp) ((htold j b hj).made q κ v hq)
    rw [show a = b from Except.ok.inj (Prog.ret.inj (hi.symm.trans hj))] at hp hbi
    exact ⟨rfl, hbi.once (World.marks_nodup hnodup i) p q κ v hp hq⟩

omit [DecidableEq ι] in
/-- With no transaction open nothing waits. -/
theorem free_of_idle {w : NotesWorld ι} (h : ∀ i, w.pending i = []) (i : ι) {β : Type}
    (c : Cmd NotesStmt DbError β) (fault : Bool) : w.Free notesKeyed i c fault := by
  intro j _ p hp
  rw [h j] at hp
  cases hp

def groceries : CreateNoteRequest :=
  { id := ⟨1⟩, title := "Groceries", content := "milk", pinned := false, folderId := none }

def editTo (content : String) : UpdateNoteRequest :=
  { title := none, content := some content, pinned := none, folderId := none, baseVersion := 1 }

/-- User 7 makes a note and edits it from two devices that both have read version 1. -/
def race : Fin 3 → NotesOp
  | 0 => .createNote ⟨7⟩ groceries
  | 1 => .updateNote ⟨1⟩ ⟨7⟩ (editTo "bread")
  | 2 => .updateNote ⟨1⟩ ⟨7⟩ (editTo "eggs")

theorem race_disciplined :
    ∃ w : NotesWorld (Fin 3), w.log.length = 2 ∧ VersionDiscipline race w := by
  refine ⟨_, ?_, versionDiscipline race (by decide) 0 _ (.tail (.tail (.tail .refl
    (.call (i := 0) false rfl (free_of_idle ?_ _ _ _)))
    (.call (i := 1) false rfl (free_of_idle ?_ _ _ _)))
    (.call (i := 2) false rfl (free_of_idle ?_ _ _ _)))⟩
  · rfl
  · decide
  · decide
  · decide

end Discipline

end Meno
