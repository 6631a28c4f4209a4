import Meno.Lib.Rely
import Meno.Lib.Schedule
import Meno.Notes.Interleaving
import Meno.Notes.SyncPull

/-!
# Meno.Notes.Replica

A client that pulls while requests write. It keeps the last copy of every note and folder, and
follows the returned cursors; the pulls' two statements are answered in either order, between any
statements of the writers. A row bears the time at which its transaction began and is seen when it
commits, so it can be committed behind the rows that the client has been shown already, and is then
never shown. Where no row is (`Ahead`), the copies are those of all rows that the client has come
past (`Tracks`), and in the end the server's notes and folders (`replica_complete`).
-/

namespace Meno

open Lib NotesService

/-! ## Copies -/

/-- The last copy of an id. -/
def lastCopy {F : Type} (copies : List (Dto F)) (id : Uuid) : Option (Dto F) :=
  copies.reverse.find? fun d => d.id == id

section LastCopy

variable {F : Type} {copies copies' : List (Dto F)} {id : Uuid} {d : Dto F}

theorem lastCopy_append : lastCopy (copies ++ copies') id =
    (lastCopy copies' id).or (lastCopy copies id) := by
  rw [lastCopy, List.reverse_append, List.find?_append]
  rfl

theorem mem_of_lastCopy (h : lastCopy copies id = some d) : d ∈ copies ∧ d.id = id := by
  have hid := List.find?_some h
  exact ⟨List.mem_reverse.1 (List.mem_of_find?_eq_some h), eq_of_beq hid⟩

theorem lastCopy_eq_none (h : ∀ d ∈ copies, d.id ≠ id) : lastCopy copies id = none := by
  refine List.find?_eq_none.2 fun d hd => ?_
  rw [beq_iff_eq]
  exact h d (List.mem_reverse.1 hd)

/-- The only copy of an id is the last one. -/
theorem lastCopy_eq_some (hd : d ∈ copies) (honly : ∀ d' ∈ copies, d'.id = d.id → d' = d) :
    lastCopy copies d.id = some d := by
  cases h : lastCopy copies d.id with
  | none =>
    have hne := List.find?_eq_none.1 h d (List.mem_reverse.2 hd)
    exact absurd (beq_self_eq_true d.id) hne
  | some d' =>
    obtain ⟨hd', hid⟩ := mem_of_lastCopy h
    rw [honly d' hd' hid]

end LastCopy

/-- The copy of a creator's row. -/
def serverCopy (db : NotesDb) (k : EntityType) (c id : Uuid) : Option (Dto k.Fields) :=
  ((db.get k id).filter fun r => r.creatorId == c).map Dto.ofRow

/-! ## Rows that have been shown -/

/-- A row of the creator `c` is written ahead of where the feeds have come to. -/
def Ahead (c : Uuid) (pos : EntityType → Option (OffsetDateTime × Uuid)) : NotesDb → Write → Prop
  | _, .put k row _ => row.creatorId = c → ∀ p ∈ pos k, toLex p < row.syncKey
  | _, .erase _ _ => True

instance (c : Uuid) (pos : EntityType → Option (OffsetDateTime × Uuid)) (db : NotesDb) :
    (x : Write) → Decidable (Ahead c pos db x)
  | .put k row _ =>
    inferInstanceAs (Decidable (row.creatorId = c → ∀ p ∈ pos k, toLex p < row.syncKey))
  | .erase _ _ => isTrue trivial

/-- A client that has come to a position of a feed has copies of the rows up to there, as they are,
and no copies of anything else than rows. -/
structure Tracks (db : NotesDb) (k : EntityType) (c : Uuid) (pos : Option (OffsetDateTime × Uuid))
    (copies : List (Dto k.Fields)) : Prop where
  rows : ∀ id r, db.get k id = some r → r.creatorId = c →
    (∀ p ∈ pos, toLex p < r.syncKey) ∨ lastCopy copies id = some (.ofRow r)
  copies : ∀ d ∈ copies, ∃ r, db.get k d.id = some r ∧ r.creatorId = c

section Tracks

variable {db : NotesDb} {k : EntityType} {c : Uuid} {pos : Option (OffsetDateTime × Uuid)}
  {copies : List (Dto k.Fields)}

theorem tracks_nil : Tracks db k c none [] where
  rows _ _ _ _ := .inl (by simp)
  copies := by simp

theorem Tracks.restart (h : Tracks db k c pos copies) : Tracks db k c none copies where
  rows _ _ _ _ := .inl (by simp)
  copies := h.copies

/-- The client is shown the next rows of the feed. -/
theorem Tracks.find (h : Tracks db k c pos copies) (n : Nat) :
    Tracks db k c (furthest ((changed db k c pos).take n) pos)
      (copies ++ ((changed db k c pos).take n).map Dto.ofRow) where
  rows id r hr hc := by
    -- a row that is shown is the only one with its id
    have honly : ∀ r' ∈ (changed db k c pos).take n, r'.id = id → r' = r := by
      rintro r' hr' rfl
      have hrow := Lib.Table.mem_rows_iff.1 (mem_changed.1 (List.mem_of_mem_take hr')).1
      exact Option.some.inj (hrow.symm.trans hr)
    have hid : r.id = id := NotesDb.id_of_get hr
    have hmem : r ∈ (db.table k).rows := by
      rw [Lib.Table.mem_rows_iff, hid]
      exact hr
    by_cases hin : r ∈ (changed db k c pos).take n
    · right
      have hlast : lastCopy (((changed db k c pos).take n).map Dto.ofRow) id = some (.ofRow r) := by
        rw [← hid]
        refine lastCopy_eq_some (List.mem_map.2 ⟨r, hin, rfl⟩) ?_
        intro d hd hdid
        obtain ⟨r', hr', rfl⟩ := List.mem_map.1 hd
        rw [honly r' hr' (hdid.trans hid)]
      rw [lastCopy_append, hlast]
      rfl
    · have hnone : lastCopy (((changed db k c pos).take n).map Dto.ofRow) id = none := by
        refine lastCopy_eq_none fun d hd hdid => ?_
        obtain ⟨r', hr', rfl⟩ := List.mem_map.1 hd
        exact hin (honly r' hr' hdid ▸ hr')
      rcases h.rows id r hr hc with hbeyond | hcopy
      · left
        have hch : r ∈ changed db k c pos := mem_changed.2 ⟨hmem, hc, hbeyond⟩
        rw [← List.take_append_drop n (changed db k c pos), List.mem_append] at hch
        have hdrop := hch.resolve_left hin
        rw [← changed_furthest] at hdrop
        exact (mem_changed.1 hdrop).2.2
      · right
        rw [lastCopy_append, hnone]
        exact hcopy
  copies d hd := by
    rcases List.mem_append.1 hd with hd | hd
    · exact h.copies d hd
    · obtain ⟨r, hr, rfl⟩ := List.mem_map.1 hd
      obtain ⟨hrow, hc, -⟩ := mem_changed.1 (List.mem_of_mem_take hr)
      exact ⟨r, Lib.Table.mem_rows_iff.1 hrow, hc⟩

/-- A row is written that keeps its creator, ahead of the client. -/
theorem Tracks.put (h : Tracks db k c pos copies) {k' : EntityType} (row : Row k'.Fields)
    (hkeep : ∀ r, db.get k' row.id = some r → row.creatorId = r.creatorId)
    (hahead : k' = k → row.creatorId = c → ∀ p ∈ pos, toLex p < row.syncKey) :
    Tracks (db.put k' row) k c pos copies := by
  by_cases hk : k = k'
  · subst hk
    refine ⟨?_, ?_⟩
    · intro id r hr hc
      rw [NotesDb.get_put_same] at hr
      split at hr
      · cases hr
        exact .inl (hahead rfl hc)
      · exact h.rows id r hr hc
    · intro d hd
      obtain ⟨r, hr, hc⟩ := h.copies d hd
      rw [NotesDb.get_put_same]
      by_cases hid : d.id = row.id
      · rw [if_pos hid]
        rw [hid] at hr
        exact ⟨row, rfl, (hkeep r hr).trans hc⟩
      · rw [if_neg hid]
        exact ⟨r, hr, hc⟩
  · refine ⟨?_, ?_⟩
    · intro id r hr hc
      rw [NotesDb.get_put_ne db hk] at hr
      exact h.rows id r hr hc
    · intro d hd
      obtain ⟨r, hr, hc⟩ := h.copies d hd
      rw [NotesDb.get_put_ne db hk]
      exact ⟨r, hr, hc⟩

/-- Whatever statement of a writer it is. -/
theorem Tracks.write {pos : EntityType → Option (OffsetDateTime × Uuid)} {x : Write}
    (h : Tracks db k c (pos k) copies) (hx : Lawful db x) (hahead : Ahead c pos db x) :
    Tracks (notesEngine.apply db x) k c (pos k) copies := by
  obtain ⟨now, ins, hl⟩ := hx
  cases hl with
  | @insert k' id c' f hins hnone =>
    refine h.put (newRow now id c' f) ?_ ?_
    · intro r hr
      cases hnone.symm.trans hr
    · rintro rfl hc
      exact hahead hc
  | @update k' r row guard hr hbump hguard =>
    refine h.put row ?_ ?_
    · intro r' hr'
      rw [hbump.id, hr] at hr'
      cases hr'
      exact hbump.creatorId
    · rintro rfl hc
      exact hahead hc

/-- A client to whom nothing is left to be shown has the creator's rows and nothing else. -/
theorem Tracks.complete (h : Tracks db k c pos copies) (hnil : changed db k c pos = [])
    (id : Uuid) : lastCopy copies id = serverCopy db k c id := by
  have hnone : (∀ r, db.get k id = some r → r.creatorId ≠ c) →
      lastCopy copies id = none := by
    intro hno
    refine lastCopy_eq_none ?_
    rintro d hd rfl
    obtain ⟨r, hr, hc⟩ := h.copies d hd
    exact hno r hr hc
  unfold serverCopy
  cases hr : db.get k id with
  | none =>
    refine hnone fun r hr' => ?_
    cases hr.symm.trans hr'
  | some r =>
    by_cases hc : r.creatorId = c
    · rcases h.rows id r hr hc with hbeyond | hcopy
      · have hrow : r ∈ (db.table k).rows := by
          rw [Lib.Table.mem_rows_iff, NotesDb.id_of_get hr]
          exact hr
        have hin : r ∈ changed db k c pos := mem_changed.2 ⟨hrow, hc, hbeyond⟩
        rw [hnil] at hin
        cases hin
      · rw [hcopy]
        simp [hc]
    · rw [hnone]
      · simp [hc]
      · intro r' hr'
        cases hr.symm.trans hr'
        exact hc

end Tracks

/-! ## Requests and answers by feed -/

def NotesSyncQuery.cursor (q : NotesSyncQuery) : EntityType → Option Cursor
  | .note => q.notesCursor
  | .folder => q.foldersCursor

namespace NotesSyncResponse

def rows (r : NotesSyncResponse) : (k : EntityType) → List (Dto k.Fields)
  | .note => r.notes
  | .folder => r.folders

def nextCursor (r : NotesSyncResponse) : EntityType → Option Cursor
  | .note => r.notesNextCursor
  | .folder => r.foldersNextCursor

def more (r : NotesSyncResponse) : EntityType → Bool
  | .note => r.notesHasMore
  | .folder => r.foldersHasMore

end NotesSyncResponse

@[simp] theorem NotesSyncQuery.cursor_resume (q : NotesSyncQuery) (r : NotesSyncResponse)
    (k : EntityType) : (q.resume r).cursor k = r.nextCursor k := by
  cases k <;> rfl

/-- What a client has that keeps the last copy of each id. -/
def replica (answers : List NotesSyncResponse) (k : EntityType) (id : Uuid) :
    Option (Dto k.Fields) :=
  lastCopy (answers.flatMap fun r => r.rows k) id

namespace NotesService

/-- What a statement of a pull is answered with. -/
abbrev Found (k : EntityType) := Except NotesError (List (Row k.Fields))

def feeds (notes : Found .note) (folders : Found .folder) : (k : EntityType) → Found k
  | .note => notes
  | .folder => folders

/-- What a pull makes of the answers of its two statements. -/
def syncAnswer (t : CursorText) (serverTime : OffsetDateTime) (q : NotesSyncQuery)
    (found : (k : EntityType) → Found k) : Except NotesError NotesSyncResponse := do
  let notes ← found .note
  let folders ← found .folder
  let notesPage := syncPage t q.pageLimit q.notesCursor notes
  let foldersPage := syncPage t q.pageLimit q.foldersCursor folders
  return {
    notes := notesPage.rows.map Dto.ofRow
    notesNextCursor := notesPage.nextCursor
    notesHasMore := notesPage.hasMore
    folders := foldersPage.rows.map Dto.ofRow
    foldersNextCursor := foldersPage.nextCursor
    foldersHasMore := foldersPage.hasMore
    serverTime }

/-- The statement of a pull for one feed. -/
def changedSince (c : Uuid) (q : NotesSyncQuery) (k : EntityType)
    (pos : Option (OffsetDateTime × Uuid)) : NotesSvc (List (Row k.Fields)) :=
  query .pool (.findChangedSince k c pos (q.pageLimit + 1))

/-- A pull reads the cursors, makes a statement for each feed, and answers. -/
theorem syncPull_eq (t : CursorText) (serverTime : OffsetDateTime) (c : Uuid) (q : NotesSyncQuery) :
    syncPull t serverTime c q = (do
      let notesCursor ← Act.ofExcept (syncCursor t q.notesCursor)
      let foldersCursor ← Act.ofExcept (syncCursor t q.foldersCursor)
      let notes ← Act.attempt (changedSince c q .note notesCursor)
      let folders ← Act.attempt (changedSince c q .folder foldersCursor)
      Act.ofExcept (syncAnswer t serverTime q (feeds notes folders))) := by
  unfold syncPull
  refine bind_congr fun notesCursor => bind_congr fun foldersCursor =>
    bind_congr fun notes => bind_congr fun folders => ?_
  cases notes <;> cases folders <;> rfl

section Answer

variable {t : CursorText} {serverTime : OffsetDateTime} {q : NotesSyncQuery}
  {found : (k : EntityType) → Found k} {r : NotesSyncResponse}

/-- Each feed's part of an answer is made of that feed's rows. -/
theorem syncAnswer_ok (h : syncAnswer t serverTime q found = .ok r) (k : EntityType) :
    ∃ rows, found k = .ok rows ∧
      r.rows k = (rows.take q.pageLimit.toNat).map Dto.ofRow ∧
      r.nextCursor k = ((rows.take q.pageLimit.toNat).getLast?.map fun r =>
        Cursor.fromTimestampId t r.updatedAt r.id).or (q.cursor k) ∧
      r.more k = decide (q.pageLimit.toNat < rows.length) := by
  unfold syncAnswer at h
  cases hn : found .note with
  | error e =>
    rw [hn] at h
    cases h
  | ok notes =>
    cases hf : found .folder with
    | error e =>
      rw [hn, hf] at h
      cases h
    | ok folders =>
      rw [hn, hf] at h
      cases h
      cases k with
      | note => exact ⟨notes, hn, rfl, rfl, rfl⟩
      | folder => exact ⟨folders, hf, rfl, rfl, rfl⟩

end Answer

end NotesService

/-! ## The client among the writers -/

/-- The notes store with its writers, and a client: its next request, the statements of the pull
that is under way with the answers that they have had, and the answers of its pulls. -/
structure SyncState (ι : Type) where
  world : NotesWorld ι
  query : NotesSyncQuery
  pull : Option ((k : EntityType) → Option (Found k))
  answers : List NotesSyncResponse

section Client

variable {ι : Type} [DecidableEq ι]

namespace SyncState

omit [DecidableEq ι] in
/-- A client without cursors. -/
def start (d : NotesDb) (time : OffsetDateTime) (ops : ι → NotesOp) : SyncState ι where
  world := World.start d time fun i => ExceptT.run (ops i).prog
  query := ⟨none, none, none⟩
  pull := none
  answers := []

variable (st : SyncState ι)

/-- The answer that the pull's statement for a feed has had. -/
def result (k : EntityType) : Option (Found k) := st.pull.bind fun found => found k

/-- The rows that the pull will show, as far as they have been found. -/
def page (k : EntityType) : List (Row k.Fields) :=
  match st.result k with
  | some (.ok rows) => rows.take st.query.pageLimit.toNat
  | _ => []

def received (k : EntityType) : List (Dto k.Fields) := st.answers.flatMap fun r => r.rows k

end SyncState

/-- Where a cursor points. -/
def NotesSyncQuery.position (t : CursorText) (q : NotesSyncQuery) (k : EntityType) :
    Option (OffsetDateTime × Uuid) :=
  match syncCursor t (q.cursor k) with
  | .ok pos => pos
  | .error _ => none

/-- How far the client has come in a feed: to the last row that it has been shown or that its pull
has found to show. -/
def SyncState.position (t : CursorText) (st : SyncState ι) (k : EntityType) :
    Option (OffsetDateTime × Uuid) :=
  furthest (st.page k) (st.query.position t k)

/-- `find`: the two statements are answered in either order. A cursor bears the time of a row, and
with a time that a column can hold it is bound as it is. `lose`: the pull fails, or its answer does
not arrive. -/
inductive SyncStep (t : CursorText) (c : Uuid) : SyncState ι → SyncState ι → Prop
  | write {st : SyncState ι} {w : NotesWorld ι} :
      World.Step notesKeyed st.world w → SyncStep t c st { st with world := w }
  | begin {st : SyncState ι} (limit : Option Int) : st.pull = none →
      (∀ k, ∃ pos, syncCursor t (st.query.cursor k) = .ok pos) →
      SyncStep t c st { st with query := { st.query with limit }, pull := some fun _ => none }
  | find {st : SyncState ι} {found : (k : EntityType) → Option (Found k)} {k : EntityType}
      {pos : Option (OffsetDateTime × Uuid)} (faults : List Bool) : st.pull = some found →
      found k = none → syncCursor t (st.query.cursor k) = .ok pos → bindCursor pos = .ok pos →
      SyncStep t c st { st with
        pull := some (Function.update found k (some (Txn.run notesEngine
          (changedSince c st.query k pos) st.world.committed st.world.clock faults).1)) }
  | answer {st : SyncState ι} {found : (k : EntityType) → Found k} {r : NotesSyncResponse}
      (serverTime : OffsetDateTime) : st.pull = some (fun k => some (found k)) →
      syncAnswer t serverTime st.query found = .ok r →
      SyncStep t c st { st with
        query := st.query.resume r
        pull := none
        answers := st.answers ++ [r] }
  | lose {st : SyncState ι} : SyncStep t c st { st with pull := none }

/-! ## What the client has come past -/

/-- What the client has received it has as it is, up to where its cursors point, and what its pull
has found, up to where that will bring it. -/
structure Follows (t : CursorText) (c : Uuid) (st : SyncState ι) : Prop where
  asked : ∀ k, Tracks st.world.committed k c (st.query.position t k) (st.received k)
  found : ∀ k, Tracks st.world.committed k c (st.position t k)
    (st.received k ++ (st.page k).map Dto.ofRow)
  ahead : ∀ k, ∀ r ∈ st.page k, ∀ p ∈ st.query.position t k, toLex p < r.syncKey

section Follows

variable {t : CursorText} {c : Uuid} {st st' : SyncState ι}

omit [DecidableEq ι] in
theorem page_of_pull (h : st.pull = none) (k : EntityType) : st.page k = [] := by
  rw [SyncState.page, SyncState.result, h]
  rfl

omit [DecidableEq ι] in
/-- With no pull under way there is only what has been received. -/
theorem follows_of_pull (hpage : ∀ k, st.page k = [])
    (h : ∀ k, Tracks st.world.committed k c (st.query.position t k) (st.received k)) :
    Follows t c st where
  asked := h
  found k := by
    rw [SyncState.position, hpage k, List.map_nil, List.append_nil]
    exact h k
  ahead k := by
    rw [hpage k]
    simp

omit [DecidableEq ι] in
/-- What is written ahead of a pull is written ahead of its cursors. -/
theorem Follows.ahead_of_ahead (h : Follows t c st) {db : NotesDb} {x : Write}
    (hx : Ahead c (st.position t) db x) : Ahead c (st.query.position t) db x := by
  cases x with
  | erase k id => trivial
  | put k row guard =>
    intro hc p hp
    cases hlast : (st.page k).getLast? with
    | none =>
      have hpos : st.position t k = st.query.position t k := by
        rw [SyncState.position, furthest, hlast]
        rfl
      exact hx hc p (hpos ▸ hp)
    | some a =>
      have hpos : (a.updatedAt, a.id) ∈ st.position t k := by
        rw [SyncState.position, furthest, hlast]
        rfl
      exact (h.ahead k a (List.mem_of_getLast? hlast) p hp).trans (hx hc _ hpos)

omit [DecidableEq ι] in
/-- A statement of a pull that is answered finds the next rows of its feed. -/
theorem run_changedSince {q : NotesSyncQuery} {k : EntityType}
    {pos : Option (OffsetDateTime × Uuid)} {db : NotesDb} {now : OffsetDateTime}
    {faults : List Bool} {rows : List (Row k.Fields)} (hbind : bindCursor pos = .ok pos)
    (h : (Txn.run notesEngine (changedSince c q k pos) db now faults).1 = .ok rows) :
    rows = (changed db k c pos).take (q.pageLimit + 1).toNat := by
  have hexec : notesEngine.exec (.findChangedSince k c pos (q.pageLimit + 1)) now db =
      .ok ((changed db k c pos).take (q.pageLimit + 1).toNat, []) := by
    show (findChangedSince db k c pos (q.pageLimit + 1) >>= answerOnly) = _
    rw [findChangedSince_of_bind hbind]
    rfl
  unfold Txn.run changedSince at h
  rw [query, Act.answer_ask] at h
  simp only [Session.handle, Session.start, hexec] at h
  by_cases hf : faults.headD false = true
  · rw [if_pos hf] at h
    cases h
  · rw [if_neg hf] at h
    cases h
    rfl

omit [DecidableEq ι] in
theorem position_eq {q : NotesSyncQuery} {k : EntityType} {pos : Option (OffsetDateTime × Uuid)}
    (h : syncCursor t (q.cursor k) = .ok pos) : q.position t k = pos := by
  rw [NotesSyncQuery.position, h]

omit [DecidableEq ι] in
/-- Writers commit rows ahead of the client. -/
theorem Follows.write (h : Follows t c st) {w : NotesWorld ι} {ws : List Write}
    (hlawful : notesEngine.Chain Lawful st.world.committed ws)
    (hahead : notesEngine.Chain (Ahead c (st.position t)) st.world.committed ws)
    (hcom : w.committed = notesEngine.applyAll st.world.committed ws) :
    Follows t c { st with world := w } := by
  refine ⟨?_, ?_, h.ahead⟩
  · intro k
    show Tracks w.committed k c (st.query.position t k) (st.received k)
    rw [hcom]
    refine chain_invariant (I := fun db => Tracks db k c (st.query.position t k) (st.received k))
      (fun db x htracks hx hcond => ?_) ws (h.asked k) hlawful hahead
    exact htracks.write hx (h.ahead_of_ahead hcond)
  · intro k
    show Tracks w.committed k c (st.position t k) (st.received k ++ (st.page k).map Dto.ofRow)
    rw [hcom]
    exact chain_invariant (I := fun db => Tracks db k c (st.position t k)
        (st.received k ++ (st.page k).map Dto.ofRow))
      (fun db x htracks hx hcond => htracks.write hx hcond) ws (h.found k) hlawful hahead

omit [DecidableEq ι] in
/-- A statement of the pull is answered. -/
theorem Follows.find (h : Follows t c st) {found : (k : EntityType) → Option (Found k)}
    {k : EntityType} {pos : Option (OffsetDateTime × Uuid)} {faults : List Bool}
    (hpull : st.pull = some found) (hpos : syncCursor t (st.query.cursor k) = .ok pos)
    (hbind : bindCursor pos = .ok pos) :
    Follows t c { st with
      pull := some (Function.update found k (some (Txn.run notesEngine
        (changedSince c st.query k pos) st.world.committed st.world.clock faults).1)) } := by
  generalize hanswer : (Txn.run notesEngine (changedSince c st.query k pos) st.world.committed
    st.world.clock faults).1 = answer
  -- the other feed stays as it is
  have hother : ∀ k', k' ≠ k →
      ({ st with pull := some (Function.update found k (some answer)) } : SyncState ι).page k' =
        st.page k' := by
    intro k' hk
    simp only [SyncState.page, SyncState.result, hpull, Option.bind_some, Function.update_of_ne hk]
  have hself : ({ st with pull := some (Function.update found k (some answer)) } :
      SyncState ι).result k = some answer := by
    simp only [SyncState.result, Option.bind_some, Function.update_self]
  have hq := position_eq hpos
  cases answer with
  | error e =>
    have hpage : ({ st with pull := some (Function.update found k (some (.error e))) } :
        SyncState ι).page k = [] := by
      rw [SyncState.page, hself]
    refine ⟨h.asked, fun k' => ?_, fun k' => ?_⟩
    · by_cases hk : k' = k
      · subst hk
        rw [SyncState.position, hpage, List.map_nil, List.append_nil]
        exact h.asked k'
      · rw [SyncState.position, hother k' hk]
        exact h.found k'
    · by_cases hk : k' = k
      · subst hk
        rw [hpage]
        simp
      · rw [hother k' hk]
        exact h.ahead k'
  | ok rows =>
    have hpage : ({ st with pull := some (Function.update found k (some (.ok rows))) } :
        SyncState ι).page k =
        (changed st.world.committed k c pos).take st.query.pageLimit.toNat := by
      rw [SyncState.page, hself]
      show rows.take st.query.pageLimit.toNat = _
      rw [run_changedSince hbind hanswer, List.take_take, Nat.min_eq_left (by omega)]
    refine ⟨h.asked, fun k' => ?_, fun k' => ?_⟩
    · by_cases hk : k' = k
      · subst hk
        have hasked := h.asked k'
        rw [hq] at hasked
        rw [SyncState.position, hpage, hq]
        exact hasked.find _
      · rw [SyncState.position, hother k' hk]
        exact h.found k'
    · by_cases hk : k' = k
      · subst hk
        rw [hpage, hq]
        intro r hr
        exact (mem_changed.1 (List.mem_of_mem_take hr)).2.2
      · rw [hother k' hk]
        exact h.ahead k'

omit [DecidableEq ι] in
/-- The cursors of an answer point to the last rows that it shows, if they can be read. -/
theorem position_resume {serverTime : OffsetDateTime} {q : NotesSyncQuery}
    {found : (k : EntityType) → Found k} {r : NotesSyncResponse}
    (h : syncAnswer t serverTime q found = .ok r) {k : EntityType} {rows : List (Row k.Fields)}
    (hfound : found k = .ok rows) :
    (q.resume r).position t k = none ∨
      (q.resume r).position t k = furthest (rows.take q.pageLimit.toNat) (q.position t k) := by
  obtain ⟨rows', hfound', -, hnext, -⟩ := syncAnswer_ok h k
  cases hfound.symm.trans hfound'
  cases hlast : (rows.take q.pageLimit.toNat).getLast? with
  | none =>
    rw [hlast] at hnext
    right
    rw [NotesSyncQuery.position, NotesSyncQuery.cursor_resume, hnext, furthest, hlast]
    rfl
  | some a =>
    rw [hlast] at hnext
    rw [NotesSyncQuery.position, NotesSyncQuery.cursor_resume, hnext, furthest, hlast]
    simp only [Option.map_some, Option.some_or, syncCursor]
    cases hread : (Cursor.fromTimestampId t a.updatedAt a.id).toTimestampId t with
    | error e => exact .inl rfl
    | ok pos =>
      right
      rw [Cursor.eq_of_toTimestampId hread]

omit [DecidableEq ι] in
/-- What the pull has found is what its answer shows. -/
theorem page_of_answer {found : (k : EntityType) → Found k} {k : EntityType}
    {rows : List (Row k.Fields)} (hpull : st.pull = some fun k => some (found k))
    (hfound : found k = .ok rows) : st.page k = rows.take st.query.pageLimit.toNat := by
  simp only [SyncState.page, SyncState.result, hpull, Option.bind_some, hfound]

omit [DecidableEq ι] in
/-- The pull is answered. -/
theorem Follows.answer (h : Follows t c st) {found : (k : EntityType) → Found k}
    {r : NotesSyncResponse} {serverTime : OffsetDateTime}
    (hpull : st.pull = some fun k => some (found k))
    (hanswer : syncAnswer t serverTime st.query found = .ok r) :
    Follows t c { st with
      query := st.query.resume r
      pull := none
      answers := st.answers ++ [r] } := by
  refine follows_of_pull (page_of_pull rfl) fun k => ?_
  obtain ⟨rows, hfound, hrows, -, -⟩ := syncAnswer_ok hanswer k
  have hpage := page_of_answer hpull hfound
  have hreceived : (st.answers ++ [r]).flatMap (fun r => r.rows k) =
      st.received k ++ (st.page k).map Dto.ofRow := by
    rw [List.flatMap_append, List.flatMap_singleton, hrows, hpage]
    rfl
  show Tracks st.world.committed k c ((st.query.resume r).position t k)
    ((st.answers ++ [r]).flatMap fun r => r.rows k)
  rw [hreceived]
  rcases position_resume hanswer hfound with hpos | hpos
  · rw [hpos]
    exact (h.found k).restart
  · rw [hpos, ← hpage]
    exact h.found k

end Follows

/-! ## Runs -/

section Runs

variable (t : CursorText) (c : Uuid)

/-- A step in which all that is committed meets `cond`, row write by row write, given where the
client has come to. -/
def SyncStepIf (cond : (EntityType → Option (OffsetDateTime × Uuid)) → NotesDb → Write → Prop)
    (st st' : SyncState ι) : Prop :=
  SyncStep t c st st' ∧
    notesEngine.Chain (cond (st.position t)) st.world.committed (World.fresh st.world st'.world)

abbrev SyncRunIf (cond : (EntityType → Option (OffsetDateTime × Uuid)) → NotesDb → Write → Prop) :
    SyncState ι → SyncState ι → Prop :=
  Relation.ReflTransGen (SyncStepIf t c cond)

abbrev SyncRun : SyncState ι → SyncState ι → Prop := Relation.ReflTransGen (SyncStep t c)

variable {t c} {d : NotesDb} {time : OffsetDateTime} {ops : ι → NotesOp} {st st' : SyncState ι}

abbrev NotesInv (d : NotesDb) (w : NotesWorld ι) : Prop :=
  World.Inv notesKeyed (fun s => s.isPurge = false) Lawful d w

theorem notesInv_step (h : NotesInv d st.world) (hs : SyncStep t c st st') :
    NotesInv d st'.world := by
  cases hs with
  | write hs => exact h.step notes_disciplined hs
  | _ => exact h

theorem Follows.step (h : Follows t c st) (hinv : NotesInv d st.world)
    (hs : SyncStepIf t c (Ahead c) st st') : Follows t c st' := by
  obtain ⟨hs, hahead⟩ := hs
  have hinv' := notesInv_step hinv hs
  cases hs with
  | write hs =>
    obtain ⟨hlawful, hcom⟩ := hinv.fresh hinv' hs
    exact h.write hlawful hahead hcom
  | begin limit hpull hcursors =>
    refine follows_of_pull (fun k => rfl) fun k => ?_
    have hasked := h.asked k
    exact hasked
  | find faults hpull hnone hpos hbind => exact h.find hpull hpos hbind
  | answer serverTime hpull hanswer => exact h.answer hpull hanswer
  | lose => exact follows_of_pull (page_of_pull rfl) h.asked

theorem follows_of_run (hops : ∀ i, (ops i).isPurge = false)
    (h : SyncRunIf t c (Ahead c) (.start d time ops) st) :
    NotesInv d st.world ∧ Follows t c st := by
  induction h with
  | refl =>
    refine ⟨World.inv_start fun i => NotesOp.uses_notPurge (hops i), ?_⟩
    exact follows_of_pull (page_of_pull rfl) fun k => by
      cases k <;> exact tracks_nil
  | tail _ hs ih => exact ⟨notesInv_step ih.1 hs.1, ih.2.step ih.1 hs⟩

/-! ## After the last write -/

omit [DecidableEq ι] in
/-- Every request has come to its end. -/
def NotesWorld.Returned (w : NotesWorld ι) : Prop := ∀ i, ∃ r, (w.callers i).prog = .ret r

/-- Pulls while nobody writes. What they have found is all that their feeds have still to show, and
an answer after which there is no more to come completes the copies; `before` are the answers of
earlier pulls. -/
structure CatchesUp (t : CursorText) (c : Uuid) (before : List NotesSyncResponse)
    (st : SyncState ι) : Prop where
  returned : st.world.Returned
  follows : Follows t c st
  found : ∀ k rows, st.result k = some (.ok rows) →
    rows = (changed st.world.committed k c (st.query.position t k)).take
      (st.query.pageLimit + 1).toNat
  last : ∀ rs r, st.answers = before ++ rs ++ [r] → ∀ k, r.more k = false → ∀ id,
    replica st.answers k id = serverCopy st.world.committed k c id

omit [DecidableEq ι] in
/-- An answer after which there is no more to come. -/
theorem CatchesUp.complete {before : List NotesSyncResponse} (h : CatchesUp t c before st)
    {found : (k : EntityType) → Found k} {r : NotesSyncResponse} {serverTime : OffsetDateTime}
    (hpull : st.pull = some fun k => some (found k))
    (hanswer : syncAnswer t serverTime st.query found = .ok r) {k : EntityType}
    (hmore : r.more k = false) (id : Uuid) :
    replica (st.answers ++ [r]) k id = serverCopy st.world.committed k c id := by
  obtain ⟨rows, hfound, hrows, -, hmore'⟩ := syncAnswer_ok hanswer k
  have hall : rows = (changed st.world.committed k c (st.query.position t k)).take
      (st.query.pageLimit + 1).toNat := by
    refine h.found k rows ?_
    simp only [SyncState.result, hpull, Option.bind_some, hfound]
  have hpos := st.query.toNat_pageLimit_pos
  have hone : (st.query.pageLimit + 1).toNat = st.query.pageLimit.toNat + 1 := by omega
  have hle : (changed st.world.committed k c (st.query.position t k)).length ≤
      st.query.pageLimit.toNat := by
    have hlen : rows.length ≤ st.query.pageLimit.toNat := by
      simpa using hmore'.symm.trans hmore
    rw [hall, List.length_take, hone] at hlen
    omega
  have hpage : st.page k = (changed st.world.committed k c (st.query.position t k)).take
      st.query.pageLimit.toNat := by
    rw [page_of_answer hpull hfound, hall, List.take_take, Nat.min_eq_left (by omega)]
  have hnil : changed st.world.committed k c (st.position t k) = [] := by
    rw [SyncState.position, hpage, changed_furthest, List.drop_of_length_le hle]
  have hcopies : (st.answers ++ [r]).flatMap (fun r => r.rows k) =
      st.received k ++ (st.page k).map Dto.ofRow := by
    rw [List.flatMap_append, List.flatMap_singleton, hrows, page_of_answer hpull hfound]
    rfl
  rw [replica, hcopies]
  exact (h.follows.found k).complete hnil id

theorem CatchesUp.step {before : List NotesSyncResponse} (h : CatchesUp t c before st)
    (hinv : NotesInv d st.world) (hs : SyncStep t c st st') : CatchesUp t c before st' := by
  have hsame : ∀ {w : NotesWorld ι}, World.Step notesKeyed st.world w →
      notesEngine.Chain (Ahead c (st.position t)) st.world.committed (World.fresh st.world w) := by
    intro w hw
    rw [(World.step_of_returned h.returned hw).2.2]
    trivial
  have hnone : (World.fresh st.world st.world : List Write) = [] := World.fresh_of_same rfl
  have hfollows : Follows t c st' := by
    refine h.follows.step hinv ⟨hs, ?_⟩
    cases hs with
    | write hw => exact hsame hw
    | _ =>
      show notesEngine.Chain _ _ (World.fresh st.world st.world)
      rw [hnone]
      trivial
  cases hs with
  | @write w hw =>
    obtain ⟨hreturned, hcom, -⟩ := World.step_of_returned h.returned hw
    refine ⟨hreturned, hfollows, ?_, ?_⟩
    · intro k rows hrows
      have hall := h.found k rows hrows
      rw [← hcom] at hall
      exact hall
    · intro rs r hr k hmore id
      have hlast := h.last rs r hr k hmore id
      rw [← hcom] at hlast
      exact hlast
  | begin limit hpull hcursors =>
    refine ⟨h.returned, hfollows, ?_, h.last⟩
    intro k rows hrows
    cases hrows
  | @find found k pos faults hpull hopen hpos hbind =>
    refine ⟨h.returned, hfollows, ?_, h.last⟩
    intro k' rows hrows
    by_cases hk : k' = k
    · subst hk
      have hself : some (Txn.run notesEngine (changedSince c st.query k' pos) st.world.committed
          st.world.clock faults).1 = some (.ok rows) := by
        simpa only [SyncState.result, Option.bind_some, Function.update_self] using hrows
      have hq : st.query.position t k' = pos := position_eq hpos
      show rows = (changed st.world.committed k' c (st.query.position t k')).take _
      rw [hq]
      exact run_changedSince hbind (Option.some.inj hself)
    · have hother : st.result k' = some (.ok rows) := by
        simpa only [SyncState.result, hpull, Option.bind_some, Function.update_of_ne hk] using hrows
      exact h.found k' rows hother
  | @answer found r serverTime hpull hanswer =>
    refine ⟨h.returned, hfollows, ?_, ?_⟩
    · intro k rows hrows
      cases hrows
    · intro rs r' hr k hmore id
      obtain rfl : r = r' := by
        have hr := congrArg List.getLast? hr
        simpa using hr
      exact h.complete hpull hanswer hmore id
  | lose =>
    refine ⟨h.returned, hfollows, ?_, h.last⟩
    intro k rows hrows
    cases hrows

/-- A client that keeps the last copy of each id, tombstones included, has in the end just the notes
and folders of its creator: once all requests have returned and it has pulled from then on until
both feeds have no more to come. Before that its pulls and all requests may be interleaved in any
way, so long as nothing is committed behind where the client has come to. -/
theorem replica_complete (t : CursorText) (c : Uuid) (d : NotesDb) (time : OffsetDateTime)
    (ops : ι → NotesOp) (hops : ∀ i, (ops i).isPurge = false) (st st' : SyncState ι)
    (hrun : SyncRunIf t c (Ahead c) (.start d time ops) st) (hreturned : st.world.Returned)
    (hidle : st.pull = none) (hpulls : SyncRun t c st st') (rs : List NotesSyncResponse)
    (r : NotesSyncResponse) (hanswers : st'.answers = st.answers ++ rs ++ [r])
    (hnotes : r.notesHasMore = false) (hfolders : r.foldersHasMore = false) (k : EntityType)
    (id : Uuid) : replica st'.answers k id = serverCopy st'.world.committed k c id := by
  have hcatches : NotesInv d st'.world ∧ CatchesUp t c st.answers st' := by
    clear hanswers
    induction hpulls with
    | refl =>
      obtain ⟨hinv, hfollows⟩ := follows_of_run hops hrun
      refine ⟨hinv, hreturned, hfollows, ?_, ?_⟩
      · intro k rows hrows
        rw [SyncState.result, hidle] at hrows
        cases hrows
      · intro rs r hr
        have hlen := congrArg List.length hr
        simp at hlen
    | tail _ hs ih => exact ⟨notesInv_step ih.1 hs, ih.2.step ih.1 hs⟩
  refine hcatches.2.last rs r hanswers k ?_ id
  cases k with
  | note => exact hnotes
  | folder => exact hfolders

end Runs

/-! ## Runs that can be computed -/

section Schedules

variable {t : CursorText} {c : Uuid} {st st' : SyncState ι}
  {cond : (EntityType → Option (OffsetDateTime × Uuid)) → NotesDb → Write → Prop}

variable (t) in
/-- The cursors can be read, and bear times that a column can hold. -/
def NotesSyncQuery.exact (q : NotesSyncQuery) : Bool :=
  [q.notesCursor, q.foldersCursor].all fun cursor =>
    match syncCursor t cursor with
    | .ok pos => pos.all fun p => timestamptz p.1
    | .error _ => false

theorem cursor_of_exact {cursor : Option Cursor}
    (h : (match syncCursor t cursor with
      | .ok pos => pos.all fun p => timestamptz p.1
      | .error _ => false) = true) :
    ∃ pos, syncCursor t cursor = .ok pos ∧ bindCursor pos = .ok pos := by
  cases hpos : syncCursor t cursor with
  | error e =>
    rw [hpos] at h
    cases h
  | ok pos =>
    rw [hpos] at h
    refine ⟨pos, rfl, ?_⟩
    cases pos with
    | none => rfl
    | some p =>
      rw [bindCursor, bindTime_of_timestamptz h]
      rfl

variable (t c) in
omit [DecidableEq ι] in
/-- A pull that is answered at once. -/
def SyncState.pullNow (st : SyncState ι) (limit : Option Int) : Option (SyncState ι) :=
  match st.pull, st.query.exact t,
      (Txn.run notesEngine (syncPull t st.world.clock c { st.query with limit })
        st.world.committed st.world.clock []).1 with
  | none, true, .ok r => some { st with
      query := ({ st.query with limit } : NotesSyncQuery).resume r
      answers := st.answers ++ [r] }
  | _, _, _ => none

omit [DecidableEq ι] in
theorem changedSince_now {q : NotesSyncQuery} {k : EntityType}
    {pos : Option (OffsetDateTime × Uuid)} {db : NotesDb} {now : OffsetDateTime}
    (hbind : bindCursor pos = .ok pos) :
    (Txn.run notesEngine (changedSince c q k pos) db now []).1 =
      .ok ((changed db k c pos).take (q.pageLimit + 1).toNat) := by
  have hanswer := answer_changedSince (k := k) (c := c)
    (s := Session.start (W := Write) db now []) rfl pos (q.pageLimit + 1)
  rw [findChangedSince_of_bind hbind] at hanswer
  exact congrArg Prod.fst (Txn.run_eq hanswer)

omit [DecidableEq ι] in
theorem feeds_of_updates (notes : Found .note) (folders : Found .folder) :
    Function.update (Function.update (fun _ => none : (k : EntityType) → Option (Found k)) .note
      (some notes)) .folder (some folders) = fun k => some (feeds notes folders k) := by
  funext k
  cases k <;> rfl

/-- With cursors that can be read. -/
theorem run_pull_of_cursors {limit : Option Int} {pn pf : Option (OffsetDateTime × Uuid)}
    {r : NotesSyncResponse} (hpull : st.pull = none)
    (hn : syncCursor t st.query.notesCursor = .ok pn)
    (hf : syncCursor t st.query.foldersCursor = .ok pf)
    (hbn : bindCursor pn = .ok pn) (hbf : bindCursor pf = .ok pf)
    (hr : (Txn.run notesEngine (syncPull t st.world.clock c { st.query with limit })
      st.world.committed st.world.clock []).1 = .ok r) :
    SyncRunIf t c cond st { st with
      query := ({ st.query with limit } : NotesSyncQuery).resume r
      answers := st.answers ++ [r] } := by
  let q : NotesSyncQuery := { st.query with limit }
  -- none of the steps writes
  have hquiet : ∀ {s s' : SyncState ι}, SyncStep t c s s' → s'.world = s.world →
      SyncStepIf t c cond s s' := by
    intro s s' hs hw
    refine ⟨hs, ?_⟩
    rw [hw, World.fresh_of_same rfl]
    trivial
  have hbegin : SyncStep t c st { st with query := q, pull := some fun _ => none } := by
    refine .begin limit hpull fun k => ?_
    cases k with
    | note => exact ⟨pn, hn⟩
    | folder => exact ⟨pf, hf⟩
  have hnotes : SyncStep t c { st with query := q, pull := some fun _ => none } _ :=
    .find (k := .note) [] rfl rfl hn hbn
  rw [changedSince_now hbn] at hnotes
  have hfolders : SyncStep t c { st with
      query := q
      pull := some (Function.update (fun _ => none) .note
        (some (.ok ((changed st.world.committed .note c pn).take (q.pageLimit + 1).toNat)))) } _ :=
    .find (k := .folder) [] rfl rfl hf hbf
  rw [changedSince_now hbf, feeds_of_updates] at hfolders
  rw [show (Txn.run notesEngine (syncPull t st.world.clock c q) st.world.committed st.world.clock
    []) = _ from syncPull_ok st.world.clock st.world.clock c (boundCursor_of_bind hn hbn)
      (boundCursor_of_bind hf hbf)] at hr
  have hlast : SyncStep t c { st with
      query := q
      pull := some fun k => some (feeds
        (.ok ((changed st.world.committed .note c pn).take (q.pageLimit + 1).toNat))
        (.ok ((changed st.world.committed .folder c pf).take (q.pageLimit + 1).toNat)) k) } _ :=
    .answer (r := r) st.world.clock rfl hr
  have hend : ({ st with
      query := q.resume r
      pull := none
      answers := st.answers ++ [r] } : SyncState ι) = { st with
      query := q.resume r
      answers := st.answers ++ [r] } := by
    rw [← hpull]
  rw [← hend]
  exact .tail (.tail (.tail (.single (hquiet hbegin rfl)) (hquiet hnotes rfl))
    (hquiet hfolders rfl)) (hquiet hlast rfl)

/-- A pull that nobody comes between is answered as `sync_pull` is. -/
theorem run_pullNow {limit : Option Int} (h : st.pullNow t c limit = some st') :
    SyncRunIf t c cond st st' := by
  unfold SyncState.pullNow at h
  split at h
  · rename_i r hpull hexact hr
    cases h
    simp only [NotesSyncQuery.exact, List.all_cons, List.all_nil, Bool.and_true,
      Bool.and_eq_true] at hexact
    obtain ⟨pn, hn, hbn⟩ := cursor_of_exact hexact.1
    obtain ⟨pf, hf, hbf⟩ := cursor_of_exact hexact.2
    exact run_pull_of_cursors hpull hn hf hbn hbf hr
  · cases h

/-- A caller's turn at its time, or a pull. -/
inductive SyncEvent (ι : Type) where
  | turn (time : OffsetDateTime) (i : ι)
  | pull (limit : Option Int)

variable (t c cond) in
def runEvents [Fintype ι] [∀ pos db x, Decidable (cond pos db x)] :
    List (SyncEvent ι) → SyncState ι → Option (SyncState ι)
  | [], st => some st
  | .turn time i :: events, st =>
    (World.runSchedule notesKeyed (cond (st.position t)) [(time, i)] st.world).bind fun w =>
      runEvents events { st with world := w }
  | .pull limit :: events, st => (st.pullNow t c limit).bind (runEvents events)

/-- Steps of the writers, while the client stays where it is. -/
theorem run_of_writes {w : NotesWorld ι}
    (h : Relation.ReflTransGen (World.StepIf notesKeyed (cond (st.position t))) st.world w) :
    SyncRunIf t c cond st { st with world := w } := by
  induction h with
  | refl => exact .refl
  | tail _ hs ih => exact .tail ih ⟨.write hs.1, hs.2⟩

theorem run_runEvents [Fintype ι] [∀ pos db x, Decidable (cond pos db x)] :
    ∀ (events : List (SyncEvent ι)) {st st' : SyncState ι},
      runEvents t c cond events st = some st' → SyncRunIf t c cond st st' := by
  intro events
  induction events with
  | nil =>
    intro st st' h
    cases h
    exact .refl
  | cons e events ih =>
    intro st st' h
    cases e with
    | turn time i =>
      obtain ⟨w, hw, hrest⟩ := Option.bind_eq_some_iff.1 h
      exact (run_of_writes (World.steps_runSchedule _ hw)).trans (ih hrest)
    | pull limit =>
      obtain ⟨s, hs, hrest⟩ := Option.bind_eq_some_iff.1 h
      exact (run_pullNow hs).trans (ih hrest)

omit [DecidableEq ι] in
theorem answers_pullNow {limit : Option Int} (h : st.pullNow t c limit = some st') :
    ∃ r, st'.answers = st.answers ++ [] ++ [r] := by
  unfold SyncState.pullNow at h
  split at h
  · rename_i r hpull hexact hr
    cases h
    exact ⟨r, by rw [List.append_nil]⟩
  · cases h

/-- What the evaluation of events, and of a last pull, shows. -/
theorem exists_of_runEvents [Fintype ι]
    (cond : (EntityType → Option (OffsetDateTime × Uuid)) → NotesDb → Write → Prop)
    [∀ pos db x, Decidable (cond pos db x)] {P : SyncState ι → Prop} (start : SyncState ι)
    (events : List (SyncEvent ι))
    (h : ∃ st ∈ runEvents t c cond events start,
      (∀ i, (st.world.callers i).prog.isRet = true) ∧ st.pull.isNone = true ∧
        ∃ st' ∈ st.pullNow t c none,
          st'.answers.getLast?.all (fun r => !r.notesHasMore && !r.foldersHasMore) = true ∧ P st') :
    ∃ st st' rs r, SyncRunIf t c cond start st ∧ st.world.Returned ∧ st.pull = none ∧
      SyncRun t c st st' ∧ st'.answers = st.answers ++ rs ++ [r] ∧ r.notesHasMore = false ∧
        r.foldersHasMore = false ∧ P st' := by
  obtain ⟨st, hst, hret, hpull, st', hst', hlast, hP⟩ := h
  obtain ⟨r, hr⟩ := answers_pullNow hst'
  have hrun : SyncRunIf t c (fun _ _ _ => True) st st' := run_pullNow hst'
  rw [hr, List.getLast?_append_of_ne_nil _ (by simp), List.getLast?_singleton, Option.all_some,
    Bool.and_eq_true, Bool.not_eq_true', Bool.not_eq_true'] at hlast
  exact ⟨st, st', [], r, run_runEvents events hst, fun i => Prog.isRet_iff.1 (hret i),
    Option.isNone_iff_eq_none.1 hpull, Relation.ReflTransGen.mono (fun _ _ hs => hs.1) _ _ hrun, hr,
    hlast.1, hlast.2, hP⟩

end Schedules

/-- A push of note 1, and a request that makes note 2. -/
def twoDevices : Fin 2 → NotesOp
  | 0 => .syncPush ⟨9⟩ [.note {
      id := ⟨1⟩
      fields := { title := "Draft", content := "", pinned := false, folderId := none }
      deleted := false
      baseVersion := none
      clientUpdatedAt := 4 }]
  | 1 => .createNote ⟨9⟩ {
      id := ⟨2⟩, title := "Groceries", content := "milk", pinned := false, folderId := none }

/-- In microseconds: the push has begun at 5, and commits at 7; the request comes in between, and so
does the first pull. -/
theorem late_commit_missed :
    ∃ (st st' : SyncState (Fin 2)) (rs : List NotesSyncResponse) (r : NotesSyncResponse),
      SyncRun .urlSafe ⟨9⟩ (.start .empty 5000 twoDevices) st ∧ st.world.Returned ∧ st.pull = none ∧
        SyncRun .urlSafe ⟨9⟩ st st' ∧ st'.answers = st.answers ++ rs ++ [r] ∧
          r.notesHasMore = false ∧ r.foldersHasMore = false ∧
            replica st'.answers .note ⟨1⟩ = none ∧
              (serverCopy st'.world.committed .note ⟨9⟩ ⟨1⟩).isSome = true := by
  obtain ⟨st, st', rs, r, hrun, hrest⟩ := exists_of_runEvents (t := .urlSafe) (c := ⟨9⟩)
    (fun _ _ _ => True) (.start .empty 5000 twoDevices)
    (P := fun st' => replica st'.answers .note ⟨1⟩ = none ∧
      (serverCopy st'.world.committed .note ⟨9⟩ ⟨1⟩).isSome = true)
    [.turn 5000 0, .turn 5000 0, .turn 6000 1, .pull none, .turn 7000 0] (by decide +kernel)
  exact ⟨st, st', rs, r, Relation.ReflTransGen.mono (fun _ _ hs => hs.1) _ _ hrun, hrest⟩

/-- The first pull waits until the push has committed. -/
theorem replica_of_two_devices :
    ∃ st' : SyncState (Fin 2), st'.answers.length = 2 ∧
      ∀ k id, replica st'.answers k id = serverCopy st'.world.committed k ⟨9⟩ id := by
  obtain ⟨st, st', rs, r, hrun, hreturned, hidle, hpulls, hanswers, hnotes, hfolders, hlen⟩ :=
    exists_of_runEvents (t := .urlSafe) (c := ⟨9⟩) (Ahead ⟨9⟩)
      (.start .empty 5000 twoDevices) (P := fun st' => st'.answers.length = 2)
      [.turn 5000 0, .turn 5000 0, .turn 7000 0, .pull none, .turn 8000 1] (by decide +kernel)
  exact ⟨st', hlen, replica_complete .urlSafe ⟨9⟩ .empty 5000 twoDevices (by decide) st st' hrun
    hreturned hidle hpulls rs r hanswers hnotes hfolders⟩

end Client

end Meno
