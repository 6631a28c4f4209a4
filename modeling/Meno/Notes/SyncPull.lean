import Meno.Notes.PushResults
import Meno.Shared.Pagination
import Meno.Shared.UuidText

/-!
# Meno.Notes.SyncPull

`sync_pull`, and a client that repeats it with the cursors it was given. Notes and folders are two
feeds, each ordered by `(updated_at, id)` and each with a cursor of its own; a pull takes the next
rows of both. What a feed has still to show is a list (`changed`), and a pull takes the first rows
of it and leaves the others (`syncPage_spec`).
-/

namespace Meno

open Lib

/-! ## Requests and answers -/

structure NotesSyncQuery where
  notesCursor : Option Cursor
  foldersCursor : Option Cursor
  limit : Option Int

/-- `unwrap_or(200).clamp(1, 500)`. -/
def NotesSyncQuery.pageLimit (q : NotesSyncQuery) : Int := max 1 (min (q.limit.getD 200) 500)

theorem NotesSyncQuery.toNat_pageLimit_pos (q : NotesSyncQuery) : 0 < q.pageLimit.toNat := by
  unfold pageLimit
  omega

structure NotesSyncResponse where
  notes : List NoteDto
  notesNextCursor : Option Cursor
  notesHasMore : Bool
  folders : List FolderDto
  foldersNextCursor : Option Cursor
  foldersHasMore : Bool
  serverTime : OffsetDateTime

/-- The same request with the cursors of an answer. -/
def NotesSyncQuery.resume (q : NotesSyncQuery) (r : NotesSyncResponse) : NotesSyncQuery :=
  { q with notesCursor := r.notesNextCursor, foldersCursor := r.foldersNextCursor }

namespace NotesService

variable (t : CursorText)

/-- `cursor.as_ref().map(Cursor::to_timestamp_id).transpose()`. -/
def syncCursor : Option Cursor → Except NotesError (Option (OffsetDateTime × Uuid))
  | none => .ok none
  | some c =>
    match c.toTimestampId t with
    | .ok pos => .ok (some pos)
    | .error e => .error (.cursor e)

/-- A feed's part of the answer. -/
structure SyncPage (F : Type) where
  rows : List (Row F)
  nextCursor : Option Cursor
  hasMore : Bool

/-- What is made of the rows that a feed's statement has found, one more than the limit. A feed with
nothing new echoes the cursor of the request. -/
def syncPage {F : Type} (limit : Int) (cursor : Option Cursor) (rows : List (Row F)) : SyncPage F :=
  let hasMore := decide (rows.length > limit.toNat)
  let rows := rows.take limit.toNat
  let nextCursor := (rows.getLast?.map fun r => Cursor.fromTimestampId t r.updatedAt r.id).or cursor
  { rows, nextCursor, hasMore }

/-- `serverTime` is the time of day that the answer mentions. -/
def syncPull (serverTime : OffsetDateTime) (creatorId : Uuid) (q : NotesSyncQuery) :
    NotesSvc NotesSyncResponse := do
  let limit := q.pageLimit
  let notesCursor ← Act.ofExcept (syncCursor t q.notesCursor)
  let foldersCursor ← Act.ofExcept (syncCursor t q.foldersCursor)
  let notesResult ← Act.attempt
    (query .pool (.findChangedSince .note creatorId notesCursor (limit + 1)))
  let foldersResult ← Act.attempt
    (query .pool (.findChangedSince .folder creatorId foldersCursor (limit + 1)))
  let notes ← Act.ofExcept notesResult
  let folders ← Act.ofExcept foldersResult
  let notesPage := syncPage t limit q.notesCursor notes
  let foldersPage := syncPage t limit q.foldersCursor folders
  return {
    notes := notesPage.rows.map Dto.ofRow
    notesNextCursor := notesPage.nextCursor
    notesHasMore := notesPage.hasMore
    folders := foldersPage.rows.map Dto.ofRow
    foldersNextCursor := foldersPage.nextCursor
    foldersHasMore := foldersPage.hasMore
    serverTime }

end NotesService

/-! ## What a feed has still to show -/

section Changed

variable {db : NotesDb} {k : EntityType} {c : Uuid} {pos : Option (OffsetDateTime × Uuid)}

/-- The rows of a feed beyond a position, in order. -/
def changed (db : NotesDb) (k : EntityType) (c : Uuid) (pos : Option (OffsetDateTime × Uuid)) :
    List (Row k.Fields) :=
  ((db.table k).rows.filter fun r => r.creatorId == c &&
    pos.all fun p => toLex p < r.syncKey).insertionSort fun r r' => r.syncKey ≤ r'.syncKey

theorem findChangedSince_eq (limit : Int) :
    findChangedSince db k c pos limit =
      (bindCursor pos).map fun pos => (changed db k c pos).take limit.toNat := rfl

theorem findChangedSince_of_bind {pos' : Option (OffsetDateTime × Uuid)}
    (h : bindCursor pos = .ok pos') (limit : Int) :
    findChangedSince db k c pos limit = .ok ((changed db k c pos').take limit.toNat) := by
  rw [findChangedSince_eq, h]
  rfl

theorem findChangedSince_of_error {e : DbError} (h : bindCursor pos = .error e) (limit : Int) :
    findChangedSince db k c pos limit = .error e := by
  rw [findChangedSince_eq, h]
  rfl

theorem mem_changed {r : Row k.Fields} :
    r ∈ changed db k c pos ↔
      r ∈ (db.table k).rows ∧ r.creatorId = c ∧ ∀ p, pos = some p → toLex p < r.syncKey := by
  rw [changed, (List.perm_insertionSort _ _).mem_iff, List.mem_filter, Bool.and_eq_true,
    beq_iff_eq]
  cases pos with
  | none => simp
  | some p => simp

theorem nodup_changed (pos : Option (OffsetDateTime × Uuid)) : (changed db k c pos).Nodup := by
  have hrows : (db.table k).rows.Nodup := List.Nodup.of_map _ (db.table k).nodup
  exact (List.perm_insertionSort _ _).nodup_iff.2 (hrows.filter _)

/-- No two rows of a table stand in the same place. -/
theorem eq_of_syncKey {r r' : Row k.Fields} (hr : r ∈ (db.table k).rows)
    (hr' : r' ∈ (db.table k).rows) (h : r.syncKey = r'.syncKey) : r = r' := by
  have hid : r.id = r'.id := (Prod.mk.inj (toLex.injective h)).2
  have hget := Lib.Table.mem_rows_iff.1 hr
  rw [hid, Lib.Table.mem_rows_iff.1 hr'] at hget
  exact (Option.some.inj hget).symm

theorem changed_ascending (db : NotesDb) (k : EntityType) (c : Uuid)
    (pos : Option (OffsetDateTime × Uuid)) :
    (changed db k c pos).Pairwise fun r r' => r.syncKey < r'.syncKey := by
  have hle : (changed db k c pos).Pairwise fun r r' => r.syncKey ≤ r'.syncKey :=
    List.pairwise_insertionSort _ _
  refine (hle.and (nodup_changed pos)).imp_of_mem fun {r r'} hr hr' h => ?_
  exact lt_of_le_of_ne h.1 fun hkey =>
    h.2 (eq_of_syncKey (mem_changed.1 hr).1 (mem_changed.1 hr').1 hkey)

/-- Beyond a row lie the rows that come after it. -/
theorem changed_after {pre post : List (Row k.Fields)} {a : Row k.Fields}
    (h : changed db k c pos = pre ++ a :: post) :
    changed db k c (some (a.updatedAt, a.id)) = post := by
  have hasc := changed_ascending db k c pos
  rw [h, List.pairwise_append, List.pairwise_cons] at hasc
  obtain ⟨-, ⟨hpost, hasc⟩, hpre⟩ := hasc
  have hmem : ∀ r, r ∈ changed db k c (some (a.updatedAt, a.id)) ↔ r ∈ post := by
    intro r
    have ha := mem_changed.1 (show a ∈ changed db k c pos by simp [h])
    rw [mem_changed]
    constructor
    · rintro ⟨hr, hc, hbeyond⟩
      have hlt : a.syncKey < r.syncKey := hbeyond _ rfl
      have hin : r ∈ changed db k c pos :=
        mem_changed.2 ⟨hr, hc, fun p hp => (ha.2.2 p hp).trans hlt⟩
      rw [h, List.mem_append, List.mem_cons] at hin
      rcases hin with hin | rfl | hin
      · exact absurd (hpre r hin a List.mem_cons_self) (lt_asymm hlt)
      · exact absurd hlt (lt_irrefl _)
      · exact hin
    · intro hr
      have hin := mem_changed.1 (show r ∈ changed db k c pos by simp [h, hr])
      refine ⟨hin.1, hin.2.1, ?_⟩
      rintro p ⟨⟩
      exact hpost r hr
  refine @List.Perm.eq_of_pairwise _ (fun r r' => r.syncKey < r'.syncKey) _ _ ?_
    (changed_ascending db k c _) hasc ?_
  · intro r r' _ _ hlt hgt
    exact absurd hgt (lt_asymm hlt)
  · have hnodup : post.Nodup := hasc.imp fun hlt heq => absurd (congrArg Row.syncKey heq) hlt.ne
    exact (List.perm_ext_iff_of_nodup (nodup_changed _) hnodup).2 hmem

/-- How far a client has come that is shown rows: to the last of them, or no further than before. -/
def furthest {F : Type} (rows : List (Row F)) (pos : Option (OffsetDateTime × Uuid)) :
    Option (OffsetDateTime × Uuid) :=
  (rows.getLast?.map fun r => (r.updatedAt, r.id)).or pos

/-- Beyond the first rows of what a feed has still to show lie the others. -/
theorem changed_furthest (n : Nat) :
    changed db k c (furthest ((changed db k c pos).take n) pos) = (changed db k c pos).drop n := by
  cases hlast : ((changed db k c pos).take n).getLast? with
  | none =>
    have hnil := List.getLast?_eq_none_iff.1 hlast
    have hsplit := List.take_append_drop n (changed db k c pos)
    rw [hnil, List.nil_append] at hsplit
    rw [furthest, hlast, hsplit]
    rfl
  | some a =>
    obtain ⟨pre, hpre⟩ := List.getLast?_eq_some_iff.1 hlast
    have hsplit : changed db k c pos = pre ++ a :: (changed db k c pos).drop n := by
      conv_lhs => rw [← List.take_append_drop n (changed db k c pos), hpre]
      simp
    rw [furthest, hlast]
    exact changed_after hsplit

end Changed

namespace NotesService

/-! ## One pull -/

/-- What the statement of a pull has for its cursor. -/
def boundCursor (t : CursorText) (cursor : Option Cursor) :
    Except NotesError (Option (OffsetDateTime × Uuid)) := do
  let pos ← syncCursor t cursor
  (bindCursor pos).mapError .database

section Pull

variable {t : CursorText} {db : NotesDb} {k : EntityType} {c : Uuid}

/-- Of the rows that a feed has still to show, one more than the limit is enough to tell. -/
theorem syncPage_take {F : Type} (rows : List (Row F)) {limit : Int} (hlimit : 0 < limit.toNat)
    (cursor : Option Cursor) :
    syncPage t limit cursor (rows.take (limit + 1).toNat) = {
      rows := rows.take limit.toNat
      nextCursor := ((rows.take limit.toNat).getLast?.map fun r =>
        Cursor.fromTimestampId t r.updatedAt r.id).or cursor
      hasMore := decide (limit.toNat < rows.length) } := by
  have hone : (limit + 1).toNat = limit.toNat + 1 := by omega
  have htake : (rows.take (limit + 1).toNat).take limit.toNat = rows.take limit.toNat := by
    rw [hone, List.take_take, Nat.min_eq_left (Nat.le_succ _)]
  have hmore : limit.toNat < (rows.take (limit + 1).toNat).length ↔ limit.toNat < rows.length := by
    rw [hone, List.length_take]
    omega
  simp only [syncPage, htake, gt_iff_lt, hmore]

theorem boundCursor_of_bind {cursor : Option Cursor} {pos pos' : Option (OffsetDateTime × Uuid)}
    (hpos : syncCursor t cursor = .ok pos) (hbind : bindCursor pos = .ok pos') :
    boundCursor t cursor = .ok pos' := by
  rw [boundCursor, hpos, ok_bind, hbind]
  rfl

theorem boundCursor_ok {cursor : Option Cursor} {pos' : Option (OffsetDateTime × Uuid)}
    (h : boundCursor t cursor = .ok pos') :
    ∃ pos, syncCursor t cursor = .ok pos ∧ bindCursor pos = .ok pos' := by
  obtain ⟨pos, hpos, hbind⟩ := bind_eq_ok.1 h
  refine ⟨pos, hpos, ?_⟩
  cases hbound : bindCursor pos with
  | error e =>
    rw [hbound] at hbind
    cases hbind
  | ok pos₀ =>
    rw [hbound] at hbind
    cases hbind
    rfl

/-- One part of a pull: the first rows of what the feed has still to show, whether there are others,
and a cursor beyond which lie just those. -/
theorem syncPage_spec (htimes : ∀ r ∈ (db.table k).rows, representable r.updatedAt = true ∧
      timestamptz r.updatedAt = true)
    {limit : Int} (hlimit : 0 < limit.toNat) {cursor : Option Cursor}
    {pos : Option (OffsetDateTime × Uuid)} (hpos : boundCursor t cursor = .ok pos) :
    let page := syncPage t limit cursor ((changed db k c pos).take (limit + 1).toNat)
    page.rows = (changed db k c pos).take limit.toNat ∧
      page.hasMore = decide (limit.toNat < (changed db k c pos).length) ∧
      ∃ pos', boundCursor t page.nextCursor = .ok pos' ∧
        changed db k c pos' = (changed db k c pos).drop limit.toNat := by
  simp only [syncPage_take _ hlimit]
  refine ⟨trivial, trivial, ?_⟩
  refine ⟨_, ?_, changed_furthest limit.toNat⟩
  cases hlast : ((changed db k c pos).take limit.toNat).getLast? with
  | none =>
    rw [furthest, hlast]
    exact hpos
  | some a =>
    have ha : a ∈ changed db k c pos := List.mem_of_mem_take (List.mem_of_getLast? hlast)
    obtain ⟨htime, hheld⟩ := htimes a (mem_changed.1 ha).1
    rw [furthest, hlast]
    -- a row's own time is read back and bound as it is
    have hread : syncCursor t (some (Cursor.fromTimestampId t a.updatedAt a.id)) =
        .ok (some (a.updatedAt, a.id)) := by
      simp only [syncCursor, Cursor.toTimestampId_fromTimestampId htime a.id]
    refine boundCursor_of_bind hread ?_
    rw [bindCursor, bindTime_of_timestamptz hheld]
    rfl

/-- A feed's statement, when no call fails by itself. -/
theorem answer_changedSince {s : Session NotesDb Write OffsetDateTime} (hf : s.faults = [])
    (pos : Option (OffsetDateTime × Uuid)) (limit : Int) :
    Act.answer (Session.handle notesEngine) (query .pool (.findChangedSince k c pos limit)) s =
      ((findChangedSince s.committed k c pos limit).mapError .database, s) := by
  have hexec : notesEngine.exec (.findChangedSince k c pos limit) s.now s.committed =
      (findChangedSince s.committed k c pos limit >>= answerOnly) := rfl
  rw [query, Act.answer_ask]
  cases hfound : findChangedSince s.committed k c pos limit with
  | ok rows =>
    rw [hfound] at hexec
    rw [Session.handle_read notesEngine hf hexec]
    rfl
  | error e =>
    rw [hfound] at hexec
    have hno : s.faults.headD false = false := by rw [hf]; rfl
    simp only [Session.handle, hexec, Session.tick_of_no_faults hf, hno, Bool.false_eq_true,
      if_false, error_bind]
    rfl

/-- A pull answers from the two feeds and writes nothing. -/
theorem syncPull_ok (serverTime now : OffsetDateTime) (c : Uuid) {q : NotesSyncQuery}
    {pn pf : Option (OffsetDateTime × Uuid)} (hn : boundCursor t q.notesCursor = .ok pn)
    (hf : boundCursor t q.foldersCursor = .ok pf) :
    let notesPage := syncPage t q.pageLimit q.notesCursor
      ((changed db .note c pn).take (q.pageLimit + 1).toNat)
    let foldersPage := syncPage t q.pageLimit q.foldersCursor
      ((changed db .folder c pf).take (q.pageLimit + 1).toNat)
    Txn.run notesEngine (syncPull t serverTime c q) db now [] = (.ok {
      notes := notesPage.rows.map Dto.ofRow
      notesNextCursor := notesPage.nextCursor
      notesHasMore := notesPage.hasMore
      folders := foldersPage.rows.map Dto.ofRow
      foldersNextCursor := foldersPage.nextCursor
      foldersHasMore := foldersPage.hasMore
      serverTime }, db) := by
  intro notesPage foldersPage
  obtain ⟨cn, hcn, hbn⟩ := boundCursor_ok hn
  obtain ⟨cf, hcf, hbf⟩ := boundCursor_ok hf
  have hstart : (Session.start (W := Write) db now []).faults = [] := rfl
  have hnotes := answer_changedSince (k := .note) (c := c) hstart cn (q.pageLimit + 1)
  have hfolders := answer_changedSince (k := .folder) (c := c) hstart cf (q.pageLimit + 1)
  rw [findChangedSince_of_bind hbn] at hnotes
  rw [findChangedSince_of_bind hbf] at hfolders
  refine Txn.run_eq (s := Session.start db now []) ?_
  unfold syncPull
  rw [hcn, hcf]
  refine (Act.answer_bind_ok _ (Act.answer_ofExcept _ _ _)).trans ?_
  refine (Act.answer_bind_ok _ (Act.answer_ofExcept _ _ _)).trans ?_
  refine (Act.answer_bind_ok _ ((Act.answer_attempt _ _ _).trans (by rw [hnotes]))).trans ?_
  refine (Act.answer_bind_ok _ ((Act.answer_attempt _ _ _).trans (by rw [hfolders]))).trans ?_
  refine (Act.answer_bind_ok _ (Act.answer_ofExcept _ _ _)).trans ?_
  refine (Act.answer_bind_ok _ (Act.answer_ofExcept _ _ _)).trans ?_
  rfl

end Pull

/-! ## Repeated pulls -/

/-- A client repeats its request with the cursors of each answer: the answers, and the request that
it has come to. `n` counts the requests. -/
inductive Pulls (fetch : Nat → NotesSyncQuery → Except NotesError NotesSyncResponse) :
    Nat → NotesSyncQuery → List NotesSyncResponse → NotesSyncQuery → Prop
  | done {n : Nat} {q : NotesSyncQuery} : Pulls fetch n q [] q
  | next {n : Nat} {q q' : NotesSyncQuery} {r : NotesSyncResponse} {rs : List NotesSyncResponse}
      (h : fetch n q = .ok r) (hrest : Pulls fetch (n + 1) (q.resume r) rs q') :
      Pulls fetch n q (r :: rs) q'

end NotesService

def NotesSyncResponse.hasMore (r : NotesSyncResponse) : Bool := r.notesHasMore || r.foldersHasMore

/-- The tables of notes and folders. Every `updated_at` in them is one that the column holds, and
one that an `OffsetDateTime` can hold: the rows are read into it. -/
structure SyncDb where
  db : NotesDb
  times : ∀ k, ∀ r ∈ (db.table k).rows,
    representable r.updatedAt = true ∧ timestamptz r.updatedAt = true

/-- The `n`-th pull of the creator `c`, from tables that nobody writes to. -/
def SyncDb.pull (t : CursorText) (d : SyncDb) (clock : Nat → OffsetDateTime) (c : Uuid) (n : Nat)
    (q : NotesSyncQuery) : Except NotesError NotesSyncResponse :=
  (Txn.run notesEngine (NotesService.syncPull t (clock n) c q) d.db (clock n) []).1

namespace NotesService

/-- Every further pull is answered with nothing, and with the same cursors. -/
def AtRest (fetch : Nat → NotesSyncQuery → Except NotesError NotesSyncResponse)
    (q : NotesSyncQuery) : Prop :=
  ∀ n, ∃ r, fetch n q = .ok r ∧ r.notes = [] ∧ r.folders = [] ∧ r.hasMore = false ∧ q.resume r = q

/-- The walk comes to an end: `rs` are the answers before the first one that has no more to come,
`r` is that one. In all they have shown the rows `notes` and `folders`, and from there on the walk
is at rest. -/
structure WalkEnds (fetch : Nat → NotesSyncQuery → Except NotesError NotesSyncResponse)
    (n : Nat) (q : NotesSyncQuery) (notes : List Note) (folders : List Folder) (rs : List NotesSyncResponse)
    (r : NotesSyncResponse) (q' : NotesSyncQuery) : Prop where
  pulls : Pulls fetch n q (rs ++ [r]) q'
  more : ∀ x ∈ rs, x.hasMore = true
  last : r.hasMore = false
  notes : (rs ++ [r]).flatMap NotesSyncResponse.notes = notes.map Dto.ofRow
  folders : (rs ++ [r]).flatMap NotesSyncResponse.folders = folders.map Dto.ofRow
  rest : AtRest fetch q'

section Walks

variable {t : CursorText} {d : SyncDb} {clock : Nat → OffsetDateTime} {c : Uuid}

variable (clock) in
/-- A pull shows the first rows of both feeds and leaves the others. -/
theorem pull_spec (n : Nat) {q : NotesSyncQuery} {pn pf : Option (OffsetDateTime × Uuid)}
    (hn : boundCursor t q.notesCursor = .ok pn) (hf : boundCursor t q.foldersCursor = .ok pf) :
    ∃ r, d.pull t clock c n q = .ok r ∧
      r.notes = ((changed d.db .note c pn).take q.pageLimit.toNat).map Dto.ofRow ∧
      r.folders = ((changed d.db .folder c pf).take q.pageLimit.toNat).map Dto.ofRow ∧
      r.notesHasMore = decide (q.pageLimit.toNat < (changed d.db .note c pn).length) ∧
      r.foldersHasMore = decide (q.pageLimit.toNat < (changed d.db .folder c pf).length) ∧
      (∃ pn', boundCursor t r.notesNextCursor = .ok pn' ∧
        changed d.db .note c pn' = (changed d.db .note c pn).drop q.pageLimit.toNat) ∧
      ∃ pf', boundCursor t r.foldersNextCursor = .ok pf' ∧
        changed d.db .folder c pf' = (changed d.db .folder c pf).drop q.pageLimit.toNat := by
  obtain ⟨hnotes, hnmore, hnnext⟩ :=
    syncPage_spec (c := c) (d.times .note) q.toNat_pageLimit_pos hn
  obtain ⟨hfolders, hfmore, hfnext⟩ :=
    syncPage_spec (c := c) (d.times .folder) q.toNat_pageLimit_pos hf
  refine ⟨_, congrArg Prod.fst (syncPull_ok (clock n) (clock n) c hn hf), ?_, ?_, hnmore, hfmore,
    hnnext, hfnext⟩
  · exact congrArg _ hnotes
  · exact congrArg _ hfolders

/-- Where both feeds have nothing to show, the walk is at rest. -/
theorem atRest_of_nil {q : NotesSyncQuery} {pn pf : Option (OffsetDateTime × Uuid)}
    (hn : boundCursor t q.notesCursor = .ok pn) (hf : boundCursor t q.foldersCursor = .ok pf)
    (hnil : changed d.db .note c pn = []) (hnil' : changed d.db .folder c pf = []) :
    AtRest (d.pull t clock c) q := by
  intro n
  refine ⟨_, congrArg Prod.fst (syncPull_ok (clock n) (clock n) c hn hf), ?_⟩
  simp only [hnil, hnil', syncPage]
  refine ⟨by simp, by simp, ?_, ?_⟩
  · simp [NotesSyncResponse.hasMore]
  · simp [NotesSyncQuery.resume]

variable (clock) in
theorem walkEnds_of_cursors (n : Nat) {q : NotesSyncQuery} {pn pf : Option (OffsetDateTime × Uuid)}
    (hn : boundCursor t q.notesCursor = .ok pn) (hf : boundCursor t q.foldersCursor = .ok pf) :
    ∃ rs r q', WalkEnds (d.pull t clock c) n q (changed d.db .note c pn) (changed d.db .folder c pf)
      rs r q' := by
  -- by what the two feeds have still to show
  induction hm : (changed d.db .note c pn).length + (changed d.db .folder c pf).length
    using Nat.strong_induction_on generalizing n q pn pf with
  | _ m ih =>
    obtain ⟨r, hr, hnotes, hfolders, hnmore, hfmore, ⟨pn', hn', hndrop⟩, pf', hf', hfdrop⟩ :=
      pull_spec (d := d) (c := c) clock n hn hf
    have hpos := q.toNat_pageLimit_pos
    by_cases hmore : r.hasMore = true
    · have hlt : (changed d.db .note c pn').length + (changed d.db .folder c pf').length < m := by
        rw [hndrop, hfdrop, List.length_drop, List.length_drop]
        simp only [NotesSyncResponse.hasMore, hnmore, hfmore, Bool.or_eq_true,
          decide_eq_true_eq] at hmore
        omega
      obtain ⟨rs, r', q', hends⟩ := ih _ hlt (n + 1) (q := q.resume r) hn' hf' rfl
      refine ⟨r :: rs, r', q', .next hr hends.pulls, ?_, hends.last, ?_, ?_, hends.rest⟩
      · intro x hx
        rcases List.mem_cons.1 hx with rfl | hx
        · exact hmore
        · exact hends.more x hx
      · rw [List.cons_append, List.flatMap_cons, hends.notes, hnotes, hndrop, ← List.map_append,
          List.take_append_drop]
      · rw [List.cons_append, List.flatMap_cons, hends.folders, hfolders, hfdrop,
          ← List.map_append, List.take_append_drop]
    · have hlast : r.hasMore = false := by simpa using hmore
      have hle := hlast
      simp only [NotesSyncResponse.hasMore, hnmore, hfmore, Bool.or_eq_false_iff,
        decide_eq_false_iff_not, not_lt] at hle
      refine ⟨[], r, q.resume r, .next hr .done, by simp, hlast, ?_, ?_, ?_⟩
      · simp only [List.nil_append, List.flatMap_cons, List.flatMap_nil, List.append_nil, hnotes,
          List.take_of_length_le hle.1]
      · simp only [List.nil_append, List.flatMap_cons, List.flatMap_nil, List.append_nil, hfolders,
          List.take_of_length_le hle.2]
      · refine atRest_of_nil (q := q.resume r) hn' hf' ?_ ?_
        · rw [hndrop, List.drop_of_length_le hle.1]
        · rw [hfdrop, List.drop_of_length_le hle.2]

end Walks

/-- The rows of a creator beyond a position, each once and in ascending order. -/
structure Ascending (db : NotesDb) (k : EntityType) (c : Uuid)
    (pos : Option (OffsetDateTime × Uuid)) (rows : List (Row k.Fields)) : Prop where
  mem : ∀ r, r ∈ rows ↔ db.get k r.id = some r ∧ r.creatorId = c ∧
    ∀ p, pos = some p → toLex p < r.syncKey
  order : rows.Pairwise fun r r' => r.syncKey < r'.syncKey

theorem ascending_changed (db : NotesDb) (k : EntityType) (c : Uuid)
    (pos : Option (OffsetDateTime × Uuid)) : Ascending db k c pos (changed db k c pos) where
  mem r := by
    rw [mem_changed, Lib.Table.mem_rows_iff]
    rfl
  order := changed_ascending db k c pos

/-- A cursor whose time PostgreSQL does not have is refused by the statement. -/
theorem pull_refused {t : CursorText} {d : SyncDb} {clock : Nat → OffsetDateTime} {c : Uuid}
    {q : NotesSyncQuery} {pn pf : Option (OffsetDateTime × Uuid)}
    (hn : syncCursor t q.notesCursor = .ok pn) (hf : syncCursor t q.foldersCursor = .ok pf)
    {e : DbError} (hbind : bindCursor pn = .error e ∨ bindCursor pf = .error e) (n : Nat) :
    ∃ e, d.pull t clock c n q = .error (.database e) := by
  have hstart : (Session.start (W := Write) d.db (clock n) []).faults = [] := rfl
  have hnotes := answer_changedSince (k := .note) (c := c) hstart pn (q.pageLimit + 1)
  have hfolders := answer_changedSince (k := .folder) (c := c) hstart pf (q.pageLimit + 1)
  obtain ⟨e', herror⟩ : ∃ e', Act.answer (Session.handle notesEngine)
      (syncPull t (clock n) c q) (Session.start d.db (clock n) []) =
        (.error (.database e'), Session.start d.db (clock n) []) := by
    unfold syncPull
    rw [hn, hf]
    simp only [Act.answer_bind_ok _ (Act.answer_ofExcept _ _ _)]
    simp only [Act.answer_bind_ok _ (Act.answer_attempt _ _ _), hnotes, hfolders]
    cases hbn : bindCursor pn with
    | error e₁ =>
      refine ⟨e₁, Act.answer_bind_error _ ?_⟩
      rw [Act.answer_ofExcept, findChangedSince_of_error hbn]
      rfl
    | ok pn' =>
      obtain hbf : bindCursor pf = .error e := hbind.resolve_left fun hbe => by
        cases hbn.symm.trans hbe
      refine ⟨e, ?_⟩
      rw [findChangedSince_of_bind hbn, findChangedSince_of_error hbf]
      refine (Act.answer_bind_ok _ (Act.answer_ofExcept _ _ _)).trans ?_
      exact Act.answer_bind_error _ (Act.answer_ofExcept _ _ _)
  exact ⟨e', congrArg Prod.fst (Txn.run_eq herror)⟩

/-- Whoever repeats `sync_pull` with the returned cursors, from any cursors that can be read or none
and with any limit, while nobody writes, is shown every note and folder beyond them, tombstones
included, once and in ascending order; the walk comes to an end and is then at rest. The times of
the first cursors are taken as they are bound; where PostgreSQL does not have them, no pull is
answered. -/
theorem pull_walk_complete (t : CursorText) (d : SyncDb) (clock : Nat → OffsetDateTime) (c : Uuid)
    (q : NotesSyncQuery) (pn pf : Option (OffsetDateTime × Uuid))
    (hn : syncCursor t q.notesCursor = .ok pn) (hf : syncCursor t q.foldersCursor = .ok pf) :
    (∀ pn' pf', bindCursor pn = .ok pn' → bindCursor pf = .ok pf' →
      ∃ notes folders rs r q', Ascending d.db .note c pn' notes ∧
        Ascending d.db .folder c pf' folders ∧
          WalkEnds (d.pull t clock c) 0 q notes folders rs r q') ∧
      ∀ e, bindCursor pn = .error e ∨ bindCursor pf = .error e →
        ∀ n, ∃ e, d.pull t clock c n q = .error (.database e) := by
  refine ⟨fun pn' pf' hbn hbf => ?_, fun e hbind n => pull_refused hn hf hbind n⟩
  obtain ⟨rs, r, q', hends⟩ := walkEnds_of_cursors (d := d) (c := c) clock 0
    (boundCursor_of_bind hn hbn) (boundCursor_of_bind hf hbf)
  exact ⟨_, _, rs, r, q', ascending_changed d.db .note c pn', ascending_changed d.db .folder c pf',
    hends⟩

/-- A note and a tombstone, written in one transaction as the year 2000 begins. -/
def twoChanges : SyncDb where
  db :=
    let note : Note := {
      id := ⟨1⟩
      fields := { title := "", content := "", pinned := false, folderId := none }
      creatorId := ⟨9⟩
      version := 1
      createdAt := postgresEpoch
      updatedAt := postgresEpoch
      deletedAt := none }
    (NotesDb.empty.put .note note).put .note {
      note with id := ⟨2⟩, deletedAt := some postgresEpoch }
  times := by
    intro k
    cases k <;> decide

/-- A nanosecond later than the two. -/
def fractionCursor : Cursor := .fromTimestampId .urlSafe (postgresEpoch + 1) ⟨1⟩

def fractionQuery : NotesSyncQuery :=
  { notesCursor := some fractionCursor, foldersCursor := none, limit := some 1 }

theorem syncCursor_fraction :
    syncCursor .urlSafe (some fractionCursor) = .ok (some (postgresEpoch + 1, ⟨1⟩)) := by
  have hheld : representable (postgresEpoch + 1) = true := by decide
  rw [fractionCursor, syncCursor, Cursor.toTimestampId_fromTimestampId hheld]

/-- It is sent as the time of the two. -/
theorem bind_fraction :
    bindCursor (some (postgresEpoch + 1, ⟨1⟩)) = .ok (some (postgresEpoch, ⟨1⟩)) := by
  have hmicros : sentMicros (postgresEpoch + 1) = 0 := by
    rw [sentMicros, show postgresEpoch + 1 - postgresEpoch = 1 from by omega]
    rfl
  have htime : bindTime (postgresEpoch + 1) = .ok postgresEpoch := by
    rw [bindTime, sentTime, hmicros, if_pos (by decide), Int.zero_mul, Int.add_zero]
  rw [bindCursor, htime]
  rfl

theorem pull_walk_fraction :
    ∃ notes folders rs r q', Ascending twoChanges.db .note ⟨9⟩ (some (postgresEpoch, ⟨1⟩)) notes ∧
      Ascending twoChanges.db .folder ⟨9⟩ none folders ∧
      WalkEnds (twoChanges.pull .urlSafe (fun _ => postgresEpoch) ⟨9⟩) 0 fractionQuery notes folders
        rs r q' :=
  (pull_walk_complete .urlSafe twoChanges (fun _ => postgresEpoch) ⟨9⟩ fractionQuery _ none
    syncCursor_fraction rfl).1 _ none bind_fraction rfl

/-- The tombstone is shown although its time is not later than the cursor's: the nanosecond is not
sent. -/
theorem fraction_cut_off : ¬∀ (t : CursorText) (d : SyncDb) (clock : Nat → OffsetDateTime)
    (c : Uuid) (q : NotesSyncQuery) (pn pf : Option (OffsetDateTime × Uuid)),
    syncCursor t q.notesCursor = .ok pn → syncCursor t q.foldersCursor = .ok pf →
    ∃ notes folders rs r q', Ascending d.db .note c pn notes ∧
      Ascending d.db .folder c pf folders ∧
        WalkEnds (d.pull t clock c) 0 q notes folders rs r q' := by
  intro h
  obtain ⟨notes, folders, rs, r, q', hnotes, -, hends⟩ := h .urlSafe twoChanges
    (fun _ => postgresEpoch) ⟨9⟩ fractionQuery _ none syncCursor_fraction rfl
  -- no row is beyond the cursor
  have hnil : notes = [] := by
    refine List.eq_nil_iff_forall_not_mem.2 fun n hn => ?_
    obtain ⟨hget, -, hbeyond⟩ := (hnotes.mem n).1 hn
    have hrow := Lib.Table.mem_rows_iff.2 hget
    have hlt := hbeyond _ rfl
    revert hlt
    have hall : ∀ r ∈ twoChanges.db.notes.rows,
        ¬toLex (postgresEpoch + 1, (⟨1⟩ : Uuid)) < r.syncKey := by decide
    exact hall n hrow
  have hshown := hends.notes
  rw [hnil, List.map_nil, List.flatMap_eq_nil_iff] at hshown
  obtain ⟨r', hr', hnotes'⟩ : ∃ r', twoChanges.pull .urlSafe (fun _ => postgresEpoch) ⟨9⟩ 0
      fractionQuery = .ok r' ∧ r'.notes ≠ [] := by
    have hfolders : boundCursor .urlSafe fractionQuery.foldersCursor = .ok none := rfl
    obtain ⟨r', hr', hrows, -⟩ := pull_spec (d := twoChanges) (c := ⟨9⟩) (fun _ => postgresEpoch) 0
      (q := fractionQuery) (boundCursor_of_bind syncCursor_fraction bind_fraction) hfolders
    refine ⟨r', hr', ?_⟩
    rw [hrows]
    decide
  obtain ⟨x, xs, hxs⟩ := List.exists_cons_of_ne_nil (show rs ++ [r] ≠ [] by simp)
  have hpulls := hends.pulls
  rw [hxs] at hpulls hshown
  cases hpulls with
  | next hx hrest =>
    cases hr'.symm.trans hx
    exact hnotes' (hshown r' List.mem_cons_self)

end NotesService

end Meno
