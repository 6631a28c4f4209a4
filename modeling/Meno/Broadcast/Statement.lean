import Meno.Broadcast.ListWalk

/-!
# Meno.Broadcast.Statement

The statements that `find_broadcasts` puts together. PostgreSQL can read them in every order but
two: `start_time` says twice where the `NULL`s go, and `end_time` goes on from a cursor with more
values than expressions.
-/

namespace Meno

open Lib Lib.Sql BroadcastRepository

/-- Whatever is in the tables, the statement that a request is answered with is well formed, and no
answer is that it could not be read. -/
structure StatementsRead (t : CursorText) (rules : TextRules) (query : BroadcastQuery)
    (requesterId : Option Uuid) : Prop where
  wellFormed : ∀ db cursor,
    decodeCursor t query.effectiveSort query.pagination.cursor = .ok cursor →
      (broadcastsSelect rules db query requesterId cursor).WellFormed
  accepted : ∀ db e, findBroadcasts t rules db query requesterId ≠ .error (.database (.statement e))

section

variable {t : CursorText} {rules : TextRules} {db : BroadcastDb} {query : BroadcastQuery}
  {requesterId : Option Uuid} {cursor : BroadcastCursor}

/-! ## Orders that cannot be read -/

theorem not_wellFormed_startTime (hsort : query.effectiveSort = .startTime) :
    ¬ (broadcastsSelect rules db query requesterId cursor).WellFormed := by
  intro h
  have hnulls := h.orderBy ⟨BroadcastListRow.startTime, query.effectiveOrder.sql ++ [.nulls .last]⟩
    (by simp [broadcastsSelect, broadcastsOrderBy, hsort])
  cases ho : query.effectiveOrder <;> rw [ho] at hnulls <;> exact absurd hnulls (by decide)

theorem not_wellFormed_endTime (hsort : query.effectiveSort = .endTime) (ts : OffsetDateTime)
    (id : Uuid) :
    ¬ (broadcastsSelect rules db query requesterId ⟨some ts, some ts, none, some id⟩).WellFormed := by
  intro h
  have hseek : (broadcastsSelect rules db query requesterId
      ⟨some ts, some ts, none, some id⟩).seek = some {
        exprs := [BroadcastListRow.endTime, BroadcastListRow.id]
        op := query.effectiveOrder.cursorOp
        values := [.timestamptz (sentTime ts), .timestamptz (sentTime ts), .uuid id] } := by
    simp only [broadcastsSelect, broadcastsSeek, hsort, Option.map_some]
  exact absurd (h.seek _ hseek) (by simp)

/-! ## Orders that can -/

/-- The sides of a comparison that is not that of `end_time`. -/
theorem seek_lengths (h : query.effectiveSort = .endTime → cursor.ts1 = none)
    (c : RowCondition BroadcastListRow SqlValue)
    (hc : (broadcastsSelect rules db query requesterId cursor).seek = some c) :
    c.exprs.length = c.values.length := by
  rw [seek_broadcastsSelect] at hc
  obtain ⟨ts1, ts2, score, id⟩ := cursor
  unfold broadcastsSeek pushCursorCondition at hc
  cases hsort : query.effectiveSort with
  | endTime =>
    obtain rfl : ts1 = none := h hsort
    simp [hsort] at hc
  | createdAt | title | startTime =>
    cases ts1 <;> cases id <;> simp [hsort] at hc
    simp [← hc]
  | totalParticipants =>
    cases score <;> cases id <;> simp [hsort] at hc
    simp [← hc]

variable (rules db requesterId) in
theorem run_broadcastsSelect (hstart : query.effectiveSort ≠ .startTime)
    (hend : query.effectiveSort = .endTime → cursor.ts1 = none) (rows : List BroadcastListRow) :
    ∃ found, (broadcastsSelect rules db query requesterId cursor).run rows = .ok found := by
  have hany : ((broadcastsSelect rules db query requesterId cursor).seek.any
      fun c => c.exprs.length != c.values.length) = false := by
    cases hc : (broadcastsSelect rules db query requesterId cursor).seek with
    | none => rfl
    | some c => simp [seek_lengths hend c hc]
  simp only [Select.run, orderBy_broadcastsSelect cursor hstart, hany, Bool.false_eq_true, if_false]
  exact ⟨_, rfl⟩

/-! ## Requests -/

/-- Where the order is not by participants, the cursor is a timestamp and an id. -/
theorem decodeCursor_timestamp {sort : BroadcastSortBy} (hsort : sort ≠ .totalParticipants)
    {c : Cursor} {ts : OffsetDateTime} {id : Uuid} (h : c.toTimestampId t = .ok (ts, id)) :
    decodeCursor t sort (some c) = .ok ⟨some ts, some ts, none, some id⟩ := by
  simp [decodeCursor, hsort, h]

theorem decodeCursor_refused {sort : BroadcastSortBy} (hsort : sort ≠ .totalParticipants)
    {c : Cursor} {e : CursorError} (h : c.toTimestampId t = .error e) :
    decodeCursor t sort (some c) = .error (.cursor e) := by
  simp [decodeCursor, hsort, h]

theorem cursor_of_decodeCursor {sort : BroadcastSortBy} {c : Option Cursor} {e : ListError}
    (h : decodeCursor t sort c = .error e) : ∃ e', e = .cursor e' := by
  unfold decodeCursor at h
  split at h
  · cases h
  · split at h <;> split at h
    · cases h
    · exact ⟨_, (Except.error.inj h).symm⟩
    · cases h
    · exact ⟨_, (Except.error.inj h).symm⟩

/-- No item is refused for what its statement says. -/
theorem mapM_listItem_ne_statement (rows : List BroadcastListRow) (e : SyntaxError) :
    rows.mapM listItem ≠ .error (.database (.statement e)) := by
  by_cases h : NoNullCount rows
  · simp [mapM_listItem h]
  · simp [mapM_listItem_refused h]

theorem findBroadcasts_ne_statement
    (h : decodeCursor t query.effectiveSort query.pagination.cursor = .ok cursor)
    (hstart : query.effectiveSort ≠ .startTime)
    (hend : query.effectiveSort = .endTime → cursor.ts1 = none) (e : SyntaxError) :
    findBroadcasts t rules db query requesterId ≠ .error (.database (.statement e)) := by
  obtain ⟨found, hfound⟩ :=
    run_broadcastsSelect rules db requesterId hstart hend
      (broadcastRows db)
  rw [findBroadcasts, h, ok_bind, fetchAll, hfound]
  by_cases hkw : query.keywords.all storable = true
  · cases hts : bindCursorTime cursor.ts1 with
    | ok _ => simpa [hkw, ok_bind] using mapM_listItem_ne_statement found e
    | error e' =>
      have he' : e' = .database .datetimeOutOfRange := by
        unfold bindCursorTime at hts
        split at hts
        · cases hts
        · exact (Except.error.inj hts).symm
      simp [hkw, ok_bind, error_bind, he']
  · simp [hkw, error_bind]

/-- The cursor of a request whose statement can be read. -/
theorem cursor_of_readable
    (hstart : query.effectiveSort = .startTime →
      ∃ c e, query.pagination.cursor = some c ∧ c.toTimestampId t = .error e)
    (hend : query.effectiveSort = .endTime →
      ∀ c, query.pagination.cursor = some c → ∃ e, c.toTimestampId t = .error e)
    (h : decodeCursor t query.effectiveSort query.pagination.cursor = .ok cursor) :
    query.effectiveSort ≠ .startTime ∧ (query.effectiveSort = .endTime → cursor.ts1 = none) := by
  refine ⟨fun hsort => ?_, fun hsort => ?_⟩
  · obtain ⟨c, e, hc, he⟩ := hstart hsort
    rw [hc, decodeCursor_refused (by simp [hsort]) he] at h
    cases h
  · cases hc : query.pagination.cursor with
    | none =>
      rw [hc] at h
      rw [← Except.ok.inj h]
    | some c =>
      obtain ⟨e, he⟩ := hend hsort c hc
      rw [hc, decodeCursor_refused (by simp [hsort]) he] at h
      cases h

theorem startTime_of_read (h : StatementsRead t rules query requesterId)
    (hsort : query.effectiveSort = .startTime) :
    ∃ c e, query.pagination.cursor = some c ∧ c.toTimestampId t = .error e := by
  have hnot : ∀ cursor, decodeCursor t query.effectiveSort query.pagination.cursor ≠ .ok cursor :=
    fun cursor hcursor =>
      not_wellFormed_startTime hsort (h.wellFormed (.ofUsers .empty) cursor hcursor)
  cases hc : query.pagination.cursor with
  | none => exact absurd (by rw [hc]; rfl) (hnot ⟨none, none, none, none⟩)
  | some c =>
    cases hts : c.toTimestampId t with
    | error e => exact ⟨c, e, rfl, hts⟩
    | ok p =>
      refine absurd ?_ (hnot ⟨some p.1, some p.1, none, some p.2⟩)
      rw [hc, decodeCursor_timestamp (by simp [hsort]) hts]

theorem endTime_of_read (h : StatementsRead t rules query requesterId)
    (hsort : query.effectiveSort = .endTime) (c : Cursor)
    (hc : query.pagination.cursor = some c) : ∃ e, c.toTimestampId t = .error e := by
  cases hts : c.toTimestampId t with
  | error e => exact ⟨e, rfl⟩
  | ok p =>
    refine absurd (h.wellFormed (.ofUsers .empty) ⟨some p.1, some p.1, none, some p.2⟩ ?_)
      (not_wellFormed_endTime hsort p.1 p.2)
    rw [hc, decodeCursor_timestamp (by simp [hsort]) hts]

end

/-- The request does not sort by `start_time`, or by `end_time` from a cursor on, if it has no
cursor that is refused. -/
theorem find_broadcasts_read_iff (t : CursorText) (rules : TextRules) (query : BroadcastQuery)
    (requesterId : Option Uuid) :
    StatementsRead t rules query requesterId ↔
      (query.effectiveSort = .startTime →
        ∃ c e, query.pagination.cursor = some c ∧ c.toTimestampId t = .error e) ∧
      (query.effectiveSort = .endTime →
        ∀ c, query.pagination.cursor = some c → ∃ e, c.toTimestampId t = .error e) := by
  constructor
  · intro h
    exact ⟨startTime_of_read h, endTime_of_read h⟩
  · rintro ⟨hstart, hend⟩
    refine ⟨fun db cursor hcursor => ?_, fun db e => ?_⟩
    · obtain ⟨hsort, hnone⟩ := cursor_of_readable hstart hend hcursor
      obtain ⟨found, hfound⟩ := run_broadcastsSelect rules db requesterId hsort hnone (broadcastRows db)
      exact wellFormed_of_run hfound
    · cases hcursor : decodeCursor t query.effectiveSort query.pagination.cursor with
      | error e' =>
        obtain ⟨e'', rfl⟩ := cursor_of_decodeCursor hcursor
        rw [findBroadcasts, hcursor, error_bind]
        exact fun he => by cases he
      | ok cursor =>
        obtain ⟨hsort, hnone⟩ := cursor_of_readable hstart hend hcursor
        exact findBroadcasts_ne_statement hcursor hsort hnone e

/-- All broadcasts by the time they started; and those that follow a page, by the time they ended. -/
theorem start_and_end_time_unread :
    ¬ StatementsRead .urlSafe .codePoints byStartTime none ∧
      ¬ StatementsRead .urlSafe .codePoints { byStartTime with
        sortBy := some .endTime
        pagination := { cursor := some (.fromTimestampId .urlSafe 0 ⟨1⟩), limit := none } } none := by
  refine ⟨fun h => ?_, fun h => ?_⟩
  · obtain ⟨c, e, hc, -⟩ := startTime_of_read h rfl
    cases hc
  · obtain ⟨e, he⟩ := endTime_of_read h rfl _ rfl
    rw [Cursor.toTimestampId_fromTimestampId (by decide)] at he
    cases he

end Meno
