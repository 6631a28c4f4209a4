import Meno.Broadcast.CacheKeys
import Meno.Broadcast.ParticipantWalk

/-!
# Meno.Broadcast.CachedLists

A page is kept under the key of the request that it was made for, and shown to every request with
that key. `participants_shared_iff` and `broadcasts_shared_iff` say when these would have got the
same page from the database.
-/

namespace Meno

open Lib Lib.Sql BroadcastRepository

theorem eq_of_map_hash {hash : String → BitVec 64} {a b : Option String}
    (hhash : ∀ kw ∈ a, ∀ kw' ∈ b, hash kw = hash kw' → kw = kw') (h : a.map hash = b.map hash) :
    a = b := by
  cases a with
  | none =>
    cases b with
    | none => rfl
    | some b => cases h
  | some a =>
    cases b with
    | none => cases h
    | some b => exact congrArg some (hhash a rfl b rfl (Option.some.inj h))

/-! ## Participants -/

/-- A participant whom the tables can hold, a user who has not been deleted. -/
structure BroadcastRepository.ParticipantListRow.Stored (r : ParticipantListRow) : Prop where
  user : r.user.id = r.participant.participantId
  undeleted : r.user.deletedAt = none
  joinedAt : storedTime r.participant.joinedAt = true

/-- The rows with `p` are of `n` participants or fewer. -/
def AtMostParticipants (n : Nat) (p : ParticipantListRow → Prop) : Prop :=
  ∀ rows : List ParticipantListRow, (rows.map fun r => r.participant.participantId).Nodup →
    (∀ r ∈ rows, p r) → rows.length ≤ n

namespace ParticipantQuery

/-- The cursor of a request, if it can be read and the values of the request can be bound. -/
def position (t : CursorText) (query : ParticipantQuery) : Except ListError ParticipantCursor := do
  let cursor ← decodeParticipantCursor t query.sort query.pagination.cursor
  query.bind cursor
  return cursor

/-- A participant whom the filters of a request let through, and who is behind a cursor. -/
structure Lists (rules : TextRules) (broadcastId : Uuid) (query : ParticipantQuery)
    (cursor : ParticipantCursor) (r : ParticipantListRow) : Prop where
  stored : r.Stored
  matching : (participantsWhere rules broadcastId query).matching r = true
  beyond : (participantsSelect rules broadcastId query cursor).beyond r = true

/-- One request can be answered for the other: both are refused, and alike, or their cursors have
the same participants behind them, and these fit on either page where the limits differ, and need
no order where the orders differ. -/
def StandsFor (t : CursorText) (rules : TextRules) (broadcastId : Uuid)
    (query query' : ParticipantQuery) : Prop :=
  match query.position t, query'.position t with
  | .ok cursor, .ok cursor' =>
    (∀ r, query.Lists rules broadcastId cursor r ↔ query'.Lists rules broadcastId cursor' r) ∧
    (query.pagination.pageLimit = query'.pagination.pageLimit ∨
      AtMostParticipants
        (min query.pagination.pageLimit.toNat query'.pagination.pageLimit.toNat)
        (query.Lists rules broadcastId cursor)) ∧
    (participantsOrder query = participantsOrder query' ∨
      AtMostParticipants 1 (query.Lists rules broadcastId cursor))
  | .error e, .error e' => e = e'
  | _, _ => False

/-- Those of `rows` that are behind a cursor, in the order that is asked for. -/
def window (rules : TextRules) (broadcastId : Uuid) (query : ParticipantQuery)
    (cursor : ParticipantCursor) (rows : List ParticipantListRow) : List ParticipantListRow :=
  (Sql.sort (query.keys rules) rows).filter
    (participantsSelect rules broadcastId query cursor).beyond

end ParticipantQuery

section

variable {t : CursorText} {rules : TextRules} {db : BroadcastDb} {broadcastId : Uuid}
  {query query' : ParticipantQuery}

theorem getParticipants_window :
    BroadcastService.getParticipantsFromDb t rules db broadcastId query =
      (query.position t).map fun cursor =>
        participantPage t query.pagination.pageLimit (query.window rules broadcastId cursor
          ((participantsJoin db).filter (participantsWhere rules broadcastId query).matching)) := by
  refine (@getParticipants_eq _ _ _ query _ query.pagination.cursor).trans ?_
  unfold ParticipantQuery.position
  cases decodeParticipantCursor t query.sort query.pagination.cursor with
  | error e => rfl
  | ok cursor =>
    rw [ok_bind, ok_bind]
    cases query.bind cursor with
    | error e => rfl
    | ok _ => rfl

theorem mem_window {cursor : ParticipantCursor} {rows : List ParticipantListRow}
    {r : ParticipantListRow} :
    r ∈ query.window rules broadcastId cursor rows ↔
      r ∈ rows ∧ (participantsSelect rules broadcastId query cursor).beyond r = true := by
  rw [ParticipantQuery.window, List.mem_filter, mem_sort]

theorem window_perm (cursor : ParticipantCursor) (rows : List ParticipantListRow) :
    (query.window rules broadcastId cursor rows).Perm
      (rows.filter (participantsSelect rules broadcastId query cursor).beyond) :=
  (sort_perm _ _).filter _

/-- No two participants of a broadcast have the same item. -/
theorem participantItem_inj {a b : ParticipantListRow}
    (ha : a ∈ (participantsJoin db).filter (participantsWhere rules broadcastId query).matching)
    (hb : b ∈ (participantsJoin db).filter (participantsWhere rules broadcastId query).matching)
    (h : participantItem a = participantItem b) : a = b := by
  have hid : a.user.id = b.user.id := congrArg ParticipantListItem.id h
  rw [(participantsJoin_user (List.mem_of_mem_filter ha)).2,
    (participantsJoin_user (List.mem_of_mem_filter hb)).2] at hid
  exact List.inj_on_of_nodup_map matching_participantId ha hb hid

/-- Requests with one key match the same participants. -/
theorem participantsWhere_of_agree {hash : String → BitVec 64} {broadcastId' : Uuid}
    (h : ParticipantListCacheKey.Agree hash broadcastId broadcastId' query query')
    (hhash : ∀ kw ∈ query.keywords, ∀ kw' ∈ query'.keywords, hash kw = hash kw' → kw = kw') :
    participantsWhere rules broadcastId' query' = participantsWhere rules broadcastId query := by
  have hkw : query.keywords = query'.keywords := eq_of_map_hash hhash h.keywords
  unfold participantsWhere
  rw [h.id, h.role, hkw]

/-- Requests that agree in what the key leaves out too are the same to the database. -/
theorem participants_shared_of_agree {hash : String → BitVec 64} {broadcastId' : Uuid}
    (h : ParticipantListCacheKey.Agree hash broadcastId broadcastId' query query')
    (hhash : ∀ kw ∈ query.keywords, ∀ kw' ∈ query'.keywords, hash kw = hash kw' → kw = kw')
    (hcursor : query.pagination.cursor = query'.pagination.cursor)
    (hlimit : query.pagination.pageLimit = query'.pagination.pageLimit)
    (horder : participantsOrder query = participantsOrder query') :
    BroadcastService.getParticipantsFromDb t rules db broadcastId' query' =
      BroadcastService.getParticipantsFromDb t rules db broadcastId query := by
  have hkw : query.keywords = query'.keywords := eq_of_map_hash hhash h.keywords
  have hwhere := @participantsWhere_of_agree rules _ _ _ hash _ h hhash
  have hposition : query'.position t = query.position t := by
    unfold ParticipantQuery.position ParticipantQuery.bind ParticipantQuery.searched
    rw [h.sort, hcursor, hkw]
  have hwindow : ∀ cursor rows, query'.window rules broadcastId' cursor rows =
      query.window rules broadcastId cursor rows := by
    intro cursor rows
    unfold ParticipantQuery.window ParticipantQuery.keys ParticipantQuery.columns participantsSelect
      participantsSeek
    rw [h.sort, horder, hwhere]
    rfl
  rw [getParticipants_window, getParticipants_window, hposition, hwhere, hlimit]
  simp only [hwindow]

/-! ### Tables of a few participants -/

/-- The tables of some participants. -/
def participantsDb (rows : List ParticipantListRow)
    (hid : (rows.map fun r => r.participant.participantId).Nodup)
    (hrows : ∀ r ∈ rows, r.Stored) : ListedDb where
  db := { BroadcastDb.ofUsers {
      rows := rows.map ParticipantListRow.user
      nodup := by
        have hids : rows.map (User.id ∘ ParticipantListRow.user) =
            rows.map fun r => r.participant.participantId :=
          List.map_congr_left fun r hr => (hrows r hr).user
        rw [List.map_map, hids]
        exact hid } with
    participants := {
      rows := rows.map ParticipantListRow.participant
      nodup := by
        rw [List.map_map]
        exact List.Nodup.of_map Prod.snd (by rwa [List.map_map]) } }
  broadcasts := stored_of_empty rfl
  joinedTimes := by
    intro p hp
    obtain ⟨r, hr, rfl⟩ := List.mem_map.1 hp
    exact (hrows r hr).joinedAt

theorem participantsJoin_participantsDb {rows : List ParticipantListRow}
    (hid : (rows.map fun r => r.participant.participantId).Nodup)
    (hrows : ∀ r ∈ rows, r.Stored) : participantsJoin (participantsDb rows hid hrows).db = rows := by
  have hjoin : participantsJoin (participantsDb rows hid hrows).db = rows.filterMap some := by
    refine (List.filterMap_map ..).trans (List.filterMap_congr fun r hr => ?_)
    have hget : (participantsDb rows hid hrows).db.users.get r.participant.participantId =
        some r.user := Table.get_eq_some_iff.2 ⟨List.mem_map.2 ⟨r, hr, rfl⟩, (hrows r hr).user⟩
    simp [hget, (hrows r hr).undeleted]
  rw [hjoin, List.filterMap_some]

/-- A row that is found is one that the tables hold. -/
theorem stored_of_join {ldb : ListedDb} {r : ParticipantListRow} (h : r ∈ participantsJoin ldb.db) :
    r.Stored := by
  obtain ⟨hp, hid⟩ := participantsJoin_user h
  obtain ⟨p, -, hr⟩ := List.mem_filterMap.1 h
  obtain ⟨u, hu, rfl⟩ := Option.map_eq_some_iff.1 hr
  exact ⟨hid, by simpa using (Option.filter_eq_some_iff.1 hu).2, ldb.joinedTimes _ hp⟩

/-! ### Requests with one key -/

/-- What a request sees of the tables of participants that it lists. -/
theorem window_participantsDb {cursor : ParticipantCursor} {rows : List ParticipantListRow}
    (hid : (rows.map fun r => r.participant.participantId).Nodup)
    (hlists : ∀ r ∈ rows, query.Lists rules broadcastId cursor r) :
    query.window rules broadcastId cursor ((participantsJoin (participantsDb rows hid
        fun r hr => (hlists r hr).stored).db).filter
          (participantsWhere rules broadcastId query).matching) =
      Sql.sort (query.keys rules) rows := by
  rw [participantsJoin_participantsDb, List.filter_eq_self.2 fun r hr => (hlists r hr).matching,
    ParticipantQuery.window, List.filter_eq_self]
  exact fun r hr => (hlists r (mem_sort.1 hr)).beyond

/-- Of two or more participants, either order has another first. -/
theorem sort_ne_of_order (hsort : query.sort = query'.sort)
    (horder : participantsOrder query ≠ participantsOrder query')
    {rows : List ParticipantListRow} (hid : (rows.map fun r => r.participant.participantId).Nodup)
    (hlen : 1 < rows.length) :
    (Sql.sort (query.keys rules) rows).head? ≠ (Sql.sort (query'.keys rules) rows).head? := by
  have hident : ∀ q : ParticipantQuery, Identify (q.keys rules) rows := by
    intro q
    refine identify_of_id hid _ _ ?_
    unfold ParticipantQuery.columns
    cases q.sort <;> simp [ParticipantListRow.id, funext_iff]
  have hnodup : rows.Nodup := List.Nodup.of_map _ hid
  intro hhead
  have hpairs := sort_pairwise (hident query) hnodup
  have hpairs' := sort_pairwise (hident query') hnodup
  have hperm := sort_perm (query.keys rules) rows
  have hperm' := sort_perm (query'.keys rules) rows
  rcases hs : Sql.sort (query.keys rules) rows with _ | ⟨a, _ | ⟨b, rest⟩⟩
  · rw [hs] at hperm
    simp [hperm.length_eq.symm] at hlen
  · rw [hs] at hperm
    simp [hperm.length_eq.symm] at hlen
  · rcases hs' : Sql.sort (query'.keys rules) rows with _ | ⟨a', rest'⟩
    · simp [hs, hs'] at hhead
    · rw [hs, hs'] at hhead
      obtain rfl : a = a' := by simpa using hhead
      rw [hs] at hpairs hperm
      rw [hs'] at hpairs' hperm'
      have hab := (List.pairwise_cons.1 hpairs).1 b List.mem_cons_self
      have hb : b ∈ rest' := by
        have hmem := (hperm.trans hperm'.symm).mem_iff (a := b)
        have hne : b ≠ a := by
          rintro rfl
          have hnodup := hperm.nodup_iff.2 hnodup
          simp at hnodup
        simpa [hne] using hmem.1 (by simp)
      have hab' := (List.pairwise_cons.1 hpairs').1 b hb
      have hkeys : compareKeys (query'.keys rules) a b = compareKeys (query.keys rules) b a := by
        unfold ParticipantQuery.keys ParticipantQuery.columns
        rw [hsort]
        exact Order.compareKeys_other horder.symm _ a b
      rw [hkeys, compareKeys_swap, hab] at hab'
      cases hab'

variable {cursor cursor' : ParticipantCursor}

/-- What requests with one key are told of participants that both of them list. -/
theorem sameRows_of_shared (hsame : ∀ ldb : ListedDb,
      BroadcastService.getParticipantsFromDb t rules ldb.db broadcastId query =
        BroadcastService.getParticipantsFromDb t rules ldb.db broadcastId query')
    (hwhere : participantsWhere rules broadcastId query' = participantsWhere rules broadcastId query)
    (hcursor : query.position t = .ok cursor) (hcursor' : query'.position t = .ok cursor')
    (ldb : ListedDb) :
    CursorPage.SameRows query.pagination.pageLimit query'.pagination.pageLimit
      (query.window rules broadcastId cursor ((participantsJoin ldb.db).filter
        (participantsWhere rules broadcastId query).matching))
      (query'.window rules broadcastId cursor' ((participantsJoin ldb.db).filter
        (participantsWhere rules broadcastId query).matching)) := by
  have hpages := hsame ldb
  rw [getParticipants_window, getParticipants_window, hcursor, hcursor', hwhere] at hpages
  exact (CursorPage.fromRows_eq_iff fun x hx y hy =>
    participantItem_inj (mem_window.1 hx).1 (mem_window.1 hy).1).1 (Except.ok.inj hpages)

/-- A participant whom one request lists alone shows whether the other does. -/
theorem lists_of_shared (hsame : ∀ ldb : ListedDb,
      BroadcastService.getParticipantsFromDb t rules ldb.db broadcastId query =
        BroadcastService.getParticipantsFromDb t rules ldb.db broadcastId query')
    (hwhere : participantsWhere rules broadcastId query' = participantsWhere rules broadcastId query)
    (hcursor : query.position t = .ok cursor) (hcursor' : query'.position t = .ok cursor')
    {r : ParticipantListRow} (hr : query.Lists rules broadcastId cursor r) :
    query'.Lists rules broadcastId cursor' r := by
  have hid : ([r].map fun r => r.participant.participantId).Nodup := List.nodup_singleton _
  have hlists : ∀ x ∈ [r], query.Lists rules broadcastId cursor x := by
    intro x hx
    rwa [List.mem_singleton.1 hx]
  have hrows := (sameRows_of_shared hsame hwhere hcursor hcursor'
    (participantsDb [r] hid fun x hx => (hlists x hx).stored)).1
  have hmem : r ∈ ([r].take query.pagination.pageLimit.toNat) := by
    rw [List.take_of_length_le (query.pagination.toNat_pageLimit_pos)]
    exact List.mem_singleton_self r
  rw [window_participantsDb hid hlists, sort, List.mergeSort_singleton] at hrows
  rw [hrows] at hmem
  exact ⟨hr.stored, hwhere ▸ hr.matching, (mem_window.1 (List.mem_of_mem_take hmem)).2⟩

/-- Several participants whom both list are shown in both orders. -/
theorem sameRows_sorted (hsame : ∀ ldb : ListedDb,
      BroadcastService.getParticipantsFromDb t rules ldb.db broadcastId query =
        BroadcastService.getParticipantsFromDb t rules ldb.db broadcastId query')
    (hwhere : participantsWhere rules broadcastId query' = participantsWhere rules broadcastId query)
    (hcursor : query.position t = .ok cursor) (hcursor' : query'.position t = .ok cursor')
    {rows : List ParticipantListRow} (hid : (rows.map fun r => r.participant.participantId).Nodup)
    (hrows : ∀ r ∈ rows, query.Lists rules broadcastId cursor r) :
    CursorPage.SameRows query.pagination.pageLimit query'.pagination.pageLimit
      (Sql.sort (query.keys rules) rows) (Sql.sort (query'.keys rules) rows) := by
  have hrows' : ∀ r ∈ rows, query'.Lists rules broadcastId cursor' r := fun r hr =>
    lists_of_shared hsame hwhere hcursor hcursor' (hrows r hr)
  have hshown := sameRows_of_shared hsame hwhere hcursor hcursor'
    (participantsDb rows hid fun r hr => (hrows r hr).stored)
  have hwindow' := window_participantsDb hid hrows'
  rw [hwhere] at hwindow'
  rwa [window_participantsDb hid hrows, hwindow'] at hshown

/-- Behind their cursors, both requests find the same rows. -/
theorem window_perm_of_lists {ldb : ListedDb}
    (hwhere : participantsWhere rules broadcastId query' = participantsWhere rules broadcastId query)
    (hlists : ∀ r, query.Lists rules broadcastId cursor r ↔ query'.Lists rules broadcastId cursor' r) :
    ((participantsJoin ldb.db).filter (participantsWhere rules broadcastId query).matching).filter
        (participantsSelect rules broadcastId query cursor).beyond =
      ((participantsJoin ldb.db).filter (participantsWhere rules broadcastId query).matching).filter
        (participantsSelect rules broadcastId query' cursor').beyond := by
  refine List.filter_congr fun r hr => Bool.eq_iff_iff.2 ?_
  obtain ⟨hjoin, hmatching⟩ := List.mem_filter.1 hr
  have hstored := stored_of_join hjoin
  exact ⟨fun h => ((hlists r).1 ⟨hstored, hmatching, h⟩).beyond,
    fun h => ((hlists r).2 ⟨hstored, hwhere ▸ hmatching, h⟩).beyond⟩

/-- Two requests, neither of which is refused. -/
theorem sameRows_of_standsFor (hsort : query.sort = query'.sort)
    (hwhere : participantsWhere rules broadcastId query' = participantsWhere rules broadcastId query)
    (hlists : ∀ r, query.Lists rules broadcastId cursor r ↔ query'.Lists rules broadcastId cursor' r)
    (hlimit : query.pagination.pageLimit = query'.pagination.pageLimit ∨ AtMostParticipants
      (min query.pagination.pageLimit.toNat query'.pagination.pageLimit.toNat)
      (query.Lists rules broadcastId cursor))
    (horder : participantsOrder query = participantsOrder query' ∨
      AtMostParticipants 1 (query.Lists rules broadcastId cursor)) (ldb : ListedDb) :
    CursorPage.SameRows query.pagination.pageLimit query'.pagination.pageLimit
      (query.window rules broadcastId cursor ((participantsJoin ldb.db).filter
        (participantsWhere rules broadcastId query).matching))
      (query'.window rules broadcastId cursor' ((participantsJoin ldb.db).filter
        (participantsWhere rules broadcastId query).matching)) := by
  let rows := (participantsJoin ldb.db).filter (participantsWhere rules broadcastId query).matching
  let W := query.window rules broadcastId cursor rows
  let W' := query'.window rules broadcastId cursor' rows
  have hrows := @window_perm_of_lists rules broadcastId query query' cursor cursor' ldb hwhere hlists
  have hperm : W.Perm W' :=
    (window_perm cursor rows).trans (hrows ▸ (window_perm cursor' rows).symm)
  have hid : (W.map fun r => r.participant.participantId).Nodup :=
    (((window_perm cursor rows).map _).nodup_iff).2
      (matching_participantId.sublist (List.filter_sublist.map _))
  have hfew : ∀ n, AtMostParticipants n (query.Lists rules broadcastId cursor) → W.length ≤ n := by
    intro n hn
    refine hn W hid fun r hr => ?_
    obtain ⟨hr, hbeyond⟩ := mem_window.1 hr
    obtain ⟨hjoin, hmatching⟩ := List.mem_filter.1 hr
    exact ⟨stored_of_join hjoin, hmatching, hbeyond⟩
  have hsame : W = W' := by
    rcases horder with horder | hone
    · have hkeys : query'.keys rules = query.keys rules := by
        unfold ParticipantQuery.keys ParticipantQuery.columns
        rw [hsort, horder]
      have hident : Identify (query.keys rules) rows := identify_participants
      change (Sql.sort (query.keys rules) rows).filter _ = (Sql.sort (query'.keys rules) rows).filter _
      rw [hkeys, ← sort_filter hident, ← sort_filter hident, hrows]
    · exact eq_of_perm_of_short hperm (hfew 1 hone)
  change CursorPage.SameRows _ _ W W'
  rw [← hsame]
  rcases hlimit with hlimit | hfits
  · rw [hlimit]
    exact ⟨rfl, Iff.rfl⟩
  · exact CursorPage.sameRows_of_fit (hfew _ hfits)

end

/-- For every two requests with one key, whatever the tables. -/
theorem participants_shared_iff (t : CursorText) (rules : TextRules) (hash : String → BitVec 64)
    {broadcastId broadcastId' : Uuid} {query query' : ParticipantQuery}
    (hkey : ParticipantListCacheKey.all hash broadcastId query =
      ParticipantListCacheKey.all hash broadcastId' query')
    (hhash : ∀ kw ∈ query.keywords, ∀ kw' ∈ query'.keywords, hash kw = hash kw' → kw = kw') :
    (∀ ldb : ListedDb,
      BroadcastService.getParticipantsFromDb t rules ldb.db broadcastId query =
        BroadcastService.getParticipantsFromDb t rules ldb.db broadcastId' query') ↔
      query.StandsFor t rules broadcastId query' := by
  have hagree := ParticipantListCacheKey.agree_of_all hkey
  have hwhere := @participantsWhere_of_agree rules _ _ _ _ _ hagree hhash
  obtain rfl := hagree.id
  unfold ParticipantQuery.StandsFor
  cases hcursor : query.position t with
  | error e =>
    cases hcursor' : query'.position t with
    | error e' =>
      simp only [getParticipants_window, hcursor, hcursor', Except.map, Except.error.injEq]
      exact ⟨fun h => h noBroadcasts, fun h _ => h⟩
    | ok cursor' =>
      refine iff_of_false (fun h => ?_) id
      have hpages := h noBroadcasts
      simp [getParticipants_window, hcursor, hcursor', Except.map] at hpages
  | ok cursor =>
    cases hcursor' : query'.position t with
    | error e' =>
      refine iff_of_false (fun h => ?_) id
      have hpages := h noBroadcasts
      simp [getParticipants_window, hcursor, hcursor', Except.map] at hpages
    | ok cursor' =>
      constructor
      · intro hsame
        have hlists : ∀ r, query.Lists rules broadcastId cursor r ↔
            query'.Lists rules broadcastId cursor' r := fun r =>
          ⟨lists_of_shared hsame hwhere hcursor hcursor',
            lists_of_shared (fun ldb => (hsame ldb).symm) hwhere.symm hcursor' hcursor⟩
        refine ⟨hlists, or_iff_not_imp_left.2 fun hlimit rows hid hrows => ?_,
          or_iff_not_imp_left.2 fun horder rows hid hrows => ?_⟩
        · obtain ⟨hfirst, hnext⟩ := sameRows_sorted hsame hwhere hcursor hcursor' hid hrows
          have hpos := query.pagination.pageLimit_pos
          have hpos' := query'.pagination.pageLimit_pos
          have hlen := congrArg List.length hfirst
          rw [List.length_take, List.length_take] at hlen
          rw [(sort_perm _ _).length_eq, (sort_perm _ _).length_eq] at hlen hnext
          omega
        · by_contra hmore
          have hfirst := (sameRows_sorted hsame hwhere hcursor hcursor' hid hrows).1
          have hhead := congrArg List.head? hfirst
          have hpos := query.pagination.toNat_pageLimit_pos.ne'
          have hpos' := query'.pagination.toNat_pageLimit_pos.ne'
          rw [List.head?_take, List.head?_take, if_neg hpos, if_neg hpos'] at hhead
          exact sort_ne_of_order hagree.sort horder hid (Nat.lt_of_not_le hmore) hhead
      · rintro ⟨hlists, hlimit, horder⟩ ldb
        have hrows := sameRows_of_standsFor hagree.sort hwhere hlists hlimit horder ldb
        rw [getParticipants_window, getParticipants_window, hcursor, hcursor', hwhere]
        exact congrArg Except.ok ((CursorPage.fromRows_eq_iff fun x hx y hy =>
          participantItem_inj (mem_window.1 hx).1 (mem_window.1 hy).1).2 hrows)

/-! ### Runs -/

/-- Everyone called Ada, by role, and no more said of how many to a page. -/
def adasByRole : ParticipantQuery :=
  { byRole with keywords := some "Ada", pagination := { cursor := none, limit := none } }

theorem by_role_shared :
    (∀ ldb : ListedDb,
      BroadcastService.getParticipantsFromDb .urlSafe .codePoints ldb.db ⟨8⟩
          { byRole with keywords := some "Ada" } =
        BroadcastService.getParticipantsFromDb .urlSafe .codePoints ldb.db ⟨8⟩ adasByRole) ↔
      ParticipantQuery.StandsFor .urlSafe .codePoints ⟨8⟩ { byRole with keywords := some "Ada" }
        adasByRole :=
  participants_shared_iff .urlSafe .codePoints (fun _ => 0) rfl fun kw hkw kw' hkw' _ => by
    rw [← Option.some.inj hkw, ← Option.some.inj hkw']

/-- Everyone, by role, and no more said of how many to a page. -/
def byRoleUnlimited : ParticipantQuery :=
  { byRole with pagination := { cursor := none, limit := none } }

/-- A page of one stands in for a page of twenty. -/
theorem limit_not_in_key :
    ParticipantListCacheKey.all (fun _ => 0) ⟨8⟩ byRole =
        ParticipantListCacheKey.all (fun _ => 0) ⟨8⟩ byRoleUnlimited ∧
      BroadcastService.getParticipantsFromDb .urlSafe .codePoints twoParticipants.db ⟨8⟩ byRole ≠
        BroadcastService.getParticipantsFromDb .urlSafe .codePoints twoParticipants.db ⟨8⟩
          byRoleUnlimited := by
  refine ⟨rfl, fun h => ?_⟩
  have hone := @getParticipants_first .urlSafe .codePoints twoParticipants.db byRole ⟨8⟩ rfl
  have htwenty :=
    @getParticipants_first .urlSafe .codePoints twoParticipants.db byRoleUnlimited ⟨8⟩ rfl
  have hpage := Except.ok.inj (hone.symm.trans (h.trans htwenty))
  have hnext := congrArg CursorPage.hasNextPage hpage
  simp only [participantPage, CursorPage.fromRows_take, ParticipantQuery.requested,
    (sort_perm _ _).length_eq] at hnext
  exact absurd hnext (by decide)

/-! ## Broadcasts -/

namespace BroadcastQuery

/-- The statement can be prepared, and its values can be bound. -/
def bind (query : BroadcastQuery) (cursor : BroadcastCursor) : Except ListError Unit :=
  if query.effectiveSort = .startTime then .error (.database (.statement .sortClause))
  else if query.effectiveSort = .endTime ∧ cursor.id.isSome then
    .error (.database (.statement .unequalEntries))
  else if query.keywords.all storable then bindCursorTime cursor.ts1
  else .error (.database .invalidByteSequence)

/-- The cursor of a request, if it can be read and the request is not refused. -/
def position (t : CursorText) (query : BroadcastQuery) : Except ListError BroadcastCursor := do
  let cursor ← decodeCursor t query.effectiveSort query.pagination.cursor
  query.bind cursor
  return cursor

/-- The same request without bounds on the times. -/
def unbounded (query : BroadcastQuery) : BroadcastQuery :=
  { query with
    startTimeGt := none
    startTimeGte := none
    startTimeLt := none
    startTimeLte := none
    endTimeGt := none
    endTimeGte := none
    endTimeLt := none
    endTimeLte := none }

/-- The times of a broadcast are within the bounds. -/
def within (query : BroadcastQuery) (b : Broadcast) : Bool :=
  let start := b.startTime
  let finish := b.endTime
  query.startTimeGt.all (fun v => start.map (decide <| · > sentTime v) == some true) &&
  query.startTimeGte.all (fun v => start.map (decide <| · ≥ sentTime v) == some true) &&
  query.startTimeLt.all (fun v => start.map (decide <| · < sentTime v) == some true) &&
  query.startTimeLte.all (fun v => start.map (decide <| · ≤ sentTime v) == some true) &&
  query.endTimeGt.all (fun v => finish.map (decide <| · > sentTime v) == some true) &&
  query.endTimeGte.all (fun v => finish.map (decide <| · ≥ sentTime v) == some true) &&
  query.endTimeLt.all (fun v => finish.map (decide <| · < sentTime v) == some true) &&
  query.endTimeLte.all (fun v => finish.map (decide <| · ≤ sentTime v) == some true)

/-- The broadcasts behind a cursor, in the order that is asked for, whatever their times. -/
def behind (rules : TextRules) (db : BroadcastDb) (query : BroadcastQuery)
    (requesterId : Option Uuid) (cursor : BroadcastCursor) : List BroadcastListRow :=
  (query.unbounded.requested rules db requesterId).filter
    (broadcastsSelect rules db query requesterId cursor).beyond

/-- The bounds on the times, as they are sent. -/
def bounds (query : BroadcastQuery) : List (Option OffsetDateTime) :=
  [query.startTimeGt, query.startTimeGte, query.startTimeLt, query.startTimeLte,
    query.endTimeGt, query.endTimeGte, query.endTimeLt, query.endTimeLte].map (Option.map sentTime)

/-- A broadcast that the filters of a request let through, whatever its times, and that is behind a
cursor. A request whose pages are kept does not ask who subscribes, so that no tables will do. -/
structure Lists (rules : TextRules) (query : BroadcastQuery) (cursor : BroadcastCursor)
    (b : Broadcast) : Prop where
  stored : b.Stored
  matching : (broadcastsWhere rules (.ofUsers .empty) query.unbounded none).matching
    { broadcast := b, creator := none } = true
  beyond : (broadcastsSelect rules (.ofUsers .empty) query none cursor).beyond
    { broadcast := b, creator := none } = true

/-- One request can be answered for the other: they have the same cursor and, unless they are
refused, no broadcast that they list is within the bounds of only one. -/
def StandsFor (t : CursorText) (rules : TextRules) (query query' : BroadcastQuery) : Prop :=
  query.pagination.cursor = query'.pagination.cursor ∧
    ∀ cursor, query.position t = .ok cursor →
      ∀ b, query.Lists rules cursor b → query.within b = query'.within b

end BroadcastQuery

section

variable {t : CursorText} {rules : TextRules} {db : BroadcastDb} {query query' : BroadcastQuery}
  {requesterId requesterId' : Option Uuid}

theorem matching_within (r : BroadcastListRow) :
    (broadcastsWhere rules db query requesterId).matching r =
      ((broadcastsWhere rules db query.unbounded requesterId).matching r &&
        query.within r.broadcast) := by
  unfold broadcastsWhere BroadcastQuery.within BroadcastQuery.unbounded
  cases query.onlySubscriptions.getD false <;>
    simp only [Select.matching_andIf, Select.matching_where, Option.all_none, Bool.and_true,
      if_true, Bool.false_eq_true, if_false] <;>
    ac_rfl

/-- Bounds that are sent alike are the same bounds. -/
theorem standsFor_of_bounds (hcursor : query.pagination.cursor = query'.pagination.cursor)
    (h : query.bounds = query'.bounds) : query.StandsFor t rules query' := by
  have hall : ∀ {x y : Option OffsetDateTime} (p : OffsetDateTime → Bool),
      x.map sentTime = y.map sentTime →
        x.all (fun v => p (sentTime v)) = y.all fun v => p (sentTime v) := by
    intro x y p hxy
    have hmap : ∀ z : Option OffsetDateTime,
        z.all (fun v => p (sentTime v)) = (z.map sentTime).all p := by
      intro z
      cases z <;> rfl
    rw [hmap, hmap, hxy]
  refine ⟨hcursor, fun _ _ b _ => ?_⟩
  simp only [BroadcastQuery.bounds, List.map_cons, List.map_nil, List.cons.injEq, and_true] at h
  obtain ⟨hsgt, hsge, hslt, hsle, hegt, hege, helt, hele⟩ := h
  unfold BroadcastQuery.within
  dsimp only
  rw [hall (fun v => b.startTime.map (decide <| · > v) == some true) hsgt,
    hall (fun v => b.startTime.map (decide <| · ≥ v) == some true) hsge,
    hall (fun v => b.startTime.map (decide <| · < v) == some true) hslt,
    hall (fun v => b.startTime.map (decide <| · ≤ v) == some true) hsle,
    hall (fun v => b.endTime.map (decide <| · > v) == some true) hegt,
    hall (fun v => b.endTime.map (decide <| · ≥ v) == some true) hege,
    hall (fun v => b.endTime.map (decide <| · < v) == some true) helt,
    hall (fun v => b.endTime.map (decide <| · ≤ v) == some true) hele]

theorem requested_within :
    query.requested rules db requesterId =
      (query.unbounded.requested rules db requesterId).filter fun r => query.within r.broadcast := by
  have hident : Identify (query.keys rules) ((broadcastRows db).filter
      (broadcastsWhere rules db query.unbounded requesterId).matching) :=
    @identify_keys rules db query.unbounded requesterId
  have hrows : (broadcastRows db).filter (broadcastsWhere rules db query requesterId).matching =
      ((broadcastRows db).filter (broadcastsWhere rules db query.unbounded requesterId).matching).filter
        fun r => query.within r.broadcast := by
    rw [List.filter_filter]
    congr 1
    funext r
    rw [matching_within, Bool.and_comm]
  rw [BroadcastQuery.requested, hrows]
  exact sort_filter hident _

/-- A statement that can be prepared compares as many values as expressions. -/
theorem seek_length {cursor : BroadcastCursor}
    (hend : query.effectiveSort = .endTime → cursor.id = none)
    {s : RowCondition BroadcastListRow SqlValue}
    (hs : (broadcastsSelect rules db query requesterId cursor).seek = some s) :
    s.exprs.length = s.values.length := by
  rw [seek_broadcastsSelect] at hs
  obtain ⟨ts1, ts2, score, id⟩ := cursor
  unfold broadcastsSeek pushCursorCondition at hs
  cases hsort : query.effectiveSort <;> simp only [hsort] at hs hend <;> cases ts1 <;> cases ts2 <;>
    cases score <;> cases id <;>
    first
    | (obtain rfl := Option.some.inj hs; rfl)
    | (cases hs; done)
    | exact absurd (hend trivial) (Option.some_ne_none _)

theorem fetchAll_broadcasts {cursor : BroadcastCursor} (hsort : query.effectiveSort ≠ .startTime)
    (hend : query.effectiveSort = .endTime → cursor.id = none) :
    fetchAll (broadcastsSelect rules db query requesterId cursor) query.keywords
      (broadcastRows db) =
      if query.keywords.all storable then
        .ok (((query.behind rules db requesterId cursor).filter fun r => query.within r.broadcast).take
          (query.pagination.pageLimit.toNat + 1))
      else .error (.database .invalidByteSequence) := by
  have hident : Identify (query.keys rules) ((broadcastRows db).filter
      (broadcastsSelect rules db query requesterId cursor).matching) := by
    rw [matching_broadcastsSelect]
    exact identify_keys
  have hlimit : (broadcastsSelect rules db query requesterId cursor).limit =
      some (query.pagination.pageLimit.toNat + 1) :=
    congrArg some query.pagination.toNat_limitPlusOne
  have hrows : (Sql.sort (query.keys rules) ((broadcastRows db).filter
      (broadcastsSelect rules db query requesterId cursor).matching)).filter
        (broadcastsSelect rules db query requesterId cursor).beyond =
      (query.behind rules db requesterId cursor).filter fun r => query.within r.broadcast := by
    rw [matching_broadcastsSelect]
    change (query.requested rules db requesterId).filter _ = _
    rw [requested_within, BroadcastQuery.behind, List.filter_filter, List.filter_filter]
    congr 1
    funext r
    exact Bool.and_comm _ _
  rw [fetchAll, run_eq _ (orderBy_broadcastsSelect cursor hsort) (fun _ => seek_length hend) hident,
    hrows, Select.cut, hlimit]

/-- A cursor has all its parts if the request has one. -/
theorem decodeCursor_parts {sort : BroadcastSortBy} {c : Option Cursor} {cursor : BroadcastCursor}
    (hsort : sort ≠ .totalParticipants) (h : decodeCursor t sort c = .ok cursor)
    (hid : cursor.id.isSome) : cursor.ts1.isSome ∧ cursor.ts2.isSome := by
  unfold decodeCursor at h
  split at h
  · obtain rfl := Except.ok.inj h
    cases hid
  · rw [if_neg hsort] at h
    split at h
    · obtain rfl := Except.ok.inj h
      exact ⟨rfl, rfl⟩
    · cases h

/-- What a page shows of the rows that are found. -/
def broadcastPage (t : CursorText) (query : BroadcastQuery) (rows : List BroadcastListRow) :
    Except ListError (CursorPage BroadcastListItem) := do
  let items ← (rows.take (query.pagination.pageLimit.toNat + 1)).mapM listItem
  return .fromRows items query.pagination.pageLimit (encodeCursor t query.effectiveSort)

/-- The answer to a request. -/
theorem getBroadcasts_eq (now : OffsetDateTime) :
    BroadcastService.getBroadcastsFromDb t rules now db query requesterId = (do
      let cursor ← query.position t
      broadcastPage t query
        ((query.behind rules db requesterId cursor).filter fun r => query.within r.broadcast)) := by
  unfold BroadcastQuery.position
  cases hcursor : decodeCursor t query.effectiveSort query.pagination.cursor with
  | error e =>
    have hget : BroadcastService.getBroadcastsFromDb t rules now db query requesterId = (do
        let rows ← findBroadcasts t rules db query requesterId
        return BroadcastService.buildBroadcastPage t now rows query.pagination.pageLimit
          query.effectiveSort) := rfl
    rw [hget, findBroadcasts, hcursor]
    rfl
  | ok cursor =>
    refine (@getBroadcasts_of_cursor t rules db query requesterId _ _ hcursor now).trans ?_
    rw [ok_bind]
    by_cases hsort : query.effectiveSort = .startTime
    · rw [BroadcastQuery.bind, if_pos hsort, fetchAll, Select.run, orderBy_startTime cursor hsort]
      rfl
    · by_cases hend : query.effectiveSort = .endTime ∧ cursor.id.isSome
      · obtain ⟨hts1, hts2⟩ := decodeCursor_parts (by simp [hend.1]) hcursor hend.2
        rw [BroadcastQuery.bind, if_neg hsort, if_pos hend,
          fetchAll_endTime hend.1 hts1 hts2 hend.2]
        rfl
      · rw [BroadcastQuery.bind, if_neg hsort, if_neg hend,
          fetchAll_broadcasts hsort fun hs => by simpa [hs] using hend]
        by_cases hkw : query.keywords.all storable = true
        · rw [if_pos hkw, if_pos hkw, ok_bind]
          cases bindCursorTime cursor.ts1 with
          | error e => rfl
          | ok _ =>
            simp only [ok_bind, buildBroadcastPage_eq hsort]
            rfl
        · rw [if_neg hkw, if_neg hkw]
          rfl

/-- A row that is found shows. -/
theorem eq_of_page {r : BroadcastListRow} {p q : BroadcastListRow → Bool}
    (h : broadcastPage t query ([r].filter p) = broadcastPage t query ([r].filter q)) : p r = q r := by
  have hpos := query.pagination.toNat_pageLimit_pos
  have hempty : broadcastPage t query [] = .ok { data := [], nextCursor := none, hasNextPage := false } := by
    rw [broadcastPage, List.take_nil]
    exact congrArg Except.ok (CursorPage.fromRows_of_le (Nat.zero_le _))
  have hone : broadcastPage t query [r] ≠ broadcastPage t query [] := by
    rw [hempty, broadcastPage, List.take_of_length_le (by simp), List.mapM_cons]
    cases listItem r with
    | error e => exact fun h => by cases h
    | ok item =>
      intro h
      have hpage := congrArg CursorPage.data (Except.ok.inj h)
      rw [CursorPage.fromRows_of_le (by exact hpos)] at hpage
      cases hpage
  cases hp : p r <;> cases hq : q r <;> simp [hp, hq] at h ⊢
  · exact hone h.symm
  · exact hone h

variable {hash : String → BitVec 64}

/-- Without their time bounds, requests with one key ask for the same broadcasts. -/
theorem unbounded_of_agree (h : BroadcastListCacheKey.Agree hash query query')
    (hhash : ∀ kw ∈ query.keywords, ∀ kw' ∈ query'.keywords, hash kw = hash kw' → kw = kw') :
    query'.unbounded.requested rules db requesterId' =
      query.unbounded.requested rules db requesterId := by
  have hkw : query.keywords = query'.keywords := eq_of_map_hash hhash h.keywords
  have honly : ∀ {q : BroadcastQuery}, q.onlySubscriptions ≠ some true →
      q.unbounded.onlySubscriptions.getD false = false := by
    intro q hq
    change q.onlySubscriptions.getD false = false
    rcases hs : q.onlySubscriptions with _ | _ | _
    · rfl
    · rfl
    · exact absurd hs hq
  have hkeys : query'.unbounded.keys rules = query.unbounded.keys rules := by
    have hsort : query'.unbounded.effectiveSort = query.unbounded.effectiveSort := h.sort.symm
    have horder : query'.unbounded.effectiveOrder = query.unbounded.effectiveOrder := h.order.symm
    unfold BroadcastQuery.keys BroadcastQuery.columns
    rw [hsort, horder]
  have hwhere : broadcastsWhere rules db query'.unbounded requesterId' =
      broadcastsWhere rules db query.unbounded requesterId := by
    unfold broadcastsWhere
    rw [honly h.shared.1, honly h.shared.2]
    simp only [BroadcastQuery.unbounded, h.creatorId, h.status, hkw, h.startTimeExists,
      h.endTimeExists, Bool.false_eq_true, if_false]
  unfold BroadcastQuery.requested
  rw [hkeys, hwhere]

theorem behind_of_agree (h : BroadcastListCacheKey.Agree hash query query')
    (hhash : ∀ kw ∈ query.keywords, ∀ kw' ∈ query'.keywords, hash kw = hash kw' → kw = kw')
    (cursor : BroadcastCursor) :
    query'.behind rules db requesterId' cursor = query.behind rules db requesterId cursor := by
  have hbeyond : (broadcastsSelect rules db query' requesterId' cursor).beyond =
      (broadcastsSelect rules db query requesterId cursor).beyond := by
    funext r
    unfold Select.beyond
    rw [seek_broadcastsSelect, seek_broadcastsSelect]
    unfold broadcastsSeek
    rw [h.sort, h.order]
  rw [BroadcastQuery.behind, BroadcastQuery.behind, unbounded_of_agree h hhash, hbeyond]

theorem position_of_agree (h : BroadcastListCacheKey.Agree hash query query')
    (hhash : ∀ kw ∈ query.keywords, ∀ kw' ∈ query'.keywords, hash kw = hash kw' → kw = kw')
    (hcursor : query.pagination.cursor = query'.pagination.cursor) :
    query'.position t = query.position t := by
  have hkw : query.keywords = query'.keywords := eq_of_map_hash hhash h.keywords
  unfold BroadcastQuery.position BroadcastQuery.bind
  rw [h.sort, hcursor, hkw]

/-- Where one request has the empty text for a cursor, and the other none, the first is refused. -/
theorem position_empty (h : query.pagination.cursor = some ⟨""⟩) :
    query.position t = .error (.cursor .invalidShape) := by
  have hraw : (⟨""⟩ : Cursor).raw t = .ok [] := by simp [Cursor.raw, t.decode_empty]
  have hts : (⟨""⟩ : Cursor).toTimestampId t = .error .invalidShape := by
    rw [Cursor.toTimestampId, hraw]
    rfl
  have hscore : (⟨""⟩ : Cursor).toScoreId t = .error .invalidShape := by
    rw [Cursor.toScoreId, hraw]
    rfl
  have hdecode : decodeCursor t query.effectiveSort query.pagination.cursor =
      .error (.cursor .invalidShape) := by
    rw [h]
    by_cases hsort : query.effectiveSort = .totalParticipants
    · simp [decodeCursor, hsort, hscore]
    · simp [decodeCursor, hsort, hts]
  rw [BroadcastQuery.position, hdecode]
  rfl

theorem bind_ne_cursor (cursor : BroadcastCursor) (e : CursorError) :
    query.bind cursor ≠ .error (.cursor e) := by
  intro h
  unfold BroadcastQuery.bind bindCursorTime at h
  repeat' split at h
  all_goals cases h

theorem broadcastPage_ne_cursor (rows : List BroadcastListRow) (e : CursorError) :
    broadcastPage t query rows ≠ .error (.cursor e) := by
  by_cases hcounted : NoNullCount (rows.take (query.pagination.pageLimit.toNat + 1))
  · simp [broadcastPage, mapM_listItem hcounted]
  · simp [broadcastPage, mapM_listItem_refused hcounted]

theorem getBroadcasts_none_ne (h : query.pagination.cursor = none) (now : OffsetDateTime)
    (e : CursorError) :
    BroadcastService.getBroadcastsFromDb t rules now db query requesterId ≠ .error (.cursor e) := by
  rw [getBroadcasts_eq, BroadcastQuery.position, h]
  cases hbind : query.bind { ts1 := none, ts2 := none, score := none, id := none } with
  | error e' =>
    have hne : e' ≠ .cursor e := fun he => bind_ne_cursor _ e (hbind.trans (by rw [he]))
    simpa [decodeCursor, ok_bind, hbind, error_bind] using hne
  | ok _ => simpa [decodeCursor, ok_bind, hbind, pure_ok] using broadcastPage_ne_cursor _ e

/-- Requests with one key have the same cursor, or one of them has none and the other the empty
text. -/
theorem cursor_of_agree (h : BroadcastListCacheKey.Agree hash query query') :
    query.pagination.cursor = query'.pagination.cursor ∨
      (query.pagination.cursor = none ∧ query'.pagination.cursor = some ⟨""⟩) ∨
      (query.pagination.cursor = some ⟨""⟩ ∧ query'.pagination.cursor = none) := by
  have htext := String.toList_inj.1 h.cursor
  cases hc : query.pagination.cursor with
  | none =>
    cases hc' : query'.pagination.cursor with
    | none => exact .inl rfl
    | some c' =>
      simp only [hc, hc', Option.elim] at htext
      exact .inr (.inl ⟨rfl, by rw [htext]⟩)
  | some c =>
    cases hc' : query'.pagination.cursor with
    | none =>
      simp only [hc, hc', Option.elim] at htext
      exact .inr (.inr ⟨by rw [← htext], rfl⟩)
    | some c' =>
      simp only [hc, hc', Option.elim] at htext
      obtain ⟨text⟩ := c
      obtain ⟨text'⟩ := c'
      have htext : text = text' := htext
      exact .inl (by rw [htext])

/-! ### Tables of one broadcast -/

/-- The tables of a broadcast, and of no users. -/
def onlyBroadcast (b : Broadcast) (hb : b.Stored) : ListedDb where
  db := { BroadcastDb.ofUsers .empty with broadcasts := Table.empty.put b }
  broadcasts := by
    intro b' hb'
    obtain rfl : b' = b := by simpa [Table.empty] using hb'
    exact hb
  joinedTimes := joinedTimes_of_empty rfl

/-- What a request whose pages are kept makes of a broadcast does not depend on other tables. -/
theorem matching_kept (honly : query.onlySubscriptions ≠ some true) {db' : BroadcastDb}
    (b : Broadcast) (creator creator' : Option User) :
    (broadcastsWhere rules db query.unbounded requesterId).matching ⟨b, creator⟩ =
      (broadcastsWhere rules db' query.unbounded requesterId').matching ⟨b, creator'⟩ := by
  have hfalse : query.unbounded.onlySubscriptions.getD false = false := by
    change query.onlySubscriptions.getD false = false
    rcases hs : query.onlySubscriptions with _ | _ | _
    · rfl
    · rfl
    · exact absurd hs honly
  simp only [broadcastsWhere, hfalse, Select.matching_andIf, Select.matching_where,
    Bool.false_eq_true, if_false]

theorem beyond_kept {db' : BroadcastDb} (cursor : BroadcastCursor) (b : Broadcast)
    (creator creator' : Option User) :
    (broadcastsSelect rules db query requesterId cursor).beyond ⟨b, creator⟩ =
      (broadcastsSelect rules db' query requesterId' cursor).beyond ⟨b, creator'⟩ := by
  have hentry : ∀ c, (broadcastsSelect rules db query requesterId cursor).seek = some c →
      c.eval ⟨b, creator⟩ = c.eval ⟨b, creator'⟩ := by
    intro c hc
    rw [seek_broadcastsSelect] at hc
    obtain ⟨ts1, ts2, score, id⟩ := cursor
    unfold broadcastsSeek pushCursorCondition at hc
    cases hsort : query.effectiveSort <;> simp only [hsort] at hc <;> cases ts1 <;> cases ts2 <;>
      cases score <;> cases id <;> first | (cases hc; done) | (obtain rfl := Option.some.inj hc; rfl)
  unfold Select.beyond
  rw [show (broadcastsSelect rules db' query requesterId' cursor).seek =
    (broadcastsSelect rules db query requesterId cursor).seek from
      (seek_broadcastsSelect cursor).trans (seek_broadcastsSelect cursor).symm]
  cases hs : (broadcastsSelect rules db query requesterId cursor).seek with
  | none => rfl
  | some c => simp [hentry c hs]

/-- A broadcast that is listed is behind the cursor where it is the only one. -/
theorem behind_onlyBroadcast (honly : query.onlySubscriptions ≠ some true)
    {cursor : BroadcastCursor} {b : Broadcast} (h : query.Lists rules cursor b) :
    query.behind rules (onlyBroadcast b h.stored).db requesterId cursor = [⟨b, none⟩] := by
  have hrows : broadcastRows (onlyBroadcast b h.stored).db = [⟨b, none⟩] := rfl
  have hmatching : (broadcastsWhere rules (onlyBroadcast b h.stored).db query.unbounded
      requesterId).matching ⟨b, none⟩ = true :=
    (matching_kept honly b none none).trans h.matching
  have hbeyond : (broadcastsSelect rules (onlyBroadcast b h.stored).db query requesterId
      cursor).beyond ⟨b, none⟩ = true :=
    (beyond_kept cursor b none none).trans h.beyond
  simp [BroadcastQuery.behind, BroadcastQuery.requested, hrows, hmatching, hbeyond, sort]

/-- What is behind a cursor is listed. -/
theorem lists_of_behind (honly : query.onlySubscriptions ≠ some true) {ldb : ListedDb}
    {cursor : BroadcastCursor} {r : BroadcastListRow}
    (h : r ∈ query.behind rules ldb.db requesterId cursor) :
    query.Lists rules cursor r.broadcast := by
  obtain ⟨hrequested, hbeyond⟩ := List.mem_filter.1 h
  obtain ⟨b, creator⟩ := r
  exact {
    stored := ldb.broadcasts _ (mem_requested hrequested)
    matching :=
      (matching_kept honly b none creator).trans (List.mem_filter.1 (mem_sort.1 hrequested)).2
    beyond := (beyond_kept cursor b none creator).trans hbeyond }

end

/-- For every two requests with one key, whatever the tables. -/
theorem broadcasts_shared_iff (t : CursorText) (rules : TextRules) (hash : String → BitVec 64)
    (now now' : OffsetDateTime) (requesterId requesterId' : Option Uuid)
    {query query' : BroadcastQuery} {key : String}
    (hkey : BroadcastListCacheKey.build hash query = some key)
    (hkey' : BroadcastListCacheKey.build hash query' = some key)
    (hhash : ∀ kw ∈ query.keywords, ∀ kw' ∈ query'.keywords, hash kw = hash kw' → kw = kw') :
    (∀ ldb : ListedDb,
      BroadcastService.getBroadcastsFromDb t rules now ldb.db query requesterId =
        BroadcastService.getBroadcastsFromDb t rules now' ldb.db query' requesterId') ↔
      query.StandsFor t rules query' := by
  have hagree := BroadcastListCacheKey.agree_of_build hkey hkey'
  rcases cursor_of_agree hagree with hcursor | ⟨hnone, hsome⟩ | ⟨hsome, hnone⟩
  · have hpos := @position_of_agree t _ _ hash hagree hhash hcursor
    have hpage : broadcastPage t query' = broadcastPage t query := by
      unfold broadcastPage
      rw [hagree.limit, hagree.sort]
    have hbehind := fun db => @behind_of_agree rules db _ _ requesterId requesterId' hash hagree hhash
    simp only [BroadcastQuery.StandsFor, getBroadcasts_eq, hpos, hpage, hbehind]
    cases query.position t with
    | error e => simp [error_bind, hcursor]
    | ok cursor =>
      simp only [ok_bind]
      refine ⟨fun h => ⟨hcursor, fun _ hc b hb => ?_⟩, fun ⟨_, h⟩ ldb => ?_⟩
      · obtain rfl := Except.ok.inj hc
        have honly := h (onlyBroadcast b hb.stored)
        rw [behind_onlyBroadcast hagree.shared.1 hb] at honly
        exact eq_of_page honly
      · refine congrArg _ (List.filter_congr fun r hr => ?_)
        exact h cursor rfl _ (lists_of_behind hagree.shared.1 hr)
  · refine iff_of_false (fun h => ?_) fun h => ?_
    · have hget := h noBroadcasts
      rw [@getBroadcasts_eq t rules _ query' requesterId' now', position_empty hsome] at hget
      exact getBroadcasts_none_ne hnone now _ hget
    · simp [h.1, hsome] at hnone
  · refine iff_of_false (fun h => ?_) fun h => ?_
    · have hget := h noBroadcasts
      rw [@getBroadcasts_eq t rules _ query requesterId now, position_empty hsome] at hget
      exact getBroadcasts_none_ne hnone now' _ hget.symm
    · simp [← h.1, hsome] at hnone

/-! ### Runs -/

/-- A broadcast that starts at 10.5 seconds. -/
def earlyBroadcast : Broadcast where
  id := ⟨8⟩
  title := "Morning prayer"
  description := none
  status := .active
  creatorId := ⟨1⟩
  timeZone := none
  imageUrl := none
  imageId := none
  broadcastToken := none
  totalParticipants := some 0
  startTime := some 10500000000
  endTime := none
  recordingEnabled := false
  recordingUrl := none
  publishedAt := none
  endReason := .none
  createdAt := 5000
  updatedAt := 5000
  deletedAt := none

def earlyOnly : BroadcastDb :=
  { BroadcastDb.ofUsers twoUsers with broadcasts := Table.empty.put earlyBroadcast }

/-- The broadcasts that start at `v` or later. -/
def startsFrom (v : OffsetDateTime) : BroadcastQuery :=
  { byStartTime with startTimeGte := some v, sortBy := none }

theorem starts_from_shared :
    (∀ ldb : ListedDb,
      BroadcastService.getBroadcastsFromDb .urlSafe .codePoints 0 ldb.db
          { startsFrom 10200000000 with keywords := some "prayer" } none =
        BroadcastService.getBroadcastsFromDb .urlSafe .codePoints 0 ldb.db
          { startsFrom 10700000000 with keywords := some "prayer" } none) ↔
      BroadcastQuery.StandsFor .urlSafe .codePoints
        { startsFrom 10200000000 with keywords := some "prayer" }
        { startsFrom 10700000000 with keywords := some "prayer" } :=
  broadcasts_shared_iff .urlSafe .codePoints (fun _ => 0) 0 0 none none rfl rfl
    fun kw hkw kw' hkw' _ => by rw [← Option.some.inj hkw, ← Option.some.inj hkw']

/-- The key has whole seconds only. -/
theorem fraction_not_in_key :
    BroadcastListCacheKey.build (fun _ => 0) (startsFrom 10200000000) =
        BroadcastListCacheKey.build (fun _ => 0) (startsFrom 10700000000) ∧
      BroadcastService.getBroadcastsFromDb .urlSafe .codePoints 0 earlyOnly
          (startsFrom 10200000000) none ≠
        BroadcastService.getBroadcastsFromDb .urlSafe .codePoints 0 earlyOnly
          (startsFrom 10700000000) none := by
  refine ⟨rfl, fun h => ?_⟩
  have hcounted : ∀ v, NoNullCount ((startsFrom v).requested .codePoints earlyOnly none) := by
    intro v r hr
    have hr : r.broadcast = earlyBroadcast := List.mem_singleton.1 (mem_requested hr)
    simp [hr, earlyBroadcast]
  have hpage : ∀ v, BroadcastService.getBroadcastsFromDb .urlSafe .codePoints 0 earlyOnly
      (startsFrom v) none = .ok (.fromRows ((((startsFrom v).requested .codePoints earlyOnly
        none).take (Int.toNat 20 + 1)).map itemOf) 20 (encodeCursor .urlSafe .createdAt)) := by
    intro v
    let F : Listing BroadcastListRow Unit :=
      ⟨(startsFrom v).requested .codePoints earlyOnly none, fun _ => (), fun _ _ => true⟩
    have hsort : (startsFrom v).effectiveSort ≠ .startTime := by
      simp [startsFrom, BroadcastQuery.effectiveSort]
    have hfirst := @page_first .urlSafe .codePoints earlyOnly (startsFrom v) none _ F hsort rfl
      (hcounted v) rfl 0
    rwa [Listing.rest_none] at hfirst
  rw [hpage, hpage] at h
  have hlen := congrArg (fun p => p.data.length) (Except.ok.inj h)
  simp only [CursorPage.fromRows_take, List.length_map, List.length_take,
    BroadcastQuery.requested, (sort_perm _ _).length_eq] at hlen
  exact absurd hlen (by decide)

end Meno
