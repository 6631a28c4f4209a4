import Meno.Broadcast.ParticipantWalk
import Meno.Shared.CursorShapes

/-!
# Meno.Broadcast.LiveParticipants

`get_live_participants`: the participants that LiveKit knows of are sorted, looked through for the
cursor and cut into a page in memory. The page is made of no more rows than the limit, so none ever
says that there is a next one.
-/

namespace Meno

open Lib

structure LivekitParticipantInfo where
  id : Uuid
  joinedAt : OffsetDateTime

def ParticipantRole.priority : ParticipantRole → Int
  | .host => 0
  | .cohost => 1
  | .participant => 2
  | .none => 3

inductive LiveListError where
  | notFound
  | notLive
  | cursor (e : CursorError)
deriving DecidableEq

/-! ## What is listed -/

/-- The roles of those who have not left. -/
def getParticipantRoles (db : BroadcastDb) (broadcastId userId : Uuid) : Option ParticipantRole :=
  ((db.participants.get (broadcastId, userId)).filter fun p => p.leftAt.isNone).map
    BroadcastParticipant.role

namespace LivekitParticipantInfo

def enriched (broadcast : Broadcast) (users : List UserSummary)
    (roles : Uuid → Option ParticipantRole) (lp : LivekitParticipantInfo) : ParticipantListItem :=
  let user := users.find? fun u => u.id == lp.id
  { id := lp.id
    fullName := (user.map UserSummary.fullName).getD "Unknown"
    avatarId := user.bind UserSummary.avatarId
    avatarUrl := user.bind UserSummary.avatarUrl
    role := (roles lp.id).getD (if broadcast.creatorId = lp.id then .host else .participant)
    joinedAt := lp.joinedAt }

end LivekitParticipantInfo

/-- The filters. `lower` is `to_lowercase`. -/
def ParticipantQuery.retains (lower : String → String) (query : ParticipantQuery)
    (p : ParticipantListItem) : Bool :=
  (query.keywords.all fun kw => Text.contains (lower kw).toList (lower p.fullName).toList) &&
    query.role.all fun role => p.role == role

/-- The participants that a request asks for. -/
def liveMatching (lower : String → String) (db : BroadcastDb) (broadcast : Broadcast)
    (query : ParticipantQuery) (participants : List LivekitParticipantInfo) :
    List ParticipantListItem :=
  let users := BroadcastRepository.findUsersBatch db (participants.map LivekitParticipantInfo.id)
  let roles := getParticipantRoles db broadcast.id
  (participants.map (LivekitParticipantInfo.enriched broadcast users roles)).filter
    (query.retains lower)

/-! ## Order -/

def ParticipantSortBy.compare (sort : ParticipantSortBy) (a b : ParticipantListItem) : Ordering :=
  match sort with
  | .role => Ord.compare a.role.priority b.role.priority
  | .joinedAt => Ord.compare a.joinedAt b.joinedAt
  | .name => Ord.compare a.fullName b.fullName

def ParticipantQuery.compare (query : ParticipantQuery) (a b : ParticipantListItem) : Ordering :=
  match query.order.getD .asc with
  | .asc => query.sort.compare a b
  | .desc => (query.sort.compare a b).swap

/-- `sort_by` is stable. -/
def ParticipantQuery.sorted (query : ParticipantQuery) (items : List ParticipantListItem) :
    List ParticipantListItem :=
  items.mergeSort fun a b => (query.compare a b).isLE

/-! ## Pages -/

section

variable (t : CursorText)

/-- `(key, p.id) > (cursor_key, id)`, where the keys compare like this. -/
def beyondCursor (keys : Ordering) (p : ParticipantListItem) (id : Uuid) : Bool :=
  keys == .gt || keys == .eq && decide (p.id > id)

/-- Where the page begins; at the first participant, if all stand before the cursor. -/
def startIndex (sort : ParticipantSortBy) (items : List ParticipantListItem) :
    Option Cursor → Except CursorError Nat
  | none => .ok 0
  | some c =>
    match sort with
    | .role => do
      let (priority, id) ← c.toScoreId t
      return (items.findIdx? fun p => beyondCursor (compare p.role.priority priority) p id).getD 0
    | .joinedAt => do
      let (ts, id) ← c.toTimestampId t
      return (items.findIdx? fun p => beyondCursor (compare p.joinedAt ts) p id).getD 0
    | .name => do
      let (name, id) ← c.toNameId t
      return (items.findIdx? fun p => beyondCursor (compare p.fullName name) p id).getD 0

def liveCursor (sort : ParticipantSortBy) (p : ParticipantListItem) : Cursor :=
  match sort with
  | .role => .fromScoreId t p.role.priority p.id
  | .joinedAt => .fromTimestampId t p.joinedAt p.id
  | .name => .fromNameId t p.fullName p.id

/-- `participants` is what LiveKit, or the cache in front of it, answers. -/
def getLiveParticipants (lower : String → String) (db : BroadcastDb)
    (participants : List LivekitParticipantInfo) (broadcastId : Uuid) (query : ParticipantQuery) :
    Except LiveListError (CursorPage ParticipantListItem) :=
  match BroadcastRepository.findById db broadcastId with
  | none => .error .notFound
  | some broadcast =>
    if !broadcast.isActive then .error .notLive
    else if participants.isEmpty then .ok { data := [], nextCursor := none, hasNextPage := false }
    else
      let items := query.sorted (liveMatching lower db broadcast query participants)
      match startIndex t query.sort items query.pagination.cursor with
      | .error e => .error (.cursor e)
      | .ok start =>
        .ok (.fromRows ((items.drop start).take query.pagination.pageLimit.toNat)
          query.pagination.pageLimit (liveCursor t query.sort))

/-- A walk comes to its end, and shows every participant that is asked for once and in order. -/
def ShowsLive (lower : String → String) (db : BroadcastDb) (broadcast : Broadcast)
    (participants : List LivekitParticipantInfo) (query : ParticipantQuery) : Prop :=
  ∃ items, Walk (fun _ c => getLiveParticipants t lower db participants broadcast.id
      (query.resume c)) 0 none items ∧
    items.Perm (liveMatching lower db broadcast query participants) ∧
    items.Pairwise fun a b => query.compare a b ≠ .gt

end

/-! ## Sorting -/

instance (sort : ParticipantSortBy) : Std.TransCmp sort.compare :=
  match sort with
  | .role => inferInstanceAs (Std.TransCmp (compareOn fun p : ParticipantListItem => p.role.priority))
  | .joinedAt => inferInstanceAs (Std.TransCmp (compareOn ParticipantListItem.joinedAt))
  | .name => inferInstanceAs (Std.TransCmp (compareOn ParticipantListItem.fullName))

namespace ParticipantQuery

variable (query : ParticipantQuery)

theorem isLE_trans (a b c : ParticipantListItem) (hab : (query.compare a b).isLE)
    (hbc : (query.compare b c).isLE) : (query.compare a c).isLE := by
  unfold ParticipantQuery.compare at hab hbc ⊢
  cases ho : query.order.getD .asc with
  | asc =>
    simp only [ho] at hab hbc ⊢
    exact Std.TransCmp.isLE_trans hab hbc
  | desc =>
    simp only [ho, ← Std.OrientedCmp.eq_swap] at hab hbc ⊢
    exact Std.TransCmp.isLE_trans hbc hab

theorem isLE_total (a b : ParticipantListItem) :
    (query.compare a b).isLE || (query.compare b a).isLE := by
  have hsort : query.sort.compare b a = (query.sort.compare a b).swap := Std.OrientedCmp.eq_swap
  have hswap : query.compare b a = (query.compare a b).swap := by
    unfold ParticipantQuery.compare
    cases query.order.getD .asc with
    | asc => exact hsort
    | desc => exact congrArg Ordering.swap hsort
  rw [hswap]
  cases query.compare a b <;> rfl

theorem sorted_perm (items : List ParticipantListItem) : (query.sorted items).Perm items :=
  List.mergeSort_perm items _

theorem sorted_pairwise (items : List ParticipantListItem) :
    (query.sorted items).Pairwise fun a b => query.compare a b ≠ .gt := by
  refine (List.pairwise_mergeSort query.isLE_trans query.isLE_total items).imp fun h hgt => ?_
  simp [hgt] at h

end ParticipantQuery

/-! ## Walks -/

section

variable {t : CursorText} {lower : String → String} {db : BroadcastDb} {broadcast : Broadcast}
  {participants : List LivekitParticipantInfo} {query : ParticipantQuery}

/-- No page is made of more rows than the limit. -/
theorem hasNextPage_getLiveParticipants {id : Uuid} {page : CursorPage ParticipantListItem}
    (h : getLiveParticipants t lower db participants id query = .ok page) :
    page.hasNextPage = false := by
  unfold getLiveParticipants at h
  split at h
  · cases h
  · split at h
    · cases h
    · split at h
      · rw [← Except.ok.inj h]
      · dsimp only at h
        split at h
        · cases h
        · rw [← Except.ok.inj h, CursorPage.fromRows_of_le (List.length_take_le _ _)]

variable (t lower participants query) in
theorem getLiveParticipants_first
    (hrow : BroadcastRepository.findById db broadcast.id = some broadcast)
    (hactive : broadcast.status = .active) :
    ∃ page, getLiveParticipants t lower db participants broadcast.id (query.resume none) = .ok page ∧
      page.data = (query.sorted (liveMatching lower db broadcast query participants)).take
        query.pagination.pageLimit.toNat := by
  have hlive : broadcast.isActive = true := by simp [Broadcast.isActive, hactive]
  cases participants with
  | nil =>
    refine ⟨{ data := [], nextCursor := none, hasNextPage := false }, ?_, ?_⟩
    · simp [getLiveParticipants, hrow, hlive]
    · simp [liveMatching, ParticipantQuery.sorted]
  | cons p ps =>
    refine ⟨.fromRows ((query.sorted (liveMatching lower db broadcast query (p :: ps))).take
      query.pagination.pageLimit.toNat) query.pagination.pageLimit (liveCursor t query.sort), ?_, ?_⟩
    · simp only [getLiveParticipants, hrow, hlive, List.isEmpty_cons]
      rfl
    · rw [CursorPage.fromRows_of_le (List.length_take_le _ _)]

/-- A walk ends on its first page. -/
theorem walk_live_iff (hrow : BroadcastRepository.findById db broadcast.id = some broadcast)
    (hactive : broadcast.status = .active) {items : List ParticipantListItem} :
    Walk (fun _ c => getLiveParticipants t lower db participants broadcast.id (query.resume c)) 0 none
        items ↔
      items = (query.sorted (liveMatching lower db broadcast query participants)).take
        query.pagination.pageLimit.toNat := by
  obtain ⟨page, hpage, hdata⟩ :=
    getLiveParticipants_first t lower participants query hrow hactive
  constructor
  · intro hwalk
    cases hwalk with
    | last h _ =>
      rw [hpage, Except.ok.injEq] at h
      rw [← h, hdata]
    | next h hnext _ _ =>
      rw [hasNextPage_getLiveParticipants h] at hnext
      cases hnext
  · rintro rfl
    rw [← hdata]
    exact .last hpage (hasNextPage_getLiveParticipants hpage)

theorem not_showsLive (hrow : BroadcastRepository.findById db broadcast.id = some broadcast)
    (hactive : broadcast.status = .active)
    (hlong : query.pagination.pageLimit.toNat <
      (liveMatching lower db broadcast query participants).length) :
    ¬ ShowsLive t lower db broadcast participants query := by
  rintro ⟨items, hwalk, hperm, -⟩
  have hlength := hperm.length_eq
  rw [(walk_live_iff hrow hactive).1 hwalk, List.length_take] at hlength
  omega

/-- All are shown, if they fit on one page. -/
theorem live_participants_shown_iff
    (hrow : BroadcastRepository.findById db broadcast.id = some broadcast)
    (hactive : broadcast.status = .active) :
    ShowsLive t lower db broadcast participants query ↔
      (liveMatching lower db broadcast query participants).length ≤
        query.pagination.pageLimit.toNat := by
  constructor
  · intro h
    by_contra hlong
    exact not_showsLive hrow hactive (by omega) h
  · intro hle
    have hperm := query.sorted_perm (liveMatching lower db broadcast query participants)
    have htake : (query.sorted (liveMatching lower db broadcast query participants)).take
        query.pagination.pageLimit.toNat =
          query.sorted (liveMatching lower db broadcast query participants) :=
      List.take_of_length_le (by rw [hperm.length_eq]; exact hle)
    exact ⟨_, (walk_live_iff hrow hactive).2 htake.symm, hperm, query.sorted_pairwise _⟩

end

/-! ## Runs -/

/-- A live broadcast of user 1. -/
def liveBroadcast : Broadcast where
  id := ⟨8⟩
  title := "Morning prayer"
  description := none
  status := .active
  creatorId := ⟨1⟩
  timeZone := none
  imageUrl := none
  imageId := none
  broadcastToken := none
  totalParticipants := some 0
  startTime := some 0
  endTime := none
  recordingEnabled := false
  recordingUrl := none
  publishedAt := none
  endReason := .none
  createdAt := 0
  updatedAt := 0
  deletedAt := none

def liveDb : BroadcastDb :=
  { twoParticipants.db with broadcasts := Lib.Table.empty.put liveBroadcast }

/-- The host and a participant are in the room. -/
def inRoom : List LivekitParticipantInfo := [⟨⟨2⟩, 6⟩, ⟨⟨1⟩, 5⟩]

theorem live_participants_shown_two :
    ShowsLive .urlSafe String.toLower liveDb liveBroadcast inRoom
      { byRole with pagination := { cursor := none, limit := some 2 } } :=
  (live_participants_shown_iff rfl rfl).2 (by decide)

/-- The second page of two is never asked for. -/
theorem live_second_page_missing :
    ¬ ShowsLive .urlSafe String.toLower liveDb liveBroadcast inRoom byRole :=
  not_showsLive rfl rfl (by decide)

end Meno
