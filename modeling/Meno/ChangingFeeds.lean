import Mathlib.Data.Fintype.EquivFin
import Mathlib.Data.Prod.Lex
import Mathlib.Data.Int.Interval
import Meno.Feeds
import Meno.Lib.Pages

/-!
# Meno.ChangingFeeds

The lists that go by time, while the tables change. Between two requests of a walk anything may be
written. The walk goes on behind the last item that it has shown, so nothing is shown twice, and
what is there all the time is not left out.
-/

namespace Meno

open Lib Lib.Sql

/-! ## Places -/

/-- The newest stand first, of two of the same time the one with the greater id. -/
def newestPlace (time : OffsetDateTime) (id : Uuid) : (OffsetDateTime ×ₗ Uuid)ᵒᵈ :=
  OrderDual.toDual (toLex (time, id))

section Places

variable {α : Type} {time : α → OffsetDateTime} {id : α → Uuid} {a b : α}

theorem newestPlace_lt_iff : newestPlace (time a) (id a) < newestPlace (time b) (id b) ↔
    newerFirst time id a b := by
  rw [newestPlace, newestPlace, OrderDual.toDual_lt_toDual, Prod.Lex.toLex_lt_toLex]
  rfl

theorem newestPlace_inj {ts ts' : OffsetDateTime} {i i' : Uuid}
    (h : newestPlace ts i = newestPlace ts' i') : ts = ts' ∧ i = i' := by
  have hpair : (ts, i) = (ts', i') := toLex.injective (OrderDual.toDual.injective h)
  exact Prod.mk.inj hpair

theorem finite_uuid : Finite Uuid :=
  Finite.of_injective (fun id : Uuid => id.bits.toFin) fun _ _ h =>
    Uuid.toNat_inj (congrArg Fin.val h)

/-- There are only so many times that can be stored. -/
theorem finite_places :
    {p : (OffsetDateTime ×ₗ Uuid)ᵒᵈ | representable (ofLex (OrderDual.ofDual p)).1}.Finite := by
  have htimes : {ts : Int | representable ts = true}.Finite := by
    refine (Set.finite_Icc (-377705116800000000000) 253402300799999999999).subset fun ts hts => ?_
    simpa [representable] using hts
  have hids : (Set.univ : Set Uuid).Finite := Set.finite_univ_iff.2 finite_uuid
  refine ((htimes.prod hids).image fun p => newestPlace p.1 p.2).subset ?_
  intro p hp
  exact ⟨ofLex (OrderDual.ofDual p), ⟨hp, trivial⟩, rfl⟩

end Places

/-! ## Walks -/

section Walks

variable {α π ε : Type} [LinearOrder π] {fetch : Nat → Option Cursor → Except ε (CursorPage α)}
  {rows : Nat → List α} {place : α → π} {limit : Int}

/-- The request at `c` goes on behind `p`: an item that was listed at some time. -/
def Continues (rows : Nat → List α) (place : α → π) (encode : α → Cursor) (c : Option Cursor)
    (p : Option π) : Prop :=
  c = none ∧ p = none ∨ ∃ m, ∃ a ∈ rows m, c = some (encode a) ∧ p = some (place a)

theorem walk_of_pages (encode : α → Cursor)
    (hfetch : ∀ n c p, Continues rows place encode c p → fetch n c =
      .ok (.fromRows ((rowsBehind place p (rows n)).take (limit.toNat + 1)) limit encode))
    {n : Nat} {p : Option π} {xs : List α} (h : Pages rows place limit.toNat n p xs)
    {c : Option Cursor} (hat : Continues rows place encode c p) : Walk fetch n c xs := by
  induction h generalizing c with
  | @last n p hshort =>
    have hpage := hfetch n c p hat
    rw [List.take_of_length_le (by omega), CursorPage.fromRows_of_le hshort] at hpage
    exact .last hpage rfl
  | @more n p pre post xs a hrest hlen hpost hnext ih =>
    have hpage := hfetch n c p hat
    have htake : (rowsBehind place p (rows n)).take (limit.toNat + 1) =
        pre ++ a :: post.take 1 := by
      rw [hrest, show pre ++ a :: post = (pre ++ [a]) ++ post by simp,
        show limit.toNat + 1 = (pre ++ [a]).length + 1 by simp [hlen], List.take_length_add_append]
      simp
    rw [CursorPage.fromRows_of_append htake hlen (by simpa using hpost)] at hpage
    have ha : a ∈ rowsBehind place p (rows n) := by simp [hrest]
    have hwalk := Walk.next hpage rfl rfl (ih (.inr ⟨n, a, (mem_rowsBehind.1 ha).1, rfl, rfl⟩))
    simpa using hwalk

end Walks

/-- A walk comes to its end whatever is written between its requests. What it shows is in the order
of time and id, so nothing is shown twice; all of it has been listed; and what is listed at every
request, under one time and id, is shown. -/
def ShowsStanding {α : Type} (fetch : Nat → Option Cursor → Except ListError (CursorPage α))
    (listed : Nat → List α) (createdAt : α → OffsetDateTime) (id : α → Uuid) : Prop :=
  ∃ items, Walk fetch 0 none items ∧ items.Pairwise (newerFirst createdAt id) ∧
    (∀ x ∈ items, ∃ n, x ∈ listed n) ∧
    ∀ ts i, (∀ n, ∃ x ∈ listed n, createdAt x = ts ∧ id x = i) →
      ∃ x ∈ items, createdAt x = ts ∧ id x = i

section TimestampWalks

variable {ρ α : Type} {t : CursorText} {matching : ρ → Bool} {limit : Int}
  {select : Option OffsetDateTime → Option Uuid → Select ρ SqlValue} {time : ρ → OffsetDateTime}
  {id : ρ → Uuid} {createdAt : α → OffsetDateTime} {itemId : α → Uuid}

/-- What a request without a cursor lists, were there no limit. -/
def shown (k : Nulls) (time : ρ → OffsetDateTime) (id : ρ → Uuid) (matching : ρ → Bool)
    (rows : List ρ) (item : ρ → α) : List α :=
  (sort (sameKeys .desc k (timestampCols time id)) (rows.filter matching)).map item

/-- The condition of a request with a cursor. -/
theorem beyond_iff (h : ListsByTime select time id matching limit) {ts : OffsetDateTime} {i : Uuid}
    {r : ρ} : (select (some ts) (some i)).beyond r = true ↔
      newestPlace ts i < newestPlace (time r) (id r) := by
  rw [newestPlace, newestPlace, OrderDual.toDual_lt_toDual, Prod.Lex.toLex_lt_toLex]
  simp only [Select.beyond, h.seek, Option.all_some, RowCondition.eval, timestampCols,
    List.map_cons, List.map_nil, compareRow, SqlValue.compare_timestamptz, SqlValue.compare_uuid,
    beq_iff_eq]
  have hids : (compare ((id r).bits.toNat : Int) i.bits.toNat = .lt) ↔ id r < i := by
    rw [Std.compare_eq_lt, Uuid.lt_iff]
    exact Int.ofNat_lt
  cases htime : compare (time r) ts with
  | lt =>
    have hlt : time r < ts := Std.compare_eq_lt.1 htime
    simp [CompareOp.holds, hlt]
  | gt =>
    have hgt : ts < time r := Std.compare_eq_gt.1 htime
    simp [CompareOp.holds, hgt.not_gt, hgt.ne']
  | eq =>
    have heq : time r = ts := Std.LawfulEqOrd.eq_of_compare htime
    simp only [heq, lt_self_iff_false, true_and, false_or, ← hids]
    cases compare ((id r).bits.toNat : Int) i.bits.toNat <;> simp [CompareOp.holds]

/-- A request lists what stands behind its cursor. -/
theorem timestampPage_eq (h : ListsByTime select time id matching limit) {keywords : Option String}
    (hkw : keywords.all storable = true) {k : Nulls}
    (hkeys : ∀ ts i, (select ts i).orderBy.mapM SortItem.key =
      .ok (sameKeys .desc k (timestampCols time id)))
    {rows : List ρ} (hid : ((rows.filter matching).map id).Nodup) {item : ρ → α}
    (hitem : ∀ r ∈ rows, createdAt (item r) = time r ∧ itemId (item r) = id r)
    {c : Option Cursor} {p : Option (OffsetDateTime × Uuid)}
    (hc : c = none ∧ p = none ∨ ∃ ts i, representable ts = true ∧
      c = some (.fromTimestampId t ts i) ∧ p = some (ts, i)) :
    timestampPage t select keywords rows limit item createdAt itemId c =
      .ok (.fromRows ((rowsBehind (fun x => newestPlace (createdAt x) (itemId x))
        (p.map fun q => newestPlace q.1 q.2)
        (shown k time id matching rows item)).take (limit.toNat + 1)) limit
          fun x => .fromTimestampId t (createdAt x) (itemId x)) := by
  have hmem : ∀ r ∈ sort (sameKeys .desc k (timestampCols time id)) (rows.filter matching),
      r ∈ rows := fun r hr => List.mem_of_mem_filter (mem_sort.1 hr)
  rcases hc with ⟨rfl, rfl⟩ | ⟨ts, i, hrepr, rfl, rfl⟩
  · have hfetch := fetchAll_eq h hkw hkeys hid none none (by simp [h.first])
    have hbeyond : (select none none).beyond = fun _ => true := by
      funext r
      simp [Select.beyond, h.first]
    simp only [timestampPage, timestampCursor, ok_bind, hfetch, hbeyond, pure_ok, List.filter_true,
      List.map_take, Option.map_none, rowsBehind_none, shown]
  · have hdecode := Cursor.toTimestampId_fromTimestampId (t := t) hrepr i
    have hfetch := fetchAll_eq h hkw hkeys hid (some ts) (some i) (by simp [h.seek, timestampCols])
    simp only [timestampPage, timestampCursor, hdecode, ok_bind, hfetch, pure_ok, List.map_take,
      rowsBehind, shown, List.filter_map]
    congr 4
    refine List.filter_congr fun r hr => ?_
    obtain ⟨hcreated, hid⟩ := hitem r (hmem r hr)
    rw [Bool.eq_iff_iff, beyond_iff h]
    simp [hcreated, hid]

section Shown

variable {k : Nulls} {rows : List ρ} {item : ρ → α}
  (hitem : ∀ r ∈ rows, createdAt (item r) = time r ∧ itemId (item r) = id r)
include hitem

theorem row_of_shown {x : α} (hx : x ∈ shown k time id matching rows item) :
    ∃ r ∈ rows, createdAt x = time r ∧ itemId x = id r := by
  obtain ⟨r, hr, rfl⟩ := List.mem_map.1 hx
  have hr := List.mem_of_mem_filter (mem_sort.1 hr)
  exact ⟨r, hr, hitem r hr⟩

theorem shown_sorted (hid : ((rows.filter matching).map id).Nodup) :
    (shown k time id matching rows item).Pairwise fun a b =>
      newestPlace (createdAt a) (itemId a) < newestPlace (createdAt b) (itemId b) := by
  refine List.pairwise_map.2 ((sort_pairwise (identify_timestamp hid)
    (List.Nodup.of_map id hid)).imp_of_mem fun {a b} ha hb hab => ?_)
  obtain ⟨ha1, ha2⟩ := hitem a (List.mem_of_mem_filter (mem_sort.1 ha))
  obtain ⟨hb1, hb2⟩ := hitem b (List.mem_of_mem_filter (mem_sort.1 hb))
  rw [ha1, ha2, hb1, hb2]
  exact newestPlace_lt_iff.2 (newerFirst_of_compareKeys hab)

end Shown

theorem timestamp_walk_changing (h : ListsByTime select time id matching limit)
    {keywords : Option String} (hkw : keywords.all storable = true) (hpos : 0 < limit.toNat)
    {rows : Nat → List ρ} (hid : ∀ n, (((rows n).filter matching).map id).Nodup)
    (htime : ∀ n, ∀ r ∈ rows n, representable (time r) = true) {item : Nat → ρ → α}
    (hitem : ∀ n, ∀ r ∈ rows n, createdAt (item n r) = time r ∧ itemId (item n r) = id r) :
    ShowsStanding
      (fun n => timestampPage t select keywords (rows n) limit (item n) createdAt itemId)
      (fun n => ((rows n).filter matching).map (item n)) createdAt itemId := by
  obtain ⟨k, hkeys⟩ := h.orderBy
  let listed := fun n => shown k time id matching (rows n) (item n)
  let place := fun x : α => newestPlace (createdAt x) (itemId x)
  have hperm : ∀ n, (listed n).Perm (((rows n).filter matching).map (item n)) := fun n =>
    (sort_perm _ _).map _
  have hsorted : ∀ n, (listed n).Pairwise fun a b => place a < place b := fun n =>
    shown_sorted (hitem n) (hid n)
  have hrepr : ∀ n, ∀ x ∈ listed n, representable (createdAt x) = true := by
    intro n x hx
    obtain ⟨r, hr, hcreated, -⟩ := row_of_shown (hitem n) hx
    rw [hcreated]
    exact htime n r hr
  obtain ⟨items, hpages⟩ := Pages.exists_of_finite place hpos finite_places hrepr 0 none (by simp)
  refine ⟨items, walk_of_pages (fun x => .fromTimestampId t (createdAt x) (itemId x)) ?_ hpages
    (.inl ⟨rfl, rfl⟩), (hpages.sorted hsorted).imp newestPlace_lt_iff.1, ?_, ?_⟩
  · rintro n c p (⟨rfl, rfl⟩ | ⟨m, a, ha, rfl, rfl⟩)
    · exact timestampPage_eq h hkw hkeys (hid n) (hitem n) (p := none) (.inl ⟨rfl, rfl⟩)
    · exact timestampPage_eq h hkw hkeys (hid n) (hitem n) (p := some (createdAt a, itemId a))
        (.inr ⟨_, _, hrepr m a ha, rfl, rfl⟩)
  · intro x hx
    obtain ⟨n, hn⟩ := hpages.mem_rows x hx
    exact ⟨n, (hperm n).mem_iff.1 hn⟩
  · intro ts i hstays
    have hstands : ∀ n, 0 ≤ n → ∃ x ∈ listed n, place x = newestPlace ts i := by
      intro n _
      obtain ⟨x, hx, rfl, rfl⟩ := hstays n
      exact ⟨x, (hperm n).mem_iff.2 hx, rfl⟩
    obtain ⟨x, hx, hplace⟩ := hpages.complete hsorted (by simp) hstands
    exact ⟨x, hx, newestPlace_inj hplace⟩

end TimestampWalks

/-! ## The lists -/

section Feeds

variable {t : CursorText} {search : String → String → Bool}

theorem notes_standing {query : NotesQuery} (hkw : query.keywords.all storable = true)
    (db : Nat → FeedDb) (creatorId : Uuid) :
    ShowsStanding
      (fun n c => NotesService.getNotes t search (db n).notes creatorId (query.resume c))
      (fun n => ((db n).notes.notes.rows.filter (query.wants search creatorId)).map Dto.ofRow)
      Dto.createdAt Dto.id := by
  have hpos := query.pagination.pageLimit_pos
  have hlists := listsByTime_push (NotesRepository.notesWhere search creatorId query)
    (by simp [NotesRepository.notesWhere]) hpos.le Row.createdAt Row.id
  rw [matching_notesWhere] at hlists
  simp only [getNotes_resume]
  exact timestamp_walk_changing hlists hkw (by omega)
    (fun n => (db n).notes.notes.nodup.sublist (List.filter_sublist.map _))
    (fun n => (db n).noteTimes) fun _ _ _ => ⟨rfl, rfl⟩

theorem folders_standing {query : FoldersQuery} (hkw : query.keywords.all storable = true)
    (db : Nat → FeedDb) (creatorId : Uuid) :
    ShowsStanding
      (fun n c => NotesService.getFolders t search (db n).notes creatorId (query.resume c))
      (fun n => ((db n).notes.folders.rows.filter (query.wants search creatorId)).map Dto.ofRow)
      Dto.createdAt Dto.id := by
  have hpos := query.pagination.pageLimit_pos
  have hlists := listsByTime_push (NotesRepository.foldersWhere search creatorId query)
    (by simp [NotesRepository.foldersWhere]) hpos.le Row.createdAt Row.id
  rw [matching_foldersWhere] at hlists
  simp only [getFolders_resume]
  exact timestamp_walk_changing hlists hkw (by omega)
    (fun n => (db n).notes.folders.nodup.sublist (List.filter_sublist.map _))
    (fun n => (db n).folderTimes) fun _ _ _ => ⟨rfl, rfl⟩

theorem messages_standing (query : ChatMessageQuery) (db : Nat → FeedDb) :
    ShowsStanding (fun n c => ChatService.fetchMessages t (db n).chat (query.resume c))
      (fun n => ((ChatRepository.messagesOfUsers (db n).chat).filter query.wants).map
        ChatMessageRow.response)
      ChatMessageResponse.createdAt ChatMessageResponse.id := by
  have hpos := query.pagination.pageLimit_pos
  have hlists := listsByTime_push (ChatRepository.messagesWhere query.broadcastId)
    (by simp [ChatRepository.messagesWhere]) hpos.le ChatMessageRow.createdAt ChatMessageRow.id
  have hwants : (ChatRepository.messagesWhere query.broadcastId).matching = query.wants := by
    funext m
    simp [ChatRepository.messagesWhere, ChatMessageQuery.wants]
  rw [hwants] at hlists
  simp only [fetchMessages_resume]
  refine timestamp_walk_changing hlists rfl (by omega) (fun n => ?_) (fun n r hr => ?_)
    fun _ _ _ => ⟨rfl, rfl⟩
  · exact (db n).chat.messages.nodup.sublist ((List.filter_sublist.map _).trans
      (map_filterMap_sublist (fun _ _ h => (messageOfUser h).1) _))
  · obtain ⟨m, hm, hr⟩ := List.mem_filterMap.1 hr
    rw [(messageOfUser hr).2]
    exact (db n).messageTimes m hm

theorem nodup_join {owner other : UserSubscriber → Uuid} (hapart : TellsApart owner other)
    (db : CountedDb) (id : Uuid) :
    (((SubscribersRepository.subscribersJoin db other).filter fun r => owner r.1 == id).map
      fun r => other r.1).Nodup := by
  have hkeys : ((SubscribersRepository.subscribersJoin db other).map fun r => r.1.key).Nodup :=
    db.subscribers.nodup.sublist
      (map_filterMap_sublist (fun _ _ h => congrArg _ (subscribersJoin_mem h).1) _)
  refine List.Nodup.map_on ?_ (List.Nodup.filter _ (List.Nodup.of_map _ hkeys))
  intro a ha b hb hab
  obtain ⟨ha, hida⟩ := List.mem_filter.1 ha
  obtain ⟨hb, hidb⟩ := List.mem_filter.1 hb
  have howner : owner a.1 = owner b.1 := (beq_iff_eq.1 hida).trans (beq_iff_eq.1 hidb).symm
  exact List.inj_on_of_nodup_map hkeys ha hb (hapart _ _ howner hab)

theorem list_standing {owner other : UserSubscriber → Uuid} (hapart : TellsApart owner other)
    (db : Nat → FeedDb) (id : Uuid) (viewerId : Option Uuid) (params : CursorParams) :
    ShowsStanding
      (fun n c => SubscribersRepository.findList t owner other (db n).subscribers id viewerId
        (params.resume c) >>= fun rows => .ok (SubscribersService.page t (params.resume c) rows))
      (fun n => ((SubscribersRepository.subscribersJoin (db n).subscribers other).filter
        fun row => owner row.1 == id).map ((db n).subscribers.subscriberItem viewerId))
      SubscriberItem.subscribedAt SubscriberItem.id := by
  have hpos := params.pageLimit_pos
  have hlists := listsByTime_push
    ({ conditions := [fun r => some (owner r.1 == id)] } : Select (UserSubscriber × User) SqlValue)
    rfl hpos.le (fun r => r.1.createdAt) (fun r => other r.1)
  have hwants : ({ conditions := [fun r => some (owner r.1 == id)] } :
      Select (UserSubscriber × User) SqlValue).matching = fun r => owner r.1 == id := by
    funext r
    simp
  rw [hwants] at hlists
  simp only [findList_resume]
  refine timestamp_walk_changing hlists rfl (by omega) (fun n => ?_) (fun n r hr => ?_)
    fun n r hr => ?_
  · exact nodup_join hapart (db n).subscribers id
  · obtain ⟨us, hus, hr⟩ := List.mem_filterMap.1 hr
    obtain ⟨rfl, -⟩ := subscribersJoin_mem hr
    exact (db n).subscriberTimes r.1 hus
  · obtain ⟨us, -, hr⟩ := List.mem_filterMap.1 hr
    obtain ⟨rfl, hid⟩ := subscribersJoin_mem hr
    exact ⟨rfl, hid⟩

theorem notifications_standing (query : NotificationQuery) (db : Nat → FeedDb) (ownerId : Uuid) :
    ShowsStanding
      (fun n c => NotificationService.list t (db n).notifications ownerId (query.resume c))
      (fun n => ((NotificationRepository.notificationRows (db n).notifications).filter
        (query.wants ownerId)).map (NotificationService.render t ∘ NotificationRepository.listItem))
      NotificationListItem.createdAt NotificationListItem.id := by
  have hpos := query.pagination.pageLimit_pos
  simp only [list_resume]
  refine timestamp_walk_changing (listsByTime_notifications query ownerId) rfl (by omega)
    (fun n => ?_) (fun n r hr => ?_) fun _ _ _ => ⟨rfl, rfl⟩
  · exact (db n).notifications.notifications.nodup.sublist ((List.filter_sublist.map _).trans
      (map_filterMap_sublist (fun _ _ h => congrArg _ (notificationRows_mem h)) _))
  · obtain ⟨m, hm, hr⟩ := List.mem_filterMap.1 hr
    rw [notificationRows_mem hr]
    exact (db n).notificationTimes m hm

end Feeds

/-- The six lists, each walked with its filter and limit; `db n` is what the `n`th request finds. -/
structure FeedsShowStanding (t : CursorText) (search : String → String → Bool) (db : Nat → FeedDb)
    (q : FeedRequest) : Prop where
  notes : ShowsStanding
    (fun n c => NotesService.getNotes t search (db n).notes q.userId (q.notesQuery.resume c))
    (fun n => ((db n).notes.notes.rows.filter (q.notesQuery.wants search q.userId)).map Dto.ofRow)
    Dto.createdAt Dto.id
  folders : ShowsStanding
    (fun n c => NotesService.getFolders t search (db n).notes q.userId (q.foldersQuery.resume c))
    (fun n =>
      ((db n).notes.folders.rows.filter (q.foldersQuery.wants search q.userId)).map Dto.ofRow)
    Dto.createdAt Dto.id
  messages : ShowsStanding
    (fun n c => ChatService.fetchMessages t (db n).chat (q.messageQuery.resume c))
    (fun n => ((ChatRepository.messagesOfUsers (db n).chat).filter q.messageQuery.wants).map
      ChatMessageRow.response)
    ChatMessageResponse.createdAt ChatMessageResponse.id
  subscribers : ShowsStanding
    (fun n c => SubscribersService.userSubscribers t (db n).subscribers q.userId q.viewerId
      (q.params.resume c))
    (fun n => ((SubscribersRepository.subscribersJoin (db n).subscribers
      UserSubscriber.subscriberId).filter fun row => row.1.subscriptionId == q.userId).map
        ((db n).subscribers.subscriberItem q.viewerId))
    SubscriberItem.subscribedAt SubscriberItem.id
  subscriptions : ShowsStanding
    (fun n c => SubscribersService.userSubscriptions t (db n).subscribers q.userId q.viewerId
      (q.params.resume c))
    (fun n => ((SubscribersRepository.subscribersJoin (db n).subscribers
      UserSubscriber.subscriptionId).filter fun row => row.1.subscriberId == q.userId).map
        ((db n).subscribers.subscriberItem q.viewerId))
    SubscriberItem.subscribedAt SubscriberItem.id
  notifications : ShowsStanding
    (fun n c =>
      NotificationService.list t (db n).notifications q.userId (q.notificationQuery.resume c))
    (fun n => ((NotificationRepository.notificationRows (db n).notifications).filter
      (q.notificationQuery.wants q.userId)).map
        (NotificationService.render t ∘ NotificationRepository.listItem))
    NotificationListItem.createdAt NotificationListItem.id

/-- For all that may be written between the requests, every filter and every limit. -/
theorem feeds_show_standing (t : CursorText) (search : String → String → Bool) (db : Nat → FeedDb)
    (q : FeedRequest) (hkw : q.storable) : FeedsShowStanding t search db q where
  notes := notes_standing hkw.1 db q.userId
  folders := folders_standing hkw.2 db q.userId
  messages := messages_standing q.messageQuery db
  subscribers := list_standing (fun _ _ h1 h2 => Prod.ext h2 h1) db q.userId q.viewerId q.params
  subscriptions := list_standing (fun _ _ h1 h2 => Prod.ext h1 h2) db q.userId q.viewerId q.params
  notifications := notifications_standing q.notificationQuery db q.userId

/-- One of two notes is deleted behind the back of the walk. -/
theorem feeds_show_standing_deleted : FeedsShowStanding .urlSafe (fun _ _ => true)
    (fun n => if n = 0 then twoNotes else
      { twoNotes with
        notes := { twoNotes.notes with
          notes := twoNotes.notes.notes.put { noteRow 2 with deletedAt := some 6 } }
        noteTimes := by decide })
    (onePerPage none) :=
  feeds_show_standing .urlSafe (fun _ _ => true) _ (onePerPage none) ⟨rfl, rfl⟩

end Meno
