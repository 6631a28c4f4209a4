import Meno.Profile.Histories

/-!
# Meno.Profile.Search

A client searches for profiles and follows `next_cursor` (`SearchWalk`). Three things are in its
way. The statement is not valid SQL, so nothing is ever found (`search_never_works`). The cursor of
a page is one of times, and the repository reads only cursors with a rank; and what Redis keeps for a
search is its first page, whichever page is asked for. Because of these two, a search with more than
one page does not work whatever the statement finds (`not_works_of_long`).
-/

namespace Meno.Profiles

open Lib Lib.Act

open ProfileService ProfileCache

/-! ## What is searched for -/

/-- PostgreSQL's text search: which names a text matches, and how well. -/
structure TextSearch (R : Type) where
  hit : String → String → Bool
  rank : String → String → R

section Wanted

variable {R : Type} [LinearOrder R] (ts : TextSearch R) (db : ProfileDb) (q : String)

def matching : List User :=
  db.users.rows.filter fun u => u.deletedAt.isNone && ts.hit q u.profile.fullName

/-- `ORDER BY rank DESC, created_at DESC, id DESC` -/
def RankedBefore (u u' : User) : Prop :=
  let rank (u : User) := ts.rank q u.profile.fullName
  rank u' < rank u ∨ rank u' = rank u ∧
    (u'.profile.createdAt < u.profile.createdAt ∨
      u'.profile.createdAt = u.profile.createdAt ∧ u'.id ≤ u.id)

def searchResult (viewer : Uuid) (u : User) : ProfileSearchResult where
  id := u.id
  fullName := u.profile.fullName
  bio := u.profile.bio
  avatarUrl := u.profile.avatarUrl
  isFollowing := db.isFollowing u.id viewer
  followers := u.profile.followers
  following := u.profile.following
  broadcasts := u.profile.broadcasts
  createdAt := u.profile.createdAt

/-- Every profile that matches, once, in the order of the ranks. -/
def Wanted (viewer : Uuid) (items : List ProfileSearchResult) : Prop :=
  ∃ users : List User, users.Perm (matching ts db q) ∧ users.Pairwise (RankedBefore ts q) ∧
    items = users.map (searchResult db viewer)

theorem length_of_wanted {ts : TextSearch R} {db : ProfileDb} {q : String} {viewer : Uuid}
    {items : List ProfileSearchResult} (h : Wanted ts db q viewer items) :
    items.length = (matching ts db q).length := by
  obtain ⟨users, hperm, -, rfl⟩ := h
  rw [List.length_map, hperm.length_eq]

end Wanted

/-! ## Walks -/

/-- What the database says to a search. -/
abbrev Statement := ProfileDb → ProfileSearchQuery → Uuid → Except DbError (List ProfileSearchResult)

/-- The statement of the repository. -/
def Statement.sent : Statement := fun _ _ _ => .error .invalidStatement

/-- The store's answers, with those of `statement` to a search. -/
def Store.execSearch (statement : Statement) (tools : Tools) (now later : OffsetDateTime) :
    {β : Type} → ProfileCmd β → Store → β × Store
  | _, .searchProfiles query currentUserId, s => (statement s.db query currentUserId, s)
  | _, c, s => s.exec tools now later c

theorem execSearch_sent (tools : Tools) (now later : OffsetDateTime) {β : Type} (c : ProfileCmd β)
    (s : Store) : s.execSearch .sent tools now later c = s.exec tools now later c := by
  cases c <;> rfl

namespace ProfileSearchQuery

def resume (query : ProfileSearchQuery) (c : Option Cursor) : ProfileSearchQuery :=
  { query with pagination := query.pagination.resume c }

/-- The key of the first page. -/
def cacheKey (tools : Tools) (query : ProfileSearchQuery) : String :=
  RedisKey.searchResults (tools.folded query.q) 0 query.pagination.pageLimit

end ProfileSearchQuery

section Walks

variable (statement : Statement) (tools : Tools) (clock : Nat → OffsetDateTime × OffsetDateTime)
  (query : ProfileSearchQuery) (viewer : Uuid)

/-- The `n`th request of a walk, for the page at `c`. -/
def Store.search (s : Store) (n : Nat) (c : Option Cursor) :
    Except ProfileError (CursorPage ProfileSearchResult) × Store :=
  answer (Store.execSearch statement tools (clock n).1 (clock n).2)
    (searchProfiles tools (query.resume c) viewer) s

/-- The client goes on as long as there is a next page; `items` is all that it is shown. -/
inductive SearchWalk : Nat → Store → Option Cursor → List ProfileSearchResult → Prop where
  | last {n : Nat} {s s' : Store} {c : Option Cursor} {page : CursorPage ProfileSearchResult}
    (h : s.search statement tools clock query viewer n c = (.ok page, s'))
    (hlast : page.hasNextPage = false) : SearchWalk n s c page.data
  | next {n : Nat} {s s' : Store} {c : Option Cursor} {page : CursorPage ProfileSearchResult}
    {c' : Cursor} {items : List ProfileSearchResult}
    (h : s.search statement tools clock query viewer n c = (.ok page, s'))
    (hnext : page.hasNextPage = true) (hcursor : page.nextCursor = some c')
    (hrest : SearchWalk (n + 1) s' (some c') items) : SearchWalk n s c (page.data ++ items)

/-- Redis keeps nothing for the search. -/
def Cold (s : Store) : Prop := s.cache (query.cacheKey tools) = none

/-- Redis keeps what a search without a cursor has found. -/
def Warm {R : Type} [LinearOrder R] (ts : TextSearch R) (s : Store) : Prop :=
  ∃ items, Wanted ts s.db query.q viewer items ∧
    s.cache.find (clock 0).1 (query.cacheKey tools) = some (.array
      ((items.take (query.pagination.pageLimit.toNat + 1)).map (ProfileSearchResult.toValue tools.time)))

/-- With a cold and with a warm cache, a walk comes to its end and shows what is wanted. -/
def SearchWorks {R : Type} [LinearOrder R] (ts : TextSearch R) (db : ProfileDb) : Prop :=
  ∀ s : Store, s.db = db → Cold tools query s ∨ Warm tools clock query viewer ts s →
    ∃ items, SearchWalk statement tools clock query viewer 0 s none items ∧
      Wanted ts db query.q viewer items

end Walks

/-! ## One request -/

section Requests

variable {statement : Statement} {tools : Tools} {clock : Nat → OffsetDateTime × OffsetDateTime}
  {query : ProfileSearchQuery} {viewer : Uuid} {s s' : Store} {n : Nat} {c : Option Cursor}
  {page : CursorPage ProfileSearchResult}

theorem toRankTimestampId_fromTimestampId (ts : OffsetDateTime) (id : Uuid) :
    ProfileRepository.toRankTimestampId tools (Cursor.fromTimestampId .urlSafe ts id) =
      .error .invalidShape := by
  have h : Text.stripPrefix "rank:".toList
      (Text.showInt ts ++ '|' :: (CursorText.urlSafe.uuid id).toList) = none :=
    Cursor.stripPrefix_showInt (by decide) (by decide) ts _
  simp only [Cursor.fromTimestampId, ProfileRepository.toRankTimestampId, Cursor.raw_encode,
    ok_bind, h, okOrShape, error_bind]

theorem answer_refused {now later : OffsetDateTime} {e : CursorError}
    (h : c.map (ProfileRepository.toRankTimestampId tools) = some (.error e)) :
    answer (Store.execSearch statement tools now later)
      (ProfileRepository.searchProfiles tools (query.resume c) viewer) s = (.error (.cursor e), s) := by
  rw [ProfileRepository.searchProfiles]
  dsimp only [ProfileSearchQuery.resume, CursorParams.cursor_resume]
  rw [h]
  rfl

theorem answer_asked {now later : OffsetDateTime}
    (h : ∀ e, c.map (ProfileRepository.toRankTimestampId tools) ≠ some (.error e)) :
    answer (Store.execSearch statement tools now later)
      (ProfileRepository.searchProfiles tools (query.resume c) viewer) s =
        match statement s.db (query.resume c) viewer with
        | .ok results => (.ok results, s)
        | .error e => (.error (.database e), s) := by
  have hask : answer (Store.execSearch statement tools now later)
      (ask ProfileError.database (ProfileCmd.searchProfiles (query.resume c) viewer)) s =
        match statement s.db (query.resume c) viewer with
        | .ok results => (.ok results, s)
        | .error e => (.error (.database e), s) := by
    rw [answer_ask, Store.execSearch]
    cases statement s.db (query.resume c) viewer <;> rfl
  rw [← hask, ProfileRepository.searchProfiles]
  dsimp only [ProfileSearchQuery.resume, CursorParams.cursor_resume]
  cases hcursor : c.map (ProfileRepository.toRankTimestampId tools) with
  | none => rfl
  | some r =>
    cases r with
    | ok pos => rfl
    | error e => exact absurd hcursor (h e)

/-- A page is what Redis keeps, or what the statement finds. -/
theorem search_eq_ok (h : s.search statement tools clock query viewer n c = (.ok page, s')) :
    ∃ results, page = applyCursor results query.pagination.pageLimit ∧
      ((∃ v, s.cache.find (clock n).1 (query.cacheKey tools) = some v ∧
          Value.readList (ProfileSearchResult.fromValue tools.time) v = .ok results ∧ s' = s) ∨
        (∀ e, c.map (ProfileRepository.toRankTimestampId tools) ≠ some (.error e)) ∧
          statement s.db (query.resume c) viewer = .ok results ∧
          (s' = s ∨ s' = { s with cache := s.cache.set (query.cacheKey tools) (some {
            value := .array (results.map (ProfileSearchResult.toValue tools.time))
            deadline := some ((clock n).2 + ttl60Secs * Auth.second) }) })) := by
  have hget : ∀ key, answer (Store.execSearch statement tools (clock n).1 (clock n).2)
      (ask ProfileError.redis (ProfileCmd.get key)) s =
        (.ok (s.cache.find (clock n).1 key), s) := fun key => rfl
  rw [Store.search, ProfileService.searchProfiles, getCachedSearchResults, ProfileCache.get] at h
  dsimp only at h
  rw [answer_bind, answer_bind, hget] at h
  cases hfind : s.cache.find (clock n).1 (RedisKey.searchResults (tools.folded (query.resume c).q) 0
      (query.resume c).pagination.pageLimit) with
  | some v =>
    rw [hfind] at h
    dsimp only at h
    cases hread : Value.readList (ProfileSearchResult.fromValue tools.time) v with
    | ok results =>
      rw [hread] at h
      cases h
      exact ⟨results, rfl, .inl ⟨v, hfind, hread, rfl⟩⟩
    | error e =>
      rw [hread] at h
      cases h
  | none =>
    rw [hfind] at h
    dsimp only [answer_pure] at h
    have hcursor : ∀ e, c.map (ProfileRepository.toRankTimestampId tools) ≠ some (.error e) := by
      intro e he
      rw [answer_bind_error _ (answer_refused he)] at h
      cases h
    rw [answer_bind, answer_asked hcursor] at h
    cases hfound : statement s.db (query.resume c) viewer with
    | error e =>
      rw [hfound] at h
      cases h
    | ok results =>
      rw [hfound] at h
      dsimp only at h
      split at h
      · cases h
        exact ⟨results, rfl, .inr ⟨hcursor, rfl, .inr rfl⟩⟩
      · cases h
        exact ⟨results, rfl, .inr ⟨hcursor, rfl, .inl rfl⟩⟩

theorem nextCursor_applyCursor {results : List ProfileSearchResult} {limit : Int} {c : Cursor}
    (h : (applyCursor results limit).nextCursor = some c) :
    ∃ ts id, c = Cursor.fromTimestampId .urlSafe ts id := by
  rw [applyCursor, CursorPage.fromRows] at h
  dsimp only at h
  split at h
  · obtain ⟨p, -, rfl⟩ := Option.map_eq_some_iff.1 h
    exact ⟨_, _, rfl⟩
  · cases h

theorem hasNextPage_applyCursor (results : List ProfileSearchResult) (limit : Int) :
    (applyCursor results limit).hasNextPage = true ↔ limit.toNat < results.length := by
  rw [applyCursor, CursorPage.fromRows]
  exact decide_eq_true_iff

/-- What Redis keeps for the search, if anything, does not fit on a page. -/
def KeepsMore (tools : Tools) (query : ProfileSearchQuery) (s : Store) : Prop :=
  ∀ e, s.cache (query.cacheKey tools) = some e →
    ∃ vs, e.value = .array vs ∧ query.pagination.pageLimit.toNat < vs.length

/-- As many as there were are read. -/
theorem length_of_readList {α : Type} {read : Value → Except DeError α} {vs : List Value}
    {as : List α} (h : Value.readList read (.array vs) = .ok as) : as.length = vs.length := by
  rw [Value.readList] at h
  induction vs generalizing as with
  | nil =>
    cases h
    rfl
  | cons v vs ih =>
    rw [List.mapM_cons] at h
    obtain ⟨a, -, h⟩ := bind_eq_ok.1 h
    obtain ⟨rest, hrest, hsame⟩ := bind_eq_ok.1 h
    cases hsame
    rw [List.length_cons, List.length_cons, ih hrest]

/-- Behind its first page, a search has no end. -/
theorem never_ends {items : List ProfileSearchResult}
    (h : SearchWalk statement tools clock query viewer n s c items) (hmore : KeepsMore tools query s)
    (hcursor : ∃ ts id, c = some (Cursor.fromTimestampId .urlSafe ts id)) : False := by
  -- A page comes from Redis, which keeps more than a page; the repository refuses the cursor.
  have hpage : ∀ {n : Nat} {s s' : Store} {c : Option Cursor} {page : CursorPage ProfileSearchResult},
      s.search statement tools clock query viewer n c = (.ok page, s') → KeepsMore tools query s →
      (∃ ts id, c = some (Cursor.fromTimestampId .urlSafe ts id)) →
      s' = s ∧ ∃ results, page = applyCursor results query.pagination.pageLimit ∧
        query.pagination.pageLimit.toNat < results.length := by
    intro n s s' c page h hmore hcursor
    obtain ⟨ts, id, rfl⟩ := hcursor
    obtain ⟨results, rfl, ⟨v, hfind, hread, rfl⟩ | ⟨hrefused, -⟩⟩ := search_eq_ok h
    · obtain ⟨e, he, rfl, -⟩ := Expiring.find_eq_some hfind
      obtain ⟨vs, hvs, hlength⟩ := hmore e he
      rw [hvs] at hread
      exact ⟨rfl, results, rfl, by rw [length_of_readList hread]; exact hlength⟩
    · exact absurd (congrArg some (toRankTimestampId_fromTimestampId ts id)) (hrefused _)
  induction h with
  | last h hlast =>
    obtain ⟨-, results, rfl, hlength⟩ := hpage h hmore hcursor
    rw [(hasNextPage_applyCursor _ _).2 hlength] at hlast
    cases hlast
  | next h hnext hnextCursor hrest ih =>
    obtain ⟨rfl, results, rfl, -⟩ := hpage h hmore hcursor
    obtain ⟨ts, id, rfl⟩ := nextCursor_applyCursor hnextCursor
    exact ih hmore ⟨ts, id, rfl⟩

end Requests

/-! ## Searches -/

section Searches

variable {R : Type} [LinearOrder R] {ts : TextSearch R} {statement : Statement} {tools : Tools}
  {clock : Nat → OffsetDateTime × OffsetDateTime} {query : ProfileSearchQuery} {viewer : Uuid}
  {db : ProfileDb}

/-- A store that keeps nothing. -/
def Store.fresh (db : ProfileDb) : Store where
  cache := .empty
  db := db
  objects := []
  deletions := []

/-- A search works only if its first request is answered. -/
theorem first_answered (h : SearchWorks statement tools clock query viewer ts db) :
    ∃ results, statement db (query.resume none) viewer = .ok results := by
  obtain ⟨items, hwalk, -⟩ := h (.fresh db) rfl (.inl rfl)
  obtain ⟨page, s', hfirst⟩ : ∃ page s',
      (Store.fresh db).search statement tools clock query viewer 0 none = (.ok page, s') := by
    cases hwalk with
    | last h _ => exact ⟨_, _, h⟩
    | next h _ _ _ => exact ⟨_, _, h⟩
  obtain ⟨results, -, ⟨v, hfind, -⟩ | ⟨-, hfound, -⟩⟩ := search_eq_ok hfirst
  · cases hfind
  · exact ⟨results, hfound⟩

/-- Whatever the statement finds, a search does not work that has more than one page. -/
theorem not_works_of_long (hlong : query.pagination.pageLimit.toNat < (matching ts db query.q).length) :
    ¬ SearchWorks statement tools clock query viewer ts db := by
  intro h
  obtain ⟨items, hwalk, hwanted⟩ := h (.fresh db) rfl (.inl rfl)
  cases hwalk with
  | last hfirst hlast =>
    obtain ⟨results, rfl, -⟩ := search_eq_ok hfirst
    have hlength := length_of_wanted hwanted
    have hshort : results.length ≤ query.pagination.pageLimit.toNat := by
      by_contra hmore
      rw [(hasNextPage_applyCursor _ _).2 (by omega)] at hlast
      cases hlast
    rw [applyCursor, CursorPage.fromRows_of_le hshort] at hlength
    dsimp only at hlength
    omega
  | next hfirst hnext hcursor hrest =>
    obtain ⟨results, rfl, ⟨v, hfind, -⟩ | ⟨-, -, hcache⟩⟩ := search_eq_ok hfirst
    · cases hfind
    · rw [hasNextPage_applyCursor] at hnext
      obtain ⟨time, id, rfl⟩ := nextCursor_applyCursor hcursor
      refine never_ends hrest ?_ ⟨time, id, rfl⟩
      intro e he
      rcases hcache with rfl | rfl
      · cases he
      · dsimp only at he
        rw [Expiring.set_apply, if_pos rfl] at he
        cases he
        exact ⟨_, rfl, by rw [List.length_map]; exact hnext⟩

/-- **No search works**: the statement that is sent is refused. -/
theorem search_never_works (ts : TextSearch R) (tools : Tools)
    (clock : Nat → OffsetDateTime × OffsetDateTime) (db : ProfileDb) (query : ProfileSearchQuery)
    (viewer : Uuid) : ¬ SearchWorks .sent tools clock query viewer ts db := by
  intro h
  obtain ⟨results, hfound⟩ := first_answered h
  cases hfound

end Searches

/-- A search that finds nobody, in an empty table, fails as well. -/
theorem empty_search_fails :
    ¬ ∀ (ts : TextSearch Nat) (tools : Tools) (clock : Nat → OffsetDateTime × OffsetDateTime)
      (db : ProfileDb) (query : ProfileSearchQuery) (viewer : Uuid),
      SearchWorks .sent tools clock query viewer ts db := by
  intro h
  obtain ⟨results, hfound⟩ := first_answered (h ⟨fun _ _ => false, fun _ _ => 0⟩ plainTools
    (fun _ => (0, 0)) ⟨.empty, .empty, [], []⟩ ⟨"alice", ⟨none, none⟩⟩ ⟨1⟩)
  cases hfound

end Meno.Profiles
