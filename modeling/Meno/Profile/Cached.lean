import Meno.Lib.CacheAside
import Meno.Profile.Service

/-!
# Meno.Profile.Cached

Under one key, Redis holds the user's own view of the profile or somebody else's view of it,
whichever was asked for first. `Agrees` ties it to a cache of views (`views`), and `request_spec` says
what a request does to that.
-/

namespace Meno.Profiles

open Lib

open ProfileService ProfileCache

/-! ## Views -/

/-- A request for a profile: `get_me`, and `get_user_by_id`. -/
inductive Read where
  | me (userId : Uuid)
  | profile (authUserId userId : Uuid)
deriving DecidableEq

namespace Read

def userId : Read → Uuid
  | me userId => userId
  | profile _ userId => userId

def isMe : Read → Bool
  | me _ => true
  | profile _ _ => false

end Read

inductive View where
  | me (r : MeResponse)
  | profile (r : PublicProfileResponse)

namespace View

def isMe : View → Bool
  | me _ => true
  | profile _ => false

def createdAt : View → OffsetDateTime
  | me r => r.createdAt
  | profile r => r.createdAt

def toValue (t : Rfc3339) : View → Value
  | me r => r.toValue t
  | profile r => r.toValue t

/-- Whoever asks for this kind of view can read it. -/
def Readable : View → Prop
  | me r => r.Readable
  | profile _ => True

instance : (v : View) → Decidable v.Readable
  | me r => inferInstanceAs (Decidable r.Readable)
  | profile _ => inferInstanceAs (Decidable True)

end View

/-- What a request sees in the database. -/
def Read.view (db : ProfileDb) : Read → Option View
  | .me userId => (db.findById userId).map fun profile =>
    .me (meResponse profile ((db.settings.get userId).getD (.new userId)) (db.findProviders userId))
  | .profile authUserId userId => (db.findById userId).map fun user =>
    .profile (publicResponse user (db.isFollowing userId authUserId))

/-- The profiles that Redis keeps. -/
def views : CacheAside Uuid Read ProfileDb View where
  key := Read.userId
  build q db := q.view db

/-! ## Requests -/

inductive Request where
  | read (q : Read)
  | updateMe (userId : Uuid) (req : UpdateProfileRequest)
  | findUserProviders (userId : Uuid)
  | searchProfiles (query : ProfileSearchQuery) (currentUserId : Uuid)

inductive Response where
  | view (v : View)
  | providers (ps : List Auth.AuthProvider)
  | page (p : CursorPage ProfileSearchResult)

def Read.act (tools : Tools) : Read → Act View
  | .me userId => View.me <$> getMe tools userId
  | .profile authUserId userId => View.profile <$> getUserById tools authUserId userId

def Request.act (tools : Tools) : Request → Act Response
  | .read q => Response.view <$> q.act tools
  | .updateMe userId req => (Response.view ∘ View.me) <$> ProfileService.updateMe tools userId req
  | .findUserProviders userId => Response.providers <$> ProfileService.findUserProviders userId
  | .searchProfiles query currentUserId =>
    Response.page <$> ProfileService.searchProfiles tools query currentUserId

def UpdateProfileRequest.isEmpty (req : UpdateProfileRequest) : Bool :=
  req.fullName.isNone && req.bio.isNone && req.avatarKey.isNone

/-- The reads that a request begins with. -/
def Request.reads : Request → Option Read
  | .read q => some q
  | .updateMe userId req => if req.isEmpty then some (.me userId) else none
  | _ => none

/-- The tables after an update that goes through. -/
def UpdateProfileRequest.updated (tools : Tools) (s : Store) (userId : Uuid)
    (req : UpdateProfileRequest) : Option ProfileDb :=
  if req.avatarKey.all fun key => s.objects.contains (tools.path key) then
    match s.db.updateProfile userId req.fullName req.bio req.avatarKey
      (req.avatarKey.map (getAvatarUrl tools)) with
    | .ok (_, db) => some db
    | .error _ => none
  else none

/-- When a view that is stored at `later` expires. -/
def expiry (later : OffsetDateTime) : OffsetDateTime := later + ttl60Secs * Auth.second

/-- What a request does to the views. -/
def Request.events (tools : Tools) (s : Store) (now later : OffsetDateTime) :
    Request → List (CacheAside.Event Uuid Read ProfileDb OffsetDateTime)
  | .read q => [.read q s.db now (expiry later)]
  | .updateMe userId req =>
    if req.isEmpty then [.read (.me userId) s.db now (expiry later)]
    else
      match req.updated tools s userId with
      | some db => [.drop userId, .read (.me userId) db now (expiry later)]
      | none => [.drop userId]
  | _ => []

/-- A request with the times of its first and of its last call, or a change of the tables and the
objects that comes from elsewhere. -/
inductive Step where
  | request (r : Request) (now later : OffsetDateTime)
  | elsewhere (db : ProfileDb) (objects : List String)

namespace Store

def request (tools : Tools) (s : Store) (r : Request) (now later : OffsetDateTime) :
    Except ProfileError Response × Store :=
  Lib.Act.answer (exec tools now later) (r.act tools) s

def step (tools : Tools) (s : Store) : Step → Store
  | .request r now later => (s.request tools r now later).2
  | .elsewhere db objects => { s with db, objects }

def run (tools : Tools) (s : Store) (history : List Step) : Store := history.foldl (step tools) s

end Store

/-! ## Keys -/

section Keys

variable {a b : Uuid}

theorem RedisKey.toList_profile (u : Uuid) :
    (RedisKey.profile u).toList = "u:".toList ++ u.text.toList ++ ":profile".toList := by
  simp only [RedisKey.profile, String.toList_append]

theorem RedisKey.toList_userProviders (u : Uuid) :
    (RedisKey.userProviders u).toList = "u:".toList ++ u.text.toList ++ ":providers".toList := by
  simp only [RedisKey.userProviders, String.toList_append]

theorem RedisKey.profile_inj (h : RedisKey.profile a = RedisKey.profile b) : a = b := by
  have hlist := congrArg String.toList h
  rw [toList_profile, toList_profile] at hlist
  exact Uuid.text_inj (List.append_cancel_left (List.append_cancel_right hlist))

theorem RedisKey.profile_ne_userProviders (a b : Uuid) :
    RedisKey.profile a ≠ RedisKey.userProviders b := by
  intro h
  have hlength := congrArg (fun s : String => s.toList.length) h
  simp [toList_profile, toList_userProviders, Uuid.length_text] at hlength

/-- The key of a search ends with a digit. -/
theorem RedisKey.searchResults_ne {key : String} (cs : List Char) (c : Char)
    (hkey : key.toList = cs ++ [c]) (hminus : c ≠ '-') (hdigit : c.isDigit = false)
    (query : String) (page limit : Int) : RedisKey.searchResults query page limit ≠ key := by
  rintro rfl
  obtain ⟨digits, d, hd⟩ :=
    (List.eq_nil_or_concat (Text.showInt limit)).resolve_left (Text.showInt_ne_nil limit)
  simp only [RedisKey.searchResults, String.toList_append, String.toList_ofList] at hkey
  rw [hd, List.concat_eq_append, ← List.append_assoc] at hkey
  obtain rfl := List.singleton_inj.1 (List.append_inj_right' hkey rfl)
  exact Text.not_mem_showInt hminus hdigit limit (by simp [hd])

theorem RedisKey.searchResults_ne_profile (query : String) (page limit : Int) (u : Uuid) :
    RedisKey.searchResults query page limit ≠ RedisKey.profile u := by
  refine searchResults_ne ("u:".toList ++ u.text.toList ++ ":profil".toList) 'e' ?_
    (by decide) (by decide) query page limit
  rw [toList_profile, List.append_assoc _ _ ['e']]
  rfl

theorem RedisKey.searchResults_ne_userProviders (query : String) (page limit : Int) (u : Uuid) :
    RedisKey.searchResults query page limit ≠ RedisKey.userProviders u := by
  refine searchResults_ne ("u:".toList ++ u.text.toList ++ ":provider".toList) 's' ?_
    (by decide) (by decide) query page limit
  rw [toList_userProviders, List.append_assoc _ _ ['s']]
  rfl

end Keys

/-! ## What Redis holds -/

def View.entry (t : Rfc3339) (e : Entry View OffsetDateTime) : Entry Value OffsetDateTime where
  value := e.value.toValue t
  deadline := e.deadline

/-- Redis holds the views, the providers that somebody asked for, and nothing else. -/
structure Agrees (t : Rfc3339) (cache : Expiring String Value OffsetDateTime)
    (kept : Expiring Uuid View OffsetDateTime) : Prop where
  profile : ∀ u, cache (RedisKey.profile u) = (kept u).map (View.entry t)
  fits : ∀ u, ∀ e ∈ kept u, Rfc3339.Fits e.value.createdAt
  providers : ∀ u, ∀ e ∈ cache (RedisKey.userProviders u), ∃ ps, e.value = providersValue ps
  nothing : ∀ key, (∀ u, key ≠ RedisKey.profile u) → (∀ u, key ≠ RedisKey.userProviders u) →
    cache key = none

namespace Agrees

variable {t : Rfc3339} {cache : Expiring String Value OffsetDateTime}
  {kept : Expiring Uuid View OffsetDateTime}

theorem empty : Agrees t .empty .empty where
  profile _ := rfl
  fits _ _ he := by cases he
  providers _ _ he := by cases he
  nothing _ _ _ := rfl

theorem find_profile (h : Agrees t cache kept) (now : OffsetDateTime) (u : Uuid) :
    cache.find now (RedisKey.profile u) = (kept.find now u).map (View.toValue t) := by
  rw [Expiring.find, Expiring.entry, h.profile, Expiring.find, Expiring.entry]
  cases hu : kept u with
  | none => rfl
  | some e =>
    have hiff : Expiring.Alive (View.entry t e) now ↔ Expiring.Alive e now := Iff.rfl
    by_cases halive : Expiring.Alive e now
    · have hvalue : (View.entry t e).value = e.value.toValue t := rfl
      simp [Option.filter, hiff, halive, hvalue]
    · simp [Option.filter, hiff, halive]

theorem fits_of_find (h : Agrees t cache kept) {now : OffsetDateTime} {u : Uuid} {v : View}
    (hv : kept.find now u = some v) : Rfc3339.Fits v.createdAt := by
  obtain ⟨e, he, rfl, -⟩ := Expiring.find_eq_some hv
  exact h.fits u e he

/-- What is kept of a user from now on, or that nothing is. -/
theorem set_profile (h : Agrees t cache kept) (u : Uuid) {e : Option (Entry View OffsetDateTime)}
    (he : ∀ e' ∈ e, Rfc3339.Fits e'.value.createdAt) :
    Agrees t (cache.set (RedisKey.profile u) (e.map (View.entry t))) (kept.set u e) where
  profile u' := by
    rw [Expiring.set_apply, Expiring.set_apply]
    by_cases hu : u' = u
    · subst hu
      rw [if_pos rfl, if_pos rfl]
    · rw [if_neg (fun hkey => hu (RedisKey.profile_inj hkey)), if_neg hu, h.profile]
  fits u' e' he' := by
    rw [Expiring.set_apply] at he'
    split at he'
    · exact he e' he'
    · exact h.fits u' e' he'
  providers u' e' he' := by
    rw [Expiring.set_apply, if_neg (RedisKey.profile_ne_userProviders u u').symm] at he'
    exact h.providers u' e' he'
  nothing key hprofile hproviders := by
    rw [Expiring.set_apply, if_neg (hprofile u)]
    exact h.nothing key hprofile hproviders

theorem set_providers (h : Agrees t cache kept) (u : Uuid) (ps : List Auth.AuthProvider)
    (deadline : Option OffsetDateTime) :
    Agrees t (cache.set (RedisKey.userProviders u) (some { value := providersValue ps, deadline }))
      kept where
  profile u' := by
    rw [Expiring.set_apply, if_neg (RedisKey.profile_ne_userProviders u' u), h.profile]
  fits := h.fits
  providers u' e he := by
    rw [Expiring.set_apply] at he
    split at he
    · obtain rfl := Option.some.inj he
      exact ⟨ps, rfl⟩
    · exact h.providers u' e he
  nothing key hprofile hproviders := by
    rw [Expiring.set_apply, if_neg (hproviders u)]
    exact h.nothing key hprofile hproviders

end Agrees

/-! ## What a request does -/

section Requests

open Lib.Act

variable {tools : Tools} {s : Store} {kept : Expiring Uuid View OffsetDateTime}
  {now later : OffsetDateTime}

theorem answer_getCachedMe (h : Agrees tools.time s.cache kept) (u : Uuid) :
    answer (Store.exec tools now later) (getCachedMe tools.time u) s =
      match kept.find now u with
      | none => (.ok none, s)
      | some (.me r) =>
        if r.Readable then (.ok (some r), s)
        else (.error (.redis (.parse .recursionLimitExceeded)), s)
      | some (.profile _) => (.error (.redis (.parse (.missingField "email"))), s) := by
  rw [getCachedMe, ProfileCache.get, answer_bind, answer_ask, Store.exec_get, h.find_profile]
  cases hfind : kept.find now u with
  | none => rfl
  | some v =>
    have hfits := h.fits_of_find hfind
    cases v with
    | me r =>
      by_cases hr : r.Readable
      · simp only [Option.map_some, View.toValue, MeResponse.fromValue_toValue tools.time hfits hr,
          if_pos hr]
        rfl
      · simp only [Option.map_some, View.toValue, MeResponse.fromValue_nested tools.time hfits hr,
          if_neg hr]
        rfl
    | profile r =>
      simp only [Option.map_some, View.toValue, MeResponse.fromValue_public tools.time hfits]
      rfl

theorem answer_getCachedProfile (h : Agrees tools.time s.cache kept) (u : Uuid) :
    answer (Store.exec tools now later) (getCachedProfile tools.time u) s =
      match kept.find now u with
      | none => (.ok none, s)
      | some (.me _) => (.error (.redis (.parse (.missingField "is_following"))), s)
      | some (.profile r) => (.ok (some r), s) := by
  rw [getCachedProfile, ProfileCache.get, answer_bind, answer_ask, Store.exec_get, h.find_profile]
  cases hfind : kept.find now u with
  | none => rfl
  | some v =>
    have hfits := h.fits_of_find hfind
    cases v with
    | me r =>
      simp only [Option.map_some, View.toValue, PublicProfileResponse.fromValue_me tools.time hfits]
      rfl
    | profile r =>
      simp only [Option.map_some, View.toValue,
        PublicProfileResponse.fromValue_toValue tools.time hfits]
      rfl

/-- Why a read cannot use what is kept. -/
def Read.misread (q : Read) (v : View) : DeError :=
  if v.isMe = q.isMe then .recursionLimitExceeded
  else .missingField (if q.isMe then "email" else "is_following")

/-- A read can use what is kept: it is its own kind of view, and not nested too deep. -/
def Read.Reads (q : Read) (v : View) : Prop := v.isMe = q.isMe ∧ v.Readable

instance (q : Read) (v : View) : Decidable (q.Reads v) := inferInstanceAs (Decidable (_ ∧ _))

/-- What a read answers: what is kept, if it can use that, or what it sees. -/
def Read.seen (kept : Expiring Uuid View OffsetDateTime) (now : OffsetDateTime) (db : ProfileDb)
    (q : Read) : Except ProfileError View :=
  match kept.find now q.userId with
  | some v => if q.Reads v then .ok v else .error (.redis (.parse (q.misread v)))
  | none =>
    match q.view db with
    | some v => .ok v
    | none => .error .notFound

theorem findById_id {db : ProfileDb} {u : Uuid} {profile : Profile}
    (h : db.findById u = some profile) : profile.id = u := by
  obtain ⟨user, huser, rfl⟩ := Option.map_eq_some_iff.1 h
  exact (Table.key_of_get (Option.filter_eq_some_iff.1 huser).1 : user.id = u)

theorem views_step_of_found {q : Read} {db : ProfileDb} {now deadline : OffsetDateTime} {v : View}
    (h : kept.find now q.userId = some v) :
    views.step kept (.read q db now deadline) = kept := by
  obtain ⟨e, he, -⟩ := Option.map_eq_some_iff.1 h
  have hentry : kept.entry now (views.key q) = some e := he
  rw [CacheAside.step, hentry]

theorem views_step_of_not_found {q : Read} {db : ProfileDb} {now deadline : OffsetDateTime}
    (h : kept.find now q.userId = none) :
    views.step kept (.read q db now deadline) =
      match q.view db with
      | some v => kept.set q.userId (some { value := v, deadline := some deadline })
      | none => kept := by
  have hentry : kept.entry now (views.key q) = none := Option.map_eq_none_iff.1 h
  have hbuild : views.build q db = q.view db := rfl
  rw [CacheAside.step, hentry, hbuild]
  cases q.view db with
  | none => rfl
  | some v => rfl

theorem answer_getMe_of_not_found (h : Agrees tools.time s.cache kept) {u : Uuid}
    (hfind : kept.find now u = none) :
    answer (Store.exec tools now later) (getMe tools u) s =
      match s.db.findById u with
      | none => (.error .notFound, s)
      | some profile =>
        let r := meResponse profile ((s.db.settings.get u).getD (.new u)) (s.db.findProviders u)
        let entry := { value := r.toValue tools.time, deadline := some (expiry later) }
        (.ok r, { s with cache := s.cache.set (RedisKey.profile u) (some entry) }) := by
  have hcached := @answer_getCachedMe tools s kept now later h u
  rw [hfind] at hcached
  rw [getMe, answer_bind_ok _ hcached]
  cases hprofile : s.db.findById u with
  | none => simp [answer_bind, answer_ask, hprofile]
  | some profile =>
    obtain rfl := findById_id hprofile
    simp [answer_bind, answer_ask, hprofile, cacheMe, ProfileCache.set]
    rfl

theorem answer_getUserById_of_not_found (h : Agrees tools.time s.cache kept) {viewer u : Uuid}
    (hfind : kept.find now u = none) :
    answer (Store.exec tools now later) (getUserById tools viewer u) s =
      match s.db.findById u with
      | none => (.error .notFound, s)
      | some user =>
        let r := publicResponse user (s.db.isFollowing u viewer)
        let entry := { value := r.toValue tools.time, deadline := some (expiry later) }
        (.ok r, { s with cache := s.cache.set (RedisKey.profile u) (some entry) }) := by
  have hcached := @answer_getCachedProfile tools s kept now later h u
  rw [hfind] at hcached
  rw [getUserById, answer_bind_ok _ hcached]
  cases huser : s.db.findById u with
  | none => simp [answer_bind, answer_ask, huser]
  | some user =>
    obtain rfl := findById_id huser
    simp [answer_bind, answer_ask, huser, cacheProfile, ProfileCache.set]
    rfl

theorem answer_read (h : Agrees tools.time s.cache kept) (q : Read) :
    ∃ cache, answer (Store.exec tools now later) (q.act tools) s =
        (q.seen kept now s.db, { s with cache }) ∧
      Agrees tools.time cache (views.step kept (.read q s.db now (expiry later))) := by
  cases hfind : kept.find now q.userId with
  | some v =>
    rw [views_step_of_found hfind]
    refine ⟨s.cache, ?_, h⟩
    rw [Read.seen, hfind]
    cases q with
    | me u =>
      have hcached := @answer_getCachedMe tools s kept now later h u
      rw [show kept.find now u = some v from hfind] at hcached
      rw [Read.act, answer_map, getMe]
      cases v with
      | me r =>
        by_cases hr : r.Readable
        · have hreads : (Read.me u).Reads (.me r) := ⟨rfl, hr⟩
          simp only [if_pos hr] at hcached
          rw [answer_bind_ok _ hcached]
          dsimp only
          rw [if_pos hreads]
          rfl
        · have hreads : ¬ (Read.me u).Reads (.me r) := fun h => hr h.2
          simp only [if_neg hr] at hcached
          rw [answer_bind_error _ hcached]
          dsimp only
          rw [if_neg hreads]
          rfl
      | profile r => rw [answer_bind_error _ hcached]; rfl
    | profile viewer u =>
      have hcached := @answer_getCachedProfile tools s kept now later h u
      rw [show kept.find now u = some v from hfind] at hcached
      rw [Read.act, answer_map, getUserById]
      cases v with
      | me r => rw [answer_bind_error _ hcached]; rfl
      | profile r => rw [answer_bind_ok _ hcached]; rfl
  | none =>
    rw [views_step_of_not_found hfind, Read.seen, hfind]
    cases q with
    | me u =>
      have hme := @answer_getMe_of_not_found tools s kept now later h u hfind
      rw [Read.act, answer_map, hme, Read.view]
      cases hprofile : s.db.findById u with
      | none => exact ⟨s.cache, rfl, h⟩
      | some profile =>
        refine ⟨_, rfl, h.set_profile u (e := some { value := View.me _, deadline := _ }) ?_⟩
        rintro e ⟨⟩
        exact profile.created
    | profile viewer u =>
      have hprofile := @answer_getUserById_of_not_found tools s kept now later h viewer u hfind
      rw [Read.act, answer_map, hprofile, Read.view]
      cases huser : s.db.findById u with
      | none => exact ⟨s.cache, rfl, h⟩
      | some user =>
        refine ⟨_, rfl, h.set_profile u (e := some { value := View.profile _, deadline := _ }) ?_⟩
        rintro e ⟨⟩
        exact user.created

theorem seen_eq_ok_of_not_found {q : Read} {db : ProfileDb} (h : kept.find now q.userId = none)
    (e : RedisError) : q.seen kept now db ≠ .error (.redis e) := by
  rw [Read.seen, h]
  cases q.view db with
  | none => nofun
  | some v => nofun

theorem answer_deleteAvatar (u : Uuid) :
    answer (Store.exec tools now later) (deleteAvatar u) s =
      (.ok (), { s with deletions := s.deletions ++ (s.db.findAvatarKey u).toList }) := by
  rw [deleteAvatar, answer_bind, answer_ask, Store.exec_findAvatarKey]
  cases hkey : s.db.findAvatarKey u with
  | none => simp
  | some key => simp [answer_ask]

theorem answer_updateAvatarUrl (u : Uuid) (key : String) :
    answer (Store.exec tools now later) (updateAvatarUrl tools u key) s =
      if s.objects.contains (tools.path key) then
        (.ok (some key, some (getAvatarUrl tools key)),
          { s with deletions := s.deletions ++ (s.db.findAvatarKey u).toList })
      else (.error .avatarNotUploaded, s) := by
  rw [updateAvatarUrl, answer_bind, answer_ask, Store.exec_objectExists]
  by_cases h : s.objects.contains (tools.path key) = true
  · have hdelete := @answer_deleteAvatar tools s now later u
    rw [if_pos h]
    simp only [h]
    rw [Bool.not_true, if_neg Bool.false_ne_true, answer_bind_ok _ hdelete]
    rfl
  · rw [if_neg h]
    simp only [Bool.not_eq_true] at h
    simp only [h]
    rfl

/-- The new key and address, when there is an object for the key. -/
def avatarOf (tools : Tools) (req : UpdateProfileRequest) : Option String × Option String :=
  (req.avatarKey, req.avatarKey.map (getAvatarUrl tools))

theorem answer_newAvatar (u : Uuid) (req : UpdateProfileRequest) :
    ∃ deletions, answer (Store.exec tools now later) (newAvatar tools u req.avatarKey) s =
      if req.avatarKey.all fun key => s.objects.contains (tools.path key) then
        (.ok (req.avatarKey, req.avatarKey.map (getAvatarUrl tools)), { s with deletions })
      else (.error .avatarNotUploaded, s) := by
  cases req.avatarKey with
  | none => exact ⟨s.deletions, rfl⟩
  | some key => exact ⟨_, @answer_updateAvatarUrl tools s now later u key⟩

theorem answer_updateMe (h : Agrees tools.time s.cache kept) (u : Uuid) {req : UpdateProfileRequest}
    (hreq : req.isEmpty = false) :
    ∃ r s', answer (Store.exec tools now later) (ProfileService.updateMe tools u req) s = (r, s') ∧
      (∀ e, r ≠ .error (.redis e)) ∧
      Agrees tools.time s'.cache
        (((Request.updateMe u req).events tools s now later).foldl views.step kept) := by
  have hdel : answer (Store.exec tools now later) (invalidateCachedProfile u) s =
      (.ok (), { s with cache := s.cache.set (RedisKey.profile u) none }) := rfl
  have hdropped : Agrees tools.time (s.cache.set (RedisKey.profile u) none) (kept.set u none) :=
    h.set_profile u (e := none) (by rintro _ ⟨⟩)
  obtain ⟨deletions, havatar⟩ := @answer_newAvatar tools
    { s with cache := s.cache.set (RedisKey.profile u) none } now later u req
  have hempty : ¬ (req.fullName.isNone && req.bio.isNone && req.avatarKey.isNone) = true :=
    fun hall => Bool.false_ne_true (hreq.symm.trans hall)
  rw [ProfileService.updateMe, if_neg hempty, answer_bind_ok _ hdel]
  simp only [Request.events, hreq, Bool.false_eq_true, if_false]
  unfold UpdateProfileRequest.updated
  split at havatar
  · rename_i hobject
    rw [answer_bind_ok _ havatar, if_pos hobject]
    dsimp only
    rw [answer_bind, answer_ask, Store.exec]
    cases hdb : s.db.updateProfile u req.fullName req.bio req.avatarKey
        (req.avatarKey.map (getAvatarUrl tools)) with
    | error e =>
      exact ⟨_, _, rfl, by rintro e ⟨⟩, hdropped⟩
    | ok updated =>
      obtain ⟨profile, db⟩ := updated
      have hfind : (kept.set u none).find now u = none := by
        rw [Expiring.find, Expiring.entry, Expiring.set_apply, if_pos rfl]
        rfl
      obtain ⟨cache, hread, hagrees⟩ := @answer_read tools
        { cache := s.cache.set (RedisKey.profile u) none, db, objects := s.objects, deletions }
        (kept.set u none) now later hdropped (.me u)
      rw [Read.act, answer_map, Prod.mk.injEq] at hread
      dsimp only
      refine ⟨_, _, Prod.mk.eta.symm, fun e he => ?_, ?_⟩
      · have hseen := hread.1
        rw [he] at hseen
        exact seen_eq_ok_of_not_found (q := .me u) hfind e hseen.symm
      · rw [hread.2]
        exact hagrees
  · rename_i hobject
    rw [answer_bind_error _ havatar, if_neg hobject]
    exact ⟨_, _, rfl, by rintro e ⟨⟩, hdropped⟩

theorem answer_findUserProviders (h : Agrees tools.time s.cache kept) (u : Uuid) :
    ∃ ps s', answer (Store.exec tools now later) (ProfileService.findUserProviders u) s =
        (.ok ps, s') ∧ Agrees tools.time s'.cache kept := by
  rw [ProfileService.findUserProviders, getCachedProviders, ProfileCache.get]
  cases hfind : s.cache.find now (RedisKey.userProviders u) with
  | some v =>
    obtain ⟨e, he, rfl, -⟩ := Expiring.find_eq_some hfind
    obtain ⟨ps, hps⟩ := h.providers u e he
    refine ⟨ps, s, ?_, h⟩
    simp [answer_bind, answer_ask, hfind, hps, readProviders_value]
  | none =>
    have hset := h.set_providers u (s.db.findProviders u) (some (expiry later))
    refine ⟨s.db.findProviders u, { s with cache := _ }, ?_, hset⟩
    simp [answer_bind, answer_ask, hfind, cacheProviders, ProfileCache.set]
    rfl

/-- Why a search fails. -/
def searchError (tools : Tools) (query : ProfileSearchQuery) : ProfileError :=
  match query.pagination.cursor.map (ProfileRepository.toRankTimestampId tools) with
  | some (.error e) => .cursor e
  | _ => .database .invalidStatement

theorem answer_searchProfiles (h : Agrees tools.time s.cache kept) (query : ProfileSearchQuery)
    (viewer : Uuid) :
    answer (Store.exec tools now later) (ProfileService.searchProfiles tools query viewer) s =
      (.error (searchError tools query), s) := by
  have hnothing : s.cache.find now
      (RedisKey.searchResults (tools.folded query.q) 0 query.pagination.pageLimit) = none := by
    rw [Expiring.find, Expiring.entry, h.nothing _
      (RedisKey.searchResults_ne_profile _ _ _) (RedisKey.searchResults_ne_userProviders _ _ _)]
    rfl
  rw [ProfileService.searchProfiles, getCachedSearchResults, ProfileCache.get]
  dsimp only
  rw [answer_bind, answer_bind, answer_ask, Store.exec_get, hnothing]
  dsimp only [answer_pure]
  rw [answer_bind, ProfileRepository.searchProfiles, searchError]
  cases query.pagination.cursor.map (ProfileRepository.toRankTimestampId tools) with
  | none => rfl
  | some r =>
    cases r with
    | error e => rfl
    | ok c => rfl

theorem seen_ne_redis_iff {q : Read} {db : ProfileDb} :
    (∀ e, q.seen kept now db ≠ .error (.redis e)) ↔
      ∀ v, kept.find now q.userId = some v → q.Reads v := by
  rw [Read.seen]
  cases kept.find now q.userId with
  | none =>
    cases q.view db with
    | none => simp
    | some v => simp
  | some v =>
    by_cases h : q.Reads v
    · simp [h]
    · simp [h]

theorem map_eq_error {ε α β : Type} {f : α → β} {x : Except ε α} {e : ε} :
    x.map f = .error e ↔ x = .error e := by
  cases x with
  | error e' => simp [Except.map]
  | ok a => simp [Except.map]

theorem request_read (h : Agrees tools.time s.cache kept) (q : Read) :
    ∃ cache, s.request tools (.read q) now later =
        ((q.seen kept now s.db).map Response.view, { s with cache }) ∧
      Agrees tools.time cache (views.step kept (.read q s.db now (expiry later))) := by
  obtain ⟨cache, hread, hagrees⟩ := @answer_read tools s kept now later h q
  refine ⟨cache, ?_, hagrees⟩
  rw [Store.request, Request.act, answer_map, hread]

/-- Nothing to update is a read. -/
theorem request_updateMe_of_isEmpty (u : Uuid) {req : UpdateProfileRequest}
    (hreq : req.isEmpty = true) :
    s.request tools (.updateMe u req) now later = s.request tools (.read (.me u)) now later := by
  have hempty : (req.fullName.isNone && req.bio.isNone && req.avatarKey.isNone) = true := hreq
  rw [Store.request, Request.act, ProfileService.updateMe, if_pos hempty, comp_map]
  rfl

theorem seen_eq_ok {q : Read} {db : ProfileDb} (hexists : (db.findById q.userId).isSome)
    (h : ∀ e, q.seen kept now db ≠ .error (.redis e)) : ∃ v, q.seen kept now db = .ok v := by
  rw [Read.seen] at h ⊢
  cases hfind : kept.find now q.userId with
  | some v =>
    have hreads : q.Reads v := by
      by_contra hne
      rw [hfind] at h
      simp [hne] at h
    simp [hreads]
  | none =>
    obtain ⟨profile, hprofile⟩ := Option.isSome_iff_exists.1 hexists
    cases q with
    | me u =>
      rw [Read.userId] at hprofile
      simp [Read.view, hprofile]
    | profile viewer u =>
      rw [Read.userId] at hprofile
      simp [Read.view, hprofile]

/-- What a request does to the views, and when it does not fail at one. -/
theorem request_spec (h : Agrees tools.time s.cache kept) (r : Request) :
    Agrees tools.time (s.request tools r now later).2.cache
        ((r.events tools s now later).foldl views.step kept) ∧
      ((∀ e, (s.request tools r now later).1 ≠ .error (.redis e)) ↔
        ∀ q ∈ r.reads, ∀ v, kept.find now q.userId = some v → q.Reads v) := by
  have hread : ∀ q : Read, Agrees tools.time (s.request tools (.read q) now later).2.cache
        (views.step kept (.read q s.db now (expiry later))) ∧
      ((∀ e, (s.request tools (.read q) now later).1 ≠ .error (.redis e)) ↔
        ∀ v, kept.find now q.userId = some v → q.Reads v) := by
    intro q
    obtain ⟨cache, hanswer, hagrees⟩ := @request_read tools s kept now later h q
    rw [hanswer]
    simp only [ne_eq, map_eq_error]
    exact ⟨hagrees, seen_ne_redis_iff⟩
  cases r with
  | read q => simpa [Request.reads, Request.events] using hread q
  | updateMe u req =>
    cases hreq : req.isEmpty with
    | true =>
      rw [request_updateMe_of_isEmpty u hreq]
      simpa [Request.reads, Request.events, hreq] using hread (.me u)
    | false =>
      obtain ⟨res, s', hanswer, hres, hagrees⟩ := @answer_updateMe tools s kept now later h u req hreq
      rw [Store.request, Request.act, answer_map, hanswer]
      simp only [ne_eq, map_eq_error]
      exact ⟨hagrees, by simpa [Request.reads, hreq] using hres⟩
  | findUserProviders u =>
    obtain ⟨ps, s', hanswer, hagrees⟩ := @answer_findUserProviders tools s kept now later h u
    rw [Store.request, Request.act, answer_map, hanswer]
    exact ⟨hagrees, by simp [Request.reads, Except.map]⟩
  | searchProfiles query viewer =>
    rw [Store.request, Request.act, answer_map, answer_searchProfiles h]
    refine ⟨h, ?_⟩
    unfold searchError
    split <;> simp [Request.reads, Except.map]

end Requests

end Meno.Profiles
