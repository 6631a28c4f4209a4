import Meno.Lib.Expiring
import Meno.Lib.Prog
import Meno.Profile.Dto

/-!
# Meno.Profile.Service

`ProfileService` as programs over the calls that it makes: to Redis, to the database and to the
object storage. `Store.exec` answers them when nothing is down.
-/

namespace Meno.Profiles

open Lib

open Auth (AuthProvider)

/-! ## Redis keys -/

namespace RedisKey

def profile (userId : Uuid) : String := "u:" ++ userId.text ++ ":profile"

def userProviders (userId : Uuid) : String := "u:" ++ userId.text ++ ":providers"

def searchResults (query : String) (page limit : Int) : String :=
  query ++ ":" ++ String.ofList (Text.showInt page) ++ ":" ++ String.ofList (Text.showInt limit)

end RedisKey

/-- `TTL_60_SECS`. -/
def ttl60Secs : Int := 60

/-! ## Requests and errors -/

structure UpdateProfileRequest where
  fullName : Option String
  bio : Option String
  avatarKey : Option String
deriving DecidableEq

structure ProfileSearchQuery where
  q : String
  pagination : CursorParams
deriving DecidableEq

inductive RedisError where
  | unavailable
  /-- What is kept under a key is not what is looked for. -/
  | parse (e : DeError)

inductive ProfileError where
  | notFound
  | avatarNotUploaded
  | cursor (e : CursorError)
  | storage (message : String)
  | database (e : DbError)
  | redis (e : RedisError)
  | internal (e : DbError)

/-- A row as the module reads it. -/
structure Profile where
  id : Uuid
  fullName : String
  bio : Option String
  email : String
  avatarId : Option String
  avatarUrl : Option String
  verified : Bool
  followers : Int64
  following : Int64
  broadcasts : Int64
  createdAt : OffsetDateTime
  /-- The column is set once, to the time then. -/
  created : Rfc3339.Fits createdAt
deriving DecidableEq

/-- What libraries do with texts: the times in JSON, `trim().to_lowercase()`, which texts are an
`f32`, and `object_store::Path::from`; and the public address of the storage. -/
structure Tools where
  time : Rfc3339
  folded : String → String
  isF32 : List Char → Bool
  path : String → String
  publicUrl : String

/-! ## Calls -/

inductive ProfileCmd : Type → Type
  | get (key : String) : ProfileCmd (Except RedisError (Option Value))
  | set (key : String) (value : Value) (ttl : Int) : ProfileCmd (Except RedisError Unit)
  | del (key : String) : ProfileCmd (Except RedisError Unit)
  | findById (userId : Uuid) : ProfileCmd (Except DbError (Option Profile))
  | findProviders (userId : Uuid) : ProfileCmd (Except DbError (List AuthProvider))
  | findByUserId (userId : Uuid) : ProfileCmd (Except DbError (Option Settings))
  | findAvatarKey (userId : Uuid) : ProfileCmd (Except DbError (Option String))
  | updateProfile (id : Uuid) (fullName bio avatarKey avatarUrl : Option String) :
      ProfileCmd (Except DbError Profile)
  | isFollowing (subscriptionId subscriberId : Uuid) : ProfileCmd (Except DbError Bool)
  | searchProfiles (query : ProfileSearchQuery) (currentUserId : Uuid) :
      ProfileCmd (Except DbError (List ProfileSearchResult))
  | objectExists (key : String) : ProfileCmd (Except String Bool)
  /-- The task that deletes an old avatar; what becomes of it is not waited for. -/
  | spawnDelete (key : String) : ProfileCmd (Except Empty Unit)

abbrev Act (α : Type) := Lib.Act ProfileCmd ProfileError α

open Lib.Act (ask)

namespace ProfileCache

variable (t : Rfc3339)

/-- `redis.get`, which reads what it finds. -/
def get {α : Type} (read : Value → Except DeError α) (key : String) : Act (Option α) := do
  match ← ask .redis (.get key) with
  | none => return none
  | some v =>
    match read v with
    | .ok a => return some a
    | .error e => throw (.redis (.parse e))

def set (key : String) (v : Value) : Act Unit := ask .redis (.set key v ttl60Secs)

def cacheMe (value : MeResponse) : Act Unit := set (RedisKey.profile value.id) (value.toValue t)

def cacheProfile (value : PublicProfileResponse) : Act Unit :=
  set (RedisKey.profile value.id) (value.toValue t)

def getCachedMe (userId : Uuid) : Act (Option MeResponse) :=
  get (MeResponse.fromValue t) (RedisKey.profile userId)

def getCachedProfile (userId : Uuid) : Act (Option PublicProfileResponse) :=
  get (PublicProfileResponse.fromValue t) (RedisKey.profile userId)

def invalidateCachedProfile (userId : Uuid) : Act Unit := ask .redis (.del (RedisKey.profile userId))

def cacheProviders (userId : Uuid) (providers : List AuthProvider) : Act Unit :=
  set (RedisKey.userProviders userId) (providersValue providers)

def getCachedProviders (userId : Uuid) : Act (Option (List AuthProvider)) :=
  get readProviders (RedisKey.userProviders userId)

def cacheSearchResults (key : String) (results : List ProfileSearchResult) : Act Unit :=
  set key (.array (results.map (ProfileSearchResult.toValue t)))

def getCachedSearchResults (key : String) : Act (Option (List ProfileSearchResult)) :=
  get (Value.readList (ProfileSearchResult.fromValue t)) key

end ProfileCache

namespace ProfileRepository

/-- The rank stays a text here. -/
def toRankTimestampId (tools : Tools) (c : Cursor) :
    Except CursorError (List Char × OffsetDateTime × Uuid) := do
  let s ← c.raw .urlSafe
  let s ← okOrShape (Text.stripPrefix "rank:".toList s)
  let (rank, s) ← okOrShape (Text.splitOnce '|' s)
  let (nanos, id) ← okOrShape (Text.splitOnce '|' s)
  if !tools.isF32 rank then throw .invalidShape
  let nanos ← okOrShape (parseI128 nanos)
  let id ← okOrShape (Uuid.parseText (String.ofList id))
  match fromUnixTimestampNanos nanos with
  | some ts => return (rank, ts, id)
  | none => throw .invalidTimestamp

/-- The cursor is read before the statement is sent. -/
def searchProfiles (tools : Tools) (query : ProfileSearchQuery) (currentUserId : Uuid) :
    Act (List ProfileSearchResult) := do
  match query.pagination.cursor.map (toRankTimestampId tools) with
  | some (.error e) => throw (.cursor e)
  | _ => ask .database (.searchProfiles query currentUserId)

end ProfileRepository

/-! ## The service -/

namespace ProfileService

open ProfileCache

variable (tools : Tools)

def meResponse (profile : Profile) (settings : Settings) (providers : List AuthProvider) :
    MeResponse where
  id := profile.id
  fullName := profile.fullName
  bio := profile.bio
  email := profile.email
  verified := profile.verified
  avatarId := profile.avatarId
  avatarUrl := profile.avatarUrl
  createdAt := profile.createdAt
  providers := providers
  settings := settings.response

def getMe (userId : Uuid) : Act MeResponse := do
  match ← getCachedMe tools.time userId with
  | some cached => return cached
  | none =>
    match ← ask .database (.findById userId) with
    | none => throw .notFound
    | some profile =>
      let settings ← ask .internal (.findByUserId userId)
      let providers ← ask .database (.findProviders userId)
      let response := meResponse profile (settings.getD (.new userId)) providers
      cacheMe tools.time response
      return response

def findUserProviders (userId : Uuid) : Act (List AuthProvider) := do
  match ← getCachedProviders userId with
  | some cachedProviders => return cachedProviders
  | none =>
    let providers ← ask .database (.findProviders userId)
    cacheProviders userId providers
    return providers

def deleteAvatar (userId : Uuid) : Act Unit := do
  match ← ask .database (.findAvatarKey userId) with
  | none => return ()
  | some oldKey => ask Empty.elim (.spawnDelete oldKey)

/-- `public_url_for`. -/
def getAvatarUrl (key : String) : String := tools.publicUrl ++ "/" ++ key

def updateAvatarUrl (userId : Uuid) (newAvatarKey : String) :
    Act (Option String × Option String) := do
  if !(← ask .storage (.objectExists newAvatarKey)) then
    throw .avatarNotUploaded
  deleteAvatar userId
  return (some newAvatarKey, some (getAvatarUrl tools newAvatarKey))

/-- Of `update_me`, what becomes of an `avatar_key`. -/
def newAvatar (userId : Uuid) : Option String → Act (Option String × Option String)
  | some avatarKey => updateAvatarUrl tools userId avatarKey
  | none => return (none, none)

def updateMe (userId : Uuid) (req : UpdateProfileRequest) : Act MeResponse := do
  if req.fullName.isNone && req.bio.isNone && req.avatarKey.isNone then
    getMe tools userId
  else
    invalidateCachedProfile userId
    let (newAvatarKey, newAvatarUrl) ← newAvatar tools userId req.avatarKey
    let _ ← ask .database (.updateProfile userId req.fullName req.bio newAvatarKey newAvatarUrl)
    getMe tools userId

def publicResponse (user : Profile) (isFollowing : Bool) : PublicProfileResponse where
  id := user.id
  fullName := user.fullName
  bio := user.bio
  avatarUrl := user.avatarUrl
  isFollowing := isFollowing
  followers := user.followers
  following := user.following
  broadcasts := user.broadcasts
  createdAt := user.createdAt

def getUserById (authUserId userId : Uuid) : Act PublicProfileResponse := do
  match ← getCachedProfile tools.time userId with
  | some cached => return cached
  | none =>
    match ← ask .database (.findById userId) with
    | none => throw .notFound
    | some user =>
      let isFollowing ← ask .database (.isFollowing userId authUserId)
      let response := publicResponse user isFollowing
      cacheProfile tools.time response
      return response

def applyCursor (results : List ProfileSearchResult) (limit : Int) :
    CursorPage ProfileSearchResult :=
  CursorPage.fromRows results limit fun p => Cursor.fromTimestampId .urlSafe p.createdAt p.id

def searchProfiles (query : ProfileSearchQuery) (currentUserId : Uuid) :
    Act (CursorPage ProfileSearchResult) := do
  let limit := query.pagination.pageLimit
  let cacheKey := RedisKey.searchResults (tools.folded query.q) 0 limit
  match ← getCachedSearchResults tools.time cacheKey with
  | some cachedResults => return applyCursor cachedResults limit
  | none =>
    let results ← ProfileRepository.searchProfiles tools query currentUserId
    if query.pagination.cursor.isNone && results.length ≤ 100 then
      cacheSearchResults tools.time cacheKey results
    return applyCursor results limit

end ProfileService

/-! ## The store -/

structure User where
  profile : Profile
  deletedAt : Option OffsetDateTime
deriving DecidableEq

def User.id (user : User) : Uuid := user.profile.id

structure ProfileDb where
  users : Table User User.id
  settings : Table Settings Settings.userId
  /-- Of `user_identities`, whose they are and the `provider_type`. -/
  identities : List (Uuid × AuthProvider)
  /-- Of `user_subscribers`, the `subscription_id` and the `subscriber_id`. -/
  subscribers : List (Uuid × Uuid)

namespace ProfileDb

variable (db : ProfileDb)

def live (id : Uuid) : Option User := (db.users.get id).filter fun user => user.deletedAt.isNone

def findById (userId : Uuid) : Option Profile := (db.live userId).map User.profile

def findProviders (userId : Uuid) : List AuthProvider :=
  (db.identities.filter fun i => i.1 = userId).map Prod.snd

def findAvatarKey (userId : Uuid) : Option String :=
  (db.users.get userId).bind fun user => user.profile.avatarId

def isFollowing (subscriptionId subscriberId : Uuid) : Bool :=
  db.subscribers.contains (subscriptionId, subscriberId)

/-- `COALESCE` keeps what is not given; `bio` is a `VARCHAR(244)`. -/
def updateProfile (id : Uuid) (fullName bio avatarKey avatarUrl : Option String) :
    Except DbError (Profile × ProfileDb) := do
  bindTextOpt fullName
  bindTextOpt bio
  bindTextOpt avatarKey
  bindTextOpt avatarUrl
  match db.live id with
  | none => throw .rowNotFound
  | some user =>
    let bio ← bio.mapM (varchar 244)
    let profile := {
      user.profile with
      fullName := fullName.getD user.profile.fullName
      bio := bio.or user.profile.bio
      avatarId := avatarKey.or user.profile.avatarId
      avatarUrl := avatarUrl.or user.profile.avatarUrl }
    return (profile, { db with users := db.users.put { user with profile } })

end ProfileDb

structure Store where
  cache : Expiring String Value OffsetDateTime
  db : ProfileDb
  /-- Where there are objects. -/
  objects : List String
  /-- Keys whose deletion was spawned. -/
  deletions : List String

namespace Store

/-- One call. Redis looks keys up at `now`, and those that are set live from `later` on. -/
def exec (tools : Tools) (now later : OffsetDateTime) :
    {β : Type} → ProfileCmd β → Store → β × Store
  | _, .get key, s => (.ok (s.cache.find now key), s)
  | _, .set key value ttl, s =>
    let entry := { value, deadline := some (later + ttl * Auth.second) }
    (.ok (), { s with cache := s.cache.set key (some entry) })
  | _, .del key, s => (.ok (), { s with cache := s.cache.set key none })
  | _, .findById userId, s => (.ok (s.db.findById userId), s)
  | _, .findProviders userId, s => (.ok (s.db.findProviders userId), s)
  | _, .findByUserId userId, s => (.ok (s.db.settings.get userId), s)
  | _, .findAvatarKey userId, s => (.ok (s.db.findAvatarKey userId), s)
  | _, .updateProfile id fullName bio avatarKey avatarUrl, s =>
    match s.db.updateProfile id fullName bio avatarKey avatarUrl with
    | .ok (profile, db) => (.ok profile, { s with db })
    | .error e => (.error e, s)
  | _, .isFollowing subscriptionId subscriberId, s =>
    (.ok (s.db.isFollowing subscriptionId subscriberId), s)
  -- There is no comma before `EXISTS`, and no `u` in `FROM users`.
  | _, .searchProfiles _ _, s => (.error .invalidStatement, s)
  | _, .objectExists key, s => (.ok (s.objects.contains (tools.path key)), s)
  | _, .spawnDelete key, s => (.ok (), { s with deletions := s.deletions ++ [key] })

variable {tools : Tools} {now later : OffsetDateTime} (s : Store)

@[simp] theorem exec_get (key : String) :
    exec tools now later (.get key) s = (.ok (s.cache.find now key), s) := rfl

@[simp] theorem exec_set (key : String) (value : Value) (ttl : Int) :
    exec tools now later (.set key value ttl) s =
      (.ok (), { s with
        cache := s.cache.set key (some { value, deadline := some (later + ttl * Auth.second) }) }) :=
  rfl

@[simp] theorem exec_findById (userId : Uuid) :
    exec tools now later (.findById userId) s = (.ok (s.db.findById userId), s) := rfl

@[simp] theorem exec_findProviders (userId : Uuid) :
    exec tools now later (.findProviders userId) s = (.ok (s.db.findProviders userId), s) := rfl

@[simp] theorem exec_findByUserId (userId : Uuid) :
    exec tools now later (.findByUserId userId) s = (.ok (s.db.settings.get userId), s) := rfl

@[simp] theorem exec_findAvatarKey (userId : Uuid) :
    exec tools now later (.findAvatarKey userId) s = (.ok (s.db.findAvatarKey userId), s) := rfl

@[simp] theorem exec_isFollowing (subscriptionId subscriberId : Uuid) :
    exec tools now later (.isFollowing subscriptionId subscriberId) s =
      (.ok (s.db.isFollowing subscriptionId subscriberId), s) := rfl

@[simp] theorem exec_objectExists (key : String) :
    exec tools now later (.objectExists key) s = (.ok (s.objects.contains (tools.path key)), s) :=
  rfl

@[simp] theorem exec_spawnDelete (key : String) :
    exec tools now later (.spawnDelete key) s =
      (.ok (), { s with deletions := s.deletions ++ [key] }) := rfl

end Store

end Meno.Profiles
