import Meno.Auth.Model
import Meno.Lib.Txn

/-!
# Meno.Auth.Repository

The SQL statements of `AuthRepository` and the Redis commands of `AuthRedisCache`, one definition
each. The trigger `update_updated_at_column` stamps every updated user and identity.
-/

namespace Meno

namespace Auth

open Lib

/-- A statement's answer with its row writes. -/
abbrev Written (β : Type) := β × List AuthWrite

namespace AuthRepository

def checkUser (db : AuthDb) (id : Uuid) : Except DbError Unit :=
  if (db.users.get id).isSome then .ok () else .error .foreignKeyViolation

/-! ## Users -/

/-- `id` is the value of `gen_random_uuid()`. -/
def insertUser (db : AuthDb) (now : OffsetDateTime) (id : Uuid) (fullName email : String) :
    Except DbError (Written User) := do
  bindText fullName
  bindText email
  if (db.users.get id).isSome || db.users.rows.any (fun u => u.email == email) then
    throw .uniqueViolation
  else
    let row : User := {
      id, fullName, email
      bio := none
      avatarId := none
      avatarUrl := none
      verified := false
      role := .user
      createdAt := now
      updatedAt := now
      deletedAt := none }
    return (row, [.user row])

def insertSettings (db : AuthDb) (userId : Uuid) : Except DbError (Written Unit) := do
  if (db.settings.get userId).isSome then throw .uniqueViolation
  else
    checkUser db userId
    return ((), [.settings userId])

def findByEmail (db : AuthDb) (email : String) : Except DbError (Written (Option User)) := do
  bindText email
  return (db.users.rows.find? fun u => u.email == email, [])

def findById (db : AuthDb) (id : Uuid) : Option User := db.users.get id

def setVerified (db : AuthDb) (now : OffsetDateTime) (email : String) :
    Except DbError (Written Unit) := do
  bindText email
  match db.users.rows.find? fun u => u.email == email with
  | none => return ((), [])
  | some u => return ((), [.user { u with verified := true, updatedAt := now }])

/-! ## Identities -/

/-- Whether a row has the identity's `(provider_type, provider_user_id)`. -/
def UserIdentity.has (provider : AuthProvider) (providerUserId : String) (i : UserIdentity) : Bool :=
  i.providerType == provider && i.providerUserId == providerUserId

def findIdentity (db : AuthDb) (provider : AuthProvider) (providerUserId : String) :
    Except DbError (Written (Option UserIdentity)) := do
  bindText providerUserId
  return (db.identities.rows.find? (UserIdentity.has provider providerUserId), [])

def identityRow (now : OffsetDateTime) (id userId : Uuid) (provider : AuthProvider)
    (providerUserId : String) (passwordHash : Option String) : UserIdentity where
  id := id
  userId := userId
  providerType := provider
  providerUserId := providerUserId
  passwordHash := passwordHash
  createdAt := now
  updatedAt := none

def createIdentity (db : AuthDb) (now : OffsetDateTime) (id userId : Uuid) (provider : AuthProvider)
    (providerUserId : String) (passwordHash : Option String) :
    Except DbError (Written UserIdentity) := do
  bindText providerUserId
  bindTextOpt passwordHash
  if (db.identities.get id).isSome ||
      db.identities.rows.any (fun i => i.userId == userId && i.providerType == provider) ||
      db.identities.rows.any (UserIdentity.has provider providerUserId) then
    throw .uniqueViolation
  else
    checkUser db userId
    let row := identityRow now id userId provider providerUserId passwordHash
    return (row, [.identity row])

/-- `ON CONFLICT (user_id, provider_type) DO NOTHING`; another conflict is an error. -/
def linkProvider (db : AuthDb) (now : OffsetDateTime) (id userId : Uuid) (provider : AuthProvider)
    (providerUserId : String) : Except DbError (Written Unit) := do
  bindText providerUserId
  if db.identities.rows.any (fun i => i.userId == userId && i.providerType == provider) then
    return ((), [])
  else if (db.identities.get id).isSome ||
      db.identities.rows.any (UserIdentity.has provider providerUserId) then
    throw .uniqueViolation
  else
    checkUser db userId
    return ((), [.identity (identityRow now id userId provider providerUserId none)])

def findUserProviders (db : AuthDb) (userId : Uuid) : List AuthProvider :=
  (db.identities.rows.filter fun i => i.userId == userId).map UserIdentity.providerType

/-- Every identity of the user is given the password, whatever its provider. -/
def updatePassword (db : AuthDb) (now : OffsetDateTime) (userId : Uuid) (hash : String) :
    Except DbError (Written Unit) := do
  bindText hash
  let rows := db.identities.rows.filter fun i => i.userId == userId
  return ((), rows.map fun i => .identity { i with passwordHash := some hash, updatedAt := some now })

/-! ## Refresh tokens -/

def storeRefreshToken (db : AuthDb) (now : OffsetDateTime) (jti userId : Uuid) (tokenHash : String)
    (expiresAt : OffsetDateTime) : Except DbError (Written Unit) := do
  bindText tokenHash
  if (db.refreshTokens.get jti).isSome ||
      db.refreshTokens.rows.any (fun r => r.tokenHash == tokenHash) then
    throw .uniqueViolation
  else
    checkUser db userId
    return ((), [.refreshToken { id := jti, userId, tokenHash, createdAt := now, expiresAt }])

def findRefreshToken (db : AuthDb) (jti userId : Uuid) : Option RefreshToken :=
  (db.refreshTokens.get jti).filter fun r => r.userId == userId

/-- The `DELETE` of `rotate_refresh_token`, with the number of rows. -/
def deleteRefreshToken (db : AuthDb) (jti userId : Uuid) : Written Nat :=
  match findRefreshToken db jti userId with
  | none => (0, [])
  | some _ => (1, [.dropRefreshToken jti])

/-- `revoke_refresh_token`. -/
def revokeRefreshToken (db : AuthDb) (jti : Uuid) : Written Nat :=
  match db.refreshTokens.get jti with
  | none => (0, [])
  | some _ => (1, [.dropRefreshToken jti])

/-- The rows that the `DELETE` of `revoke_all_refresh_tokens` is going to delete: those that are
committed when it begins. -/
def refreshTokensOf (db : AuthDb) (userId : Uuid) : List Uuid :=
  (db.refreshTokens.rows.filter fun r => r.userId == userId).map RefreshToken.id

/-- The deletion of those rows, as far as they are still there. -/
def deleteRefreshTokens (db : AuthDb) (ids : List Uuid) : Written Nat :=
  let rows := db.refreshTokens.rows.filter fun r => ids.contains r.id
  (rows.length, rows.map fun r => .dropRefreshToken r.id)

end AuthRepository

/-! ## Redis -/

namespace Redis

/-- `SET key value [EX ttl]`: an expire time that is not positive is an error. -/
def set (now : OffsetDateTime) (key : RedisKey) (value : RedisValue) (ttl : Option Int) :
    Except DbError (Written Unit) :=
  if ttl.any (· ≤ 0) then .error .infrastructure
  else .ok ((), [.redis key (some { value, deadline := ttl.map fun s => now + s * second })])

def get (db : AuthDb) (now : OffsetDateTime) (key : RedisKey) : Option RedisValue :=
  db.redis.find now key

def del (key : RedisKey) : Written Unit := ((), [.redis key none])

/-- `INCR`: an expiry that the key has stays. -/
def incr (db : AuthDb) (now : OffsetDateTime) (key : RedisKey) : Except DbError (Written Int) :=
  match db.redis.entry now key with
  | none => .ok (1, [.redis key (some { value := .int 1, deadline := none })])
  | some { value := .int n, deadline } =>
    .ok (n + 1, [.redis key (some { value := .int (n + 1), deadline })])
  | some _ => .error .infrastructure

def expire (db : AuthDb) (now : OffsetDateTime) (key : RedisKey) (ttl : Int) : Written Unit :=
  match db.redis.entry now key with
  | none => ((), [])
  | some e => ((), [.redis key (some { e with deadline := some (now + ttl * second) })])

/-- The script of `incr_and_expire_if_first`. -/
def incrAndExpireIfFirst (db : AuthDb) (now : OffsetDateTime) (key : RedisKey) (ttl : Int) :
    Except DbError (Written Int) :=
  match db.redis.entry now key with
  | none => .ok (1, [.redis key (some { value := .int 1, deadline := some (now + ttl * second) })])
  | some { value := .int n, deadline } =>
    .ok (n + 1, [.redis key (some { value := .int (n + 1), deadline })])
  | some _ => .error .infrastructure

end Redis

/-! ## The calls -/

inductive AuthStmt : Type → Type where
  | insertUser (id : Uuid) (fullName email : String) : AuthStmt User
  | insertSettings (userId : Uuid) : AuthStmt Unit
  | findByEmail (email : String) : AuthStmt (Option User)
  | findById (id : Uuid) : AuthStmt (Option User)
  | setVerified (email : String) : AuthStmt Unit
  | findIdentity (provider : AuthProvider) (providerUserId : String) :
      AuthStmt (Option UserIdentity)
  | createIdentity (id userId : Uuid) (provider : AuthProvider) (providerUserId : String)
      (passwordHash : Option String) : AuthStmt UserIdentity
  | linkProvider (id userId : Uuid) (provider : AuthProvider) (providerUserId : String) :
      AuthStmt Unit
  | findUserProviders (userId : Uuid) : AuthStmt (List AuthProvider)
  | updatePassword (userId : Uuid) (hash : String) : AuthStmt Unit
  | storeRefreshToken (jti userId : Uuid) (tokenHash : String) (expiresAt : OffsetDateTime) :
      AuthStmt Unit
  | findRefreshToken (jti userId : Uuid) : AuthStmt (Option RefreshToken)
  | deleteRefreshToken (jti userId : Uuid) : AuthStmt Nat
  | revokeRefreshToken (jti : Uuid) : AuthStmt Nat
  | refreshTokensOf (userId : Uuid) : AuthStmt (List Uuid)
  | deleteRefreshTokens (ids : List Uuid) : AuthStmt Nat
  | redisSet (key : RedisKey) (value : RedisValue) (ttl : Option Int) : AuthStmt Unit
  | redisGet (key : RedisKey) : AuthStmt (Option RedisValue)
  | redisDel (key : RedisKey) : AuthStmt Unit
  | redisIncr (key : RedisKey) : AuthStmt Int
  | redisExpire (key : RedisKey) (ttl : Int) : AuthStmt Unit
  | redisIncrAndExpire (key : RedisKey) (ttl : Int) : AuthStmt Int
  /-- `OffsetDateTime::now_utc()`. -/
  | nowUtc : AuthStmt OffsetDateTime

def AuthStmt.exec : {β : Type} → AuthStmt β → OffsetDateTime → AuthDb → Except DbError (Written β)
  | _, .insertUser id name email, now, db => AuthRepository.insertUser db now id name email
  | _, .insertSettings u, _, db => AuthRepository.insertSettings db u
  | _, .findByEmail email, _, db => AuthRepository.findByEmail db email
  | _, .findById id, _, db => .ok (AuthRepository.findById db id, [])
  | _, .setVerified email, now, db => AuthRepository.setVerified db now email
  | _, .findIdentity p pid, _, db => AuthRepository.findIdentity db p pid
  | _, .createIdentity id u p pid hash, now, db =>
    AuthRepository.createIdentity db now id u p pid hash
  | _, .linkProvider id u p pid, now, db => AuthRepository.linkProvider db now id u p pid
  | _, .findUserProviders u, _, db => .ok (AuthRepository.findUserProviders db u, [])
  | _, .updatePassword u hash, now, db => AuthRepository.updatePassword db now u hash
  | _, .storeRefreshToken jti u hash expiresAt, now, db =>
    AuthRepository.storeRefreshToken db now jti u hash expiresAt
  | _, .findRefreshToken jti u, _, db => .ok (AuthRepository.findRefreshToken db jti u, [])
  | _, .deleteRefreshToken jti u, _, db => .ok (AuthRepository.deleteRefreshToken db jti u)
  | _, .revokeRefreshToken jti, _, db => .ok (AuthRepository.revokeRefreshToken db jti)
  | _, .refreshTokensOf u, _, db => .ok (AuthRepository.refreshTokensOf db u, [])
  | _, .deleteRefreshTokens ids, _, db => .ok (AuthRepository.deleteRefreshTokens db ids)
  | _, .redisSet k v ttl, now, _ => Redis.set now k v ttl
  | _, .redisGet k, now, db => .ok (Redis.get db now k, [])
  | _, .redisDel k, _, _ => .ok (Redis.del k)
  | _, .redisIncr k, now, db => Redis.incr db now k
  | _, .redisExpire k ttl, now, db => .ok (Redis.expire db now k ttl)
  | _, .redisIncrAndExpire k ttl, now, db => Redis.incrAndExpireIfFirst db now k ttl
  | _, .nowUtc, now, _ => .ok (now, [])

/-- PostgreSQL, Redis and the clock as one store. -/
def authEngine : Engine AuthStmt AuthDb AuthWrite OffsetDateTime DbError where
  exec := AuthStmt.exec
  apply := AuthDb.apply
  fault := .infrastructure

end Auth

end Meno
