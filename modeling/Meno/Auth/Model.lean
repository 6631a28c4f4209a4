import Meno.Basic
import Meno.Lib.Expiring
import Meno.Lib.Table

/-!
# Meno.Auth.Model

Users, their identities and refresh tokens, the Redis keys of the auth module, and the claims of the
tokens. A millisecond rounding of the time columns is left out.
-/

namespace Meno

namespace Auth

open Lib

/-! ## Rows -/

inductive UserRole where
  | user
  | admin
deriving DecidableEq, Repr

inductive AuthProvider where
  | email
  | google
  | apple
  | facebook
deriving DecidableEq, Repr

inductive OtpType where
  | verifyEmail
  | resetPassword
deriving DecidableEq, Repr

structure User where
  id : Uuid
  fullName : String
  bio : Option String
  email : String
  avatarId : Option String
  avatarUrl : Option String
  verified : Bool
  role : UserRole
  createdAt : OffsetDateTime
  updatedAt : OffsetDateTime
  deletedAt : Option OffsetDateTime
deriving DecidableEq

structure UserIdentity where
  id : Uuid
  userId : Uuid
  providerType : AuthProvider
  providerUserId : String
  passwordHash : Option String
  createdAt : OffsetDateTime
  updatedAt : Option OffsetDateTime
deriving DecidableEq

structure RefreshToken where
  id : Uuid
  userId : Uuid
  tokenHash : String
  createdAt : OffsetDateTime
  expiresAt : OffsetDateTime
deriving DecidableEq

/-! ## Redis -/

/-- The keys of the auth module, and the one of `ws_upgrade`. The texts behind them start with different prefixes. -/
inductive RedisKey where
  | otp (email : String) (otpType : OtpType)
  | otpAttempts (email : String) (otpType : OtpType)
  | otpResend (email : String)
  | loginAttempts (email : String)
  | oauth2State (state : String)
  | reconnectRate (userId : Uuid)
  /-- `block_list("ACCESS_TOKEN", jti)`. -/
  | accessToken (jti : Uuid)
  /-- `block_list("ALL_USER_ACCESS_TOKENS", user_id)`. -/
  | allUserAccessTokens (userId : Uuid)
deriving DecidableEq

inductive RedisValue where
  | text (s : String)
  | int (n : Int)
  /-- The hash with `csrf_token` = `true` and this `pkce_code_verifier`. -/
  | oauth (verifier : String)
deriving DecidableEq

/-! ## The store -/

structure AuthDb where
  users : Table User User.id
  identities : Table UserIdentity UserIdentity.id
  refreshTokens : Table RefreshToken RefreshToken.id
  /-- `settings.user_id`. -/
  settings : Table Uuid id
  redis : Expiring RedisKey RedisValue OffsetDateTime

inductive AuthWrite where
  | user (row : User)
  | identity (row : UserIdentity)
  | refreshToken (row : RefreshToken)
  | dropRefreshToken (id : Uuid)
  | settings (userId : Uuid)
  | redis (key : RedisKey) (entry : Option (Entry RedisValue OffsetDateTime))

namespace AuthDb

def apply (db : AuthDb) : AuthWrite → AuthDb
  | .user row => { db with users := db.users.put row }
  | .identity row => { db with identities := db.identities.put row }
  | .refreshToken row => { db with refreshTokens := db.refreshTokens.put row }
  | .dropRefreshToken id => { db with refreshTokens := db.refreshTokens.erase id }
  | .settings userId => { db with settings := db.settings.put userId }
  | .redis key entry => { db with redis := db.redis.set key entry }

def empty : AuthDb where
  users := .empty
  identities := .empty
  refreshTokens := .empty
  settings := .empty
  redis := .empty

end AuthDb

/-! ## Tokens -/

/-- Nanoseconds in a second. -/
def second : Int := 1000000000

/-- `OffsetDateTime::unix_timestamp`. -/
def unixTimestamp (t : OffsetDateTime) : Int := t.fdiv second

/-- The claims of an access token. -/
structure AccessClaims where
  sub : Uuid
  jti : Uuid
  email : String
  fullName : String
  verified : Bool
  providers : List AuthProvider
  role : UserRole
  exp : Int
  iat : Int
deriving DecidableEq

structure RefreshClaims where
  sub : Uuid
  jti : Uuid
  exp : Int
  iat : Int
deriving DecidableEq

/-- The JSON object that a token carries. -/
inductive Payload where
  | access (c : AccessClaims)
  | refresh (c : RefreshClaims)
deriving DecidableEq

/-- The object read as `AccessClaims`. -/
def Payload.toAccess : Payload → Option AccessClaims
  | .access c => some c
  | .refresh _ => none

/-- The object read as `RefreshClaims`: fields that it has besides are ignored. -/
def Payload.toRefresh : Payload → Option RefreshClaims
  | .access c => some { sub := c.sub, jti := c.jti, exp := c.exp, iat := c.iat }
  | .refresh c => some c

/-- The libraries that sign and check tokens (HS256), hash tokens (SHA-256) and hash passwords
(Argon2); `τ` are the texts of tokens. What a token was signed with, it is checked with. -/
structure Crypto (τ : Type) where
  encode : (secret : String) → Payload → τ
  decode : (secret : String) → τ → Option Payload
  decode_encode : ∀ secret p, decode secret (encode secret p) = some p
  hashToken : τ → String
  hashPassword : (password salt : String) → String
  verifyPassword : (password hash : String) → Bool

/-- A token as its secret and payload. Only tokens that differ in their ids have different hashes. -/
def Crypto.transparent : Crypto (String × Payload) where
  encode secret p := (secret, p)
  decode secret token := if token.1 = secret then some token.2 else none
  decode_encode _ _ := if_pos rfl
  hashToken token :=
    let jti := match token.2 with
      | .access c => c.jti
      | .refresh c => c.jti
    String.ofList (List.replicate jti.bits.toNat '#')
  hashPassword password _ := password
  verifyPassword password hash := password == hash

structure TokenConfig where
  accessSecret : String
  refreshSecret : String
  accessTtlSecs : Int
  refreshTtlSecs : Int

end Auth

end Meno
