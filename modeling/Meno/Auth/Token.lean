import Meno.Auth.Cache

/-!
# Meno.Auth.Token

`TokenService`: signing and checking tokens, and the life of refresh tokens. Every `Uuid::new_v4()`
is an argument. The check of a token's expiry has no leeway: the token is good through the second
`exp`.
-/

namespace Meno

namespace Auth

open Lib

structure TokenService (τ : Type) where
  crypto : Crypto τ
  config : TokenConfig

/-- Fifteen minutes for access tokens, seven days for refresh tokens. -/
def TokenService.transparent : TokenService (String × Payload) where
  crypto := .transparent
  config := {
    accessSecret := "access"
    refreshSecret := "refresh"
    accessTtlSecs := 900
    refreshTtlSecs := 604800 }

structure IssuedTokenPair (τ : Type) where
  accessToken : τ
  refreshToken : τ
  refreshJti : Uuid
  refreshExpiresAt : OffsetDateTime

namespace TokenService

variable {τ : Type} (ts : TokenService τ)

/-! ## Claims -/

/-- `decode_access` at the time `now`. -/
def checkAccess (now : OffsetDateTime) (token : τ) : Except AuthError AccessClaims :=
  match (ts.crypto.decode ts.config.accessSecret token).bind Payload.toAccess with
  | none => .error .invalidToken
  | some c => if c.exp < unixTimestamp now then .error .accessTokenExpired else .ok c

/-- `decode_refresh` at the time `now`. -/
def checkRefresh (now : OffsetDateTime) (token : τ) : Except AuthError RefreshClaims :=
  match (ts.crypto.decode ts.config.refreshSecret token).bind Payload.toRefresh with
  | none => .error .invalidToken
  | some c => if c.exp < unixTimestamp now then .error .refreshTokenExpired else .ok c

def decodeAccess (token : τ) : AuthSvc AccessClaims := do
  Act.ofExcept (ts.checkAccess (← nowUtc) token)

def decodeRefresh (token : τ) : AuthSvc RefreshClaims := do
  Act.ofExcept (ts.checkRefresh (← nowUtc) token)

def accessClaims (user : User) (providers : List AuthProvider) (jti : Uuid) (now : Int) :
    AccessClaims where
  sub := user.id
  jti := jti
  email := user.email
  fullName := user.fullName
  verified := user.verified
  providers := providers
  role := user.role
  exp := now + ts.config.accessTtlSecs
  iat := now

def signAccess (user : User) (providers : List AuthProvider) (jti : Uuid) : AuthSvc τ := do
  let now := unixTimestamp (← nowUtc)
  return ts.crypto.encode ts.config.accessSecret (.access (ts.accessClaims user providers jti now))

/-- The claims and the text of a refresh token. -/
def signRefresh (userId jti : Uuid) (nowUnix : Int) : τ :=
  ts.crypto.encode ts.config.refreshSecret (.refresh {
    sub := userId, jti
    exp := nowUnix + ts.config.refreshTtlSecs
    iat := nowUnix })

/-! ## Pairs -/

def issuePair (user : User) (providers : List AuthProvider) (accessJti jti : Uuid) :
    AuthSvc (IssuedTokenPair τ) := do
  let accessToken ← ts.signAccess user providers accessJti
  let now ← nowUtc
  let expiresAt := now + ts.config.refreshTtlSecs * second
  let refreshToken := ts.signRefresh user.id jti (unixTimestamp (← nowUtc))
  query (.storeRefreshToken jti user.id (ts.crypto.hashToken refreshToken) expiresAt)
  return { accessToken, refreshToken, refreshExpiresAt := expiresAt, refreshJti := jti }

/-- The repository's `rotate_refresh_token`: the number of deleted rows is not looked at. -/
def rotateRefreshToken (userId oldJti newJti : Uuid) (newHash : String)
    (expiresAt : OffsetDateTime) : AuthSvc Unit := do
  beginTx
  let _ ← queryTx (.deleteRefreshToken oldJti userId)
  queryTx (.storeRefreshToken newJti userId newHash expiresAt)
  commitTx

/-- Deletion of the row whose expiry has passed, when a token is rotated. -/
def refuseExpired (stored : RefreshToken) (jti : Uuid) : AuthSvc Unit := do
  let now ← nowUtc
  if stored.expiresAt < now then
    let _ ← query (.revokeRefreshToken jti)
    throw .refreshTokenExpired
  else pure ()

def rotate (refreshToken : τ) (providers : List AuthProvider) (newJti accessJti : Uuid) :
    AuthSvc (IssuedTokenPair τ × User) := do
  let claims ← ts.decodeRefresh refreshToken
  let stored ← okOr .refreshTokenNotFound (← query (.findRefreshToken claims.jti claims.sub))
  refuse .invalidToken (ts.crypto.hashToken refreshToken != stored.tokenHash)
  refuseExpired stored claims.jti
  let user ← okOr .userNotFound (← query (.findById claims.sub))
  let now ← nowUtc
  let newExpiresAt := now + ts.config.refreshTtlSecs * second
  let newRefreshToken := ts.signRefresh user.id newJti (unixTimestamp (← nowUtc))
  rotateRefreshToken user.id claims.jti newJti (ts.crypto.hashToken newRefreshToken) newExpiresAt
  let accessToken ← ts.signAccess user providers accessJti
  return ({
    accessToken, refreshToken := newRefreshToken
    refreshExpiresAt := newExpiresAt, refreshJti := newJti }, user)

/-! ## Revocation -/

/-- An access token that is bad anyway is not blocked. -/
def blockIfValid : Option τ → AuthSvc Unit
  | none => pure ()
  | some token => do
    match ts.checkAccess (← nowUtc) token with
    | .error _ => return ()
    | .ok ac =>
      let remaining := ac.exp - unixTimestamp (← nowUtc)
      if remaining > 0 then AuthCache.blockAccessToken ac.jti remaining else pure ()

def revoke (refreshToken : τ) (accessToken : Option τ) : AuthSvc Unit := do
  let claims ← ts.decodeRefresh refreshToken
  let _ ← query (.revokeRefreshToken claims.jti)
  ts.blockIfValid accessToken

/-- `DELETE .. WHERE user_id = ..`. -/
def revokeAllRefreshTokens (userId : Uuid) : AuthSvc Unit := do
  let ids ← query (.refreshTokensOf userId)
  let _ ← query (.deleteRefreshTokens ids)

def revokeAllForUser (userId : Uuid) : AuthSvc Unit := do
  revokeAllRefreshTokens userId
  AuthCache.blockAllUserTokens userId ts.config.accessTtlSecs

/-- `try_join!` of the two lookups. -/
def isAccessTokenBlocked (jti userId : Uuid) (issuedAt : Int) : AuthSvc Bool := do
  let jtiBlocked ← AuthCache.isTokenBlocked jti
  let userBlocked ← AuthCache.isUserTokensBlocked userId issuedAt
  return jtiBlocked || userBlocked

end TokenService

end Auth

end Meno
