import Meno.Auth.Token

/-!
# Meno.Auth.Middleware

The two places that let a request in by its access token: `auth_middleware` in front of the HTTP
routes, and `ws_upgrade`. Neither calls the other.
-/

namespace Meno

namespace Auth

open Lib

/-! ## HTTP -/

structure AuthUser where
  id : Uuid
  jti : Uuid
  fullName : String
  email : String
  verified : Bool
  providers : List AuthProvider
  role : UserRole
deriving DecidableEq

def AccessClaims.toAuthUser (c : AccessClaims) : AuthUser where
  id := c.sub
  jti := c.jti
  fullName := c.fullName
  email := c.email
  verified := c.verified
  providers := c.providers
  role := c.role

variable {τ : Type} (ts : TokenService τ)

/-- `token` is what follows `Bearer` in the header. -/
def authMiddleware (token : Option τ) : AuthSvc AuthUser := do
  let token ← okOr .missingToken token
  let claims ← ts.decodeAccess token
  let blocked ← TokenService.isAccessTokenBlocked claims.jti claims.sub claims.iat
  refuse .invalidToken blocked
  refuse .emailNotVerified (!claims.verified)
  return claims.toAuthUser

/-! ## WebSocket -/

/-- A refused upgrade: the status and the text. -/
inductive WsError where
  | unauthorized
  | emailNotVerified
  | rateLimitCheckFailed
  | tooManyAttempts
  | internal
  | userNotFound
  | tooManyConnections
deriving DecidableEq

abbrev WsSvc (α : Type) := Txn AuthStmt DbError WsError α

/-- The part of `ws_upgrade` that decides on the token. -/
def wsAuthenticate (token : τ) : WsSvc AccessClaims := do
  let now ← Act.ask (fun _ => WsError.internal) (.exec .pool .nowUtc)
  match ts.checkAccess now token with
  | .error _ => throw .unauthorized
  | .ok claims => if claims.verified then return claims else throw .emailNotVerified

def checkReconnectRate (userId : Uuid) : WsSvc Unit := do
  let key := RedisKey.reconnectRate userId
  let count ← Act.ask (fun _ => WsError.rateLimitCheckFailed) (.exec .pool (.redisIncr key))
  if count = 1 then
    let _ ← Act.attempt (ε := WsError)
      (Act.ask (fun _ => WsError.internal) (.exec .pool (.redisExpire key 60)))
  if count > 10 then throw .tooManyAttempts else return ()

def maxWsConnectionsPerUser : Nat := 5

/-- `connections` is the number of connections that the user has. -/
def wsUpgrade (token : τ) (connections : Nat) : WsSvc User := do
  let claims ← wsAuthenticate ts token
  checkReconnectRate claims.sub
  match ← Act.ask (fun _ => WsError.internal) (.exec .pool (.findById claims.sub)) with
  | none => throw .userNotFound
  | some user =>
    if connections ≥ maxWsConnectionsPerUser then throw .tooManyConnections else return user

end Auth

end Meno
