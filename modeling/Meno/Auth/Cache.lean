import Meno.Auth.Repository

/-!
# Meno.Auth.Cache

`AuthRedisCache`: one-time passwords, rate limits, OAuth states, and the two blocklists of access
tokens. `let _ = redis.del(..)` goes on whatever the command answers.
-/

namespace Meno

namespace Auth

open Lib

inductive AuthError where
  | emailTaken
  | invalidCredentials
  | emailNotVerified
  | emailAlreadyVerified
  | invalidOtp
  | accessTokenExpired
  | refreshTokenExpired
  | invalidToken
  | missingToken
  | refreshTokenNotFound
  | userNotFound
  | googleAuthFailed
  | tooManyRequests
  | database (e : DbError)
  | redis
  /-- The request is given up on while it is being served. -/
  | timeout
deriving DecidableEq

/-- An operation of the auth module. -/
abbrev AuthSvc (α : Type) := Txn AuthStmt DbError AuthError α

def query {β : Type} (s : AuthStmt β) : AuthSvc β :=
  Act.ask AuthError.database (.exec .pool s)

/-- A statement on `&mut *tx`. -/
def queryTx {β : Type} (s : AuthStmt β) : AuthSvc β :=
  Act.ask AuthError.database (.exec .tx s)

def beginTx : AuthSvc Unit := Act.ask AuthError.database .begin

def commitTx : AuthSvc Unit := Act.ask AuthError.database .commit

def redis {β : Type} (s : AuthStmt β) : AuthSvc β :=
  Act.ask (fun _ => AuthError.redis) (.exec .pool s)

/-- `OffsetDateTime::now_utc()`. -/
def nowUtc : AuthSvc OffsetDateTime := Act.ask (fun _ => AuthError.timeout) (.exec .pool .nowUtc)

/-- `.ok_or(error)?`. -/
def okOr {α : Type} (error : AuthError) : Option α → AuthSvc α
  | some a => pure a
  | none => throw error

/-- `if cond { return Err(error) }`. -/
def refuse (error : AuthError) (cond : Bool) : AuthSvc Unit :=
  if cond then throw error else pure ()

def ttlOtpSecs : Int := 900

def ttlCooldownSecs : Int := 60

def ttlRateWindowSecs : Int := 900

def maxLoginAttempts : Int := 10

def ttlAccessTokenBlockMax : Int := 900

namespace AuthCache

/-! ## One-time passwords -/

def storeOtp (email otp : String) (otpType : OtpType) : AuthSvc Unit :=
  redis (.redisSet (.otp email otpType) (.text otp) (some ttlOtpSecs))

def verifyOtp (email code : String) (otpType : OtpType) : AuthSvc Bool := do
  let attemptsKey := RedisKey.otpAttempts email otpType
  let attempts ← redis (.redisIncr attemptsKey)
  if attempts = 1 then redis (.redisExpire attemptsKey ttlOtpSecs) else pure ()
  refuse .tooManyRequests (attempts > 5)
  match ← redis (.redisGet (.otp email otpType)) with
  | some (.text s) =>
    if s = code then
      let _ ← Act.attempt (redis (.redisDel attemptsKey))
      let _ ← Act.attempt (redis (.redisDel (.otp email otpType)))
      return true
    else return false
  | some _ => throw .redis
  | none => throw .invalidOtp

def revokeOtp (email : String) (otpType : OtpType) : AuthSvc Unit :=
  redis (.redisDel (.otp email otpType))

def canResendOtp (email : String) : AuthSvc Bool := do
  return (← redis (.redisGet (.otpResend email))).isNone

def setResendCooldown (email : String) : AuthSvc Unit :=
  redis (.redisSet (.otpResend email) (.text "1") (some ttlCooldownSecs))

/-! ## OAuth states -/

def storeOauthState (state verifier : String) : AuthSvc Unit := do
  redis (.redisSet (.oauth2State state) (.oauth verifier) none)
  redis (.redisExpire (.oauth2State state) 300)

def consumeOauthState (state : String) : AuthSvc String := do
  let data ← redis (.redisGet (.oauth2State state))
  let _ ← Act.attempt (redis (.redisDel (.oauth2State state)))
  match data with
  | some (.oauth verifier) => return verifier
  | _ => throw .invalidToken

/-! ## Login attempts -/

def checkLoginRateLimit (email : String) : AuthSvc Unit := do
  let count ← redis (.redisIncrAndExpire (.loginAttempts email) ttlRateWindowSecs)
  refuse .tooManyRequests (count > maxLoginAttempts)

def clearLoginRateLimit (email : String) : AuthSvc Unit := redis (.redisDel (.loginAttempts email))

/-! ## Blocked access tokens -/

def blockAccessToken (jti : Uuid) (remainingSecs : Int) : AuthSvc Unit :=
  let ttl := min remainingSecs ttlAccessTokenBlockMax
  if ttl ≤ 0 then pure ()
  else redis (.redisSet (.accessToken jti) (.text "BLOCKED") (some ttl))

def isTokenBlocked (jti : Uuid) : AuthSvc Bool := do
  return (← redis (.redisGet (.accessToken jti))).isSome

/-- A token of the very second in which all were blocked is not blocked. -/
def isUserTokensBlocked (userId : Uuid) (issuedAt : Int) : AuthSvc Bool := do
  match ← redis (.redisGet (.allUserAccessTokens userId)) with
  | some (.int blockedAt) => return issuedAt < blockedAt
  | some _ => throw .redis
  | none => return false

def blockAllUserTokens (userId : Uuid) (ttl : Int) : AuthSvc Unit := do
  let blockedAt := unixTimestamp (← nowUtc)
  redis (.redisSet (.allUserAccessTokens userId) (.int blockedAt) (some ttl))

end AuthCache

end Auth

end Meno
