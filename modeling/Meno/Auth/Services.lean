import Meno.Auth.Token

/-!
# Meno.Auth.Services

The operations of `AuthService`. What Google answers is an argument, with the client id that the
assertion was issued for, which the code never looks at. The e-mails that are queued are left out
(`Emails` has their texts).
-/

namespace Meno

namespace Auth

open Lib

/-! ## Requests -/

structure RegisterRequest where
  fullName : String
  email : String
  password : String

structure ResetPasswordRequest where
  email : String
  code : String
  newPassword : String

structure GoogleUserInfo where
  sub : String
  email : String
  name : String
  emailVerified : Bool
deriving DecidableEq

/-- What Google says of the holder of a code or an id token. -/
structure GoogleAssertion where
  info : GoogleUserInfo
  /-- The client id that it was issued for. -/
  aud : String
deriving DecidableEq

/-- The ids that one request draws. -/
structure FreshIds where
  userId : Uuid
  identityId : Uuid
  accessJti : Uuid
  refreshJti : Uuid

/-! ## Responses -/

structure UserResponse where
  id : Uuid
  fullName : String
  bio : Option String
  email : String
  verified : Bool
  avatarId : Option String
  avatarUrl : Option String
  createdAt : OffsetDateTime
  deletedAt : Option OffsetDateTime
  providers : List AuthProvider
deriving DecidableEq

structure AuthResponse (τ : Type) where
  accessToken : τ
  refreshToken : τ
  user : UserResponse

def buildAuthResponse {τ : Type} (user : User) (pair : IssuedTokenPair τ)
    (providers : List AuthProvider) : AuthResponse τ where
  accessToken := pair.accessToken
  refreshToken := pair.refreshToken
  user := {
    id := user.id
    fullName := user.fullName
    bio := user.bio
    email := user.email
    verified := user.verified
    avatarId := user.avatarId
    avatarUrl := user.avatarUrl
    createdAt := user.createdAt
    deletedAt := user.deletedAt
    providers }

namespace AuthService

variable {τ : Type} (ts : TokenService τ)

/-- The repository's `create_user`, a transaction of its own. -/
def createUser (id : Uuid) (fullName email : String) : AuthSvc User := do
  beginTx
  let user ← queryTx (.insertUser id fullName email)
  queryTx (.insertSettings user.id)
  commitTx
  return user

/-- `issue_pair` and the response to the user. -/
def issue (user : User) (providers : List AuthProvider) (ids : FreshIds) :
    AuthSvc (AuthResponse τ) := do
  let pair ← ts.issuePair user providers ids.accessJti ids.refreshJti
  return buildAuthResponse user pair providers

/-! ## E-mail and password -/

def register (req : RegisterRequest) (salt otp : String) (ids : FreshIds) :
    AuthSvc (AuthResponse τ) := do
  let existing ← query (.findIdentity .email req.email)
  refuse .emailTaken existing.isSome
  let pwdHash := ts.crypto.hashPassword req.password salt
  let user ← createUser ids.userId req.fullName req.email
  let _ ← query (.createIdentity ids.identityId user.id .email user.email (some pwdHash))
  AuthCache.storeOtp user.email otp .verifyEmail
  issue ts user [.email] ids

def verifyEmail (email code : String) (ids : FreshIds) : AuthSvc (AuthResponse τ) := do
  let user ← okOr .userNotFound (← query (.findByEmail email))
  refuse .emailAlreadyVerified user.verified
  let valid ← AuthCache.verifyOtp email code .verifyEmail
  refuse .invalidOtp (!valid)
  query (.setVerified email)
  let user ← okOr .userNotFound (← query (.findById user.id))
  issue ts user [.email] ids

def resendOtp (email otp : String) (otpType : OtpType) : AuthSvc Unit := do
  match ← query (.findByEmail email) with
  | none => return ()
  | some user =>
    if otpType = .verifyEmail && user.verified then return ()
    else
      let can ← AuthCache.canResendOtp email
      refuse .tooManyRequests (!can)
      AuthCache.revokeOtp email otpType
      AuthCache.storeOtp email otp otpType
      AuthCache.setResendCooldown email

/-- An unknown address is told apart only after the password check. -/
def login (email password dummyHash : String) (ids : FreshIds) : AuthSvc (AuthResponse τ) := do
  AuthCache.checkLoginRateLimit email
  let identity ← query (.findIdentity .email email)
  let hash := (identity.bind UserIdentity.passwordHash).getD dummyHash
  let passwordOk := ts.crypto.verifyPassword password hash
  let identity ← okOr .invalidCredentials identity
  refuse .invalidCredentials (identity.passwordHash.isNone || !passwordOk)
  let user ← okOr .userNotFound (← query (.findById identity.userId))
  refuse .emailNotVerified (!user.verified)
  let _ ← Act.attempt (AuthCache.clearLoginRateLimit email)
  let providers ← query (.findUserProviders user.id)
  issue ts user providers ids

def logout (refreshToken : τ) (accessToken : Option τ) : AuthSvc Unit :=
  ts.revoke refreshToken accessToken

def refresh (refreshToken : τ) (ids : FreshIds) : AuthSvc (AuthResponse τ) := do
  let claims ← ts.decodeRefresh refreshToken
  let providers ← query (.findUserProviders claims.sub)
  let (pair, user) ← ts.rotate refreshToken providers ids.refreshJti ids.accessJti
  return buildAuthResponse user pair providers

def forgotPassword (email otp : String) : AuthSvc Unit := do
  match ← query (.findByEmail email) with
  | none => return ()
  | some _ => AuthCache.storeOtp email otp .resetPassword

def resetPassword (req : ResetPasswordRequest) (salt : String) : AuthSvc Unit := do
  match ← query (.findByEmail req.email) with
  | none => return ()
  | some user =>
    let valid ← AuthCache.verifyOtp user.email req.code .resetPassword
    refuse .invalidOtp (!valid)
    query (.updatePassword user.id (ts.crypto.hashPassword req.newPassword salt))
    AuthCache.revokeOtp user.email .resetPassword
    ts.revokeAllForUser user.id

/-! ## Google -/

def googleAuthorize (csrfToken pkceVerifier : String) : AuthSvc Unit :=
  AuthCache.storeOauthState csrfToken pkceVerifier

/-- The user that the answer stands for. -/
def findOrCreateGoogleUser (info : GoogleUserInfo) (ids : FreshIds) : AuthSvc User := do
  match ← query (.findIdentity .google info.sub) with
  | some identity => okOr .userNotFound (← query (.findById identity.userId))
  | none =>
    match ← query (.findByEmail info.email) with
    | some user =>
      query (.linkProvider ids.identityId user.id .google info.sub)
      return user
    | none =>
      let user ← createUser ids.userId info.name info.email
      let _ ← query (.createIdentity ids.identityId user.id .google user.email none)
      if info.emailVerified then query (.setVerified info.email) else pure ()
      okOr .userNotFound (← query (.findById user.id))

def upsertGoogleUser (info : GoogleUserInfo) (ids : FreshIds) : AuthSvc (AuthResponse τ) := do
  let user ← findOrCreateGoogleUser info ids
  let providers ← query (.findUserProviders user.id)
  issue ts user providers ids

/-- `exchange_code`: Google's userinfo, for a code that was issued to this client. -/
def exchangeCode (answer : Option GoogleAssertion) : AuthSvc GoogleUserInfo :=
  okOr .googleAuthFailed (answer.map GoogleAssertion.info)

/-- `verify_id_token`: only `email_verified` is checked. -/
def verifyIdToken (answer : Option GoogleAssertion) : AuthSvc GoogleUserInfo := do
  let info ← okOr .googleAuthFailed (answer.map GoogleAssertion.info)
  refuse .googleAuthFailed (!info.emailVerified)
  return info

def googleWebAuth (state : String) (answer : Option GoogleAssertion) (ids : FreshIds) :
    AuthSvc (AuthResponse τ) := do
  let _ ← AuthCache.consumeOauthState state
  let userinfo ← exchangeCode answer
  upsertGoogleUser ts userinfo ids

def googleMobileAuth (answer : Option GoogleAssertion) (ids : FreshIds) :
    AuthSvc (AuthResponse τ) := do
  let userinfo ← verifyIdToken answer
  upsertGoogleUser ts userinfo ids

end AuthService

end Auth

end Meno
