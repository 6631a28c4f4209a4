import Meno.Auth.Ops
import Meno.Auth.Rotation

/-!
# Meno.Auth.Blocklist

The entry of a user under `ALL_USER_ACCESS_TOKENS`. Only `block_all_user_tokens` writes it, outside
of transactions, with the second in which it read the clock and the life of an access token
(`op_setsBlocks`). So in the runs in which no entry is replaced by an earlier one, the tokens that
it blocks stay blocked until the entry expires (`Blocking.step`).
-/

namespace Meno

namespace Auth

open Lib

/-! ## Redis keys -/

/-- The key that a statement writes. -/
def AuthStmt.redisKey : {β : Type} → AuthStmt β → Option RedisKey
  | _, .redisSet k _ _ => some k
  | _, .redisDel k => some k
  | _, .redisIncr k => some k
  | _, .redisExpire k _ => some k
  | _, .redisIncrAndExpire k _ => some k
  | _, _ => none

def AuthWrite.redisKey : AuthWrite → Option RedisKey
  | .redis k _ => some k
  | _ => none

/-- Whether the key is that of a user's entry. -/
def isBlockKey : Option RedisKey → Bool
  | some (.allUserAccessTokens _) => true
  | _ => false

section Statements

variable {db : AuthDb} {now : OffsetDateTime} {ws : List AuthWrite}

theorem redisKey_one {x : AuthWrite} : ∀ y ∈ [x], y.redisKey = x.redisKey := by
  intro y hy
  rw [List.mem_singleton.1 hy]

theorem exec_redisKey {β : Type} {s : AuthStmt β} {b : β}
    (h : authEngine.exec s now db = .ok (b, ws)) : ∀ x ∈ ws, x.redisKey = s.redisKey := by
  cases s with
  | storeRefreshToken _ _ _ _ =>
    rw [(AuthRepository.storeRefreshToken_ok h).1]
    exact redisKey_one
  | deleteRefreshToken _ _ =>
    rcases deleteRefreshToken_ok h with rfl | ⟨rfl, -⟩
    · simp
    · exact redisKey_one
  | revokeRefreshToken _ =>
    rcases revokeRefreshToken_ok h with ⟨rfl, -⟩ | ⟨rfl, -⟩
    · simp
    · exact redisKey_one
  | deleteRefreshTokens _ =>
    cases h
    intro x hx
    obtain ⟨r, -, rfl⟩ := List.mem_map.1 hx
    rfl
  | insertUser id name email =>
    obtain ⟨-, -, rfl, -⟩ := AuthRepository.insertUser_ok h
    exact redisKey_one
  | insertSettings u =>
    rw [AuthRepository.insertSettings_ok h]
    exact redisKey_one
  | findByEmail email =>
    rw [(AuthRepository.findByEmail_ok h).2]
    simp
  | setVerified email =>
    rcases AuthRepository.setVerified_ok h with ⟨-, rfl⟩ | ⟨u, -, -, rfl⟩
    · simp
    · exact redisKey_one
  | findIdentity p pid =>
    rw [(AuthRepository.findIdentity_ok h).2]
    simp
  | createIdentity id u p pid hash =>
    rw [(AuthRepository.createIdentity_ok h).2.1]
    exact redisKey_one
  | linkProvider id u p pid =>
    rcases AuthRepository.linkProvider_ok h with ⟨-, rfl⟩ | ⟨rfl, -⟩
    · simp
    · exact redisKey_one
  | updatePassword u hash =>
    obtain ⟨_, _, he⟩ := bind_eq_ok.1 h
    cases he
    intro x hx
    obtain ⟨i, -, rfl⟩ := List.mem_map.1 hx
    rfl
  | redisSet k v ttl =>
    simp only [authEngine, AuthStmt.exec, Redis.set] at h
    split at h
    · cases h
    · cases h
      exact redisKey_one
  | redisDel k =>
    cases h
    exact redisKey_one
  | redisIncr k =>
    simp only [authEngine, AuthStmt.exec, Redis.incr] at h
    split at h
    · cases h
      exact redisKey_one
    · cases h
      exact redisKey_one
    · cases h
  | redisExpire k ttl =>
    simp only [authEngine, AuthStmt.exec, Redis.expire] at h
    split at h
    · cases h
      simp
    · cases h
      exact redisKey_one
  | redisIncrAndExpire k ttl =>
    simp only [authEngine, AuthStmt.exec, Redis.incrAndExpireIfFirst] at h
    split at h
    · cases h
      exact redisKey_one
    · cases h
      exact redisKey_one
    · cases h
  | _ => cases h; simp

end Statements

/-! ## Who writes the entry -/

/-- A call writes no entry of a user, or is the one of `block_all_user_tokens`. -/
def SetsBlocks (ttl : Int) : {β : Type} → Cmd AuthStmt DbError β → Prop
  | _, .exec .pool (.redisSet (.allUserAccessTokens _) (.int _) t) => t = some ttl
  | _, .exec _ s => isBlockKey s.redisKey = false
  | _, _ => True

/-- A statement that writes no entry of a user and stores no refresh token. -/
def AuthStmt.isPlain : {β : Type} → AuthStmt β → Bool
  | _, .storeRefreshToken _ _ _ _ => false
  | _, s => !isBlockKey s.redisKey

/-- What an operation may call: the entry of a user is written by `block_all_user_tokens`, and the
refresh token that is stored has the id `jti`. -/
def OpCmd (ttl : Int) (jti : Option Uuid) : {β : Type} → Cmd AuthStmt DbError β → Prop
  | _, .exec .pool (.redisSet (.allUserAccessTokens _) (.int _) t) => t = some ttl
  | _, .exec _ (.storeRefreshToken jti' _ _ _) => jti = some jti'
  | _, .exec _ s => s.isPlain = true
  | _, _ => True

section Programs

variable {τ : Type} {ts : TokenService τ} {ttl : Int} {jti : Option Uuid}

theorem opCmd_exec {β : Type} {e : Executor} {s : AuthStmt β} (h : s.isPlain = true) :
    OpCmd ttl jti (.exec e s) := by
  cases s with
  | storeRefreshToken => cases h
  | redisSet k v t =>
    cases k with
    | allUserAccessTokens u => cases h
    | _ => cases e <;> trivial
  | _ => cases e <;> exact h

theorem opCmd_ask {β : Type} {wrap : DbError → AuthError} {e : Executor} {s : AuthStmt β}
    (h : s.isPlain = true) : Act.Uses (OpCmd ttl jti) (Act.ask wrap (.exec e s) : AuthSvc β) :=
  Act.uses_ask (opCmd_exec h)

theorem opCmd_issue {user : User} {providers : List AuthProvider} {ids : FreshIds} :
    Act.Uses (OpCmd ttl (some ids.refreshJti)) (AuthService.issue ts user providers ids) := by
  refine Act.uses_bind ?_ fun _ => Act.uses_pure _
  refine Act.uses_bind ?_ fun _ => ?_
  · exact Act.uses_bind (opCmd_ask rfl) fun _ => Act.uses_pure _
  refine Act.uses_bind (opCmd_ask rfl) fun _ => ?_
  refine Act.uses_bind (opCmd_ask rfl) fun _ => ?_
  exact Act.uses_bind (Act.uses_ask rfl) fun _ => Act.uses_pure _

theorem opCmd_createUser {id : Uuid} {fullName email : String} :
    Act.Uses (OpCmd ttl jti) (AuthService.createUser id fullName email) := by
  refine Act.uses_bind (Act.uses_ask trivial) fun _ => ?_
  refine Act.uses_bind (opCmd_ask rfl) fun user => ?_
  refine Act.uses_bind (opCmd_ask rfl) fun _ => ?_
  exact Act.uses_bind (Act.uses_ask trivial) fun _ => Act.uses_pure _

theorem opCmd_verifyOtp {email code : String} {otpType : OtpType} :
    Act.Uses (OpCmd ttl jti) (AuthCache.verifyOtp email code otpType) := by
  refine Act.uses_bind (opCmd_ask rfl) fun attempts => ?_
  dsimp only
  split
  on_goal 1 => refine Act.uses_bind (opCmd_ask rfl) fun _ => ?_
  all_goals
    refine Act.uses_bind (uses_refuse _) fun _ => ?_
    refine Act.uses_bind (opCmd_ask rfl) fun otp => ?_
    split
    · split
      · refine Act.uses_bind (Act.uses_attempt (opCmd_ask rfl)) fun _ => ?_
        exact Act.uses_bind (Act.uses_attempt (opCmd_ask rfl)) fun _ => Act.uses_pure _
      · exact Act.uses_pure _
    · exact Act.uses_throw _
    · exact Act.uses_throw _

theorem opCmd_upsert {info : GoogleUserInfo} {ids : FreshIds} :
    Act.Uses (OpCmd ttl (some ids.refreshJti)) (AuthService.upsertGoogleUser ts info ids) := by
  refine Act.uses_bind ?_ fun user => ?_
  · refine Act.uses_bind (opCmd_ask rfl) fun identity => ?_
    cases identity with
    | some identity => exact Act.uses_bind (opCmd_ask rfl) fun _ => uses_okOr _
    | none =>
      refine Act.uses_bind (opCmd_ask rfl) fun user => ?_
      cases user with
      | some user => exact Act.uses_bind (opCmd_ask rfl) fun _ => Act.uses_pure _
      | none =>
        refine Act.uses_bind opCmd_createUser fun user => ?_
        refine Act.uses_bind (opCmd_ask rfl) fun _ => ?_
        dsimp only
        split
        on_goal 1 => refine Act.uses_bind (opCmd_ask rfl) fun _ => ?_
        all_goals exact Act.uses_bind (opCmd_ask rfl) fun _ => uses_okOr _
  · exact Act.uses_bind (opCmd_ask rfl) fun _ => opCmd_issue

theorem opCmd_blockIfValid {accessToken : Option τ} :
    Act.Uses (OpCmd ttl jti) (ts.blockIfValid accessToken) := by
  cases accessToken with
  | none => exact Act.uses_pure _
  | some access =>
    refine Act.uses_bind (opCmd_ask rfl) fun now => ?_
    split
    · exact Act.uses_pure _
    · refine Act.uses_bind (opCmd_ask rfl) fun now => ?_
      dsimp only
      split
      · unfold AuthCache.blockAccessToken
        dsimp only
        split
        · exact Act.uses_pure _
        · exact opCmd_ask rfl
      · exact Act.uses_pure _

theorem opCmd_revokeAllForUser {u : Uuid} :
    Act.Uses (OpCmd ts.config.accessTtlSecs jti) (ts.revokeAllForUser u) := by
  refine Act.uses_bind ?_ fun _ => ?_
  · refine Act.uses_bind (opCmd_ask rfl) fun ids => ?_
    exact Act.uses_bind (opCmd_ask rfl) fun _ => Act.uses_pure _
  · exact Act.uses_bind (opCmd_ask rfl) fun now => Act.uses_ask rfl

theorem opCmd_of_rotating {newJti : Uuid} {β : Type} (c : Cmd AuthStmt DbError β)
    (h : Rotating newJti c) : OpCmd ttl (some newJti) c := by
  cases c with
  | exec e s =>
    cases s with
    | storeRefreshToken jti' u hash t =>
      cases e with
      | pool => exact h.elim
      | tx =>
        obtain rfl : jti' = newJti := h
        rfl
    | _ =>
      refine opCmd_exec ?_
      first | rfl | (cases e <;> exact h.elim)
  | _ => trivial

theorem op_cmds (op : AuthOp τ) :
    Act.Uses (OpCmd ts.config.accessTtlSecs op.refreshJti) (op.prog ts) := by
  cases op with
  | register req salt otp ids =>
    refine Act.uses_bind ?_ fun _ => Act.uses_pure _
    refine Act.uses_bind (opCmd_ask rfl) fun _ => ?_
    refine Act.uses_bind (uses_refuse _) fun _ => ?_
    refine Act.uses_bind opCmd_createUser fun user => ?_
    refine Act.uses_bind (opCmd_ask rfl) fun _ => ?_
    exact Act.uses_bind (opCmd_ask rfl) fun _ => opCmd_issue
  | verifyEmail email code ids =>
    refine Act.uses_bind ?_ fun _ => Act.uses_pure _
    refine Act.uses_bind (opCmd_ask rfl) fun _ => ?_
    refine Act.uses_bind (uses_okOr _) fun user => ?_
    refine Act.uses_bind (uses_refuse _) fun _ => ?_
    refine Act.uses_bind opCmd_verifyOtp fun valid => ?_
    refine Act.uses_bind (uses_refuse _) fun _ => ?_
    refine Act.uses_bind (opCmd_ask rfl) fun _ => ?_
    refine Act.uses_bind (opCmd_ask rfl) fun _ => ?_
    exact Act.uses_bind (uses_okOr _) fun _ => opCmd_issue
  | resendOtp email otp otpType =>
    refine Act.uses_bind ?_ fun _ => Act.uses_pure _
    refine Act.uses_bind (opCmd_ask rfl) fun user => ?_
    cases user with
    | none => exact Act.uses_pure _
    | some user =>
      dsimp only
      split
      · exact Act.uses_pure _
      · refine Act.uses_bind ?_ fun can => ?_
        · exact Act.uses_bind (opCmd_ask rfl) fun _ => Act.uses_pure _
        refine Act.uses_bind (uses_refuse _) fun _ => ?_
        refine Act.uses_bind (opCmd_ask rfl) fun _ => ?_
        exact Act.uses_bind (opCmd_ask rfl) fun _ => opCmd_ask rfl
  | login email password dummyHash ids =>
    refine Act.uses_bind ?_ fun _ => Act.uses_pure _
    refine Act.uses_bind ?_ fun _ => ?_
    · exact Act.uses_bind (opCmd_ask rfl) fun _ => uses_refuse _
    refine Act.uses_bind (opCmd_ask rfl) fun identity => ?_
    refine Act.uses_bind (uses_okOr _) fun identity => ?_
    refine Act.uses_bind (uses_refuse _) fun _ => ?_
    refine Act.uses_bind (opCmd_ask rfl) fun _ => ?_
    refine Act.uses_bind (uses_okOr _) fun user => ?_
    refine Act.uses_bind (uses_refuse _) fun _ => ?_
    refine Act.uses_bind (Act.uses_attempt (opCmd_ask rfl)) fun _ => ?_
    exact Act.uses_bind (opCmd_ask rfl) fun _ => opCmd_issue
  | logout refreshToken accessToken =>
    refine Act.uses_bind ?_ fun _ => Act.uses_pure _
    refine Act.uses_bind ?_ fun claims => ?_
    · exact Act.uses_bind (opCmd_ask rfl) fun _ => Act.uses_ofExcept _
    · exact Act.uses_bind (opCmd_ask rfl) fun _ => opCmd_blockIfValid
  | refresh refreshToken ids =>
    refine Act.uses_bind ?_ fun _ => Act.uses_pure _
    refine Act.uses_bind ?_ fun claims => ?_
    · exact Act.uses_bind (opCmd_ask rfl) fun _ => Act.uses_ofExcept _
    refine Act.uses_bind (opCmd_ask rfl) fun _ => ?_
    exact Act.uses_bind (Prog.uses_mono opCmd_of_rotating uses_rotate) fun _ => Act.uses_pure _
  | forgotPassword email otp =>
    refine Act.uses_bind ?_ fun _ => Act.uses_pure _
    refine Act.uses_bind (opCmd_ask rfl) fun user => ?_
    cases user with
    | none => exact Act.uses_pure _
    | some user => exact opCmd_ask rfl
  | resetPassword req salt =>
    refine Act.uses_bind ?_ fun _ => Act.uses_pure _
    refine Act.uses_bind (opCmd_ask rfl) fun user => ?_
    cases user with
    | none => exact Act.uses_pure _
    | some user =>
      refine Act.uses_bind opCmd_verifyOtp fun valid => ?_
      refine Act.uses_bind (uses_refuse _) fun _ => ?_
      refine Act.uses_bind (opCmd_ask rfl) fun _ => ?_
      exact Act.uses_bind (opCmd_ask rfl) fun _ => opCmd_revokeAllForUser
  | googleAuthorize csrfToken pkceVerifier =>
    refine Act.uses_bind ?_ fun _ => Act.uses_pure _
    exact Act.uses_bind (opCmd_ask rfl) fun _ => opCmd_ask rfl
  | googleWebAuth state answer ids =>
    refine Act.uses_bind ?_ fun _ => Act.uses_pure _
    refine Act.uses_bind ?_ fun _ => ?_
    · refine Act.uses_bind (opCmd_ask rfl) fun data => ?_
      refine Act.uses_bind (Act.uses_attempt (opCmd_ask rfl)) fun _ => ?_
      split
      · exact Act.uses_pure _
      · exact Act.uses_throw _
    · exact Act.uses_bind (uses_okOr _) fun _ => opCmd_upsert
  | googleMobileAuth answer ids =>
    refine Act.uses_bind ?_ fun _ => Act.uses_pure _
    refine Act.uses_bind ?_ fun _ => opCmd_upsert
    refine Act.uses_bind (uses_okOr _) fun info => ?_
    exact Act.uses_bind (uses_refuse _) fun _ => Act.uses_pure _
  | visit accessToken =>
    refine Act.uses_bind ?_ fun _ => Act.uses_pure _
    refine Act.uses_bind (uses_okOr _) fun token => ?_
    refine Act.uses_bind ?_ fun claims => ?_
    · exact Act.uses_bind (opCmd_ask rfl) fun _ => Act.uses_ofExcept _
    refine Act.uses_bind ?_ fun blocked => ?_
    · refine Act.uses_bind ?_ fun _ => ?_
      · exact Act.uses_bind (opCmd_ask rfl) fun _ => Act.uses_pure _
      refine Act.uses_bind ?_ fun _ => Act.uses_pure _
      refine Act.uses_bind (opCmd_ask rfl) fun entry => ?_
      split
      · exact Act.uses_pure _
      · exact Act.uses_throw _
      · exact Act.uses_pure _
    refine Act.uses_bind (uses_refuse _) fun _ => ?_
    exact Act.uses_bind (uses_refuse _) fun _ => Act.uses_pure _

theorem setsBlocks_of_opCmd {β : Type} (c : Cmd AuthStmt DbError β) (h : OpCmd ttl jti c) :
    SetsBlocks ttl c := by
  cases c with
  | exec e s =>
    cases s with
    | storeRefreshToken => cases e <;> rfl
    | redisSet k v t =>
      cases k with
      | allUserAccessTokens u =>
        cases e with
        | tx => cases h
        | pool =>
          cases v with
          | int n => exact h
          | _ => cases h
      | _ => cases e <;> rfl
    | _ =>
      cases e
      all_goals exact Bool.not_inj h
  | _ => trivial

/-- Only `block_all_user_tokens` writes the entry. -/
theorem op_setsBlocks (op : AuthOp τ) :
    Act.Uses (SetsBlocks ts.config.accessTtlSecs) (op.prog ts) :=
  Prog.uses_mono setsBlocks_of_opCmd (op_cmds op)

end Programs

/-! ## The entry over time -/

/-- The second that the entry of a user has: tokens from before it are blocked. -/
def blockedAt (db : AuthDb) (u : Uuid) : Option Int :=
  match db.redis (.allUserAccessTokens u) with
  | some { value := .int b, deadline := _ } => some b
  | _ => none

/-- Tokens of the user from before the second `b` are blocked, until `d` at least. -/
def Blocking (u : Uuid) (b : Int) (d : OffsetDateTime) (db : AuthDb) : Prop :=
  ∃ b' d', db.redis (.allUserAccessTokens u) = some { value := .int b', deadline := some d' } ∧
    b ≤ b' ∧ d ≤ d'

section Writes

variable {ttl b : Int} {u : Uuid} {d now : OffsetDateTime} {ws : List AuthWrite} {db : AuthDb}

theorem Blocking.apply {x : AuthWrite} (h : Blocking u b d db)
    (hx : isBlockKey x.redisKey = false ∨ ∃ u' n d', x =
      .redis (.allUserAccessTokens u') (some { value := .int n, deadline := some d' }) ∧
        (u' = u → b ≤ n ∧ d ≤ d')) : Blocking u b d (db.apply x) := by
  obtain ⟨b₀, d₀, hentry, hb, hd⟩ := h
  have hsame : (db.apply x).redis (.allUserAccessTokens u) = db.redis (.allUserAccessTokens u) →
      Blocking u b d (db.apply x) := fun he => ⟨b₀, d₀, he.trans hentry, hb, hd⟩
  rcases hx with hoff | ⟨u', n, d', rfl, hx⟩
  · cases x with
    | redis k e =>
      refine hsame (if_neg ?_)
      rintro rfl
      cases hoff
    | _ => exact hsame rfl
  · by_cases hu : u' = u
    · subst hu
      exact ⟨n, d', if_pos rfl, hx rfl⟩
    · refine hsame (if_neg ?_)
      rintro ⟨⟩
      exact hu rfl

end Writes

end Auth

end Meno
