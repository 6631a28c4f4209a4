import Meno.Auth.Ops

/-!
# Meno.Auth.Entrances

Do the two entrances agree on what a valid access token is? Both check the signature, the expiry
and the `verified` claim. `auth_middleware` also asks the two blocklists, between the two; so it
lets in fewer, and `ws_upgrade` lets in tokens that were logged out or revoked.
-/

namespace Meno

namespace Auth

open Lib

variable {τ : Type} (ts : TokenService τ)

/-- The token is on one of the blocklists. -/
def Blocked (db : AuthDb) (now : OffsetDateTime) (c : AccessClaims) : Prop :=
  db.redis.find now (.accessToken c.jti) ≠ none ∨
    match db.redis.find now (.allUserAccessTokens c.sub) with
    | some (.int blockedAt) => c.iat < blockedAt
    | some _ => True
    | none => False

/-- Everything that both entrances check. -/
def Presentable (now : OffsetDateTime) (token : τ) (c : AccessClaims) : Prop :=
  ts.checkAccess now token = .ok c ∧ c.verified = true

theorem Presentable.unique {ts : TokenService τ} {now : OffsetDateTime} {token : τ}
    {c c' : AccessClaims} (h : Presentable ts now token c) (h' : Presentable ts now token c') :
    c = c' :=
  Except.ok.inj (h.1.symm.trans h'.1)

section Decisions

variable {ts} {db : AuthDb} {now : OffsetDateTime} {token : τ} {faults : List Bool}

@[simp] theorem run_ofExcept {ε α : Type} {r : Except ε α} :
    (Txn.run authEngine (Act.ofExcept r : Txn AuthStmt DbError ε α) db now faults).1 = r := by
  rw [Txn.run, Act.answer_ofExcept]

/-- `ws_upgrade` takes a token when the clock can be read and both checks succeed. -/
theorem wsAuthenticate_ok_iff {c : AccessClaims} :
    (Txn.run authEngine (wsAuthenticate ts token) db now faults).1 = .ok c ↔
      Txn.quiet 1 faults = true ∧ Presentable ts now token c := by
  have hclock : authEngine.exec .nowUtc now db = .ok (now, []) := rfl
  rw [wsAuthenticate, Txn.run_read_ok hclock, Txn.quiet_succ]
  simp only [Txn.quiet, and_true, Presentable]
  refine and_congr_right fun _ => ?_
  cases hcheck : ts.checkAccess now token with
  | error e => simp [Txn.run]
  | ok c' =>
    by_cases hv : c'.verified = true
    · simp only [hv, if_true, Txn.run, Act.answer_pure, Except.ok.injEq]
      constructor
      · rintro rfl
        exact ⟨rfl, hv⟩
      · exact And.left
    · simp only [hv, if_false, Txn.run, Act.answer_throw, reduceCtorEq, false_iff, not_and,
        Except.ok.injEq]
      rintro rfl hc
      exact hv hc

/-- What the blocklist has under the user's key, as `is_user_tokens_blocked` reads it. -/
theorem isUserTokensBlocked_eq (u : Uuid) (iat : Int) {f : Bool → AuthSvc AuthUser}
    {a : AuthUser} :
    (Txn.run authEngine (AuthCache.isUserTokensBlocked u iat >>= f) db now faults).1 = .ok a ↔
      faults.headD false = false ∧
        match db.redis.find now (.allUserAccessTokens u) with
        | some (.int blockedAt) =>
          (Txn.run authEngine (f (decide (iat < blockedAt))) db now faults.tail).1 = .ok a
        | some _ => False
        | none => (Txn.run authEngine (f false) db now faults.tail).1 = .ok a := by
  have hget : authEngine.exec (.redisGet (.allUserAccessTokens u)) now db =
      .ok (Redis.get db now (.allUserAccessTokens u), []) := rfl
  simp only [AuthCache.isUserTokensBlocked, redis, bind_assoc]
  rw [Txn.run_read_ok hget, Redis.get]
  refine and_congr_right fun _ => ?_
  cases db.redis.find now (.allUserAccessTokens u) with
  | none => rfl
  | some v => cases v <;> simp [Txn.run]

/-- The two answers that `auth_middleware` ends with. -/
theorem run_verdict {c : AccessClaims} {blocked : Bool} {u : AuthUser} :
    (Txn.run authEngine (do
      refuse .invalidToken blocked
      refuse .emailNotVerified (!c.verified)
      return c.toAuthUser) db now faults).1 = .ok u ↔
      blocked = false ∧ c.verified = true ∧ c.toAuthUser = u := by
  cases blocked <;> cases c.verified <;> simp [refuse, Txn.run]

/-- `auth_middleware` takes a token when its three calls are answered, both checks succeed and the
token is not blocked. -/
theorem authMiddleware_ok_iff {u : AuthUser} :
    (Txn.run authEngine (authMiddleware ts (some token)) db now faults).1 = .ok u ↔
      Txn.quiet 3 faults = true ∧
        ∃ c, Presentable ts now token c ∧ ¬Blocked db now c ∧ c.toAuthUser = u := by
  have hclock : authEngine.exec .nowUtc now db = .ok (now, []) := rfl
  have hget : ∀ k, authEngine.exec (.redisGet k) now db = .ok (Redis.get db now k, []) :=
    fun _ => rfl
  simp only [authMiddleware, okOr, pure_bind, TokenService.decodeAccess, bind_assoc, nowUtc]
  rw [Txn.run_read_ok hclock, Txn.quiet_succ, and_assoc]
  refine and_congr_right fun _ => ?_
  cases hcheck : ts.checkAccess now token with
  | error e => simp [Act.ofExcept, Txn.run, Presentable, hcheck]
  | ok c =>
    simp only [Act.ofExcept, pure_bind, TokenService.isAccessTokenBlocked, bind_assoc, redis,
      AuthCache.isTokenBlocked]
    rw [Txn.run_read_ok (hget _), Txn.quiet_succ, and_assoc]
    refine and_congr_right fun _ => ?_
    rw [isUserTokensBlocked_eq, Txn.quiet_succ, and_assoc]
    refine and_congr_right fun _ => ?_
    have hpres : (∃ c', Presentable ts now token c' ∧ ¬Blocked db now c' ∧ c'.toAuthUser = u) ↔
        c.verified = true ∧ ¬Blocked db now c ∧ c.toAuthUser = u := by
      simp only [Presentable, hcheck, Except.ok.injEq]
      constructor
      · rintro ⟨c', ⟨rfl, hv⟩, hb, hu⟩
        exact ⟨hv, hb, hu⟩
      · rintro ⟨hv, hb, hu⟩
        exact ⟨c, ⟨rfl, hv⟩, hb, hu⟩
    rw [hpres, Blocked]
    simp only [Redis.get, run_verdict, Txn.quiet, true_and]
    cases db.redis.find now (.allUserAccessTokens c.sub) with
    | none => simp [and_left_comm]
    | some v => cases v <;> simp [and_left_comm, and_assoc]

end Decisions

/-- `ws_upgrade` accepts only what `auth_middleware` accepts, exactly where the presentable tokens
are not blocked and the calls of the middleware are answered. -/
theorem entrances_agree_iff (db : AuthDb) (now : OffsetDateTime) (token : τ)
    (atWs atHttp : List Bool) :
    ((∃ c, (Txn.run authEngine (wsAuthenticate ts token) db now atWs).1 = .ok c) →
      ∃ u, (Txn.run authEngine (authMiddleware ts (some token)) db now atHttp).1 = .ok u) ↔
    ∀ c, Presentable ts now token c → Txn.quiet 1 atWs = true →
      Txn.quiet 3 atHttp = true ∧ ¬Blocked db now c := by
  simp only [wsAuthenticate_ok_iff, authMiddleware_ok_iff]
  constructor
  · intro h c hc hws
    obtain ⟨u, hhttp, c', hc', hfree, _⟩ := h ⟨c, hws, hc⟩
    obtain rfl : c' = c := hc'.unique hc
    exact ⟨hhttp, hfree⟩
  · rintro h ⟨c, hws, hc⟩
    obtain ⟨hhttp, hfree⟩ := h c hc hws
    exact ⟨c.toAuthUser, hhttp, c, hc, hfree, rfl⟩

/-! ## A user who logs out -/

/-- Ann signs in with Google and is let in. -/
def annSignsIn : AuthOp (String × Payload) :=
  .googleMobileAuth
    (some {
      info := { sub := "g1", email := "ann@meno", name := "Ann", emailVerified := true }
      aud := "meno" })
    { userId := ⟨1⟩, identityId := ⟨2⟩, accessJti := ⟨3⟩, refreshJti := ⟨4⟩ }

def annsClaims : AccessClaims where
  sub := ⟨1⟩
  jti := ⟨3⟩
  email := "ann@meno"
  fullName := "Ann"
  verified := true
  providers := [.google]
  role := .user
  exp := 900
  iat := 0

def annsAccess : String × Payload := ("access", .access annsClaims)

def annsRefresh : String × Payload :=
  ("refresh", .refresh { sub := ⟨1⟩, jti := ⟨4⟩, exp := 604800, iat := 0 })

/-- The store after Ann has signed in. -/
def annSignedIn : AuthDb := (annSignsIn.run .transparent 0 [] .empty).2

/-- The store after she has logged out again, a minute later. -/
def annLoggedOut : AuthDb :=
  (AuthOp.run .transparent (.logout annsRefresh (some annsAccess)) (60 * second) [] annSignedIn).2

example : ∃ u, annSignsIn.run .transparent 0 [] .empty =
    (.ok (.session { accessToken := annsAccess, refreshToken := annsRefresh, user := u }),
      annSignedIn) := ⟨_, rfl⟩

/-- `ws_upgrade` takes Ann's token after she has logged out; `auth_middleware` does not. -/
theorem logged_out_at_ws : ∃ db, AuthReached TokenService.transparent db ∧
    ¬((∃ c, (Txn.run authEngine (wsAuthenticate .transparent annsAccess) db (61 * second) []).1 =
        .ok c) →
      ∃ u, (Txn.run authEngine (authMiddleware .transparent (some annsAccess)) db (61 * second)
        []).1 = .ok u) := by
  refine ⟨annLoggedOut, .step _ _ [] (.step _ _ [] .init), ?_⟩
  intro h
  obtain ⟨u, hu⟩ := h ⟨annsClaims, rfl⟩
  have hrefused : (Txn.run authEngine (authMiddleware .transparent (some annsAccess)) annLoggedOut
      (61 * second) []).1 = .error .invalidToken := rfl
  cases hrefused.symm.trans hu

end Auth

end Meno
