import Meno.Auth.Commands
import Meno.Auth.Entrances
import Meno.Lib.Clocked

/-!
# Meno.Auth.LoggedOut

Does an access token that was handed to `revoke` stay rejected? It expires at the end of the second
`exp`; the entry on the blocklist is gone after the seconds that are left of its life, or after
fifteen minutes if these are more. A second log-out with the token sets a new entry, which may end
before the first would have.
-/

namespace Meno

namespace Auth

open Lib

/-! ## Seconds -/

theorem second_pos : 0 < second := by decide

/-- The last moment of a second. -/
def lastMoment (s : Int) : Int := (s + 1) * second - 1

theorem unixTimestamp_le_iff {t : OffsetDateTime} {s : Int} :
    unixTimestamp t ≤ s ↔ t ≤ lastMoment s := by
  have hdiv : ∀ n : Int, n / second ≤ s ↔ n ≤ (s + 1) * second - 1 := by
    intro n
    rw [second]
    omega
  rw [unixTimestamp, Int.fdiv_eq_ediv_of_nonneg _ second_pos.le]
  exact hdiv t

theorem unixTimestamp_mono {t t' : OffsetDateTime} (h : t ≤ t') :
    unixTimestamp t ≤ unixTimestamp t' :=
  unixTimestamp_le_iff.2 (h.trans (unixTimestamp_le_iff.1 le_rfl))

/-! ## Tokens at the middleware -/

section Tokens

variable {τ : Type} (ts : TokenService τ)

/-- The claims of an access token that the server has signed, expired or not. -/
def TokenService.accessClaimsOf (token : τ) : Option AccessClaims :=
  (ts.crypto.decode ts.config.accessSecret token).bind Payload.toAccess

variable {ts} {token : τ} {c : AccessClaims}

theorem checkAccess_ok_iff {now : OffsetDateTime} :
    ts.checkAccess now token = .ok c ↔
      ts.accessClaimsOf token = some c ∧ now ≤ lastMoment c.exp := by
  rw [TokenService.checkAccess, ← unixTimestamp_le_iff, ← TokenService.accessClaimsOf]
  cases ts.accessClaimsOf token with
  | none => simp
  | some c' =>
    show (if c'.exp < unixTimestamp now then _ else _) = _ ↔ _
    by_cases hexp : c'.exp < unixTimestamp now
    · rw [if_pos hexp]
      simp only [reduceCtorEq, Option.some.injEq, false_iff, not_and]
      rintro rfl
      exact not_le.2 hexp
    · rw [if_neg hexp]
      simp only [Except.ok.injEq, Option.some.injEq, iff_self_and]
      rintro rfl
      exact not_lt.1 hexp

theorem presentable_iff {now : OffsetDateTime} :
    Presentable ts now token c ↔
      ts.accessClaimsOf token = some c ∧ now ≤ lastMoment c.exp ∧ c.verified = true := by
  rw [Presentable, checkAccess_ok_iff, and_assoc]

end Tokens

/-! ## Later log-outs -/

section Later

variable {τ : Type} (ts : TokenService τ) (token : τ)

/-- Whether the key is that of a token's entry. -/
def isTokenKey : Option RedisKey → Bool
  | some (.accessToken _) => true
  | _ => false

/-- A call that writes the entry of a token sets it, with an expiry. -/
def OnlySets : {β : Type} → Cmd AuthStmt DbError β → Prop
  | _, .exec _ (.redisSet (.accessToken _) _ ttl) => ttl.isSome = true
  | _, .exec _ s => isTokenKey s.redisKey = false
  | _, _ => True

/-- An entry that is set for the token is there through the last moment at which the token has not
expired. -/
def LastsToTheEnd (c : AccessClaims) : {β : Type} → Cmd AuthStmt DbError β → Recorded Unit → Prop
  | _, .exec _ (.redisSet k _ (some ttl)), s =>
    k = .accessToken c.jti → lastMoment c.exp ≤ s.now + ttl * second
  | _, _, _ => True

/-- A call is made, and an entry that it sets for the token lasts to the end. -/
def ExecToTheEnd {ι : Type} (i : ι) {β : Type} (q : Cmd AuthStmt DbError β) (s : Recorded Unit)
    (b : β) (s' : Recorded Unit) : Prop :=
  CommandExec (fun _ {_} _ _ s => s.past) i q s b s' ∧
    ∀ c, ts.accessClaimsOf token = some c → LastsToTheEnd c q s

/-- The key of the token's own entry. -/
def OwnEntry (k : RedisKey) : Prop := ∃ c, ts.accessClaimsOf token = some c ∧ k = .accessToken c.jti

/-- The rests of the log-outs and other calls that are under way, or begin, at the time `last`. -/
def underway {ι ρ : Type} (prog : ι → Prog (Cmd AuthStmt DbError) ρ) (db : AuthDb)
    (last : OffsetDateTime) : Pool (Recorded Unit) (Cmd AuthStmt DbError) ρ ι where
  store := { db, now := last, past := () }
  prog

/-- `auth_middleware` rejects the token from the time `since` on: whatever log-outs are under way at
`last` or begin later, with this token or another, if every entry that they set for this token lasts
to the end, and whatever becomes of the store but for the token's own entry. -/
def RejectedAfter (db : AuthDb) (last since : OffsetDateTime) : Prop :=
  ∀ (ι ρ : Type) (_ : DecidableEq ι) (prog : ι → Prog (Cmd AuthStmt DbError) ρ)
    (p : Pool (Recorded Unit) (Cmd AuthStmt DbError) ρ ι), (∀ i, (prog i).Uses OnlySets) →
    Pool.Steps (ExecToTheEnd ts token) (Elsewhere (OwnEntry ts token)) (underway prog db last) p →
      since ≤ p.store.now → ∀ faults user,
        (Txn.run authEngine (authMiddleware ts (some token)) p.store.db p.store.now faults).1 ≠
          .ok user

section Programs

variable {ts}

theorem onlySets_ask {β : Type} {wrap : DbError → AuthError} {s : AuthStmt β}
    (h : OnlySets (.exec (E := DbError) .pool s)) :
    Act.Uses OnlySets (Act.ask wrap (.exec .pool s) : AuthSvc β) := Act.uses_ask h

theorem onlySets_blockIfValid {accessToken : Option τ} :
    Act.Uses OnlySets (ts.blockIfValid accessToken) := by
  cases accessToken with
  | none => exact Act.uses_pure _
  | some access =>
    refine Act.uses_bind (onlySets_ask rfl) fun now => ?_
    split
    · exact Act.uses_pure _
    · refine Act.uses_bind (onlySets_ask rfl) fun now => ?_
      dsimp only
      split
      · unfold AuthCache.blockAccessToken
        dsimp only
        split
        · exact Act.uses_pure _
        · exact onlySets_ask rfl
      · exact Act.uses_pure _

/-- A log-out is among the callers of `RejectedAfter`. -/
theorem onlySets_revoke {refreshToken : τ} {accessToken : Option τ} :
    Act.Uses OnlySets (ts.revoke refreshToken accessToken) := by
  refine Act.uses_bind ?_ fun claims => ?_
  · exact Act.uses_bind (onlySets_ask rfl) fun now => Act.uses_ofExcept _
  · exact Act.uses_bind (onlySets_ask rfl) fun deleted => onlySets_blockIfValid

end Programs

variable {ts token} {c : AccessClaims} {s s' : Recorded Unit}

/-- The token's entry is found through the last moment at which the token has not expired. -/
def FoundToTheEnd (c : AccessClaims) (db : AuthDb) : Prop :=
  db.redis.find (lastMoment c.exp) (.accessToken c.jti) ≠ none

theorem FoundToTheEnd.set {v : RedisValue} {ttl : Int} {b : Unit} {ws : List AuthWrite}
    {now : OffsetDateTime} {db : AuthDb}
    (h : authEngine.exec (.redisSet (.accessToken c.jti) v (some ttl)) now db = .ok (b, ws))
    (hlast : lastMoment c.exp ≤ now + ttl * second) :
    FoundToTheEnd c (authEngine.applyAll db ws) := by
  have hexec : Redis.set now (.accessToken c.jti) v (some ttl) = .ok (b, ws) := h
  rw [Redis.set] at hexec
  split at hexec
  · cases hexec
  · cases hexec
    have halive : Expiring.Alive (V := RedisValue)
        { value := v, deadline := some (now + ttl * second) } (lastMoment c.exp) := by
      rintro t ⟨⟩
      exact hlast
    have hset : (authEngine.applyAll db [.redis (.accessToken c.jti)
        (some { value := v, deadline := some (now + ttl * second) })]).redis (.accessToken c.jti) =
          some { value := v, deadline := some (now + ttl * second) } := if_pos rfl
    have hfound := Expiring.find_of_alive hset halive
    exact fun hnone => Option.some_ne_none _ (hfound.symm.trans hnone)

theorem FoundToTheEnd.executed {β : Type} {q : AuthStmt β} {b : β} {ws : List AuthWrite}
    {now : OffsetDateTime} {db : AuthDb} (h : FoundToTheEnd c db)
    (hq : OnlySets (.exec (E := DbError) .pool q))
    (hlast : LastsToTheEnd c (.exec (E := DbError) .pool q) { db, now, past := () })
    (hexec : authEngine.exec q now db = .ok (b, ws)) :
    FoundToTheEnd c (authEngine.applyAll db ws) := by
  by_cases hkey : q.redisKey = some (.accessToken c.jti)
  · cases q with
    | redisSet k v ttl =>
      cases hkey
      obtain ⟨ttl, rfl⟩ := Option.isSome_iff_exists.1 hq
      exact .set hexec (hlast rfl)
    | redisDel k => cases hkey; cases hq
    | redisIncr k => cases hkey; cases hq
    | redisExpire k ttl => cases hkey; cases hq
    | redisIncrAndExpire k ttl => cases hkey; cases hq
    | _ => cases hkey
  · rwa [FoundToTheEnd, Expiring.find_congr (exec_redis_other hexec hkey)]

theorem FoundToTheEnd.call {ι : Type} {i : ι} {β : Type} {q : Cmd AuthStmt DbError β} {b : β}
    (hc : ts.accessClaimsOf token = some c) (h : FoundToTheEnd c s.db) (hq : OnlySets q)
    (hs : ExecToTheEnd ts token i q s b s') : FoundToTheEnd c s'.db := by
  obtain ⟨hexec, hlast⟩ := hs
  cases hexec with
  | answered hok => exact h.executed hq (hlast c hc) hok
  | unanswered hok => exact h.executed hq (hlast c hc) hok
  | refused _ => exact h
  | unsent => exact h

theorem FoundToTheEnd.elsewhere (hc : ts.accessClaimsOf token = some c)
    (h : FoundToTheEnd c s.db) (henv : Elsewhere (OwnEntry ts token) s s') :
    FoundToTheEnd c s'.db := by
  obtain ⟨db, now, rfl, -, hkeys⟩ := henv
  rwa [FoundToTheEnd, Expiring.find_congr (hkeys _ ⟨c, hc, rfl⟩)]

/-- Later log-outs whose entries last to the end keep the token's entry to the end. -/
theorem FoundToTheEnd.steps {ι ρ : Type} [DecidableEq ι]
    {p p' : Pool (Recorded Unit) (Cmd AuthStmt DbError) ρ ι}
    (hc : ts.accessClaimsOf token = some c) (h : FoundToTheEnd c p.store.db)
    (hprogs : ∀ i, (p.prog i).Uses OnlySets)
    (hsteps : Pool.Steps (ExecToTheEnd ts token) (Elsewhere (OwnEntry ts token)) p p') :
    FoundToTheEnd c p'.store.db := by
  have houtlined : p'.Outlined (fun _ {_} q (_ : Unit) => OnlySets q) (fun _ {_} _ _ g => g)
      (fun _ _ _ => True) (fun s _ => FoundToTheEnd c s.db) := by
    refine Pool.outlined_of_steps ?_ ?_ hsteps ⟨fun _ => (), h, fun i => ?_⟩
    · intro i β q s b s' g hq hs hfound
      exact hfound.call hc hq hs
    · intro s s' g hs hfound
      exact hfound.elsewhere hc hs
    · exact Prog.guarded_of_neutral (fun _ _ hq => hq) (fun _ _ _ _ => rfl) (hprogs i)
        fun _ => trivial
  obtain ⟨g, hfound, -⟩ := houtlined
  exact hfound

/-- What matters is the last moment at which the token has not expired. -/
theorem rejectedAfter_iff {db : AuthDb} {last since : OffsetDateTime} (hlast : last ≤ since) :
    RejectedAfter ts token db last since ↔
      ∀ c, ts.accessClaimsOf token = some c → c.verified = true →
        c.exp < unixTimestamp since ∨ FoundToTheEnd c db := by
  constructor
  · intro h c hc hv
    by_contra hopen
    obtain ⟨hlive, hfree⟩ := not_or.1 hopen
    have hend : since ≤ lastMoment c.exp := unixTimestamp_le_iff.1 (not_lt.1 hlive)
    -- nobody calls, and a store comes in which nothing but the token's own entry could block it
    let later := db.apply (.redis (.allUserAccessTokens c.sub) none)
    have hother : ∀ jti, later.redis (.accessToken jti) = db.redis (.accessToken jti) := by
      intro jti
      have hne : RedisKey.accessToken jti ≠ .allUserAccessTokens c.sub := by simp
      exact (Expiring.set_apply _ _ _ none).trans (if_neg hne)
    have hblocked : ¬Blocked later (lastMoment c.exp) c := by
      have hnone : later.redis.find (lastMoment c.exp) (.allUserAccessTokens c.sub) = none := by
        rw [Expiring.find, Expiring.entry, show later.redis (.allUserAccessTokens c.sub) = none from
          if_pos rfl]
        rfl
      rw [Blocked, hnone, Expiring.find_congr (hother _)]
      simpa [FoundToTheEnd] using hfree
    have henv : Elsewhere (OwnEntry ts token) { db, now := last, past := () }
        { db := later, now := lastMoment c.exp, past := () } := by
      refine ⟨later, _, rfl, hlast.trans hend, ?_⟩
      rintro k ⟨c', _, rfl⟩
      exact hother _
    refine h Empty Unit inferInstance (fun i => i.elim) _ (fun i => i.elim)
      (.single (.env henv)) hend [] c.toAuthUser ?_
    exact authMiddleware_ok_iff.2
      ⟨rfl, c, presentable_iff.2 ⟨hc, le_rfl, hv⟩, hblocked, rfl⟩
  · intro h ι ρ _ prog p hprogs hsteps hlater faults user hok
    obtain ⟨_, c, hpres, hfree, _⟩ := authMiddleware_ok_iff.1 hok
    obtain ⟨hc, hlive, hv⟩ := presentable_iff.1 hpres
    rcases h c hc hv with hexp | hfound
    · have := unixTimestamp_mono hlater
      have := unixTimestamp_le_iff.2 hlive
      omega
    · refine hfree (.inl ?_)
      obtain ⟨v, hv⟩ := Option.ne_none_iff_exists'.1
        (FoundToTheEnd.steps hc hfound hprogs hsteps : FoundToTheEnd c p.store.db)
      rw [Expiring.find_of_later hlive hv]
      exact Option.some_ne_none v

end Later

/-! ## What `revoke` stores -/

section Revoke

variable {τ : Type} {ts : TokenService τ} {clock : Nat → OffsetDateTime}

/-- The blocklist when `revoke` has blocked the token, if it has: `read` is when it computes the
seconds that are left, `stored` when it sets the entry. -/
def blockedBy (c : AccessClaims) (read stored : OffsetDateTime)
    (before : Option (Entry RedisValue OffsetDateTime)) :
    Option (Entry RedisValue OffsetDateTime) :=
  let remaining := c.exp - unixTimestamp read
  if remaining > 0 then
    some {
      value := .text "BLOCKED"
      deadline := some (stored + min remaining ttlAccessTokenBlockMax * second) }
  else before

theorem blockAccessToken_entry {db db' : AuthDb} {n m : Nat} {faults : List Bool} {jti : Uuid}
    {remaining : Int} (hpos : 0 < remaining)
    (h : Txn.runFrom authEngine clock n (AuthCache.blockAccessToken jti remaining) db faults =
      (.ok (), db', m)) :
    db'.redis (.accessToken jti) = some {
      value := .text "BLOCKED"
      deadline := some (clock n + min remaining ttlAccessTokenBlockMax * second) } := by
  have hmax : 0 < ttlAccessTokenBlockMax := by decide
  have httl : ¬min remaining ttlAccessTokenBlockMax ≤ 0 := not_le.2 (lt_min hpos hmax)
  have hset : authEngine.exec (.redisSet (.accessToken jti) (.text "BLOCKED")
      (some (min remaining ttlAccessTokenBlockMax))) (clock n) db =
      .ok ((), [.redis (.accessToken jti) (some {
        value := .text "BLOCKED"
        deadline := some (clock n + min remaining ttlAccessTokenBlockMax * second) })]) := by
    show Redis.set _ _ _ _ = _
    rw [Redis.set, if_neg (by simpa using httl)]
    rfl
  rw [AuthCache.blockAccessToken, if_neg httl, redis, ← bind_pure (Act.ask _ _),
    Txn.runFrom_pool_ok] at h
  obtain ⟨_, _, ws, hexec, h⟩ := h
  obtain ⟨_, rfl⟩ := Prod.mk.inj (Except.ok.inj (hset.symm.trans hexec))
  obtain ⟨_, rfl, _⟩ := Txn.runFrom_pure_ok.1 h
  exact if_pos rfl

theorem blockIfValid_entry (hclock : ∀ n, clock n ≤ clock (n + 1)) {token : τ} {db db' : AuthDb}
    {n m : Nat}
    {faults : List Bool} {c : AccessClaims} (hc : ts.accessClaimsOf token = some c)
    (h : Txn.runFrom authEngine clock n (ts.blockIfValid (some token)) db faults =
      (.ok (), db', m)) :
    db'.redis (.accessToken c.jti) =
      blockedBy c (clock (n + 1)) (clock (n + 2)) (db.redis (.accessToken c.jti)) := by
  have hread : ∀ k, authEngine.exec .nowUtc (clock k) db = .ok (clock k, []) := fun _ => rfl
  rw [TokenService.blockIfValid, nowUtc, Txn.runFrom_read_ok (hread n)] at h
  obtain ⟨_, h⟩ := h
  cases hcheck : ts.checkAccess (clock n) token with
  | error e =>
    -- the token has expired already, and no less so at the next call
    rw [hcheck] at h
    obtain ⟨_, rfl, _⟩ := Txn.runFrom_pure_ok.1 h
    have hexp : ¬unixTimestamp (clock n) ≤ c.exp := by
      intro hlive
      have := checkAccess_ok_iff.2 ⟨hc, unixTimestamp_le_iff.1 hlive⟩
      rw [hcheck] at this
      cases this
    have hlater : unixTimestamp (clock n) ≤ unixTimestamp (clock (n + 1)) :=
      unixTimestamp_mono (hclock n)
    exact (if_neg (by omega)).symm
  | ok c' =>
    obtain rfl : c = c' :=
      Option.some.inj (hc.symm.trans (checkAccess_ok_iff.1 hcheck).1)
    rw [hcheck] at h
    obtain ⟨_, h⟩ := (Txn.runFrom_read_ok (hread (n + 1))).1 h
    rw [blockedBy]
    by_cases hpos : c.exp - unixTimestamp (clock (n + 1)) > 0
    · rw [if_pos hpos] at h ⊢
      exact blockAccessToken_entry hpos h
    · rw [if_neg hpos] at h ⊢
      obtain ⟨_, rfl, _⟩ := Txn.runFrom_pure_ok.1 h
      rfl

/-- The blocklist after a revocation. Its five calls are the clock and the deletion of the refresh
token, the clock twice again, and the entry. -/
theorem revoke_entry (hclock : ∀ n, clock n ≤ clock (n + 1)) {refreshToken token : τ}
    {db db' : AuthDb} {m : Nat}
    {faults : List Bool} {c : AccessClaims} (hc : ts.accessClaimsOf token = some c)
    (h : Txn.runAt authEngine clock (ts.revoke refreshToken (some token)) db faults =
      (.ok (), db', m)) :
    db'.redis (.accessToken c.jti) =
      blockedBy c (clock 3) (clock 4) (db.redis (.accessToken c.jti)) := by
  rw [Txn.runAt, TokenService.revoke, TokenService.decodeRefresh, nowUtc, bind_assoc,
    Txn.runFrom_read_ok (b := clock 0) rfl] at h
  obtain ⟨_, h⟩ := h
  cases hcheck : ts.checkRefresh (clock 0) refreshToken with
  | error e =>
    rw [hcheck] at h
    cases h
  | ok claims =>
    rw [hcheck, Act.ofExcept, pure_bind, query, Txn.runFrom_pool_ok] at h
    obtain ⟨_, deleted, ws, hdelete, h⟩ := h
    rw [blockIfValid_entry hclock hc h]
    congr 1
    rcases revokeRefreshToken_ok hdelete with ⟨rfl, _⟩ | ⟨rfl, _⟩ <;> rfl

/-- The blocklist answers through the last moment at which the token has not expired: the entry is
set for long enough, or one was there and none is set. -/
def BlockedToTheEnd (c : AccessClaims) (read stored : OffsetDateTime) (db : AuthDb) : Prop :=
  if unixTimestamp read < c.exp then
    lastMoment c.exp ≤
      stored + min (c.exp - unixTimestamp read) ttlAccessTokenBlockMax * second
  else FoundToTheEnd c db

instance (c : AccessClaims) (db : AuthDb) : Decidable (FoundToTheEnd c db) :=
  inferInstanceAs (Decidable (db.redis.find (lastMoment c.exp) (.accessToken c.jti) ≠ none))

instance (c : AccessClaims) (read stored : OffsetDateTime) (db : AuthDb) :
    Decidable (BlockedToTheEnd c read stored db) :=
  inferInstanceAs (Decidable (if unixTimestamp read < c.exp then
    lastMoment c.exp ≤
      stored + min (c.exp - unixTimestamp read) ttlAccessTokenBlockMax * second
    else FoundToTheEnd c db))

theorem find_blockedBy_iff {c : AccessClaims} {read stored : OffsetDateTime} {db db' : AuthDb}
    (h : db'.redis (.accessToken c.jti) =
      blockedBy c read stored (db.redis (.accessToken c.jti))) :
    FoundToTheEnd c db' ↔ BlockedToTheEnd c read stored db := by
  rw [BlockedToTheEnd, FoundToTheEnd]
  by_cases hpos : unixTimestamp read < c.exp
  · rw [blockedBy, if_pos (by omega)] at h
    rw [if_pos hpos, Expiring.find, Expiring.entry, h]
    simp [Option.filter, Expiring.Alive]
  · rw [blockedBy, if_neg (by omega)] at h
    rw [if_neg hpos, FoundToTheEnd, Expiring.find_congr h]

/-- A revoked access token stays rejected, through all later log-outs whose entries last to the end,
exactly if it cannot be used any more when `revoke` returns, or it is blocked through its last
second. -/
theorem stays_logged_out_iff (hclock : ∀ n, clock n ≤ clock (n + 1)) {refreshToken token : τ}
    {db db' : AuthDb}
    {m : Nat} {faults : List Bool}
    (hrevoked : Txn.runAt authEngine clock (ts.revoke refreshToken (some token)) db faults =
      (.ok (), db', m)) :
    RejectedAfter ts token db' (clock (m - 1)) (clock m) ↔
      ∀ c, ts.accessClaimsOf token = some c → c.verified = true →
        c.exp < unixTimestamp (clock m) ∨ BlockedToTheEnd c (clock 3) (clock 4) db := by
  have hlast : clock (m - 1) ≤ clock m := by
    cases m with
    | zero => exact le_rfl
    | succ n => exact hclock n
  rw [rejectedAfter_iff hlast]
  refine forall_congr' fun c => forall_congr' fun hc => ?_
  rw [find_blockedBy_iff (revoke_entry hclock hc hrevoked)]

theorem lastMoment_le_iff {now : OffsetDateTime} {exp : Int} :
    lastMoment exp ≤ now + min (exp - unixTimestamp now) ttlAccessTokenBlockMax * second ↔
      exp - unixTimestamp now ≤ ttlAccessTokenBlockMax ∧ now = lastMoment (unixTimestamp now) := by
  have hnow : now ≤ lastMoment (unixTimestamp now) := unixTimestamp_le_iff.1 le_rfl
  have harith : ∀ n u : Int, n ≤ (u + 1) * second - 1 →
      ((exp + 1) * second - 1 ≤ n + min (exp - u) ttlAccessTokenBlockMax * second ↔
        exp - u ≤ ttlAccessTokenBlockMax ∧ n = (u + 1) * second - 1) := by
    intro n u hn
    rw [second, ttlAccessTokenBlockMax] at *
    omega
  exact harith now _ hnow

/-- Where all of it happens at one time, the token is blocked to its end only from the last
nanosecond of a second on. -/
theorem logout_at_once_iff {refreshToken token : τ} {db : AuthDb} {now : OffsetDateTime}
    {faults : List Bool} {c : AccessClaims} (hc : ts.accessClaimsOf token = some c)
    (hverified : c.verified = true) (hlive : unixTimestamp now < c.exp)
    (hdone : (AuthOp.run ts (.logout refreshToken (some token)) now faults db).1 = .ok .done) :
    RejectedAfter ts token (AuthOp.run ts (.logout refreshToken (some token)) now faults db).2
        now now ↔
      c.exp - unixTimestamp now ≤ ttlAccessTokenBlockMax ∧ now = lastMoment (unixTimestamp now) := by
  have hrun : AuthOp.run ts (.logout refreshToken (some token)) now faults db =
      ((Txn.run authEngine (ts.revoke refreshToken (some token)) db now faults).1.map
          fun _ => AuthAnswer.done,
        (Txn.run authEngine (ts.revoke refreshToken (some token)) db now faults).2) :=
    Txn.run_map (fun _ => AuthAnswer.done) _ db now faults
  rw [hrun, Txn.run_eq_runFrom _ _ _ _ 0] at hdone ⊢
  generalize hresult : Txn.runFrom authEngine (fun _ => now) 0
    (ts.revoke refreshToken (some token)) db faults = result at hdone ⊢
  obtain ⟨r, db', m⟩ := result
  cases r with
  | error e => cases hdone
  | ok _ =>
    have hentry := find_blockedBy_iff (revoke_entry (fun _ => le_rfl) hc hresult)
    rw [rejectedAfter_iff le_rfl]
    constructor
    · intro h
      have hend := hentry.1 ((h c hc hverified).resolve_left (not_lt.2 hlive.le))
      rw [BlockedToTheEnd, if_pos hlive] at hend
      exact lastMoment_le_iff.1 hend
    · intro hlast c' hc' _
      obtain rfl : c = c' := Option.some.inj (hc.symm.trans hc')
      refine .inr (hentry.2 ?_)
      rw [BlockedToTheEnd, if_pos hlive]
      exact lastMoment_le_iff.2 hlast

end Revoke

/-! ## A token of an hour -/

/-- The service with `ACCESS_TOKEN_EXPIRATION` set. -/
def TokenService.lasting (accessTtlSecs : Int) : TokenService (String × Payload) :=
  { TokenService.transparent with
    config := { TokenService.transparent.config with accessTtlSecs } }

/-- Ann's token from the second 0, and the store after she has signed in. -/
def annsTokenOf (ttl : Int) : String × Payload := ("access", .access { annsClaims with exp := ttl })

def annSignedInFor (ttl : Int) : AuthDb := (annSignsIn.run (.lasting ttl) 0 [] .empty).2

example : ∃ u, annSignsIn.run (.lasting 3600) 0 [] .empty =
    (.ok (.session { accessToken := annsTokenOf 3600, refreshToken := annsRefresh, user := u }),
      annSignedInFor 3600) := ⟨_, rfl⟩

/-- The entry is set at the end of the second in which the token is good for one second more. -/
def slowEntry (n : Nat) : OffsetDateTime := if n < 4 then 0 else second - 1

theorem slowEntry_le (n : Nat) : slowEntry n ≤ slowEntry (n + 1) := by
  unfold slowEntry
  split <;> split <;> first | omega | decide

theorem second_to_live_kept : RejectedAfter (.lasting 1) (annsTokenOf 1)
    (Txn.runAt authEngine slowEntry
      (TokenService.revoke (.lasting 1) annsRefresh (some (annsTokenOf 1)))
      (annSignedInFor 1) []).2.1 (slowEntry 4) (slowEntry 5) := by
  have hrevoked : Txn.runAt authEngine slowEntry
      (TokenService.revoke (.lasting 1) annsRefresh (some (annsTokenOf 1)))
      (annSignedInFor 1) [] = (.ok (), _, 5) := rfl
  refine (stays_logged_out_iff slowEntry_le hrevoked).2 ?_
  rintro c ⟨⟩ _
  exact .inr (by decide)

/-- A minute after it was issued a token of an hour is revoked; a quarter of an hour later it is
let in again. -/
theorem hour_token_let_in : ¬∀ (ts : TokenService (String × Payload)) (clock : Nat → OffsetDateTime)
    (refreshToken token : String × Payload) (db db' : AuthDb) (m : Nat) (faults : List Bool),
    (∀ n, clock n ≤ clock (n + 1)) →
    Txn.runAt authEngine clock (ts.revoke refreshToken (some token)) db faults =
      (.ok (), db', m) →
    RejectedAfter ts token db' (clock (m - 1)) (clock m) := by
  intro h
  have hrejected := h (.lasting 3600) (fun _ => 60 * second) annsRefresh (annsTokenOf 3600)
    (annSignedInFor 3600) _ _ [] (fun _ => le_rfl) rfl
  refine hrejected Empty Unit inferInstance (fun i => i.elim) _ (fun i => i.elim)
    (.single (.env (elsewhere_later _ 901))) (by decide) []
    { annsClaims with exp := 3600 }.toAuthUser rfl

end Auth

end Meno
