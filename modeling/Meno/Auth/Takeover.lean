import Meno.Auth.Google

/-!
# Meno.Auth.Takeover

Who gets the session of a user that is there already? Whoever Google vouches for: the account is
linked to the user, or has his address. The mobile login takes only verified addresses, but an
assertion for any client; the web login gets assertions for this client only, but does not look
whether the address is verified.
-/

namespace Meno

namespace Auth

open Lib

/-- The user that a login looks up. -/
def matchedUser (a : Accounts) (info : GoogleUserInfo) : Option User :=
  match a.identityOf info.sub with
  | some i => a.users.get i.userId
  | none => a.users.rows.find? fun u => u.email == info.email

/-- Google's answer entitles to the session of `u` in the application with the client id. -/
structure Entitled (clientId : String) (a : Accounts) (assertion : GoogleAssertion) (u : User) :
    Prop where
  audience : assertion.aud = clientId
  user : (∃ i, a.Knows assertion.info.sub i ∧ i.userId = u.id) ∨
    assertion.info.emailVerified = true ∧ assertion.info.email = u.email

/-- What a call would have to check. -/
def GoogleCall.Careful (clientId : String) (a : Accounts) (assertion : GoogleAssertion) :
    GoogleCall → Prop
  | .web _ _ => assertion.aud = clientId ∧
      ((∃ i, a.Knows assertion.info.sub i) ∨ assertion.info.emailVerified = true)
  | .mobile _ => assertion.aud = clientId

/-! ## When a login goes through -/

section Served

variable {τ : Type} (ts : TokenService τ) (ids : FreshIds) (now : OffsetDateTime) (db : AuthDb)

/-- The refresh token of a new session can be stored. -/
def SessionFits (userId : Uuid) : Prop :=
  ∃ ws, AuthRepository.storeRefreshToken db now ids.refreshJti userId
    (ts.crypto.hashToken (ts.signRefresh userId ids.refreshJti (unixTimestamp now)))
    (now + ts.config.refreshTtlSecs * second) = .ok ((), ws)

/-- The statements of `upsert_google_user` succeed for a user that is there. -/
def Served (faults : List Bool) (info : GoogleUserInfo) (u : User) : Prop :=
  storable info.sub = true ∧
    (match db.accounts.identityOf info.sub with
      | some _ => Txn.quiet 7 faults = true
      | none => Txn.quiet 8 faults = true ∧ storable info.email = true ∧
        ∃ ws, AuthRepository.linkProvider db now ids.identityId u.id .google info.sub =
          .ok ((), ws)) ∧
    SessionFits ts ids now db u.id

/-- The state of a web login was stored and the statements succeed; a mobile login's address is
verified and they do. -/
def GoogleCall.Passes (faults : List Bool) (info : GoogleUserInfo) (u : User) : GoogleCall → Prop
  | .web state _ => faults.headD false = false ∧
      (∃ verifier, Redis.get db now (.oauth2State state) = some (.oauth verifier)) ∧
      Served ts ids now db faults.tail.tail info u
  | .mobile _ => info.emailVerified = true ∧ Served ts ids now db faults info u

end Served

namespace AuthService

variable {τ : Type} {ts : TokenService τ} {ids : FreshIds} {now : OffsetDateTime} {d : AuthDb}
  {faults : List Bool}

theorem issue_succeeds {user : User} {providers : List AuthProvider} :
    Txn.Succeeds authEngine (issue ts user providers ids) d now faults ↔
      Txn.quiet 4 faults = true ∧ SessionFits ts ids now d user.id := by
  have hclock : authEngine.exec .nowUtc now d = .ok (now, []) := rfl
  simp only [issue, TokenService.issuePair, TokenService.signAccess, nowUtc, query, bind_assoc,
    pure_bind]
  rw [Txn.succeeds_read hclock, Txn.succeeds_read hclock, Txn.succeeds_read hclock,
    Txn.succeeds_pool]
  simp only [Txn.quiet_succ, Txn.quiet_zero, true_and, and_assoc]
  refine and_congr_right fun _ => and_congr_right fun _ => and_congr_right fun _ =>
    and_congr_right fun _ => ?_
  constructor
  · rintro ⟨_, ws, hstore, _⟩
    exact ⟨ws, hstore⟩
  · rintro ⟨ws, hstore⟩
    exact ⟨(), ws, hstore, Txn.succeeds_pure _ _ _ _⟩

/-- Whether a session fits is a matter of the users and the refresh tokens. -/
theorem sessionFits_congr {d' : AuthDb} {u : Uuid} (husers : d'.users = d.users)
    (htokens : d'.refreshTokens = d.refreshTokens) :
    SessionFits ts ids now d' u ↔ SessionFits ts ids now d u := by
  simp only [SessionFits, AuthRepository.storeRefreshToken, AuthRepository.checkUser, husers, htokens]

/-- A lookup that binds the text `k` and answers `r`. -/
theorem lookup_succeeds {α β : Type} {c : AuthStmt β} {k : String} {r : β} {f : β → AuthSvc α}
    (hc : authEngine.exec c now d = (do
      bindText k
      return (r, []))) :
    Txn.Succeeds authEngine (query c >>= f) d now faults ↔
      faults.headD false = false ∧ storable k = true ∧
        Txn.Succeeds authEngine (f r) d now faults.tail := by
  rw [query, Txn.succeeds_pool, hc, bindText]
  refine and_congr_right fun _ => ?_
  by_cases hk : storable k = true
  · simp [hk, ok_bind, pure_ok]
  · simp [hk]

/-- The rest of a login that goes by the address. -/
theorem link_succeeds {sub : String} {u : User} :
    Txn.Succeeds authEngine (do
        let _ ← Act.ask AuthError.database (.exec .pool (.linkProvider ids.identityId u.id .google sub))
        let providers ← Act.ask AuthError.database (.exec .pool (.findUserProviders u.id))
        issue ts u providers ids : AuthSvc (AuthResponse τ)) d now faults ↔
      Txn.quiet 6 faults = true ∧ (∃ ws, AuthRepository.linkProvider d now ids.identityId u.id
        .google sub = .ok ((), ws)) ∧ SessionFits ts ids now d u.id := by
  have hafter : ∀ ws faults, AuthRepository.linkProvider d now ids.identityId u.id .google sub =
      .ok ((), ws) → (Txn.Succeeds authEngine (do
        let providers ← Act.ask AuthError.database (.exec .pool (.findUserProviders u.id))
        issue ts u providers ids : AuthSvc (AuthResponse τ)) (authEngine.applyAll d ws) now faults ↔
      Txn.quiet 5 faults = true ∧ SessionFits ts ids now d u.id) := by
    intro ws faults hlink
    have hsame : (authEngine.applyAll d ws).users = d.users ∧
        (authEngine.applyAll d ws).refreshTokens = d.refreshTokens := by
      rcases AuthRepository.linkProvider_ok hlink with ⟨_, rfl⟩ | ⟨rfl, _⟩ <;> exact ⟨rfl, rfl⟩
    have hproviders : authEngine.exec (.findUserProviders u.id) now (authEngine.applyAll d ws) =
        .ok (AuthRepository.findUserProviders (authEngine.applyAll d ws) u.id, []) := rfl
    rw [Txn.succeeds_read hproviders, issue_succeeds, sessionFits_congr hsame.1 hsame.2]
    simp only [Txn.quiet_succ, and_assoc]
  rw [Txn.succeeds_pool, Txn.quiet_succ, and_assoc]
  refine and_congr_right fun _ => ?_
  constructor
  · rintro ⟨_, ws, hlink, hrest⟩
    obtain ⟨hquiet, hfits⟩ := (hafter ws _ hlink).1 hrest
    exact ⟨hquiet, ⟨ws, hlink⟩, hfits⟩
  · rintro ⟨hquiet, ⟨ws, hlink⟩, hfits⟩
    exact ⟨(), ws, hlink, (hafter ws _ hlink).2 ⟨hquiet, hfits⟩⟩

theorem upsert_known {info : GoogleUserInfo} {i : UserIdentity}
    (hi : d.accounts.identityOf info.sub = some i) :
    Txn.Succeeds authEngine (upsertGoogleUser ts info ids) d now faults ↔
      ∃ u, d.users.get i.userId = some u ∧ Served ts ids now d faults info u := by
  have hproviders : ∀ id, authEngine.exec (.findUserProviders id) now d =
      .ok (AuthRepository.findUserProviders d id, []) := fun _ => rfl
  have hbyId : ∀ id, authEngine.exec (.findById id) now d = .ok (d.users.get id, []) := fun _ => rfl
  simp only [upsertGoogleUser, findOrCreateGoogleUser, bind_assoc, Served, hi]
  rw [lookup_succeeds rfl]
  have hrow : d.identities.rows.find? (AuthRepository.UserIdentity.has .google info.sub) = some i := hi
  simp only [hrow, bind_assoc, query]
  rw [Txn.succeeds_read (hbyId _)]
  cases d.users.get i.userId with
  | none =>
    have hno : ¬Txn.Succeeds authEngine (throw .userNotFound : AuthSvc (AuthResponse τ)) d now
        faults.tail.tail := Txn.not_succeeds_throw _ _ _ _
    simpa [okOr] using fun _ _ _ => hno
  | some u =>
    simp only [okOr, pure_bind]
    rw [Txn.succeeds_read (hproviders _), issue_succeeds]
    simp only [Txn.quiet_succ, Txn.quiet_zero, and_assoc, true_and, Option.some.injEq,
      exists_eq_left']
    tauto

theorem upsert_byAddress {info : GoogleUserInfo} {u : User}
    (hi : d.accounts.identityOf info.sub = none)
    (hu : (d.users.rows.find? fun v => v.email == info.email) = some u) :
    Txn.Succeeds authEngine (upsertGoogleUser ts info ids) d now faults ↔
      Served ts ids now d faults info u := by
  simp only [upsertGoogleUser, findOrCreateGoogleUser, bind_assoc, Served, hi]
  rw [lookup_succeeds rfl]
  have hrow : d.identities.rows.find? (AuthRepository.UserIdentity.has .google info.sub) = none := hi
  simp only [hrow, bind_assoc]
  rw [lookup_succeeds rfl, hu]
  simp only [query, pure_bind, bind_assoc]
  rw [link_succeeds]
  simp only [Txn.quiet_succ, Txn.quiet_zero, and_assoc, true_and]
  tauto

theorem upsert_succeeds {info : GoogleUserInfo} {u : User}
    (hu : matchedUser d.accounts info = some u) :
    Txn.Succeeds authEngine (upsertGoogleUser ts info ids) d now faults ↔
      Served ts ids now d faults info u := by
  unfold matchedUser at hu
  cases hi : d.accounts.identityOf info.sub with
  | some i =>
    rw [hi] at hu
    have hget : d.users.get i.userId = some u := hu
    rw [upsert_known hi, hget]
    simp
  | none =>
    rw [hi] at hu
    exact upsert_byAddress hi hu

theorem served_congr {d' : AuthDb} {info : GoogleUserInfo} {u : User}
    (haccounts : d'.accounts = d.accounts) (htokens : d'.refreshTokens = d.refreshTokens) :
    Served ts ids now d' faults info u ↔ Served ts ids now d faults info u := by
  have husers : d'.users = d.users := congrArg Accounts.users haccounts
  have hids : d'.identities = d.identities := congrArg Accounts.identities haccounts
  simp only [Served, sessionFits_congr husers htokens, AuthRepository.linkProvider,
    AuthRepository.checkUser, haccounts, husers, hids]

/-- A call for a user that is there ends well when it `Passes`. -/
theorem call_succeeds {call : GoogleCall} {a : GoogleAssertion} {u : User}
    (ha : call.answer = some a) (hu : matchedUser d.accounts a.info = some u) :
    Txn.Succeeds authEngine (call.prog ts ids) d now faults ↔
      call.Passes ts ids now d faults a.info u := by
  cases call with
  | web state answer =>
    obtain rfl : answer = some a := ha
    have hget : authEngine.exec (.redisGet (.oauth2State state)) now d =
        .ok (Redis.get d now (.oauth2State state), []) := rfl
    simp only [GoogleCall.prog, googleWebAuth, AuthCache.consumeOauthState, redis, bind_assoc,
      exchangeCode, Option.map_some, okOr, pure_bind, GoogleCall.Passes]
    rw [Txn.succeeds_read hget]
    refine and_congr_right fun _ => Txn.succeeds_attempt ?_
    intro r d' hd'
    have hsame : d'.accounts = d.accounts ∧ d'.refreshTokens = d.refreshTokens := by
      rcases hd' with rfl | ⟨_, ws, hdel, rfl⟩
      · exact ⟨rfl, rfl⟩
      · cases hdel
        exact ⟨rfl, rfl⟩
    have hgo : Txn.Succeeds authEngine (upsertGoogleUser ts a.info ids) d' now faults.tail.tail ↔
        Served ts ids now d faults.tail.tail a.info u := by
      rw [upsert_succeeds (hsame.1 ▸ hu), served_congr hsame.1 hsame.2]
    have hbad : ¬Txn.Succeeds authEngine (throw .invalidToken : AuthSvc (AuthResponse τ)) d' now
        faults.tail.tail := Txn.not_succeeds_throw _ _ _ _
    cases Redis.get d now (.oauth2State state) with
    | none => simpa using hbad
    | some v =>
      cases v with
      | oauth verifier => simpa using hgo
      | text s => simpa using hbad
      | int n => simpa using hbad
  | mobile answer =>
    obtain rfl : answer = some a := ha
    simp only [GoogleCall.prog, googleMobileAuth, verifyIdToken, Option.map_some, okOr, pure_bind,
      bind_assoc, GoogleCall.Passes]
    cases hv : a.info.emailVerified with
    | false =>
      have hbad : ¬Txn.Succeeds authEngine (throw .googleAuthFailed : AuthSvc (AuthResponse τ)) d
          now faults := Txn.not_succeeds_throw _ _ _ _
      simpa [refuse] using hbad
    | true => simpa [refuse] using upsert_succeeds hu

end AuthService

/-! ## Who gets a session -/

/-- A user that a login found and that was there is the account's, or has its address. -/
theorem matched_existing {a a' : Accounts} {info : GoogleUserInfo} {v u : User}
    (hm : Matched a info a' (some v)) (hu : a.users.get v.id = some u) :
    u = v ∧ (matchedUser a info).isSome = true ∧
      ((∃ i, a.Knows info.sub i ∧ i.userId = v.id) ∨
        (∀ i, ¬a.Knows info.sub i) ∧ info.email = v.email) := by
  have haddress : a.ByAddress info v → u = v ∧ (matchedUser a info).isSome = true ∧
      ((∃ i, a.Knows info.sub i ∧ i.userId = v.id) ∨
        (∀ i, ¬a.Knows info.sub i) ∧ info.email = v.email) := by
    intro hv
    rw [Table.mem_rows_iff.1 hv.mem] at hu
    refine ⟨(Option.some.inj hu).symm, ?_, .inr ⟨hv.unknown, hv.email.symm⟩⟩
    simp only [matchedUser, Accounts.identityOf_eq_none.2 hv.unknown]
    exact List.find?_isSome.2 ⟨v, hv.mem, by simpa using hv.email⟩
  cases hm with
  | @found i _ hi hv =>
    have hid : v.id = i.userId := Table.key_of_get hv
    rw [hid, hv] at hu
    refine ⟨(Option.some.inj hu).symm, ?_, .inl ⟨i, Accounts.knows_of_identityOf hi, hid.symm⟩⟩
    simp only [matchedUser, hi, hv, Option.isSome_some]
  | known hv hi => exact haddress hv
  | linked hv hi => exact haddress hv
  | created hunknown hv hi hfound =>
    cases hfound v rfl
    rw [hv.id] at hu
    cases hu

/-- Where a user is looked up, the login does not create one. -/
theorem matched_found {a a' : Accounts} {info : GoogleUserInfo} {v : User}
    (hm : Matched a info a' (some v)) (hsome : (matchedUser a info).isSome = true) :
    a.users.get v.id = some v := by
  cases hm with
  | @found i _ hi hv => exact (Table.key_of_get hv).symm ▸ hv
  | known hv hi => exact Table.mem_rows_iff.1 hv.mem
  | linked hv hi => exact Table.mem_rows_iff.1 hv.mem
  | created hunknown hv hi hfound =>
    have hnone : (a.users.rows.find? fun u => u.email == info.email) = none := by
      rw [List.find?_eq_none]
      intro u hu
      simpa using hv.first u hu
    simp [matchedUser, Accounts.identityOf_eq_none.2 hunknown, hnone] at hsome

/-- A login gives the session of a user that is there only to who is entitled to it, exactly where
the calls that pass for such a user are careful. -/
theorem no_takeover_iff {τ : Type} (ts : TokenService τ) (clientId : String) (db : AuthDb)
    (now : OffsetDateTime) (faults : List Bool) (ids : FreshIds) (call : GoogleCall) :
    (∀ resp u, (call.run ts ids now faults db).1 = .ok resp → db.users.get resp.user.id = some u →
      ∃ a, call.answer = some a ∧ Entitled clientId db.accounts a u) ↔
    ∀ a u, call.answer = some a → matchedUser db.accounts a.info = some u →
      call.Passes ts ids now db faults a.info u → call.Careful clientId db.accounts a := by
  constructor
  · intro h a u ha hu hpass
    obtain ⟨resp, hok⟩ := (AuthService.call_succeeds ha hu).2 hpass
    obtain ⟨info, v, hinfo, hm, hid⟩ := GoogleCall.run_ok hok
    rw [GoogleCall.info, ha] at hinfo
    cases hinfo
    have hget := matched_found hm (by rw [hu]; rfl)
    obtain ⟨a', ha', haud, huser⟩ := h resp v hok (hid ▸ hget)
    cases ha.symm.trans ha'
    cases call with
    | mobile answer => exact haud
    | web state answer =>
      refine ⟨haud, ?_⟩
      rcases huser with ⟨i, hi, _⟩ | ⟨hverified, _⟩
      · exact .inl ⟨i, hi⟩
      · exact .inr hverified
  · intro h resp u hok hu
    obtain ⟨info, v, hinfo, hm, hid⟩ := GoogleCall.run_ok hok
    obtain ⟨a, ha, rfl⟩ := Option.map_eq_some_iff.1 hinfo
    rw [hid] at hu
    obtain ⟨rfl, hsome, hwho⟩ := matched_existing hm hu
    obtain ⟨v, hv⟩ := Option.isSome_iff_exists.1 hsome
    have hpass := (AuthService.call_succeeds ha hv).1 ⟨resp, hok⟩
    have hcareful := h a v ha hv hpass
    refine ⟨a, ha, ?_⟩
    cases call with
    | mobile answer =>
      refine ⟨hcareful, ?_⟩
      rcases hwho with hlinked | ⟨_, hemail⟩
      · exact .inl hlinked
      · exact .inr ⟨hpass.1, hemail⟩
    | web state answer =>
      refine ⟨hcareful.1, ?_⟩
      rcases hwho with hlinked | ⟨hunknown, hemail⟩
      · exact .inl hlinked
      · rcases hcareful.2 with ⟨i, hi⟩ | hverified
        · exact absurd hi (hunknown i)
        · exact .inr ⟨hverified, hemail⟩

/-- An assertion for Ann's account that another application has got. -/
def foreignCall : GoogleCall :=
  .mobile (some {
    info := { sub := "g1", email := "ann@meno", name := "Ann", emailVerified := true }
    aud := "another" })

/-- It opens her session here. -/
theorem foreign_assertion : ¬∀ resp u,
    (foreignCall.run .transparent (nthIds 1) 0 [] (registered "ann@meno")).1 = .ok resp →
      (registered "ann@meno").users.get resp.user.id = some u →
      ∃ a, foreignCall.answer = some a ∧ Entitled "meno" (registered "ann@meno").accounts a u := by
  intro h
  obtain ⟨a, ⟨⟩, haud, _⟩ := h _ _ rfl rfl
  exact absurd haud (by decide)

end Auth

end Meno
