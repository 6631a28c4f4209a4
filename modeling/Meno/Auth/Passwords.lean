import Meno.Auth.Commands
import Meno.Auth.Entrances
import Meno.Auth.Takeover

/-!
# Meno.Auth.Passwords

Can a password be used after it was reset? `reset_password` goes by the user of the address and
writes the hash to all the identities that he has; `login` goes by the e-mail identity of the
address. A user who came by Google has none, so his new password opens nothing.
-/

namespace Meno

namespace Auth

open Lib

/-! ## Statements that leave the accounts alone -/

/-- The statement writes neither users nor identities. -/
def AuthStmt.keepsAccounts : {β : Type} → AuthStmt β → Bool
  | _, .insertUser _ _ _ => false
  | _, .setVerified _ => false
  | _, .createIdentity _ _ _ _ _ => false
  | _, .linkProvider _ _ _ _ => false
  | _, .updatePassword _ _ => false
  | _, _ => true

/-- Writes to Redis change nothing else. -/
theorem applyAll_redis {k : RedisKey} {ws : List AuthWrite} :
    ∀ {db : AuthDb}, (∀ x ∈ ws, x.redisKey = some k) →
      authEngine.applyAll db ws = { db with redis := (authEngine.applyAll db ws).redis } := by
  induction ws with
  | nil => intro db _; rfl
  | cons x ws ih =>
    intro db h
    have hx := h x List.mem_cons_self
    cases x with
    | redis k e => exact ih fun y hy => h y (List.mem_cons_of_mem _ hy)
    | _ => cases hx

theorem accounts_of_redisKey {db : AuthDb} {k : RedisKey} {ws : List AuthWrite}
    (h : ∀ x ∈ ws, x.redisKey = some k) : (authEngine.applyAll db ws).accounts = db.accounts := by
  rw [applyAll_redis h]
  rfl

theorem accounts_of_drops {db : AuthDb} {rows : List RefreshToken} :
    (authEngine.applyAll db (rows.map fun r => .dropRefreshToken r.id)).accounts = db.accounts := by
  induction rows generalizing db with
  | nil => rfl
  | cons r rows ih => exact ih.trans rfl

theorem exec_keepsAccounts {β : Type} {s : AuthStmt β} {now : OffsetDateTime} {db : AuthDb} {b : β}
    {ws : List AuthWrite} (hs : s.keepsAccounts = true)
    (h : authEngine.exec s now db = .ok (b, ws)) :
    (authEngine.applyAll db ws).accounts = db.accounts := by
  cases s with
  | insertUser => cases hs
  | setVerified => cases hs
  | createIdentity => cases hs
  | linkProvider => cases hs
  | updatePassword => cases hs
  | insertSettings u =>
    rw [AuthRepository.insertSettings_ok h]
    rfl
  | findByEmail email =>
    rw [(AuthRepository.findByEmail_ok h).2]
    rfl
  | findIdentity p k =>
    rw [(AuthRepository.findIdentity_ok h).2]
    rfl
  | storeRefreshToken jti u hash e =>
    rw [(AuthRepository.storeRefreshToken_ok h).1]
    rfl
  | deleteRefreshToken jti u =>
    rcases deleteRefreshToken_ok h with rfl | ⟨rfl, -⟩
    · rfl
    · rfl
  | revokeRefreshToken jti =>
    rcases revokeRefreshToken_ok h with ⟨rfl, -⟩ | ⟨rfl, -⟩
    · rfl
    · rfl
  | deleteRefreshTokens ids =>
    cases h
    exact accounts_of_drops
  | redisSet k v ttl => exact accounts_of_redisKey (exec_redisKey h)
  | redisDel k => exact accounts_of_redisKey (exec_redisKey h)
  | redisIncr k => exact accounts_of_redisKey (exec_redisKey h)
  | redisExpire k ttl => exact accounts_of_redisKey (exec_redisKey h)
  | redisIncrAndExpire k ttl => exact accounts_of_redisKey (exec_redisKey h)
  | _ =>
    cases h
    rfl

/-! ## The reset -/

/-- The identities of the user have the hash, and nothing else of the accounts is changed. -/
structure PasswordSet (a : Accounts) (userId : Uuid) (hash : String) (now : OffsetDateTime)
    (a' : Accounts) : Prop where
  users : a'.users = a.users
  identities : ∀ id, a'.identities.get id = (a.identities.get id).map fun i =>
    if i.userId == userId then { i with passwordHash := some hash, updatedAt := some now } else i

section Reset

variable {τ : Type} {ts : TokenService τ} {now : OffsetDateTime} {d : AuthDb} {calm : Bool}
  {txn : Option (List AuthWrite)}

theorem identities_of_writes {rows : List UserIdentity} :
    ∀ {d : AuthDb}, (authEngine.applyAll d (rows.map .identity)).accounts =
      ⟨d.users, rows.foldl Table.put d.identities⟩ := by
  induction rows with
  | nil => intro d; rfl
  | cons r rows ih => intro d; exact ih

theorem updatePassword_sets {userId : Uuid} {hash : String} {ws : List AuthWrite} {x : Unit}
    (h : AuthRepository.updatePassword d now userId hash = .ok (x, ws)) :
    PasswordSet d.accounts userId hash now (authEngine.applyAll d ws).accounts := by
  obtain ⟨_, -, he⟩ := bind_eq_ok.1 h
  cases he
  set f : UserIdentity → UserIdentity :=
    fun i => { i with passwordHash := some hash, updatedAt := some now }
  have hrows : ((d.identities.rows.filter fun i => i.userId == userId).map fun i =>
      AuthWrite.identity (f i)) =
        ((d.identities.rows.filter fun i => i.userId == userId).map f).map .identity := by
    rw [List.map_map]
    rfl
  rw [hrows, identities_of_writes]
  exact ⟨rfl, Table.get_update d.identities _ fun _ => rfl⟩

/-- What makes only statements that leave the accounts alone leaves them alone. -/
theorem ends_accounts {α : Type} {a : Accounts} {x : AuthSvc α}
    (hx : Act.Uses (Txn.OnPool fun s => AuthStmt.keepsAccounts s = true) x) (hd : d.accounts = a) :
    Txn.Ends authEngine calm now x (fun _ d' _ => d'.accounts = a) (fun _ d' _ => d'.accounts = a) d
      txn :=
  Txn.ends_onPool (fun _ hs _ _ _ he h => (exec_keepsAccounts hs he).trans h) hx hd

theorem keeps_verifyOtp {email code : String} {otpType : OtpType} :
    Act.Uses (Txn.OnPool fun s => AuthStmt.keepsAccounts s = true)
      (AuthCache.verifyOtp email code otpType) := by
  obtain ⟨f, hparts, hf⟩ := verifyOtp_parts email code otpType
  rw [hparts]
  refine Act.uses_bind (Act.uses_ask rfl) fun attempts => ?_
  have hrest : Act.Uses (Txn.OnPool fun s => AuthStmt.keepsAccounts s = true) (do
      refuse .tooManyRequests (attempts > 5)
      let found ← redis (.redisGet (.otp email otpType))
      f found) := by
    refine Act.uses_bind (uses_refuse _) fun _ => ?_
    exact Act.uses_bind (Act.uses_ask rfl) fun found => hf (fun _ => rfl) found
  dsimp only
  split
  · exact Act.uses_bind (Act.uses_ask rfl) fun _ => hrest
  · exact hrest

theorem keeps_revokeAllForUser {userId : Uuid} :
    Act.Uses (Txn.OnPool fun s => AuthStmt.keepsAccounts s = true) (ts.revokeAllForUser userId) := by
  refine Act.uses_bind (Act.uses_bind (Act.uses_ask rfl) fun _ => ?_) fun _ => ?_
  · exact Act.uses_bind (Act.uses_ask rfl) fun _ => Act.uses_pure _
  · exact Act.uses_bind (Act.uses_ask rfl) fun _ => Act.uses_ask rfl

/-- A reset that ends well has given the password to all the identities of the user. -/
theorem resetPassword_ends {req : ResetPasswordRequest} {salt : String} {u : User}
    {ws : List AuthWrite} (hu : AuthRepository.findByEmail d req.email = .ok (some u, ws)) :
    Txn.Ends authEngine calm now (AuthService.resetPassword ts req salt)
      (fun _ d' _ => PasswordSet d.accounts u.id (ts.crypto.hashPassword req.newPassword salt) now
        d'.accounts) (fun _ _ _ => True) d txn := by
  obtain rfl := (AuthRepository.findByEmail_ok hu).2
  refine Txn.ends_bind (Txn.ends_read hu ?_ fun _ => trivial)
  refine Txn.ends_bind (Txn.ends_mono (ends_accounts keeps_verifyOtp rfl) ?_ fun _ _ _ _ => trivial)
  intro valid d₁ txn hd₁
  refine Txn.ends_bind (AuthService.ends_refuse (fun _ => ?_) fun _ => trivial)
  refine Txn.ends_bind (Txn.ends_pool (fun x ws hset => ?_) (fun _ _ => trivial) fun _ => trivial)
  have hpassword := updatePassword_sets hset
  rw [hd₁] at hpassword
  have hrest : Act.Uses (Txn.OnPool fun s => AuthStmt.keepsAccounts s = true) (do
      AuthCache.revokeOtp u.email .resetPassword
      ts.revokeAllForUser u.id) :=
    Act.uses_bind (Act.uses_ask rfl) fun _ => keeps_revokeAllForUser
  refine Txn.ends_mono (ends_accounts hrest rfl) ?_ fun _ _ _ _ => trivial
  intro _ d' _ hd'
  rw [hd']
  exact hpassword

end Reset

namespace PasswordSet

variable {a a' : Accounts} {userId : Uuid} {hash : String} {now : OffsetDateTime}

/-- An identity of the accounts comes from one that was there before, and is the same account of the
same user. -/
theorem came (h : PasswordSet a userId hash now a') {x : UserIdentity}
    (hx : x ∈ a'.identities.rows) : ∃ i ∈ a.identities.rows, x.userId = i.userId ∧
      x.providerType = i.providerType ∧ x.providerUserId = i.providerUserId ∧
        (i.userId = userId → x.passwordHash = some hash) := by
  have hget := Table.mem_rows_iff.1 hx
  rw [h.identities] at hget
  obtain ⟨i, hi, rfl⟩ := Option.map_eq_some_iff.1 hget
  refine ⟨i, (Table.get_eq_some_iff.1 hi).1, ?_⟩
  by_cases huser : i.userId = userId
  · simp [huser]
  · simp [huser]

/-- No identity is lost. -/
theorem stayed (h : PasswordSet a userId hash now a') {i : UserIdentity}
    (hi : i ∈ a.identities.rows) : ∃ x ∈ a'.identities.rows,
      x.providerType = i.providerType ∧ x.providerUserId = i.providerUserId := by
  have hget := h.identities i.id
  rw [Table.mem_rows_iff.1 hi] at hget
  refine ⟨_, (Table.get_eq_some_iff.1 hget).1, ?_⟩
  by_cases huser : i.userId = userId
  · simp [huser]
  · simp [huser]

end PasswordSet

/-! ## The login -/

/-- The attempt is within the limit. -/
def LoginPermitted (d : AuthDb) (now : OffsetDateTime) (email : String) : Prop :=
  ∃ n ws, Redis.incrAndExpireIfFirst d now (.loginAttempts email) ttlRateWindowSecs = .ok (n, ws) ∧
    n ≤ maxLoginAttempts

section Login

variable {τ : Type} {ts : TokenService τ} {now : OffsetDateTime} {d : AuthDb} {calm : Bool}
  {email password dummyHash : String} {ids : FreshIds}

/-- A session is given to the user of the e-mail identity of the address. -/
theorem login_ends : Txn.Ends authEngine calm now (AuthService.login ts email password dummyHash ids)
    (fun resp _ _ => ∃ i, d.identities.rows.find?
      (AuthRepository.UserIdentity.has .email email) = some i ∧ resp.user.id = i.userId)
    (fun _ _ _ => True) d none := by
  have hcheck : Act.Uses (Txn.OnPool fun s => AuthStmt.keepsAccounts s = true)
      (AuthCache.checkLoginRateLimit email) :=
    Act.uses_bind (Act.uses_ask rfl) fun _ => uses_refuse _
  refine Txn.ends_bind (Txn.ends_mono (ends_accounts hcheck rfl) ?_ fun _ _ _ _ => trivial)
  intro _ d₁ txn hd₁
  have hids : d₁.identities = d.identities := congrArg Accounts.identities hd₁
  refine Txn.ends_bind (Txn.ends_pool (fun found ws hfound => ?_) (fun _ _ => trivial)
    fun _ => trivial)
  obtain ⟨hrow, rfl⟩ := AuthRepository.findIdentity_ok hfound
  refine Txn.ends_bind (AuthService.ends_okOr (fun i hi => ?_) fun _ => trivial)
  rw [hids, hi] at hrow
  refine Txn.ends_bind (AuthService.ends_refuse (fun _ => ?_) fun _ => trivial)
  refine Txn.ends_bind (Txn.ends_read rfl ?_ fun _ => trivial)
  refine Txn.ends_bind (AuthService.ends_okOr (fun v hv => ?_) fun _ => trivial)
  have hid : v.id = i.userId := Table.key_of_get hv
  refine Txn.ends_bind (AuthService.ends_refuse (fun _ => ?_) fun _ => trivial)
  refine Txn.ends_bind (Txn.ends_attempt (Txn.ends_pool (fun _ ws hdel => ?_) (fun _ _ => ?_)
    fun _ => ?_))
  all_goals
    refine Txn.ends_bind (Txn.ends_read rfl ?_ fun _ => trivial)
    refine Txn.ends_mono (AuthService.issue_ends ts) ?_ fun _ _ _ _ => trivial
    rintro resp d' _ ⟨huser, -⟩
    exact ⟨i, hrow.symm, huser.trans hid⟩

/-- A login with the password of the e-mail identity succeeds. -/
theorem login_succeeds {i : UserIdentity} {hash : String} {v : User} (hemail : storable email = true)
    (hi : d.identities.rows.find? (AuthRepository.UserIdentity.has .email email) = some i)
    (hhash : i.passwordHash = some hash) (hpassword : ts.crypto.verifyPassword password hash = true)
    (hv : d.users.get i.userId = some v) (hverified : v.verified = true)
    (hpermitted : LoginPermitted d now email) (hfits : SessionFits ts ids now d v.id) :
    Txn.Succeeds authEngine (AuthService.login ts email password dummyHash ids) d now [] := by
  obtain ⟨n, ws, hcount, hn⟩ := hpermitted
  set d₁ := authEngine.applyAll d ws with hd₁
  have hkey : ∀ x ∈ ws, x.redisKey = some (.loginAttempts email) :=
    exec_redisKey (s := .redisIncrAndExpire (.loginAttempts email) ttlRateWindowSecs) hcount
  have hsame : d₁.users = d.users ∧ d₁.identities = d.identities ∧
      d₁.refreshTokens = d.refreshTokens := by
    rw [hd₁, applyAll_redis hkey]
    exact ⟨rfl, rfl, rfl⟩
  have hbyId : authEngine.exec (.findById i.userId) now d₁ = .ok (some v, []) := by
    show Except.ok (d₁.users.get i.userId, []) = _
    rw [hsame.1, hv]
  have hproviders : ∀ d' : AuthDb, authEngine.exec (.findUserProviders v.id) now d' =
      .ok (AuthRepository.findUserProviders d' v.id, []) := fun _ => rfl
  have hlimit : decide (n > maxLoginAttempts) = false := by simpa using hn
  simp only [AuthService.login, AuthCache.checkLoginRateLimit, redis, bind_assoc]
  rw [Txn.succeeds_pool]
  refine ⟨rfl, n, ws, hcount, ?_⟩
  rw [← hd₁, hlimit]
  simp only [refuse, Bool.false_eq_true, if_false, pure_bind]
  rw [AuthService.lookup_succeeds rfl]
  refine ⟨rfl, hemail, ?_⟩
  rw [hsame.2.1, hi]
  simp only [okOr, pure_bind, query, hhash, Option.bind_some, Option.getD_some, hpassword,
    Option.isNone_some, Bool.not_true, Bool.or_false, Bool.false_eq_true, if_false]
  rw [Txn.succeeds_read hbyId]
  refine ⟨rfl, ?_⟩
  simp only [hverified, pure_bind, Bool.not_true, Bool.false_eq_true, if_false,
    AuthCache.clearLoginRateLimit, redis]
  refine (Txn.succeeds_attempt (Q := True) fun r d' hd' => ?_).2 trivial
  refine iff_of_true ?_ trivial
  rw [Txn.succeeds_read (hproviders _)]
  refine ⟨rfl, AuthService.issue_succeeds.2 ⟨rfl, ?_⟩⟩
  have hlast : d'.users = d.users ∧ d'.refreshTokens = d.refreshTokens := by
    rcases hd' with rfl | ⟨_, ws', hdel, rfl⟩
    · exact ⟨hsame.1, hsame.2.2⟩
    · cases hdel
      exact ⟨hsame.1, hsame.2.2⟩
  exact (AuthService.sessionFits_congr hlast.1 hlast.2).2 hfits

/-- After a reset the login finds the user by his new password exactly when he has the e-mail identity
of the address. -/
theorem reset_usable_iff (ts : TokenService τ)
    (hverify : ∀ password salt,
      ts.crypto.verifyPassword password (ts.crypto.hashPassword password salt) = true)
    {db db' d : AuthDb} {req : ResetPasswordRequest} {salt dummyHash : String}
    {now now' : OffsetDateTime} {faults : List Bool} {ids : FreshIds} {u : User}
    (hunique : ∀ i ∈ db.identities.rows, ∀ j ∈ db.identities.rows,
      i.providerType = j.providerType → i.providerUserId = j.providerUserId → i = j)
    (hu : AuthRepository.findByEmail db req.email = .ok (some u, []))
    (hverified : u.verified = true)
    (hreset : Txn.run authEngine (AuthService.resetPassword ts req salt) db now faults =
      (.ok (), db'))
    (hlater : d.accounts = db'.accounts) (hpermitted : LoginPermitted d now' req.email)
    (hfits : SessionFits ts ids now' d u.id) :
    (∃ resp, (Txn.run authEngine (AuthService.login ts req.email req.newPassword dummyHash ids) d
      now' []).1 = .ok resp ∧ resp.user.id = u.id) ↔
    ∃ i ∈ db.identities.rows, i.userId = u.id ∧
      AuthRepository.UserIdentity.has .email req.email i = true := by
  -- the identities that the login finds are those from before the reset, with the new hash
  have hset : PasswordSet db.accounts u.id (ts.crypto.hashPassword req.newPassword salt) now
      d.accounts := by
    obtain ⟨_, hend⟩ := Txn.run_ends faults (resetPassword_ends hu : Txn.Ends authEngine false now
      (AuthService.resetPassword ts req salt) _ _ db none) (fun hc => nomatch hc)
    rw [hreset] at hend
    rw [hlater]
    exact hend
  have hanswer : ∀ resp, (Txn.run authEngine (AuthService.login ts req.email req.newPassword
      dummyHash ids) d now' []).1 = .ok resp → ∃ x, d.identities.rows.find?
        (AuthRepository.UserIdentity.has .email req.email) = some x ∧ resp.user.id = x.userId := by
    intro resp hok
    obtain ⟨_, hend⟩ := Txn.run_ends [] (login_ends : Txn.Ends authEngine false now'
      (AuthService.login ts req.email req.newPassword dummyHash ids) _ _ d none)
      (fun hc => nomatch hc)
    rw [hok] at hend
    exact hend
  constructor
  · rintro ⟨resp, hok, hid⟩
    obtain ⟨x, hfound, huser⟩ := hanswer resp hok
    obtain ⟨hprovider, haccount⟩ := UserIdentity.has_iff.1 (List.find?_some hfound)
    obtain ⟨i, hi, hiu, hip, hia, -⟩ := hset.came (List.mem_of_find?_eq_some hfound)
    refine ⟨i, hi, ?_, UserIdentity.has_iff.2 ⟨hip.symm.trans hprovider, hia.symm.trans haccount⟩⟩
    rw [← hiu, ← huser, hid]
  · rintro ⟨i, hi, hiu, hhas⟩
    obtain ⟨hip, hia⟩ := UserIdentity.has_iff.1 hhas
    obtain ⟨y, hy, hyp, hya⟩ := hset.stayed hi
    have hsome := List.find?_isSome.2
      ⟨y, hy, UserIdentity.has_iff.2 ⟨hyp.trans hip, hya.trans hia⟩⟩
    obtain ⟨x, hfound⟩ := Option.isSome_iff_exists.1 hsome
    obtain ⟨hprovider, haccount⟩ := UserIdentity.has_iff.1 (List.find?_some hfound)
    obtain ⟨j, hj, hju, hjp, hja, hhash⟩ := hset.came (List.mem_of_find?_eq_some hfound)
    obtain rfl : j = i := hunique j hj i hi (hjp.symm.trans (hprovider.trans hip.symm))
      (hja.symm.trans (haccount.trans hia.symm))
    have hxu : x.userId = u.id := hju.trans hiu
    have hmem : u ∈ db.users.rows :=
      List.mem_of_find?_eq_some (AuthRepository.findByEmail_ok hu).1.symm
    have hget : d.users.get x.userId = some u := by
      have husers : d.users = db.users := hset.users
      rw [husers, hxu]
      exact Table.mem_rows_iff.1 hmem
    have hemail : storable req.email = true := by
      cases hk : storable req.email with
      | true => rfl
      | false => simp [AuthRepository.findByEmail, bindText, hk] at hu
    have hlogin : Txn.Succeeds authEngine (AuthService.login ts req.email req.newPassword dummyHash
        ids) d now' [] :=
      login_succeeds hemail hfound (hhash hiu) (hverify _ _) hget hverified hpermitted hfits
    obtain ⟨resp, hok⟩ := hlogin
    obtain ⟨x', hfound', huser⟩ := hanswer resp hok
    cases hfound.symm.trans hfound'
    exact ⟨resp, hok, huser.trans hxu⟩

end Login

/-! ## Ann, with and without an e-mail identity -/

section Examples

/-- Ann asks for a new password and resets it, half an hour later than the store was left. -/
def forgotten (db : AuthDb) : AuthDb :=
  (AuthOp.run .transparent (.forgotPassword "ann@meno" "222222") (1800 * second) [] db).2

def annResets : ResetPasswordRequest where
  email := "ann@meno"
  code := "222222"
  newPassword := "Better12"

def resetBy (db : AuthDb) : Except AuthError Unit × AuthDb :=
  Txn.run authEngine (AuthService.resetPassword .transparent annResets "") (forgotten db)
    (1860 * second) []

/-- Ann registers with a password and verifies her address. -/
def annByEmail : AuthDb :=
  (AuthOp.run .transparent (.verifyEmail "ann@meno" "111111" (nthIds 2)) (60 * second) []
    (AuthOp.run .transparent (.register
      { fullName := "Ann", email := "ann@meno", password := "Secret12" } "" "111111" (nthIds 1)) 0 []
      .empty).2).2

theorem transparent_verifies : ∀ password salt,
    Crypto.transparent.verifyPassword password (Crypto.transparent.hashPassword password salt) =
      true := fun password _ => beq_self_eq_true password

/-- With the e-mail identity that she has from her registration the new password is good. -/
theorem ann_logs_in : ∃ resp, (Txn.run authEngine (AuthService.login .transparent "ann@meno"
    "Better12" "" (nthIds 3)) (resetBy annByEmail).2 (1900 * second) []).1 = .ok resp ∧
      resp.user.id = (nthIds 1).userId := by
  have hresult : (resetBy annByEmail).1 = .ok () := by decide +kernel
  have hunique : ∀ i ∈ (forgotten annByEmail).identities.rows,
      ∀ j ∈ (forgotten annByEmail).identities.rows, i.providerType = j.providerType →
        i.providerUserId = j.providerUserId → i = j := by decide +kernel
  obtain ⟨u, hu, hverified, hid⟩ : ∃ u, AuthRepository.findByEmail (forgotten annByEmail)
      "ann@meno" = .ok (some u, []) ∧ u.verified = true ∧ u.id = (nthIds 1).userId :=
    ⟨_, rfl, rfl, rfl⟩
  have hidentity : ∃ i ∈ (forgotten annByEmail).identities.rows, i.userId = u.id ∧
      AuthRepository.UserIdentity.has .email "ann@meno" i = true := by
    rw [hid]
    decide +kernel
  have hfits : SessionFits .transparent (nthIds 3) (1900 * second) (resetBy annByEmail).2 u.id := by
    rw [hid]
    exact ⟨_, rfl⟩
  have hreset : Txn.run authEngine (AuthService.resetPassword .transparent annResets "")
      (forgotten annByEmail) (1860 * second) [] = (.ok (), (resetBy annByEmail).2) :=
    Prod.ext hresult rfl
  rw [← hid]
  exact (reset_usable_iff .transparent transparent_verifies hunique hu hverified hreset rfl
    ⟨1, _, rfl, by decide⟩ hfits).2 hidentity

/-- She has come by Google: the reset says that all is well, and the new password is refused. -/
theorem reset_useless : ¬∀ (req : ResetPasswordRequest) (salt dummyHash : String)
    (db db' : AuthDb) (now now' : OffsetDateTime) (ids : FreshIds) (u : User),
    AuthRepository.findByEmail db req.email = .ok (some u, []) → u.verified = true →
    Txn.run authEngine (AuthService.resetPassword .transparent req salt) db now [] = (.ok (), db') →
    LoginPermitted db' now' req.email → SessionFits .transparent ids now' db' u.id →
      Txn.Succeeds authEngine (AuthService.login .transparent req.email req.newPassword dummyHash
        ids) db' now' [] := by
  intro h
  have hresult : (resetBy annSignedIn).1 = .ok () := by decide +kernel
  obtain ⟨resp, hok⟩ := h annResets "" "" _ (resetBy annSignedIn).2 (1860 * second) (1900 * second)
    (nthIds 3) _ rfl rfl (Prod.ext hresult rfl) ⟨1, _, rfl, by decide⟩ ⟨_, rfl⟩
  have hrefused : (Txn.run authEngine (AuthService.login .transparent "ann@meno" "Better12" ""
      (nthIds 3)) (resetBy annSignedIn).2 (1900 * second) []).1 = .error .invalidCredentials := rfl
  cases hrefused.symm.trans hok

end Examples

end Auth

end Meno
