import Meno.Auth.Blocklist
import Meno.Auth.Rotation
import Meno.Lib.Provenance
import Meno.Lib.Tenants

/-!
# Meno.Auth.Evidence

What the operations of the auth module do on evidence. An operation sets an address verified, stores
a code or a refresh token only after it has been answered what entitles it to that: the row or the
code that it has read (`Fact`). `cautious_prog` says so of every program, and `sourced` of every
write of every run: what a fact says was so in the history before the write, whatever the other
callers have done in between.
-/

namespace Meno

namespace Auth

open Lib

/-! ## Tables -/

inductive AuthTable where
  | users
  | identities
  | refreshTokens
  | settings
  | redis

def AuthWrite.table : AuthWrite → AuthTable
  | .user _ => .users
  | .identity _ => .identities
  | .refreshToken _ => .refreshTokens
  | .dropRefreshToken _ => .refreshTokens
  | .settings _ => .settings
  | .redis _ _ => .redis

/-- The table that a statement writes. -/
def AuthStmt.table : {β : Type} → AuthStmt β → Option AuthTable
  | _, .insertUser _ _ _ => some .users
  | _, .setVerified _ => some .users
  | _, .insertSettings _ => some .settings
  | _, .createIdentity _ _ _ _ _ => some .identities
  | _, .linkProvider _ _ _ _ => some .identities
  | _, .updatePassword _ _ => some .identities
  | _, .storeRefreshToken _ _ _ _ => some .refreshTokens
  | _, .deleteRefreshToken _ _ => some .refreshTokens
  | _, .revokeRefreshToken _ => some .refreshTokens
  | _, .deleteRefreshTokens _ => some .refreshTokens
  | _, .redisSet _ _ _ => some .redis
  | _, .redisDel _ => some .redis
  | _, .redisIncr _ => some .redis
  | _, .redisExpire _ _ => some .redis
  | _, .redisIncrAndExpire _ _ => some .redis
  | _, _ => none

section Statements

variable {db : AuthDb} {now : OffsetDateTime} {ws : List AuthWrite}

theorem table_of_redisKey {k : RedisKey} (h : ∀ x ∈ ws, x.redisKey = some k) :
    ∀ x ∈ ws, some AuthTable.redis = some x.table := by
  intro x hx
  have hkey := h x hx
  cases x with
  | redis k e => rfl
  | _ => cases hkey

theorem exec_table {β : Type} {s : AuthStmt β} {b : β}
    (h : authEngine.exec s now db = .ok (b, ws)) : ∀ x ∈ ws, s.table = some x.table := by
  cases s with
  | insertUser id name email =>
    obtain ⟨-, -, rfl, -⟩ := AuthRepository.insertUser_ok h
    exact List.forall_mem_singleton.2 rfl
  | setVerified email =>
    rcases AuthRepository.setVerified_ok h with ⟨-, rfl⟩ | ⟨u, -, -, rfl⟩
    · exact List.forall_mem_nil _
    · exact List.forall_mem_singleton.2 rfl
  | insertSettings u =>
    rw [AuthRepository.insertSettings_ok h]
    exact List.forall_mem_singleton.2 rfl
  | findByEmail email =>
    rw [(AuthRepository.findByEmail_ok h).2]
    exact List.forall_mem_nil _
  | findIdentity p pid =>
    rw [(AuthRepository.findIdentity_ok h).2]
    exact List.forall_mem_nil _
  | createIdentity id u p pid hash =>
    rw [(AuthRepository.createIdentity_ok h).2.1]
    exact List.forall_mem_singleton.2 rfl
  | linkProvider id u p pid =>
    rcases AuthRepository.linkProvider_ok h with ⟨-, rfl⟩ | ⟨rfl, -⟩
    · exact List.forall_mem_nil _
    · exact List.forall_mem_singleton.2 rfl
  | updatePassword u hash =>
    obtain ⟨_, _, he⟩ := bind_eq_ok.1 h
    cases he
    intro x hx
    obtain ⟨i, -, rfl⟩ := List.mem_map.1 hx
    rfl
  | storeRefreshToken jti u hash e =>
    rw [(AuthRepository.storeRefreshToken_ok h).1]
    exact List.forall_mem_singleton.2 rfl
  | deleteRefreshToken jti u =>
    rcases deleteRefreshToken_ok h with rfl | ⟨rfl, -⟩
    · exact List.forall_mem_nil _
    · exact List.forall_mem_singleton.2 rfl
  | revokeRefreshToken jti =>
    rcases revokeRefreshToken_ok h with ⟨rfl, -⟩ | ⟨rfl, -⟩
    · exact List.forall_mem_nil _
    · exact List.forall_mem_singleton.2 rfl
  | deleteRefreshTokens ids =>
    cases h
    intro x hx
    obtain ⟨r, -, rfl⟩ := List.mem_map.1 hx
    rfl
  | redisSet k v ttl => exact table_of_redisKey (exec_redisKey h)
  | redisDel k => exact table_of_redisKey (exec_redisKey h)
  | redisIncr k => exact table_of_redisKey (exec_redisKey h)
  | redisExpire k ttl => exact table_of_redisKey (exec_redisKey h)
  | redisIncrAndExpire k ttl => exact table_of_redisKey (exec_redisKey h)
  | _ =>
    cases h
    exact List.forall_mem_nil _

theorem insertUser_unverified {id : Uuid} {name email : String} {u : User}
    (h : AuthRepository.insertUser db now id name email = .ok (u, ws)) :
    u.verified = false ∧ u.deletedAt = none := by
  simp only [AuthRepository.insertUser, bind_eq_ok] at h
  obtain ⟨_, _, _, _, h⟩ := h
  split at h
  · cases h
  · cases h
    exact ⟨rfl, rfl⟩

end Statements

/-! ## Facts -/

/-- What an answer tells: the user that was created, the code of an address, and the rows that were
found. -/
inductive Fact where
  | created (id : Uuid) (email : String) (u : User)
  | code (otpType : OtpType) (email code : String)
  | byEmail (email : String) (u : User)
  | byId (id : Uuid) (u : User)
  | identity (provider : AuthProvider) (providerUserId : String) (i : UserIdentity)
  | refreshToken (jti userId : Uuid) (row : RefreshToken)

def learned : {β : Type} → Cmd AuthStmt DbError β → β → List Fact
  | _, .exec _ (.insertUser id _ email), .ok u => [.created id email u]
  | _, .exec .pool (.redisGet (.otp email otpType)), .ok (some (.text code)) =>
    [.code otpType email code]
  | _, .exec .pool (.findByEmail email), .ok (some u) => [.byEmail email u]
  | _, .exec .pool (.findById id), .ok (some u) => [.byId id u]
  | _, .exec .pool (.findIdentity provider providerUserId), .ok (some i) =>
    [.identity provider providerUserId i]
  | _, .exec .pool (.findRefreshToken jti userId), .ok (some row) =>
    [.refreshToken jti userId row]
  | _, _, _ => []

/-- What a caller knows after an answer. -/
def observe {β : Type} (c : Cmd AuthStmt DbError β) (b : β) (g : List Fact) : List Fact :=
  learned c b ++ g

/-! ## What an operation may do -/

section Ops

variable {τ : Type}

/-- The operation generates the code and has it sent to the address. -/
inductive AuthOp.Mails : AuthOp τ → OtpType → (email code : String) → Prop
  | register {req : RegisterRequest} {salt otp : String} {ids : FreshIds} :
      AuthOp.Mails (.register req salt otp ids) .verifyEmail req.email otp
  | resendOtp {email otp : String} {otpType : OtpType} :
      AuthOp.Mails (.resendOtp email otp otpType) otpType email otp
  | forgotPassword {email otp : String} :
      AuthOp.Mails (.forgotPassword email otp) .resetPassword email otp

/-- What Google says in the operation's request, if the operation takes it. -/
def AuthOp.assertion : AuthOp τ → Option GoogleUserInfo
  | .googleWebAuth _ answer _ => answer.map GoogleAssertion.info
  | .googleMobileAuth answer _ => (answer.map GoogleAssertion.info).filter fun info =>
    info.emailVerified
  | _ => none

/-- Google says in the operation's request that the address is verified. -/
def AuthOp.Asserts (op : AuthOp τ) (email : String) : Prop :=
  ∃ info, op.assertion = some info ∧ info.email = email ∧ info.emailVerified = true

/-- The account that the assertion stands for: the one that has Google's identity, the one that has
the address, or a new one. -/
inductive GoogleAccount (known : Fact → Prop) (info : GoogleUserInfo) : Uuid → Prop
  | identity {i : UserIdentity} {u : User} : known (.identity .google info.sub i) →
      known (.byId i.userId u) → GoogleAccount known info u.id
  | email {u : User} : known (.byEmail info.email u) → GoogleAccount known info u.id
  | created {id : Uuid} {u u' : User} : known (.created id info.email u) →
      known (.byId u.id u') → GoogleAccount known info u'.id

/-- Who is given a session, for what. -/
inductive AuthOp.Grants (ts : TokenService τ) (known : Fact → Prop) : AuthOp τ → Uuid → Prop
  | register {req : RegisterRequest} {salt otp : String} {ids : FreshIds} {u : User} :
      known (.created ids.userId req.email u) →
      AuthOp.Grants ts known (.register req salt otp ids) u.id
  | verifyEmail {email code : String} {ids : FreshIds} {u u' : User} :
      known (.byEmail email u) → known (.code .verifyEmail email code) → known (.byId u.id u') →
      AuthOp.Grants ts known (.verifyEmail email code ids) u'.id
  | login {email password dummyHash hash : String} {ids : FreshIds} {i : UserIdentity} {u : User} :
      known (.identity .email email i) → i.passwordHash = some hash →
      ts.crypto.verifyPassword password hash = true → known (.byId i.userId u) →
      u.verified = true → AuthOp.Grants ts known (.login email password dummyHash ids) u.id
  | refresh {token : τ} {ids : FreshIds} {now : OffsetDateTime} {claims : RefreshClaims}
      {row : RefreshToken} {u : User} : ts.checkRefresh now token = .ok claims →
      known (.refreshToken claims.jti claims.sub row) →
      row.tokenHash = ts.crypto.hashToken token → known (.byId claims.sub u) →
      AuthOp.Grants ts known (.refresh token ids) u.id
  | google {op : AuthOp τ} {info : GoogleUserInfo} {id : Uuid} : op.assertion = some info →
      GoogleAccount known info id → AuthOp.Grants ts known op id

/-- Who gives a user's identities a password. -/
inductive AuthOp.SetsPassword (ts : TokenService τ) (known : Fact → Prop) :
    AuthOp τ → Uuid → (hash : String) → Prop
  | register {req : RegisterRequest} {salt otp : String} {ids : FreshIds} {u : User} :
      known (.created ids.userId req.email u) →
      AuthOp.SetsPassword ts known (.register req salt otp ids) u.id
        (ts.crypto.hashPassword req.password salt)
  | resetPassword {req : ResetPasswordRequest} {salt : String} {u : User} :
      known (.byEmail req.email u) → known (.code .resetPassword u.email req.code) →
      AuthOp.SetsPassword ts known (.resetPassword req salt) u.id
        (ts.crypto.hashPassword req.newPassword salt)

variable {ts : TokenService τ} {op : AuthOp τ} {known known' : Fact → Prop}

theorem GoogleAccount.mono {info : GoogleUserInfo} {id : Uuid} (hk : ∀ f, known f → known' f)
    (h : GoogleAccount known info id) : GoogleAccount known' info id := by
  cases h with
  | identity hi hu => exact .identity (hk _ hi) (hk _ hu)
  | email hu => exact .email (hk _ hu)
  | created hu hu' => exact .created (hk _ hu) (hk _ hu')

theorem AuthOp.Grants.mono {id : Uuid} (hk : ∀ f, known f → known' f) (h : op.Grants ts known id) :
    op.Grants ts known' id := by
  cases h with
  | register hu => exact .register (hk _ hu)
  | verifyEmail hu hcode hu' => exact .verifyEmail (hk _ hu) (hk _ hcode) (hk _ hu')
  | login hi hhash hpassword hu hverified =>
    exact .login (hk _ hi) hhash hpassword (hk _ hu) hverified
  | refresh hclaims hrow hhash hu => exact .refresh hclaims (hk _ hrow) hhash (hk _ hu)
  | google hop haccount => exact .google hop (haccount.mono hk)

theorem AuthOp.SetsPassword.mono {id : Uuid} {hash : String} (hk : ∀ f, known f → known' f)
    (h : op.SetsPassword ts known id hash) : op.SetsPassword ts known' id hash := by
  cases h with
  | register hu => exact .register (hk _ hu)
  | resetPassword hu hcode => exact .resetPassword (hk _ hu) (hk _ hcode)

/-- An address is set verified, a code or a password is stored and a session begins on evidence; no
command changes a code. -/
def AuthOp.May (ts : TokenService τ) (op : AuthOp τ) :
    {β : Type} → Cmd AuthStmt DbError β → List Fact → Prop
  | _, .exec _ (.setVerified email), g =>
    (∃ code ids, op = .verifyEmail email code ids ∧ .code .verifyEmail email code ∈ g) ∨
      op.Asserts email
  | _, .exec _ (.createIdentity _ userId _ _ hash), g =>
    ∀ h, hash = some h → op.SetsPassword ts (· ∈ g) userId h
  | _, .exec _ (.updatePassword userId hash), g => op.SetsPassword ts (· ∈ g) userId hash
  | _, .exec _ (.redisSet (.otp email otpType) (.text code) _), g =>
    (∃ id email' u, .created id email' u ∈ g ∧ u.email = email ∧ op.Mails otpType email' code) ∨
      op.Mails otpType email code
  | _, .exec _ (.storeRefreshToken _ userId _ _), g => op.Grants ts (· ∈ g) userId
  | _, .exec _ (.redisIncr (.otp _ _)), _ => False
  | _, .exec _ (.redisExpire (.otp _ _) _), _ => False
  | _, .exec _ (.redisIncrAndExpire (.otp _ _) _), _ => False
  | _, _, _ => True

/-- Calls that the operation may make without evidence. -/
def AuthOp.MayAlways (ts : TokenService τ) (op : AuthOp τ) {β : Type}
    (c : Cmd AuthStmt DbError β) : Prop :=
  ∀ g, op.May ts c g

/-! ## Programs -/

variable {token : τ} {g : List Fact}

/-- The program makes its calls on evidence. -/
abbrev Cautious {α : Type} (ts : TokenService τ) (op : AuthOp τ) (x : AuthSvc α)
    (Q : α → List Fact → Prop) (g : List Fact) : Prop :=
  Act.Guarded (op.May ts) observe x Q g

theorem always_ask {β : Type} {wrap : DbError → AuthError} {e : Executor} {s : AuthStmt β}
    (h : op.MayAlways ts (.exec e s : Cmd AuthStmt DbError _)) :
    Act.Uses (op.MayAlways ts) (Act.ask wrap (.exec e s) : AuthSvc β) := Act.uses_ask h

theorem always_of_looking {β : Type} (c : Cmd AuthStmt DbError β) (h : Looking c) :
    op.MayAlways ts c := by
  intro g
  cases c with
  | exec e s =>
    cases e with
    | pool => cases s <;> trivial
    | tx => exact h.elim
  | _ => exact h.elim

theorem always_looking {α : Type} {x : AuthSvc α} (h : Act.Uses Looking x) :
    Act.Uses (op.MayAlways ts) x := Prog.uses_mono always_of_looking h

theorem cautious_always {α : Type} {x : AuthSvc α} (h : Act.Uses (op.MayAlways ts) x) :
    Cautious ts op x (fun _ _ => True) g :=
  Prog.guarded_of_uses (fun _ g hc => hc g) h (fun _ _ _ _ => trivial) g

/-- One part after the other; nothing is forgotten. -/
theorem cautious_then {α β : Type} {x : AuthSvc α} {f : α → AuthSvc β} {R : α → List Fact → Prop}
    {Q : β → List Fact → Prop} (hx : Cautious ts op x R g)
    (h : ∀ a g', g ⊆ g' → R a g' → Cautious ts op (f a) Q g') : Cautious ts op (x >>= f) Q g := by
  refine Act.guarded_bind (Prog.guarded_mono ?_ (Prog.guarded_grow (I := fun g g' => g ⊆ g')
    (fun _ => List.Subset.refl _) (fun _ _ _ => List.Subset.trans)
    (fun _ _ _ => List.subset_append_right _ _) hx))
  rintro r g' ⟨hsub, hR⟩ a rfl
  exact h a g' hsub (hR a rfl)

/-- What comes before needs no evidence. -/
theorem cautious_after {α β : Type} {x : AuthSvc α} {f : α → AuthSvc β}
    {Q : β → List Fact → Prop} (hx : Act.Uses (op.MayAlways ts) x)
    (h : ∀ a g', g ⊆ g' → Cautious ts op (f a) Q g') : Cautious ts op (x >>= f) Q g :=
  cautious_then (cautious_always hx) fun a g' hsub _ => h a g' hsub

theorem cautious_query {β γ : Type} {s : AuthStmt β} {f : β → AuthSvc γ}
    {Q : γ → List Fact → Prop} (hmay : op.May ts (.exec .pool s : Cmd AuthStmt DbError _) g)
    (h : ∀ a, Cautious ts op (f a) Q (observe (.exec .pool s) (.ok a) g)) :
    Cautious ts op (query s >>= f) Q g :=
  Act.guarded_bind (Act.guarded_ask hmay h)

theorem cautious_okOr {α β : Type} {e : AuthError} {o : Option α} {f : α → AuthSvc β}
    {Q : β → List Fact → Prop} (h : ∀ a, o = some a → Cautious ts op (f a) Q g) :
    Cautious ts op (okOr e o >>= f) Q g := by
  cases o with
  | none => rintro _ ⟨⟩
  | some a => exact Act.guarded_bind (Act.guarded_pure (h a rfl))

theorem cautious_refuse {β : Type} {e : AuthError} {cond : Bool} {f : Unit → AuthSvc β}
    {Q : β → List Fact → Prop} (h : cond = false → Cautious ts op (f ()) Q g) :
    Cautious ts op (refuse e cond >>= f) Q g := by
  cases cond with
  | true => rintro _ ⟨⟩
  | false => exact Act.guarded_bind (Act.guarded_pure (h rfl))

/-- A part that may be left out needs no evidence. -/
theorem cautious_when {β : Type} {c : Prop} [Decidable c] {x : AuthSvc Unit}
    {f : Unit → AuthSvc β} {Q : β → List Fact → Prop} (hx : Act.Uses (op.MayAlways ts) x)
    (h : ∀ u g', g ⊆ g' → Cautious ts op (f u) Q g') :
    Cautious ts op (if c then x >>= f else f ()) Q g := by
  split
  · exact cautious_after hx h
  · exact h () g (List.Subset.refl _)

theorem always_refuseExpired {stored : RefreshToken} {jti : Uuid} :
    Act.Uses (op.MayAlways ts) (TokenService.refuseExpired stored jti) :=
  always_looking looking_refuseExpired

theorem always_blockIfValid (accessToken : Option τ) :
    Act.Uses (op.MayAlways ts) (ts.blockIfValid accessToken) := by
  cases accessToken with
  | none => exact Act.uses_pure _
  | some access =>
    refine Act.uses_bind (always_ask fun _ => trivial) fun now => ?_
    split
    · exact Act.uses_pure _
    · refine Act.uses_bind (always_ask fun _ => trivial) fun now => ?_
      dsimp only
      split
      · unfold AuthCache.blockAccessToken
        dsimp only
        split
        · exact Act.uses_pure _
        · exact always_ask fun _ => trivial
      · exact Act.uses_pure _

theorem always_revoke (accessToken : Option τ) :
    Act.Uses (op.MayAlways ts) (ts.revoke token accessToken) := by
  refine Act.uses_bind (always_looking looking_decodeRefresh) fun _ => ?_
  exact Act.uses_bind (always_ask fun _ => trivial) fun _ => always_blockIfValid accessToken

theorem always_blocked (jti userId : Uuid) (issuedAt : Int) :
    Act.Uses (op.MayAlways ts) (TokenService.isAccessTokenBlocked jti userId issuedAt) := by
  refine Act.uses_bind ?_ fun _ => Act.uses_bind ?_ fun _ => Act.uses_pure _
  · exact Act.uses_bind (always_ask fun _ => trivial) fun _ => Act.uses_pure _
  · refine Act.uses_bind (always_ask fun _ => trivial) fun found => ?_
    split
    · exact Act.uses_pure _
    · exact Act.uses_throw _
    · exact Act.uses_pure _

/-- A pair of tokens is issued to whom the operation may give a session. -/
theorem cautious_issue {user : User} {providers : List AuthProvider} {ids : FreshIds}
    (h : op.Grants ts (· ∈ g) user.id) :
    Cautious ts op (AuthService.issue ts user providers ids) (fun _ _ => True) g := by
  refine cautious_then (R := fun _ _ => True) ?_ fun _ _ _ _ => Act.guarded_pure trivial
  refine cautious_after (always_looking looking_signAccess) fun _ g' hsub => ?_
  refine Act.guarded_bind (Act.guarded_ask trivial fun now => ?_)
  dsimp only
  refine Act.guarded_bind (Act.guarded_ask trivial fun now' => ?_)
  refine cautious_query (h.mono fun f hf => hsub hf) fun _ => ?_
  exact Act.guarded_pure trivial

/-- A deletion changes nothing of what is known, whatever its answer. -/
theorem cautious_del {β : Type} {k : RedisKey} {f : Except AuthError Unit → AuthSvc β}
    {Q : β → List Fact → Prop} (h : ∀ r, Cautious ts op (f r) Q g) :
    Cautious ts op (Act.attempt (redis (.redisDel k)) >>= f) Q g := by
  refine Act.guarded_bind ⟨trivial, ?_⟩
  rintro (e | a) r ⟨⟩
  · exact h _
  · exact h _

/-- Where a code is right, the caller has read it. -/
theorem cautious_verifyOtp (email code : String) (otpType : OtpType) :
    Cautious ts op (AuthCache.verifyOtp email code otpType)
      (fun valid g' => valid = true → .code otpType email code ∈ g') g := by
  unfold AuthCache.verifyOtp
  refine cautious_after (always_ask fun _ => trivial) fun attempts _ _ => ?_
  refine cautious_when (always_ask fun _ => trivial) fun _ _ _ => ?_
  refine cautious_after (uses_refuse _) fun _ g _ => ?_
  refine Act.guarded_bind (Act.guarded_ask trivial fun found => ?_)
  split
  · rename_i s
    split
    · rename_i hs
      refine cautious_del fun _ => cautious_del fun _ => Act.guarded_pure fun _ => ?_
      rw [← hs]
      exact List.mem_cons_self
    · exact Act.guarded_pure fun h => by cases h
  · rintro _ ⟨⟩
  · rintro _ ⟨⟩

theorem cautious_createUser (id : Uuid) (fullName email : String) :
    Cautious ts op (AuthService.createUser id fullName email)
      (fun u g' => .created id email u ∈ g') g := by
  refine Act.guarded_bind (Act.guarded_ask trivial fun _ => ?_)
  refine Act.guarded_bind (Act.guarded_ask trivial fun u => ?_)
  refine Act.guarded_bind (Act.guarded_ask trivial fun _ => ?_)
  refine Act.guarded_bind (Act.guarded_ask trivial fun _ => ?_)
  exact Act.guarded_pure List.mem_cons_self

/-! ## Operations -/

theorem cautious_register (req : RegisterRequest) (salt otp : String) (ids : FreshIds)
    (hop : op = .register req salt otp ids) :
    Cautious ts op (AuthService.register ts req salt otp ids) (fun _ _ => True) g := by
  refine cautious_after (always_ask fun _ => trivial) fun existing _ _ => ?_
  refine cautious_after (uses_refuse _) fun _ g _ => ?_
  dsimp only
  refine cautious_then (cautious_createUser _ _ _) fun user g' _ hcreated => ?_
  refine Act.guarded_bind (Act.guarded_ask ?_ fun _ => ?_)
  · rintro _ ⟨⟩
    rw [hop]
    exact .register hcreated
  refine Act.guarded_bind (Act.guarded_ask ?_ fun _ => cautious_issue ?_)
  · rw [hop]
    exact .inl ⟨_, _, user, hcreated, rfl, .register⟩
  · rw [hop]
    exact .register hcreated

theorem cautious_verifyEmail (email code : String) (ids : FreshIds)
    (hop : op = .verifyEmail email code ids) :
    Cautious ts op (AuthService.verifyEmail ts email code ids) (fun _ _ => True) g := by
  refine cautious_query trivial fun found => cautious_okOr ?_
  rintro user rfl
  refine cautious_refuse fun _ => ?_
  refine cautious_then (cautious_verifyOtp email code .verifyEmail) fun valid g' hsub hcode => ?_
  refine cautious_refuse fun hvalid => ?_
  have hcode : Fact.code .verifyEmail email code ∈ g' := hcode (by simpa using hvalid)
  refine cautious_query (.inl ⟨code, ids, hop, hcode⟩) fun _ => ?_
  refine cautious_query trivial fun found => cautious_okOr ?_
  rintro user' rfl
  refine cautious_issue ?_
  rw [hop]
  refine .verifyEmail (u := user) ?_ ?_ List.mem_cons_self
  · exact List.mem_cons_of_mem _ (hsub List.mem_cons_self)
  · exact List.mem_cons_of_mem _ hcode

theorem always_resendOtp (email otp : String) (otpType : OtpType)
    (hop : op = .resendOtp email otp otpType) :
    Act.Uses (op.MayAlways ts) (AuthService.resendOtp email otp otpType) := by
  refine Act.uses_bind (always_ask fun _ => trivial) fun found => ?_
  split
  · exact Act.uses_pure _
  split
  · exact Act.uses_pure _
  refine Act.uses_bind ?_ fun can => ?_
  · exact Act.uses_bind (always_ask fun _ => trivial) fun _ => Act.uses_pure _
  refine Act.uses_bind (uses_refuse _) fun _ => ?_
  refine Act.uses_bind (always_ask fun _ => trivial) fun _ => ?_
  refine Act.uses_bind (always_ask fun _ => ?_) fun _ => always_ask fun _ => trivial
  rw [hop]
  exact .inr .resendOtp

theorem cautious_login (email password dummyHash : String) (ids : FreshIds)
    (hop : op = .login email password dummyHash ids) :
    Cautious ts op (AuthService.login ts email password dummyHash ids) (fun _ _ => True) g := by
  refine cautious_after ?_ fun _ g _ => ?_
  · exact Act.uses_bind (always_ask fun _ => trivial) fun _ => uses_refuse _
  refine cautious_query trivial fun found => ?_
  dsimp only
  refine cautious_okOr ?_
  rintro identity rfl
  refine cautious_refuse fun hpassword => ?_
  obtain ⟨hash, hhash, hverify⟩ : ∃ hash, identity.passwordHash = some hash ∧
      ts.crypto.verifyPassword password hash = true := by
    cases hhash : identity.passwordHash with
    | none => simp [hhash] at hpassword
    | some hash => exact ⟨hash, rfl, by simpa [hhash] using hpassword⟩
  refine cautious_query trivial fun found => cautious_okOr ?_
  rintro user rfl
  refine cautious_refuse fun hverified => ?_
  refine cautious_after (Act.uses_attempt (always_ask fun _ => trivial)) fun _ g₁ hsub₁ => ?_
  refine cautious_after (always_ask fun _ => trivial) fun providers g₂ hsub₂ => cautious_issue ?_
  rw [hop]
  refine .login (i := identity) ?_ hhash hverify ?_ (by simpa using hverified)
  · exact hsub₂ (hsub₁ (List.mem_cons_of_mem _ List.mem_cons_self))
  · exact hsub₂ (hsub₁ List.mem_cons_self)

theorem cautious_decodeRefresh : Cautious ts op (ts.decodeRefresh token)
    (fun claims _ => ∃ now, ts.checkRefresh now token = .ok claims) g := by
  refine Act.guarded_bind (Act.guarded_ask trivial fun now => ?_)
  exact Act.guarded_ofExcept fun claims h => ⟨now, h⟩

theorem cautious_rotate (providers : List AuthProvider) (ids : FreshIds)
    (hop : op = .refresh token ids) :
    Cautious ts op (ts.rotate token providers ids.refreshJti ids.accessJti)
      (fun _ _ => True) g := by
  refine cautious_then cautious_decodeRefresh fun claims g _ hclaims => ?_
  obtain ⟨now, hclaims⟩ := hclaims
  refine cautious_query trivial fun found => cautious_okOr ?_
  rintro stored rfl
  refine cautious_refuse fun hhash => ?_
  refine cautious_after always_refuseExpired fun _ g₁ hsub => ?_
  refine cautious_query trivial fun found => cautious_okOr ?_
  rintro user rfl
  refine Act.guarded_bind (Act.guarded_ask trivial fun now => ?_)
  dsimp only
  refine Act.guarded_bind (Act.guarded_ask trivial fun now' => ?_)
  refine cautious_then (R := fun _ _ => True) ?_ fun _ _ _ _ => ?_
  · refine Act.guarded_bind (Act.guarded_ask trivial fun _ => ?_)
    refine Act.guarded_bind (Act.guarded_ask trivial fun _ => ?_)
    refine Act.guarded_bind (Act.guarded_ask ?_ fun _ => Act.guarded_ask trivial fun _ => trivial)
    rw [hop]
    have hfound : Fact.refreshToken claims.jti claims.sub stored ∈ g₁ := hsub List.mem_cons_self
    exact .refresh hclaims (List.mem_cons_of_mem _ hfound) (Eq.symm (by simpa using hhash))
      List.mem_cons_self
  · exact cautious_always (Act.uses_bind (always_looking looking_signAccess) fun _ =>
      Act.uses_pure _)

theorem cautious_resetPassword (req : ResetPasswordRequest) (salt : String)
    (hop : op = .resetPassword req salt) :
    Cautious ts op (AuthService.resetPassword ts req salt) (fun _ _ => True) g := by
  refine cautious_query trivial fun found => ?_
  split
  · exact Act.guarded_pure trivial
  · rename_i user
    refine cautious_then (cautious_verifyOtp user.email req.code .resetPassword)
      fun valid g' hsub hcode => ?_
    refine cautious_refuse fun hvalid => ?_
    refine cautious_query ?_ fun _ => ?_
    · rw [hop]
      exact .resetPassword (hsub List.mem_cons_self) (hcode (by simpa using hvalid))
    refine cautious_after (always_ask fun _ => trivial) fun _ _ _ => cautious_always ?_
    refine Act.uses_bind ?_ fun _ => ?_
    · refine Act.uses_bind (always_ask fun _ => trivial) fun _ => ?_
      exact Act.uses_bind (always_ask fun _ => trivial) fun _ => Act.uses_pure _
    · exact Act.uses_bind (always_ask fun _ => trivial) fun _ => always_ask fun _ => trivial

/-- A login with Google sets the address verified that Google says is. -/
theorem cautious_findOrCreateGoogleUser (info : GoogleUserInfo) (ids : FreshIds)
    (hop : op.assertion = some info) :
    Cautious ts op (AuthService.findOrCreateGoogleUser info ids)
      (fun u g' => GoogleAccount (· ∈ g') info u.id) g := by
  refine cautious_query trivial fun found => ?_
  split
  · refine Act.guarded_bind (Act.guarded_ask trivial fun found => ?_)
    cases found with
    | none => rintro _ ⟨⟩
    | some user =>
      refine Act.guarded_pure (.identity (u := user) ?_ List.mem_cons_self)
      exact List.mem_cons_of_mem _ List.mem_cons_self
  refine cautious_query trivial fun found => ?_
  split
  · rename_i user
    refine cautious_after (always_ask fun _ => trivial) fun _ g' hsub => Act.guarded_pure ?_
    exact .email (hsub List.mem_cons_self)
  refine cautious_then (cautious_createUser _ _ _) fun user g₁ _ hcreated => ?_
  refine cautious_after (always_ask fun _ h hnone => nomatch hnone) fun _ g₂ hsub => ?_
  have hrest : ∀ g', g₂ ⊆ g' → Cautious ts op (do
      okOr .userNotFound (← query (.findById user.id)) : AuthSvc User)
      (fun u g' => GoogleAccount (· ∈ g') info u.id) g' := by
    intro g' hsub'
    refine Act.guarded_bind (Act.guarded_ask trivial fun found => ?_)
    cases found with
    | none => rintro _ ⟨⟩
    | some user' =>
      have hknown := List.mem_cons_of_mem (Fact.byId user.id user') (hsub' (hsub hcreated))
      exact Act.guarded_pure (.created hknown List.mem_cons_self)
  dsimp only
  split
  · rename_i hverified
    have hasserts : op.Asserts info.email := ⟨info, hop, rfl, hverified⟩
    exact cautious_after (always_ask fun _ => .inr hasserts) fun _ g' hsub' => hrest g' hsub'
  · exact hrest g₂ (List.Subset.refl _)

theorem cautious_upsertGoogleUser (info : GoogleUserInfo) (ids : FreshIds)
    (hop : op.assertion = some info) :
    Cautious ts op (AuthService.upsertGoogleUser ts info ids) (fun _ _ => True) g := by
  refine cautious_then (cautious_findOrCreateGoogleUser info ids hop) fun user g _ haccount => ?_
  refine cautious_after (always_ask fun _ => trivial) fun _ g' hsub => cautious_issue ?_
  exact .google hop (haccount.mono fun f hf => hsub hf)

theorem cautious_prog (op : AuthOp τ) :
    Prog.guarded (op.May ts) observe (ExceptT.run (op.prog ts)) (fun _ _ => True) [] := by
  -- An operation answers with what its program returns.
  have hwrap : ∀ {α : Type} {x : AuthSvc α} {f : α → AuthAnswer τ},
      Cautious ts op x (fun _ _ => True) [] →
        Prog.guarded (op.May ts) observe (ExceptT.run (x >>= fun a => pure (f a) : AuthSvc _))
          (fun _ _ => True) [] := by
    intro α x f hx
    exact Prog.guarded_mono (fun _ _ _ => trivial) (Act.guarded_answer hx)
  cases op with
  | register req salt otp ids => exact hwrap (cautious_register req salt otp ids rfl)
  | verifyEmail email code ids => exact hwrap (cautious_verifyEmail email code ids rfl)
  | resendOtp email otp otpType =>
    exact hwrap (cautious_always (always_resendOtp email otp otpType rfl))
  | login email password dummyHash ids =>
    exact hwrap (cautious_login email password dummyHash ids rfl)
  | logout refreshToken accessToken => exact hwrap (cautious_always (always_revoke accessToken))
  | refresh refreshToken ids =>
    refine hwrap (cautious_after (always_looking looking_decodeRefresh) fun claims _ _ => ?_)
    refine cautious_after (always_ask fun _ => trivial) fun providers _ _ => ?_
    exact cautious_then (cautious_rotate providers ids rfl) fun _ _ _ _ =>
      Act.guarded_pure trivial
  | forgotPassword email otp =>
    refine hwrap (cautious_always (Act.uses_bind (always_ask fun _ => trivial) fun found => ?_))
    split
    · exact Act.uses_pure _
    · exact always_ask fun _ => .inr .forgotPassword
  | resetPassword req salt => exact hwrap (cautious_resetPassword req salt rfl)
  | googleAuthorize csrfToken pkceVerifier =>
    refine hwrap (cautious_always (Act.uses_bind (always_ask fun _ => trivial) fun _ => ?_))
    exact always_ask fun _ => trivial
  | googleWebAuth state answer ids =>
    refine hwrap (cautious_after ?_ fun _ g _ => ?_)
    · refine Act.uses_bind (always_ask fun _ => trivial) fun data => ?_
      refine Act.uses_bind (Act.uses_attempt (always_ask fun _ => trivial)) fun _ => ?_
      split
      · exact Act.uses_pure _
      · exact Act.uses_throw _
    · cases answer with
      | none => rintro _ ⟨⟩
      | some a => exact cautious_upsertGoogleUser a.info ids rfl
  | googleMobileAuth answer ids =>
    refine hwrap ?_
    cases answer with
    | none => rintro _ ⟨⟩
    | some a =>
      show Cautious ts _ ((refuse .googleAuthFailed (!a.info.emailVerified) >>= fun _ =>
        pure a.info) >>= fun info => AuthService.upsertGoogleUser ts info ids) _ _
      have hassertion : (AuthOp.googleMobileAuth (τ := τ) (some a) ids).assertion =
          if a.info.emailVerified then some a.info else none := rfl
      cases hverified : a.info.emailVerified with
      | false => rintro _ ⟨⟩
      | true =>
        rw [if_pos hverified] at hassertion
        exact cautious_upsertGoogleUser a.info ids hassertion
  | visit accessToken =>
    refine hwrap (cautious_always ?_)
    refine Act.uses_bind (uses_okOr _) fun token => ?_
    refine Act.uses_bind ?_ fun claims => ?_
    · exact Act.uses_bind (always_ask fun _ => trivial) fun _ => Act.uses_ofExcept _
    refine Act.uses_bind (always_blocked _ _ _) fun blocked => ?_
    refine Act.uses_bind (uses_refuse _) fun _ => ?_
    exact Act.uses_bind (uses_refuse _) fun _ => Act.uses_pure _

end Ops

/-! ## Runs -/

abbrev AuthWorld (τ ι : Type) : Type 1 :=
  World AuthStmt AuthDb AuthWrite OffsetDateTime DbError (Except AuthError (AuthAnswer τ)) ι

section Runs

variable {τ ι : Type} {ts : TokenService τ} {ops : ι → AuthOp τ} {db : AuthDb} {t : OffsetDateTime}
  {log : List (ι × AuthWrite)}

/-- The code was sent to the address by one of the operations, or before the run. -/
def Sent (ops : ι → AuthOp τ) (db : AuthDb) (otpType : OtpType) (email code : String) : Prop :=
  (∃ deadline, db.redis (.otp email otpType) = some ⟨.text code, deadline⟩) ∨
    ∃ i, (ops i).Mails otpType email code

/-- What a fact says of the history. -/
def Fact.Sound (ops : ι → AuthOp τ) (db : AuthDb) (log : List (ι × AuthWrite)) : Fact → Prop
  | .created id email u => u.id = id ∧ u.email = email
  | .code otpType email c => Sent ops db otpType email c
  | .byEmail email u => u.email = email ∧
    Stood authKeyed db (log.map Prod.snd) (.user u.id) (.user u)
  | .byId id u => u.id = id ∧ Stood authKeyed db (log.map Prod.snd) (.user id) (.user u)
  | .identity provider providerUserId i =>
    (i.providerType = provider ∧ i.providerUserId = providerUserId) ∧
      Stood authKeyed db (log.map Prod.snd) (.identity i.id) (.identity i)
  | .refreshToken jti userId row => row.userId = userId ∧
    Stood authKeyed db (log.map Prod.snd) (.refreshToken jti) (.refreshToken row)

theorem Fact.Sound.append {f : Fact} (h : f.Sound ops db log) (log' : List (ι × AuthWrite)) :
    f.Sound ops db (log ++ log') := by
  have hstood : ∀ {k r}, Stood authKeyed db (log.map Prod.snd) k r →
      Stood authKeyed db ((log ++ log').map Prod.snd) k r := by
    intro k r hs
    rw [List.map_append]
    exact hs.append _
  cases f with
  | created => exact h
  | code => exact h
  | _ => exact ⟨h.1, hstood h.2⟩

/-- Every code that is stored has been sent. -/
def CodesSent (ops : ι → AuthOp τ) (db₀ db : AuthDb) : Prop :=
  ∀ otpType email code deadline, db.redis (.otp email otpType) = some ⟨.text code, deadline⟩ →
    Sent ops db₀ otpType email code

/-- What is relied on in every world: the codes, and that the history has made the store. -/
structure Relied (ops : ι → AuthOp τ) (db : AuthDb) (w : AuthWorld τ ι) : Prop where
  codes : CodesSent ops db w.committed
  replay : authEngine.applyAll db (w.log.map Prod.snd) = w.committed

/-- The operation was given a code that was sent to the address, or asserts it. -/
def AuthOp.Vouches (sent : String → String → Prop) (op : AuthOp τ) (email : String) : Prop :=
  (∃ code ids, op = .verifyEmail email code ids ∧ sent email code) ∨ op.Asserts email

/-- If the entry is a code, the operation has it sent. -/
def AuthOp.Stores (op : AuthOp τ) : RedisKey → Option (Entry RedisValue OffsetDateTime) → Prop
  | .otp email otpType, some ⟨.text code, _⟩ => op.Mails otpType email code
  | _, _ => True

/-- What an operation writes, it writes on evidence that was so before. -/
def Evident (ts : TokenService τ) (ops : ι → AuthOp τ) (db : AuthDb) (op : AuthOp τ)
    (log : List (ι × AuthWrite)) : AuthWrite → Prop
  | .user u => u.verified = true → op.Vouches (Sent ops db .verifyEmail) u.email
  | .identity i => ∀ hash, i.passwordHash = some hash →
    op.SetsPassword ts (Fact.Sound ops db log) i.userId hash
  | .redis k entry => op.Stores k entry
  | .refreshToken row => op.Grants ts (Fact.Sound ops db log) row.userId
  | _ => True

theorem Evident.append {op : AuthOp τ} (log log' : List (ι × AuthWrite)) (x : AuthWrite)
    (h : Evident ts ops db op log x) : Evident ts ops db op (log ++ log') x := by
  cases x with
  | identity i => exact fun hash hi => (h hash hi).mono fun _ hf => hf.append log'
  | refreshToken row => exact AuthOp.Grants.mono (fun _ hf => hf.append log') h
  | _ => exact h

section Exec

variable {op : AuthOp τ} {g : List Fact} {β : Type} {e : Executor} {s : AuthStmt β}
  {now : OffsetDateTime} {d : AuthDb} {b : β} {ws : List AuthWrite}

theorem evident_code (hg : ∀ f ∈ g, f.Sound ops db log)
    (hmay : op.May ts (.exec e s : Cmd AuthStmt DbError _) g)
    (h : authEngine.exec s now d = .ok (b, ws)) {k : RedisKey}
    {entry : Option (Entry RedisValue OffsetDateTime)} (hx : .redis k entry ∈ ws) :
    op.Stores k entry := by
  cases k with
  | otp email otpType =>
    cases s with
    | redisSet k v ttl =>
      cases exec_redisKey h _ hx
      simp only [authEngine, AuthStmt.exec, Redis.set] at h
      split at h
      · cases h
      · cases h
        cases List.mem_singleton.1 hx
        cases v with
        | text code =>
          rcases hmay with ⟨id, email', u, hcreated, rfl, hmails⟩ | hmails
          · rw [(hg _ hcreated).2]
            exact hmails
          · exact hmails
        | _ => trivial
    | redisDel k =>
      cases h
      cases List.mem_singleton.1 hx
      trivial
    | redisIncr k =>
      cases exec_redisKey h _ hx
      exact hmay.elim
    | redisExpire k ttl =>
      cases exec_redisKey h _ hx
      exact hmay.elim
    | redisIncrAndExpire k ttl =>
      cases exec_redisKey h _ hx
      exact hmay.elim
    | _ => cases exec_redisKey h _ hx
  | _ => trivial

theorem evident_of_exec (hg : ∀ f ∈ g, f.Sound ops db log)
    (hmay : op.May ts (.exec e s : Cmd AuthStmt DbError _) g)
    (h : authEngine.exec s now d = .ok (b, ws)) :
    ∀ x ∈ ws, Evident ts ops db op log x := by
  intro x hx
  cases x with
  | user row =>
    cases s with
    | insertUser id name email =>
      obtain ⟨-, -, rfl, -⟩ := AuthRepository.insertUser_ok h
      cases List.mem_singleton.1 hx
      intro hverified
      rw [(insertUser_unverified h).1] at hverified
      cases hverified
    | setVerified email =>
      rcases AuthRepository.setVerified_ok h with ⟨-, rfl⟩ | ⟨u, -, rfl, rfl⟩
      · cases hx
      · cases List.mem_singleton.1 hx
        intro _
        rcases hmay with ⟨code, ids, hop, hcode⟩ | hasserts
        · exact .inl ⟨code, ids, hop, hg _ hcode⟩
        · exact .inr hasserts
    | _ => cases exec_table h _ hx
  | identity row =>
    intro hash hhash
    cases s with
    | createIdentity id userId provider providerUserId hash' =>
      obtain ⟨rfl, rfl, -⟩ := AuthRepository.createIdentity_ok h
      cases List.mem_singleton.1 hx
      exact (hmay hash hhash).mono hg
    | linkProvider id userId provider providerUserId =>
      rcases AuthRepository.linkProvider_ok h with ⟨-, rfl⟩ | ⟨rfl, -⟩
      · cases hx
      · cases List.mem_singleton.1 hx
        cases hhash
    | updatePassword userId hash' =>
      obtain ⟨_, _, he⟩ := bind_eq_ok.1 h
      cases he
      obtain ⟨i, hi, he⟩ := List.mem_map.1 hx
      cases he
      cases hhash
      obtain rfl : i.userId = userId := by simpa using (List.mem_filter.1 hi).2
      exact AuthOp.SetsPassword.mono hg hmay
    | _ => cases exec_table h _ hx
  | refreshToken row =>
    cases s with
    | storeRefreshToken jti userId hash expiresAt =>
      obtain ⟨rfl, -⟩ := AuthRepository.storeRefreshToken_ok h
      cases List.mem_singleton.1 hx
      exact AuthOp.Grants.mono hg hmay
    | deleteRefreshToken jti u =>
      rcases deleteRefreshToken_ok h with rfl | ⟨rfl, -⟩
      · cases hx
      · cases List.mem_singleton.1 hx
    | revokeRefreshToken jti =>
      rcases revokeRefreshToken_ok h with ⟨rfl, -⟩ | ⟨rfl, -⟩
      · cases hx
      · cases List.mem_singleton.1 hx
    | deleteRefreshTokens ids =>
      cases h
      obtain ⟨r, -, he⟩ := List.mem_map.1 hx
      cases he
    | _ => cases exec_table h _ hx
  | redis k entry => exact evident_code hg hmay h hx
  | _ => trivial

end Exec

/-! ## What the answers tell is so -/

theorem stood_user {d : AuthDb} {u : User}
    (hreplay : authEngine.applyAll db (log.map Prod.snd) = d) (h : d.users.get u.id = some u) :
    Stood authKeyed db (log.map Prod.snd) (.user u.id) (.user u) := by
  refine stood_of_look ?_
  rw [hreplay]
  exact congrArg (Option.map AuthRow.user) h

theorem sound_found {d : AuthDb} (hreplay : authEngine.applyAll db (log.map Prod.snd) = d)
    (hsent : CodesSent ops db d) {β : Type} {s : AuthStmt β} {now : OffsetDateTime} {b : β}
    {ws : List AuthWrite} (h : authEngine.exec s now d = .ok (b, ws)) :
    ∀ f ∈ learned (.exec .pool s : Cmd AuthStmt DbError _) (.ok b), f.Sound ops db log := by
  cases s with
  | insertUser id name email =>
    obtain ⟨hid, hemail, -⟩ := AuthRepository.insertUser_ok h
    exact List.forall_mem_singleton.2 ⟨hid, hemail⟩
  | findByEmail email =>
    obtain ⟨hfound, -⟩ := AuthRepository.findByEmail_ok h
    cases b with
    | none => exact List.forall_mem_nil _
    | some u =>
      have hmem := List.mem_of_find?_eq_some hfound.symm
      have hemail := List.find?_some hfound.symm
      refine List.forall_mem_singleton.2 ⟨by simpa using hemail, ?_⟩
      exact stood_user hreplay (Table.mem_rows_iff.1 hmem)
  | findById id =>
    cases h
    cases hfound : AuthRepository.findById d id with
    | none => exact List.forall_mem_nil _
    | some u =>
      obtain rfl : u.id = id := Table.key_of_get hfound
      exact List.forall_mem_singleton.2 ⟨rfl, stood_user hreplay hfound⟩
  | findIdentity provider providerUserId =>
    obtain ⟨hfound, -⟩ := AuthRepository.findIdentity_ok h
    cases b with
    | none => exact List.forall_mem_nil _
    | some i =>
      have hmem := List.mem_of_find?_eq_some hfound.symm
      have hhas := UserIdentity.has_iff.1 (List.find?_some hfound.symm)
      refine List.forall_mem_singleton.2 ⟨hhas, stood_of_look ?_⟩
      rw [hreplay]
      exact congrArg (Option.map AuthRow.identity) (Table.mem_rows_iff.1 hmem)
  | findRefreshToken jti userId =>
    cases h
    cases hfound : AuthRepository.findRefreshToken d jti userId with
    | none => exact List.forall_mem_nil _
    | some row =>
      obtain ⟨hget, huser⟩ := Option.filter_eq_some_iff.1 hfound
      refine List.forall_mem_singleton.2 ⟨by simpa using huser, stood_of_look ?_⟩
      rw [hreplay]
      exact congrArg (Option.map AuthRow.refreshToken) hget
  | redisGet k =>
    cases k with
    | otp email otpType =>
      match b, h with
      | some (.text code), h =>
        obtain ⟨⟨_, deadline⟩, hentry, rfl, -⟩ :=
          Expiring.find_eq_some (congrArg Prod.fst (Except.ok.inj h))
        exact List.forall_mem_singleton.2 (hsent _ _ _ _ hentry)
      | none, _ => exact List.forall_mem_nil _
      | some (.int _), _ => exact List.forall_mem_nil _
      | some (.oauth _), _ => exact List.forall_mem_nil _
    | _ => exact List.forall_mem_nil _
  | _ => exact List.forall_mem_nil _

@[simp] theorem learned_error {β : Type} (e : Executor) (s : AuthStmt β) (err : DbError) :
    learned (.exec e s) (.error err) = [] := by
  cases s with
  | redisGet k =>
    cases k <;> cases e <;> rfl
  | _ => cases e <;> rfl

/-- In a transaction nothing is learned but who is created. -/
theorem sound_created {d : AuthDb} {β : Type} {s : AuthStmt β} {now : OffsetDateTime} {b : β}
    {ws : List AuthWrite} (h : authEngine.exec s now d = .ok (b, ws)) :
    ∀ f ∈ learned (.exec .tx s : Cmd AuthStmt DbError _) (.ok b), f.Sound ops db log := by
  cases s with
  | insertUser id name email =>
    obtain ⟨hid, hemail, -⟩ := AuthRepository.insertUser_ok h
    exact List.forall_mem_singleton.2 ⟨hid, hemail⟩
  | redisGet k =>
    cases k <;> exact List.forall_mem_nil _
  | _ => exact List.forall_mem_nil _

variable {w : AuthWorld τ ι} [DecidableEq ι]

abbrev Runs (ts : TokenService τ) (ops : ι → AuthOp τ) (db : AuthDb) (t : OffsetDateTime)
    (w : AuthWorld τ ι) : Prop :=
  World.Reaches authKeyed (fun i => ExceptT.run ((ops i).prog ts)) db t w

/-- The runs in whose worlds that can be relied on. -/
abbrev RunsRelied (ts : TokenService τ) (ops : ι → AuthOp τ) (db : AuthDb) (t : OffsetDateTime)
    (w : AuthWorld τ ι) : Prop :=
  World.StepsMay authKeyed (fun v _ => Relied ops db v)
    (World.start db t fun i => ExceptT.run ((ops i).prog ts)) w

theorem evidence_linked (i : ι) :
    World.Linked authKeyed (fun (v _ : AuthWorld τ ι) => Relied ops db v)
      ((ops i).May ts) observe (fun g v => ∀ f ∈ g, f.Sound ops db v.log) i where
  own := by
    intro v β c k fault g _ hs _ hg f hf
    have hknown : ∀ f ∈ learned c (Session.handle authEngine c (v.session i c fault)).1,
        f.Sound ops db v.log := by
      cases c with
      | begin => exact List.forall_mem_nil _
      | commit => exact List.forall_mem_nil _
      | exec e s =>
        cases hanswer : (Session.handle authEngine (.exec e s)
            (v.session i (.exec e s) fault)).1 with
        | error err =>
          rw [learned_error]
          exact List.forall_mem_nil _
        | ok b =>
          obtain ⟨ws, hexec, -⟩ := World.writes_of_answered hanswer
          cases e with
          | pool => exact sound_found hs.2.replay hs.2.codes hexec
          | tx => exact sound_created hexec
    rcases List.mem_append.1 hf with hf | hf
    · exact (hknown f hf).append _
    · exact (hg f hf).append _
  others := by
    intro v v' g hs _ hg f hf
    cases hs.1 with
    | call => exact (hg f hf).append _
    | rollback => exact hg f hf
    | tick => exact hg f hf

/-- Whatever an operation writes is evident. -/
theorem sourced (h : RunsRelied ts ops db t w) (i : ι) :
    World.Sourced (Evident ts ops db (ops i)) i w := by
  refine World.sourced_of_steps (evidence_linked i) Evident.append ?_ h
    (List.forall_mem_nil _) (cautious_prog (ops i)) ⟨?_, ?_⟩
  · intro v β c fault g hmay hg x hx
    cases c with
    | begin => cases hx
    | commit => cases hx
    | exec e s =>
      obtain ⟨b, ws, hexec, hx⟩ := World.mem_writes hx
      exact evident_of_exec hg hmay hexec x hx
  · exact fun x hx => nomatch hx
  · intro before x after hlog
    cases before <;> cases hlog

theorem evident_of_mem (h : RunsRelied ts ops db t w) {i : ι} {x : AuthWrite}
    (hx : (i, x) ∈ w.log) : Evident ts ops db (ops i) w.log x := by
  obtain ⟨before, after, hlog⟩ := List.append_of_mem hx
  have hevident := (sourced h i).log before x after hlog
  rw [hlog]
  exact Evident.append _ _ _ hevident

/-- So every code that is stored has been sent, -/
theorem relied_of_runsRelied (h : RunsRelied ts ops db t w) : Relied ops db w := by
  have hreplay := (World.apart_of_reaches h.reaches).replay
  refine ⟨?_, hreplay⟩
  intro otpType email code deadline hentry
  have hlook : authKeyed.look (authEngine.applyAll db (w.log.map Prod.snd))
      (.redis (.otp email otpType)) = some (.redis ⟨.text code, deadline⟩) := by
    rw [hreplay]
    exact congrArg (Option.map AuthRow.redis) hentry
  rcases stood_of_look hlook with hstart | ⟨x, hx, hkey, hvalue⟩
  · obtain ⟨e, he, hcast⟩ := Option.map_eq_some_iff.1 hstart
    cases hcast
    exact .inl ⟨deadline, he⟩
  · obtain ⟨⟨i, x⟩, hmem, rfl⟩ := List.mem_map.1 hx
    have hevident := evident_of_mem h hmem
    cases x with
    | redis k entry =>
      cases hkey
      obtain ⟨e, rfl, hcast⟩ := Option.map_eq_some_iff.1 hvalue
      cases hcast
      exact .inr ⟨i, hevident⟩
    | _ => cases hkey

/-- and the condition on the runs is none. -/
theorem runsRelied (h : Runs ts ops db t w) : RunsRelied ts ops db t w := by
  induction h with
  | refl => exact .refl
  | tail _ hs ih => exact ih.tail ⟨hs, relied_of_runsRelied ih⟩

/-- What is committed stood at the start, or an operation has written it. -/
theorem stood_committed (h : Runs ts ops db t w) {k : AuthKey} {r : AuthRow}
    (hlook : w.committed.look k = some r) :
    db.look k = some r ∨ ∃ i x, (i, x) ∈ w.log ∧ x.key = k ∧ x.value = some r := by
  have hreplayed : authKeyed.look (authEngine.applyAll db (w.log.map Prod.snd)) k = some r := by
    rw [(World.apart_of_reaches h).replay]
    exact hlook
  rcases stood_of_look hreplayed with hstart | ⟨x, hx, hkey, hvalue⟩
  · exact .inl hstart
  · obtain ⟨⟨i, x⟩, hmem, rfl⟩ := List.mem_map.1 hx
    exact .inr ⟨i, x, hmem, hkey, hvalue⟩

end Runs

end Auth

end Meno
