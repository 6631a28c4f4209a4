import Meno.Auth.Statements
import Meno.Lib.Ends

/-!
# Meno.Auth.Google

The logins with Google, and what they do to users and identities. `Matched` lists the ways in which
one can end; `call_matched` is the only place where the programs are taken apart for it.
-/

namespace Meno

namespace Auth

open Lib

/-- A call of `google_web_auth` or `google_mobile_auth`. -/
inductive GoogleCall where
  | web (state : String) (answer : Option GoogleAssertion)
  | mobile (answer : Option GoogleAssertion)
deriving DecidableEq

namespace GoogleCall

def answer : GoogleCall → Option GoogleAssertion
  | .web _ answer => answer
  | .mobile answer => answer

/-- The account that Google names in its answer. -/
def info (call : GoogleCall) : Option GoogleUserInfo := call.answer.map GoogleAssertion.info

def prog {τ : Type} (ts : TokenService τ) (ids : FreshIds) :
    GoogleCall → AuthSvc (AuthResponse τ)
  | .web state answer => AuthService.googleWebAuth ts state answer ids
  | .mobile answer => AuthService.googleMobileAuth ts answer ids

/-- The call run alone. -/
def run {τ : Type} (ts : TokenService τ) (ids : FreshIds) (now : OffsetDateTime)
    (faults : List Bool) (call : GoogleCall) (db : AuthDb) :
    Except AuthError (AuthResponse τ) × AuthDb :=
  Txn.run authEngine (call.prog ts ids) db now faults

end GoogleCall

/-! ## Accounts -/

/-- The part of the store that says who has which account. -/
structure Accounts where
  users : Table User User.id
  identities : Table UserIdentity UserIdentity.id

def AuthDb.accounts (db : AuthDb) : Accounts := ⟨db.users, db.identities⟩

namespace Accounts

variable (a : Accounts)

/-- `i` is the identity of the Google account `sub`. -/
def Knows (sub : String) (i : UserIdentity) : Prop :=
  i ∈ a.identities.rows ∧ i.providerType = .google ∧ i.providerUserId = sub

/-- The identity that `find_identity` finds for the Google account `sub`. -/
def identityOf (sub : String) : Option UserIdentity :=
  a.identities.rows.find? (AuthRepository.UserIdentity.has .google sub)

/-- `i` is the Google identity of the user `u`. -/
def HasGoogle (u : Uuid) (i : UserIdentity) : Prop :=
  i ∈ a.identities.rows ∧ i.providerType = .google ∧ i.userId = u

/-- A login goes to the user `u` by his address: the account is unknown. -/
structure ByAddress (info : GoogleUserInfo) (u : User) : Prop where
  unknown : ∀ i, ¬a.Knows info.sub i
  mem : u ∈ a.users.rows
  email : u.email = info.email

/-- What the database itself keeps: the `UNIQUE` constraints. -/
structure Sound : Prop where
  emails : ∀ u ∈ a.users.rows, ∀ v ∈ a.users.rows, u.email = v.email → u = v
  accounts : ∀ sub i j, a.Knows sub i → a.Knows sub j → i = j
  users : ∀ u i j, a.HasGoogle u i → a.HasGoogle u j → i = j

/-- A user of an address that nobody has. -/
structure NewUser (address : String) (u : User) : Prop where
  email : u.email = address
  id : a.users.get u.id = none
  first : ∀ v ∈ a.users.rows, v.email ≠ address

/-- The user's Google identity, under the name `k`; nobody has one, or the name. -/
structure NewGoogle (u : Uuid) (k : String) (i : UserIdentity) : Prop where
  id : a.identities.get i.id = none
  provider : i.providerType = .google
  user : i.userId = u
  name : i.providerUserId = k
  first : ∀ j, ¬a.HasGoogle u j
  unknown : ∀ j, ¬a.Knows k j

variable {a} {sub : String}

theorem knows_of_identityOf {i : UserIdentity} (h : a.identityOf sub = some i) : a.Knows sub i :=
  ⟨List.mem_of_find?_eq_some h, UserIdentity.has_iff.1 (List.find?_some h)⟩

theorem identityOf_eq_none : a.identityOf sub = none ↔ ∀ i, ¬a.Knows sub i := by
  rw [identityOf, List.find?_eq_none]
  constructor
  · rintro h i ⟨hi, hk⟩
    exact h i hi (UserIdentity.has_iff.2 hk)
  · intro h i hi hhas
    exact h i ⟨hi, UserIdentity.has_iff.1 hhas⟩

end Accounts

/-- The accounts after a login of `info`, and the user that it found, if it came so far. -/
inductive Matched (a : Accounts) (info : GoogleUserInfo) : Accounts → Option User → Prop where
  | failed : Matched a info a none
  /-- The account is known. -/
  | found {i : UserIdentity} {u : User} : a.identityOf info.sub = some i →
      a.users.get i.userId = some u → Matched a info a (some u)
  /-- The user with the address has a Google identity already: nothing is linked. -/
  | known {i : UserIdentity} {u : User} : a.ByAddress info u → a.HasGoogle u.id i →
      Matched a info a (some u)
  | linked {i : UserIdentity} {u : User} : a.ByAddress info u → a.NewGoogle u.id info.sub i →
      Matched a info { a with identities := a.identities.put i } (some u)
  /-- An account was created, and nothing else came about. -/
  | bare {u : User} : a.NewUser info.email u → Matched a info { a with users := a.users.put u } none
  /-- The identity of a new account is called by its address. -/
  | created {i : UserIdentity} {u : User} {found : Option User} : (∀ j, ¬a.Knows info.sub j) →
      a.NewUser info.email u → a.NewGoogle u.id info.email i → (∀ v ∈ found, v = u) →
      Matched a info ⟨a.users.put u, a.identities.put i⟩ found

namespace AuthService

variable {d : AuthDb} {now : OffsetDateTime} {calm : Bool}

theorem ends_okOr {α : Type} {error : AuthError} {o : Option α} {txn : Option (List AuthWrite)}
    {P : α → AuthDb → Option (List AuthWrite) → Prop}
    {F : AuthError → AuthDb → Option (List AuthWrite) → Prop} (hsome : ∀ a, o = some a → P a d txn)
    (hnone : o = none → F error d txn) :
    Txn.Ends authEngine calm now (okOr error o) P F d txn := by
  cases o with
  | none => exact Txn.ends_throw (hnone rfl)
  | some a => exact Txn.ends_pure (hsome a rfl)

theorem ends_refuse {error : AuthError} {cond : Bool} {txn : Option (List AuthWrite)}
    {P : Unit → AuthDb → Option (List AuthWrite) → Prop}
    {F : AuthError → AuthDb → Option (List AuthWrite) → Prop} (hno : cond = false → P () d txn)
    (hyes : cond = true → F error d txn) :
    Txn.Ends authEngine calm now (refuse error cond) P F d txn := by
  cases cond with
  | false => exact Txn.ends_pure (hno rfl)
  | true => exact Txn.ends_throw (hyes rfl)

/-- A user of a new address, or none. -/
theorem createUser_ends {id : Uuid} {name email : String} {txn : Option (List AuthWrite)} :
    Txn.Ends authEngine calm now (createUser id name email)
      (fun u d' _ => d.accounts.NewUser email u ∧
        d'.accounts = ⟨d.users.put u, d.identities⟩)
      (fun _ d' _ => d'.accounts = d.accounts) d txn := by
  refine Txn.ends_bind (Txn.ends_begin ?_ fun _ => rfl)
  refine Txn.ends_bind (Txn.ends_tx ?_ (fun _ _ => rfl) fun _ => rfl)
  intro u ws hu
  obtain ⟨hid, hemail, rfl, hnew, haddress⟩ := AuthRepository.insertUser_ok hu
  refine Txn.ends_bind (Txn.ends_tx ?_ (fun _ _ => rfl) fun _ => rfl)
  intro _ ws hs
  obtain rfl := AuthRepository.insertSettings_ok hs
  refine Txn.ends_bind (Txn.ends_commit (Txn.ends_pure ?_) fun _ => rfl)
  exact ⟨⟨hemail, hid ▸ hnew, haddress⟩, rfl⟩

theorem newGoogle_of {i : UserIdentity} (h : AuthRepository.NewIdentity d i)
    (hgoogle : i.providerType = .google) :
    d.accounts.NewGoogle i.userId i.providerUserId i where
  id := h.id
  provider := hgoogle
  user := rfl
  name := rfl
  first := by
    rintro j ⟨hj, hjg, hju⟩
    exact h.user j hj ⟨hju, hjg.trans hgoogle.symm⟩
  unknown := by
    rintro j ⟨hj, hjg, hjk⟩
    exact h.account j hj ⟨hjg.trans hgoogle.symm, hjk⟩

/-- Marking the only user of the address as verified changes his row only. -/
theorem setVerified_ends {info : GoogleUserInfo} {u : User} {ids : Table UserIdentity UserIdentity.id}
    {txn : Option (List AuthWrite)} {d₁ : AuthDb} (hu : d.accounts.NewUser info.email u)
    (hd₁ : d₁.accounts = ⟨d.users.put u, ids⟩) :
    Txn.Ends authEngine calm now (query (.setVerified info.email))
      (fun _ d' _ => ∃ u', u'.id = u.id ∧ d.accounts.NewUser info.email u' ∧
        d'.accounts = ⟨d.users.put u', ids⟩)
      (fun _ d' _ => d'.accounts = ⟨d.users.put u, ids⟩) d₁ txn := by
  have husers : d₁.users = d.users.put u := congrArg Accounts.users hd₁
  have hids : d₁.identities = ids := congrArg Accounts.identities hd₁
  refine Txn.ends_pool ?_ (fun _ _ => hd₁) fun _ => hd₁
  intro _ ws hset
  rcases AuthRepository.setVerified_ok hset with ⟨_, rfl⟩ | ⟨v, hv, hemail, rfl⟩
  · exact ⟨u, rfl, hu, hd₁⟩
  · rw [husers] at hv
    have hvu : v = u := by
      rcases Table.mem_put_rows.1 hv with hvu | ⟨hold, _⟩
      · exact hvu
      · exact absurd hemail (hu.first v hold)
    subst hvu
    refine ⟨{ v with verified := true, updatedAt := now }, rfl, ⟨hu.email, hu.id, hu.first⟩, ?_⟩
    have hput : (d₁.users.put { v with verified := true, updatedAt := now }) =
        d.users.put { v with verified := true, updatedAt := now } := by
      rw [husers]
      exact Table.put_put _ rfl
    exact congrArg₂ Accounts.mk hput hids

/-- How the second half of the creation of an account can end. -/
theorem nameAccount_matched {info : GoogleUserInfo} {ids : FreshIds} {u : User} {d₁ : AuthDb}
    {txn : Option (List AuthWrite)} (hunknown : ∀ j, ¬d.accounts.Knows info.sub j)
    (hu : d.accounts.NewUser info.email u)
    (hd₁ : d₁.accounts = ⟨d.users.put u, d.identities⟩) :
    Txn.Ends authEngine calm now (do
        let _ ← query (.createIdentity ids.identityId u.id .google u.email none)
        if info.emailVerified then query (.setVerified info.email) else pure ()
        okOr .userNotFound (← query (.findById u.id)))
      (fun u d' _ => Matched d.accounts info d'.accounts (some u))
      (fun _ d' _ => Matched d.accounts info d'.accounts none) d₁ txn := by
  have hbare : Matched d.accounts info d₁.accounts none := hd₁ ▸ .bare hu
  refine Txn.ends_bind (Txn.ends_pool ?_ (fun _ _ => hbare) fun _ => hbare)
  intro i ws hi
  obtain ⟨rfl, rfl, hnew⟩ := AuthRepository.createIdentity_ok hi
  have husers : d₁.users = d.users.put u := congrArg Accounts.users hd₁
  have hids : d₁.identities = d.identities := congrArg Accounts.identities hd₁
  set i := AuthRepository.identityRow now ids.identityId u.id .google u.email none
  have hgoogle : d.accounts.NewGoogle u.id info.email i := by
    have hd₁' : d₁.accounts.NewGoogle u.id u.email i := newGoogle_of hnew rfl
    rw [hd₁, hu.email] at hd₁'
    exact ⟨hd₁'.id, rfl, rfl, hu.email, hd₁'.first, hd₁'.unknown⟩
  have hd₂ : (authEngine.applyAll d₁ [.identity i]).accounts =
      ⟨d.users.put u, d.identities.put i⟩ := by
    rw [← husers, ← hids]
    rfl
  have htail : ∀ (u' : User) (d₃ : AuthDb) (txn : Option (List AuthWrite)), u'.id = u.id →
      d.accounts.NewUser info.email u' → d₃.accounts = ⟨d.users.put u', d.identities.put i⟩ →
      Txn.Ends authEngine calm now (query (.findById u.id) >>= okOr .userNotFound)
        (fun u d' _ => Matched d.accounts info d'.accounts (some u))
        (fun _ d' _ => Matched d.accounts info d'.accounts none) d₃ txn := by
    intro u' d₃ txn hid hu' hd₃
    have hgoogle' : d.accounts.NewGoogle u'.id info.email i := hid ▸ hgoogle
    have hget : d₃.users.get u.id = some u' := by
      have husers' : d₃.users = d.users.put u' := congrArg Accounts.users hd₃
      rw [husers', ← hid]
      exact Table.get_put_self _ _
    have hend : ∀ found : Option User, (∀ v ∈ found, v = u') →
        Matched d.accounts info d₃.accounts found :=
      fun found hf => hd₃ ▸ .created hunknown hu' hgoogle' hf
    refine Txn.ends_bind (Txn.ends_read rfl ?_ fun _ => hend none (by simp))
    refine ends_okOr (fun v hv => hend (some v) ?_) fun _ => hend none (by simp)
    rintro _ ⟨⟩
    exact Option.some.inj (hv.symm.trans hget)
  cases info.emailVerified with
  | false => exact htail u _ _ rfl hu hd₂
  | true =>
    refine Txn.ends_bind (Txn.ends_mono (setVerified_ends hu hd₂) ?_ ?_)
    · rintro _ d₃ txn ⟨u', hid, hu', hd₃⟩
      exact htail u' d₃ txn hid hu' hd₃
    · rintro _ d' _ hd'
      exact hd' ▸ .created hunknown hu hgoogle (by simp)

/-- How the matching of a Google account can end. -/
theorem findOrCreate_matched {info : GoogleUserInfo} {ids : FreshIds}
    {txn : Option (List AuthWrite)} :
    Txn.Ends authEngine calm now (findOrCreateGoogleUser info ids)
      (fun u d' _ => Matched d.accounts info d'.accounts (some u))
      (fun _ d' _ => Matched d.accounts info d'.accounts none) d txn := by
  refine Txn.ends_bind (Txn.ends_pool ?_ (fun _ _ => .failed) fun _ => .failed)
  intro found ws hfound
  obtain ⟨hrow, rfl⟩ := AuthRepository.findIdentity_ok hfound
  cases found with
  | some i =>
    refine Txn.ends_bind (Txn.ends_read rfl ?_ fun _ => .failed)
    exact ends_okOr (fun u hu => .found hrow.symm hu) fun _ => .failed
  | none =>
    have hunknown : ∀ i, ¬d.accounts.Knows info.sub i := Accounts.identityOf_eq_none.1 hrow.symm
    refine Txn.ends_bind (Txn.ends_pool ?_ (fun _ _ => .failed) fun _ => .failed)
    intro user ws huser
    obtain ⟨hrow, rfl⟩ := AuthRepository.findByEmail_ok huser
    cases user with
    | some u =>
      have hu : d.accounts.ByAddress info u :=
        ⟨hunknown, List.mem_of_find?_eq_some hrow.symm, by simpa using List.find?_some hrow.symm⟩
      refine Txn.ends_bind (Txn.ends_pool ?_ (fun _ _ => .failed) fun _ => .failed)
      intro _ ws hlink
      rcases AuthRepository.linkProvider_ok hlink with ⟨⟨j, hj, hju, hjg⟩, rfl⟩ | ⟨rfl, hnew⟩
      · exact Txn.ends_pure (.known hu ⟨hj, hjg, hju⟩)
      · exact Txn.ends_pure (.linked hu (newGoogle_of hnew rfl))
    | none =>
      have hfree : ∀ v ∈ d.users.rows, v.email ≠ info.email := by
        intro v hv
        simpa using List.find?_eq_none.1 hrow.symm v hv
      refine Txn.ends_bind (Txn.ends_mono createUser_ends ?_ ?_)
      · rintro u d₁ txn ⟨hu, hd₁⟩
        exact nameAccount_matched hunknown hu hd₁
      · rintro _ d' _ hd'
        rw [hd']
        exact .failed

/-! ## The session -/

variable {τ : Type} (ts : TokenService τ)

/-- Issuing a session leaves the accounts alone. -/
theorem issue_ends {user : User} {providers : List AuthProvider} {ids : FreshIds}
    {txn : Option (List AuthWrite)} :
    Txn.Ends authEngine calm now (issue ts user providers ids)
      (fun resp d' _ => resp.user.id = user.id ∧ d'.accounts = d.accounts)
      (fun _ d' _ => d'.accounts = d.accounts) d txn := by
  refine Txn.ends_bind (Txn.ends_bind (Txn.ends_bind ?_))
  refine Txn.ends_read rfl (Txn.ends_pure ?_) fun _ => rfl
  refine Txn.ends_bind (Txn.ends_read rfl ?_ fun _ => rfl)
  refine Txn.ends_bind (Txn.ends_read rfl ?_ fun _ => rfl)
  refine Txn.ends_bind (Txn.ends_pool ?_ (fun _ _ => rfl) fun _ => rfl)
  intro _ ws hstore
  obtain ⟨rfl, _⟩ := AuthRepository.storeRefreshToken_ok hstore
  exact Txn.ends_pure (Txn.ends_pure ⟨rfl, rfl⟩)

/-- How the rest of a login can end. -/
theorem upsert_matched {info : GoogleUserInfo} {ids : FreshIds} {d₀ : AuthDb}
    {txn : Option (List AuthWrite)} (hd : d.accounts = d₀.accounts) :
    Txn.Ends authEngine calm now (upsertGoogleUser ts info ids)
      (fun resp d' _ => ∃ u, Matched d₀.accounts info d'.accounts (some u) ∧ resp.user.id = u.id)
      (fun _ d' _ => ∃ found, Matched d₀.accounts info d'.accounts found) d txn := by
  rw [← hd]
  refine Txn.ends_bind (Txn.ends_mono findOrCreate_matched ?_ fun _ _ _ h => ⟨none, h⟩)
  intro u d₁ txn hu
  refine Txn.ends_bind (Txn.ends_read rfl ?_ fun _ => ⟨some u, hu⟩)
  refine Txn.ends_mono (issue_ends ts) ?_ ?_
  · rintro resp d' _ ⟨hid, hacc⟩
    exact ⟨u, hacc ▸ hu, hid⟩
  · rintro _ d' _ hacc
    exact ⟨some u, hacc ▸ hu⟩

theorem consumeOauthState_ends {state : String} {txn : Option (List AuthWrite)} :
    Txn.Ends authEngine calm now (AuthCache.consumeOauthState state)
      (fun _ d' _ => d'.accounts = d.accounts) (fun _ d' _ => d'.accounts = d.accounts) d txn := by
  refine Txn.ends_bind (Txn.ends_read rfl ?_ fun _ => rfl)
  refine Txn.ends_bind (Txn.ends_attempt (Txn.ends_pool ?_ (fun _ _ => ?_) fun _ => ?_))
  · rintro _ ws ⟨⟩
    split
    · exact Txn.ends_pure rfl
    · exact Txn.ends_throw rfl
  -- The value was read before the key is deleted, so a failed deletion changes nothing here.
  · split
    · exact Txn.ends_pure rfl
    · exact Txn.ends_throw rfl
  · split
    · exact Txn.ends_pure rfl
    · exact Txn.ends_throw rfl

/-- How a login can end. -/
theorem call_matched {call : GoogleCall} {ids : FreshIds} :
    Txn.Ends authEngine calm now (call.prog ts ids)
      (fun resp d' _ => ∃ info u, call.info = some info ∧
        Matched d.accounts info d'.accounts (some u) ∧ resp.user.id = u.id)
      (fun _ d' _ => d'.accounts = d.accounts ∨
        ∃ info found, call.info = some info ∧ Matched d.accounts info d'.accounts found) d none := by
  cases call with
  | web state answer =>
    refine Txn.ends_bind (Txn.ends_mono consumeOauthState_ends ?_ fun _ _ _ h => .inl h)
    intro _ d₁ txn hd₁
    refine Txn.ends_bind (ends_okOr ?_ fun _ => .inl hd₁)
    intro info hinfo
    refine Txn.ends_mono (upsert_matched ts hd₁) ?_ ?_
    · rintro resp d' _ ⟨u, hu, hid⟩
      exact ⟨info, u, hinfo, hu, hid⟩
    · rintro _ d' _ ⟨found, hfound⟩
      exact .inr ⟨info, found, hinfo, hfound⟩
  | mobile answer =>
    refine Txn.ends_bind (Txn.ends_bind (ends_okOr ?_ fun _ => .inl rfl))
    intro info hinfo
    refine Txn.ends_bind (ends_refuse (fun _ => ?_) fun _ => .inl rfl)
    refine Txn.ends_pure (Txn.ends_mono (upsert_matched ts rfl) ?_ ?_)
    · rintro resp d' _ ⟨u, hu, hid⟩
      exact ⟨info, u, hinfo, hu, hid⟩
    · rintro _ d' _ ⟨found, hfound⟩
      exact .inr ⟨info, found, hinfo, hfound⟩

end AuthService

/-- A login that ends well was for an account that Google named, and found its user. -/
theorem GoogleCall.run_ok {τ : Type} {ts : TokenService τ} {call : GoogleCall} {db : AuthDb}
    {ids : FreshIds} {now : OffsetDateTime} {faults : List Bool} {resp : AuthResponse τ}
    (h : (call.run ts ids now faults db).1 = .ok resp) :
    ∃ info u, call.info = some info ∧
      Matched db.accounts info (call.run ts ids now faults db).2.accounts (some u) ∧
        resp.user.id = u.id := by
  obtain ⟨_, hend⟩ := Txn.run_ends faults (AuthService.call_matched ts :
    Txn.Ends authEngine false now (call.prog ts ids) _ _ db none) (fun hc => by cases hc)
  unfold GoogleCall.run at h ⊢
  rw [h] at hend
  exact hend

/-! ## Ann -/

/-- The ids of the `n`th call. -/
def nthIds (n : Nat) : FreshIds where
  userId := ⟨BitVec.ofNat 128 (4 * n)⟩
  identityId := ⟨BitVec.ofNat 128 (4 * n + 1)⟩
  accessJti := ⟨BitVec.ofNat 128 (4 * n + 2)⟩
  refreshJti := ⟨BitVec.ofNat 128 (4 * n + 3)⟩

/-- A store with a user of the address and nothing else. -/
def registered (email : String) : AuthDb :=
  { AuthDb.empty with
    users := (Table.empty : Table User User.id).put {
      id := ⟨0⟩, fullName := "Ann", bio := none, email, avatarId := none, avatarUrl := none
      verified := true, role := .user, createdAt := 0, updatedAt := 0, deletedAt := none } }

end Auth

end Meno
