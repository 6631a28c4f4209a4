import Meno.Auth.Google
import Meno.Lib.Faults

/-!
# Meno.Auth.Registration

What a failed registration leaves. `register` asks whether the address has an e-mail identity, and
then commits the user and the identity one after the other; but it is the users whose addresses are
unique. So a user who came by Google keeps the address for good, and so does one whose identity was
not stored. `register_repeatable_iff` says exactly when a failed registration can be repeated.
-/

namespace Meno

namespace Auth

open Lib

/-! ## Complete accounts -/

/-- Nobody has the address. -/
def AuthDb.Unused (db : AuthDb) (email : String) : Prop := ∀ u ∈ db.users.rows, u.email ≠ email

/-- Somebody has the e-mail identity of the address. -/
def AuthDb.Taken (db : AuthDb) (email : String) : Prop :=
  ∃ i ∈ db.identities.rows, AuthRepository.UserIdentity.has .email email i = true

/-- The user of the address has its e-mail identity with a password: the one with the hash, or one
that he had in `db`. -/
def Complete (db : AuthDb) (hash : String) (db' : AuthDb) (email : String) : Prop :=
  ∃ u ∈ db'.users.rows, u.email = email ∧ ∃ i ∈ db'.identities.rows, i.userId = u.id ∧
    AuthRepository.UserIdentity.has .email email i = true ∧
      (i.passwordHash = some hash ∨ i ∈ db.identities.rows ∧ i.passwordHash.isSome = true)

/-- When the registration has failed, but for the address that is taken, nobody has the address or
the account is complete. -/
def Repeatable {α : Type} (db : AuthDb) (hash email : String) (out : Except AuthError α × AuthDb) :
    Prop :=
  ∀ e, out.1 = .error e → e ≠ .emailTaken → out.2.Unused email ∨ Complete db hash out.2 email

section Condition

variable (db : AuthDb) (req : RegisterRequest) (hash : String) (ids : FreshIds)
  (faults : List Bool)

/-- `create_user` commits: none of the first five calls fails, the texts can be stored and the id is
new. -/
structure UserCommits : Prop where
  calls : ∀ n < 5, ¬Fails faults n
  email : storable req.email = true
  name : storable req.fullName = true
  user : db.users.get ids.userId = none
  settings : db.settings.get ids.userId = none

/-- `create_identity` goes through. -/
structure IdentityCommits : Prop where
  call : ¬Fails faults 5
  hash : storable hash = true
  id : db.identities.get ids.identityId = none
  user : ∀ i ∈ db.identities.rows, ¬(i.userId = ids.userId ∧ i.providerType = .email)

/-- Whoever has the address has its identity, and the registration is told so or the account is
complete; and after the user the identity is committed, too. -/
structure RepeatCondition : Prop where
  known : ¬db.Unused req.email →
    (¬Fails faults 0 ∧ storable req.email = true ∧ db.Taken req.email) ∨
      Complete db hash db req.email
  whole : db.Unused req.email → ¬db.Taken req.email → UserCommits db req ids faults →
    IdentityCommits db hash ids faults

end Condition

theorem Complete.taken {db db' : AuthDb} {hash email : String} (h : Complete db hash db' email) :
    db'.Taken email := by
  obtain ⟨u, -, -, i, hi, -, hhas, -⟩ := h
  exact ⟨i, hi, hhas⟩

theorem complete_congr {db d d' : AuthDb} {hash email : String} (h : d'.accounts = d.accounts) :
    Complete db hash d' email ↔ Complete db hash d email := by
  have husers : d'.users = d.users := congrArg Accounts.users h
  have hids : d'.identities = d.identities := congrArg Accounts.identities h
  rw [Complete, Complete, husers, hids]

/-! ## When the statements are answered -/

namespace AuthRepository

variable {db : AuthDb} {now : OffsetDateTime}

theorem findIdentity_error {provider : AuthProvider} {k : String} {e : DbError}
    (h : findIdentity db provider k = .error e) : storable k = false := by
  cases hk : storable k with
  | false => rfl
  | true => simp [findIdentity, bindText, hk, ok_bind, pure_ok] at h

theorem findIdentity_storable {provider : AuthProvider} {k : String}
    {r : Written (Option UserIdentity)} (h : findIdentity db provider k = .ok r) :
    storable k = true := by
  cases hk : storable k with
  | true => rfl
  | false => simp [findIdentity, bindText, hk] at h

theorem insertUser_error {id : Uuid} {name email : String} {e : DbError}
    (h : insertUser db now id name email = .error e) :
    ¬(storable email = true ∧ storable name = true ∧ db.users.get id = none ∧ db.Unused email) := by
  rintro ⟨hemail, hname, hid, hunused⟩
  have hfree : (db.users.rows.any fun u => u.email == email) = false := by
    rw [List.any_eq_false]
    intro u hu
    simpa using hunused u hu
  simp [insertUser, bindText, hemail, hname, hid, hfree, ok_bind, pure_ok] at h

theorem insertUser_storable {id : Uuid} {name email : String} {r : Written User}
    (h : insertUser db now id name email = .ok r) : storable name = true := by
  cases hn : storable name with
  | true => rfl
  | false => simp [insertUser, bindText, hn, error_bind] at h

theorem insertSettings_error {id : Uuid} {e : DbError} (h : insertSettings db id = .error e)
    (huser : (db.users.get id).isSome = true) : db.settings.get id ≠ none := by
  intro hnone
  simp [insertSettings, checkUser, hnone, huser, ok_bind, pure_ok] at h

theorem insertSettings_new {id : Uuid} {r : Written Unit} (h : insertSettings db id = .ok r) :
    db.settings.get id = none := by
  cases hs : db.settings.get id with
  | none => rfl
  | some s => simp [insertSettings, hs] at h

theorem createIdentity_error {id userId : Uuid} {provider : AuthProvider} {k hash : String}
    {e : DbError} (h : createIdentity db now id userId provider k (some hash) = .error e)
    (hk : storable k = true) (hfree : ∀ i ∈ db.identities.rows, ¬UserIdentity.has provider k i = true)
    (huser : (db.users.get userId).isSome = true) :
    ¬(storable hash = true ∧ db.identities.get id = none ∧
      ∀ i ∈ db.identities.rows, ¬(i.userId = userId ∧ i.providerType = provider)) := by
  rintro ⟨hhash, hid, hother⟩
  have hno : (db.identities.rows.any fun i => i.userId == userId && i.providerType == provider) =
      false := by
    rw [List.any_eq_false]
    intro i hi
    simpa using hother i hi
  have hnone : db.identities.rows.any (UserIdentity.has provider k) = false := by
    rw [List.any_eq_false]
    exact hfree
  simp [createIdentity, bindTextOpt, bindText, checkUser, hk, hhash, hid, hno, hnone, huser, ok_bind,
    pure_ok] at h

theorem createIdentity_storable {id userId : Uuid} {provider : AuthProvider} {k hash : String}
    {r : Written UserIdentity} (h : createIdentity db now id userId provider k (some hash) = .ok r) :
    storable hash = true := by
  cases hh : storable hash with
  | true => rfl
  | false =>
    cases hk : storable k <;>
      simp [createIdentity, bindTextOpt, bindText, hk, hh, ok_bind, error_bind] at h

end AuthRepository

/-! ## The parts of a registration -/

section Parts

variable {db d : AuthDb} {req : RegisterRequest} {hash : String} {ids : FreshIds} {faults : List Bool}
  {now : OffsetDateTime} {txn : Option (List AuthWrite)}

/-- The user is committed exactly when nobody has the address and `create_user` goes through. -/
theorem createUser_endsAt (hfirst : ¬Fails faults 0) (hemail : storable req.email = true) :
    Txn.EndsAt authEngine faults now (AuthService.createUser ids.userId req.fullName req.email)
      (fun u m d _ => m = 5 ∧ db.Unused req.email ∧ UserCommits db req ids faults ∧
        u.id = ids.userId ∧ u.email = req.email ∧ d.accounts = ⟨db.users.put u, db.identities⟩)
      (fun e _ d _ => e ≠ .emailTaken ∧ d.accounts = db.accounts ∧
        ¬(db.Unused req.email ∧ UserCommits db req ids faults)) 1 db none := by
  have hcall : ∀ n < 5, Fails faults n → ¬(db.Unused req.email ∧ UserCommits db req ids faults) :=
    fun n hn hf h => h.2.calls n hn hf
  refine Txn.endsAt_bind (Txn.endsAt_begin (fun h1 => ?_) fun h1 => ?_)
  rotate_left
  · exact ⟨nofun, rfl, hcall 1 (by omega) h1⟩
  refine Txn.endsAt_bind (Txn.endsAt_tx (fun h2 u ws hu => ?_) (fun h2 e he => ?_) fun h2 => ?_)
  rotate_left
  · refine ⟨nofun, rfl, fun h => ?_⟩
    exact AuthRepository.insertUser_error he ⟨h.2.email, h.2.name, h.2.user, h.1⟩
  · exact ⟨nofun, rfl, hcall 2 (by omega) h2⟩
  have hname : storable req.fullName = true := AuthRepository.insertUser_storable hu
  obtain ⟨hid, haddress, rfl, hnew, hunused⟩ := AuthRepository.insertUser_ok hu
  refine Txn.endsAt_bind (Txn.endsAt_tx (fun h3 _ ws hs => ?_) (fun h3 e he => ?_) fun h3 => ?_)
  rotate_left
  · refine ⟨nofun, rfl, fun h => ?_⟩
    refine AuthRepository.insertSettings_error he ?_ (hid ▸ h.2.settings)
    show ((db.users.put u).get u.id).isSome = true
    rw [Table.get_put_self]
    rfl
  · exact ⟨nofun, rfl, hcall 3 (by omega) h3⟩
  have hsettings := AuthRepository.insertSettings_new
    (show AuthRepository.insertSettings (authEngine.applyAll db [.user u]) u.id = _ from hs)
  rw [hid] at hsettings
  obtain rfl := AuthRepository.insertSettings_ok hs
  refine Txn.endsAt_bind (Txn.endsAt_commit (fun h4 => ?_) fun h4 => ?_)
  rotate_left
  · exact ⟨nofun, rfl, hcall 4 (by omega) h4⟩
  refine Txn.endsAt_pure ⟨rfl, hunused, ⟨?_, hemail, hname, hnew, hsettings⟩, hid, haddress, rfl⟩
  intro n hn
  match n with
  | 0 => exact hfirst
  | 1 => exact h1
  | 2 => exact h2
  | 3 => exact h3
  | 4 => exact h4

/-- What comes after the identity leaves the accounts alone. -/
theorem session_endsAt {τ : Type} (ts : TokenService τ) {user : User} {otp : String} {n : Nat} :
    Txn.EndsAt authEngine faults now (do
        AuthCache.storeOtp user.email otp .verifyEmail
        AuthService.issue ts user [.email] ids)
      (fun _ _ d' _ => d'.accounts = d.accounts) (fun _ _ d' _ => d'.accounts = d.accounts) n d
      txn := by
  refine Txn.endsAt_bind (Txn.endsAt_exec (fun _ _ ws hset => ?_) (fun _ _ _ => rfl) fun _ => rfl)
  cases hset
  refine Txn.endsAt_bind (Txn.endsAt_bind (Txn.endsAt_bind ?_))
  refine Txn.endsAt_read rfl (fun _ => Txn.endsAt_pure ?_) fun _ => rfl
  refine Txn.endsAt_bind (Txn.endsAt_read rfl (fun _ => ?_) fun _ => rfl)
  refine Txn.endsAt_bind (Txn.endsAt_read rfl (fun _ => ?_) fun _ => rfl)
  refine Txn.endsAt_bind (Txn.endsAt_exec (fun _ _ ws hstore => ?_) (fun _ _ _ => rfl) fun _ => rfl)
  obtain ⟨rfl, _⟩ := AuthRepository.storeRefreshToken_ok hstore
  exact Txn.endsAt_pure (Txn.endsAt_pure rfl)

end Parts

/-! ## The whole registration -/

section Registration

variable {τ : Type} (ts : TokenService τ) (db : AuthDb) (req : RegisterRequest) (salt otp : String)
  (ids : FreshIds) (now : OffsetDateTime) (faults : List Bool)

variable {db req ids faults} {hash : String} in
/-- When the address was not looked up. -/
theorem unread_iff (h : Fails faults 0 ∨ storable req.email = false) :
    db.Unused req.email ∨ Complete db hash db req.email ↔
      RepeatCondition db req hash ids faults := by
  constructor
  · intro hstate
    refine ⟨fun hknown => .inr (hstate.resolve_left hknown), fun _ _ huser => ?_⟩
    rcases h with h | h
    · exact absurd h (huser.calls 0 (by omega))
    · rw [huser.email] at h
      cases h
  · intro hcond
    by_cases hunused : db.Unused req.email
    · exact .inl hunused
    · rcases hcond.known hunused with ⟨hfirst, hstorable, -⟩ | hcomplete
      · rcases h with h | h
        · exact absurd h hfirst
        · rw [h] at hstorable
          cases hstorable
      · exact .inr hcomplete

variable {db req ids faults} {hash : String} in
/-- When the address has no identity, and `create_user` did not go through. -/
theorem uncommitted_iff (hfree : ¬db.Taken req.email)
    (h : ¬(db.Unused req.email ∧ UserCommits db req ids faults)) :
    db.Unused req.email ∨ Complete db hash db req.email ↔
      RepeatCondition db req hash ids faults := by
  have hbare : ¬Complete db hash db req.email := fun hc => hfree hc.taken
  constructor
  · intro hstate
    have hunused : db.Unused req.email := hstate.resolve_right hbare
    exact ⟨fun hknown => absurd hunused hknown, fun _ _ huser => absurd ⟨hunused, huser⟩ h⟩
  · intro hcond
    by_contra hno
    rcases hcond.known fun hunused => hno (.inl hunused) with ⟨-, -, htaken⟩ | hcomplete
    · exact hfree htaken
    · exact hbare hcomplete

theorem register_endsAt :
    Txn.EndsAt authEngine faults now (AuthService.register ts req salt otp ids)
      (fun _ _ _ _ => RepeatCondition db req (ts.crypto.hashPassword req.password salt) ids faults)
      (fun e _ d _ => (e ≠ .emailTaken → d.Unused req.email ∨
          Complete db (ts.crypto.hashPassword req.password salt) d req.email) ↔
        RepeatCondition db req (ts.crypto.hashPassword req.password salt) ids faults) 0 db none := by
  set hash := ts.crypto.hashPassword req.password salt with hhash
  have hdatabase : ∀ (e : DbError) {p : Prop}, (AuthError.database e ≠ .emailTaken → p) ↔ p :=
    fun e => forall_prop_of_true nofun
  refine Txn.endsAt_bind (Txn.endsAt_exec (fun h0 found ws hfound => ?_) (fun _ e he => ?_)
    fun h0 => ?_)
  rotate_left
  · exact (hdatabase _).trans (unread_iff (.inr (AuthRepository.findIdentity_error he)))
  · exact (hdatabase _).trans (unread_iff (.inl h0))
  have hemail : storable req.email = true := AuthRepository.findIdentity_storable hfound
  obtain ⟨hrow, rfl⟩ := AuthRepository.findIdentity_ok hfound
  cases found with
  | some i =>
    have htaken : db.Taken req.email :=
      ⟨i, List.mem_of_find?_eq_some hrow.symm, List.find?_some hrow.symm⟩
    refine Txn.endsAt_bind (Txn.endsAt_throw (iff_of_true (fun h => absurd rfl h) ⟨?_, ?_⟩))
    · exact fun _ => .inl ⟨h0, hemail, htaken⟩
    · exact fun _ hfree => absurd htaken hfree
  | none =>
    have hnone : ∀ i ∈ db.identities.rows,
        ¬AuthRepository.UserIdentity.has .email req.email i = true :=
      List.find?_eq_none.1 hrow.symm
    have hfree : ¬db.Taken req.email := fun ⟨i, hi, hhas⟩ => hnone i hi hhas
    refine Txn.endsAt_bind (Txn.endsAt_pure ?_)
    refine Txn.endsAt_bind (Txn.endsAt_mono (createUser_endsAt h0 hemail) ?_ ?_)
    rotate_left
    · rintro e _ d _ ⟨he, hd, hno⟩
      have husers : d.users = db.users := congrArg Accounts.users hd
      rw [forall_prop_of_true he, AuthDb.Unused, husers, complete_congr hd]
      exact uncommitted_iff hfree hno
    · rintro u m d txn ⟨rfl, hunused, huser, hid, haddress, hd⟩
      have husers : d.users = db.users.put u := congrArg Accounts.users hd
      have hids : d.identities = db.identities := congrArg Accounts.identities hd
      have hmem : u ∈ d.users.rows := by
        rw [husers]
        exact Table.mem_put_rows.2 (.inl rfl)
      -- without the identity the account is half created
      have hhalf : ¬(d.Unused req.email ∨ Complete db hash d req.email) := by
        rintro (hno | hcomplete)
        · exact hno u hmem haddress
        · obtain ⟨i, hi, hhas⟩ := hcomplete.taken
          rw [hids] at hi
          exact hnone i hi hhas
      have hlost : ∀ e : DbError, ¬IdentityCommits db hash ids faults →
          ((AuthError.database e ≠ .emailTaken → d.Unused req.email ∨ Complete db hash d req.email) ↔
            RepeatCondition db req hash ids faults) := by
        intro e hno
        rw [hdatabase]
        exact iff_of_false hhalf fun hcond => hno (hcond.whole hunused hfree huser)
      refine Txn.endsAt_bind (Txn.endsAt_exec (fun h5 i ws hi => ?_) (fun h5 e he => ?_)
        fun h5 => ?_)
      rotate_left
      · refine hlost _ fun hcommits => ?_
        refine AuthRepository.createIdentity_error he (haddress ▸ hemail) ?_ ?_ ?_
        · rw [hids, haddress]
          exact hnone
        · rw [husers, Table.get_put_self]
          rfl
        · rw [hids, hid]
          exact ⟨hcommits.hash, hcommits.id, hcommits.user⟩
      · exact hlost _ fun hcommits => hcommits.call h5
      · have hstored : storable hash = true := AuthRepository.createIdentity_storable hi
        obtain ⟨rfl, rfl, hnew⟩ := AuthRepository.createIdentity_ok hi
        have hcond : RepeatCondition db req hash ids faults := by
          refine ⟨fun hknown => absurd hunused hknown, fun _ _ _ => ⟨h5, hstored, ?_, ?_⟩⟩
          · rw [← hids]
            exact hnew.id
          · rw [← hids, ← hid]
            exact hnew.user
        have hwhole : ∀ {d' : AuthDb}, d'.accounts = (authEngine.applyAll d
            [.identity (AuthRepository.identityRow now ids.identityId u.id .email u.email
              (some hash))]).accounts → Complete db hash d' req.email := by
          intro d' hd'
          refine (complete_congr hd').2 ⟨u, hmem, haddress, _, Table.mem_put_rows.2 (.inl rfl), rfl,
            ?_, .inl rfl⟩
          rw [← haddress]
          exact UserIdentity.has_iff.2 ⟨rfl, rfl⟩
        refine Txn.endsAt_mono (session_endsAt ts) (fun _ _ _ _ _ => hcond) ?_
        exact fun e _ d' _ hd' => iff_of_true (fun _ => .inr (hwhole hd')) hcond

/-- A failed registration can be repeated exactly when whoever has the address has its identity, and
after the user the identity is committed, too. A call that fails has done nothing: there is no
`COMMIT` here that is done and whose answer is lost. -/
theorem register_repeatable_iff :
    Repeatable db (ts.crypto.hashPassword req.password salt) req.email
        (Txn.run authEngine (AuthService.register ts req salt otp ids) db now faults) ↔
      RepeatCondition db req (ts.crypto.hashPassword req.password salt) ids faults := by
  obtain ⟨m, txn, hend⟩ := Txn.run_endsAt (register_endsAt ts db req salt otp ids now faults)
  unfold Repeatable
  revert hend
  generalize Txn.run authEngine (AuthService.register ts req salt otp ids) db now faults = out
  obtain ⟨e | a, d⟩ := out
  · intro hiff
    refine Iff.trans ⟨fun h he => h e rfl he, ?_⟩ hiff
    rintro h _ ⟨⟩ he
    exact h he
  · intro hcond
    exact iff_of_true (fun _ h => nomatch h) hcond

end Registration

/-! ## A registration that is cut short -/

section Examples

def annRegisters : RegisterRequest where
  fullName := "Ann"
  email := "ann@meno"
  password := "Secret12"

/-- The identity is not stored. -/
def identityLost : List Bool := [false, false, false, false, false, true]

/-- Ann's user is committed, and stays without an identity. -/
theorem registration_not_repeatable : ¬∀ (db : AuthDb) (req : RegisterRequest) (salt otp : String)
    (ids : FreshIds) (now : OffsetDateTime) (faults : List Bool),
    Repeatable db (Crypto.transparent.hashPassword req.password salt) req.email
      (Txn.run authEngine (AuthService.register .transparent req salt otp ids) db now faults) := by
  intro h
  rcases h .empty annRegisters "" "123456" (nthIds 1) 0 identityLost _ rfl nofun with hunused | hcomplete
  · exact hunused _ List.mem_cons_self rfl
  · obtain ⟨i, hi, -⟩ := hcomplete.taken
    cases hi

end Examples

end Auth

end Meno
