import Meno.Auth.Evidence
import Meno.Auth.LoginThrottle
import Meno.Auth.Registration

/-!
# Meno.Auth.Vouching

When is an address verified, who has set a password, and who is given a session? An account begins
unverified, and nothing but its `verified` ever changes; of an identity nothing but its password
does. An address is verified after a code was read from Redis that a `register` or `resend_otp`
generated for that very address, or when Google says that it is verified; a password is that of the
registration, or of a reset with a code for the account's address. A refresh token is granted to its
user on evidence that stood in the history before it, and behind a chain of rotations stands evidence
of another kind, or a token from before the run. All of it holds whatever the other callers do in
between.
-/

namespace Meno

namespace Auth

open Lib

/-! ## The life of a row -/

inductive UserStep : Option AuthRow → Option AuthRow → Prop
  | registered {u : User} : u.verified = false → u.deletedAt = none →
      UserStep none (some (.user u))
  | verified {u : User} {now : OffsetDateTime} :
      UserStep (some (.user u)) (some (.user { u with verified := true, updatedAt := now }))

inductive IdentityStep : Option AuthRow → Option AuthRow → Prop
  | created {i : UserIdentity} : i.updatedAt = none → IdentityStep none (some (.identity i))
  | password {i : UserIdentity} {hash : String} {now : OffsetDateTime} :
      IdentityStep (some (.identity i))
        (some (.identity { i with passwordHash := some hash, updatedAt := some now }))

/-- The step that a row makes; those of other tables may make any. -/
def AuthKey.Step : AuthKey → Option AuthRow → Option AuthRow → Prop
  | .user _, o, o' => UserStep o o'
  | .identity _, o, o' => IdentityStep o o'
  | _, _, _ => True

/-- A write in order makes such a step. -/
def AuthDb.InOrder (db : AuthDb) (x : AuthWrite) : Prop := x.key.Step (db.look x.key) x.value

theorem inOrder_row (db db' : AuthDb) (x : AuthWrite) (hsame : db.look x.key = db'.look x.key)
    (h : db.InOrder x) : db'.InOrder x := by
  unfold AuthDb.InOrder at h ⊢
  rw [← hsame]
  exact h

section Statements

variable {db : AuthDb} {now : OffsetDateTime} {ws : List AuthWrite}

theorem identity_inOrder {i : UserIdentity} (h : AuthRepository.NewIdentity db i)
    (hnew : i.updatedAt = none) : authEngine.Chain AuthDb.InOrder db [.identity i] := by
  refine ⟨?_, trivial⟩
  show IdentityStep ((db.identities.get i.id).map .identity) _
  rw [h.id]
  exact .created hnew

/-- Each identity of the user is written once. -/
theorem updatePassword_inOrder {userId : Uuid} {hash : String}
    (h : AuthRepository.updatePassword db now userId hash = .ok ((), ws)) :
    authEngine.Chain AuthDb.InOrder db ws := by
  obtain ⟨_, _, he⟩ := bind_eq_ok.1 h
  cases he
  refine chain_of_nodup authKeyed inOrder_row _ db (fun x hx => ?_) ?_
  · obtain ⟨i, hi, rfl⟩ := List.mem_map.1 hx
    show IdentityStep ((db.identities.get i.id).map .identity) _
    rw [Table.mem_rows_iff.1 (List.mem_filter.1 hi).1]
    exact .password
  · have hkeys : ((db.identities.rows.filter fun i => i.userId == userId).map
        UserIdentity.id).Nodup := db.identities.nodup.sublist (List.filter_sublist.map _)
    have hnodup := hkeys.map (f := AuthKey.identity) fun _ _ h => AuthKey.identity.inj h
    rw [List.map_map] at hnodup ⊢
    exact hnodup

theorem exec_inOrder {β : Type} {s : AuthStmt β} {b : β}
    (h : authEngine.exec s now db = .ok (b, ws)) : authEngine.Chain AuthDb.InOrder db ws := by
  cases s with
  | insertUser id name email =>
    obtain ⟨hid, -, rfl, hnew, -⟩ := AuthRepository.insertUser_ok h
    obtain ⟨hverified, hdeleted⟩ := insertUser_unverified h
    refine ⟨?_, trivial⟩
    show UserStep ((db.users.get _).map .user) _
    rw [hid, hnew]
    exact .registered hverified hdeleted
  | setVerified email =>
    rcases AuthRepository.setVerified_ok h with ⟨-, rfl⟩ | ⟨u, hu, -, rfl⟩
    · trivial
    · refine ⟨?_, trivial⟩
      show UserStep ((db.users.get u.id).map .user) _
      rw [Table.mem_rows_iff.1 hu]
      exact .verified
  | createIdentity id u p pid hash =>
    obtain ⟨rfl, rfl, hnew⟩ := AuthRepository.createIdentity_ok h
    exact identity_inOrder hnew rfl
  | linkProvider id u p pid =>
    rcases AuthRepository.linkProvider_ok h with ⟨-, rfl⟩ | ⟨rfl, hnew⟩
    · trivial
    · exact identity_inOrder hnew rfl
  | updatePassword u hash => exact updatePassword_inOrder h
  | _ =>
    -- Other statements write other tables, whose rows may make any step.
    refine World.chain_of_forall (fun x hx d => ?_) db
    have htable := exec_table h x hx
    cases x with
    | user => cases htable
    | identity => cases htable
    | _ => trivial

end Statements

theorem accounts_disciplined :
    World.Disciplined (K := authKeyed) (T := OffsetDateTime) (fun _ => True) AuthDb.InOrder where
  exec _ h := exec_inOrder h
  row := inOrder_row

theorem accounts_living : Living authKeyed AuthDb.InOrder AuthKey.Step := fun _ _ h => h

/-- The same account: it is as it was, or has been verified. -/
def User.Continues (u u' : User) : Prop :=
  u' = u ∨ ∃ now, u' = { u with verified := true, updatedAt := now }

theorem continues_user {u : User} {o o' : Option AuthRow}
    (h : ∃ u', o = some (.user u') ∧ u.Continues u') (hs : UserStep o o') :
    ∃ u', o' = some (.user u') ∧ u.Continues u' := by
  obtain ⟨u', rfl, hcontinues⟩ := h
  cases hs with
  | @verified _ now =>
    refine ⟨_, rfl, .inr ⟨now, ?_⟩⟩
    rcases hcontinues with rfl | ⟨_, rfl⟩ <;> rfl

/-- The same identity: it is as it was, or has been given a password. -/
def UserIdentity.Continues (i i' : UserIdentity) : Prop :=
  i' = i ∨ ∃ hash now, i' = { i with passwordHash := some hash, updatedAt := some now }

theorem continues_identity {i : UserIdentity} {o o' : Option AuthRow}
    (h : ∃ i', o = some (.identity i') ∧ i.Continues i') (hs : IdentityStep o o') :
    ∃ i', o' = some (.identity i') ∧ i.Continues i' := by
  obtain ⟨i', rfl, hcontinues⟩ := h
  cases hs with
  | @password _ hash now =>
    refine ⟨_, rfl, .inr ⟨hash, now, ?_⟩⟩
    rcases hcontinues with rfl | ⟨_, _, rfl⟩ <;> rfl

/-! ## Runs -/

section Runs

variable {τ ι : Type} {ts : TokenService τ} {ops : ι → AuthOp τ} {db : AuthDb} {t : OffsetDateTime}
  [DecidableEq ι] {w : AuthWorld τ ι}

/-- A row's committed values, one after the other, and that the last of them is stored. -/
structure Lives (db : AuthDb) (w : AuthWorld τ ι) (k : AuthKey) : Prop where
  life : List.IsChain k.Step (db.look k :: history authKeyed (w.log.map Prod.snd) k)
  latest : w.committed.look k =
    (history authKeyed (w.log.map Prod.snd) k).getLast?.getD (db.look k)

theorem lives_of_runs (h : Runs ts ops db t w) (k : AuthKey) : Lives db w k := by
  have hinv := World.inv_of_reaches accounts_disciplined
    (fun i => World.uses_anything (ExceptT.run ((ops i).prog ts))) h
  refine ⟨isChain_history accounts_living _ db hinv.lawful, ?_⟩
  have hlast := look_applyAll_eq (K := authKeyed) (k := k) (w.log.map Prod.snd) db
  rw [hinv.replay] at hlast
  exact hlast

/-! ## Verified addresses -/

/-- What the runs leave of the accounts. -/
structure AccountsVouched (ops : ι → AuthOp τ) (db : AuthDb) (w : AuthWorld τ ι) : Prop where
  lives : ∀ id, Lives db w (.user id)
  kept : ∀ id u, db.users.get id = some u →
    ∃ u', w.committed.users.get id = some u' ∧ u.Continues u'
  vouched : ∀ u ∈ w.committed.users.rows, u.verified = true →
    (∃ u₀ ∈ db.users.rows, u₀.id = u.id ∧ u₀.verified = true) ∨
      ∃ i, (ops i).Vouches (Sent ops db .verifyEmail) u.email

/-- In every interleaving of the operations of any callers, with failures anywhere, an account
begins unverified and only becomes verified, and whatever address is verified is vouched for. -/
theorem verified_vouched (ts : TokenService τ) (ops : ι → AuthOp τ) (db : AuthDb)
    (t : OffsetDateTime) (w : AuthWorld τ ι) (h : Runs ts ops db t w) :
    AccountsVouched ops db w := by
  refine ⟨fun id => lives_of_runs h _, fun id u hu => ?_, fun u hu hverified => ?_⟩
  · have hlives := lives_of_runs h (.user id)
    have hstart : db.look (.user id) = some (.user u) := congrArg (Option.map AuthRow.user) hu
    have hlast : ∃ u', w.committed.look (.user id) = some (.user u') ∧ u.Continues u' := by
      rw [hlives.latest]
      exact getLast_of_isChain (I := fun o => ∃ u', o = some (.user u') ∧ u.Continues u')
        (fun _ _ => continues_user) hlives.life ⟨u, hstart, .inl rfl⟩
    obtain ⟨u', hlook, hcontinues⟩ := hlast
    obtain ⟨v, hv, hcast⟩ := Option.map_eq_some_iff.1 hlook
    cases hcast
    exact ⟨u', hv, hcontinues⟩
  · have hlook : w.committed.look (.user u.id) = some (.user u) :=
      congrArg (Option.map AuthRow.user) (Table.mem_rows_iff.1 hu)
    rcases stood_committed h hlook with hstart | ⟨i, x, hmem, hkey, hvalue⟩
    · obtain ⟨v, hv, hcast⟩ := Option.map_eq_some_iff.1 hstart
      cases hcast
      exact .inl ⟨u, Table.mem_rows_iff.2 hv, rfl, hverified⟩
    · have hevident := evident_of_mem (runsRelied h) hmem
      cases x with
      | user v =>
        cases hvalue
        exact .inr ⟨i, hevident hverified⟩
      | _ => cases hkey

/-- Ann registers, and gives the code that she is sent. -/
def annVerifies : Fin 2 → AuthOp (String × Payload)
  | 0 => .register annRegisters "" "123456" (nthIds 1)
  | 1 => .verifyEmail "ann@meno" "123456" (nthIds 5)

/-- Her address is verified before the registration has issued its tokens. -/
theorem verified_vouched_ann : ∃ w : AuthWorld (String × Payload) (Fin 2),
    Runs .transparent annVerifies .empty 0 w ∧
      (∃ u ∈ w.committed.users.rows, u.email = "ann@meno" ∧ u.verified = true) ∧
      AccountsVouched annVerifies .empty w := by
  obtain ⟨w, hrun, hann⟩ : ∃ w : AuthWorld (String × Payload) (Fin 2),
      Runs .transparent annVerifies .empty 0 w ∧
        ∃ u ∈ w.committed.users.rows, u.email = "ann@meno" ∧ u.verified = true :=
    World.reaches_of_runSchedule (List.replicate 7 (1, 0) ++ List.replicate 7 (2, 1))
      (by decide +kernel)
  exact ⟨w, hrun, hann, verified_vouched .transparent annVerifies .empty 0 w hrun⟩

/-! ## Passwords -/

/-- What the runs leave of the identities. -/
structure PasswordsSet (ts : TokenService τ) (ops : ι → AuthOp τ) (db : AuthDb)
    (w : AuthWorld τ ι) : Prop where
  lives : ∀ id, Lives db w (.identity id)
  kept : ∀ id i, db.identities.get id = some i →
    ∃ i', w.committed.identities.get id = some i' ∧ i.Continues i'
  set : ∀ i ∈ w.committed.identities.rows, ∀ hash, i.passwordHash = some hash →
    (∃ i₀ ∈ db.identities.rows, i₀.id = i.id ∧ i₀.passwordHash = some hash) ∨
      ∃ j, (ops j).SetsPassword ts (Fact.Sound ops db w.log) i.userId hash

/-- An identity stays its user's, and whatever password it has was set at the registration of the
account or by a reset with a code that was sent to the account's address. -/
theorem passwords_set (ts : TokenService τ) (ops : ι → AuthOp τ) (db : AuthDb)
    (t : OffsetDateTime) (w : AuthWorld τ ι) (h : Runs ts ops db t w) :
    PasswordsSet ts ops db w := by
  refine ⟨fun id => lives_of_runs h _, fun id i hi => ?_, fun i hi hash hhash => ?_⟩
  · have hlives := lives_of_runs h (.identity id)
    have hstart : db.look (.identity id) = some (.identity i) :=
      congrArg (Option.map AuthRow.identity) hi
    have hlast : ∃ i', w.committed.look (.identity id) = some (.identity i') ∧
        i.Continues i' := by
      rw [hlives.latest]
      exact getLast_of_isChain (I := fun o => ∃ i', o = some (.identity i') ∧ i.Continues i')
        (fun _ _ => continues_identity) hlives.life ⟨i, hstart, .inl rfl⟩
    obtain ⟨i', hlook, hcontinues⟩ := hlast
    obtain ⟨j, hj, hcast⟩ := Option.map_eq_some_iff.1 hlook
    cases hcast
    exact ⟨i', hj, hcontinues⟩
  · have hlook : w.committed.look (.identity i.id) = some (.identity i) :=
      congrArg (Option.map AuthRow.identity) (Table.mem_rows_iff.1 hi)
    rcases stood_committed h hlook with hstart | ⟨j, x, hmem, hkey, hvalue⟩
    · obtain ⟨v, hv, hcast⟩ := Option.map_eq_some_iff.1 hstart
      cases hcast
      exact .inl ⟨i, Table.mem_rows_iff.2 hv, rfl, hhash⟩
    · have hevident := evident_of_mem (runsRelied h) hmem
      cases x with
      | identity v =>
        cases hvalue
        exact .inr ⟨j, hevident hash hhash⟩
      | _ => cases hkey

/-- Ann has forgotten her password, and sets another with the code that she is sent. -/
def annForgets : Fin 2 → AuthOp (String × Payload)
  | 0 => .forgotPassword "ann@meno" "123456"
  | 1 => .resetPassword { email := "ann@meno", code := "123456", newPassword := "Secret34" } ""

theorem passwords_set_ann : ∃ w : AuthWorld (String × Payload) (Fin 2),
    Runs .transparent annForgets annWithPassword 0 w ∧
      (∃ i ∈ w.committed.identities.rows, i.passwordHash = some "Secret34") ∧
      PasswordsSet .transparent annForgets annWithPassword w := by
  obtain ⟨w, hrun, hann⟩ : ∃ w : AuthWorld (String × Payload) (Fin 2),
      Runs .transparent annForgets annWithPassword 0 w ∧
        ∃ i ∈ w.committed.identities.rows, i.passwordHash = some "Secret34" :=
    World.reaches_of_runSchedule (List.replicate 2 (1, 0) ++ List.replicate 7 (2, 1))
      (by decide +kernel)
  exact ⟨w, hrun, hann, passwords_set .transparent annForgets annWithPassword 0 w hrun⟩

end Runs

/-! ## Sessions -/

section Sessions

variable {τ ι : Type} {ts : TokenService τ} {ops : ι → AuthOp τ} {db : AuthDb}

/-- The operation is not a rotation. -/
def AuthOp.enters : AuthOp τ → Bool
  | .refresh _ _ => false
  | _ => true

/-- The operation is a rotation of the token that is stored in the row. -/
def AuthOp.Rotates (ts : TokenService τ) (op : AuthOp τ) (row : RefreshToken) : Prop :=
  ∃ token ids now claims, op = .refresh token ids ∧ ts.checkRefresh now token = .ok claims ∧
    claims.jti = row.id ∧ claims.sub = row.userId ∧ row.tokenHash = ts.crypto.hashToken token

/-- The chain of rotations behind a token, each of a token of the same user that was stored before.
It begins with a token from before the run, or with one that an operation which is no rotation has
stored on its evidence. -/
inductive Rooted (ts : TokenService τ) (ops : ι → AuthOp τ) (db : AuthDb) :
    List (ι × AuthWrite) → RefreshToken → Prop
  | kept {log : List (ι × AuthWrite)} {row : RefreshToken} :
      row ∈ db.refreshTokens.rows → Rooted ts ops db log row
  | entered {before after : List (ι × AuthWrite)} {i : ι} {row : RefreshToken} :
      (ops i).enters = true → (ops i).Grants ts (Fact.Sound ops db before) row.userId →
      Rooted ts ops db (before ++ (i, .refreshToken row) :: after) row
  | rotated {before after : List (ι × AuthWrite)} {i : ι} {row row' : RefreshToken} :
      Rooted ts ops db before row → (ops i).Rotates ts row → row.userId = row'.userId →
      Rooted ts ops db (before ++ (i, .refreshToken row') :: after) row'

/-- A rotation's token was stored before, for the same user. -/
theorem grants_cases {op : AuthOp τ} {log : List (ι × AuthWrite)} {userId : Uuid}
    (h : op.Grants ts (Fact.Sound ops db log) userId) :
    op.enters = true ∨ ∃ row, op.Rotates ts row ∧ row.userId = userId ∧
      (row ∈ db.refreshTokens.rows ∨ ∃ i, (i, .refreshToken row) ∈ log) := by
  cases h with
  | @refresh token ids now claims row u hclaims hrow hhash hu =>
    obtain ⟨hsub, hstood⟩ := hrow
    have hstored : claims.jti = row.id ∧
        (row ∈ db.refreshTokens.rows ∨ ∃ i, (i, .refreshToken row) ∈ log) := by
      rcases hstood with hstart | ⟨x, hx, hkey, hvalue⟩
      · obtain ⟨row', hrow', hcast⟩ := Option.map_eq_some_iff.1 hstart
        cases hcast
        have hid := Table.key_of_get hrow'
        exact ⟨hid.symm, .inl (Table.mem_rows_iff.2 (hid ▸ hrow'))⟩
      · obtain ⟨⟨i, x⟩, hmem, rfl⟩ := List.mem_map.1 hx
        cases x with
        | refreshToken row' =>
          cases hvalue
          exact ⟨(AuthKey.refreshToken.inj hkey).symm, .inr ⟨i, hmem⟩⟩
        | dropRefreshToken => cases hvalue
        | _ => cases hkey
    exact .inr ⟨row, ⟨token, ids, now, claims, rfl, hclaims, hstored.1, hsub.symm, hhash⟩,
      hsub.trans hu.1.symm, hstored.2⟩
  | @google op info id hop haccount =>
    cases op with
    | refresh => cases hop
    | _ => exact .inl rfl
  | _ => exact .inl rfl

/-- Where every token is granted on what came before, its chain has a beginning: by induction on the
number of writes before the token. -/
theorem rooted_of_granted {log : List (ι × AuthWrite)}
    (hgranted : ∀ before i row after, log = before ++ (i, .refreshToken row) :: after →
      (ops i).Grants ts (Fact.Sound ops db before) row.userId) (n : Nat) :
    ∀ before i row after, before.length = n → log = before ++ (i, .refreshToken row) :: after →
      ∀ after', Rooted ts ops db (before ++ (i, .refreshToken row) :: after') row := by
  induction n using Nat.strong_induction_on with
  | _ n ih =>
    intro before i row after hlength hlog after'
    have hgrants := hgranted before i row after hlog
    rcases grants_cases hgrants with henters | ⟨row', hrotates, huser, hkept | ⟨j, hmem⟩⟩
    · exact .entered henters hgrants
    · exact .rotated (.kept hkept) hrotates huser
    · obtain ⟨before', rest, rfl⟩ := List.append_of_mem hmem
      have hlog' : log = before' ++ (j, .refreshToken row') ::
          (rest ++ (i, .refreshToken row) :: after) := by
        rw [hlog, List.append_assoc]
        rfl
      have hshorter : before'.length < n := by
        rw [← hlength, List.length_append, List.length_cons]
        omega
      exact .rotated (ih _ hshorter before' j row' _ rfl hlog' rest) hrotates huser

variable [DecidableEq ι] {w : AuthWorld τ ι}

/-- What the runs leave of the sessions. -/
structure SessionsGranted (ts : TokenService τ) (ops : ι → AuthOp τ) (db : AuthDb)
    (w : AuthWorld τ ι) : Prop where
  granted : ∀ before i row after, w.log = before ++ (i, .refreshToken row) :: after →
    (ops i).Grants ts (Fact.Sound ops db before) row.userId
  rooted : ∀ row ∈ w.committed.refreshTokens.rows, Rooted ts ops db w.log row

theorem sessions_granted (ts : TokenService τ) (ops : ι → AuthOp τ) (db : AuthDb)
    (t : OffsetDateTime) (w : AuthWorld τ ι) (h : Runs ts ops db t w) :
    SessionsGranted ts ops db w := by
  have hgranted : ∀ before i row after, w.log = before ++ (i, .refreshToken row) :: after →
      (ops i).Grants ts (Fact.Sound ops db before) row.userId :=
    fun before i row after hlog => (sourced (runsRelied h) i).log before _ after hlog
  refine ⟨hgranted, fun row hrow => ?_⟩
  have hlook : w.committed.look (.refreshToken row.id) = some (.refreshToken row) :=
    congrArg (Option.map AuthRow.refreshToken) (Table.mem_rows_iff.1 hrow)
  rcases stood_committed h hlook with hstart | ⟨i, x, hmem, hkey, hvalue⟩
  · obtain ⟨row', hrow', hcast⟩ := Option.map_eq_some_iff.1 hstart
    cases hcast
    exact .kept (Table.mem_rows_iff.2 hrow')
  · cases x with
    | refreshToken row' =>
      cases hvalue
      obtain ⟨before, after, hlog⟩ := List.append_of_mem hmem
      rw [hlog]
      exact rooted_of_granted hgranted _ before i row after rfl hlog after
    | dropRefreshToken => cases hvalue
    | _ => cases hkey

/-- Ann logs in with her password, and rotates the token that she is given. -/
def annStays : Fin 2 → AuthOp (String × Payload)
  | 0 => .login "ann@meno" "Secret12" "" (nthIds 1)
  | 1 => .refresh ("refresh", .refresh { sub := ⟨0⟩, jti := ⟨7⟩, exp := 604800, iat := 0 })
    (nthIds 2)

theorem sessions_granted_ann : ∃ w : AuthWorld (String × Payload) (Fin 2),
    Runs .transparent annStays annWithPassword 0 w ∧
      (∃ row ∈ w.committed.refreshTokens.rows, row.id = ⟨11⟩ ∧ row.userId = ⟨0⟩) ∧
      SessionsGranted .transparent annStays annWithPassword w := by
  obtain ⟨w, hrun, hrotated⟩ : ∃ w : AuthWorld (String × Payload) (Fin 2),
      Runs .transparent annStays annWithPassword 0 w ∧
        ∃ row ∈ w.committed.refreshTokens.rows, row.id = ⟨11⟩ ∧ row.userId = ⟨0⟩ :=
    World.reaches_of_runSchedule (List.replicate 9 (1, 0) ++ List.replicate 12 (2, 1))
      (by decide +kernel)
  exact ⟨w, hrun, hrotated, sessions_granted .transparent annStays annWithPassword 0 w hrun⟩

end Sessions

end Auth

end Meno
