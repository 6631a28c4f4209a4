import Meno.Auth.Google

/-!
# Meno.Auth.Stability

Does a Google account always come out at the same user? `upsert_google_user` looks an account up by
its `sub`, links it by its address, and calls the identity of a new user by the address, too; where
the user has an identity already, nothing is linked. So an account that was never linked is known
by its address only, and another account with that address is taken for it.

A run is a sequence of logins from any store. `Recognised` is the condition on one login, given what
Google said in the earlier ones; `Kept` is what holds of every login ever after.
-/

namespace Meno

namespace Auth

open Lib

/-! ## Runs of logins -/

/-- A login that ended well: the account, the user, and the user's Google identity after it. -/
structure Login where
  sub : String
  user : Uuid
  row : Option Uuid
deriving DecidableEq

/-- The user's Google identity. -/
def Accounts.googleRow (a : Accounts) (u : Uuid) : Option UserIdentity :=
  a.identities.rows.find? fun i => decide (i.providerType = .google ∧ i.userId = u)

/-- Where a run has come to: the store, what Google said so far, and the logins. -/
structure GooglePast where
  db : AuthDb
  asserted : List GoogleUserInfo
  logins : List Login

namespace GooglePast

variable {τ : Type} (ts : TokenService τ)

/-- One more call. -/
def after (p : GooglePast) (call : GoogleCall) (ids : FreshIds) (now : OffsetDateTime)
    (faults : List Bool) : GooglePast :=
  let out := call.run ts ids now faults p.db
  { db := out.2
    asserted := call.info.toList ++ p.asserted
    logins := match out.1, call.info with
      | .ok resp, some info =>
        { sub := info.sub
          user := resp.user.id
          row := (out.2.accounts.googleRow resp.user.id).map UserIdentity.id } :: p.logins
      | _, _ => p.logins }

/-- The same account is the same user, and no two accounts share an identity. -/
structure Stable (p : GooglePast) : Prop where
  user : ∀ l ∈ p.logins, ∀ m ∈ p.logins, l.sub = m.sub → l.user = m.user
  identity : ∀ l ∈ p.logins, ∀ m ∈ p.logins, ∀ row, l.row = some row → m.row = some row →
    l.sub = m.sub

end GooglePast

/-- The service can tell the account: it is linked; or so far it came with this address only and the
address with this account only, and the user of that address has no other account's identity. -/
def Told (a : Accounts) (asserted : List GoogleUserInfo) (info : GoogleUserInfo) : Prop :=
  (∃ i, a.Knows info.sub i) ∨
    (∀ b ∈ asserted, b.sub = info.sub ↔ b.email = info.email) ∧
      ∀ u ∈ a.users.rows, u.email = info.email →
        ∀ i, a.HasGoogle u.id i → i.providerUserId = info.email

/-- The condition on a login: no account is called by an address, and this one can be told. -/
structure Recognised (p : GooglePast) (info : GoogleUserInfo) : Prop where
  notUser : ∀ u ∈ p.db.users.rows, u.email ≠ info.sub
  notAddress : ∀ b ∈ info :: p.asserted, b.sub ≠ info.email
  told : Told p.db.accounts p.asserted info

/-- The runs of logins from the store `db`, each of which meets `cond`. -/
inductive GoogleRun {τ : Type} (ts : TokenService τ) (cond : GooglePast → GoogleUserInfo → Prop)
    (db : AuthDb) : GooglePast → Prop where
  | start : GoogleRun ts cond db { db, asserted := [], logins := [] }
  | call {p : GooglePast} (call : GoogleCall) (ids : FreshIds) (now : OffsetDateTime)
      (faults : List Bool) : GoogleRun ts cond db p → (∀ info ∈ call.info, cond p info) →
      GoogleRun ts cond db (p.after ts call ids now faults)

/-! ## How accounts grow -/

/-- What a login adds to the accounts: at most a user of its address, and at most an identity, under
the `sub` for the user with the address or under the address for the new user. -/
structure Grown (a : Accounts) (info : GoogleUserInfo) (a' : Accounts) (newUser : Option User)
    (newId : Option UserIdentity) : Prop where
  users : a'.users.rows = newUser.toList ++ a.users.rows
  identities : a'.identities.rows = newId.toList ++ a.identities.rows
  user : ∀ u ∈ newUser, a.NewUser info.email u
  identity : ∀ i ∈ newId, (∃ u, a.ByAddress info u ∧ a.NewGoogle u.id info.sub i) ∨
    (∀ j, ¬a.Knows info.sub j) ∧ ∃ u ∈ newUser, a.NewGoogle u.id info.email i

theorem Matched.grown {a a' : Accounts} {info : GoogleUserInfo} {found : Option User}
    (h : Matched a info a' found) : ∃ newUser newId, Grown a info a' newUser newId := by
  have hsame : Grown a info a none none := ⟨rfl, rfl, by simp, by simp⟩
  cases h with
  | failed => exact ⟨none, none, hsame⟩
  | found hi hu => exact ⟨none, none, hsame⟩
  | known hu hi => exact ⟨none, none, hsame⟩
  | @linked i u hu hi =>
    refine ⟨none, some i, rfl, Table.rows_put_of_none hi.id, by simp, ?_⟩
    rintro _ ⟨⟩
    exact .inl ⟨u, hu, hi⟩
  | @bare u hu =>
    refine ⟨some u, none, Table.rows_put_of_none hu.id, rfl, ?_, by simp⟩
    rintro _ ⟨⟩
    exact hu
  | @created i u _ hno hu hi _ =>
    refine ⟨some u, some i, Table.rows_put_of_none hu.id, Table.rows_put_of_none hi.id, ?_, ?_⟩
    · rintro _ ⟨⟩
      exact hu
    · rintro _ ⟨⟩
      exact .inr ⟨hno, u, rfl, hi⟩

namespace Grown

variable {a a' : Accounts} {info : GoogleUserInfo} {newUser : Option User}
  {newId : Option UserIdentity} (h : Grown a info a' newUser newId)

include h

theorem mem_users {u : User} : u ∈ a'.users.rows ↔ u ∈ newUser ∨ u ∈ a.users.rows := by
  rw [h.users, List.mem_append, Option.mem_toList]
  rfl

theorem knows {sub : String} {i : UserIdentity} :
    a'.Knows sub i ↔ i ∈ newId ∧ i.providerType = .google ∧ i.providerUserId = sub ∨
      a.Knows sub i := by
  rw [Accounts.Knows, h.identities, List.mem_append, Option.mem_toList, or_and_right,
    Accounts.Knows]
  rfl

theorem hasGoogle {u : Uuid} {i : UserIdentity} :
    a'.HasGoogle u i ↔ i ∈ newId ∧ i.providerType = .google ∧ i.userId = u ∨ a.HasGoogle u i := by
  rw [Accounts.HasGoogle, h.identities, List.mem_append, Option.mem_toList, or_and_right,
    Accounts.HasGoogle]
  rfl

theorem first {i : UserIdentity} (hi : i ∈ newId) :
    (∀ j, ¬a.HasGoogle i.userId j) ∧ ∀ j, ¬a.Knows i.providerUserId j := by
  rcases h.identity i hi with ⟨u, _, hnew⟩ | ⟨_, u, _, hnew⟩ <;>
  · rw [hnew.user, hnew.name]
    exact ⟨hnew.first, hnew.unknown⟩

/-- The constraints hold of what a login has added. -/
theorem sound (hs : a.Sound) : a'.Sound where
  emails := by
    intro u hu v hv huv
    rcases h.mem_users.1 hu with hu | hu <;> rcases h.mem_users.1 hv with hv | hv
    · exact Option.mem_unique hu hv
    · have hnew := h.user u hu
      exact absurd (huv.symm.trans hnew.email) (hnew.first v hv)
    · have hnew := h.user v hv
      exact absurd (huv.trans hnew.email) (hnew.first u hu)
    · exact hs.emails u hu v hv huv
  accounts := by
    intro sub i j hi hj
    rcases h.knows.1 hi with ⟨hin, _, rfl⟩ | hia <;> rcases h.knows.1 hj with ⟨hjn, _, hk⟩ | hja
    · exact Option.mem_unique hin hjn
    · exact absurd hja ((h.first hin).2 j)
    · exact absurd (hk ▸ hia) ((h.first hjn).2 i)
    · exact hs.accounts _ i j hia hja
  users := by
    intro u i j hi hj
    rcases h.hasGoogle.1 hi with ⟨hin, _, rfl⟩ | hia <;>
      rcases h.hasGoogle.1 hj with ⟨hjn, _, hk⟩ | hja
    · exact Option.mem_unique hin hjn
    · exact absurd hja ((h.first hin).1 j)
    · exact absurd (hk ▸ hia) ((h.first hjn).1 i)
    · exact hs.users _ i j hia hja

end Grown

/-! ## What stays true of a login -/

/-- The login's account was never linked: its user is known by his address, and whoever came with
that address since is the same account or is linked to another user. -/
structure ByFirstAddress (a : Accounts) (asserted : List GoogleUserInfo) (l : Login) (u : User)
    (i : UserIdentity) : Prop where
  name : i.providerUserId = u.email
  seen : ∃ b ∈ asserted, b.sub = l.sub ∧ b.email = u.email
  unlinked : ∀ j, ¬a.Knows l.sub j
  addresses : ∀ b ∈ asserted, b.sub = l.sub → b.email = u.email
  accounts : ∀ b ∈ asserted, b.email = u.email → b.sub = l.sub ∨ ∃ j, a.Knows b.sub j

/-- The login's user is there with his identity, which is called by the account's `sub` or by the
address. -/
structure Holds (a : Accounts) (asserted : List GoogleUserInfo) (l : Login) (u : User)
    (i : UserIdentity) : Prop where
  sub : ∃ b ∈ asserted, b.sub = l.sub
  mem : u ∈ a.users.rows
  user : u.id = l.user
  identity : a.HasGoogle l.user i
  row : l.row = some i.id
  named : i.providerUserId = l.sub ∨ ByFirstAddress a asserted l u i

section Kept

variable {a a' : Accounts} {asserted : List GoogleUserInfo} {info : GoogleUserInfo}
  {newUser : Option User} {newId : Option UserIdentity} {l : Login} {u : User} {i : UserIdentity}

/-- An account that is known by its address is never linked later: it comes with that address again,
and finds its user. -/
theorem ByFirstAddress.kept (h : ByFirstAddress a asserted l u i) (hu : u ∈ a.users.rows)
    (hi : a.HasGoogle u.id i) (hs : a.Sound) (hg : Grown a info a' newUser newId)
    (htold : Told a asserted info) (haddress : ∀ b ∈ info :: asserted, b.sub ≠ info.email) :
    ByFirstAddress a' (info :: asserted) l u i := by
  obtain ⟨b, hb, hbsub, hbemail⟩ := h.seen
  have hsame : info.sub = l.sub → info.email = u.email := by
    intro hsub
    rcases htold with ⟨j, hj⟩ | ⟨hsteady, _⟩
    · exact absurd (hsub ▸ hj) (h.unlinked j)
    · rw [← (hsteady b hb).1 (hbsub.trans hsub.symm), hbemail]
  refine ⟨h.name, ⟨b, List.mem_cons_of_mem _ hb, hbsub, hbemail⟩, ?_, ?_, ?_⟩
  · intro j hj
    rcases hg.knows.1 hj with ⟨hj, _, hname⟩ | hj
    · rcases hg.identity j hj with ⟨v, hv, hnew⟩ | ⟨_, v, _, hnew⟩
      · -- linked by the address of `u`, who has an identity
        have hemail := hsame (hnew.name.symm.trans hname)
        have hvu := hs.emails v hv.mem u hu (hv.email.trans hemail)
        exact hnew.first i (hvu ▸ hi)
      · refine haddress b (List.mem_cons_of_mem _ hb) ?_
        rw [hbsub, ← hname, hnew.name]
    · exact h.unlinked j hj
  · intro c hc hsub
    rcases List.mem_cons.1 hc with rfl | hc
    · exact hsame hsub
    · exact h.addresses c hc hsub
  · intro c hc hemail
    have hold : ∀ j, a.Knows c.sub j → ∃ j, a'.Knows c.sub j :=
      fun j hj => ⟨j, hg.knows.2 (.inr hj)⟩
    rcases List.mem_cons.1 hc with rfl | hc
    · rcases htold with ⟨j, hj⟩ | ⟨hsteady, _⟩
      · exact .inr (hold j hj)
      · exact .inl (((hsteady b hb).2 (hbemail.trans hemail.symm)).symm.trans hbsub)
    · rcases h.accounts c hc hemail with hsub | ⟨j, hj⟩
      · exact .inl hsub
      · exact .inr (hold j hj)

theorem Holds.kept (h : Holds a asserted l u i) (hs : a.Sound) (hg : Grown a info a' newUser newId)
    (htold : Told a asserted info) (haddress : ∀ b ∈ info :: asserted, b.sub ≠ info.email) :
    Holds a' (info :: asserted) l u i := by
  obtain ⟨b, hb, hsub⟩ := h.sub
  refine ⟨⟨b, List.mem_cons_of_mem _ hb, hsub⟩, hg.mem_users.2 (.inr h.mem), h.user,
    hg.hasGoogle.2 (.inr h.identity), h.row, ?_⟩
  rcases h.named with hname | hfirst
  · exact .inl hname
  · exact .inr (hfirst.kept h.mem (h.user ▸ h.identity) hs hg htold haddress)

theorem Accounts.Sound.googleRow (hs : a.Sound) {v : Uuid} (h : a.HasGoogle v i) :
    a.googleRow v = some i := by
  unfold Accounts.googleRow
  cases hj : a.identities.rows.find? fun i => decide (i.providerType = .google ∧ i.userId = v) with
  | none => exact absurd (decide_eq_true h.2) (List.find?_eq_none.1 hj i h.1)
  | some j =>
    have hjv : a.HasGoogle v j :=
      ⟨List.mem_of_find?_eq_some hj, by simpa using List.find?_some hj⟩
    rw [hs.users v j i hjv h]

/-- Nobody else came with the address of an account that is not linked. -/
theorem Told.steady (h : Told a asserted info) (hunknown : ∀ j, ¬a.Knows info.sub j) :
    (∀ b ∈ asserted, b.sub = info.sub ↔ b.email = info.email) ∧
      ∀ u ∈ a.users.rows, u.email = info.email →
        ∀ i, a.HasGoogle u.id i → i.providerUserId = info.email := by
  rcases h with ⟨j, hj⟩ | h
  · exact absurd hj (hunknown j)
  · exact h

/-- An account that is known by its address after its first login. -/
theorem byFirstAddress_of (hunknown : ∀ j, ¬a.Knows info.sub j)
    (hsteady : ∀ b ∈ asserted, b.sub = info.sub ↔ b.email = info.email)
    (hname : i.providerUserId = info.email) (hemail : u.email = info.email) :
    ByFirstAddress a (info :: asserted) ⟨info.sub, u.id, some i.id⟩ u i := by
  refine ⟨hname.trans hemail.symm, ⟨info, List.mem_cons_self, rfl, hemail.symm⟩, hunknown, ?_, ?_⟩
  · intro b hb hsub
    rcases List.mem_cons.1 hb with rfl | hb
    · exact hemail.symm
    · rw [(hsteady b hb).1 hsub, hemail]
  · intro b hb hbemail
    rcases List.mem_cons.1 hb with rfl | hb
    · exact .inl rfl
    · exact .inl ((hsteady b hb).2 (hbemail.trans hemail))

/-- What a login leaves of the user that it found. -/
theorem holds_of_matched (hm : Matched a info a' (some u)) (htold : Told a asserted info)
    (haddress : info.sub ≠ info.email) :
    ∃ i, Holds a' (info :: asserted) ⟨info.sub, u.id, some i.id⟩ u i := by
  have hsub : ∃ b ∈ info :: asserted, b.sub = info.sub := ⟨info, List.mem_cons_self, rfl⟩
  cases hm with
  | @found i _ hfound hu =>
    have hi := Accounts.knows_of_identityOf hfound
    refine ⟨i, hsub, ?_, rfl, ⟨hi.1, hi.2.1, (Table.key_of_get hu).symm⟩, rfl, .inl hi.2.2⟩
    exact (Table.get_eq_some_iff.1 hu).1
  | @known i _ hu hi =>
    obtain ⟨hsteady, hname⟩ := htold.steady hu.unknown
    exact ⟨i, hsub, hu.mem, rfl, hi, rfl,
      .inr (byFirstAddress_of hu.unknown hsteady (hname u hu.mem hu.email i hi) hu.email)⟩
  | @linked i _ hu hi =>
    exact ⟨i, hsub, hu.mem, rfl, ⟨Table.mem_put_rows.2 (.inl rfl), hi.provider, hi.user⟩, rfl,
      .inl hi.name⟩
  | @created i v _ hunknown hv hi hfound =>
    obtain rfl : u = v := hfound u rfl
    refine ⟨i, hsub, Table.mem_put_rows.2 (.inl rfl), rfl,
      ⟨Table.mem_put_rows.2 (.inl rfl), hi.provider, hi.user⟩, rfl, .inr ?_⟩
    refine byFirstAddress_of ?_ (htold.steady hunknown).1 hi.name hv.email
    rintro j ⟨hj, hjg, hjk⟩
    rcases Table.mem_put_rows.1 hj with rfl | ⟨hj, _⟩
    · exact haddress (hjk.symm.trans hi.name)
    · exact hunknown j ⟨hj, hjg, hjk⟩

end Kept

/-! ## Runs -/

structure GoogleInv (p : GooglePast) : Prop where
  sound : p.db.accounts.Sound
  names : ∀ b ∈ p.asserted, ∀ u ∈ p.db.users.rows, u.email ≠ b.sub
  logins : ∀ l ∈ p.logins, ∃ u i, Holds p.db.accounts p.asserted l u i

namespace GoogleInv

variable {τ : Type} {ts : TokenService τ} {p : GooglePast}

/-- One login. -/
theorem matched (h : GoogleInv p) {info : GoogleUserInfo} (hr : Recognised p info) {db' : AuthDb}
    {found : Option User} (hm : Matched p.db.accounts info db'.accounts found) :
    GoogleInv { db := db', asserted := info :: p.asserted, logins := p.logins } := by
  obtain ⟨newUser, newId, hg⟩ := hm.grown
  refine ⟨hg.sound h.sound, ?_, ?_⟩
  · intro b hb u hu
    rcases hg.mem_users.1 hu with hnew | hold
    · rw [(hg.user u hnew).email]
      exact (hr.notAddress b hb).symm
    · rcases List.mem_cons.1 hb with rfl | hb
      · exact hr.notUser u hold
      · exact h.names b hb u hold
  · intro l hl
    obtain ⟨u, i, hold⟩ := h.logins l hl
    exact ⟨u, i, hold.kept h.sound hg hr.told hr.notAddress⟩

/-- A call that asserts nothing, or fails before anything is matched. -/
theorem same (h : GoogleInv p) {db' : AuthDb} (hsame : db'.accounts = p.db.accounts) :
    GoogleInv { p with db := db' } where
  sound := hsame ▸ h.sound
  names := by
    intro b hb u hu
    have husers : db'.users = p.db.users := congrArg Accounts.users hsame
    exact h.names b hb u (husers ▸ hu)
  logins := hsame ▸ h.logins

theorem after (h : GoogleInv p) (call : GoogleCall) (ids : FreshIds) (now : OffsetDateTime)
    (faults : List Bool) (hr : ∀ info ∈ call.info, Recognised p info) :
    GoogleInv (p.after ts call ids now faults) := by
  obtain ⟨_, hend⟩ := Txn.run_ends faults (AuthService.call_matched ts :
    Txn.Ends authEngine false now (call.prog ts ids) _ _ p.db none) (fun hc => by cases hc)
  unfold GooglePast.after GoogleCall.run
  revert hend
  rcases Txn.run authEngine (call.prog ts ids) p.db now faults with ⟨e | resp, db'⟩
  · intro hend
    cases hinfo : call.info with
    | none =>
      rcases hend with hsame | ⟨info, _, hsome, _⟩
      · exact h.same hsame
      · rw [hinfo] at hsome
        cases hsome
    | some info =>
      have hm : ∃ found, Matched p.db.accounts info db'.accounts found := by
        rcases hend with hsame | ⟨info', found, hsome, hm⟩
        · exact ⟨none, hsame ▸ .failed⟩
        · rw [hinfo] at hsome
          cases hsome
          exact ⟨found, hm⟩
      obtain ⟨found, hm⟩ := hm
      exact h.matched (hr info hinfo) hm
  · rintro ⟨info, u, hinfo, hm, hid⟩
    rw [hinfo]
    have hrec := hr info hinfo
    have hnext := h.matched hrec hm
    obtain ⟨i, hold⟩ := holds_of_matched hm hrec.told (hrec.notAddress info List.mem_cons_self)
    refine ⟨hnext.sound, hnext.names, ?_⟩
    intro l hl
    rcases List.mem_cons.1 hl with rfl | hl
    · refine ⟨u, i, ?_⟩
      have hrow : db'.accounts.googleRow u.id = some i := hnext.sound.googleRow hold.identity
      simp only [hid, hrow, Option.map_some]
      exact hold
    · exact hnext.logins l hl

/-- Same account, same user, and the other way round. -/
theorem stable (h : GoogleInv p) : p.Stable where
  user := by
    intro l hl m hm hsub
    obtain ⟨u, i, hli⟩ := h.logins l hl
    obtain ⟨v, j, hmj⟩ := h.logins m hm
    rcases hli.named with hi | hi <;> rcases hmj.named with hj | hj
    · have hij := h.sound.accounts l.sub i j ⟨hli.identity.1, hli.identity.2.1, hi⟩
        ⟨hmj.identity.1, hmj.identity.2.1, hj.trans hsub.symm⟩
      rw [← hli.identity.2.2, hij, hmj.identity.2.2]
    · exact absurd ⟨hli.identity.1, hli.identity.2.1, hi.trans hsub⟩ (hj.unlinked i)
    · exact absurd ⟨hmj.identity.1, hmj.identity.2.1, hj.trans hsub.symm⟩ (hi.unlinked j)
    · obtain ⟨b, hb, hbsub, hbemail⟩ := hi.seen
      have hemail := hj.addresses b hb (hbsub.trans hsub)
      have huv := h.sound.emails u hli.mem v hmj.mem (hbemail.symm.trans hemail)
      rw [← hli.user, huv, hmj.user]
  identity := by
    intro l hl m hm row hrow hrow'
    obtain ⟨u, i, hli⟩ := h.logins l hl
    obtain ⟨v, j, hmj⟩ := h.logins m hm
    have hid : i.id = j.id :=
      Option.some.inj ((hli.row.symm.trans hrow).trans (hrow'.symm.trans hmj.row))
    have hij : i = j := List.inj_on_of_nodup_map p.db.identities.nodup hli.identity.1
      hmj.identity.1 hid
    subst hij
    obtain ⟨b, hb, hbsub⟩ := hli.sub
    obtain ⟨c, hc, hcsub⟩ := hmj.sub
    rcases hli.named with hi | hi <;> rcases hmj.named with hj | hj
    · exact hi.symm.trans hj
    · exact absurd (hbsub ▸ hj.name.symm.trans hi) (h.names b hb v hmj.mem)
    · exact absurd (hcsub ▸ hi.name.symm.trans hj) (h.names c hc u hli.mem)
    · have huv : u = v := by
        refine h.sound.emails u hli.mem v hmj.mem ?_
        rw [← hi.name, hj.name]
      subst huv
      obtain ⟨d, hd, hdsub, hdemail⟩ := hj.seen
      rcases hi.accounts d hd hdemail with hsub | ⟨k, hk⟩
      · exact hsub.symm.trans hdsub
      · exact absurd (hdsub ▸ hk) (hj.unlinked k)

end GoogleInv

theorem googleInv_of_run {τ : Type} {ts : TokenService τ} {db : AuthDb} {p : GooglePast}
    (hs : db.accounts.Sound) (h : GoogleRun ts Recognised db p) : GoogleInv p := by
  induction h with
  | start => exact ⟨hs, by simp, by simp⟩
  | call call ids now faults _ hr ih => exact ih.after call ids now faults hr

/-- In every run of logins from a store that keeps its constraints, in which every account can be
told, the same account is always the same user, and each has an identity of its own. -/
theorem google_login_stable {τ : Type} (ts : TokenService τ) (db : AuthDb) (p : GooglePast)
    (hs : db.accounts.Sound) (h : GoogleRun ts Recognised db p) :
    p.Stable ∧ ∀ l ∈ p.logins, l.row.isSome = true := by
  have hinv := googleInv_of_run hs h
  refine ⟨hinv.stable, fun l hl => ?_⟩
  obtain ⟨u, i, hold⟩ := hinv.logins l hl
  rw [hold.row]
  rfl

/-! ## Ann's address changes -/

/-- Google says that the account `sub` has the address `email`. -/
def saysGoogle (sub email : String) : GoogleCall :=
  .mobile (some { info := { sub, email, name := "Ann", emailVerified := true }, aud := "meno" })

theorem registered_sound (email : String) : (registered email).accounts.Sound where
  emails := by
    intro u hu v hv _
    rw [List.mem_singleton.1 hu, List.mem_singleton.1 hv]
  accounts := by
    rintro _ i _ ⟨hi, _⟩
    cases hi
  users := by
    rintro _ i _ ⟨hi, _⟩
    cases hi

/-- Ann has registered; her account is linked at her first login and found at the second, when she
has another address. -/
def annLinked : GooglePast :=
  { db := registered "ann@meno", asserted := [], logins := [] : GooglePast }.after .transparent
    (saysGoogle "g1" "ann@meno") (nthIds 1) 0 []

theorem annLinked_run : GoogleRun .transparent Recognised (registered "ann@meno")
    (annLinked.after .transparent (saysGoogle "g1" "ann@new") (nthIds 2) 1 []) := by
  refine .call _ _ _ _ (.call _ _ _ _ .start ?_) ?_
  · rintro _ ⟨⟩
    refine ⟨by decide, by decide, .inr ⟨by decide, ?_⟩⟩
    rintro u _ _ i ⟨hi, _⟩
    cases hi
  · rintro _ ⟨⟩
    refine ⟨by decide, by decide, .inl ?_⟩
    exact ⟨AuthRepository.identityRow 0 ⟨5⟩ ⟨0⟩ .google "g1" none, by decide, by decide, by decide⟩

theorem linked_account_stable :
    (annLinked.after .transparent (saysGoogle "g1" "ann@new") (nthIds 2) 1 []).Stable ∧
      ∀ l ∈ (annLinked.after .transparent (saysGoogle "g1" "ann@new") (nthIds 2) 1 []).logins,
        l.row.isSome = true :=
  google_login_stable .transparent (registered "ann@meno") _ (registered_sound _) annLinked_run

example : (annLinked.after .transparent (saysGoogle "g1" "ann@new") (nthIds 2) 1 []).logins.map
    Login.user = [⟨0⟩, ⟨0⟩] := by decide

/-- A new user comes with a second address and is created again; and another account with her first
address gets her identity. -/
theorem address_changes :
    ∃ p, GoogleRun .transparent (fun _ _ => True) .empty p ∧
      (∃ l ∈ p.logins, ∃ m ∈ p.logins, l.sub = m.sub ∧ l.user ≠ m.user) ∧
      ∃ l ∈ p.logins, ∃ m ∈ p.logins, l.sub ≠ m.sub ∧ l.row.isSome = true ∧ l.row = m.row := by
  refine ⟨_, .call (saysGoogle "g2" "ann@meno") (nthIds 3) 2 []
    (.call (saysGoogle "g1" "ann@new") (nthIds 2) 1 []
      (.call (saysGoogle "g1" "ann@meno") (nthIds 1) 0 [] .start (by simp)) (by simp)) (by simp),
    ?_, ?_⟩
  · decide
  · decide

end Auth

end Meno
