import Meno.Auth.Ops

/-!
# Meno.Auth.Statements

What the statements on users and identities answer and write where they succeed.
-/

namespace Meno

namespace Auth

open Lib

theorem UserIdentity.has_iff {provider : AuthProvider} {k : String} {i : UserIdentity} :
    AuthRepository.UserIdentity.has provider k i = true ↔
      i.providerType = provider ∧ i.providerUserId = k := by
  simp [AuthRepository.UserIdentity.has]

namespace AuthRepository

variable {db : AuthDb} {now : OffsetDateTime} {ws : List AuthWrite}

theorem findIdentity_ok {provider : AuthProvider} {k : String} {r : Option UserIdentity}
    (h : findIdentity db provider k = .ok (r, ws)) :
    r = db.identities.rows.find? (UserIdentity.has provider k) ∧ ws = [] := by
  simp only [findIdentity, bind_eq_ok, pure_eq_ok, Prod.mk.injEq] at h
  obtain ⟨_, _, hr, hws⟩ := h
  exact ⟨hr.symm, hws.symm⟩

theorem findByEmail_ok {email : String} {r : Option User}
    (h : findByEmail db email = .ok (r, ws)) :
    r = (db.users.rows.find? fun u => u.email == email) ∧ ws = [] := by
  simp only [findByEmail, bind_eq_ok, pure_eq_ok, Prod.mk.injEq] at h
  obtain ⟨_, _, hr, hws⟩ := h
  exact ⟨hr.symm, hws.symm⟩

/-- A new user has an id and an address that no other one has. -/
theorem insertUser_ok {id : Uuid} {name email : String} {u : User}
    (h : insertUser db now id name email = .ok (u, ws)) :
    u.id = id ∧ u.email = email ∧ ws = [.user u] ∧ db.users.get id = none ∧
      ∀ v ∈ db.users.rows, v.email ≠ email := by
  simp only [insertUser, bind_eq_ok] at h
  obtain ⟨_, _, _, _, h⟩ := h
  split at h
  · cases h
  · rename_i hfree
    cases h
    simp only [Bool.or_eq_true, not_or, Bool.not_eq_true, Option.isSome_eq_false_iff,
      Option.isNone_iff_eq_none, List.any_eq_false, beq_iff_eq] at hfree
    exact ⟨rfl, rfl, rfl, hfree⟩

theorem insertSettings_ok {userId : Uuid} (h : insertSettings db userId = .ok ((), ws)) :
    ws = [.settings userId] := by
  simp only [insertSettings] at h
  split at h
  · cases h
  · simp only [bind_eq_ok, pure_eq_ok, Prod.mk.injEq] at h
    obtain ⟨_, _, _, hws⟩ := h
    exact hws.symm

/-- No identity has the id, the user's provider, or the provider's account of another one. -/
structure NewIdentity (db : AuthDb) (i : UserIdentity) : Prop where
  id : db.identities.get i.id = none
  user : ∀ j ∈ db.identities.rows, ¬(j.userId = i.userId ∧ j.providerType = i.providerType)
  account : ∀ j ∈ db.identities.rows,
    ¬(j.providerType = i.providerType ∧ j.providerUserId = i.providerUserId)
  owner : (db.users.get i.userId).isSome = true

theorem checkUser_found {id : Uuid} {x : Unit} (h : checkUser db id = .ok x) :
    (db.users.get id).isSome = true := by
  unfold checkUser at h
  split at h
  · assumption
  · cases h

theorem createIdentity_ok {id userId : Uuid} {provider : AuthProvider} {k : String}
    {hash : Option String} {i : UserIdentity}
    (h : createIdentity db now id userId provider k hash = .ok (i, ws)) :
    i = identityRow now id userId provider k hash ∧ ws = [.identity i] ∧ NewIdentity db i := by
  simp only [createIdentity, bind_eq_ok] at h
  obtain ⟨_, _, _, _, h⟩ := h
  split at h
  · cases h
  · rename_i hfree
    obtain ⟨_, hu, h⟩ := bind_eq_ok.1 h
    cases h
    simp only [Bool.or_eq_true, not_or, Bool.not_eq_true, Option.isSome_eq_false_iff,
      Option.isNone_iff_eq_none, List.any_eq_false, Bool.and_eq_true, beq_iff_eq,
      UserIdentity.has_iff] at hfree
    obtain ⟨⟨hid, huser⟩, haccount⟩ := hfree
    exact ⟨rfl, rfl, hid, huser, haccount, checkUser_found hu⟩

/-- A user who has the provider already is left as he is. -/
theorem linkProvider_ok {id userId : Uuid} {provider : AuthProvider} {k : String}
    (h : linkProvider db now id userId provider k = .ok ((), ws)) :
    (∃ j ∈ db.identities.rows, j.userId = userId ∧ j.providerType = provider) ∧ ws = [] ∨
      ws = [.identity (identityRow now id userId provider k none)] ∧
        NewIdentity db (identityRow now id userId provider k none) := by
  simp only [linkProvider, bind_eq_ok] at h
  obtain ⟨_, _, h⟩ := h
  split at h
  · rename_i hhas
    cases h
    simp only [List.any_eq_true, Bool.and_eq_true, beq_iff_eq] at hhas
    exact .inl ⟨hhas, rfl⟩
  · rename_i huser
    split at h
    · cases h
    · rename_i hfree
      obtain ⟨_, hu, h⟩ := bind_eq_ok.1 h
      cases h
      simp only [Bool.or_eq_true, not_or, Bool.not_eq_true, Option.isSome_eq_false_iff,
        Option.isNone_iff_eq_none, List.any_eq_false, Bool.and_eq_true, beq_iff_eq,
        UserIdentity.has_iff] at hfree huser
      exact .inr ⟨rfl, hfree.1, huser, hfree.2, checkUser_found hu⟩

theorem setVerified_ok {email : String} (h : setVerified db now email = .ok ((), ws)) :
    (∀ u ∈ db.users.rows, u.email ≠ email) ∧ ws = [] ∨
      ∃ u ∈ db.users.rows, u.email = email ∧
        ws = [.user { u with verified := true, updatedAt := now }] := by
  simp only [setVerified, bind_eq_ok] at h
  obtain ⟨_, _, h⟩ := h
  cases hu : db.users.rows.find? fun u => u.email == email with
  | none =>
    rw [hu] at h
    cases h
    exact .inl ⟨fun u hmem => by simpa using List.find?_eq_none.1 hu u hmem, rfl⟩
  | some u =>
    rw [hu] at h
    cases h
    exact .inr ⟨u, List.mem_of_find?_eq_some hu, by simpa using List.find?_some hu, rfl⟩

/-- The row that is stored. -/
theorem storeRefreshToken_ok {jti userId : Uuid} {hash : String} {expiresAt : OffsetDateTime}
    (h : storeRefreshToken db now jti userId hash expiresAt = .ok ((), ws)) :
    ws = [.refreshToken {
      id := jti, userId, tokenHash := hash, createdAt := now, expiresAt }] ∧
      db.refreshTokens.get jti = none := by
  simp only [storeRefreshToken, bind_eq_ok] at h
  obtain ⟨_, _, h⟩ := h
  split at h
  · cases h
  · rename_i hfree
    obtain ⟨_, _, h⟩ := bind_eq_ok.1 h
    cases h
    simp only [Bool.or_eq_true, not_or, Bool.not_eq_true, Option.isSome_eq_false_iff,
      Option.isNone_iff_eq_none] at hfree
    exact ⟨rfl, hfree.1⟩

end AuthRepository

end Auth

end Meno
