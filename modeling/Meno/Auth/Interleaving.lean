import Meno.Auth.Statements
import Meno.Lib.Rely

/-!
# Meno.Auth.Interleaving

The auth module's statements in runs of many callers. A row write is `Legal` when a refresh token's
row is stored under an id that has none, or removed while it is there; every statement writes a
chain of legal writes (`exec_legal`), so after any interleaving the removal of a row in a commit
says that the row was there before it.
-/

namespace Meno

namespace Auth

open Lib

/-! ## Rows under keys -/

inductive AuthKey where
  | user (id : Uuid)
  | identity (id : Uuid)
  | refreshToken (id : Uuid)
  | settings (userId : Uuid)
  | redis (key : RedisKey)
deriving DecidableEq

inductive AuthRow where
  | user (row : User)
  | identity (row : UserIdentity)
  | refreshToken (row : RefreshToken)
  | settings (userId : Uuid)
  | redis (entry : Entry RedisValue OffsetDateTime)

namespace AuthWrite

def key : AuthWrite → AuthKey
  | .user r => .user r.id
  | .identity r => .identity r.id
  | .refreshToken r => .refreshToken r.id
  | .dropRefreshToken id => .refreshToken id
  | .settings u => .settings u
  | .redis k _ => .redis k

def value : AuthWrite → Option AuthRow
  | .user r => some (.user r)
  | .identity r => some (.identity r)
  | .refreshToken r => some (.refreshToken r)
  | .dropRefreshToken _ => none
  | .settings u => some (.settings u)
  | .redis _ e => e.map .redis

end AuthWrite

namespace AuthDb

def look (db : AuthDb) : AuthKey → Option AuthRow
  | .user id => (db.users.get id).map .user
  | .identity id => (db.identities.get id).map .identity
  | .refreshToken id => (db.refreshTokens.get id).map .refreshToken
  | .settings u => (db.settings.get u).map .settings
  | .redis k => (db.redis k).map .redis

theorem look_apply (db : AuthDb) (x : AuthWrite) (k : AuthKey) :
    (db.apply x).look k = if k = x.key then x.value else db.look k := by
  cases x with
  | user r =>
    cases k with
    | user id =>
      simp only [look, apply, Table.get_put, AuthWrite.key, AuthWrite.value, AuthKey.user.injEq]
      split <;> rfl
    | _ => rfl
  | identity r =>
    cases k with
    | identity id =>
      simp only [look, apply, Table.get_put, AuthWrite.key, AuthWrite.value,
        AuthKey.identity.injEq]
      split <;> rfl
    | _ => rfl
  | refreshToken r =>
    cases k with
    | refreshToken id =>
      simp only [look, apply, Table.get_put, AuthWrite.key, AuthWrite.value,
        AuthKey.refreshToken.injEq]
      split <;> rfl
    | _ => rfl
  | dropRefreshToken id' =>
    cases k with
    | refreshToken id =>
      simp only [look, apply, Table.get_erase, AuthWrite.key, AuthWrite.value,
        AuthKey.refreshToken.injEq]
      split <;> rfl
    | _ => rfl
  | settings u' =>
    cases k with
    | settings u =>
      simp only [look, apply, Table.get_put, AuthWrite.key, AuthWrite.value,
        AuthKey.settings.injEq, id_eq]
      split <;> rfl
    | _ => rfl
  | redis k' e =>
    cases k with
    | redis k =>
      simp only [look, apply, Expiring.set_apply, AuthWrite.key, AuthWrite.value,
        AuthKey.redis.injEq]
      split <;> rfl
    | _ => rfl

end AuthDb

def authKeyed : Keyed authEngine AuthKey AuthRow where
  key := AuthWrite.key
  value := AuthWrite.value
  look := AuthDb.look
  look_apply := AuthDb.look_apply

/-! ## Rows of refresh tokens -/

/-- A row is stored under an id that has none, and removed while it is there. -/
def AuthWrite.Legal (db : AuthDb) : AuthWrite → Prop
  | .refreshToken row => db.refreshTokens.get row.id = none
  | .dropRefreshToken id => (db.refreshTokens.get id).isSome
  | _ => True

/-- The id under which a refresh token's row is stored. -/
def AuthWrite.storedId : AuthWrite → Option Uuid
  | .refreshToken row => some row.id
  | _ => none

def AuthWrite.droppedId : AuthWrite → Option Uuid
  | .dropRefreshToken id => some id
  | _ => none

/-- A write to another table, or to Redis. -/
def AuthWrite.Other (x : AuthWrite) : Prop := x.storedId = none ∧ x.droppedId = none

theorem legal_row (db db' : AuthDb) (x : AuthWrite) (h : db.look x.key = db'.look x.key)
    (hx : x.Legal db) : x.Legal db' := by
  have hget : ∀ id, db.look (.refreshToken id) = db'.look (.refreshToken id) →
      db.refreshTokens.get id = db'.refreshTokens.get id := by
    intro id hid
    simp only [AuthDb.look] at hid
    cases h₁ : db.refreshTokens.get id <;> cases h₂ : db'.refreshTokens.get id <;>
      simp_all
  cases x with
  | refreshToken row => exact (hget _ h).symm.trans hx
  | dropRefreshToken id =>
    show (db'.refreshTokens.get id).isSome
    rw [← hget id h]
    exact hx
  | _ => trivial

theorem chain_other {ws : List AuthWrite} (h : ∀ x ∈ ws, x.Other) :
    ∀ db : AuthDb, authEngine.Chain AuthWrite.Legal db ws := by
  induction ws with
  | nil => intro db; trivial
  | cons x ws ih =>
    intro db
    refine ⟨?_, ih (fun y hy => h y (List.mem_cons_of_mem _ hy)) _⟩
    obtain ⟨hstored, hdropped⟩ := h x List.mem_cons_self
    cases x with
    | refreshToken row => cases hstored
    | dropRefreshToken id => cases hdropped
    | _ => trivial

/-- The statements that do not write refresh tokens. -/
def AuthStmt.IsOther : {β : Type} → AuthStmt β → Prop
  | _, .storeRefreshToken _ _ _ _ => False
  | _, .deleteRefreshToken _ _ => False
  | _, .revokeRefreshToken _ => False
  | _, .deleteRefreshTokens _ => False
  | _, _ => True

section Statements

variable {db : AuthDb} {now : OffsetDateTime} {ws : List AuthWrite}

theorem other_one {x : AuthWrite} (h : x.Other) : ∀ y ∈ [x], y.Other := by
  intro y hy
  rw [List.mem_singleton.1 hy]
  exact h

theorem redis_other {k : RedisKey} {e : Option (Entry RedisValue OffsetDateTime)} :
    ∀ y ∈ [AuthWrite.redis k e], y.Other := other_one ⟨rfl, rfl⟩

theorem exec_other {β : Type} {s : AuthStmt β} {b : β}
    (h : authEngine.exec s now db = .ok (b, ws)) (hs : s.IsOther) : ∀ x ∈ ws, x.Other := by
  cases s with
  | storeRefreshToken _ _ _ _ => exact hs.elim
  | deleteRefreshToken _ _ => exact hs.elim
  | revokeRefreshToken _ => exact hs.elim
  | deleteRefreshTokens _ => exact hs.elim
  | insertUser id name email =>
    obtain ⟨-, -, rfl, -⟩ := AuthRepository.insertUser_ok h
    exact other_one ⟨rfl, rfl⟩
  | insertSettings u =>
    rw [AuthRepository.insertSettings_ok h]
    exact other_one ⟨rfl, rfl⟩
  | findByEmail email =>
    rw [(AuthRepository.findByEmail_ok h).2]
    simp
  | setVerified email =>
    rcases AuthRepository.setVerified_ok h with ⟨-, rfl⟩ | ⟨u, -, -, rfl⟩
    · simp
    · exact other_one ⟨rfl, rfl⟩
  | findIdentity p pid =>
    rw [(AuthRepository.findIdentity_ok h).2]
    simp
  | createIdentity id u p pid hash =>
    rw [(AuthRepository.createIdentity_ok h).2.1]
    exact other_one ⟨rfl, rfl⟩
  | linkProvider id u p pid =>
    rcases AuthRepository.linkProvider_ok h with ⟨-, rfl⟩ | ⟨rfl, -⟩
    · simp
    · exact other_one ⟨rfl, rfl⟩
  | updatePassword u hash =>
    obtain ⟨_, _, he⟩ := bind_eq_ok.1 h
    cases he
    intro x hx
    obtain ⟨i, -, rfl⟩ := List.mem_map.1 hx
    exact ⟨rfl, rfl⟩
  | redisSet k v ttl =>
    simp only [authEngine, AuthStmt.exec, Redis.set] at h
    split at h
    · cases h
    · cases h
      exact redis_other
  | redisDel k =>
    cases h
    exact redis_other
  | redisIncr k =>
    simp only [authEngine, AuthStmt.exec, Redis.incr] at h
    split at h
    · cases h
      exact redis_other
    · cases h
      exact redis_other
    · cases h
  | redisExpire k ttl =>
    simp only [authEngine, AuthStmt.exec, Redis.expire] at h
    split at h
    · cases h
      simp
    · cases h
      exact redis_other
  | redisIncrAndExpire k ttl =>
    simp only [authEngine, AuthStmt.exec, Redis.incrAndExpireIfFirst] at h
    split at h
    · cases h
      exact redis_other
    · cases h
      exact redis_other
    · cases h
  | findById _ => cases h; simp
  | findUserProviders _ => cases h; simp
  | findRefreshToken _ _ => cases h; simp
  | refreshTokensOf _ => cases h; simp
  | redisGet _ => cases h; simp
  | nowUtc => cases h; simp

/-- What the `DELETE` of a rotation removes is the row that it is given. -/
theorem deleteRefreshToken_ok {jti u : Uuid} {n : Nat}
    (h : authEngine.exec (.deleteRefreshToken jti u) now db = .ok (n, ws)) :
    ws = [] ∨ ws = [.dropRefreshToken jti] ∧ (db.refreshTokens.get jti).isSome := by
  have hanswer := Except.ok.inj h
  simp only [AuthRepository.deleteRefreshToken] at hanswer
  cases hfind : AuthRepository.findRefreshToken db jti u with
  | none =>
    rw [hfind] at hanswer
    cases hanswer
    exact .inl rfl
  | some r =>
    rw [hfind] at hanswer
    cases hanswer
    obtain ⟨hget, -⟩ := Option.filter_eq_some_iff.1 hfind
    exact .inr ⟨rfl, by rw [hget]; rfl⟩

theorem revokeRefreshToken_ok {jti : Uuid} {n : Nat}
    (h : authEngine.exec (.revokeRefreshToken jti) now db = .ok (n, ws)) :
    ws = [] ∧ db.refreshTokens.get jti = none ∨
      ws = [.dropRefreshToken jti] ∧ (db.refreshTokens.get jti).isSome := by
  have hanswer := Except.ok.inj h
  simp only [AuthRepository.revokeRefreshToken] at hanswer
  cases hget : db.refreshTokens.get jti with
  | none =>
    rw [hget] at hanswer
    cases hanswer
    exact .inl ⟨rfl, rfl⟩
  | some r =>
    rw [hget] at hanswer
    cases hanswer
    exact .inr ⟨rfl, rfl⟩

/-- After the statement the row is gone, if there was one. -/
theorem revokeRefreshToken_gone {jti : Uuid} {n : Nat}
    (h : authEngine.exec (.revokeRefreshToken jti) now db = .ok (n, ws)) :
    (authEngine.applyAll db ws).refreshTokens.get jti = none := by
  rcases revokeRefreshToken_ok h with ⟨rfl, hnone⟩ | ⟨rfl, -⟩
  · exact hnone
  · show (db.refreshTokens.erase jti).get jti = none
    rw [Table.get_erase, if_pos rfl]

/-- The rows that are deleted together are different ones, and all there. -/
theorem deleteRefreshTokens_legal (ids : List Uuid) :
    authEngine.Chain AuthWrite.Legal db (AuthRepository.deleteRefreshTokens db ids).2 := by
  refine chain_of_nodup authKeyed legal_row _ db (fun x hx => ?_) ?_
  · obtain ⟨r, hr, rfl⟩ := List.mem_map.1 hx
    have hget := Table.mem_rows_iff.1 (List.mem_filter.1 hr).1
    show (db.refreshTokens.get r.id).isSome
    rw [hget]
    rfl
  · have hkeys : ((db.refreshTokens.rows.filter fun r => ids.contains r.id).map
        RefreshToken.id).Nodup := db.refreshTokens.nodup.sublist (List.filter_sublist.map _)
    have hmap : ((AuthRepository.deleteRefreshTokens db ids).2.map authKeyed.key) =
        ((db.refreshTokens.rows.filter fun r => ids.contains r.id).map RefreshToken.id).map
          AuthKey.refreshToken := by
      rw [AuthRepository.deleteRefreshTokens, List.map_map, List.map_map]
      rfl
    rw [hmap]
    exact hkeys.map fun _ _ h => AuthKey.refreshToken.inj h

/-- Every statement writes a chain of legal writes. -/
theorem exec_legal {β : Type} {s : AuthStmt β} {b : β}
    (h : authEngine.exec s now db = .ok (b, ws)) : authEngine.Chain AuthWrite.Legal db ws := by
  cases s with
  | storeRefreshToken jti u hash e =>
    obtain ⟨rfl, hnone⟩ := AuthRepository.storeRefreshToken_ok h
    exact ⟨hnone, trivial⟩
  | deleteRefreshToken jti u =>
    rcases deleteRefreshToken_ok h with rfl | ⟨rfl, hsome⟩
    · trivial
    · exact ⟨hsome, trivial⟩
  | revokeRefreshToken jti =>
    rcases revokeRefreshToken_ok h with ⟨rfl, -⟩ | ⟨rfl, hsome⟩
    · trivial
    · exact ⟨hsome, trivial⟩
  | deleteRefreshTokens ids =>
    cases h
    exact deleteRefreshTokens_legal ids
  | _ => exact chain_other (exec_other h trivial) db

end Statements

theorem auth_disciplined :
    World.Disciplined (K := authKeyed) (T := OffsetDateTime) (fun _ => True) AuthWrite.Legal where
  exec := fun _ h => exec_legal h
  row := legal_row

/-! ## What a commit says of a row -/

section Rows

variable {jti : Uuid}

/-- Whether the row is there, after the writes. -/
theorem isSome_apply (jti : Uuid) (db : AuthDb) (x : AuthWrite) :
    ((db.apply x).refreshTokens.get jti).isSome ↔
      x.storedId = some jti ∨ (db.refreshTokens.get jti).isSome ∧ x.droppedId ≠ some jti := by
  cases x with
  | refreshToken row =>
    simp only [AuthDb.apply, Table.get_put, AuthWrite.storedId, AuthWrite.droppedId]
    by_cases h : jti = row.id
    · simp [h]
    · simp [h, Ne.symm h]
  | dropRefreshToken id =>
    simp only [AuthDb.apply, Table.get_erase, AuthWrite.storedId, AuthWrite.droppedId]
    by_cases h : jti = id
    · simp [h]
    · simp [h, Ne.symm h]
  | _ => simp [AuthDb.apply, AuthWrite.storedId, AuthWrite.droppedId]

/-- A row that is not there stays away while none is stored under its id. -/
theorem absent_applyAll (ws : List AuthWrite) : ∀ db : AuthDb, db.refreshTokens.get jti = none →
    (∀ x ∈ ws, x.storedId ≠ some jti) →
      (authEngine.applyAll db ws).refreshTokens.get jti = none := by
  induction ws with
  | nil => exact fun _ h _ => h
  | cons x ws ih =>
    intro db h hws
    refine ih _ ?_ fun y hy => hws y (List.mem_cons_of_mem _ hy)
    have hx := (isSome_apply jti db x).not
    rw [h] at hx
    have hnot : ¬((db.apply x).refreshTokens.get jti).isSome :=
      hx.2 fun hor => hor.elim (hws x List.mem_cons_self) fun hand => by cases hand.1
    exact Option.not_isSome_iff_eq_none.1 hnot

/-- What a chain of legal writes removes was there, and is not there any more, unless it was stored
in between. -/
theorem dropped_chain (ws : List AuthWrite) : ∀ db : AuthDb,
    authEngine.Chain AuthWrite.Legal db ws → (∃ x ∈ ws, x.droppedId = some jti) →
      (∀ x ∈ ws, x.storedId ≠ some jti) →
        (db.refreshTokens.get jti).isSome ∧
          (authEngine.applyAll db ws).refreshTokens.get jti = none := by
  induction ws with
  | nil =>
    rintro db _ ⟨x, hx, _⟩
    cases hx
  | cons x ws ih =>
    intro db hchain hdrop hws
    have hrest : ∀ y ∈ ws, y.storedId ≠ some jti := fun y hy => hws y (List.mem_cons_of_mem _ hy)
    by_cases hx : x.droppedId = some jti
    · cases x with
      | dropRefreshToken id =>
        cases hx
        refine ⟨hchain.1, absent_applyAll ws _ ?_ hrest⟩
        show (db.refreshTokens.erase jti).get jti = none
        rw [Table.get_erase, if_pos rfl]
      | _ => cases hx
    · obtain ⟨y, hy, hdropped⟩ := hdrop
      rcases List.mem_cons.1 hy with rfl | hy
      · exact absurd hdropped hx
      · obtain ⟨hthere, hgone⟩ := ih _ hchain.2 ⟨y, hy, hdropped⟩ hrest
        refine ⟨?_, hgone⟩
        rcases (isSome_apply jti db x).1 hthere with hstored | hand
        · exact absurd hstored (hws x List.mem_cons_self)
        · exact hand.1

end Rows

end Auth

end Meno
