import Meno.Auth.Repository
import Meno.Lib.Batches

/-!
# Meno.Auth.Cleanup

`cleanup_expired_refresh_tokens`: batches of expired tokens, each with the `NOW()` of its own
statement. The tokens that have expired by the last of them are deleted (`cleanup_eq`).
-/

namespace Meno.Auth

open Lib Lib.Batches

/-- `NOW()` of one statement after the other. -/
structure DbClock where
  now : Nat → OffsetDateTime
  forward : ∀ i, now i ≤ now (i + 1)

/-- `expires_at < NOW()`. -/
def RefreshToken.isExpired (now : OffsetDateTime) (r : RefreshToken) : Bool := r.expiresAt < now

namespace AuthRepository

/-- The `i`th round: of the expired tokens the database picks at most 5000. -/
def cleanupRound (sel : Selection RefreshToken 5000) (clock : DbClock) (i : Nat) (db : AuthDb) :
    Nat × AuthDb :=
  let picked := sel.pick i (db.refreshTokens.rows.filter (RefreshToken.isExpired (clock.now i)))
  (picked.length, (picked.map fun r => AuthWrite.dropRefreshToken r.id).foldl AuthDb.apply db)

/-- Nothing if it is not over after so many rounds. -/
def cleanupExpiredRefreshTokens (sel : Selection RefreshToken 5000) (clock : DbClock)
    (rounds : Nat) (db : AuthDb) : Option (Nat × AuthDb) :=
  loop 5000 (cleanupRound sel clock) rounds 0 0 db

/-- All but the tokens. -/
structure SameButTokens (db db' : AuthDb) : Prop where
  users : db'.users = db.users
  identities : db'.identities = db.identities
  settings : db'.settings = db.settings
  redis : db'.redis = db.redis

theorem drop_all (rs : List RefreshToken) (db : AuthDb) :
    (rs.map fun r => AuthWrite.dropRefreshToken r.id).foldl AuthDb.apply db =
      { db with refreshTokens := without db.refreshTokens (rs.map RefreshToken.id) } := by
  induction rs generalizing db with
  | nil => rw [List.map_nil, List.map_nil, without_nil]; rfl
  | cons r rs ih =>
    rw [List.map_cons, List.foldl_cons, ih, List.map_cons, without_cons]
    rfl

theorem drains (sel : Selection RefreshToken 5000) (clock : DbClock) :
    Drains AuthDb.refreshTokens (fun i => RefreshToken.isExpired (clock.now i)) 5000
      (cleanupRound sel clock) := by
  intro i db
  let picked := sel.pick i (db.refreshTokens.rows.filter (RefreshToken.isExpired (clock.now i)))
  refine ⟨picked, sel.subperm _ _, ?_, rfl, ?_⟩
  · rw [sel.length, List.countP_eq_length_filter]
  · exact congrArg AuthDb.refreshTokens (drop_all picked db)

theorem sameButTokens_round {db₀ db : AuthDb} (h : SameButTokens db₀ db)
    (sel : Selection RefreshToken 5000) (clock : DbClock) (i : Nat) :
    SameButTokens db₀ (cleanupRound sel clock i db).2 := by
  simp only [cleanupRound, drop_all]
  exact ⟨h.users, h.identities, h.settings, h.redis⟩

/-- A token that has expired stays expired. -/
theorem isExpired_forward (clock : DbClock) (i : Nat) (r : RefreshToken)
    (h : r.isExpired (clock.now i) = true) : r.isExpired (clock.now (i + 1)) = true := by
  have hlt : r.expiresAt < clock.now i := of_decide_eq_true h
  exact decide_eq_true (Int.lt_of_lt_of_le hlt (clock.forward i))

/-- **The cleanup ends**: the tokens that have expired by its last round are gone, and counted, and
the other rows are there. -/
theorem cleanup_eq (sel : Selection RefreshToken 5000) (clock : DbClock) (db : AuthDb) :
    ∃ last db', last = db.refreshTokens.rows.countP (RefreshToken.isExpired (clock.now last)) / 5000 ∧
      Deletes AuthDb.refreshTokens 5000
        (fun rounds => cleanupExpiredRefreshTokens sel clock rounds db)
        (RefreshToken.isExpired (clock.now last)) db db' ∧
      SameButTokens db db' :=
  (drains sel clock).loop_eq (J := SameButTokens db) (isExpired_forward clock) (by decide)
    (fun i _ h => sameButTokens_round h sel clock i) db ⟨rfl, rfl, rfl, rfl⟩

end AuthRepository

end Meno.Auth
