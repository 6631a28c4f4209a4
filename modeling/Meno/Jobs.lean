import Meno.Auth.Cleanup
import Meno.Notes.Purge

/-!
# Meno.Jobs

The loops of the scheduled jobs `purge_stale_notes` and `cleanup_expired_tokens`.
-/

namespace Meno

open Lib Lib.Batches

/-- **Batched cleanup**, whatever rows the database picks in a round and whatever its clock shows:
the loops end, they delete the rows that qualify, leave the others, and answer how many they have
deleted. A token qualifies if it has expired by the last round, the one that is short. -/
theorem cleanup_loops_exact :
    (∀ (k : EntityType) (sel : Selection (Row k.Fields) 5000) (clock : Nat → OffsetDateTime)
      (cutoff : OffsetDateTime) (db : NotesDb), ∃ db',
        Deletes (fun db : NotesDb => db.table k) 5000
          (fun rounds => NotesRepository.purgeBatched sel clock cutoff rounds db)
          (fun r => r.isStale cutoff) db db' ∧
        NotesRepository.OthersKept k cutoff db db') ∧
    (∀ (sel : Selection Auth.RefreshToken 5000) (clock : Auth.DbClock) (db : Auth.AuthDb),
      ∃ last db', last =
          db.refreshTokens.rows.countP (Auth.RefreshToken.isExpired (clock.now last)) / 5000 ∧
        Deletes Auth.AuthDb.refreshTokens 5000
          (fun rounds => Auth.AuthRepository.cleanupExpiredRefreshTokens sel clock rounds db)
          (Auth.RefreshToken.isExpired (clock.now last)) db db' ∧
        Auth.AuthRepository.SameButTokens db db') :=
  ⟨fun _ => NotesRepository.purgeBatched_eq, Auth.AuthRepository.cleanup_eq⟩

end Meno
