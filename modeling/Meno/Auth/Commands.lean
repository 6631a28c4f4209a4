import Meno.Auth.OneTime

/-!
# Meno.Auth.Commands

Commands of any number of calls on Redis and the database, with a history of one's own. A command
is executed and answered; executed, and the answer is lost; refused; or it does not get there.
Between the commands time passes, and anything happens under the keys that are not watched.
-/

namespace Meno

namespace Auth

open Lib

/-- The store at a time, and a history. -/
structure Recorded (H : Type) where
  db : AuthDb
  now : OffsetDateTime
  past : H

/-- How the history goes on when a statement of a call is executed, and with what answer if the
call is told. -/
abbrev Recorder (H ι : Type) := ι → {β : Type} → AuthStmt β → Option β → Recorded H → H

section Exec

variable {H ι : Type} (note : Recorder H ι)

/-- A statement that wrote `ws` is executed. -/
def Recorded.executed (s : Recorded H) (i : ι) {β : Type} (c : AuthStmt β) (b : Option β)
    (ws : List AuthWrite) : Recorded H where
  db := authEngine.applyAll s.db ws
  now := s.now
  past := note i c b s

inductive CommandExec (i : ι) : {β : Type} → Cmd AuthStmt DbError β → Recorded H → β →
    Recorded H → Prop
  | answered {β : Type} {c : AuthStmt β} {s : Recorded H} {b : β} {ws : List AuthWrite}
      (h : authEngine.exec c s.now s.db = .ok (b, ws)) :
      CommandExec i (.exec .pool c) s (.ok b) (s.executed note i c (some b) ws)
  | unanswered {β : Type} {c : AuthStmt β} {s : Recorded H} {b : β} {ws : List AuthWrite}
      (h : authEngine.exec c s.now s.db = .ok (b, ws)) :
      CommandExec i (.exec .pool c) s (.error authEngine.fault) (s.executed note i c none ws)
  | refused {β : Type} {c : AuthStmt β} {s : Recorded H} {e : DbError}
      (h : authEngine.exec c s.now s.db = .error e) : CommandExec i (.exec .pool c) s (.error e) s
  | unsent {β : Type} {c : AuthStmt β} {s : Recorded H} :
      CommandExec i (.exec .pool c) s (.error authEngine.fault) s

/-- The next command is executed and answered. -/
def Recorded.answer (i : ι) : {β : Type} → Cmd AuthStmt DbError β → Recorded H → β × Recorded H
  | _, .exec _ c, s =>
    match authEngine.exec c s.now s.db with
    | .ok (b, ws) => (.ok b, s.executed note i c (some b) ws)
    | .error e => (.error e, s)
  | _, .begin, s => (.error authEngine.fault, s)
  | _, .commit, s => (.error authEngine.fault, s)

variable {note}

theorem commandExec_answer {i : ι} {β : Type} {c : Cmd AuthStmt DbError β} {s : Recorded H}
    (hc : isPooled c = true) :
    CommandExec note i c s (Recorded.answer note i c s).1 (Recorded.answer note i c s).2 := by
  cases c with
  | exec e c =>
    cases e with
    | pool =>
      rw [Recorded.answer]
      cases hexec : authEngine.exec c s.now s.db with
      | ok p => exact .answered hexec
      | error e => exact .refused hexec
    | tx => cases hc
  | _ => cases hc

/-- Some time later. -/
def Recorded.later (s : Recorded H) (seconds : Nat) : Recorded H :=
  { s with now := s.now + seconds * second }

/-- Time passes, and anything happens but to the keys that are watched. -/
def Elsewhere (watched : RedisKey → Prop) (s s' : Recorded H) : Prop :=
  ∃ db now, s' = { s with db, now } ∧ s.now ≤ now ∧ ∀ k, watched k → db.redis k = s.db.redis k

theorem elsewhere_later {watched : RedisKey → Prop} (s : Recorded H) (seconds : Nat) :
    Elsewhere watched s (s.later seconds) := by
  refine ⟨s.db, _, rfl, ?_, fun _ _ => rfl⟩
  have hsecond : 0 ≤ (seconds : Int) * second := Int.mul_nonneg (Int.natCast_nonneg _) (by decide)
  exact Int.le_add_of_nonneg_right hsecond

end Exec

/-! ## Counters -/

section Counters

variable {db : AuthDb} {now : OffsetDateTime} {ws : List AuthWrite} {k : RedisKey}

/-- A statement leaves the keys alone that it does not write. -/
theorem exec_redis_other {β : Type} {c : AuthStmt β} {b : β}
    (h : authEngine.exec c now db = .ok (b, ws)) (hk : c.redisKey ≠ some k) :
    (authEngine.applyAll db ws).redis k = db.redis k :=
  redis_applyAll_other fun x hx hkey => hk ((exec_redisKey h x hx).symm.trans hkey)

/-- `INCR` begins to count at one where it finds nothing, and the counter it begins has no expiry. -/
theorem redisIncr_ok {n : Int} (h : authEngine.exec (.redisIncr k) now db = .ok (n, ws)) :
    db.redis.entry now k = none ∧ n = 1 ∧
        (authEngine.applyAll db ws).redis k = some { value := .int n, deadline := none } ∨
      ∃ m d, db.redis.entry now k = some { value := .int m, deadline := d } ∧ n = m + 1 ∧
        (authEngine.applyAll db ws).redis k = some { value := .int n, deadline := d } := by
  have hexec : Redis.incr db now k = .ok (n, ws) := h
  rw [Redis.incr] at hexec
  split at hexec
  · rename_i hentry
    cases hexec
    exact .inl ⟨hentry, rfl, if_pos rfl⟩
  · rename_i m d hentry
    cases hexec
    exact .inr ⟨m, d, hentry, rfl, if_pos rfl⟩
  · cases hexec

/-- The script counts like `INCR`, and gives the counter that it begins an expiry. -/
theorem redisIncrAndExpire_ok {n ttl : Int}
    (h : authEngine.exec (.redisIncrAndExpire k ttl) now db = .ok (n, ws)) :
    db.redis.entry now k = none ∧ n = 1 ∧ (authEngine.applyAll db ws).redis k =
        some { value := .int n, deadline := some (now + ttl * second) } ∨
      ∃ m d, db.redis.entry now k = some { value := .int m, deadline := d } ∧ n = m + 1 ∧
        (authEngine.applyAll db ws).redis k = some { value := .int n, deadline := d } := by
  have hexec : Redis.incrAndExpireIfFirst db now k ttl = .ok (n, ws) := h
  rw [Redis.incrAndExpireIfFirst] at hexec
  split at hexec
  · rename_i hentry
    cases hexec
    exact .inl ⟨hentry, rfl, if_pos rfl⟩
  · rename_i m d hentry
    cases hexec
    exact .inr ⟨m, d, hentry, rfl, if_pos rfl⟩
  · cases hexec

/-- `EXPIRE` gives an expiry to what it finds, and does nothing where there is nothing. -/
theorem redisExpire_ok {ttl : Int} (h : authEngine.exec (.redisExpire k ttl) now db = .ok ((), ws)) :
    db.redis.entry now k = none ∧ authEngine.applyAll db ws = db ∨
      ∃ e, db.redis.entry now k = some e ∧ (authEngine.applyAll db ws).redis k =
        some { e with deadline := some (now + ttl * second) } := by
  have hexec : Redis.expire db now k ttl = ((), ws) := Except.ok.inj h
  rw [Redis.expire] at hexec
  split at hexec
  · rename_i hentry
    cases hexec
    exact .inl ⟨hentry, rfl⟩
  · rename_i e hentry
    cases hexec
    exact .inr ⟨e, hentry, if_pos rfl⟩

/-- What is under the key was there before, with the same value. -/
def NotNewer (k : RedisKey) (db : AuthDb) (now : OffsetDateTime) (db' : AuthDb)
    (now' : OffsetDateTime) : Prop :=
  ∀ e', db'.redis k = some e' → ∃ e, db.redis k = some e ∧ e'.value = e.value ∧
    (Expiring.Alive e' now' → Expiring.Alive e now)

theorem notNewer_later {db' : AuthDb} {now' : OffsetDateTime} (h : db'.redis k = db.redis k)
    (hnow : now ≤ now') : NotNewer k db now db' now' := by
  intro e he
  exact ⟨e, h.symm.trans he, rfl, fun halive t ht => le_trans hnow (halive t ht)⟩

theorem exec_notNewer {β : Type} {c : AuthStmt β} {b : β}
    (h : authEngine.exec c now db = .ok (b, ws)) (hstores : c.storesAt ≠ some k) :
    NotNewer k db now (authEngine.applyAll db ws) now := by
  by_cases hkey : c.redisKey = some k
  · cases c with
    | redisSet k' v ttl => exact absurd hkey hstores
    | redisIncr k' => exact absurd hkey hstores
    | redisIncrAndExpire k' ttl => exact absurd hkey hstores
    | redisDel k' =>
      cases hkey
      cases h
      intro e' he'
      have hnone : (authEngine.applyAll db [.redis k none]).redis k = none := if_pos rfl
      rw [hnone] at he'
      cases he'
    | redisExpire k' ttl =>
      cases hkey
      rcases redisExpire_ok h with ⟨-, hsame⟩ | ⟨e, hentry, hset⟩
      · rw [hsame]
        exact notNewer_later rfl le_rfl
      · intro e' he'
        obtain ⟨hthere, halive⟩ := Option.filter_eq_some_iff.1 hentry
        cases hset.symm.trans he'
        exact ⟨e, hthere, rfl, fun _ => of_decide_eq_true halive⟩
    | _ => cases hkey
  · exact notNewer_later (exec_redis_other h hkey) le_rfl

end Counters

/-! ## The parts of `verify_otp` -/

/-- `verify_otp` counts the attempt, reads the password, and deletes at the end at most. -/
theorem verifyOtp_parts (email code : String) (otpType : OtpType) :
    ∃ f : Option RedisValue → AuthSvc Bool,
      AuthCache.verifyOtp email code otpType = (do
        let attempts ← redis (.redisIncr (.otpAttempts email otpType))
        if attempts = 1 then redis (.redisExpire (.otpAttempts email otpType) ttlOtpSecs)
        else pure ()
        refuse .tooManyRequests (attempts > 5)
        let found ← redis (.redisGet (.otp email otpType))
        f found) ∧
      ∀ {may : {β : Type} → Cmd AuthStmt DbError β → Prop},
        (∀ k, may (.exec .pool (.redisDel k))) → ∀ found, Act.Uses may (f found) := by
  refine ⟨_, rfl, fun {may} hmay found => ?_⟩
  have hdel : ∀ k, Act.Uses may (redis (.redisDel k)) := fun k => Act.uses_ask (hmay k)
  cases found with
  | none => trivial
  | some v =>
    cases v with
    | text s =>
      dsimp only
      split
      · refine Act.uses_bind (Act.uses_attempt (hdel _)) fun _ => ?_
        exact Act.uses_bind (Act.uses_attempt (hdel _)) fun _ => Act.uses_pure _
      · trivial
    | _ => trivial

end Auth

end Meno
