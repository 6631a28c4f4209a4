import Meno.Auth.Commands
import Meno.Lib.Timeline

/-!
# Meno.Auth.Permanence

Do the counters of `check_reconnect_rate` and `verify_otp` go away by themselves? Both count with
`INCR` and give the counter its expiry in a second command, and only when the count is one. Where
the answer to the first is lost, the second fails, or the process stops in between, the counter stays
and no later call gives it an expiry. A counter that a running call is about to give its expiry is
not held against it. `throttles_expire_iff` says which runs leave no other counter without one.
-/

namespace Meno

namespace Auth

open Lib

/-! ## Calls and what happens to them -/

inductive ThrottleCall where
  | verifyOtp (email code : String) (otpType : OtpType)
  | checkReconnectRate (userId : Uuid)

def ThrottleCall.prog : ThrottleCall → Prog (Cmd AuthStmt DbError) Unit
  | .verifyOtp email code otpType =>
    ExceptT.run (AuthCache.verifyOtp email code otpType) >>= fun _ => .ret ()
  | .checkReconnectRate userId => ExceptT.run (Auth.checkReconnectRate userId) >>= fun _ => .ret ()

/-- The keys of the counters. -/
def RedisKey.isThrottle : RedisKey → Bool
  | .otpAttempts _ _ => true
  | .reconnectRate _ => true
  | _ => false

/-- What becomes of a command: it is executed and answered, executed and the answer is lost, or it
does not get to Redis. -/
inductive CommandEnd where
  | answered
  | unanswered
  | unsent
deriving DecidableEq

def CommandEnd.exec {β : Type} (e : CommandEnd) (c : AuthStmt β) (now : OffsetDateTime)
    (db : AuthDb) : Except DbError β × AuthDb :=
  match e, authEngine.exec c now db with
  | .answered, .ok (b, ws) => (.ok b, authEngine.applyAll db ws)
  | .answered, .error err => (.error err, db)
  | .unanswered, .ok (_, ws) => (.error authEngine.fault, authEngine.applyAll db ws)
  | .unanswered, .error _ => (.error authEngine.fault, db)
  | .unsent, _ => (.error authEngine.fault, db)

structure ThrottleState (ι : Type) where
  db : AuthDb
  now : OffsetDateTime
  prog : ι → Prog (Cmd AuthStmt DbError) Unit

inductive ThrottleEvent (ι : Type) where
  /-- The next command of a call. -/
  | command (i : ι) (e : CommandEnd)
  /-- The process of a call stops. -/
  | stop (i : ι)
  /-- Time passes, and anything happens but to the counters. -/
  | elsewhere (db : AuthDb) (seconds : Nat)

/-- The database `db'` with the counters of `db`. -/
def keepThrottles (db db' : AuthDb) : AuthDb :=
  { db' with redis := fun k => if k.isThrottle then db.redis k else db'.redis k }

namespace ThrottleState

variable {ι : Type} [DecidableEq ι] (s : ThrottleState ι)

def command (i : ι) (e : CommandEnd) : ThrottleState ι :=
  match s.prog i with
  | .call (.exec .pool c) k => {
    db := (e.exec c s.now s.db).2
    now := s.now
    prog := Function.update s.prog i (k (e.exec c s.now s.db).1) }
  | _ => s

def step : ThrottleEvent ι → ThrottleState ι
  | .command i e => s.command i e
  | .stop i => { s with prog := Function.update s.prog i (.ret ()) }
  | .elsewhere db seconds =>
    { s with db := keepThrottles s.db db, now := s.now + seconds * second }

/-- All the calls are about to begin, and Redis is empty. -/
def start (calls : ι → ThrottleCall) (db : AuthDb) (now : OffsetDateTime) : ThrottleState ι where
  db := { db with redis := .empty }
  now
  prog i := (calls i).prog

end ThrottleState

/-! ## Counters without an expiry -/

section Property

variable {ρ ι : Type}

/-- The counter that the next command of a program gives an expiry. -/
def expiring : Prog (Cmd AuthStmt DbError) ρ → Option RedisKey
  | .call (.exec .pool (.redisExpire k _)) _ => some k
  | _ => none

/-- The counter that the next command of a program counts in. -/
def counting : Prog (Cmd AuthStmt DbError) ρ → Option RedisKey
  | .call (.exec .pool (.redisIncr k)) _ => some k
  | _ => none

/-- The counter is there, and stays. -/
def Bare (db : AuthDb) (k : RedisKey) : Prop := ∃ e, db.redis k = some e ∧ e.deadline = none

/-- Every counter has an expiry, or a call is about to give it one. -/
def Expires (s : ThrottleState ι) : Prop :=
  ∀ k, k.isThrottle = true → Bare s.db k → ∃ i, expiring (s.prog i) = some k

/-- The call does not fail, and is not stopped, between the two commands of a counter that no other
call is about to give an expiry. -/
def CarriesOn (s : ThrottleState ι) : ThrottleEvent ι → Prop
  | .command i .unanswered => ∀ k, k.isThrottle = true → counting (s.prog i) = some k →
    s.db.redis.entry s.now k = none → ∃ j, expiring (s.prog j) = some k
  | .command i .unsent => ∀ k, k.isThrottle = true → expiring (s.prog i) = some k → Bare s.db k →
    ∃ j, j ≠ i ∧ expiring (s.prog j) = some k
  | .stop i => ∀ k, k.isThrottle = true → expiring (s.prog i) = some k → Bare s.db k →
    ∃ j, j ≠ i ∧ expiring (s.prog j) = some k
  | _ => True

/-- When no call is running, every counter has an expiry. -/
theorem Expires.idle {s : ThrottleState ι} (h : Expires s) (hidle : ∀ i, (s.prog i).isRet = true)
    {k : RedisKey} (hk : k.isThrottle = true) {e : Entry RedisValue OffsetDateTime}
    (he : s.db.redis k = some e) : e.deadline ≠ none := by
  intro hnone
  obtain ⟨i, hi⟩ := h k hk ⟨e, he, hnone⟩
  obtain ⟨r, hr⟩ := Prog.isRet_iff.1 (hidle i)
  rw [hr] at hi
  cases hi

end Property

/-! ## The order of the commands -/

section Shape

variable {ρ : Type}

/-- A count of one is followed by the command that gives the counter its expiry, and that command by
none of its kind. No other command stores anything. -/
def Follows : {β : Type} → Cmd AuthStmt DbError β → (β → Prog (Cmd AuthStmt DbError) ρ) → Prop
  | _, .exec .pool (.redisIncr k), rest =>
    expiring (rest (.ok 1)) = some k ∧ ∀ e, expiring (rest (.error e)) = none
  | _, .exec .pool (.redisExpire _ _), rest => ∀ b, expiring (rest b) = none
  | _, .exec .pool c, _ => c.storesAt = none
  | _, _, _ => False

def Shaped : Prog (Cmd AuthStmt DbError) ρ → Prop
  | .ret _ => True
  | .call c rest => Follows c rest ∧ ∀ b, Shaped (rest b)

/-- Commands by which nothing is counted and nothing is given an expiry. -/
def Plain : {β : Type} → Cmd AuthStmt DbError β → Prop
  | _, .exec .pool (.redisIncr _) => False
  | _, .exec .pool (.redisExpire _ _) => False
  | _, .exec .pool c => c.storesAt = none
  | _, _ => False

theorem follows_of_plain {β : Type} {c : Cmd AuthStmt DbError β}
    {rest : β → Prog (Cmd AuthStmt DbError) ρ} (h : Plain c) : Follows c rest := by
  cases c with
  | exec e c =>
    cases e with
    | pool =>
      cases c with
      | redisIncr k => exact h.elim
      | redisExpire k ttl => exact h.elim
      | _ => exact h
    | tx => cases c <;> exact h.elim
  | _ => exact h.elim

theorem shaped_of_plain {p : Prog (Cmd AuthStmt DbError) ρ} (h : p.Uses Plain) : Shaped p := by
  induction p with
  | ret r => trivial
  | call c rest ih => exact ⟨follows_of_plain h.1, fun b => ih b (h.2 b)⟩

theorem expiring_of_plain {p : Prog (Cmd AuthStmt DbError) ρ} (h : p.Uses Plain) :
    expiring p = none := by
  cases p with
  | ret r => rfl
  | call c rest =>
    cases c with
    | exec e c =>
      cases e with
      | pool =>
        cases c with
        | redisExpire k ttl => exact h.1.elim
        | _ => rfl
      | tx => cases c <;> rfl
    | _ => rfl

/-- A count, and what comes after it: where the count is one, the counter is given its expiry
first. -/
theorem shaped_counting {k : RedisKey} {ttl : Int}
    {rest : Except DbError Int → Prog (Cmd AuthStmt DbError) ρ}
    {last : Except DbError Unit → Prog (Cmd AuthStmt DbError) ρ}
    (hone : rest (.ok 1) = .call (.exec .pool (.redisExpire k ttl)) last)
    (hlast : ∀ b, (last b).Uses Plain) (hrest : ∀ b, b ≠ .ok 1 → (rest b).Uses Plain) :
    Shaped (.call (.exec .pool (.redisIncr k)) rest) := by
  refine ⟨?_, fun b => ?_⟩
  · refine ⟨?_, fun e => expiring_of_plain (hrest _ fun h => nomatch h)⟩
    rw [hone]
    rfl
  · by_cases hb : b = .ok 1
    · rw [hb, hone]
      exact ⟨fun b => expiring_of_plain (hlast b), fun b => shaped_of_plain (hlast b)⟩
    · exact shaped_of_plain (hrest b hb)

end Shape

section Programs

theorem plain_redis {β : Type} {c : AuthStmt β} (h : Plain (.exec (E := DbError) .pool c)) :
    Act.Uses Plain (redis c) := Act.uses_ask h

theorem plain_run {ε α : Type} {x : Txn AuthStmt DbError ε α} (h : Act.Uses Plain x) :
    (ExceptT.run x >>= fun _ => Prog.ret ()).Uses Plain :=
  Prog.uses_bind h fun _ => trivial

theorem shaped_verifyOtp (email code : String) (otpType : OtpType) :
    Shaped (ThrottleCall.prog (.verifyOtp email code otpType)) := by
  obtain ⟨f, hparts, hf⟩ := verifyOtp_parts email code otpType
  rw [ThrottleCall.prog, hparts]
  -- what comes after the counter is counted and has its expiry
  have hrest : ∀ n : Int, Act.Uses Plain (do
      refuse .tooManyRequests (n > 5)
      let found ← redis (.redisGet (.otp email otpType))
      f found) := fun n => by
    refine Act.uses_bind (uses_refuse _) fun _ => ?_
    exact Act.uses_bind (plain_redis rfl) fun found => hf (fun _ => rfl) found
  refine shaped_counting rfl ?_ ?_
  · rintro (e | a)
    · trivial
    · exact plain_run (hrest 1)
  · rintro (e | n) hn
    · trivial
    · have hne : n ≠ 1 := fun h => hn (congrArg Except.ok h)
      show (ExceptT.run (if n = 1 then _ else _) >>= fun _ => Prog.ret ()).Uses Plain
      rw [if_neg hne]
      exact plain_run (hrest n)

theorem shaped_checkReconnectRate (userId : Uuid) :
    Shaped (ThrottleCall.prog (.checkReconnectRate userId)) := by
  have hrest : ∀ n : Int, Act.Uses Plain (if n > 10 then throw .tooManyAttempts else pure () :
      WsSvc Unit) := fun n => by
    split
    · trivial
    · trivial
  refine shaped_counting rfl ?_ ?_
  · rintro (e | a)
    · exact plain_run (hrest 1)
    · exact plain_run (hrest 1)
  · rintro (e | n) hn
    · trivial
    · have hne : n ≠ 1 := fun h => hn (congrArg Except.ok h)
      show (ExceptT.run (if n = 1 then _ else _) >>= fun _ => Prog.ret ()).Uses Plain
      rw [if_neg hne]
      exact plain_run (hrest n)

theorem shaped_prog (call : ThrottleCall) : Shaped call.prog := by
  cases call with
  | verifyOtp email code otpType => exact shaped_verifyOtp email code otpType
  | checkReconnectRate userId => exact shaped_checkReconnectRate userId

end Programs

/-! ## One command -/

section Commands

variable {β : Type} {c : AuthStmt β} {db : AuthDb} {now : OffsetDateTime} {k : RedisKey}
  {e : CommandEnd}

theorem CommandEnd.exec_of_error {err : DbError} (h : authEngine.exec c now db = .error err) :
    (e.exec c now db).2 = db := by
  cases e <;> simp only [CommandEnd.exec, h]

theorem CommandEnd.exec_of_ok {b : β} {ws : List AuthWrite}
    (h : authEngine.exec c now db = .ok (b, ws)) (he : e ≠ .unsent) :
    e.exec c now db = (if e = .answered then .ok b else .error authEngine.fault,
      authEngine.applyAll db ws) := by
  cases e with
  | answered => simp [CommandEnd.exec, h]
  | unanswered => simp [CommandEnd.exec, h]
  | unsent => exact absurd rfl he

theorem CommandEnd.exec_unanswered :
    (CommandEnd.unanswered.exec c now db).1 = .error authEngine.fault := by
  unfold CommandEnd.exec
  cases authEngine.exec c now db <;> rfl

/-- A command is executed, or leaves the database alone. -/
theorem CommandEnd.exec_cases (e : CommandEnd) (c : AuthStmt β) (now : OffsetDateTime)
    (db : AuthDb) : (e.exec c now db).2 = db ∨ e ≠ .unsent ∧ ∃ b ws,
      authEngine.exec c now db = .ok (b, ws) ∧ (e.exec c now db).2 = authEngine.applyAll db ws := by
  cases hexec : authEngine.exec c now db with
  | error err => exact .inl (CommandEnd.exec_of_error hexec)
  | ok p =>
    obtain ⟨b, ws⟩ := p
    by_cases he : e = .unsent
    · subst he
      exact .inl rfl
    · refine .inr ⟨he, b, ws, rfl, ?_⟩
      rw [CommandEnd.exec_of_ok hexec he]

theorem bare_congr {db' : AuthDb} (h : db'.redis k = db.redis k) : Bare db' k ↔ Bare db k := by
  rw [Bare, Bare, h]

/-- A command makes no counter stay that it does not begin. -/
theorem bare_before (hc : c.storesAt ≠ some k) (h : Bare (e.exec c now db).2 k) : Bare db k := by
  rcases e.exec_cases c now db with hsame | ⟨-, b, ws, hexec, hdb⟩
  · rwa [hsame] at h
  · rw [hdb] at h
    by_cases hkey : c.redisKey = some k
    · obtain ⟨e', he', hnone⟩ := h
      obtain ⟨e, hthere, hvalue, halive⟩ := exec_notNewer hexec hc e' he'
      cases c with
      | redisSet k' v ttl => exact absurd hkey hc
      | redisIncr k' => exact absurd hkey hc
      | redisIncrAndExpire k' ttl => exact absurd hkey hc
      | redisDel k' =>
        cases hkey
        cases hexec
        have hgone : (authEngine.applyAll db [.redis k none]).redis k = none := if_pos rfl
        rw [hgone] at he'
        cases he'
      | redisExpire k' ttl =>
        cases hkey
        rcases redisExpire_ok hexec with ⟨-, hsame⟩ | ⟨e'', -, hset⟩
        · rw [hsame] at he'
          exact ⟨e', he', hnone⟩
        · cases hset.symm.trans he'
          cases hnone
      | _ => cases hkey
    · exact (bare_congr (exec_redis_other hexec hkey)).1 h

/-- A counter that is given its expiry does not stay. -/
theorem not_bare_expire {ttl : Int} (he : e ≠ .unsent) :
    ¬Bare (e.exec (.redisExpire k ttl) now db).2 k := by
  obtain ⟨ws, hexec⟩ : ∃ ws, authEngine.exec (.redisExpire k ttl) now db = .ok ((), ws) := ⟨_, rfl⟩
  rw [CommandEnd.exec_of_ok hexec he]
  rintro ⟨e', he', hnone⟩
  rcases redisExpire_ok hexec with ⟨hentry, hsame⟩ | ⟨e'', -, hset⟩
  · rw [hsame] at he'
    have hthere : db.redis.entry now k = some e' := by
      refine Option.filter_eq_some_iff.2 ⟨he', decide_eq_true ?_⟩
      rw [Expiring.Alive, hnone]
      exact fun t ht => nomatch ht
    rw [hentry] at hthere
    cases hthere
  · cases hset.symm.trans he'
    cases hnone

/-- `INCR` on a counter that is not found begins one that stays; on another it changes nothing of
this. -/
theorem bare_incr (h : Bare (e.exec (.redisIncr k) now db).2 k) :
    Bare db k ∨ e ≠ .unsent ∧ db.redis.entry now k = none ∧
      (e = .answered → (e.exec (.redisIncr k) now db).1 = .ok 1) := by
  rcases e.exec_cases (.redisIncr k) now db with hsame | ⟨hsent, n, ws, hexec, hdb⟩
  · rw [hsame] at h
    exact .inl h
  · rw [hdb] at h
    rcases redisIncr_ok hexec with ⟨hentry, rfl, -⟩ | ⟨m, d, hentry, -, hset⟩
    · refine .inr ⟨hsent, hentry, ?_⟩
      rintro rfl
      rw [CommandEnd.exec_of_ok hexec hsent, if_pos rfl]
    · obtain ⟨e', he', hnone⟩ := h
      cases hset.symm.trans he'
      exact .inl ⟨_, (Option.filter_eq_some_iff.1 hentry).1, hnone⟩

theorem bare_unanswered (hentry : db.redis.entry now k = none) :
    Bare (CommandEnd.unanswered.exec (.redisIncr k) now db).2 k := by
  have hexec : authEngine.exec (.redisIncr k) now db =
      .ok (1, [.redis k (some { value := .int 1, deadline := none })]) := by
    show Redis.incr db now k = _
    rw [Redis.incr, hentry]
  rw [CommandEnd.exec_of_ok hexec (by decide)]
  exact ⟨_, if_pos rfl, rfl⟩

end Commands

/-! ## Runs -/

section Runs

variable {ι : Type} [DecidableEq ι] {s : ThrottleState ι}

/-- Whether a call is about to give the counter its expiry, after call `i` has moved on. -/
theorem expiring_update {prog : ι → Prog (Cmd AuthStmt DbError) Unit} {i : ι}
    {p : Prog (Cmd AuthStmt DbError) Unit} {k : RedisKey} :
    (∃ j, expiring (Function.update prog i p j) = some k) ↔
      expiring p = some k ∨ ∃ j, j ≠ i ∧ expiring (prog j) = some k := by
  constructor
  · rintro ⟨j, hj⟩
    by_cases hji : j = i
    · rw [hji, Function.update_self] at hj
      exact .inl hj
    · rw [Function.update_of_ne hji] at hj
      exact .inr ⟨j, hji, hj⟩
  · rintro (hp | ⟨j, hji, hj⟩)
    · exact ⟨i, by rwa [Function.update_self]⟩
    · exact ⟨j, by rwa [Function.update_of_ne hji]⟩

omit [DecidableEq ι] in
/-- A call that is not about to give the counter its expiry can be left out. -/
theorem Expires.other (h : Expires s) {i : ι} {k : RedisKey} (hk : k.isThrottle = true)
    (hbare : Bare s.db k) (hi : expiring (s.prog i) ≠ some k) :
    ∃ j, j ≠ i ∧ expiring (s.prog j) = some k := by
  obtain ⟨j, hj⟩ := h k hk hbare
  refine ⟨j, ?_, hj⟩
  rintro rfl
  exact hi hj

variable {i : ι} {e : CommandEnd} {β : Type} {c : AuthStmt β}
  {rest : Except DbError β → Prog (Cmd AuthStmt DbError) Unit}

theorem command_eq (hp : s.prog i = .call (.exec .pool c) rest) : s.step (.command i e) = {
    db := (e.exec c s.now s.db).2
    now := s.now
    prog := Function.update s.prog i (rest (e.exec c s.now s.db).1) } := by
  simp only [ThrottleState.step, ThrottleState.command, hp]

/-- A command that neither counts nor gives an expiry. -/
theorem expires_plain (h : Expires s) (hp : s.prog i = .call (.exec .pool c) rest)
    (hexpiring : expiring (s.prog i) = none) (hc : c.storesAt = none) :
    Expires (s.step (.command i e)) := by
  rw [command_eq hp]
  intro k hk hbare
  refine expiring_update.2 (.inr (h.other hk (bare_before ?_ hbare) ?_))
  · rw [hc]
    exact (Option.some_ne_none k).symm
  · rw [hexpiring]
    exact (Option.some_ne_none k).symm

theorem expires_expire {key : RedisKey} {ttl : Int}
    {rest : Except DbError Unit → Prog (Cmd AuthStmt DbError) Unit} (h : Expires s)
    (hp : s.prog i = .call (.exec .pool (.redisExpire key ttl)) rest)
    (hrest : ∀ b, expiring (rest b) = none) :
    Expires (s.step (.command i e)) ↔ CarriesOn s (.command i e) := by
  have hi : expiring (s.prog i) = some key := by rw [hp]; rfl
  have hcounting : counting (s.prog i) = none := by rw [hp]; rfl
  rw [command_eq hp]
  -- the other counters have their calls
  have hothers : ∀ k, k.isThrottle = true → k ≠ key →
      Bare (e.exec (.redisExpire key ttl) s.now s.db).2 k →
      ∃ j, j ≠ i ∧ expiring (s.prog j) = some k := by
    intro k hk hne hbare
    have hstores : (AuthStmt.redisExpire key ttl).storesAt ≠ some k := (Option.some_ne_none k).symm
    refine h.other hk (bare_before hstores hbare) ?_
    rw [hi]
    exact fun h => hne (Option.some.inj h).symm
  by_cases he : e = .unsent
  · subst he
    constructor
    · intro hafter k hk hik hbare
      have hkey : k = key := Option.some.inj (hik.symm.trans hi)
      rcases expiring_update.1 (hafter k hk hbare) with hnone | hother
      · rw [hrest] at hnone
        cases hnone
      · exact hother
    · intro hon k hk hbare
      refine expiring_update.2 (.inr ?_)
      by_cases hkey : k = key
      · subst hkey
        exact hon k hk hi hbare
      · exact hothers k hk hkey hbare
  · have hon : CarriesOn s (.command i e) := by
      cases e with
      | answered => trivial
      | unanswered =>
        intro k _ hcount
        rw [hcounting] at hcount
        cases hcount
      | unsent => exact absurd rfl he
    refine iff_of_true (fun k hk hbare => expiring_update.2 (.inr (hothers k hk ?_ hbare))) hon
    rintro rfl
    exact not_bare_expire he hbare

theorem expires_incr {key : RedisKey}
    {rest : Except DbError Int → Prog (Cmd AuthStmt DbError) Unit} (h : Expires s)
    (hp : s.prog i = .call (.exec .pool (.redisIncr key)) rest)
    (hone : expiring (rest (.ok 1)) = some key) (herror : ∀ e, expiring (rest (.error e)) = none) :
    Expires (s.step (.command i e)) ↔ CarriesOn s (.command i e) := by
  have hi : ∀ k, expiring (s.prog i) ≠ some k := by
    intro k hk
    rw [hp] at hk
    cases hk
  have hcounting : counting (s.prog i) = some key := by rw [hp]; rfl
  rw [command_eq hp]
  constructor
  · intro hafter
    cases e with
    | answered => trivial
    | unsent => exact fun k _ hk => absurd hk (hi k)
    | unanswered =>
      intro k hk hcount hentry
      obtain rfl : key = k := Option.some.inj (hcounting.symm.trans hcount)
      rcases expiring_update.1 (hafter key hk (bare_unanswered hentry)) with hnone | ⟨j, -, hj⟩
      · rw [CommandEnd.exec_unanswered, herror] at hnone
        cases hnone
      · exact ⟨j, hj⟩
  · intro hon k hk hbare
    refine expiring_update.2 ?_
    by_cases hkey : k = key
    · subst hkey
      rcases bare_incr hbare with hbefore | ⟨hsent, hentry, hanswer⟩
      · exact .inr (h.other hk hbefore (hi k))
      · cases e with
        | unsent => exact absurd rfl hsent
        | answered =>
          rw [hanswer rfl]
          exact .inl hone
        | unanswered =>
          obtain ⟨j, hj⟩ := hon k hk hcounting hentry
          refine .inr ⟨j, ?_, hj⟩
          rintro rfl
          exact hi k hj
    · refine .inr (h.other hk (bare_before ?_ hbare) (hi k))
      exact fun h => hkey (Option.some.inj h).symm

theorem expires_command (h : Expires s) (hshaped : Shaped (s.prog i)) :
    Expires (s.step (.command i e)) ↔ CarriesOn s (.command i e) := by
  have hidle : counting (s.prog i) = none → expiring (s.prog i) = none →
      CarriesOn s (.command i e) := by
    intro hcounting hexpiring
    cases e with
    | answered => trivial
    | unanswered =>
      intro k _ hk
      rw [hcounting] at hk
      cases hk
    | unsent =>
      intro k _ hk
      rw [hexpiring] at hk
      cases hk
  cases hp : s.prog i with
  | ret r =>
    have hsame : s.step (.command i e) = s := by
      simp only [ThrottleState.step, ThrottleState.command, hp]
    rw [hsame]
    exact iff_of_true h (hidle (by rw [hp]; rfl) (by rw [hp]; rfl))
  | call c rest =>
    rw [hp] at hshaped
    cases c with
    | begin => exact hshaped.1.elim
    | commit => exact hshaped.1.elim
    | exec ex c =>
      cases ex with
      | tx => cases c <;> exact hshaped.1.elim
      | pool =>
        cases c with
        | redisIncr k => exact expires_incr h hp hshaped.1.1 hshaped.1.2
        | redisExpire k ttl => exact expires_expire h hp hshaped.1
        | _ =>
          refine iff_of_true (expires_plain h hp (by rw [hp]; rfl) hshaped.1) ?_
          exact hidle (by rw [hp]; rfl) (by rw [hp]; rfl)

theorem expires_step (h : Expires s) (hshaped : ∀ i, Shaped (s.prog i)) (e : ThrottleEvent ι) :
    Expires (s.step e) ↔ CarriesOn s e := by
  cases e with
  | command i e => exact expires_command h (hshaped i)
  | stop i =>
    constructor
    · intro hafter k hk _ hbare
      rcases expiring_update.1 (hafter k hk hbare) with hret | hother
      · cases hret
      · exact hother
    · intro hon k hk hbare
      refine expiring_update.2 (.inr ?_)
      by_cases hi : expiring (s.prog i) = some k
      · exact hon k hk hi hbare
      · exact h.other hk hbare hi
  | elsewhere db seconds =>
    refine iff_of_true (fun k hk hbare => h k hk ?_) trivial
    exact (bare_congr (if_pos hk)).1 hbare

theorem shaped_step (hshaped : ∀ i, Shaped (s.prog i)) (e : ThrottleEvent ι) :
    ∀ i, Shaped ((s.step e).prog i) := by
  have hupdate : ∀ i {p}, Shaped p → ∀ j, Shaped (Function.update s.prog i p j) := by
    intro i p hp j
    by_cases hji : j = i
    · rwa [hji, Function.update_self]
    · rw [Function.update_of_ne hji]
      exact hshaped j
  cases e with
  | command i e =>
    intro j
    cases hp : s.prog i with
    | ret r =>
      simp only [ThrottleState.step, ThrottleState.command, hp]
      exact hshaped j
    | call c rest =>
      have hi := hshaped i
      rw [hp] at hi
      cases c with
      | begin => exact hi.1.elim
      | commit => exact hi.1.elim
      | exec ex c =>
        cases ex with
        | tx => cases c <;> exact hi.1.elim
        | pool =>
          rw [command_eq hp]
          exact hupdate i (hi.2 _) j
  | stop i => exact hupdate i trivial
  | elsewhere db seconds => exact hshaped

omit [DecidableEq ι] in
theorem expires_start (calls : ι → ThrottleCall) (db : AuthDb) (now : OffsetDateTime) :
    Expires (ThrottleState.start calls db now) := by
  rintro k _ ⟨e, he, -⟩
  cases he

/-- In which runs every counter has an expiry in every state, but for those that a running call is
about to give one. -/
theorem throttles_expire_iff (calls : ι → ThrottleCall) (db : AuthDb) (now : OffsetDateTime)
    (es : List (ThrottleEvent ι)) :
    (∀ n, Expires ((es.take n).foldl ThrottleState.step (.start calls db now))) ↔
      Along ThrottleState.step CarriesOn (.start calls db now) es := by
  have hiff : Along ThrottleState.step (fun s e => Expires (s.step e))
      (ThrottleState.start calls db now) es ↔
      Along ThrottleState.step CarriesOn (ThrottleState.start calls db now) es :=
    Along.iff_of_invariant (I := fun s : ThrottleState ι => Expires s ∧ ∀ i, Shaped (s.prog i))
      (fun s e hs => expires_step hs.1 hs.2 e)
      (fun s e hs hon => ⟨(expires_step hs.1 hs.2 e).2 hon, shaped_step hs.2 e⟩)
      ⟨expires_start calls db now, fun i => shaped_prog (calls i)⟩
  rw [forall_take_iff, hiff]
  exact and_iff_right (expires_start calls db now)

end Runs

/-! ## A user who is locked out for ever -/

section Examples

/-- Ann's socket reconnects. -/
def annReconnects : Unit → ThrottleCall := fun _ => .checkReconnectRate ⟨7⟩

/-- The second command does not get to Redis, and the call goes on as if nothing was the matter. -/
def expiryLost : List (ThrottleEvent Unit) := [.command () .answered, .command () .unsent]

theorem locked_out : ¬∀ (calls : Unit → ThrottleCall) (db : AuthDb) (now : OffsetDateTime)
    (es : List (ThrottleEvent Unit)) (n : Nat),
    Expires ((es.take n).foldl ThrottleState.step (.start calls db now)) := by
  intro h
  obtain ⟨i, hi⟩ := h annReconnects .empty 0 expiryLost 2 (.reconnectRate ⟨7⟩) rfl ⟨_, rfl, rfl⟩
  have hdone : (expiryLost.foldl ThrottleState.step (.start annReconnects .empty 0)).prog i =
      .ret () := rfl
  rw [show expiryLost.take 2 = expiryLost from rfl, hdone] at hi
  cases hi

end Examples

end Auth

end Meno
