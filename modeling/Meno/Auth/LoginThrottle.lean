import Meno.Auth.Commands
import Meno.Auth.Google

/-!
# Meno.Auth.LoginThrottle

How many logins for one address get past `check_login_rate_limit`, whatever their interleaving. The
script counts an attempt and gives the counter that it begins its expiry in one command, so there is
no counter without one. A login whose password is accepted deletes the counter before it looks up
the providers and stores its token; one that fails there has let the count begin again. In the runs
in which none comes that far the throttle holds (`logins_throttled`).
-/

namespace Meno

namespace Auth

open Lib

/-! ## Calls -/

/-- A login for the address; `ids` are the ids that it draws. -/
structure LoginAttempt where
  password : String
  dummyHash : String
  ids : FreshIds

/-- The history: until when the attempts are counted since the first of them, and how many of them
got past the check. -/
structure Admissions where
  deadline : Option OffsetDateTime
  passed : Nat

section Recording

variable {ι : Type} (email : String)

/-- The answer with which a call gets past `check_login_rate_limit`. -/
def getsPast : Option Int → Nat
  | some count => if count > maxLoginAttempts then 0 else 1
  | none => 0

/-- The first counted attempt, and the first one after the counter has expired, begin to count. -/
def noteLogin : Recorder Admissions ι
  | _, _, .redisIncrAndExpire k ttl, count, s =>
    if k = .loginAttempts email then
      if s.past.deadline.all (· < s.now) then
        { deadline := some (s.now + ttl * second), passed := getsPast count }
      else { s.past with passed := s.past.passed + getsPast count }
    else s.past
  | _, _, _, _, s => s.past

/-- From the first counted attempt until the counter expires not too many got past the check, and
the counter is never there without an expiry within the window. -/
structure Throttled (s : Recorded Admissions) : Prop where
  bounded : s.past.passed ≤ 10
  expires : ∀ e, s.db.redis (.loginAttempts email) = some e →
    ∃ d, e.deadline = some d ∧ d ≤ s.now + ttlRateWindowSecs * second

/-- Not the command by which a login whose password was accepted deletes the counter. -/
def NotClearing : {β : Type} → Cmd AuthStmt DbError β → Prop
  | _, .exec _ (.redisDel _) => False
  | _, _ => True

def ExecNotClearing (i : ι) {β : Type} (c : Cmd AuthStmt DbError β) (s : Recorded Admissions) (b : β)
    (s' : Recorded Admissions) : Prop :=
  CommandExec (noteLogin email) i c s b s' ∧ NotClearing c

end Recording

section Calls

variable {τ ι : Type} (ts : TokenService τ)

abbrev LoginPool (τ ι : Type) :=
  Pool (Recorded Admissions) (Cmd AuthStmt DbError) (Except AuthError (AuthResponse τ)) ι

/-- All the logins are about to begin, and Redis is empty. -/
def nobodyLogsIn (email : String) (logins : ι → LoginAttempt) (db : AuthDb) (now : OffsetDateTime) :
    LoginPool τ ι where
  store := {
    db := { db with redis := .empty }
    now
    past := { deadline := none, passed := 0 } }
  prog i := ExceptT.run
    (AuthService.login ts email (logins i).password (logins i).dummyHash (logins i).ids)

end Calls

/-! ## What a login does with the counter -/

section Programs

variable {τ : Type} {ts : TokenService τ} {email : String}

/-- The counter is written by the script and by the deletion only. -/
def CountsLogin (email : String) : {β : Type} → Cmd AuthStmt DbError β → Prop
  | _, .exec _ (.redisIncrAndExpire k ttl) => k = .loginAttempts email ∧ ttl = ttlRateWindowSecs
  | _, .exec _ (.redisDel _) => True
  | _, .exec _ c => c.redisKey = none
  | _, _ => True

theorem countsLogin_ask {β : Type} {wrap : DbError → AuthError} {c : AuthStmt β}
    (h : CountsLogin email (.exec (E := DbError) .pool c)) :
    Act.Uses (CountsLogin email) (Act.ask wrap (.exec .pool c) : AuthSvc β) := Act.uses_ask h

theorem countsLogin_issue {user : User} {providers : List AuthProvider} {ids : FreshIds} :
    Act.Uses (CountsLogin email) (AuthService.issue ts user providers ids) := by
  refine Act.uses_bind ?_ fun pair => Act.uses_pure _
  refine Act.uses_bind (Act.uses_bind (countsLogin_ask rfl) fun _ => Act.uses_pure _) fun _ => ?_
  refine Act.uses_bind (countsLogin_ask rfl) fun now => ?_
  refine Act.uses_bind (countsLogin_ask rfl) fun nowUnix => ?_
  exact Act.uses_bind (countsLogin_ask rfl) fun _ => Act.uses_pure _

theorem countsLogin_login {password dummyHash : String} {ids : FreshIds} :
    Act.Uses (CountsLogin email) (AuthService.login ts email password dummyHash ids) := by
  refine Act.uses_bind ?_ fun _ => ?_
  · exact Act.uses_bind (countsLogin_ask ⟨rfl, rfl⟩) fun count => uses_refuse _
  refine Act.uses_bind (countsLogin_ask rfl) fun identity => ?_
  refine Act.uses_bind (uses_okOr _) fun identity => ?_
  refine Act.uses_bind (uses_refuse _) fun _ => ?_
  refine Act.uses_bind (countsLogin_ask rfl) fun user => ?_
  refine Act.uses_bind (uses_okOr _) fun user => ?_
  refine Act.uses_bind (uses_refuse _) fun _ => ?_
  refine Act.uses_bind (Act.uses_attempt (countsLogin_ask trivial)) fun _ => ?_
  exact Act.uses_bind (countsLogin_ask rfl) fun providers => countsLogin_issue

end Programs

/-! ## Counter and history -/

section Runs

variable {ι : Type} {email : String} {s s' : Recorded Admissions}

/-- The counter is there since the first counted attempt, with its expiry, and has counted those
that got past the check. -/
def CountedSince (email : String) (s : Recorded Admissions) : Prop :=
  s.db.redis (.loginAttempts email) = none ∧ s.past.deadline = none ∧ s.past.passed = 0 ∨
    ∃ (m : Int) (d : OffsetDateTime),
      s.db.redis (.loginAttempts email) = some { value := .int m, deadline := some d } ∧
      s.past.deadline = some d ∧ (s.past.passed : Int) ≤ m ∧ s.past.passed ≤ 10 ∧
      d ≤ s.now + ttlRateWindowSecs * second

theorem CountedSince.throttled (h : CountedSince email s) : Throttled email s := by
  rcases h with ⟨hnone, -, hpassed⟩ | ⟨m, d, hsome, -, -, hten, hd⟩
  · refine ⟨by omega, fun e he => ?_⟩
    rw [hnone] at he
    cases he
  · refine ⟨hten, fun e he => ?_⟩
    rw [hsome] at he
    cases he
    exact ⟨d, rfl, hd⟩

/-- The counter as it is, some time later. -/
theorem CountedSince.congr (h : CountedSince email s)
    (hkey : s'.db.redis (.loginAttempts email) = s.db.redis (.loginAttempts email))
    (hpast : s'.past = s.past) (hnow : s.now ≤ s'.now) : CountedSince email s' := by
  rw [CountedSince, hkey, hpast]
  rcases h with hnone | ⟨m, d, hsome, hd, hm, hten, hle⟩
  · exact .inl hnone
  · exact .inr ⟨m, d, hsome, hd, hm, hten, hle.trans (Int.add_le_add_right hnow _)⟩

theorem getsPast_le (count : Option Int) : getsPast count ≤ 1 := by
  cases count with
  | none => exact Nat.zero_le 1
  | some count =>
    simp only [getsPast]
    split <;> omega

theorem getsPast_of_gt {count : Option Int} {n : Int} (h : ∀ m ∈ count, m = n) (hn : 10 < n) :
    getsPast count = 0 := by
  cases count with
  | none => rfl
  | some m =>
    rw [h m rfl]
    exact if_pos hn

/-- An attempt is counted; its call is told or not. -/
theorem CountedSince.incr {i : ι} {n : Int} {count : Option Int} {ws : List AuthWrite}
    (h : CountedSince email s)
    (hexec : authEngine.exec (.redisIncrAndExpire (.loginAttempts email) ttlRateWindowSecs) s.now
      s.db = .ok (n, ws)) (hcount : ∀ m ∈ count, m = n) :
    CountedSince email (s.executed (noteLogin email) i
      (.redisIncrAndExpire (.loginAttempts email) ttlRateWindowSecs) count ws) := by
  have hone := getsPast_le count
  have hpast : (s.executed (noteLogin email) i
      (.redisIncrAndExpire (.loginAttempts email) ttlRateWindowSecs) count ws).past =
        if s.past.deadline.all (· < s.now) then
          { deadline := some (s.now + ttlRateWindowSecs * second), passed := getsPast count }
        else { s.past with passed := s.past.passed + getsPast count } := if_pos rfl
  rcases redisIncrAndExpire_ok hexec with ⟨hnone, rfl, hset⟩ | ⟨m, d, hentry, rfl, hset⟩
  · -- the first attempt, or the first one after the counter has expired
    have hfirst : s.past.deadline.all (· < s.now) = true := by
      rcases h with ⟨-, hd, -⟩ | ⟨m, d, hsome, hd, -⟩
      · rw [hd]
        rfl
      · rw [hd]
        by_contra hlate
        have halive : s.now ≤ d := by simpa using hlate
        have hthere : s.db.redis.entry s.now (.loginAttempts email) =
            some { value := .int m, deadline := some d } := by
          refine Option.filter_eq_some_iff.2 ⟨hsome, decide_eq_true ?_⟩
          rintro t ⟨⟩
          exact halive
        rw [hnone] at hthere
        cases hthere
    rw [hfirst, if_pos rfl] at hpast
    refine .inr ⟨1, _, hset, ?_, ?_, ?_, le_rfl⟩
    · rw [hpast]
    · rw [hpast]
      dsimp only
      omega
    · rw [hpast]
      dsimp only
      omega
  · obtain ⟨hthere, halive⟩ := Option.filter_eq_some_iff.1 hentry
    rcases h with ⟨hno, -⟩ | ⟨m', d', hsome, hd, hm, hten, hle⟩
    · rw [hno] at hthere
      cases hthere
    · cases hsome.symm.trans hthere
      have hnow : s.now ≤ d' := of_decide_eq_true halive d' rfl
      have hrunning : s.past.deadline.all (· < s.now) = false := by
        rw [hd]
        simpa using hnow
      rw [hrunning, if_neg Bool.false_ne_true] at hpast
      have hten' : s.past.passed + getsPast count ≤ 10 := by
        by_cases hbig : 10 < m + 1
        · rw [getsPast_of_gt hcount hbig]
          exact hten
        · omega
      refine .inr ⟨m + 1, d', hset, ?_, ?_, ?_, hle⟩
      · rw [hpast]
        exact hd
      · rw [hpast]
        dsimp only
        omega
      · rw [hpast]
        exact hten'

theorem CountedSince.executed {β : Type} {i : ι} {c : AuthStmt β} {b : β} {o : Option β}
    {ws : List AuthWrite} (h : CountedSince email s)
    (hexec : authEngine.exec c s.now s.db = .ok (b, ws)) (ho : ∀ a ∈ o, a = b)
    (hc : CountsLogin email (.exec (E := DbError) .pool c))
    (hclear : NotClearing (.exec (E := DbError) .pool c)) :
    CountedSince email (s.executed (noteLogin email) i c o ws) := by
  cases c with
  | redisIncrAndExpire k ttl =>
    obtain ⟨rfl, rfl⟩ := hc
    exact h.incr hexec ho
  | redisDel k => exact hclear.elim
  | _ =>
    refine h.congr (exec_redis_other hexec ?_) rfl le_rfl
    rw [show AuthStmt.redisKey _ = none from hc]
    exact Option.some_ne_none _ ∘ Eq.symm

theorem CountedSince.exec {β : Type} {i : ι} {c : Cmd AuthStmt DbError β} {b : β}
    (h : CountedSince email s) (hc : CountsLogin email c)
    (hs : ExecNotClearing email i c s b s') : CountedSince email s' := by
  obtain ⟨hexec, hclear⟩ := hs
  cases hexec with
  | answered hok => exact h.executed hok (fun _ ha => (Option.some.inj ha).symm) hc hclear
  | unanswered hok => exact h.executed hok (fun _ ha => nomatch ha) hc hclear
  | refused _ => exact h
  | unsent => exact h

theorem CountedSince.elsewhere (h : CountedSince email s)
    (henv : Elsewhere (· = .loginAttempts email) s s') : CountedSince email s' := by
  obtain ⟨db, now, rfl, hnow, hkeys⟩ := henv
  exact h.congr (hkeys _ rfl) rfl hnow

/-- In the runs in which no login has its password accepted, whatever their interleaving and
whichever commands fail, at most ten logins get past the check from the first counted attempt until
the counter expires, and the counter is never there without an expiry. -/
theorem logins_throttled {τ : Type} [DecidableEq ι] (ts : TokenService τ) (email : String)
    (logins : ι → LoginAttempt) (db : AuthDb) (now : OffsetDateTime) {p : LoginPool τ ι}
    (hruns : Pool.Steps (ExecNotClearing email) (Elsewhere (· = .loginAttempts email))
      (nobodyLogsIn ts email logins db now) p) : Throttled email p.store := by
  have houtlined : p.Outlined (fun _ {_} c (_ : Unit) => CountsLogin email c)
      (fun _ {_} _ _ g => g) (fun _ _ _ => True) (fun s _ => CountedSince email s) := by
    refine Pool.outlined_of_steps ?_ ?_ hruns ?_
    · intro i β c s b s' g hpre hs hinv
      exact hinv.exec hpre hs
    · intro s s' g hs hinv
      exact hinv.elsewhere hs
    · refine ⟨fun _ => (), .inl ⟨rfl, rfl, rfl⟩, fun i => ?_⟩
      exact Act.outline_of_neutral (fun _ _ hc => hc) (fun _ _ _ _ => rfl) countsLogin_login
        fun _ => trivial
  obtain ⟨g, hinv, -⟩ := houtlined
  exact hinv.throttled

end Runs

/-! ## A login that fails after its password was accepted -/

section Examples

/-- Ann has registered with a password and is verified. -/
def annWithPassword : AuthDb :=
  { registered "ann@meno" with
    identities := (Table.empty : Table UserIdentity UserIdentity.id).put {
      id := ⟨1⟩, userId := ⟨0⟩, providerType := .email, providerUserId := "ann@meno"
      passwordHash := some "Secret12", createdAt := 0, updatedAt := none } }

/-- One login with Ann's password, and any number with another. -/
def annsLogins : Nat → LoginAttempt
  | 0 => { password := "Secret12", dummyHash := "", ids := nthIds 1 }
  | n => { password := "Wrong123", dummyHash := "", ids := nthIds (n + 1) }

/-- The lookup of the providers does not get to the database. -/
def answerLogin (i : Nat) : {β : Type} → Cmd AuthStmt DbError β → Recorded Admissions →
    β × Recorded Admissions
  | _, .exec .pool (.findUserProviders _), s => (.error authEngine.fault, s)
  | _, c, s => Recorded.answer (noteLogin "ann@meno") i c s

def playLogins (schedule : List Nat) : LoginPool (String × Payload) Nat :=
  (schedule.map Pool.Turn.call).foldl (Pool.turn (E := Nat) answerLogin Recorded.later)
    (nobodyLogsIn .transparent "ann@meno" annsLogins annWithPassword 0)

/-- Eleven wrong passwords. -/
def elevenWrong : List Nat := [1, 2, 3, 4, 5, 6, 7, 8, 9, 10, 11]

/-- The right password first, with which the counter is deleted, and ten wrong ones. -/
def rightAndTenWrong : List Nat := [0, 0, 0, 0, 0, 1, 2, 3, 4, 5, 6, 7, 8, 9, 10]

theorem commandExec_login {i : Nat} {β : Type} {c : Cmd AuthStmt DbError β}
    {s : Recorded Admissions} (hc : isPooled c = true) :
    CommandExec (noteLogin "ann@meno") i c s (answerLogin i c s).1 (answerLogin i c s).2 := by
  cases c with
  | exec e c =>
    cases e with
    | pool =>
      cases c with
      | findUserProviders u => exact .unsent
      | _ => exact commandExec_answer hc
    | tx => cases hc
  | _ => cases hc

/-- Outside of transactions, and no deletion. -/
def isUnclearing : {β : Type} → Cmd AuthStmt DbError β → Bool
  | _, .exec .pool (.redisDel _) => false
  | _, c => isPooled c

theorem execNotClearing_login {i : Nat} {β : Type} {c : Cmd AuthStmt DbError β}
    {s : Recorded Admissions} (hc : isUnclearing c = true) :
    ExecNotClearing "ann@meno" i c s (answerLogin i c s).1 (answerLogin i c s).2 := by
  cases c with
  | exec e c =>
    cases e with
    | pool =>
      cases c with
      | redisDel k => cases hc
      | _ => exact ⟨commandExec_login rfl, trivial⟩
    | tx => cases c <;> cases hc
  | _ => cases hc

/-- The eleventh wrong password is not looked at. -/
theorem eleventh_login_refused :
    (playLogins elevenWrong).prog 11 = .ret (.error .tooManyRequests) ∧
      Throttled "ann@meno" (playLogins elevenWrong).store := by
  refine ⟨rfl, logins_throttled .transparent "ann@meno" annsLogins annWithPassword 0 ?_⟩
  refine Pool.steps_turns (fun _ _ _ _ hc => execNotClearing_login hc)
    (fun s n => elsewhere_later s n) ?_
  exact ⟨rfl, rfl, rfl, rfl, rfl, rfl, rfl, rfl, rfl, rfl, rfl, trivial⟩

/-- None of the logins succeeds, and eleven get past the check in the same second. -/
theorem eleven_admitted : ¬∀ (ts : TokenService (String × Payload)) (email : String)
    (logins : Nat → LoginAttempt) (db : AuthDb) (now : OffsetDateTime)
    (p : LoginPool (String × Payload) Nat),
    Pool.Steps (CommandExec (noteLogin email)) (Elsewhere (· = .loginAttempts email))
      (nobodyLogsIn ts email logins db now) p → (∀ i r, p.prog i ≠ .ret (.ok r)) →
        Throttled email p.store := by
  intro h
  have hruns : Pool.Steps (CommandExec (noteLogin "ann@meno"))
      (Elsewhere (· = .loginAttempts "ann@meno"))
      (nobodyLogsIn .transparent "ann@meno" annsLogins annWithPassword 0)
      (playLogins rightAndTenWrong) := by
    refine Pool.steps_turns (fun _ _ _ _ hc => commandExec_login hc)
      (fun s n => elsewhere_later s n) ?_
    exact ⟨rfl, rfl, rfl, rfl, rfl, rfl, rfl, rfl, rfl, rfl, rfl, rfl, rfl, rfl, rfl, trivial⟩
  have hthrottled := h _ _ _ _ _ _ hruns ?_
  · have heleven : (playLogins rightAndTenWrong).store.past.passed = 11 := rfl
    have hbound := hthrottled.bounded
    rw [heleven] at hbound
    exact absurd hbound (by decide)
  · intro i r
    match i with
    | 0 => exact fun he => nomatch he
    | 1 | 2 | 3 | 4 | 5 | 6 | 7 | 8 | 9 | 10 => exact fun he => nomatch he
    | n + 11 => exact fun he => nomatch he

end Examples

end Auth

end Meno
