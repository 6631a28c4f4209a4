import Meno.Auth.Blocklist
import Meno.Lib.Pool

/-!
# Meno.Auth.OneTime

One-time passwords and OAuth states, stored and used by any number of calls at the same time. A call
reads the secret, compares it and deletes it in commands of their own, so until the `DEL` is done
another call can find the secret, too; the runs in which none does use every secret once
(`secrets_work_once`).
-/

namespace Meno

namespace Auth

open Lib

/-! ## Calls -/

inductive SecretCall where
  | storeOtp (email otp : String) (otpType : OtpType)
  | verifyOtp (email code : String) (otpType : OtpType)
  | revokeOtp (email : String) (otpType : OtpType)
  | storeOauthState (state verifier : String)
  | consumeOauthState (state : String)
deriving DecidableEq

namespace SecretCall

/-- The call's answer: whether it has used a secret. -/
def prog : SecretCall → AuthSvc Bool
  | .storeOtp email otp otpType => do
    AuthCache.storeOtp email otp otpType
    return false
  | .verifyOtp email code otpType => AuthCache.verifyOtp email code otpType
  | .revokeOtp email otpType => do
    AuthCache.revokeOtp email otpType
    return false
  | .storeOauthState state verifier => do
    AuthCache.storeOauthState state verifier
    return false
  | .consumeOauthState state => do
    let _ ← AuthCache.consumeOauthState state
    return true

/-- Where the secret is that the call uses. -/
def target : SecretCall → Option RedisKey
  | .verifyOtp email _ otpType => some (.otp email otpType)
  | .consumeOauthState state => some (.oauth2State state)
  | _ => none

/-- Whether the call takes what it finds there. -/
def accepts : SecretCall → RedisValue → Bool
  | .verifyOtp _ code _, .text s => s = code
  | .consumeOauthState _, .oauth _ => true
  | _, _ => false

end SecretCall

/-- The keys of secrets. -/
def RedisKey.isSecret : RedisKey → Bool
  | .otp _ _ => true
  | .oauth2State _ => true
  | _ => false

theorem SecretCall.isSecret_target {call : SecretCall} {k : RedisKey} (h : call.target = some k) :
    k.isSecret = true := by
  cases call with
  | verifyOtp email code otpType =>
    cases h
    rfl
  | consumeOauthState state =>
    cases h
    rfl
  | _ => cases h

/-! ## Commands -/

/-- The key under which the statement stores a value. -/
def AuthStmt.storesAt : {β : Type} → AuthStmt β → Option RedisKey
  | _, .redisSet k _ _ => some k
  | _, .redisIncr k => some k
  | _, .redisIncrAndExpire k _ => some k
  | _, _ => none

def AuthStmt.deletesAt : {β : Type} → AuthStmt β → Option RedisKey
  | _, .redisDel k => some k
  | _, _ => none

/-- Redis and the database with a history: how often each key has been stored; the stored value that
each call has found and taken; and whether it has not deleted it yet. -/
structure SecretStore (ι : Type) where
  db : AuthDb
  now : OffsetDateTime
  version : RedisKey → Nat
  found : ι → Option Nat
  holding : ι → Bool

section Store

variable {ι : Type} [DecidableEq ι] (calls : ι → SecretCall) (i : ι)

namespace SecretStore

/-- The statement of call `i` is executed. -/
def executed {β : Type} (s : SecretStore ι) (c : AuthStmt β) (ws : List AuthWrite) :
    SecretStore ι where
  db := authEngine.applyAll s.db ws
  now := s.now
  version k := if c.storesAt = some k then s.version k + 1 else s.version k
  found := s.found
  holding j := if j = i ∧ c.deletesAt = (calls i).target then false else s.holding j

/-- Call `i` has found what is stored under the key. -/
def took (s : SecretStore ι) (k : RedisKey) : SecretStore ι :=
  { s with
    found := Function.update s.found i (some (s.version k))
    holding := Function.update s.holding i true }

/-- Call `i` is answered. -/
def told (s : SecretStore ι) : {β : Type} → AuthStmt β → β → SecretStore ι
  | _, .redisGet k, some v =>
    if (calls i).target = some k ∧ (calls i).accepts v then s.took i k else s
  | _, _, _ => s

variable {i} {s : SecretStore ι} {k : RedisKey}

theorem found_took {j : ι} {v : Nat} (h : (s.took i k).found j = some v) :
    j = i ∧ v = s.version k ∨ j ≠ i ∧ s.found j = some v := by
  by_cases hj : j = i
  · simp only [took, hj, Function.update_self, Option.some.injEq] at h
    exact .inl ⟨hj, h.symm⟩
  · simp only [took, Function.update_of_ne hj] at h
    exact .inr ⟨hj, h⟩

end SecretStore

/-- A command is executed and answered; executed, and the answer is lost; refused; or it does not get
to Redis. -/
inductive SecretExec : {β : Type} → Cmd AuthStmt DbError β → SecretStore ι → β → SecretStore ι → Prop
  | answered {β : Type} {c : AuthStmt β} {s : SecretStore ι} {b : β} {ws : List AuthWrite}
      (h : authEngine.exec c s.now s.db = .ok (b, ws)) :
      SecretExec (.exec .pool c) s (.ok b) ((s.executed calls i c ws).told calls i c b)
  | unanswered {β : Type} {c : AuthStmt β} {s : SecretStore ι} {b : β} {ws : List AuthWrite}
      (h : authEngine.exec c s.now s.db = .ok (b, ws)) :
      SecretExec (.exec .pool c) s (.error authEngine.fault) (s.executed calls i c ws)
  | refused {β : Type} {c : AuthStmt β} {s : SecretStore ι} {e : DbError}
      (h : authEngine.exec c s.now s.db = .error e) : SecretExec (.exec .pool c) s (.error e) s
  | unsent {β : Type} {c : AuthStmt β} {s : SecretStore ι} :
      SecretExec (.exec .pool c) s (.error authEngine.fault) s

/-- Time passes, secrets expire, and anything happens to what is not a secret. -/
def SecretEnv (s s' : SecretStore ι) : Prop :=
  ∃ db now, s' = { s with db, now } ∧
    ∀ k, k.isSecret = true → db.redis k = s.db.redis k ∨ db.redis k = none

/-- The call does not find a secret that another call has found and not deleted yet. -/
def Apart : {β : Type} → Cmd AuthStmt DbError β → SecretStore ι → Prop
  | _, .exec _ (.redisGet k), s => ∀ v, s.db.redis.find s.now k = some v →
    (calls i).target = some k → (calls i).accepts v = true →
    ∀ j, j ≠ i → (calls j).target = some k → s.holding j = true → s.found j ≠ some (s.version k)
  | _, _, _ => True

/-- The commands of which each is executed apart. -/
def ExecApart {β : Type} (c : Cmd AuthStmt DbError β) (s : SecretStore ι) (b : β)
    (s' : SecretStore ι) : Prop :=
  SecretExec calls i c s b s' ∧ Apart calls i c s

end Store

abbrev SecretPool (ι : Type) :=
  Pool (SecretStore ι) (Cmd AuthStmt DbError) (Except AuthError Bool) ι

section Runs

variable {ι : Type}

/-- All the calls are about to begin. -/
def aboutToBegin (calls : ι → SecretCall) (db : AuthDb) (now : OffsetDateTime) : SecretPool ι where
  store := {
    db, now
    version := fun _ => 0
    found := fun _ => none
    holding := fun _ => false }
  prog i := ExceptT.run (calls i).prog

/-- The call has been answered that it has used its secret. -/
def Used (p : SecretPool ι) (i : ι) : Prop := p.prog i = .ret (.ok true)

/-- Each call that has used a secret has used one that was stored, and no other call the same. -/
structure WorkOnce (calls : ι → SecretCall) (p : SecretPool ι) : Prop where
  stored : ∀ i, Used p i → ∃ k v, (calls i).target = some k ∧ p.store.found i = some v
  once : ∀ i j, Used p i → Used p j → (calls i).target = (calls j).target →
    p.store.found i = p.store.found j → i = j

end Runs

/-! ## Secrets in the store -/

section Entries

variable {db : AuthDb} {now : OffsetDateTime} {ws : List AuthWrite} {k : RedisKey}

theorem redis_applyAll_other : ∀ {ws : List AuthWrite} {db : AuthDb},
    (∀ x ∈ ws, x.redisKey ≠ some k) → (authEngine.applyAll db ws).redis k = db.redis k := by
  intro ws
  induction ws with
  | nil => intro db _; rfl
  | cons x ws ih =>
    intro db h
    rw [Engine.applyAll_cons, ih fun y hy => h y (List.mem_cons_of_mem _ hy)]
    have hx := h x List.mem_cons_self
    cases x with
    | redis k' e =>
      refine (Expiring.set_apply _ _ _ e).trans (if_neg ?_)
      rintro rfl
      exact hx rfl
    | _ => rfl

/-- What is there after a statement that does not store it was there before, and the statement does
not delete it. -/
theorem exec_there {β : Type} {c : AuthStmt β} {b : β}
    (h : authEngine.exec c now db = .ok (b, ws)) (hstores : c.storesAt ≠ some k)
    (hthere : (authEngine.applyAll db ws).redis k ≠ none) :
    db.redis k ≠ none ∧ c.deletesAt ≠ some k := by
  by_cases hkey : c.redisKey = some k
  · cases c with
    | redisSet k' v ttl => exact absurd hkey hstores
    | redisIncr k' => exact absurd hkey hstores
    | redisIncrAndExpire k' ttl => exact absurd hkey hstores
    | redisDel k' =>
      cases hkey
      cases h
      exact absurd (if_pos rfl) hthere
    | redisExpire k' ttl =>
      cases hkey
      refine ⟨fun hnone => hthere ?_, fun hdel => nomatch hdel⟩
      have hentry : db.redis.entry now k = none := by rw [Expiring.entry, hnone]; rfl
      have hexec : authEngine.exec (.redisExpire k ttl) now db = .ok ((), []) := by
        show Except.ok (Redis.expire db now k ttl) = _
        rw [Redis.expire, hentry]
      cases hexec.symm.trans h
      exact hnone
    | _ => cases hkey
  · have hsame : (authEngine.applyAll db ws).redis k = db.redis k :=
      redis_applyAll_other fun x hx hk => hkey ((exec_redisKey h x hx).symm.trans hk)
    refine ⟨fun hnone => hthere (hsame.trans hnone), fun hdel => hkey ?_⟩
    cases c with
    | redisDel k' => exact hdel
    | _ => cases hdel

end Entries

/-! ## One holder -/

section Holders

variable {ι : Type} [DecidableEq ι] {calls : ι → SecretCall} {s s' : SecretStore ι}

/-- No two calls have found the same secret; and a secret that is there and that a call has found is
held by it. -/
structure OneHolder (calls : ι → SecretCall) (s : SecretStore ι) : Prop where
  apart : ∀ i j k v, (calls i).target = some k → (calls j).target = some k →
    s.found i = some v → s.found j = some v → i = j
  older : ∀ i k v, (calls i).target = some k → s.found i = some v → v ≤ s.version k
  held : ∀ i k, (calls i).target = some k → s.found i = some (s.version k) →
    s.db.redis k ≠ none → s.holding i = true

theorem OneHolder.executed {β : Type} {c : AuthStmt β} {b : β} {ws : List AuthWrite} (i : ι)
    (h : OneHolder calls s) (hexec : authEngine.exec c s.now s.db = .ok (b, ws)) :
    OneHolder calls (s.executed calls i c ws) where
  apart := h.apart
  older j k v htarget hfound := by
    have hle := h.older j k v htarget hfound
    by_cases hstores : c.storesAt = some k
    · exact (hle.trans (Nat.le_succ _)).trans_eq (if_pos hstores).symm
    · exact hle.trans_eq (if_neg hstores).symm
  held j k htarget hfound hthere := by
    by_cases hstores : c.storesAt = some k
    · -- what is there now is newer than all that has been found
      have hle := h.older j k _ htarget hfound
      have hversion : (s.executed calls i c ws).version k = s.version k + 1 := if_pos hstores
      omega
    · have hversion : (s.executed calls i c ws).version k = s.version k := if_neg hstores
      obtain ⟨hbefore, hdel⟩ := exec_there hexec hstores hthere
      have hheld := h.held j k htarget (hfound.trans (congrArg some hversion)) hbefore
      refine (if_neg ?_).trans hheld
      rintro ⟨rfl, hdeletes⟩
      exact hdel (hdeletes.trans htarget)

/-- What a call finds that no other call holds is found by it alone. -/
theorem OneHolder.took {i : ι} {k : RedisKey} (h : OneHolder calls s)
    (htarget : (calls i).target = some k) (hthere : s.db.redis k ≠ none)
    (hfree : ∀ j, j ≠ i → (calls j).target = some k → s.holding j = true →
      s.found j ≠ some (s.version k)) : OneHolder calls (s.took i k) where
  apart := by
    have hnone : ∀ j, j ≠ i → (calls j).target = some k → s.found j ≠ some (s.version k) :=
      fun j hj hk hfound => hfree j hj hk (h.held j k hk hfound hthere) hfound
    intro j j' k' v hk hk' hv hv'
    rcases SecretStore.found_took hv with ⟨rfl, rfl⟩ | ⟨hj, hold⟩
    · cases htarget.symm.trans hk
      rcases SecretStore.found_took hv' with ⟨rfl, -⟩ | ⟨hj', hold'⟩
      · rfl
      · exact absurd hold' (hnone j' hj' hk')
    · rcases SecretStore.found_took hv' with ⟨rfl, rfl⟩ | ⟨hj', hold'⟩
      · cases htarget.symm.trans hk'
        exact absurd hold (hnone j hj hk)
      · exact h.apart j j' k' v hk hk' hold hold'
  older := by
    intro j k' v hk hv
    rcases SecretStore.found_took hv with ⟨rfl, rfl⟩ | ⟨-, hv⟩
    · cases htarget.symm.trans hk
      exact le_rfl
    · exact h.older j k' v hk hv
  held := by
    intro j k' hk hv hthere'
    rcases SecretStore.found_took hv with ⟨rfl, -⟩ | ⟨hj, hv⟩
    · exact Function.update_self _ _ _
    · exact (Function.update_of_ne hj _ _).trans (h.held j k' hk hv hthere')

theorem OneHolder.answered {β : Type} {c : AuthStmt β} {b : β} {ws : List AuthWrite} {i : ι}
    (h : OneHolder calls s) (hexec : authEngine.exec c s.now s.db = .ok (b, ws))
    (hapart : Apart calls i (.exec (E := DbError) .pool c) s) :
    OneHolder calls ((s.executed calls i c ws).told calls i c b) := by
  have hdone := h.executed i hexec
  cases c with
  | redisGet k =>
    obtain ⟨rfl, rfl⟩ : Redis.get s.db s.now k = b ∧ [] = ws := by
      cases hexec
      exact ⟨rfl, rfl⟩
    cases hfind : Redis.get s.db s.now k with
    | none => exact hdone
    | some v =>
      rw [SecretStore.told]
      split
      · rename_i htake
        obtain ⟨e, he, -⟩ := Expiring.find_eq_some hfind
        refine hdone.took htake.1 ?_ ?_
        · show s.db.redis k ≠ none
          rw [he]
          exact Option.some_ne_none e
        · intro j hj htarget hholds
          have hsame : (s.executed calls i (.redisGet k) []).holding j = s.holding j :=
            if_neg fun hji => hj hji.1
          exact hapart v hfind htake.1 htake.2 j hj htarget (hsame.symm.trans hholds)
      · exact hdone
  | _ => exact hdone

omit [DecidableEq ι] in
theorem OneHolder.env (h : OneHolder calls s) (henv : SecretEnv s s') : OneHolder calls s' := by
  obtain ⟨db, now, rfl, hkeeps⟩ := henv
  refine ⟨h.apart, h.older, fun i k htarget hfound hthere => h.held i k htarget hfound ?_⟩
  rcases hkeeps k (SecretCall.isSecret_target htarget) with hsame | hnone
  · rwa [← hsame]
  · exact absurd hnone hthere

theorem OneHolder.exec {β : Type} {c : Cmd AuthStmt DbError β} {b : β} {i : ι}
    (h : OneHolder calls s) (hs : ExecApart calls i c s b s') : OneHolder calls s' := by
  obtain ⟨hexec, hapart⟩ := hs
  cases hexec with
  | answered hok => exact h.answered hok hapart
  | unanswered hok => exact h.executed i hok
  | refused _ => exact h
  | unsent => exact h

end Holders

/-! ## What a call knows -/

section Programs

/-- Whether the call has found a secret that it takes. -/
def noted (call : SecretCall) : {β : Type} → Cmd AuthStmt DbError β → β → Bool → Bool
  | _, .exec _ (.redisGet k), .ok (some v), g => g || decide (call.target = some k ∧ call.accepts v)
  | _, _, _, g => g

/-- A call answers that it has used a secret exactly if it has found it. -/
def Truthful (r : Except AuthError Bool) (g : Bool) : Prop := r = .ok true ↔ g = true

theorem truthful_error {e : AuthError} : Truthful (.error e) false := by simp [Truthful]

theorem truthful_false : Truthful (.ok false) false := by simp [Truthful]

variable {call : SecretCall}

/-- A command by which the call finds nothing, and the rest of the call. -/
theorem truthful_after {β : Type} {c : AuthStmt β} {f : β → AuthSvc Bool}
    (hc : ∀ r, noted call (.exec .pool c) r false = false)
    (h : ∀ a, Act.wlp (noted call) (f a) Truthful false) :
    Act.wlp (noted call) (redis c >>= f) Truthful false := by
  refine Act.wlp_bind.2 (Act.wlp_ask.2 ⟨fun a => ?_, fun e => ?_⟩)
  · rw [hc]
    exact h a
  · rw [hc]
    exact truthful_error

theorem truthful_refuse {error : AuthError} {cond : Bool} {f : Unit → AuthSvc Bool}
    (h : Act.wlp (noted call) (f ()) Truthful false) :
    Act.wlp (noted call) (refuse error cond >>= f) Truthful false := by
  cases cond with
  | true => exact truthful_error
  | false => exact h

/-- A deletion whose outcome does not matter. -/
theorem truthful_attempt_del {k : RedisKey} {g : Bool} {f : Except AuthError Unit → AuthSvc Bool}
    (h : ∀ r, Act.wlp (noted call) (f r) Truthful g) :
    Act.wlp (noted call) (Act.attempt (redis (.redisDel k)) >>= f) Truthful g :=
  Act.wlp_bind.2 (Act.wlp_attempt.2 (Act.wlp_ask.2 ⟨fun _ => h _, fun _ => h _⟩))

/-- The command by which the call finds its secret. -/
theorem truthful_get {k : RedisKey} {f : Option RedisValue → AuthSvc Bool}
    (htarget : call.target = some k) (hnone : Act.wlp (noted call) (f none) Truthful false)
    (hsome : ∀ v, Act.wlp (noted call) (f (some v)) Truthful (call.accepts v)) :
    Act.wlp (noted call) (redis (.redisGet k) >>= f) Truthful false := by
  refine Act.wlp_bind.2 (Act.wlp_ask.2 ⟨fun found => ?_, fun _ => truthful_error⟩)
  cases found with
  | none => exact hnone
  | some v =>
    have hnoted : noted call (.exec (E := DbError) .pool (.redisGet k)) (.ok (some v)) false =
        call.accepts v := by simp [noted, htarget]
    rw [hnoted]
    exact hsome v

theorem verifyOtp_truthful (email code : String) (otpType : OtpType) :
    Act.wlp (noted (.verifyOtp email code otpType)) (AuthCache.verifyOtp email code otpType)
      Truthful false := by
  refine truthful_after (fun _ => rfl) fun attempts => ?_
  dsimp only
  split
  on_goal 1 => refine truthful_after (fun _ => rfl) fun _ => ?_
  all_goals
    refine truthful_refuse (truthful_get rfl truthful_error fun v => ?_)
    cases v with
    | text s =>
      dsimp only
      split
      · rename_i hs
        refine truthful_attempt_del fun _ => truthful_attempt_del fun _ => ?_
        exact ⟨fun _ => decide_eq_true hs, fun _ => rfl⟩
      · rename_i hs
        exact ⟨fun h => (by cases h), fun h => absurd (of_decide_eq_true h) hs⟩
    | int n => exact truthful_error
    | oauth verifier => exact truthful_error

theorem consumeOauthState_truthful (state : String) :
    Act.wlp (noted (.consumeOauthState state)) (SecretCall.prog (.consumeOauthState state))
      Truthful false := by
  rw [SecretCall.prog, AuthCache.consumeOauthState]
  simp only [bind_assoc]
  refine truthful_get rfl ?_ fun v => ?_
  · exact truthful_attempt_del fun _ => truthful_error
  · refine truthful_attempt_del fun _ => ?_
    cases v with
    | text s => exact truthful_error
    | int n => exact truthful_error
    | oauth verifier => exact ⟨fun _ => rfl, fun _ => rfl⟩

theorem prog_truthful (call : SecretCall) :
    Act.wlp (noted call) call.prog Truthful false := by
  cases call with
  | storeOtp email otp otpType => exact truthful_after (fun _ => rfl) fun _ => truthful_false
  | verifyOtp email code otpType => exact verifyOtp_truthful email code otpType
  | revokeOtp email otpType => exact truthful_after (fun _ => rfl) fun _ => truthful_false
  | storeOauthState state verifier =>
    rw [SecretCall.prog, AuthCache.storeOauthState]
    simp only [bind_assoc]
    refine truthful_after (fun _ => rfl) fun _ => ?_
    exact truthful_after (fun _ => rfl) fun _ => truthful_false
  | consumeOauthState state => exact consumeOauthState_truthful state

end Programs

/-! ## Runs -/

section Runs

variable {ι : Type} [DecidableEq ι] {calls : ι → SecretCall} {s s' : SecretStore ι} {g : ι → Bool}

/-- What the calls know is what the history says. -/
def Records (calls : ι → SecretCall) (s : SecretStore ι) (g : ι → Bool) : Prop :=
  ∀ i, (s.found i).isSome = g i ∧ (g i = true → ∃ k, (calls i).target = some k)

theorem Records.answered {β : Type} {c : AuthStmt β} {b : β} {ws : List AuthWrite} {i : ι}
    (h : Records calls s g) :
    Records calls ((s.executed calls i c ws).told calls i c b)
      (Function.update g i (noted (calls i) (.exec (E := DbError) .pool c) (.ok b) (g i))) := by
  have hsame : noted (calls i) (.exec (E := DbError) .pool c) (.ok b) (g i) = g i →
      Records calls (s.executed calls i c ws)
        (Function.update g i (noted (calls i) (.exec (E := DbError) .pool c) (.ok b) (g i))) := by
    intro hg
    rw [hg, Function.update_eq_self]
    exact h
  cases c with
  | redisGet k =>
    cases b with
    | none => exact hsame rfl
    | some v =>
      by_cases htake : (calls i).target = some k ∧ (calls i).accepts v
      · have hnoted : noted (calls i) (.exec (E := DbError) .pool (.redisGet k)) (.ok (some v))
            (g i) = true := by simp [noted, htake]
        rw [hnoted, SecretStore.told, if_pos htake]
        intro j
        by_cases hj : j = i
        · subst hj
          simp [SecretStore.took, htake.1]
        · simpa [SecretStore.took, SecretStore.executed, Function.update_of_ne hj] using h j
      · rw [SecretStore.told, if_neg htake]
        refine hsame ?_
        simp only [noted, htake, decide_false, Bool.or_false]
  | _ => exact hsame rfl

theorem noted_error {β : Type} (call : SecretCall) (c : AuthStmt β) (e : DbError) (g : Bool) :
    noted call (.exec .pool c) (.error e) g = g := by
  cases c <;> rfl

theorem Records.exec {β : Type} {c : Cmd AuthStmt DbError β} {b : β} {i : ι}
    (h : Records calls s g) (hs : SecretExec calls i c s b s') :
    Records calls s' (Function.update g i (noted (calls i) c b (g i))) := by
  cases hs with
  | answered _ => exact h.answered
  | unanswered _ =>
    rw [noted_error, Function.update_eq_self]
    exact h
  | refused _ =>
    rw [noted_error, Function.update_eq_self]
    exact h
  | unsent =>
    rw [noted_error, Function.update_eq_self]
    exact h

omit [DecidableEq ι] in
theorem Records.env (h : Records calls s g) (henv : SecretEnv s s') : Records calls s' g := by
  obtain ⟨db, now, rfl, -⟩ := henv
  exact h

omit [DecidableEq ι] in
theorem oneHolder_begin (db : AuthDb) (now : OffsetDateTime) :
    OneHolder calls (aboutToBegin calls db now).store where
  apart _ _ _ _ _ _ h := by cases h
  older _ _ _ _ h := by cases h
  held _ _ _ h := by cases h

/-- Any run: a call that has returned has used a secret exactly if it has found it. -/
theorem used_iff_found {db : AuthDb} {now : OffsetDateTime} {p : SecretPool ι}
    (h : Pool.Steps (SecretExec calls) SecretEnv (aboutToBegin calls db now) p) {i : ι}
    {r : Except AuthError Bool} (hr : p.prog i = .ret r) :
    r = .ok true ↔ ∃ k v, (calls i).target = some k ∧ p.store.found i = some v := by
  have houtlined : p.Outlined (fun _ {_} _ _ => True) (fun i {_} => noted (calls i))
      (fun _ => Truthful) (Records calls) := by
    refine Pool.outlined_of_steps ?_ ?_ h ?_
    · intro i β c s b s' g _ hs hg
      exact hg.exec hs
    · intro s s' g hs hg
      exact hg.env hs
    · refine ⟨fun _ => false, fun i => ⟨rfl, fun h => by cases h⟩, ?_⟩
      exact fun i => Prog.guarded_of_wlp (prog_truthful (calls i))
  obtain ⟨g, hrecords, hreturned⟩ := houtlined.returned
  obtain ⟨hfound, htarget⟩ := hrecords i
  have htruthful : r = .ok true ↔ g i = true := hreturned i r hr
  rw [htruthful]
  constructor
  · intro hg
    obtain ⟨k, hk⟩ := htarget hg
    obtain ⟨v, hv⟩ := Option.isSome_iff_exists.1 (hfound.trans hg)
    exact ⟨k, v, hk, hv⟩
  · rintro ⟨k, v, -, hv⟩
    rw [← hfound, hv]
    rfl

/-- In the runs in which no call finds a secret that another call has found and not deleted yet,
every secret is used once. -/
theorem secrets_work_once (db : AuthDb) (now : OffsetDateTime) {p : SecretPool ι}
    (hruns : Pool.Steps (ExecApart calls) SecretEnv (aboutToBegin calls db now) p) :
    WorkOnce calls p := by
  have hholder : OneHolder calls p.store :=
    Pool.keeps_of_steps (fun _ _ _ _ _ _ hs h => h.exec hs) (fun _ _ hs h => h.env hs) hruns
      (oneHolder_begin db now)
  have hall : Pool.Steps (SecretExec calls) SecretEnv (aboutToBegin calls db now) p :=
    Pool.steps_mono (fun _ _ _ _ _ _ hs => hs.1) hruns
  have hstored : ∀ i, Used p i → ∃ k v, (calls i).target = some k ∧ p.store.found i = some v :=
    fun i hused => (used_iff_found hall hused).1 rfl
  refine ⟨hstored, fun i j hi hj htarget hfound => ?_⟩
  obtain ⟨k, v, hk, hv⟩ := hstored i hi
  exact hholder.apart i j k v hk (htarget.symm.trans hk) hv (hfound.symm.trans hv)

end Runs

/-! ## Two calls with one password -/

section Examples

/-- The next command of call `i` is executed and answered. -/
def answerSecret {ι : Type} [DecidableEq ι] (calls : ι → SecretCall) (i : ι) :
    {β : Type} → Cmd AuthStmt DbError β → SecretStore ι → β × SecretStore ι
  | _, .exec _ c, s =>
    match authEngine.exec c s.now s.db with
    | .ok (b, ws) => (.ok b, (s.executed calls i c ws).told calls i c b)
    | .error e => (.error e, s)
  | _, .begin, s => (.error authEngine.fault, s)
  | _, .commit, s => (.error authEngine.fault, s)

/-- A command outside of transactions. -/
def isPooled : {β : Type} → Cmd AuthStmt DbError β → Bool
  | _, .exec .pool _ => true
  | _, _ => false

theorem secretExec_answer {ι : Type} [DecidableEq ι] {calls : ι → SecretCall} {i : ι} {β : Type}
    {c : Cmd AuthStmt DbError β} {s : SecretStore ι} (hc : isPooled c = true) :
    SecretExec calls i c s (answerSecret calls i c s).1 (answerSecret calls i c s).2 := by
  cases c with
  | exec e c =>
    cases e with
    | pool =>
      rw [answerSecret]
      cases hexec : authEngine.exec c s.now s.db with
      | ok p => exact .answered hexec
      | error e => exact .refused hexec
    | tx => cases hc
  | _ => cases hc

/-- Ann's password is stored, and two requests come with it. -/
inductive AnnsRequest where
  | storing
  | first
  | second
deriving DecidableEq

def annsCalls : AnnsRequest → SecretCall
  | .storing => .storeOtp "ann@meno" "123456" .verifyEmail
  | .first => .verifyOtp "ann@meno" "123456" .verifyEmail
  | .second => .verifyOtp "ann@meno" "123456" .verifyEmail

/-- The calls' commands in an order. -/
def playSecrets (schedule : List AnnsRequest) : SecretPool AnnsRequest :=
  (schedule.map Pool.Turn.call).foldl (Pool.turn (E := Empty) (answerSecret annsCalls) fun s _ => s)
    (aboutToBegin annsCalls .empty 0)

def oneByOne : List AnnsRequest :=
  [.storing, .first, .first, .first, .first, .first, .second, .second, .second]

def readBeforeDeleted : List AnnsRequest :=
  [.storing, .first, .first, .first, .second, .second, .first, .first, .second, .second]

/-- Outside of transactions, and nothing is read while a call holds a secret. -/
def isApart : {β : Type} → Cmd AuthStmt DbError β → SecretStore AnnsRequest → Bool
  | _, .exec .pool (.redisGet _), s =>
    !s.holding .storing && !s.holding .first && !s.holding .second
  | _, .exec .pool _, _ => true
  | _, _, _ => false

theorem execApart_answer {i : AnnsRequest} {β : Type} {c : Cmd AuthStmt DbError β}
    {s : SecretStore AnnsRequest} (hc : isApart c s = true) :
    ExecApart annsCalls i c s (answerSecret annsCalls i c s).1 (answerSecret annsCalls i c s).2 := by
  cases c with
  | exec e c =>
    cases e with
    | pool =>
      refine ⟨secretExec_answer rfl, ?_⟩
      cases c with
      | redisGet k =>
        intro v _ _ _ j _ _ hholds
        simp only [isApart, Bool.and_eq_true, Bool.not_eq_true'] at hc
        cases j <;> simp [hc] at hholds
      | _ => trivial
    | tx => cases c <;> cases hc
  | _ => cases hc

/-- One request after the other: the second does not find the password any more. -/
theorem password_used_once :
    Used (playSecrets oneByOne) .first ∧
      WorkOnce annsCalls (playSecrets oneByOne) := by
  have hanswer : ∀ i {β : Type} (c : Cmd AuthStmt DbError β) s, isApart c s = true →
      ExecApart annsCalls i c s (answerSecret annsCalls i c s).1
        (answerSecret annsCalls i c s).2 := fun _ _ _ _ hc => execApart_answer hc
  refine ⟨rfl, secrets_work_once .empty 0 (Pool.steps_turns hanswer (fun _ e => nomatch e) ?_)⟩
  exact ⟨rfl, rfl, rfl, rfl, rfl, rfl, rfl, rfl, rfl, trivial⟩

/-- Both requests find the password before the first of them deletes it. -/
theorem password_used_twice : ¬∀ (calls : AnnsRequest → SecretCall) (db : AuthDb)
    (now : OffsetDateTime)
    (p : SecretPool AnnsRequest),
    Pool.Steps (SecretExec calls) SecretEnv (aboutToBegin calls db now) p → WorkOnce calls p := by
  intro h
  have hanswer : ∀ i {β : Type} (c : Cmd AuthStmt DbError β) s, isPooled c = true →
      SecretExec annsCalls i c s (answerSecret annsCalls i c s).1
        (answerSecret annsCalls i c s).2 := fun _ _ _ _ hc => secretExec_answer hc
  have hruns : Pool.Steps (SecretExec annsCalls) SecretEnv (aboutToBegin annsCalls .empty 0)
      (playSecrets readBeforeDeleted) := by
    refine Pool.steps_turns hanswer (fun _ e => nomatch e) ?_
    exact ⟨rfl, rfl, rfl, rfl, rfl, rfl, rfl, rfl, rfl, rfl, trivial⟩
  have honce : AnnsRequest.first = .second := (h _ _ _ _ hruns).once _ _ rfl rfl rfl rfl
  cases honce

end Examples

end Auth

end Meno
