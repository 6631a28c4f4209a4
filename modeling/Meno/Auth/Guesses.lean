import Meno.Auth.Commands

/-!
# Meno.Auth.Guesses

How often a one-time password is compared with a wrong code. The attempts are counted under a key of
their own, whose life begins with the first attempt and not when the password is stored, and storing
a password leaves the count alone. So a password can meet two counts, and with each of them five
attempts. The runs in which the passwords are compared under one count each keep the bound of five
(`guesses_bounded`).
-/

namespace Meno

namespace Auth

open Lib

/-! ## The history -/

/-- The history of the one-time passwords of one address and type. -/
structure Guesses (ι : Type) where
  /-- How often the attempts were begun to be counted. -/
  counts : Nat
  /-- Which count the attempt of a call belongs to, and its number there. -/
  ticket : ι → Option (Nat × Int)
  /-- The calls that compared the password with a wrong code since it was stored. -/
  wrong : List ι

section Recording

variable {ι : Type} [DecidableEq ι] (calls : ι → SecretCall) (email : String) (otpType : OtpType)

/-- The call compares what it finds under the key with a wrong code. -/
def SecretCall.Mistakes (call : SecretCall) (k : RedisKey) : RedisValue → Prop
  | .text s => call.target = some k ∧ call.accepts (.text s) = false
  | _ => False

instance (call : SecretCall) (k : RedisKey) (v : RedisValue) : Decidable (call.Mistakes k v) := by
  cases v <;> unfold SecretCall.Mistakes <;> infer_instance

/-- The count at a time, when an attempt is counted. -/
def Recorded.countNow (s : Recorded (Guesses ι)) : Nat :=
  if s.db.redis.entry s.now (.otpAttempts email otpType) = none then s.past.counts + 1
  else s.past.counts

def noteGuess : Recorder (Guesses ι) ι
  | i, _, .redisIncr k, n, s =>
    if k = .otpAttempts email otpType then
      { s.past with
        counts := s.countNow email otpType
        ticket := match n with
          | some n => Function.update s.past.ticket i (some (s.countNow email otpType, n))
          | none => s.past.ticket }
    else s.past
  | _, _, .redisSet k _ _, _, s =>
    if k = .otp email otpType then { s.past with wrong := [] } else s.past
  | i, _, .redisGet k, some (some v), s =>
    if k = .otp email otpType ∧ (calls i).Mistakes k v then
      { s.past with wrong := i :: s.past.wrong }
    else s.past
  | _, _, _, _, s => s.past

/-- The keys of the password and of its attempts. -/
def OtpKeys (k : RedisKey) : Prop := k = .otp email otpType ∨ k = .otpAttempts email otpType

/-- A call that compares the password with a wrong code has its attempt in the same count as those
that did so before. -/
def OneCount (i : ι) : {β : Type} → Cmd AuthStmt DbError β → Recorded (Guesses ι) → Prop
  | _, .exec _ (.redisGet k), s => k = .otp email otpType →
    ∀ v, s.db.redis.find s.now k = some v → (calls i).Mistakes k v →
      ∀ j ∈ s.past.wrong, (s.past.ticket j).map Prod.fst = (s.past.ticket i).map Prod.fst
  | _, _, _ => True

/-- The commands of which each is executed under one count. -/
def ExecOneCount (i : ι) {β : Type} (c : Cmd AuthStmt DbError β) (s : Recorded (Guesses ι)) (b : β)
    (s' : Recorded (Guesses ι)) : Prop :=
  CommandExec (noteGuess calls email otpType) i c s b s' ∧ OneCount calls email otpType i c s

end Recording

abbrev GuessPool (ι : Type) :=
  Pool (Recorded (Guesses ι)) (Cmd AuthStmt DbError) (Except AuthError Bool) ι

/-- All the calls are about to begin, and Redis is empty. -/
def nobodyGuesses {ι : Type} (calls : ι → SecretCall) (db : AuthDb) (now : OffsetDateTime) :
    GuessPool ι where
  store := {
    db := { db with redis := .empty }
    now
    past := { counts := 0, ticket := fun _ => none, wrong := [] } }
  prog i := ExceptT.run (calls i).prog

/-! ## The count of the attempts -/

section Counted

variable {ι : Type} {k : RedisKey} {db db' : AuthDb} {now now' : OffsetDateTime} {t : Guesses ι}

/-- The numbers of the attempts are different ones within a count, and none is above the counter
that is there. -/
structure Counted (k : RedisKey) (db : AuthDb) (now : OffsetDateTime) (t : Guesses ι) : Prop where
  counter : ∀ e, db.redis k = some e → ∃ m, e.value = .int m ∧ 0 ≤ m
  tickets : ∀ i c n, t.ticket i = some (c, n) → c ≤ t.counts ∧ 1 ≤ n
  running : ∀ i n, t.ticket i = some (t.counts, n) → ∀ e, db.redis.entry now k = some e →
    ∃ m, e.value = .int m ∧ n ≤ m
  apart : ∀ i j x, t.ticket i = some x → t.ticket j = some x → i = j

theorem Counted.notNewer (h : Counted k db now t) (hn : NotNewer k db now db' now') :
    Counted k db' now' t where
  counter e' he' := by
    obtain ⟨e, he, hvalue, -⟩ := hn e' he'
    rw [hvalue]
    exact h.counter e he
  tickets := h.tickets
  running i n hi e' he' := by
    obtain ⟨hthere, halive⟩ := Option.filter_eq_some_iff.1 he'
    obtain ⟨e, he, hvalue, hback⟩ := hn e' hthere
    rw [hvalue]
    refine h.running i n hi e (Option.filter_eq_some_iff.2 ⟨he, ?_⟩)
    exact decide_eq_true (hback (of_decide_eq_true halive))
  apart := h.apart

/-- The attempt that `INCR` has counted has a number above all others of its count. -/
structure NextTicket (k : RedisKey) (db' : AuthDb) (t : Guesses ι) (n : Int) : Prop where
  positive : 1 ≤ n
  counter : ∃ d, db'.redis k = some { value := .int n, deadline := d }
  above : ∀ i m, t.ticket i = some (t.counts, m) → m < n

theorem Counted.incr {n : Int} {ws : List AuthWrite} (h : Counted k db now t)
    (hexec : authEngine.exec (.redisIncr k) now db = .ok (n, ws)) :
    Counted k (authEngine.applyAll db ws) now
        { t with counts := if db.redis.entry now k = none then t.counts + 1 else t.counts } ∧
      NextTicket k (authEngine.applyAll db ws)
        { t with counts := if db.redis.entry now k = none then t.counts + 1 else t.counts } n := by
  rcases redisIncr_ok hexec with ⟨hnone, rfl, hset⟩ | ⟨m, d, hentry, rfl, hset⟩
  · rw [if_pos hnone]
    have hold : ∀ i m, t.ticket i ≠ some (t.counts + 1, m) := by
      intro i m hi
      have hle := (h.tickets i _ m hi).1
      omega
    refine ⟨⟨?_, ?_, fun i m hi => absurd hi (hold i m), h.apart⟩, le_rfl, ⟨_, hset⟩,
      fun i m hi => absurd hi (hold i m)⟩
    · intro e he
      cases hset.symm.trans he
      exact ⟨1, rfl, by decide⟩
    · intro i c m hi
      obtain ⟨hle, hpos⟩ := h.tickets i c m hi
      exact ⟨hle.trans (Nat.le_succ _), hpos⟩
  · have hsome : db.redis.entry now k ≠ none := by simp [hentry]
    rw [if_neg hsome]
    have hm : 0 ≤ m := by
      obtain ⟨m', hvalue, hm'⟩ := h.counter _ (Option.filter_eq_some_iff.1 hentry).1
      cases hvalue
      exact hm'
    have habove : ∀ i m', t.ticket i = some (t.counts, m') → m' < m + 1 := by
      intro i m' hi
      obtain ⟨m'', hvalue, hle⟩ := h.running i m' hi _ hentry
      cases hvalue
      omega
    refine ⟨⟨?_, h.tickets, ?_, h.apart⟩, by omega, ⟨d, hset⟩, habove⟩
    · intro e he
      cases hset.symm.trans he
      exact ⟨m + 1, rfl, by omega⟩
    · intro i m' hi e he
      cases hset.symm.trans (Option.filter_eq_some_iff.1 he).1
      exact ⟨m + 1, rfl, (habove i m' hi).le⟩

/-- The attempt is given its number. -/
theorem Counted.take [DecidableEq ι] {n : Int} {i : ι} (h : Counted k db' now t)
    (hn : NextTicket k db' t n) :
    Counted k db' now { t with ticket := Function.update t.ticket i (some (t.counts, n)) } := by
  have hcases : ∀ {j x}, Function.update t.ticket i (some (t.counts, n)) j = some x →
      j = i ∧ x = (t.counts, n) ∨ j ≠ i ∧ t.ticket j = some x := by
    intro j x hj
    by_cases hji : j = i
    · subst hji
      rw [Function.update_self] at hj
      exact .inl ⟨rfl, (Option.some.inj hj).symm⟩
    · rw [Function.update_of_ne hji] at hj
      exact .inr ⟨hji, hj⟩
  refine ⟨h.counter, ?_, ?_, ?_⟩
  · intro j c m hj
    rcases hcases hj with ⟨-, hx⟩ | ⟨-, hold⟩
    · cases hx
      exact ⟨le_rfl, hn.positive⟩
    · exact h.tickets j c m hold
  · intro j m hj e he
    rcases hcases hj with ⟨-, hx⟩ | ⟨-, hold⟩
    · cases hx
      obtain ⟨d, hset⟩ := hn.counter
      cases hset.symm.trans (Option.filter_eq_some_iff.1 he).1
      exact ⟨n, rfl, le_rfl⟩
    · exact h.running j m hold e he
  · intro j j' x hj hj'
    rcases hcases hj with ⟨rfl, rfl⟩ | ⟨-, hold⟩ <;> rcases hcases hj' with ⟨rfl, hx⟩ | ⟨-, hold'⟩
    · rfl
    · exact absurd (hn.above j' n hold') (lt_irrefl n)
    · subst hx
      exact absurd (hn.above j n hold) (lt_irrefl n)
    · exact h.apart j j' x hold hold'

end Counted

/-! ## How a call attempts -/

/-- How far a call is with its attempt. -/
inductive Attempt where
  | begun
  | admitted (n : Int)
  | compared

section Programs

variable (email : String) (otpType : OtpType)

/-- An attempt is counted once, and the password is read once, by an attempt that is admitted. -/
def Attempts : {β : Type} → Cmd AuthStmt DbError β → Attempt → Prop
  | _, .exec .pool (.redisIncr k), g => k = .otpAttempts email otpType → g = .begun
  | _, .exec .pool (.redisGet k), g => k = .otp email otpType → ∃ n ≤ 5, g = .admitted n
  | _, .exec .pool c, _ => c.storesAt ≠ some (.otpAttempts email otpType)
  | _, _, _ => True

def noteAttempt : {β : Type} → Cmd AuthStmt DbError β → β → Attempt → Attempt
  | _, .exec .pool (.redisIncr k), .ok n, g =>
    if k = .otpAttempts email otpType then .admitted n else g
  | _, .exec .pool (.redisGet k), .ok _, g => if k = .otp email otpType then .compared else g
  | _, _, _, g => g

/-- The commands that have nothing to do with the attempts at this password. -/
def OtherAttempts : {β : Type} → Cmd AuthStmt DbError β → Prop
  | _, .exec .pool (.redisIncr k) => k ≠ .otpAttempts email otpType
  | _, .exec .pool (.redisGet k) => k ≠ .otp email otpType
  | _, .exec .pool c => c.storesAt ≠ some (.otpAttempts email otpType)
  | _, _ => False

variable {email} {otpType}

theorem attempts_of_other {β : Type} (c : Cmd AuthStmt DbError β) (g : Attempt)
    (h : OtherAttempts email otpType c) : Attempts email otpType c g := by
  cases c with
  | exec e c =>
    cases e with
    | pool =>
      cases c with
      | redisIncr k => exact fun hk => absurd hk h
      | redisGet k => exact fun hk => absurd hk h
      | _ => exact h
    | tx => trivial
  | _ => trivial

theorem noteAttempt_of_other {β : Type} (c : Cmd AuthStmt DbError β) (b : β) (g : Attempt)
    (h : OtherAttempts email otpType c) : noteAttempt email otpType c b g = g := by
  cases c with
  | exec e c =>
    cases e with
    | pool =>
      cases c with
      | redisIncr k =>
        cases b with
        | ok n => exact if_neg h
        | error e => rfl
      | redisGet k =>
        cases b with
        | ok n => exact if_neg h
        | error e => rfl
      | _ => rfl
    | tx => cases c <;> rfl
  | _ => rfl

theorem noteAttempt_error {β : Type} (c : AuthStmt β) (e : DbError) (g : Attempt) :
    noteAttempt email otpType (.exec .pool c) (.error e) g = g := by
  cases c <;> rfl

theorem attempts_ask {β : Type} {c : AuthStmt β} {f : β → AuthSvc Bool} {g : Attempt}
    (hpre : Attempts email otpType (.exec (E := DbError) .pool c) g)
    (hok : ∀ a, Act.Outline (Attempts email otpType) (noteAttempt email otpType) (f a)
      (fun _ _ => True) (noteAttempt email otpType (.exec (E := DbError) .pool c) (.ok a) g)) :
    Act.Outline (Attempts email otpType) (noteAttempt email otpType) (redis c >>= f)
      (fun _ _ => True) g :=
  Act.outline_bind (Act.outline_ask hpre hok fun _ => trivial)

/-- The part of `verify_otp` after the `GET`. -/
theorem attempts_rest {x : AuthSvc Bool} {g : Attempt}
    (hx : Act.Uses (OtherAttempts email otpType) x) :
    Act.Outline (Attempts email otpType) (noteAttempt email otpType) x (fun _ _ => True) g :=
  Act.outline_of_neutral attempts_of_other noteAttempt_of_other hx fun _ => trivial

theorem uses_redis {β : Type} {c : AuthStmt β}
    (h : OtherAttempts email otpType (.exec (E := DbError) .pool c)) :
    Act.Uses (OtherAttempts email otpType) (redis c) := Act.uses_ask h

theorem attempts_refuse {error : AuthError} {cond : Bool} {f : Unit → AuthSvc Bool} {g : Attempt}
    (h : cond = false → Act.Outline (Attempts email otpType) (noteAttempt email otpType) (f ())
      (fun _ _ => True) g) :
    Act.Outline (Attempts email otpType) (noteAttempt email otpType) (refuse error cond >>= f)
      (fun _ _ => True) g := by
  cases cond with
  | true => trivial
  | false => exact h rfl

theorem deletes_other (k : RedisKey) :
    OtherAttempts email otpType (.exec (E := DbError) .pool (.redisDel k)) := by
  intro hk
  cases hk

theorem expires_other (k : RedisKey) (ttl : Int) :
    OtherAttempts email otpType (.exec (E := DbError) .pool (.redisExpire k ttl)) := by
  intro hk
  cases hk

theorem verifyOtp_attempts (code : String) :
    Act.Outline (Attempts email otpType) (noteAttempt email otpType)
      (AuthCache.verifyOtp email code otpType) (fun _ _ => True) .begun := by
  obtain ⟨rest, hverify, hrest⟩ := verifyOtp_parts email code otpType
  rw [hverify]
  refine attempts_ask (fun _ => rfl) fun n => ?_
  have hnoted : noteAttempt email otpType
      (.exec (E := DbError) .pool (.redisIncr (.otpAttempts email otpType))) (.ok n) .begun =
        .admitted n := if_pos rfl
  rw [hnoted]
  dsimp only
  split
  on_goal 1 => refine attempts_ask (attempts_of_other _ _ (expires_other _ _)) fun _ => ?_
  all_goals
    refine attempts_refuse fun hn => ?_
    have hle : n ≤ 5 := by simpa using hn
    refine attempts_ask (fun _ => ⟨n, hle, rfl⟩) fun found => attempts_rest ?_
    exact hrest deletes_other found

theorem verifyOtp_other {email' code : String} {otpType' : OtpType}
    (h : ¬(email' = email ∧ otpType' = otpType)) :
    Act.Uses (OtherAttempts email otpType) (AuthCache.verifyOtp email' code otpType') := by
  have hattempts : RedisKey.otpAttempts email' otpType' ≠ .otpAttempts email otpType := by
    rintro ⟨⟩
    exact h ⟨rfl, rfl⟩
  have hotp : RedisKey.otp email' otpType' ≠ .otp email otpType := by
    rintro ⟨⟩
    exact h ⟨rfl, rfl⟩
  obtain ⟨rest, hverify, hrest⟩ := verifyOtp_parts email' code otpType'
  rw [hverify]
  refine Act.uses_bind (uses_redis hattempts) fun n => ?_
  dsimp only
  split
  on_goal 1 => refine Act.uses_bind (uses_redis (expires_other _ _)) fun _ => ?_
  all_goals
    refine Act.uses_bind (uses_refuse _) fun _ => Act.uses_bind (uses_redis hotp) fun found => ?_
    exact hrest deletes_other found

theorem prog_attempts (call : SecretCall) :
    Act.Outline (Attempts email otpType) (noteAttempt email otpType) call.prog (fun _ _ => True)
      .begun := by
  cases call with
  | storeOtp email' otp otpType' =>
    have hset : OtherAttempts email otpType (.exec (E := DbError) .pool
        (.redisSet (.otp email' otpType') (.text otp) (some ttlOtpSecs))) := by rintro ⟨⟩
    exact attempts_rest (Act.uses_bind (uses_redis hset) fun _ => Act.uses_pure _)
  | verifyOtp email' code otpType' =>
    by_cases h : email' = email ∧ otpType' = otpType
    · obtain ⟨rfl, rfl⟩ := h
      exact verifyOtp_attempts code
    · exact attempts_rest (verifyOtp_other h)
  | revokeOtp email' otpType' =>
    exact attempts_rest (Act.uses_bind (uses_redis (deletes_other _)) fun _ => Act.uses_pure _)
  | storeOauthState state verifier =>
    have hset : OtherAttempts email otpType (.exec (E := DbError) .pool
        (.redisSet (.oauth2State state) (.oauth verifier) none)) := by rintro ⟨⟩
    rw [SecretCall.prog, AuthCache.storeOauthState]
    simp only [bind_assoc]
    refine attempts_rest (Act.uses_bind (uses_redis hset) fun _ => ?_)
    exact Act.uses_bind (uses_redis (expires_other _ _)) fun _ => Act.uses_pure _
  | consumeOauthState state =>
    have hget : OtherAttempts email otpType (.exec (E := DbError) .pool
        (.redisGet (.oauth2State state))) := by rintro ⟨⟩
    rw [SecretCall.prog, AuthCache.consumeOauthState]
    simp only [bind_assoc]
    refine attempts_rest (Act.uses_bind (uses_redis hget) fun data => ?_)
    refine Act.uses_bind (Act.uses_attempt (uses_redis (deletes_other _))) fun _ => ?_
    cases data with
    | none => trivial
    | some v => cases v <;> trivial

end Programs

/-! ## One count for each password -/

section Runs

variable {ι : Type} [DecidableEq ι] {calls : ι → SecretCall} {email : String} {otpType : OtpType}
  {s s' : Recorded (Guesses ι)} {g : ι → Attempt} {t : Guesses ι}

/-- The calls that have compared the password with a wrong code have attempts of one count, among
its first five. -/
structure Compared (t : Guesses ι) (g : ι → Attempt) : Prop where
  begun : ∀ i, g i = .begun → t.ticket i = none
  admitted : ∀ i n, g i = .admitted n → ∃ c, t.ticket i = some (c, n)
  wrong : ∀ i ∈ t.wrong, g i = .compared ∧ ∃ c n, t.ticket i = some (c, n) ∧ n ≤ 5
  once : t.wrong.Nodup
  same : ∀ i ∈ t.wrong, ∀ j ∈ t.wrong, (t.ticket i).map Prod.fst = (t.ticket j).map Prod.fst

omit [DecidableEq ι] in
/-- The numbers of the attempts tell the calls apart. -/
theorem Compared.bounded {k : RedisKey} {db : AuthDb} {now : OffsetDateTime}
    (hcount : Counted k db now t) (h : Compared t g) : t.wrong.length ≤ 5 := by
  let number : ι → Int := fun i => ((t.ticket i).map Prod.snd).getD 0
  have hnumber : ∀ i ∈ t.wrong, number i ∈ ([1, 2, 3, 4, 5] : List Int) := by
    intro i hi
    obtain ⟨-, c, n, hticket, hle⟩ := h.wrong i hi
    have hpos := (hcount.tickets i c n hticket).2
    have hn : number i = n := by simp only [number, hticket, Option.map_some, Option.getD_some]
    rw [hn]
    have hcases : n = 1 ∨ n = 2 ∨ n = 3 ∨ n = 4 ∨ n = 5 := by omega
    simpa using hcases
  have happart : ∀ i ∈ t.wrong, ∀ j ∈ t.wrong, number i = number j → i = j := by
    intro i hi j hj hij
    obtain ⟨-, c, n, hti, -⟩ := h.wrong i hi
    obtain ⟨-, c', n', htj, -⟩ := h.wrong j hj
    have hsame := h.same i hi j hj
    simp only [number, hti, htj, Option.map_some, Option.getD_some, Option.some.injEq] at hij hsame
    subst hij hsame
    exact hcount.apart i j _ hti htj
  have hnodup : (t.wrong.map number).Nodup := h.once.map_on happart
  have hsub : t.wrong.map number ⊆ [1, 2, 3, 4, 5] := by
    intro n hn
    obtain ⟨i, hi, rfl⟩ := List.mem_map.1 hn
    exact hnumber i hi
  calc t.wrong.length = (t.wrong.map number).length := (List.length_map number).symm
    _ ≤ ([1, 2, 3, 4, 5] : List Int).length := (List.subperm_of_subset hnodup hsub).length_le

omit [DecidableEq ι] in
/-- Another count may have begun. -/
theorem Compared.recount (h : Compared t g) (counts : Nat) :
    Compared { t with counts } g := ⟨h.begun, h.admitted, h.wrong, h.once, h.same⟩

omit [DecidableEq ι] in
/-- A password is stored. -/
theorem Compared.store (h : Compared t g) : Compared { t with wrong := [] } g :=
  ⟨h.begun, h.admitted, by simp, List.nodup_nil, by simp⟩

theorem Compared.take {i : ι} {c : Nat} {n : Int} (h : Compared t g) (hi : g i = .begun) :
    Compared { t with ticket := Function.update t.ticket i (some (c, n)) }
      (Function.update g i (.admitted n)) := by
  have hother : ∀ j ∈ t.wrong, j ≠ i := by
    rintro j hj rfl
    have hg := (h.wrong j hj).1
    rw [hi] at hg
    cases hg
  refine ⟨?_, ?_, ?_, h.once, ?_⟩
  · intro j hj
    by_cases hji : j = i
    · subst hji
      rw [Function.update_self] at hj
      cases hj
    · rw [Function.update_of_ne hji] at hj
      simpa only [Function.update_of_ne hji] using h.begun j hj
  · intro j m hj
    by_cases hji : j = i
    · subst hji
      rw [Function.update_self] at hj
      cases hj
      exact ⟨c, by simp only [Function.update_self]⟩
    · rw [Function.update_of_ne hji] at hj
      simpa only [Function.update_of_ne hji] using h.admitted j m hj
  · intro j hj
    have hji := hother j hj
    simpa only [Function.update_of_ne hji] using h.wrong j hj
  · intro j hj j' hj'
    simpa only [Function.update_of_ne (hother j hj), Function.update_of_ne (hother j' hj')] using
      h.same j hj j' hj'

/-- A call has read the password. -/
theorem Compared.read {i : ι} {n : Int} (h : Compared t g) (hi : g i = .admitted n) :
    Compared t (Function.update g i .compared) := by
  have hother : ∀ j, j ∉ t.wrong ∨ j ≠ i := by
    intro j
    by_cases hji : j = i
    · subst hji
      refine .inl fun hj => ?_
      have hg := (h.wrong j hj).1
      rw [hi] at hg
      cases hg
    · exact .inr hji
  refine ⟨?_, ?_, ?_, h.once, h.same⟩
  · intro j hj
    by_cases hji : j = i
    · subst hji
      rw [Function.update_self] at hj
      cases hj
    · rw [Function.update_of_ne hji] at hj
      exact h.begun j hj
  · intro j m hj
    by_cases hji : j = i
    · subst hji
      rw [Function.update_self] at hj
      cases hj
    · rw [Function.update_of_ne hji] at hj
      exact h.admitted j m hj
  · intro j hj
    rw [Function.update_of_ne ((hother j).resolve_left (not_not_intro hj))]
    exact h.wrong j hj

/-- A call that has read the password compares it with a wrong code. -/
theorem Compared.mistake {i : ι} {n : Int} (h : Compared t g) (hi : g i = .admitted n) (hn : n ≤ 5)
    (hsame : ∀ j ∈ t.wrong, (t.ticket j).map Prod.fst = (t.ticket i).map Prod.fst) :
    Compared { t with wrong := i :: t.wrong } (Function.update g i .compared) := by
  have hread := h.read hi
  obtain ⟨c, hticket⟩ := h.admitted i n hi
  refine ⟨hread.begun, hread.admitted, ?_, ?_, ?_⟩
  · intro j hj
    rcases List.mem_cons.1 hj with rfl | hj
    · exact ⟨Function.update_self _ _ _, c, n, hticket, hn⟩
    · exact hread.wrong j hj
  · refine List.nodup_cons.2 ⟨fun hmem => ?_, h.once⟩
    have hg := (h.wrong i hmem).1
    rw [hi] at hg
    cases hg
  · intro j hj j' hj'
    rcases List.mem_cons.1 hj with rfl | hold <;> rcases List.mem_cons.1 hj' with rfl | hold'
    · rfl
    · exact (hsame j' hold').symm
    · exact hsame j hold
    · exact h.same j hold j' hold'

/-- The counter and the comparisons are as the history says. -/
def Fair (email : String) (otpType : OtpType) (s : Recorded (Guesses ι)) (g : ι → Attempt) : Prop :=
  Counted (.otpAttempts email otpType) s.db s.now s.past ∧ Compared s.past g

theorem Fair.incr {i : ι} {n : Int} {ws : List AuthWrite} (h : Fair email otpType s g)
    (hexec : authEngine.exec (.redisIncr (.otpAttempts email otpType)) s.now s.db = .ok (n, ws)) :
    Fair email otpType (s.executed (noteGuess calls email otpType) i
        (.redisIncr (.otpAttempts email otpType)) none ws) g ∧
      (g i = .begun → Fair email otpType (s.executed (noteGuess calls email otpType) i
        (.redisIncr (.otpAttempts email otpType)) (some n) ws)
          (Function.update g i (.admitted n))) := by
  obtain ⟨hcounted, hnext⟩ := h.1.incr hexec
  have hcompared := h.2.recount (s.countNow email otpType)
  constructor
  · simp only [Fair, Recorded.executed, noteGuess, if_true]
    exact ⟨hcounted, hcompared⟩
  · intro hi
    simp only [Fair, Recorded.executed, noteGuess, if_true]
    exact ⟨hcounted.take hnext, hcompared.take hi⟩

/-- A statement by which no attempt is counted. -/
theorem Fair.keep {β : Type} {i : ι} {c : AuthStmt β} {b : β} {o : Option β} {ws : List AuthWrite}
    {g' : ι → Attempt} (h : Fair email otpType s g)
    (hexec : authEngine.exec c s.now s.db = .ok (b, ws))
    (hstores : c.storesAt ≠ some (.otpAttempts email otpType))
    (hcounts : (noteGuess calls email otpType i c o s).counts = s.past.counts)
    (hticket : (noteGuess calls email otpType i c o s).ticket = s.past.ticket)
    (hcompared : Compared (noteGuess calls email otpType i c o s) g') :
    Fair email otpType (s.executed (noteGuess calls email otpType) i c o ws) g' := by
  obtain ⟨counter, tickets, running, apart⟩ := h.1.notNewer (exec_notNewer hexec hstores)
  refine ⟨⟨counter, ?_, ?_, ?_⟩, hcompared⟩
  · simpa only [Recorded.executed, hcounts, hticket] using tickets
  · simpa only [Recorded.executed, hcounts, hticket] using running
  · simpa only [Recorded.executed, hticket] using apart

theorem Fair.same {β : Type} {i : ι} {c : AuthStmt β} {b : β} {o : Option β} {ws : List AuthWrite}
    (h : Fair email otpType s g) (hexec : authEngine.exec c s.now s.db = .ok (b, ws))
    (hstores : c.storesAt ≠ some (.otpAttempts email otpType))
    (hnote : noteGuess calls email otpType i c o s = s.past) :
    Fair email otpType (s.executed (noteGuess calls email otpType) i c o ws) g :=
  h.keep hexec hstores (by rw [hnote]) (by rw [hnote]) (by rw [hnote]; exact h.2)

theorem Fair.set {i : ι} {k : RedisKey} {v : RedisValue} {ttl : Option Int} {b : Unit}
    {o : Option Unit} {ws : List AuthWrite} (h : Fair email otpType s g)
    (hexec : authEngine.exec (.redisSet k v ttl) s.now s.db = .ok (b, ws))
    (hk : k ≠ .otpAttempts email otpType) :
    Fair email otpType (s.executed (noteGuess calls email otpType) i (.redisSet k v ttl) o ws) g := by
  have hstores : (AuthStmt.redisSet k v ttl).storesAt ≠ some (.otpAttempts email otpType) :=
    fun h => hk (Option.some.inj h)
  by_cases hotp : k = .otp email otpType
  · have hnote : noteGuess calls email otpType i (.redisSet k v ttl) o s =
        { s.past with wrong := [] } := if_pos hotp
    refine h.keep hexec hstores ?_ ?_ ?_
    · rw [hnote]
    · rw [hnote]
    · rw [hnote]
      exact h.2.store
  · exact h.same hexec hstores (if_neg hotp)

theorem Fair.get {i : ι} {k : RedisKey} {v : Option RedisValue} {ws : List AuthWrite}
    (h : Fair email otpType s g)
    (hexec : authEngine.exec (.redisGet k) s.now s.db = .ok (v, ws))
    (hpre : Attempts email otpType (.exec (E := DbError) .pool (.redisGet k)) (g i))
    (hone : OneCount calls email otpType i (.exec (E := DbError) .pool (.redisGet k)) s) :
    Fair email otpType (s.executed (noteGuess calls email otpType) i (.redisGet k) (some v) ws)
      (Function.update g i
        (noteAttempt email otpType (.exec (E := DbError) .pool (.redisGet k)) (.ok v) (g i))) := by
  have hstores : (AuthStmt.redisGet k).storesAt ≠ some (.otpAttempts email otpType) :=
    fun h => nomatch h
  by_cases hotp : k = .otp email otpType
  · obtain ⟨n, hn, hi⟩ := hpre hotp
    have hnoted : noteAttempt email otpType (.exec (E := DbError) .pool (.redisGet k)) (.ok v)
        (g i) = .compared := if_pos hotp
    rw [hnoted]
    have hfound : s.db.redis.find s.now k = v := by
      cases hexec
      rfl
    cases v with
    | none => exact h.keep hexec hstores rfl rfl (h.2.read hi)
    | some v =>
      by_cases hwrong : (calls i).Mistakes k v
      · have hnote : noteGuess calls email otpType i (.redisGet k) (some (some v)) s =
            { s.past with wrong := i :: s.past.wrong } := if_pos ⟨hotp, hwrong⟩
        refine h.keep hexec hstores ?_ ?_ ?_
        · rw [hnote]
        · rw [hnote]
        · rw [hnote]
          exact h.2.mistake hi hn (hone hotp v hfound hwrong)
      · have hnote : noteGuess calls email otpType i (.redisGet k) (some (some v)) s = s.past :=
          if_neg fun hand => hwrong hand.2
        refine h.keep hexec hstores ?_ ?_ ?_
        · rw [hnote]
        · rw [hnote]
        · rw [hnote]
          exact h.2.read hi
  · have hnoted : noteAttempt email otpType (.exec (E := DbError) .pool (.redisGet k)) (.ok v)
        (g i) = g i := if_neg hotp
    rw [hnoted, Function.update_eq_self]
    refine h.same hexec hstores ?_
    cases v with
    | none => rfl
    | some v => exact if_neg fun hand => hotp hand.1

theorem Fair.answered {β : Type} {c : AuthStmt β} {b : β} {ws : List AuthWrite} {i : ι}
    (h : Fair email otpType s g) (hexec : authEngine.exec c s.now s.db = .ok (b, ws))
    (hpre : Attempts email otpType (.exec (E := DbError) .pool c) (g i))
    (hone : OneCount calls email otpType i (.exec (E := DbError) .pool c) s) :
    Fair email otpType (s.executed (noteGuess calls email otpType) i c (some b) ws)
      (Function.update g i
        (noteAttempt email otpType (.exec (E := DbError) .pool c) (.ok b) (g i))) := by
  cases c with
  | redisGet k => exact h.get hexec hpre hone
  | redisIncr k =>
    by_cases hk : k = .otpAttempts email otpType
    · subst hk
      have hnoted : noteAttempt email otpType (.exec (E := DbError) .pool (.redisIncr
          (.otpAttempts email otpType))) (.ok b) (g i) = .admitted b := if_pos rfl
      rw [hnoted]
      exact (h.incr hexec).2 (hpre rfl)
    · have hnoted : noteAttempt email otpType (.exec (E := DbError) .pool (.redisIncr k)) (.ok b)
          (g i) = g i := if_neg hk
      rw [hnoted, Function.update_eq_self]
      refine h.same hexec (fun h => hk (Option.some.inj h)) (if_neg hk)
  | redisSet k v ttl =>
    have hnoted : noteAttempt email otpType (.exec (E := DbError) .pool (.redisSet k v ttl)) (.ok b)
        (g i) = g i := rfl
    rw [hnoted, Function.update_eq_self]
    exact h.set hexec fun hk => hpre (congrArg some hk)
  | _ =>
    simp only [noteAttempt, Function.update_eq_self]
    exact h.same hexec hpre rfl

theorem Fair.unanswered {β : Type} {c : AuthStmt β} {b : β} {ws : List AuthWrite} {i : ι}
    (h : Fair email otpType s g) (hexec : authEngine.exec c s.now s.db = .ok (b, ws))
    (hpre : Attempts email otpType (.exec (E := DbError) .pool c) (g i)) :
    Fair email otpType (s.executed (noteGuess calls email otpType) i c none ws) g := by
  cases c with
  | redisIncr k =>
    by_cases hk : k = .otpAttempts email otpType
    · subst hk
      exact (h.incr hexec).1
    · refine h.same hexec (fun h => hk (Option.some.inj h)) (if_neg hk)
  | redisSet k v ttl => exact h.set hexec fun hk => hpre (congrArg some hk)
  | redisGet k => exact h.same hexec (fun h => nomatch h) rfl
  | _ => exact h.same hexec hpre rfl

theorem Fair.exec {β : Type} {c : Cmd AuthStmt DbError β} {b : β} {i : ι}
    (h : Fair email otpType s g) (hpre : Attempts email otpType c (g i))
    (hs : ExecOneCount calls email otpType i c s b s') :
    Fair email otpType s' (Function.update g i (noteAttempt email otpType c b (g i))) := by
  obtain ⟨hexec, hone⟩ := hs
  cases hexec with
  | answered hok => exact h.answered hok hpre hone
  | unanswered hok =>
    rw [noteAttempt_error, Function.update_eq_self]
    exact h.unanswered hok hpre
  | refused _ =>
    rw [noteAttempt_error, Function.update_eq_self]
    exact h
  | unsent =>
    rw [noteAttempt_error, Function.update_eq_self]
    exact h

omit [DecidableEq ι] in
theorem Fair.elsewhere (h : Fair email otpType s g)
    (henv : Elsewhere (OtpKeys email otpType) s s') : Fair email otpType s' g := by
  obtain ⟨db, now, rfl, hnow, hkeys⟩ := henv
  exact ⟨h.1.notNewer (notNewer_later (hkeys _ (.inr rfl)) hnow), h.2⟩

omit [DecidableEq ι] in
theorem fair_begin (db : AuthDb) (now : OffsetDateTime) :
    Fair email otpType (nobodyGuesses calls db now).store fun _ => .begun := by
  refine ⟨⟨?_, ?_, ?_, ?_⟩, ⟨fun _ _ => rfl, ?_, ?_, List.nodup_nil, ?_⟩⟩
  · intro e he
    cases he
  · intro i c n h
    cases h
  · intro i n h
    cases h
  · intro i j x h
    cases h
  · intro i n h
    cases h
  · intro i h
    cases h
  · intro i h
    cases h

/-- In the runs in which every password is compared under one count of the attempts, it is compared
with at most five wrong codes. -/
theorem guesses_bounded (calls : ι → SecretCall) (email : String) (otpType : OtpType) (db : AuthDb)
    (now : OffsetDateTime) {p : GuessPool ι}
    (hruns : Pool.Steps (ExecOneCount calls email otpType) (Elsewhere (OtpKeys email otpType))
      (nobodyGuesses calls db now) p) : p.store.past.wrong.length ≤ 5 := by
  have houtlined : p.Outlined (fun _ {_} => Attempts email otpType)
      (fun _ {_} => noteAttempt email otpType) (fun _ _ _ => True) (Fair email otpType) := by
    refine Pool.outlined_of_steps ?_ ?_ hruns ?_
    · intro i β c s b s' g hpre hs hfair
      exact hfair.exec hpre hs
    · intro s s' g hs hfair
      exact hfair.elsewhere hs
    · exact ⟨fun _ => .begun, fair_begin db now, fun i => prog_attempts (calls i)⟩
  obtain ⟨g, ⟨hcounted, hcompared⟩, -⟩ := houtlined
  exact hcompared.bounded hcounted

end Runs

/-! ## A password that meets two counts -/

section Examples

/-- Ann's password, and any number of wrong guesses at it. -/
def guessesAtAnns : Nat → SecretCall
  | 0 => .storeOtp "ann@meno" "123456" .verifyEmail
  | _ => .verifyOtp "ann@meno" "000000" .verifyEmail

/-- The commands of the calls in an order, and the seconds that pass between them. -/
def playGuesses (schedule : List (Pool.Turn Nat Nat)) : GuessPool Nat :=
  schedule.foldl
    (Pool.turn (Recorded.answer (noteGuess guessesAtAnns "ann@meno" .verifyEmail)) Recorded.later)
    (nobodyGuesses guessesAtAnns .empty 0)

/-- The password is stored, and guessed at six times, by some at once; the last guess is one too
many. -/
def sixAtOnce : List (Pool.Turn Nat Nat) :=
  [.call 0, .call 1, .call 2, .call 1, .call 3, .call 2, .call 1, .call 4, .call 3, .call 4,
    .call 5, .call 6, .call 5, .call 6]

/-- A guess before the password is stored; four guesses at it, and two when the first count is
over. -/
def twoCounts : List (Pool.Turn Nat Nat) :=
  [.call 1, .call 1, .call 1, .env 100, .call 0, .call 2, .call 2, .call 3, .call 3, .call 4,
    .call 4, .call 5, .call 5, .env 801, .call 6, .call 6, .call 6, .call 7, .call 7]

/-- Outside of transactions, and whoever has guessed wrong has the attempt in the count of `i`. -/
def inOneCount (i : Nat) : {β : Type} → Cmd AuthStmt DbError β → Recorded (Guesses Nat) → Bool
  | _, .exec .pool (.redisGet _), s => s.past.wrong.all fun j =>
    (s.past.ticket j).map Prod.fst = (s.past.ticket i).map Prod.fst
  | _, .exec .pool _, _ => true
  | _, _, _ => false

theorem execOneCount_answer {i : Nat} {β : Type} {c : Cmd AuthStmt DbError β}
    {s : Recorded (Guesses Nat)} (hc : inOneCount i c s = true) :
    ExecOneCount guessesAtAnns "ann@meno" .verifyEmail i c s
      (Recorded.answer (noteGuess guessesAtAnns "ann@meno" .verifyEmail) i c s).1
      (Recorded.answer (noteGuess guessesAtAnns "ann@meno" .verifyEmail) i c s).2 := by
  cases c with
  | exec e c =>
    cases e with
    | pool =>
      refine ⟨commandExec_answer rfl, ?_⟩
      cases c with
      | redisGet k =>
        exact fun _ v _ _ j hj => of_decide_eq_true (List.all_eq_true.1 hc j hj)
      | _ => trivial
    | tx => cases c <;> cases hc
  | _ => cases hc

theorem guesses_counted : (playGuesses sixAtOnce).store.past.wrong = [5, 4, 3, 1, 2] ∧
    (playGuesses sixAtOnce).store.past.wrong.length ≤ 5 := by
  refine ⟨rfl, guesses_bounded guessesAtAnns "ann@meno" .verifyEmail .empty 0 ?_⟩
  refine Pool.steps_turns (fun _ _ _ _ hc => execOneCount_answer hc)
    (fun s n => elsewhere_later s n) ?_
  exact ⟨rfl, rfl, rfl, rfl, rfl, rfl, rfl, rfl, rfl, rfl, rfl, rfl, rfl, trivial, trivial⟩

/-- Six wrong codes, within a quarter of an hour after the password was stored. -/
theorem six_guesses : ¬∀ (calls : Nat → SecretCall) (email : String) (otpType : OtpType)
    (db : AuthDb) (now : OffsetDateTime) (p : GuessPool Nat),
    Pool.Steps (CommandExec (noteGuess calls email otpType)) (Elsewhere (OtpKeys email otpType))
      (nobodyGuesses calls db now) p → p.store.past.wrong.length ≤ 5 := by
  intro h
  have hruns : Pool.Steps (CommandExec (noteGuess guessesAtAnns "ann@meno" .verifyEmail))
      (Elsewhere (OtpKeys "ann@meno" .verifyEmail)) (nobodyGuesses guessesAtAnns .empty 0)
      (playGuesses twoCounts) := by
    refine Pool.steps_turns (fun _ _ _ _ hc => commandExec_answer hc)
      (fun s n => elsewhere_later s n) ?_
    exact ⟨rfl, rfl, rfl, trivial, rfl, rfl, rfl, rfl, rfl, rfl, rfl, rfl, rfl, trivial, rfl, rfl,
      rfl, rfl, rfl, trivial⟩
  have hsix : (playGuesses twoCounts).store.past.wrong = [7, 6, 5, 4, 3, 2] := rfl
  have hbound := h _ _ _ _ _ _ hruns
  rw [hsix] at hbound
  exact absurd hbound (by decide)

end Examples

end Auth

end Meno
