import Mathlib.Logic.Function.Basic
import Meno.Lib.Timeline
import Meno.Shared.Push

/-!
# Meno.Push.Tasks

Calls of `send` that run at the same time. They share the breaker and the cached access token of
Google; the lock of the cache is held while a token is fetched. `tokens_sound` says what the cache
is for: there is one fetch at a time, a token goes into a request while Google still takes it, and
none is fetched while the last one is good.
-/

namespace Meno

open Lib PushNotificationService

/-! ## One call -/

/-- Where a call of `send` is. -/
inductive SendTask
  | checking
  | locking
  /-- It has the lock of the token cache, and has asked Google. -/
  | fetching (askedAt : Instant)
  /-- It has asked FCM. -/
  | posting (accessToken : String)
  | ended (result : Except PushError Unit)

structure SharedPush where
  service : PushNotificationService
  /-- The lock of the token cache is held. -/
  locked : Bool

/-- What a call can go on with. -/
inductive SendEvent
  | check
  | lock
  | fetched (token : Except String GoogleTokenResponse)
  | answered (response : Except HttpError Nat)

namespace SendTask

/-- What FCM answers, and what the breaker is told of it. -/
def onResponse (breaker : CircuitBreaker) (now : Instant) :
    Except HttpError Nat → Except PushError Unit × CircuitBreaker
  | .error e => (.error (.http e), breaker)
  | .ok status =>
    if 200 ≤ status ∧ status ≤ 299 then (.ok (), breaker.onSuccess)
    else if status = 404 then (.error .tokenInvalid, breaker)
    else (.error (if status = 429 then .rateLimited else .sendFailed status), breaker.onFailure now)

/-- FCM was asked, if a call has this result. -/
def reached : Except PushError Unit → Bool
  | .error .circuitOpen => false
  | .error (.tokenFetch _) => false
  | _ => true

theorem onResponse_cases (breaker : CircuitBreaker) (now : Instant) (r : Except HttpError Nat) :
    reached (onResponse breaker now r).1 = true ∧
      ((onResponse breaker now r).2 = breaker ∨ (onResponse breaker now r).2 = breaker.onSuccess ∨
        (onResponse breaker now r).2 = breaker.onFailure now) := by
  cases r with
  | error e => exact ⟨rfl, .inl rfl⟩
  | ok status =>
    simp only [onResponse]
    split
    · exact ⟨rfl, .inr (.inl rfl)⟩
    · split
      · exact ⟨rfl, .inl rfl⟩
      · refine ⟨?_, .inr (.inr rfl)⟩
        split <;> rfl

/-- The call is let through, or it has failed. -/
def check (now : Instant) (s : SharedPush) : SendTask × SharedPush :=
  match s.service.breaker.check now with
  | (breaker, .ok ()) => (.locking, { s with service := { s.service with breaker } })
  | (breaker, .error _) =>
    (.ended (.error .circuitOpen), { s with service := { s.service with breaker } })

/-- The cached token, if it has more than a minute left. -/
def goodToken (now : Instant) (s : SharedPush) : Option CachedToken :=
  s.service.tokenCache.filter fun cached => cached.expiresAt > now + secs 60

def lock (now : Instant) (s : SharedPush) : SendTask × SharedPush :=
  if s.locked then (.locking, s)
  else
    match goodToken now s with
    | some cached => (.posting cached.accessToken, s)
    | none => (.fetching now, { s with locked := true })

def fetched (now : Instant) (s : SharedPush) :
    Except String GoogleTokenResponse → SendTask × SharedPush
  | .error text => (.ended (.error (.tokenFetch text)), { s with locked := false })
  | .ok token =>
    let expiresAt := now + secs (token.expiresIn.toNat - 60)
    (.posting token.accessToken, {
      service := { s.service with tokenCache := some ⟨token.accessToken, expiresAt⟩ }
      locked := false })

def answered (now : Instant) (s : SharedPush) (response : Except HttpError Nat) :
    SendTask × SharedPush :=
  let (result, breaker) := onResponse s.service.breaker now response
  (.ended result, { s with service := { s.service with breaker } })

/-- The next step of a call, at a time. What does not concern it changes nothing. -/
def step (now : Instant) (s : SharedPush) : SendTask → SendEvent → SendTask × SharedPush
  | .checking, .check => check now s
  | .locking, .lock => lock now s
  | .fetching _, .fetched token => fetched now s token
  | .posting _, .answered response => answered now s response
  | task, _ => (task, s)

/-- Step after step, each at its time. -/
def run (s : SharedPush) (task : SendTask) : List (Instant × SendEvent) → SendTask × SharedPush
  | [] => (task, s)
  | (now, e) :: rest => run (step now s task e).2 (step now s task e).1 rest

/-- What a call meets that runs alone. -/
def events (a : Attempt) : List (Instant × SendEvent) :=
  [(a.checkedAt, .check), (a.tokenAt, .lock), (a.fetchedAt, .fetched a.fetchGoogleToken),
    (a.reportedAt, .answered a.response)]

theorem run_ended (s : SharedPush) (result : Except PushError Unit)
    (es : List (Instant × SendEvent)) : run s (.ended result) es = (.ended result, s) := by
  induction es with
  | nil => rfl
  | cons e es ih => exact ih

/-- What the request to FCM ends in is what `send` ends in after it has a token. -/
theorem answered_eq (svc : PushNotificationService) (a : Attempt) :
    answered a.reportedAt ⟨svc, false⟩ a.response =
      match a.response with
      | .error e => (.ended (.error (.http e)), ⟨svc, false⟩)
      | .ok status =>
        (.ended (svc.onStatus a status).result, ⟨(svc.onStatus a status).service, false⟩) := by
  cases a.response with
  | error e => rfl
  | ok status =>
    simp only [answered, onResponse, onStatus]
    split
    · rfl
    · split <;> rfl

/-- Alone, a call does what `send` does. -/
theorem run_events (svc : PushNotificationService) (a : Attempt) :
    run ⟨svc, false⟩ .checking (events a) =
      (.ended (svc.send a).result, ⟨(svc.send a).service, false⟩) := by
  have hchecked : run ⟨svc, false⟩ .checking (events a) =
      run (check a.checkedAt ⟨svc, false⟩).2 (check a.checkedAt ⟨svc, false⟩).1
        (events a).tail := rfl
  rw [hchecked, check, send]
  rcases svc.breaker.check a.checkedAt with ⟨breaker, _ | ⟨⟩⟩
  · exact run_ended _ _ _
  · have hlocked : run ⟨{ svc with breaker }, false⟩ .locking (events a).tail =
        run (lock a.tokenAt ⟨{ svc with breaker }, false⟩).2
          (lock a.tokenAt ⟨{ svc with breaker }, false⟩).1 (events a).tail.tail := rfl
    simp only [hlocked, lock, goodToken, getAccessToken, cachedToken, Bool.false_eq_true, if_false]
    cases svc.tokenCache.filter fun cached => cached.expiresAt > a.tokenAt + secs 60 with
    | some cached =>
      refine (answered_eq { svc with breaker } a).trans ?_
      cases a.response <;> rfl
    | none =>
      have hfetched : run ⟨{ svc with breaker }, true⟩ (.fetching a.tokenAt) (events a).tail.tail =
          run (fetched a.fetchedAt ⟨{ svc with breaker }, true⟩ a.fetchGoogleToken).2
            (fetched a.fetchedAt ⟨{ svc with breaker }, true⟩ a.fetchGoogleToken).1
            [(a.reportedAt, .answered a.response)] := rfl
      simp only [hfetched]
      cases a.fetchGoogleToken with
      | error text => rfl
      | ok token =>
        refine (answered_eq _ a).trans ?_
        cases a.response <;> rfl

end SendTask

/-! ## Many calls -/

/-- An access token that Google has sent. -/
structure Fetch where
  askedAt : Instant
  fetchedAt : Instant
  token : GoogleTokenResponse

namespace Fetch

/-- More than this is left of the token at a time. -/
def GoodFor (f : Fetch) (margin now : Nat) : Prop :=
  now + margin < f.fetchedAt + secs f.token.expiresIn.toNat

def cached (f : Fetch) : CachedToken where
  accessToken := f.token.accessToken
  expiresAt := f.fetchedAt + secs (f.token.expiresIn.toNat - 60)

/-- The minute that the cache takes off, and the one that the look into it asks for. -/
theorem lt_secs_iff {t now n : Nat} (h : t ≤ now) :
    now + secs 120 < t + secs n ↔ t + secs (n - 60) > now + secs 60 := by
  simp only [secs]
  omega

theorem goodFor_iff {f : Fetch} {now : Instant} (h : f.fetchedAt ≤ now) :
    f.GoodFor (secs 120) now ↔ f.cached.expiresAt > now + secs 60 := lt_secs_iff h

end Fetch

/-- An access token that has gone into a request to FCM. -/
structure TokenUse where
  accessToken : String
  now : Instant

/-- All the calls, what Google has sent and where it has gone. -/
structure SendTasks (ι : Type) where
  clock : Instant
  shared : SharedPush
  task : ι → SendTask
  fetches : List Fetch
  uses : List TokenUse

inductive SendTurn (ι : Type)
  /-- Time passes. -/
  | elapse (d : Nat)
  | call (i : ι) (e : SendEvent)

namespace SendTask

/-- What Google sends with a step. -/
def sent (now : Instant) : SendTask → SendEvent → List Fetch
  | .fetching askedAt, .fetched (.ok token) => [⟨askedAt, now, token⟩]
  | _, _ => []

/-- What goes to FCM with a step. -/
def used (now : Instant) : SendTask → SendTask → List TokenUse
  | .locking, .posting accessToken => [⟨accessToken, now⟩]
  | .fetching _, .posting accessToken => [⟨accessToken, now⟩]
  | _, _ => []

end SendTask

namespace SendTasks

variable {ι : Type}

def start (clock : Instant) (breaker : CircuitBreaker) : SendTasks ι where
  clock := clock
  shared := ⟨⟨none, breaker⟩, false⟩
  task := fun _ => .checking
  fetches := []
  uses := []

def turn [DecidableEq ι] (s : SendTasks ι) : SendTurn ι → SendTasks ι
  | .elapse d => { s with clock := s.clock + d }
  | .call i e =>
    let (task, shared) := SendTask.step s.clock s.shared (s.task i) e
    { clock := s.clock
      shared
      task := Function.update s.task i task
      fetches := s.fetches ++ (s.task i).sent s.clock e
      uses := s.uses ++ SendTask.used s.clock (s.task i) task }

/-- One token is fetched at a time, and the lock is given back; no token is asked for while the last
one is good for two minutes; and what goes to FCM has just come, or is good for two minutes. -/
structure TokensSound (s : SendTasks ι) : Prop where
  single : ∀ i j t t', s.task i = .fetching t → s.task j = .fetching t' → i = j
  released : s.shared.locked = true → ∃ i t, s.task i = .fetching t
  spaced : s.fetches.Pairwise fun f f' =>
    f.fetchedAt ≤ f'.askedAt ∧ ¬ f.GoodFor (secs 120) f'.askedAt
  asked : ∀ i t, s.task i = .fetching t → ∀ f ∈ s.fetches, ¬ f.GoodFor (secs 120) t
  used : ∀ use ∈ s.uses, ∃ f ∈ s.fetches, f.token.accessToken = use.accessToken ∧
    (use.now = f.fetchedAt ∨ f.GoodFor (secs 120) use.now)

/-! ## What is kept -/

/-- Besides: the cache holds what came last. -/
structure Inv (s : SendTasks ι) : Prop where
  sound : s.TokensSound
  free : s.shared.locked = false → ∀ i t, s.task i ≠ .fetching t
  cached : s.shared.service.tokenCache = s.fetches.getLast?.map Fetch.cached
  past : ∀ f ∈ s.fetches, f.askedAt ≤ f.fetchedAt ∧ f.fetchedAt ≤ s.clock
  since : ∀ i t, s.task i = .fetching t → t ≤ s.clock ∧ ∀ f ∈ s.fetches, f.fetchedAt ≤ t

/-- What a step of one call can do. -/
inductive Ends (now : Instant) (s : SharedPush) :
    SendTask → SendEvent → SendTask → SharedPush → Prop
  | passes {e : SendEvent} {breaker : CircuitBreaker}
      (checked : s.service.breaker.check now = (breaker, .ok ())) :
      Ends now s .checking e .locking { s with service := { s.service with breaker } }
  | stops {e : SendEvent} {breaker : CircuitBreaker} {text : String}
      (checked : s.service.breaker.check now = (breaker, .error text)) :
      Ends now s .checking e (.ended (.error .circuitOpen))
        { s with service := { s.service with breaker } }
  | reuses {e : SendEvent} {cached : CachedToken} (free : s.locked = false)
      (good : SendTask.goodToken now s = some cached) :
      Ends now s .locking e (.posting cached.accessToken) s
  | asks {e : SendEvent} (free : s.locked = false) (none : SendTask.goodToken now s = none) :
      Ends now s .locking e (.fetching now) { s with locked := true }
  | fails {t : Instant} {text : String} :
      Ends now s (.fetching t) (.fetched (.error text)) (.ended (.error (.tokenFetch text)))
        { s with locked := false }
  | gets {t : Instant} {token : GoogleTokenResponse} :
      Ends now s (.fetching t) (.fetched (.ok token)) (.posting token.accessToken) {
        service := { s.service with tokenCache := some (Fetch.mk t now token).cached }
        locked := false }
  | answers {accessToken : String} {e : SendEvent} {result : Except PushError Unit}
      {breaker : CircuitBreaker} (asked : SendTask.reached result = true)
      (reported : breaker = s.service.breaker ∨ breaker = s.service.breaker.onSuccess ∨
        breaker = s.service.breaker.onFailure now) :
      Ends now s (.posting accessToken) e (.ended result)
        { s with service := { s.service with breaker } }
  | stays {task : SendTask} {e : SendEvent} (nothing : task.sent now e = []) :
      Ends now s task e task s

theorem step_ends (now : Instant) (s : SharedPush) (task : SendTask) (e : SendEvent) :
    Ends now s task e (SendTask.step now s task e).1 (SendTask.step now s task e).2 := by
  unfold SendTask.step
  split
  · simp only [SendTask.check]
    rcases hcheck : s.service.breaker.check now with ⟨breaker, _ | ⟨⟩⟩
    · exact .stops hcheck
    · exact .passes hcheck
  · simp only [SendTask.lock]
    split
    · exact .stays rfl
    · rename_i hfree
      rw [Bool.not_eq_true] at hfree
      split
      · rename_i cached hgood
        exact .reuses hfree hgood
      · rename_i hnone
        exact .asks hfree hnone
  · rename_i t token
    cases token with
    | error text => exact .fails
    | ok token => exact .gets
  · obtain ⟨hreached, hreported⟩ := SendTask.onResponse_cases s.service.breaker now _
    exact .answers hreached hreported
  · rename_i h _
    refine .stays ?_
    unfold SendTask.sent
    split
    · exact absurd rfl (h _ _ rfl)
    · rfl

section Kept

variable {s : SendTasks ι} {i : ι} {t : Instant}

/-- Only the last token can be good for two minutes. -/
theorem Inv.eq_last (h : s.Inv) {f : Fetch} (hf : f ∈ s.fetches)
    (hgood : f.GoodFor (secs 120) s.clock) : s.fetches.getLast? = some f := by
  obtain ⟨before, after, hsplit⟩ := List.append_of_mem hf
  cases after with
  | nil => rw [hsplit, List.getLast?_concat]
  | cons f' after =>
    have hspaced := h.sound.spaced
    rw [hsplit, List.pairwise_append] at hspaced
    obtain ⟨-, hnot⟩ := (List.pairwise_cons.1 hspaced.2.1).1 f' List.mem_cons_self
    have hpast := h.past f' (by rw [hsplit]; simp)
    refine absurd ?_ hnot
    exact Nat.lt_of_le_of_lt (Nat.add_le_add_right (Nat.le_trans hpast.1 hpast.2) _) hgood

theorem Inv.of_goodToken (h : s.Inv) {cached : CachedToken}
    (hgood : SendTask.goodToken s.clock s.shared = some cached) :
    ∃ f ∈ s.fetches, f.token.accessToken = cached.accessToken ∧ f.GoodFor (secs 120) s.clock := by
  rw [SendTask.goodToken, h.cached, Option.filter_eq_some_iff] at hgood
  obtain ⟨hlast, hgood⟩ := hgood
  obtain ⟨f, hf, rfl⟩ := Option.map_eq_some_iff.1 hlast
  have hmem := List.mem_of_getLast? hf
  exact ⟨f, hmem, rfl, (Fetch.goodFor_iff (h.past f hmem).2).2 (of_decide_eq_true hgood)⟩

theorem Inv.of_no_goodToken (h : s.Inv) (hnone : SendTask.goodToken s.clock s.shared = none)
    {f : Fetch} (hf : f ∈ s.fetches) : ¬ f.GoodFor (secs 120) s.clock := by
  intro hgood
  rw [SendTask.goodToken, h.cached, h.eq_last hf hgood, Option.map_some,
    Option.filter_eq_none_iff] at hnone
  exact hnone _ rfl (decide_eq_true ((Fetch.goodFor_iff (h.past f hf).2).1 hgood))

/-- What goes to FCM with it. -/
theorem Inv.uses (h : s.Inv) {uses : List TokenUse}
    (huses : ∀ use ∈ uses, ∃ f ∈ s.fetches, f.token.accessToken = use.accessToken ∧
      (use.now = f.fetchedAt ∨ f.GoodFor (secs 120) use.now)) :
    Inv { s with uses := s.uses ++ uses } := by
  refine ⟨⟨h.sound.single, h.sound.released, h.sound.spaced, h.sound.asked, ?_⟩, h.free, h.cached,
    h.past, h.since⟩
  intro use huse
  rcases List.mem_append.1 huse with huse | huse
  · exact h.sound.used use huse
  · exact huses use huse

/-- A token has come, for which it was asked when no other was good. -/
theorem Inv.gets (h : s.Inv) (hnobody : ∀ j t, s.task j ≠ .fetching t)
    (token : GoogleTokenResponse)
    (hsince : t ≤ s.clock ∧ ∀ f ∈ s.fetches, f.fetchedAt ≤ t)
    (hasked : ∀ f ∈ s.fetches, ¬ f.GoodFor (secs 120) t) :
    Inv { s with
      shared := { s.shared with
        service := { s.shared.service with tokenCache := some (Fetch.mk t s.clock token).cached } }
      fetches := s.fetches ++ [⟨t, s.clock, token⟩] } := by
  refine ⟨⟨h.sound.single, h.sound.released, ?_, fun j t' hj => absurd hj (hnobody j t'), ?_⟩,
    h.free, ?_, ?_, fun j t' hj => absurd hj (hnobody j t')⟩
  · refine List.pairwise_append.2 ⟨h.sound.spaced, List.pairwise_singleton _ _, ?_⟩
    intro f hf f' hf'
    rw [List.mem_singleton.1 hf']
    exact ⟨hsince.2 f hf, hasked f hf⟩
  · intro use huse
    obtain ⟨f, hf, hused⟩ := h.sound.used use huse
    exact ⟨f, List.mem_append_left _ hf, hused⟩
  · rw [List.getLast?_concat, Option.map_some]
  · intro f hf
    rcases List.mem_append.1 hf with hf | hf
    · exact h.past f hf
    · rw [List.mem_singleton.1 hf]
      exact ⟨hsince.1, Nat.le_refl _⟩

variable [DecidableEq ι]

theorem fetching_update {task : SendTask} {j : ι}
    (h : Function.update s.task i task j = .fetching t) :
    j = i ∧ task = .fetching t ∨ j ≠ i ∧ s.task j = .fetching t := by
  by_cases hj : j = i
  · subst hj
    rw [Function.update_self] at h
    exact .inl ⟨rfl, h⟩
  · rw [Function.update_of_ne hj] at h
    exact .inr ⟨hj, h⟩

/-- A step that neither takes nor gives back the lock. -/
theorem Inv.quiet (h : s.Inv) {task : SendTask} (shared : SharedPush)
    (hcache : shared.service.tokenCache = s.shared.service.tokenCache)
    (hlocked : shared.locked = s.shared.locked)
    (htask : ∀ t, task = .fetching t ↔ s.task i = .fetching t) :
    Inv { s with shared, task := Function.update s.task i task } := by
  have hsame : ∀ j t, Function.update s.task i task j = .fetching t ↔ s.task j = .fetching t := by
    intro j t
    by_cases hj : j = i
    · subst hj
      rw [Function.update_self]
      exact htask t
    · rw [Function.update_of_ne hj]
  refine ⟨⟨?_, ?_, h.sound.spaced, ?_, h.sound.used⟩, ?_, hcache.trans h.cached, h.past, ?_⟩
  · intro j j' t t' hj hj'
    exact h.sound.single j j' t t' ((hsame j t).1 hj) ((hsame j' t').1 hj')
  · intro hheld
    obtain ⟨j, t, hj⟩ := h.sound.released (hlocked.symm.trans hheld)
    exact ⟨j, t, (hsame j t).2 hj⟩
  · intro j t hj
    exact h.sound.asked j t ((hsame j t).1 hj)
  · intro hfree j t hj
    exact h.free (hlocked.symm.trans hfree) j t ((hsame j t).1 hj)
  · intro j t hj
    exact h.since j t ((hsame j t).1 hj)

/-- The lock is free, and the call takes it. -/
theorem Inv.asks (h : s.Inv) (hfree : s.shared.locked = false)
    (hnone : SendTask.goodToken s.clock s.shared = none) :
    Inv { s with
      shared := { s.shared with locked := true }
      task := Function.update s.task i (.fetching s.clock) } := by
  have honly : ∀ j t, Function.update s.task i (.fetching s.clock) j = .fetching t →
      j = i ∧ s.clock = t := by
    intro j t hj
    obtain ⟨rfl, ht⟩ | ⟨-, hj⟩ := fetching_update hj
    · exact ⟨rfl, SendTask.fetching.inj ht⟩
    · exact absurd hj (h.free hfree j t)
  refine ⟨⟨?_, ?_, h.sound.spaced, ?_, h.sound.used⟩, nofun, h.cached, h.past, ?_⟩
  · intro j j' t t' hj hj'
    rw [(honly j t hj).1, (honly j' t' hj').1]
  · exact fun _ => ⟨i, s.clock, Function.update_self ..⟩
  · intro j t hj f hf
    obtain ⟨rfl, rfl⟩ := honly j t hj
    exact h.of_no_goodToken hnone hf
  · intro j t hj
    obtain ⟨rfl, rfl⟩ := honly j t hj
    exact ⟨Nat.le_refl _, fun f hf => (h.past f hf).2⟩

/-- The call that has the lock gives it back. -/
theorem Inv.gives (h : s.Inv) (hi : s.task i = .fetching t) (task : SendTask)
    (htask : ∀ t, task ≠ .fetching t) :
    Inv { s with
      shared := { s.shared with locked := false }
      task := Function.update s.task i task } := by
  have hnobody : ∀ j t, Function.update s.task i task j ≠ .fetching t := by
    intro j t' hj
    obtain ⟨-, ht⟩ | ⟨hne, hj⟩ := fetching_update hj
    · exact htask t' ht
    · exact hne (h.sound.single j i t' t hj hi)
  refine ⟨⟨?_, nofun, h.sound.spaced, ?_, h.sound.used⟩, fun _ => hnobody, h.cached, h.past, ?_⟩
  · exact fun j _ t' _ hj => absurd hj (hnobody j t')
  · exact fun j t' hj => absurd hj (hnobody j t')
  · exact fun j t' hj => absurd hj (hnobody j t')

theorem Inv.turn (h : s.Inv) (t : SendTurn ι) : (s.turn t).Inv := by
  cases t with
  | elapse d =>
    have hlater : s.clock ≤ s.clock + d := Nat.le_add_right _ _
    refine ⟨⟨h.sound.single, h.sound.released, h.sound.spaced, h.sound.asked, h.sound.used⟩, h.free,
      h.cached, fun f hf => ?_, fun i t hi => ?_⟩
    · exact ⟨(h.past f hf).1, Nat.le_trans (h.past f hf).2 hlater⟩
    · exact ⟨Nat.le_trans (h.since i t hi).1 hlater, (h.since i t hi).2⟩
  | call i e =>
    have hends := step_ends s.clock s.shared (s.task i) e
    simp only [SendTasks.turn]
    generalize SendTask.step s.clock s.shared (s.task i) e = next at hends
    generalize hi : s.task i = before at hends
    obtain ⟨task, shared'⟩ := next
    cases hends with
    | @passes e breaker checked =>
      have hnot : ∀ t, SendTask.locking = .fetching t ↔ s.task i = .fetching t := by
        rw [hi]
        exact fun t => ⟨nofun, nofun⟩
      simpa only [SendTask.sent, SendTask.used, List.append_nil] using
        h.quiet { s.shared with service := { s.shared.service with breaker } }
          rfl rfl hnot
    | @stops e breaker text checked =>
      have hnot : ∀ t, SendTask.ended (.error .circuitOpen) = .fetching t ↔
          s.task i = .fetching t := by
        rw [hi]
        exact fun t => ⟨nofun, nofun⟩
      simpa only [SendTask.sent, SendTask.used, List.append_nil] using
        h.quiet { s.shared with service := { s.shared.service with breaker } }
          rfl rfl hnot
    | @reuses e cached free good =>
      have hnot : ∀ t, SendTask.posting cached.accessToken = .fetching t ↔
          s.task i = .fetching t := by
        rw [hi]
        exact fun t => ⟨nofun, nofun⟩
      obtain ⟨f, hf, htoken, hgood⟩ := h.of_goodToken good
      simpa only [SendTask.sent, SendTask.used, List.append_nil] using
        (h.quiet s.shared rfl rfl hnot).uses fun use huse => by
          rw [List.mem_singleton.1 huse]
          exact ⟨f, hf, htoken, .inr hgood⟩
    | asks free none =>
      simpa only [SendTask.sent, SendTask.used, List.append_nil] using h.asks free none
    | fails =>
      simpa only [SendTask.sent, SendTask.used, List.append_nil] using
        h.gives hi (.ended _) nofun
    | @gets t token =>
      have hgiven := h.gives hi (.posting token.accessToken) nofun
      have hgot := hgiven.gets (fun j t' => hgiven.free rfl j t') token (h.since i t hi)
        (h.sound.asked i t hi)
      simpa only [SendTask.sent, SendTask.used] using hgot.uses fun use huse => by
        rw [List.mem_singleton.1 huse]
        exact ⟨_, List.mem_append_right _ (List.mem_singleton.2 rfl), rfl, .inl rfl⟩
    | @answers accessToken e result breaker asked reported =>
      have hnot : ∀ t, SendTask.ended result = .fetching t ↔ s.task i = .fetching t := by
        rw [hi]
        exact fun t => ⟨nofun, nofun⟩
      simpa only [SendTask.sent, SendTask.used, List.append_nil] using
        h.quiet { s.shared with service := { s.shared.service with breaker } }
          rfl rfl hnot
    | stays nothing =>
      have hnone : SendTask.used s.clock task task = [] := by cases task <;> rfl
      rw [nothing, hnone, List.append_nil, List.append_nil]
      exact h.quiet s.shared rfl rfl fun t => by rw [hi]

end Kept

theorem inv_start (clock : Instant) (breaker : CircuitBreaker) :
    (start (ι := ι) clock breaker).Inv where
  sound := ⟨nofun, nofun, List.Pairwise.nil, nofun, nofun⟩
  free := fun _ _ _ => nofun
  cached := rfl
  past := nofun
  since := nofun

/-- In whatever order any number of calls take their steps. -/
theorem tokens_sound [DecidableEq ι] (clock : Instant) (breaker : CircuitBreaker)
    (turns : List (SendTurn ι)) : (turns.foldl turn (start clock breaker)).TokensSound :=
  (foldl_keeps (I := Inv) (G := fun _ => True) (fun _ t h _ => Inv.turn h t)
    (inv_start clock breaker) fun _ _ => trivial).sound

end SendTasks

end Meno
