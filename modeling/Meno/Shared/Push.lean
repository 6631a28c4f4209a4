import Meno.Shared.CircuitBreaker

/-!
# Meno.Shared.Push

`PushNotificationService::send` behind a circuit breaker. What FCM answers is reported to the
breaker; that there was no access token or no answer is not, so that a service that cannot be
reached never opens the circuit (`unreachable_stays_closed`).
-/

namespace Meno

inductive HttpError
  | timeout
  | transport
deriving DecidableEq

inductive PushError
  | tokenInvalid
  | rateLimited
  | sendFailed (status : Nat)
  | circuitOpen
  | tokenFetch (text : String)
  | http (e : HttpError)
deriving DecidableEq

structure GoogleTokenResponse where
  accessToken : String
  expiresIn : UInt64

structure CachedToken where
  accessToken : String
  expiresAt : Instant

structure PushNotificationService where
  tokenCache : Option CachedToken
  breaker : CircuitBreaker

/-- What one call of `send` meets: the clock at its steps, the answer of Google's token endpoint and
the status with which FCM answers, as far as it asks for them. -/
structure Attempt where
  checkedAt : Instant
  tokenAt : Instant
  fetchGoogleToken : Except String GoogleTokenResponse
  fetchedAt : Instant
  response : Except HttpError Nat
  reportedAt : Instant

/-- What a call of `send` leaves, and the calls of the breaker that it made. -/
structure Sent where
  result : Except PushError Unit
  service : PushNotificationService
  calls : List CircuitBreaker.Event

namespace PushNotificationService

def new : PushNotificationService where
  tokenCache := none
  breaker := .new 3 60

/-- In nanoseconds, as `Instant`. -/
def secs (n : Nat) : Nat := n * 1000000000

/-- The token that is cached, if it has more than a minute left. -/
def cachedToken (svc : PushNotificationService) (a : Attempt) : Option CachedToken :=
  svc.tokenCache.filter fun cached => cached.expiresAt > a.tokenAt + secs 60

/-- The sum of the times does not overflow, as `Instant + Duration` does (with a panic) for an
`expires_in` near 2^63. -/
def getAccessToken (svc : PushNotificationService) (a : Attempt) :
    Except PushError String × PushNotificationService :=
  match svc.cachedToken a with
  | some cached => (.ok cached.accessToken, svc)
  | none =>
    match a.fetchGoogleToken with
    | .error text => (.error (.tokenFetch text), svc)
    | .ok token =>
      let expiresAt := a.fetchedAt + secs (token.expiresIn.toNat - 60)
      (.ok token.accessToken, { svc with tokenCache := some ⟨token.accessToken, expiresAt⟩ })

/-- The `match` on the status. -/
def onStatus (svc : PushNotificationService) (a : Attempt) (status : Nat) : Sent :=
  let checked : CircuitBreaker.Event := ⟨.check, a.checkedAt⟩
  if 200 ≤ status ∧ status ≤ 299 then
    { result := .ok ()
      service := { svc with breaker := svc.breaker.onSuccess }
      calls := [checked, ⟨.onSuccess, a.reportedAt⟩] }
  else if status = 404 then
    { result := .error .tokenInvalid, service := svc, calls := [checked] }
  else
    { result := .error (if status = 429 then .rateLimited else .sendFailed status)
      service := { svc with breaker := svc.breaker.onFailure a.reportedAt }
      calls := [checked, ⟨.onFailure, a.reportedAt⟩] }

def send (svc : PushNotificationService) (a : Attempt) : Sent :=
  let checked : CircuitBreaker.Event := ⟨.check, a.checkedAt⟩
  match svc.breaker.check a.checkedAt with
  | (breaker, .error _) =>
    { result := .error .circuitOpen, service := { svc with breaker }, calls := [checked] }
  | (breaker, .ok ()) =>
    match getAccessToken { svc with breaker } a with
    | (.error e, svc) => { result := .error e, service := svc, calls := [checked] }
    | (.ok _, svc) =>
      match a.response with
      | .error e => { result := .error (.http e), service := svc, calls := [checked] }
      | .ok status => svc.onStatus a status

/-- One call after the other. -/
def sends : PushNotificationService → List Attempt → List Sent
  | _, [] => []
  | svc, a :: as => svc.send a :: (svc.send a).service.sends as

end PushNotificationService

/-! ## What is reported -/

/-- The breaker let the call through, and it ended neither in a 2xx nor in a 404. -/
def Sent.Failed (out : Sent) : Prop :=
  out.result ≠ .error .circuitOpen ∧ out.result ≠ .ok () ∧ out.result ≠ .error .tokenInvalid

def Sent.failures (out : Sent) : Nat := out.calls.countP fun e => e.call = .onFailure

/-- Every failure is reported once, and as many in a row as the threshold open the circuit. -/
structure FailuresCount (threshold : UInt64) (outs : List Sent) : Prop where
  once : ∀ out ∈ outs, out.Failed → out.failures = 1
  opens : ∀ before failed out after, outs = before ++ (failed ++ out :: after) →
    failed.length + 1 = threshold.toNat → out.Failed → (∀ out ∈ failed, Sent.Failed out) →
      out.service.breaker.state = .opened

/-- A call that the breaker lets through gets a token, and a status from FCM. -/
def Attempt.Answered (a : Attempt) (svc : PushNotificationService) : Prop :=
  (svc.breaker.check a.checkedAt).2 = .ok () →
    ((svc.cachedToken a).isSome = true ∨ a.fetchGoogleToken.isOk = true) ∧ a.response.isOk = true

/-- So do all the calls, each in the state in which it is made. -/
def AllAnswered : PushNotificationService → List Attempt → Prop
  | _, [] => True
  | svc, a :: as => a.Answered svc ∧ AllAnswered (svc.send a).service as

/-! ## One call -/

namespace PushNotificationService

variable {svc : PushNotificationService} {a : Attempt}

theorem getAccessToken_cases (svc : PushNotificationService) (a : Attempt) :
    (svc.getAccessToken a).2.breaker = svc.breaker ∧
      ((∃ token, (svc.getAccessToken a).1 = .ok token) ∧
          ((svc.cachedToken a).isSome = true ∨ a.fetchGoogleToken.isOk = true) ∨
        (∃ text, (svc.getAccessToken a).1 = .error (.tokenFetch text)) ∧
          ¬ ((svc.cachedToken a).isSome = true ∨ a.fetchGoogleToken.isOk = true)) := by
  unfold getAccessToken
  cases svc.cachedToken a with
  | some cached => exact ⟨rfl, .inl ⟨⟨_, rfl⟩, .inl rfl⟩⟩
  | none =>
    cases a.fetchGoogleToken with
    | ok token => exact ⟨rfl, .inl ⟨⟨_, rfl⟩, .inr rfl⟩⟩
    | error text => exact ⟨rfl, .inr ⟨⟨_, rfl⟩, by simp [Except.isOk, Except.toBool]⟩⟩

/-- What a call can do: it is stopped by the breaker, it fails without an answer, or FCM answers
that the message is sent, that the device is unknown, or anything else. -/
inductive Ends (svc : PushNotificationService) (a : Attempt) (out : Sent) : Prop
  | stopped (result : out.result = .error .circuitOpen) (answered : a.Answered svc)
      (calls : out.calls = [⟨.check, a.checkedAt⟩])
  | unanswered (failed : out.Failed) (answered : ¬ a.Answered svc)
      (calls : out.calls = [⟨.check, a.checkedAt⟩])
  | succeeded (result : out.result = .ok ()) (answered : a.Answered svc)
      (calls : out.calls = [⟨.check, a.checkedAt⟩, ⟨.onSuccess, a.reportedAt⟩])
  | unregistered (result : out.result = .error .tokenInvalid) (answered : a.Answered svc)
      (calls : out.calls = [⟨.check, a.checkedAt⟩])
  | refused (failed : out.Failed) (answered : a.Answered svc)
      (calls : out.calls = [⟨.check, a.checkedAt⟩, ⟨.onFailure, a.reportedAt⟩])

/-- Besides, the breaker is what the calls have made of it. -/
theorem send_ends (svc : PushNotificationService) (a : Attempt) :
    Ends svc a (svc.send a) ∧
      (svc.send a).service.breaker = svc.breaker.run (svc.send a).calls := by
  unfold send
  rcases hcheck : svc.breaker.check a.checkedAt with ⟨breaker, r⟩
  have hchecked : svc.breaker.run [⟨.check, a.checkedAt⟩] = breaker := congrArg Prod.fst hcheck
  cases r with
  | error e =>
    refine ⟨.stopped rfl (fun hok => ?_) rfl, hchecked.symm⟩
    rw [hcheck] at hok
    cases hok
  | ok u =>
    have hadmitted : (svc.breaker.check a.checkedAt).2 = .ok () := congrArg Prod.snd hcheck
    have hcases := getAccessToken_cases { svc with breaker } a
    rcases hget : getAccessToken { svc with breaker } a with ⟨token, svc'⟩
    rw [hget] at hcases
    cases u
    simp only [hget]
    obtain ⟨hbreaker, ⟨⟨token, rfl⟩, htoken⟩ | ⟨⟨text, rfl⟩, htoken⟩⟩ := hcases
    · cases hresponse : a.response with
      | error e =>
        refine ⟨.unanswered ⟨nofun, nofun, nofun⟩ (fun h => ?_) rfl, hbreaker.trans hchecked.symm⟩
        have hok := (h hadmitted).2
        rw [hresponse] at hok
        cases hok
      | ok status =>
        have hanswered : a.Answered svc := fun _ => ⟨htoken, by rw [hresponse]; rfl⟩
        have hbreaker : svc'.breaker = breaker := hbreaker
        simp only [onStatus]
        split
        · refine ⟨.succeeded rfl hanswered rfl, ?_⟩
          rw [hbreaker, ← hchecked]
          rfl
        · split
          · exact ⟨.unregistered rfl hanswered rfl, hbreaker.trans hchecked.symm⟩
          · refine ⟨.refused ?_ hanswered rfl, ?_⟩
            · split <;> exact ⟨nofun, nofun, nofun⟩
            · rw [hbreaker, ← hchecked]
              rfl
    · exact ⟨.unanswered ⟨nofun, nofun, nofun⟩ (fun h => htoken (h hadmitted).1) rfl,
        hbreaker.trans hchecked.symm⟩

/-! ## Runs -/

section Runs

variable {as : List Attempt} {before after : List Sent} {out : Sent}

/-- Each of the results is that of a call, on the breaker that the calls before it have left. -/
theorem exists_send (h : svc.sends as = before ++ out :: after) :
    ∃ (svc' : PushNotificationService) (a : Attempt), out = svc'.send a ∧
      svc'.breaker = svc.breaker.run (before.flatMap Sent.calls) := by
  induction before generalizing svc as with
  | nil =>
    cases as with
    | nil => cases h
    | cons a as =>
      obtain ⟨rfl, -⟩ := List.cons.inj h
      exact ⟨svc, a, rfl, rfl⟩
  | cons first before ih =>
    cases as with
    | nil => cases h
    | cons a as =>
      obtain ⟨rfl, hrest⟩ := List.cons.inj h
      obtain ⟨svc', a', hout, hbreaker⟩ := ih hrest
      refine ⟨svc', a', hout, ?_⟩
      rw [hbreaker, (send_ends svc a).2, List.flatMap_cons, CircuitBreaker.run, CircuitBreaker.run,
        CircuitBreaker.run, List.foldl_append]

/-- The same for answered calls. -/
theorem answered_of_mem (h : AllAnswered svc as) (hout : out ∈ svc.sends as) :
    ∃ (svc' : PushNotificationService) (a : Attempt), out = svc'.send a ∧ a.Answered svc' := by
  induction as generalizing svc with
  | nil => exact absurd hout List.not_mem_nil
  | cons a as ih =>
    rcases List.mem_cons.1 hout with rfl | hout
    · exact ⟨svc, a, rfl, h.1⟩
    · exact ih h.2 hout

/-- A failure that counts is a check and the report. -/
theorem calls_of_failed (hfailed : (svc.send a).Failed) (honce : (svc.send a).failures = 1) :
    (svc.send a).calls = [⟨.check, a.checkedAt⟩, ⟨.onFailure, a.reportedAt⟩] := by
  obtain ⟨hresult, -, -⟩ | ⟨-, -, hcalls⟩ | ⟨hresult, -, -⟩ | ⟨hresult, -, -⟩ | ⟨-, -, hcalls⟩ :=
    (send_ends svc a).1
  · exact absurd hresult hfailed.1
  · rw [Sent.failures, hcalls] at honce
    cases honce
  · exact absurd hresult hfailed.2.1
  · exact absurd hresult hfailed.2.2
  · exact hcalls

theorem failuresInRow_failed {failed : List Sent} (history : List CircuitBreaker.Event)
    (h : ∀ out ∈ failed, ∃ t t', out.calls = [⟨.check, t⟩, ⟨.onFailure, t'⟩]) :
    CircuitBreaker.failuresInRow (history ++ failed.flatMap Sent.calls) =
      CircuitBreaker.failuresInRow history + failed.length := by
  induction failed using List.reverseRecOn with
  | nil => rw [List.flatMap_nil, List.append_nil, List.length_nil, Nat.add_zero]
  | append_singleton failed out ih =>
    obtain ⟨t, t', hcalls⟩ := h out (List.mem_append_right _ (List.mem_singleton.2 rfl))
    have hsplit : history ++ (failed ++ [out]).flatMap Sent.calls =
        history ++ failed.flatMap Sent.calls ++ [⟨.check, t⟩] ++ [⟨.onFailure, t'⟩] := by
      simp [hcalls]
    rw [hsplit, CircuitBreaker.failuresInRow_onFailure _ rfl,
      CircuitBreaker.failuresInRow_check _ rfl,
      ih fun out hout => h out (List.mem_append_left _ hout), List.length_append,
      List.length_singleton, Nat.add_assoc]

/-- As many reported failures in a row as the threshold open the circuit. -/
theorem opened_of_failed {failed : List Sent}
    (hsplit : new.sends as = before ++ (failed ++ out :: after))
    (hlength : failed.length + 1 = new.breaker.failureThreshold.toNat)
    (hcalls : ∀ out' ∈ failed ++ [out],
      ∃ t t', out'.calls = [⟨.check, t⟩, ⟨.onFailure, t'⟩]) :
    out.service.breaker.state = .opened := by
  have hwhole : new.sends as = (before ++ failed) ++ out :: after := by
    rw [hsplit, List.append_assoc]
  obtain ⟨svc', a, rfl, hbreaker⟩ := exists_send hwhole
  obtain ⟨t, t', hlast⟩ := hcalls (svc'.send a) (List.mem_append_right _ (List.mem_singleton.2 rfl))
  let history := before.flatMap Sent.calls ++ failed.flatMap Sent.calls ++ [⟨.check, t⟩]
  have hafter : (svc'.send a).service.breaker = (new.breaker.run history).onFailure t' := by
    rw [(send_ends svc' a).2, hbreaker, hlast]
    simp [history, CircuitBreaker.run, List.foldl_append, CircuitBreaker.step]
  have hinv := CircuitBreaker.inv_run
    (CircuitBreaker.inv_new (by decide : (1 : UInt64) ≤ 3) 60) (by decide)
    (history ++ [⟨.onFailure, t'⟩])
  rw [CircuitBreaker.run_concat] at hinv
  have hrow : new.breaker.failureThreshold.toNat ≤
      CircuitBreaker.failuresInRow (history ++ [⟨.onFailure, t'⟩]) := by
    rw [CircuitBreaker.failuresInRow_onFailure _ rfl, CircuitBreaker.failuresInRow_check _ rfl,
      failuresInRow_failed _ fun out' hout' => hcalls out' (List.mem_append_left _ hout')]
    omega
  rw [hafter]
  obtain ⟨hopened, -⟩ | ⟨hsame, -, hstate⟩ :=
    CircuitBreaker.onFailure_cases (new.breaker.run history) t'
  · rw [hopened]
  · rw [hsame]
    cases hbefore : (new.breaker.run history).state with
    | opened => rfl
    | halfOpen => exact absurd hbefore hstate
    | closed =>
      -- A closed breaker has counted all of them, and is below its threshold.
      have hclosed : ((new.breaker.run history).step ⟨.onFailure, t'⟩).state = .closed := by
        rw [CircuitBreaker.step, hsame, hbefore]
      obtain ⟨hlt, hcount, -⟩ := hinv.closed hclosed
      have hlt := UInt64.lt_iff_toNat_lt.1 hlt
      rw [hcount] at hlt
      exact absurd hlt (Nat.not_lt.2 hrow)

/-- A run in which each failure counts has an answer for every call. -/
theorem answered_of_once (h : ∀ out ∈ svc.sends as, out.Failed → out.failures = 1) :
    AllAnswered svc as := by
  induction as generalizing svc with
  | nil => trivial
  | cons a as ih =>
    refine ⟨?_, ih fun out hout => h out (List.mem_cons_of_mem _ hout)⟩
    obtain ⟨-, hanswered, -⟩ | ⟨hfailed, -, hcalls⟩ | ⟨-, hanswered, -⟩ | ⟨-, hanswered, -⟩ |
      ⟨-, hanswered, -⟩ := (send_ends svc a).1
    · exact hanswered
    · have honce := h (svc.send a) List.mem_cons_self hfailed
      rw [Sent.failures, hcalls] at honce
      cases honce
    · exact hanswered
    · exact hanswered
    · exact hanswered

/-- An answered call that fails is reported. -/
theorem failures_of_answered (h : a.Answered svc) (hfailed : (svc.send a).Failed) :
    (svc.send a).failures = 1 := by
  obtain ⟨hresult, -, -⟩ | ⟨-, hno, -⟩ | ⟨hresult, -, -⟩ | ⟨hresult, -, -⟩ | ⟨-, -, hcalls⟩ :=
    (send_ends svc a).1
  · exact absurd hresult hfailed.1
  · exact absurd h hno
  · exact absurd hresult hfailed.2.1
  · exact absurd hresult hfailed.2.2
  · rw [Sent.failures, hcalls]
    rfl

/-- **Failures are reported**, exactly if every call that the breaker lets through gets a token and
an answer from FCM. -/
theorem failures_reported_iff (as : List Attempt) :
    FailuresCount new.breaker.failureThreshold (new.sends as) ↔ AllAnswered new as := by
  refine ⟨fun h => answered_of_once h.once, fun h => ?_⟩
  have honce : ∀ out ∈ new.sends as, out.Failed → out.failures = 1 := by
    intro out hout hfailed
    obtain ⟨svc, a, rfl, hanswered⟩ := answered_of_mem h hout
    exact failures_of_answered hanswered hfailed
  refine ⟨honce, fun before failed out after hsplit hlength hout hfailed => ?_⟩
  refine opened_of_failed hsplit hlength fun out' hout' => ?_
  have hmem : out' ∈ new.sends as := by
    rw [hsplit]
    rcases List.mem_append.1 hout' with hout' | hout'
    · exact List.mem_append_right _ (List.mem_append_left _ hout')
    · rw [List.mem_singleton.1 hout']
      exact List.mem_append_right _ (List.mem_append_right _ List.mem_cons_self)
  have hfailed' : out'.Failed := by
    rcases List.mem_append.1 hout' with hout' | hout'
    · exact hfailed out' hout'
    · rwa [List.mem_singleton.1 hout']
  obtain ⟨svc, a, rfl, -⟩ := answered_of_mem h hmem
  exact ⟨_, _, calls_of_failed hfailed' (honce _ hmem hfailed')⟩

/-- A service that never answers is tried for ever. -/
theorem unreachable_stays_closed (hclosed : svc.breaker.state = .closed)
    (h : ∀ a ∈ as, a.response.isOk = false) :
    ∀ out ∈ svc.sends as, out.Failed ∧ out.service.breaker.state = .closed := by
  induction as generalizing svc with
  | nil => exact fun out hout => absurd hout List.not_mem_nil
  | cons a as ih =>
    have hno : ¬ a.Answered svc := by
      intro hanswered
      have hadmitted : (svc.breaker.check a.checkedAt).2 = .ok () := by
        rw [CircuitBreaker.check, hclosed]
      have hok := (hanswered hadmitted).2
      rw [h a List.mem_cons_self] at hok
      cases hok
    have hsent : (svc.send a).Failed ∧ (svc.send a).service.breaker.state = .closed := by
      obtain ⟨-, hanswered, -⟩ | ⟨hfailed, -, hcalls⟩ | ⟨-, hanswered, -⟩ | ⟨-, hanswered, -⟩ |
        ⟨-, hanswered, -⟩ := (send_ends svc a).1
      · exact absurd hanswered hno
      · refine ⟨hfailed, ?_⟩
        rw [(send_ends svc a).2, hcalls]
        simp [CircuitBreaker.run, CircuitBreaker.step, CircuitBreaker.check, hclosed]
      · exact absurd hanswered hno
      · exact absurd hanswered hno
      · exact absurd hanswered hno
    intro out hout
    rcases List.mem_cons.1 hout with rfl | hout
    · exact hsent
    · exact ih hsent.2 (fun a ha => h a (List.mem_cons_of_mem _ ha)) out hout

end Runs

/-- There is a token, but FCM does not answer in time. -/
def timedOut : Attempt where
  checkedAt := 0
  tokenAt := 0
  fetchGoogleToken := .ok ⟨"token", 3600⟩
  fetchedAt := 0
  response := .error .timeout
  reportedAt := 0

/-- After three failures in a row the circuit is closed as before. -/
theorem timeouts_unreported :
    ¬ ∀ as : List Attempt, FailuresCount new.breaker.failureThreshold (new.sends as) := by
  intro h
  let three := [timedOut, timedOut, timedOut]
  have hopens := (h three).opens
  have hstays := @unreachable_stays_closed new three rfl (by decide)
  obtain ⟨first, second, third, hsends⟩ : ∃ first second third,
      new.sends three = [first, second, third] := ⟨_, _, _, rfl⟩
  rw [hsends] at hopens hstays
  have hopened := hopens [] [first, second] third [] rfl rfl (hstays third (by simp)).1
    fun out hout => (hstays out (List.mem_append_left [third] hout)).1
  rw [(hstays third (by simp)).2] at hopened
  cases hopened

end PushNotificationService

end Meno
