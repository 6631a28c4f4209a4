import Meno.Idempotency.Once

/-!
# Meno.Idempotency.Replay

Whose stored response does a request get? The key in Redis is made of the header alone, so it is
the response of whoever sent the same UUID last. `Traced` follows the writer of each entry beside
the service; replays stay with their request exactly when no two requests that bring Redis and the
same UUID come from different origins, or from nobody (`replays_stay_iff`).
-/

namespace Meno

namespace Idempotency

open Lib

/-- What a request is: the user whom `auth_middleware` has let in before, if it has, the method and
the path. The layer looks at none of them. -/
structure Origin where
  user : Option Uuid
  method : String
  path : String
deriving DecidableEq

/-- The same user, who is authenticated, asks for the same. -/
def Origin.Same (a b : Origin) : Prop := a = b ∧ a.user ≠ none

variable {ι : Type}

/-- The key under which a request that enters finds a response. -/
def Service.hit (parseStr : String → Option Uuid) (w : Service ι) (req : Request)
    (redisAnswers : Bool) : Option Uuid :=
  if req.redis then
    (extractIdempotencyKey parseStr req).filter fun k =>
      redisAnswers && (w.redis.find w.clock k).isSome
  else none

/-- The service, with the request whose response each key has, and the replays so far: whose
response, and to which request. -/
structure Traced (ι : Type) where
  service : Service ι
  storedBy : Uuid → Option ι
  replays : List (ι × ι)

namespace Traced

def start (now : OffsetDateTime) : Traced ι where
  service := .start now
  storedBy _ := none
  replays := []

variable [DecidableEq ι] (parseStr : String → Option Uuid) (reqs : ι → Request)

def step (w : Traced ι) (act : Act ι) : Traced ι :=
  let service := Service.step parseStr reqs w.service act
  match act with
  | .enter i redisAnswers =>
    match w.service.phase i with
    | .arrived =>
      match (w.service.hit parseStr (reqs i) redisAnswers).bind w.storedBy with
      | some j => { w with service, replays := (j, i) :: w.replays }
      | none => { w with service }
    | _ => { w with service }
  | .store i redisAnswers =>
    match w.service.phase i with
    | .storing k _ =>
      if redisAnswers then { w with service, storedBy := Function.update w.storedBy k (some i) }
      else { w with service }
    | _ => { w with service }
  | _ => { w with service }

def run (now : OffsetDateTime) (acts : List (Act ι)) : Traced ι :=
  acts.foldl (step parseStr reqs) (start now)

/-- What is followed does not change what happens. -/
theorem step_service (w : Traced ι) (act : Act ι) :
    (w.step parseStr reqs act).service = Service.step parseStr reqs w.service act := by
  cases act with
  | enter i redisAnswers =>
    simp only [step]
    split
    · split <;> rfl
    · rfl
  | store i redisAnswers =>
    simp only [step]
    split
    · split <;> rfl
    · rfl
  | _ => rfl

end Traced

/-! ## Entries and their writers -/

section Invariant

variable [DecidableEq ι] {parseStr : String → Option Uuid} {reqs : ι → Request}

/-- The request asks Redis for the key. -/
def Asks (parseStr : String → Option Uuid) (req : Request) (k : Uuid) : Prop :=
  req.redis = true ∧ extractIdempotencyKey parseStr req = some k

omit [DecidableEq ι] in
theorem hit_eq_some {w : Service ι} {req : Request} {redisAnswers : Bool} {k : Uuid}
    (h : w.hit parseStr req redisAnswers = some k) :
    Asks parseStr req k ∧ redisAnswers = true ∧ (w.redis.find w.clock k).isSome = true := by
  unfold Service.hit at h
  split at h
  · rename_i hredis
    obtain ⟨hk, hfound⟩ := Option.filter_eq_some_iff.1 h
    obtain ⟨hanswers, hfound⟩ := Bool.and_eq_true_iff.1 hfound
    exact ⟨⟨hredis, hk⟩, hanswers, hfound⟩
  · cases h

/-- Where the requests are, and whose response each entry is. -/
structure Traced.Inv (parseStr : String → Option Uuid) (reqs : ι → Request) (w : Traced ι) :
    Prop where
  running : ∀ i k, w.service.phase i = .running (some k) → Asks parseStr (reqs i) k
  storing : ∀ i k cached, w.service.phase i = .storing k cached → Asks parseStr (reqs i) k
  writer : ∀ k j, w.storedBy k = some j → Asks parseStr (reqs j) k ∧ w.service.phase j = .done
  noted : ∀ k, w.storedBy k = none → w.service.redis k = none
  replays : ∀ r ∈ w.replays, r.1 ≠ r.2 ∧
    ∃ k, Asks parseStr (reqs r.1) k ∧ Asks parseStr (reqs r.2) k

omit [DecidableEq ι] in
theorem Traced.inv_start (now : OffsetDateTime) :
    (Traced.start now : Traced ι).Inv parseStr reqs where
  running := by simp [Traced.start, Service.start]
  storing := by simp [Traced.start, Service.start]
  writer := by simp [Traced.start]
  noted _ _ := rfl
  replays := by simp [Traced.start]

/-- What a request does to the service, apart from the history: its phase, and Redis. -/
structure Moves (w w' : Service ι) (i : ι) (p : Phase) : Prop where
  phase : w'.phase = Function.update w.phase i p
  redis : w'.redis = w.redis

theorem enter_moves (w : Service ι) (i : ι) (req : Request) (redisAnswers : Bool) :
    ∃ p, Moves w (w.enter parseStr i req redisAnswers) i p ∧
      (∀ k, p = .running (some k) → Asks parseStr req k) ∧ ∀ k cached, p ≠ .storing k cached := by
  unfold Service.enter
  split
  · rename_i hredis
    split
    · exact ⟨.running none, ⟨rfl, rfl⟩, by simp, by simp⟩
    · rename_i k hk
      split
      · exact ⟨.done, ⟨rfl, rfl⟩, by simp, by simp⟩
      · refine ⟨.running (some k), ⟨rfl, rfl⟩, ?_, by simp⟩
        rintro _ ⟨⟩
        exact ⟨hredis, hk⟩
  · exact ⟨.running none, ⟨rfl, rfl⟩, by simp, by simp⟩

theorem complete_moves (w : Service ι) (i : ι) (redisKey : Option Uuid)
    (response : HandlerResponse) :
    ∃ p, Moves w (w.complete i redisKey response) i p ∧ (∀ k, p ≠ .running k) ∧
      ∀ k cached, p = .storing k cached → redisKey = some k := by
  have hpass : ∀ e, Moves w (((w.note e).pass i response).setPhase i .done) i .done := by
    intro e
    unfold Service.pass
    split <;> exact ⟨rfl, rfl⟩
  unfold Service.complete
  split
  · exact ⟨.done, hpass _, by simp, by simp⟩
  · rename_i k
    dsimp only
    split
    · split
      · exact ⟨.done, ⟨rfl, rfl⟩, by simp, by simp⟩
      · refine ⟨.storing k _, ⟨rfl, rfl⟩, by simp, ?_⟩
        rintro _ _ ⟨⟩
        rfl
    · exact ⟨.done, hpass _, by simp, by simp⟩

namespace Traced.Inv

variable {w w' : Traced ι} {i : ι} {p : Phase}

/-- A request that is not done moves on, and no entry is written. -/
theorem moves (h : w.Inv parseStr reqs) (hm : Moves w.service w'.service i p)
    (hstoredBy : w'.storedBy = w.storedBy) (hopen : w.service.phase i ≠ .done)
    (hrunning : ∀ k, p = .running (some k) → Asks parseStr (reqs i) k)
    (hstoring : ∀ k cached, p = .storing k cached → Asks parseStr (reqs i) k)
    (hreplays : ∀ r ∈ w'.replays, r.1 ≠ r.2 ∧
      ∃ k, Asks parseStr (reqs r.1) k ∧ Asks parseStr (reqs r.2) k) :
    w'.Inv parseStr reqs where
  running := by
    intro j k hj
    rw [hm.phase] at hj
    by_cases hji : j = i
    · subst hji
      rw [Function.update_self] at hj
      exact hrunning k hj
    · rw [Function.update_of_ne hji] at hj
      exact h.running j k hj
  storing := by
    intro j k cached hj
    rw [hm.phase] at hj
    by_cases hji : j = i
    · subst hji
      rw [Function.update_self] at hj
      exact hstoring k cached hj
    · rw [Function.update_of_ne hji] at hj
      exact h.storing j k cached hj
  writer := by
    intro k j hj
    rw [hstoredBy] at hj
    obtain ⟨hasks, hdone⟩ := h.writer k j hj
    refine ⟨hasks, ?_⟩
    rw [hm.phase, Function.update_of_ne]
    · exact hdone
    · rintro rfl
      exact hopen hdone
  noted := by
    intro k hk
    rw [hstoredBy] at hk
    rw [hm.redis]
    exact h.noted k hk
  replays := hreplays

theorem enter (h : w.Inv parseStr reqs) (redisAnswers : Bool) :
    (w.step parseStr reqs (.enter i redisAnswers)).Inv parseStr reqs := by
  simp only [Traced.step, Service.step]
  cases hphase : w.service.phase i with
  | arrived =>
    obtain ⟨p, hm, hrunning, hstoring⟩ :=
      enter_moves w.service i (reqs i) redisAnswers
    have hopen : w.service.phase i ≠ .done := by simp [hphase]
    dsimp only
    split
    · rename_i j hj
      obtain ⟨k, hk, hby⟩ := Option.bind_eq_some_iff.1 hj
      obtain ⟨hasks, -, -⟩ := hit_eq_some hk
      obtain ⟨hwriter, hdone⟩ := h.writer k j hby
      refine h.moves hm rfl hopen hrunning (fun k c he => absurd he (hstoring k c)) ?_
      intro r hr
      rcases List.mem_cons.1 hr with rfl | hr
      · refine ⟨?_, k, hwriter, hasks⟩
        intro hji
        exact hopen ((congrArg w.service.phase hji).symm.trans hdone)
      · exact h.replays r hr
    · exact h.moves hm rfl hopen hrunning (fun k c he => absurd he (hstoring k c)) h.replays
  | _ => exact h

theorem complete (h : w.Inv parseStr reqs) (response : HandlerResponse) :
    (w.step parseStr reqs (.complete i response)).Inv parseStr reqs := by
  simp only [Traced.step, Service.step]
  cases hphase : w.service.phase i with
  | running redisKey =>
    obtain ⟨p, hm, hrunning, hstoring⟩ := complete_moves w.service i redisKey response
    refine h.moves hm rfl (by simp [hphase]) (fun k he => absurd he (hrunning _)) ?_ h.replays
    intro k cached he
    rw [hstoring k cached he] at hphase
    exact h.running i k hphase
  | _ => exact h

theorem drop (h : w.Inv parseStr reqs) :
    (w.step parseStr reqs (.drop i)).Inv parseStr reqs := by
  have hdone : w.service.phase i ≠ .done →
      ({ w with service := w.service.setPhase i .done } : Traced ι).Inv parseStr reqs :=
    fun hopen => h.moves ⟨rfl, rfl⟩ rfl hopen (by simp) (by simp) h.replays
  simp only [Traced.step, Service.step]
  cases hphase : w.service.phase i with
  | arrived => exact hdone (by simp [hphase])
  | running k => exact hdone (by simp [hphase])
  | _ => exact h

theorem store (h : w.Inv parseStr reqs) (redisAnswers : Bool) :
    (w.step parseStr reqs (.store i redisAnswers)).Inv parseStr reqs := by
  simp only [Traced.step, Service.step]
  cases hphase : w.service.phase i with
  | storing k cached =>
    have hmoved : ({ w with service := w.service.setPhase i .done } : Traced ι).Inv parseStr reqs :=
      h.moves ⟨rfl, rfl⟩ rfl (by simp [hphase]) (by simp) (by simp) h.replays
    cases redisAnswers with
    | false => exact hmoved
    | true =>
      dsimp only
      rw [if_pos rfl]
      -- The entry is now the one of `i`, which is done.
      refine ⟨hmoved.running, hmoved.storing, ?_, ?_, hmoved.replays⟩
      · intro k' j hj
        change Function.update w.storedBy k (some i) k' = some j at hj
        by_cases hk : k' = k
        · subst hk
          rw [Function.update_self] at hj
          cases hj
          exact ⟨h.storing _ _ _ hphase, Function.update_self ..⟩
        · rw [Function.update_of_ne hk] at hj
          exact hmoved.writer k' j hj
      · intro k' hk'
        change Function.update w.storedBy k (some i) k' = none at hk'
        by_cases hk : k' = k
        · subst hk
          rw [Function.update_self] at hk'
          cases hk'
        · rw [Function.update_of_ne hk] at hk'
          exact (if_neg hk).trans (hmoved.noted k' hk')
  | _ => exact h

theorem step (h : w.Inv parseStr reqs) (act : Act ι) :
    (w.step parseStr reqs act).Inv parseStr reqs := by
  cases act with
  | enter i redisAnswers => exact h.enter redisAnswers
  | complete i response => exact h.complete response
  | drop i => exact h.drop
  | store i redisAnswers => exact h.store redisAnswers
  | tick t =>
    simp only [Traced.step, Service.step]
    split
    · exact ⟨h.running, h.storing, h.writer, h.noted, h.replays⟩
    · exact h

end Traced.Inv

theorem Traced.inv_run (now : OffsetDateTime) (acts : List (Act ι)) :
    (Traced.run parseStr reqs now acts).Inv parseStr reqs := by
  have key : ∀ (acts : List (Act ι)) (w : Traced ι), w.Inv parseStr reqs →
      (acts.foldl (Traced.step parseStr reqs) w).Inv parseStr reqs := by
    intro acts
    induction acts with
    | nil => exact fun _ h => h
    | cons a acts ih => exact fun w h => ih _ (h.step a)
  exact key acts _ (Traced.inv_start now)

/-- Every response that comes from Redis is noted, with the request that it is from. -/
theorem hit_noted {now : OffsetDateTime} {acts : List (Act ι)} {req : Request} {redisAnswers : Bool}
    {k : Uuid}
    (h : (Traced.run parseStr reqs now acts).service.hit parseStr req redisAnswers = some k) :
    ∃ j, (Traced.run parseStr reqs now acts).storedBy k = some j := by
  obtain ⟨-, -, hfound⟩ := hit_eq_some h
  cases hby : (Traced.run parseStr reqs now acts).storedBy k with
  | some j => exact ⟨j, rfl⟩
  | none =>
    have hnone := (Traced.inv_run now acts).noted k hby
    simp [Expiring.find, Expiring.entry, hnone] at hfound

/-- A request, and another one with its key after its response is stored. -/
def askedTwice (j i : ι) : List (Act ι) :=
  [.enter j true, .complete j { status := .ok, body := some [] }, .store j true, .enter i true]

theorem replays_askedTwice {i j : ι} {k : Uuid} (hij : i ≠ j) (hi : Asks parseStr (reqs i) k)
    (hj : Asks parseStr (reqs j) k) (now : OffsetDateTime) :
    (Traced.run parseStr reqs now (askedTwice j i)).replays = [(j, i)] := by
  obtain ⟨hredis, hkey⟩ := hi
  obtain ⟨hredis', hkey'⟩ := hj
  have hfind : ∀ v : CachedResponse, (Expiring.empty.set k
      (some { value := v, deadline := some (now + ttl) })).find now k = some v := by
    intro v
    refine Expiring.find_of_alive (if_pos rfl) ?_
    rintro t ⟨⟩
    exact Int.le_add_of_nonneg_right (by decide)
  simp [Traced.run, askedTwice, Traced.step, Traced.start, Service.step, Service.start,
    Service.enter, Service.complete, Service.store, Service.hit, Service.setPhase, Service.note,
    hredis, hkey, hredis', hkey', hij, StatusCode.isSuccess, StatusCode.ok, hfind, Option.filter]

end Invariant

/-! ## Replays stay with their request -/

/-- `same`: a stored response goes to a request of the same origin as the one that it is for.
`noted`: every response that comes from Redis is known to be from a request, so `replays` has them
all. -/
structure Traced.Stays (w : Traced ι) (parseStr : String → Option Uuid) (origin : ι → Origin) :
    Prop where
  same : ∀ r ∈ w.replays, (origin r.1).Same (origin r.2)
  noted : ∀ req redisAnswers k, w.service.hit parseStr req redisAnswers = some k →
    ∃ j, w.storedBy k = some j

/-- Every stored response goes only to requests of the same origin as the one that it is for. -/
theorem replays_stay_iff [DecidableEq ι] (parseStr : String → Option Uuid) (reqs : ι → Request)
    (origin : ι → Origin) :
    (∀ now acts, (Traced.run parseStr reqs now acts).Stays parseStr origin) ↔
    ∀ i j k, i ≠ j → Asks parseStr (reqs i) k → Asks parseStr (reqs j) k →
      (origin i).Same (origin j) := by
  constructor
  · intro h j i k hji hj hi
    refine (h 0 (askedTwice j i)).same (j, i) ?_
    rw [replays_askedTwice hji.symm hi hj]
    exact List.mem_singleton_self _
  · intro h now acts
    refine ⟨fun r hr => ?_, fun _ _ _ => hit_noted⟩
    obtain ⟨hne, k, hfirst, hsecond⟩ := (Traced.inv_run now acts).replays r hr
    exact h r.1 r.2 k hne hfirst hsecond

/-! ## A profile -/

/-- Ann changes her profile; nobody is signed in for the other request. -/
def profileRequests : Bool → Origin
  | false => { user := some ⟨1⟩, method := "PATCH", path := "/me" }
  | true => { user := none, method := "GET", path := "/me/avatar-upload-url" }

/-- The router of profiles has the layer outside of `auth_middleware`, so Ann's key brings her
response to anyone. -/
theorem replayed_to_anyone : ¬∀ now acts,
    (Traced.run parseSeven retried now acts).Stays parseSeven profileRequests := by
  intro h
  have hreplayed : (false, true) ∈ (Traced.run parseSeven retried 0 (askedTwice false true)).replays :=
    by decide +kernel
  exact absurd ((h 0 _).same _ hreplayed).1 (by decide)

end Idempotency

end Meno
