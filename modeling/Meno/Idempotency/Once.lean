import Meno.Idempotency.Middleware
import Meno.Lib.Timeline

/-!
# Meno.Idempotency.Once

When does a key run its handler once a day? `Kept` is what the layer is for, `Orderly` the condition
on one step: no request asks for a key while another one with that key is between its own question
and the end of its storing, and nothing keeps a response from being stored. `Inv` says where the last
response of a key is to be found in between.
-/

namespace Meno

namespace Idempotency

open Lib

variable {ι : Type} [DecidableEq ι] (parseStr : String → Option Uuid) (reqs : ι → Request)

/-- What makes two requests the same: the UUID in the header, or else its text. -/
def Request.key (req : Request) : Option (Uuid ⊕ Bytes) :=
  req.header.map fun value =>
    match (toStr value).bind parseStr with
    | some k => .inl k
    | none => .inr value

/-! ## What the layer is for -/

/-- The last completion with a 2xx status under a key. -/
def lastRun (key : Uuid ⊕ Bytes) : List (Event ι) → Option HandlerResponse
  | [] => none
  | .ran i _ response :: past =>
    if (reqs i).key parseStr = some key ∧ response.status.isSuccess = true then some response
    else lastRun key past
  | .answered _ _ :: past => lastRun key past

/-- Completions with a 2xx status under one key are a day apart, and an answer with a 2xx status
is the response of the last of them. -/
def Kept : List (Event ι) → Prop
  | [] => True
  | .ran i t response :: past => Kept past ∧ (response.status.isSuccess = true →
      ∀ key, (reqs i).key parseStr = some key → ∀ j t' response', .ran j t' response' ∈ past →
        (reqs j).key parseStr = some key → response'.status.isSuccess = true → t' + ttl ≤ t)
  | .answered i response :: past => Kept past ∧ (response.status.isSuccess = true →
      ∀ key, (reqs i).key parseStr = some key → ∃ r, lastRun parseStr reqs key past = some r ∧
        r.status = response.status ∧ r.body = some response.body)

/-! ## The condition -/

/-- The request is between its question for the key and the end of its storing. -/
def InFlight (w : Service ι) (k : Uuid) (i : ι) : Prop :=
  w.phase i = .running (some k) ∨ ∃ cached, w.phase i = .storing k cached

/-- The body survives being stored as a text. -/
def IsText (body : Bytes) : Prop := bytesOf (fromUtf8Lossy body) = body

def Orderly (w : Service ι) : Act ι → Prop
  | .enter i redisAnswers => (reqs i).header ≠ none → (reqs i).redis = true ∧ redisAnswers = true ∧
      ∃ k, extractIdempotencyKey parseStr (reqs i) = some k ∧ ∀ j, ¬InFlight w k j
  | .complete i response => (∃ k, w.phase i = .running (some k)) → response.status.isSuccess = true →
      ∃ body, response.body = some body ∧ IsText body
  | .drop _ => True
  | .store _ redisAnswers => redisAnswers = true
  | .tick _ => True

/-! ## The invariant -/

/-- The completions under a key were over a day before `t`. -/
def Spaced (log : List (Event ι)) (k : Uuid) (t : OffsetDateTime) : Prop :=
  ∀ i t' response, .ran i t' response ∈ log → (reqs i).key parseStr = some (.inl k) →
    response.status.isSuccess = true → t' + ttl ≤ t

/-- `cached` gives the response back. -/
def Caches (cached : CachedResponse) (response : HandlerResponse) : Prop :=
  cached.status = response.status.code ∧ response.body = some (bytesOf cached.body)

/-- Redis has the last response of a key, until a day after it. -/
def Stored (w : Service ι) (k : Uuid) : Prop :=
  match lastRun parseStr reqs (.inl k) w.log with
  | none => w.redis k = none
  | some response => ∃ cached deadline, w.redis k = some ⟨cached, some deadline⟩ ∧
      Caches cached response ∧ Spaced parseStr reqs w.log k deadline

structure Inv (w : Service ι) : Prop where
  kept : Kept parseStr reqs w.log
  past : ∀ i t response, .ran i t response ∈ w.log → t ≤ w.clock
  alone : ∀ k i j, InFlight w k i → InFlight w k j → i = j
  owner : ∀ k i, InFlight w k i → (reqs i).key parseStr = some (.inl k)
  plain : ∀ i, w.phase i = .running none → (reqs i).key parseStr = none
  spaced : ∀ k i, w.phase i = .running (some k) → Spaced parseStr reqs w.log k w.clock
  storing : ∀ k i cached, w.phase i = .storing k cached →
    ∃ response, lastRun parseStr reqs (.inl k) w.log = some response ∧ Caches cached response
  stored : ∀ k, (∀ i cached, w.phase i ≠ .storing k cached) → Stored parseStr reqs w k

variable {parseStr reqs}

theorem key_of_extract {req : Request} {k : Uuid} (h : extractIdempotencyKey parseStr req = some k) :
    req.key parseStr = some (.inl k) := by
  unfold extractIdempotencyKey at h
  unfold Request.key
  cases hv : req.header with
  | none => simp [hv] at h
  | some value =>
    rw [hv] at h
    have hk : (toStr value).bind parseStr = some k := h
    simp [hk]

omit [DecidableEq ι] in
theorem spaced_of_lastRun {k : Uuid} {t : OffsetDateTime} {log : List (Event ι)}
    (h : lastRun parseStr reqs (.inl k) log = none) : Spaced parseStr reqs log k t := by
  induction log with
  | nil => intro i t' r hi; cases hi
  | cons e past ih =>
    cases e with
    | answered j response =>
      intro i t' r hi
      rcases List.mem_cons.1 hi with he | hi
      · cases he
      · exact ih h i t' r hi
    | ran j t₀ response =>
      rw [lastRun] at h
      split at h
      · cases h
      · rename_i hno
        intro i t' r hi hkey hok
        rcases List.mem_cons.1 hi with he | hi
        · cases he
          exact absurd ⟨hkey, hok⟩ hno
        · exact ih h i t' r hi hkey hok

omit [DecidableEq ι] in
theorem inv_start (now : OffsetDateTime) : Inv parseStr reqs (Service.start now : Service ι) where
  kept := trivial
  past := by simp [Service.start]
  alone := by simp [Service.start, InFlight]
  owner := by simp [Service.start, InFlight]
  plain := by simp [Service.start]
  spaced := by simp [Service.start]
  storing := by simp [Service.start]
  stored _ _ := rfl

namespace Inv

variable {w : Service ι} {i : ι}

/-- A request moves on without storing anything. -/
theorem setPhase (h : Inv parseStr reqs w) (hnot : ∀ k cached, w.phase i ≠ .storing k cached)
    {p : Phase} (hnext : ∀ k cached, p ≠ .storing k cached)
    (hplain : p = .running none → (reqs i).key parseStr = none)
    (hrun : ∀ k, p = .running (some k) → (reqs i).key parseStr = some (.inl k) ∧
      (∀ j, ¬InFlight w k j) ∧ Spaced parseStr reqs w.log k w.clock) :
    Inv parseStr reqs (w.setPhase i p) := by
  have hself : (w.setPhase i p).phase i = p := by simp [Service.setPhase]
  have hother : ∀ j, j ≠ i → (w.setPhase i p).phase j = w.phase j := by
    intro j hj
    simp [Service.setPhase, hj]
  have hflight : ∀ k j, InFlight (w.setPhase i p) k j → j ≠ i ∧ InFlight w k j ∨
      j = i ∧ p = .running (some k) := by
    intro k j hj
    by_cases hji : j = i
    · subst hji
      rw [InFlight, hself] at hj
      rcases hj with hp | ⟨cached, hp⟩
      · exact .inr ⟨rfl, hp⟩
      · exact absurd hp (hnext k cached)
    · rw [InFlight, hother j hji] at hj
      exact .inl ⟨hji, hj⟩
  refine ⟨h.kept, h.past, ?_, ?_, ?_, ?_, ?_, ?_⟩
  · intro k a b ha hb
    rcases hflight k a ha with ⟨_, hold⟩ | ⟨hai, hp⟩ <;>
      rcases hflight k b hb with ⟨_, hold'⟩ | ⟨hbi, hp'⟩
    · exact h.alone k a b hold hold'
    · exact absurd hold ((hrun k hp').2.1 a)
    · exact absurd hold' ((hrun k hp).2.1 b)
    · exact hai.trans hbi.symm
  · intro k j hj
    rcases hflight k j hj with ⟨_, hj⟩ | ⟨rfl, hp⟩
    · exact h.owner k j hj
    · exact (hrun k hp).1
  · intro j hj
    by_cases hji : j = i
    · subst hji
      exact hplain (hself.symm.trans hj)
    · exact h.plain j ((hother j hji).symm.trans hj)
  · intro k j hj
    by_cases hji : j = i
    · subst hji
      exact (hrun k (hself.symm.trans hj)).2.2
    · exact h.spaced k j ((hother j hji).symm.trans hj)
  · intro k j cached hj
    by_cases hji : j = i
    · subst hji
      exact absurd (hself.symm.trans hj) (hnext k cached)
    · exact h.storing k j cached ((hother j hji).symm.trans hj)
  · intro k hnone
    refine h.stored k fun j cached hj => ?_
    by_cases hji : j = i
    · subst hji
      exact hnot k cached hj
    · exact hnone j cached ((hother j hji).trans hj)

theorem setDone (h : Inv parseStr reqs w) (hnot : ∀ k cached, w.phase i ≠ .storing k cached) :
    Inv parseStr reqs (w.setPhase i .done) :=
  h.setPhase hnot (fun _ _ => Phase.noConfusion) (fun hp => Phase.noConfusion hp)
    fun _ hp => Phase.noConfusion hp

omit [DecidableEq ι] in
/-- Events that are no completion under a key leave the rest of the invariant as it is. -/
theorem note (h : Inv parseStr reqs w) {e : Event ι} (hkept : Kept parseStr reqs (e :: w.log))
    (hpast : ∀ j t response, e = .ran j t response → t ≤ w.clock)
    (hlast : ∀ k, lastRun parseStr reqs (.inl k) (e :: w.log) = lastRun parseStr reqs (.inl k) w.log)
    (hspaced : ∀ k t, Spaced parseStr reqs w.log k t → Spaced parseStr reqs (e :: w.log) k t) :
    Inv parseStr reqs (w.note e) := by
  refine ⟨hkept, ?_, h.alone, h.owner, h.plain, ?_, ?_, ?_⟩
  · intro j t response hj
    rcases List.mem_cons.1 hj with he | hj
    · exact hpast j t response he.symm
    · exact h.past j t response hj
  · intro k j hj
    exact hspaced k _ (h.spaced k j hj)
  · intro k j cached hj
    obtain ⟨response, hlastk, hcaches⟩ := h.storing k j cached hj
    exact ⟨response, (hlast k).trans hlastk, hcaches⟩
  · intro k hnone
    have hstored := h.stored k hnone
    unfold Stored at hstored ⊢
    simp only [Service.note, hlast k]
    cases hl : lastRun parseStr reqs (.inl k) w.log with
    | none =>
      rw [hl] at hstored
      exact hstored
    | some response =>
      rw [hl] at hstored
      obtain ⟨cached, deadline, hredis, hcaches, hsp⟩ := hstored
      exact ⟨cached, deadline, hredis, hcaches, hspaced k _ hsp⟩

omit [DecidableEq ι] in
theorem noteAnswered (h : Inv parseStr reqs w) {response : Response}
    (hlast : response.status.isSuccess = true → ∀ key, (reqs i).key parseStr = some key →
      ∃ r, lastRun parseStr reqs key w.log = some r ∧ r.status = response.status ∧
        r.body = some response.body) : Inv parseStr reqs (w.note (.answered i response)) := by
  refine h.note ⟨h.kept, hlast⟩ (fun _ _ _ he => by cases he) (fun _ => rfl) ?_
  intro k t hsp j t' r hj
  rcases List.mem_cons.1 hj with he | hj
  · cases he
  · exact hsp j t' r hj

omit [DecidableEq ι] in
/-- A completion without a key, or without a 2xx status. -/
theorem noteRan (h : Inv parseStr reqs w) {response : HandlerResponse}
    (hquiet : (reqs i).key parseStr = none ∨ response.status.isSuccess = false) :
    Inv parseStr reqs (w.note (.ran i w.clock response)) := by
  have hno : ∀ key, ¬((reqs i).key parseStr = some key ∧ response.status.isSuccess = true) := by
    rintro key ⟨hkey, hok⟩
    rcases hquiet with hnone | hbad
    · rw [hkey] at hnone
      cases hnone
    · rw [hok] at hbad
      cases hbad
  refine h.note ⟨h.kept, fun hok key hkey => absurd ⟨hkey, hok⟩ (hno key)⟩ ?_ ?_ ?_
  · rintro _ _ _ ⟨⟩
    exact Int.le_refl _
  · intro k
    exact if_neg (hno (.inl k))
  · intro k t hsp j t' r hj hkey hok
    rcases List.mem_cons.1 hj with he | hj
    · cases he
      exact absurd ⟨hkey, hok⟩ (hno _)
    · exact hsp j t' r hj hkey hok

omit [DecidableEq ι] in
theorem pass (h : Inv parseStr reqs w) {response : HandlerResponse}
    (hquiet : (reqs i).key parseStr = none ∨ response.status.isSuccess = false) :
    Inv parseStr reqs (w.pass i response) := by
  unfold Service.pass
  cases response.body with
  | none => exact h
  | some body =>
    refine h.noteAnswered fun hok key hkey => ?_
    rcases hquiet with hnone | hbad
    · rw [hkey] at hnone
      cases hnone
    · rw [hok] at hbad
      cases hbad

/-- A completion under a key, with its answer and the task that will store it. -/
theorem respond (h : Inv parseStr reqs w) {k : Uuid} (hrun : w.phase i = .running (some k))
    {status : StatusCode} {body : Bytes} (hok : status.isSuccess = true) (htext : IsText body) :
    Inv parseStr reqs (((w.note (.ran i w.clock { status, body := some body })).note
      (.answered i { status, body })).setPhase i
        (.storing k { status := status.code, body := fromUtf8Lossy body })) := by
  have hkey : (reqs i).key parseStr = some (.inl k) := h.owner k i (.inl hrun)
  have hmine : ∀ k', InFlight w k' i → k' = k := by
    rintro k' (hp | ⟨c, hp⟩)
    · rw [hrun] at hp
      cases hp
      rfl
    · rw [hrun] at hp
      cases hp
  set ran : Event ι := .ran i w.clock { status, body := some body }
  set cached : CachedResponse := { status := status.code, body := fromUtf8Lossy body }
  set w' := ((w.note ran).note (.answered i { status, body })).setPhase i (.storing k cached)
  have hself : w'.phase i = .storing k cached := by simp [w', Service.setPhase]
  have hother : ∀ j, j ≠ i → w'.phase j = w.phase j := by
    intro j hj
    simp [w', Service.setPhase, Service.note, hj]
  have hflight : ∀ k' j, InFlight w' k' j → InFlight w k' j := by
    intro k' j hj
    by_cases hji : j = i
    · subst hji
      rw [InFlight, hself] at hj
      rcases hj with hp | ⟨c, hp⟩ <;> cases hp
      exact .inl hrun
    · rw [InFlight, hother j hji] at hj
      exact hj
  have hlast : lastRun parseStr reqs (.inl k) w'.log = some { status, body := some body } :=
    if_pos ⟨hkey, hok⟩
  have hlast' : ∀ k', k' ≠ k →
      lastRun parseStr reqs (.inl k') w'.log = lastRun parseStr reqs (.inl k') w.log := by
    intro k' hk'
    refine if_neg ?_
    rintro ⟨he, _⟩
    rw [hkey] at he
    cases he
    exact hk' rfl
  have hspaced' : ∀ k' t, k' ≠ k → Spaced parseStr reqs w.log k' t →
      Spaced parseStr reqs w'.log k' t := by
    intro k' t hk' hsp j t' r hj hkey' hok'
    rcases List.mem_cons.1 hj with he | hj
    · cases he
    · rcases List.mem_cons.1 hj with he | hj
      · obtain ⟨rfl, _⟩ := Event.ran.inj he
        rw [hkey] at hkey'
        cases hkey'
        exact absurd rfl hk'
      · exact hsp j t' r hj hkey' hok'
  refine ⟨⟨⟨h.kept, ?_⟩, ?_⟩, ?_, ?_, ?_, ?_, ?_, ?_, ?_⟩
  · intro _ key hkey' j t' r hj hkeyj hokj
    rw [hkey] at hkey'
    cases hkey'
    exact h.spaced k i hrun j t' r hj hkeyj hokj
  · intro _ key hkey'
    rw [hkey] at hkey'
    cases hkey'
    exact ⟨_, hlast, rfl, rfl⟩
  · intro j t r hj
    rcases List.mem_cons.1 hj with he | hj
    · cases he
    · rcases List.mem_cons.1 hj with he | hj
      · exact Int.le_of_eq (Event.ran.inj he).2.1
      · exact h.past j t r hj
  · intro k' a b ha hb
    exact h.alone k' a b (hflight k' a ha) (hflight k' b hb)
  · intro k' j hj
    exact h.owner k' j (hflight k' j hj)
  · intro j hj
    by_cases hji : j = i
    · subst hji
      cases hself.symm.trans hj
    · exact h.plain j ((hother j hji).symm.trans hj)
  · intro k' j hj
    by_cases hji : j = i
    · subst hji
      cases hself.symm.trans hj
    · have hold := (hother j hji).symm.trans hj
      refine hspaced' k' _ ?_ (h.spaced k' j hold)
      rintro rfl
      exact hji (h.alone k' j i (.inl hold) (.inl hrun))
  · intro k' j c hj
    by_cases hji : j = i
    · subst hji
      cases hself.symm.trans hj
      exact ⟨_, hlast, rfl, congrArg some htext.symm⟩
    · have hold := (hother j hji).symm.trans hj
      have hk' : k' ≠ k := by
        rintro rfl
        exact hji (h.alone k' j i (.inr ⟨c, hold⟩) (.inl hrun))
      obtain ⟨r, hr, hcaches⟩ := h.storing k' j c hold
      exact ⟨r, (hlast' k' hk').trans hr, hcaches⟩
  · intro k' hnone
    have hk' : k' ≠ k := by
      rintro rfl
      exact hnone i cached hself
    have hstored := h.stored k' fun j c hj => by
      by_cases hji : j = i
      · subst hji
        cases hrun.symm.trans hj
      · exact hnone j c ((hother j hji).trans hj)
    unfold Stored at hstored ⊢
    rw [hlast' k' hk']
    cases hl : lastRun parseStr reqs (.inl k') w.log with
    | none =>
      rw [hl] at hstored
      exact hstored
    | some r =>
      rw [hl] at hstored
      obtain ⟨c, d, hredis, hcaches, hsp⟩ := hstored
      exact ⟨c, d, hredis, hcaches, hspaced' k' d hk' hsp⟩

/-- The spawned task has stored the response. -/
theorem store (h : Inv parseStr reqs w) {k : Uuid} {cached : CachedResponse}
    (hphase : w.phase i = .storing k cached) : Inv parseStr reqs (w.store i k cached true) := by
  set w' := w.store i k cached true
  have hself : w'.phase i = .done := by simp [w', Service.store, Service.setPhase]
  have hother : ∀ j, j ≠ i → w'.phase j = w.phase j := by
    intro j hj
    simp [w', Service.store, Service.setPhase, hj]
  have hflight : ∀ k' j, InFlight w' k' j → InFlight w k' j := by
    intro k' j hj
    by_cases hji : j = i
    · subst hji
      rw [InFlight, hself] at hj
      rcases hj with hp | ⟨c, hp⟩ <;> cases hp
    · rw [InFlight, hother j hji] at hj
      exact hj
  refine ⟨h.kept, h.past, fun k' a b ha hb => h.alone k' a b (hflight k' a ha) (hflight k' b hb),
    fun k' j hj => h.owner k' j (hflight k' j hj), ?_, ?_, ?_, ?_⟩
  · intro j hj
    by_cases hji : j = i
    · subst hji
      cases hself.symm.trans hj
    · exact h.plain j ((hother j hji).symm.trans hj)
  · intro k' j hj
    by_cases hji : j = i
    · subst hji
      cases hself.symm.trans hj
    · exact h.spaced k' j ((hother j hji).symm.trans hj)
  · intro k' j c hj
    by_cases hji : j = i
    · subst hji
      cases hself.symm.trans hj
    · exact h.storing k' j c ((hother j hji).symm.trans hj)
  · intro k' hnone
    by_cases hk' : k' = k
    · subst hk'
      obtain ⟨r, hr, hcaches⟩ := h.storing k' i cached hphase
      have hlast : lastRun parseStr reqs (.inl k') w'.log = some r := hr
      rw [Stored, hlast]
      refine ⟨cached, w.clock + ttl, if_pos rfl, hcaches, ?_⟩
      intro j t' r' hj _ _
      exact Int.add_le_add_right (h.past j t' r' hj) ttl
    · have hstored := h.stored k' fun j c hj => by
        by_cases hji : j = i
        · subst hji
          rw [hphase] at hj
          cases hj
          exact hk' rfl
        · exact hnone j c ((hother j hji).trans hj)
      have hredis : w'.redis k' = w.redis k' := if_neg hk'
      unfold Stored at hstored ⊢
      rw [hredis]
      exact hstored

omit [DecidableEq ι] in
/-- What Redis answers under a key that nobody is at. -/
theorem lookup (h : Inv parseStr reqs w) {k : Uuid} (hfree : ∀ j, ¬InFlight w k j) :
    match w.redis.find w.clock k with
    | some cached => ∃ response, lastRun parseStr reqs (.inl k) w.log = some response ∧
        Caches cached response
    | none => Spaced parseStr reqs w.log k w.clock := by
  have hstored := h.stored k fun j c hj => hfree j (.inr ⟨c, hj⟩)
  unfold Stored at hstored
  cases hl : lastRun parseStr reqs (.inl k) w.log with
  | none =>
    rw [hl] at hstored
    have hfind : w.redis.find w.clock k = none := by
      simp [Expiring.find, Expiring.entry, show w.redis k = none from hstored]
    rw [hfind]
    exact spaced_of_lastRun hl
  | some r =>
    rw [hl] at hstored
    obtain ⟨cached, d, hredis, hcaches, hsp⟩ := hstored
    by_cases halive : w.clock ≤ d
    · have hfind : w.redis.find w.clock k = some cached :=
        Expiring.find_of_alive hredis (by rintro _ ⟨⟩; exact halive)
      rw [hfind]
      exact ⟨r, rfl, hcaches⟩
    · have hfind : w.redis.find w.clock k = none := by
        simp [Expiring.find, Expiring.entry, hredis, Option.filter, Expiring.Alive, halive]
      rw [hfind]
      intro j t' r' hj hkey hok
      exact Int.le_trans (hsp j t' r' hj hkey hok) (Int.le_of_lt (Int.not_le.1 halive))

theorem enter (h : Inv parseStr reqs w) {redisAnswers : Bool} (hphase : w.phase i = .arrived)
    (horderly : Orderly parseStr reqs w (.enter i redisAnswers)) :
    Inv parseStr reqs (w.enter parseStr i (reqs i) redisAnswers) := by
  have hnot : ∀ k cached, w.phase i ≠ .storing k cached := by
    intro k cached hp
    cases hphase.symm.trans hp
  unfold Service.enter
  cases hheader : (reqs i).header with
  | none =>
    have hplain : Inv parseStr reqs (w.setPhase i (.running none)) := by
      refine h.setPhase hnot (fun _ _ hp => by cases hp) (fun _ => ?_) fun _ hp => by cases hp
      simp [Request.key, hheader]
    have hextract : extractIdempotencyKey parseStr (reqs i) = none := by
      simp [extractIdempotencyKey, hheader]
    rw [hextract]
    split <;> exact hplain
  | some value =>
    obtain ⟨hredis, rfl, k, hk, hfree⟩ := horderly (by simp [hheader])
    have hkey := key_of_extract hk
    have hlookup := h.lookup hfree
    simp only [hredis, if_true, hk]
    cases hfind : w.redis.find w.clock k with
    | none =>
      rw [hfind] at hlookup
      refine h.setPhase hnot (fun _ _ hp => by cases hp) (fun hp => by cases hp) ?_
      rintro _ ⟨⟩
      exact ⟨hkey, hfree, hlookup⟩
    | some cached =>
      rw [hfind] at hlookup
      obtain ⟨response, hlast, hstatus, hbody⟩ := hlookup
      have hfrom : (StatusCode.fromU16 cached.status).getD .ok = response.status := by
        simp only [StatusCode.fromU16, hstatus, response.status.valid, and_self, dif_pos,
          Option.getD_some]
      refine Inv.setDone (h.noteAnswered fun _ key hkey' => ?_) hnot
      rw [hkey] at hkey'
      cases hkey'
      exact ⟨response, hlast, hfrom.symm, hbody⟩

/-- A response that is not to be stored goes out. -/
theorem finish (h : Inv parseStr reqs w) {redisKey : Option Uuid} {response : HandlerResponse}
    (hphase : w.phase i = .running redisKey)
    (hquiet : (reqs i).key parseStr = none ∨ response.status.isSuccess = false) :
    Inv parseStr reqs (((w.note (.ran i w.clock response)).pass i response).setPhase i .done) := by
  refine ((h.noteRan hquiet).pass hquiet).setDone fun k cached hp => ?_
  have hsame : ((w.note (.ran i w.clock response)).pass i response).phase i = w.phase i := by
    unfold Service.pass
    split <;> rfl
  cases (hphase.symm.trans hsame.symm).trans hp

theorem complete (h : Inv parseStr reqs w) {redisKey : Option Uuid} {response : HandlerResponse}
    (hphase : w.phase i = .running redisKey)
    (horderly : Orderly parseStr reqs w (.complete i response)) :
    Inv parseStr reqs (w.complete i redisKey response) := by
  obtain ⟨status, body⟩ := response
  unfold Service.complete
  cases redisKey with
  | none => exact h.finish hphase (.inl (h.plain i hphase))
  | some k =>
    cases hok : status.isSuccess with
    | false =>
      simp only [Bool.false_eq_true, if_false]
      exact h.finish hphase (.inr hok)
    | true =>
      obtain ⟨b, hb, htext⟩ := horderly ⟨k, hphase⟩ hok
      obtain rfl : body = some b := hb
      simp only [if_true]
      exact h.respond hphase hok htext

omit [DecidableEq ι] in
theorem tick (h : Inv parseStr reqs w) {t : OffsetDateTime} (ht : w.clock ≤ t) :
    Inv parseStr reqs { w with clock := t } where
  kept := h.kept
  past j t' r hj := Int.le_trans (h.past j t' r hj) ht
  alone := h.alone
  owner := h.owner
  plain := h.plain
  spaced k j hj i t' r hi hkey hok := Int.le_trans (h.spaced k j hj i t' r hi hkey hok) ht
  storing := h.storing
  stored := h.stored

end Inv

/-- One orderly step. -/
theorem inv_step {w : Service ι} (a : Act ι) (h : Inv parseStr reqs w)
    (horderly : Orderly parseStr reqs w a) : Inv parseStr reqs (w.step parseStr reqs a) := by
  cases a with
  | enter i redisAnswers =>
    simp only [Service.step]
    split
    · rename_i hphase
      exact h.enter hphase horderly
    · exact h
  | complete i response =>
    simp only [Service.step]
    split
    · rename_i redisKey hphase
      exact h.complete hphase horderly
    · exact h
  | drop i =>
    simp only [Service.step]
    have hdone : (∀ k c, w.phase i ≠ .storing k c) → Inv parseStr reqs (w.setPhase i .done) := h.setDone
    split
    · rename_i hphase
      exact hdone fun k c hp => by cases hphase.symm.trans hp
    · rename_i hphase
      exact hdone fun k c hp => by cases hphase.symm.trans hp
    · exact h
  | store i redisAnswers =>
    obtain rfl : redisAnswers = true := horderly
    simp only [Service.step]
    split
    · rename_i hphase
      exact h.store hphase
    · exact h
  | tick t =>
    simp only [Service.step]
    split
    · rename_i ht
      exact h.tick ht
    · exact h

/-- In every run in which nothing comes between a request and the storing of its response, a key runs
its handler at most once a day, and every answer under it is the response of the last run. -/
theorem handler_once (parseStr : String → Option Uuid) (reqs : ι → Request) (now : OffsetDateTime)
    (acts : List (Act ι)) (h : Along (Service.step parseStr reqs) (Orderly parseStr reqs)
      (Service.start now) acts) :
    Kept parseStr reqs (acts.foldl (Service.step parseStr reqs) (Service.start now)).log :=
  (h.invariant (fun _ a hw ha => inv_step a hw ha) (inv_start now)).kept

/-! ## A retry -/

def keySeven : Bytes := bytesOf "00000000-0000-0000-0000-000000000007"

def parseSeven (s : String) : Option Uuid :=
  if s = "00000000-0000-0000-0000-000000000007" then some ⟨7⟩ else none

/-- A request and its retry, on a router that puts Redis on requests. -/
def retried (_ : Bool) : Request := { redis := true, header := some keySeven }

/-- The same on the router as it is. -/
def deployed (_ : Bool) : Request := deployedRequest (some keySeven)

def created : HandlerResponse := { status := .ok, body := some [0x7B, 0x7D] }

/-- The retry comes when the response is stored. -/
theorem retry_after_response : Kept parseSeven retried
    ([.enter false true, .complete false created, .store false true, .enter true true].foldl
      (Service.step parseSeven retried) (Service.start 0)).log := by
  refine handler_once parseSeven retried 0 _ ⟨?_, ?_, rfl, ?_, trivial⟩
  · refine fun _ => ⟨rfl, rfl, ⟨7⟩, by decide, ?_⟩
    rintro j (hj | ⟨c, hj⟩) <;> cases hj
  · exact fun _ _ => ⟨[0x7B, 0x7D], rfl, by unfold IsText; decide⟩
  · refine fun _ => ⟨rfl, rfl, ⟨7⟩, by decide, ?_⟩
    rintro (_ | _) (hj | ⟨c, hj⟩) <;> cases hj

/-- As deployed, the retry runs the handler again; and on a router that puts Redis on requests it
does, too, when it comes while the first request is running. -/
theorem retry_runs_again :
    (¬∀ acts : List (Act Bool), Kept parseSeven deployed
      (acts.foldl (Service.step parseSeven deployed) (Service.start 0)).log) ∧
    ¬∀ acts : List (Act Bool), Kept parseSeven retried
      (acts.foldl (Service.step parseSeven retried) (Service.start 0)).log := by
  constructor
  · intro h
    have hkept := h [.enter false true, .complete false created, .enter true true,
      .complete true created]
    have hapart := hkept.1.2 rfl (.inl ⟨7⟩) (by decide) false 0 created
      (.tail _ (.head _)) (by decide) rfl
    exact absurd hapart (by decide)
  · intro h
    have hkept := h [.enter false true, .enter true true, .complete false created,
      .complete true created]
    have hapart := hkept.1.2 rfl (.inl ⟨7⟩) (by decide) false 0 created
      (.tail _ (.head _)) (by decide) rfl
    exact absurd hapart (by decide)

end Idempotency

end Meno
