import Meno.Lib.Expiring
import Meno.Lib.Pool

/-!
# Meno.Shared.Coalescing

`coalesce_cache`: of the workers that miss a key in the cache, one gets the lock and fetches, and
the others wait for what it caches. `lock_given_back_iff` says when a worker that has got the lock
deletes it; `one_holder` is about the runs in which no worker deletes a lock that is not its own any
more.
-/

namespace Meno.Coalescing

open Lib

/-! ## The program -/

/-- What comes of a call to Redis: its answer, an answer that is lost on the way back, or an error
because the call has not reached Redis. -/
inductive Reply (α : Type) where
  | received (a : α)
  | lost (a : α)
  | unsent
deriving DecidableEq

namespace Reply

variable {α : Type}

/-- What the caller gets. -/
def ok : Reply α → Option α
  | .received a => some a
  | .lost _ => none
  | .unsent => none

/-- What Redis has answered. -/
def said : Reply α → Option α
  | .received a => some a
  | .lost a => some a
  | .unsent => none

end Reply

def lockTtlSecs : Nat := 5

def lockMaxRetries : Nat := 40

inductive CoalesceCall (V E : Type) : Type → Type
  | get : CoalesceCall V E (Reply (Option V))
  /-- The script sets the lock and says 1, or says 0 if there is one. -/
  | setLock : CoalesceCall V E (Reply Int)
  | fetch : CoalesceCall V E (Except E V)
  | sleep : CoalesceCall V E Unit
  | set (v : V) (ttlSecs : Nat) : CoalesceCall V E (Reply Unit)
  | delLock : CoalesceCall V E (Reply Unit)

section Program

variable {V E : Type}

def ask {β : Type} (c : CoalesceCall V E β) : Prog (CoalesceCall V E) β := .call c .ret

def tryAcquireLock : Prog (CoalesceCall V E) Bool := do
  let result ← ask .setLock
  return result.ok.getD 0 == 1

/-- The attempts of a worker without the lock. -/
def awaitCached : Nat → Prog (CoalesceCall V E) (Option V)
  | 0 => return none
  | attempts + 1 => do
    ask .sleep
    let found ← ask .get
    match found.ok with
    | some (some cached) => return some cached
    | _ => awaitCached attempts

/-- The result, and the value that the spawned task caches, if there is one. -/
def fetchAsWinner : Prog (CoalesceCall V E) (Except E V × Option V) := do
  let result ← ask .fetch
  match result with
  | .error e => return (.error e, none)
  | .ok v => return (.ok v, some v)

def waitAsLoser : Prog (CoalesceCall V E) (Except E V × Option V) := do
  let found ← awaitCached lockMaxRetries
  match found with
  | some cached => return (.ok cached, none)
  | none => do
    let result ← ask .fetch
    return (result, none)

def coalesceCache : Prog (CoalesceCall V E) (Except E V × Option V) := do
  let found ← ask .get
  match found.ok with
  | some (some cached) => return (.ok cached, none)
  | _ => do
    let acquiredLock ← tryAcquireLock
    if acquiredLock then fetchAsWinner else waitAsLoser

/-- The spawned task. -/
def cacheAndRelease (ttlSecs : Nat) : Option V → Prog (CoalesceCall V E) Unit
  | none => return ()
  | some v => do
    let _ ← ask (.set v ttlSecs)
    let _ ← ask .delLock
    return ()

/-- A call of `coalesce_cache`, to the end of its task. -/
def worker (ttlSecs : Nat) : Prog (CoalesceCall V E) (Except E V) := do
  let (result, fill) ← coalesceCache
  cacheAndRelease ttlSecs fill
  return result

end Program

/-! ## Many workers -/

/-- How far a worker is: whether its script has set the lock, and the answer was lost; whether its
fetcher has failed; whether its `DEL` has been done, or has not reached Redis. -/
structure Progress where
  acquired : Bool
  untold : Bool
  failed : Bool
  released : Bool
  unsent : Bool
deriving DecidableEq

namespace Progress

def none : Progress :=
  { acquired := false, untold := false, failed := false, released := false, unsent := false }

/-- The worker has got the lock and been told so. -/
def winner : Progress := { none with acquired := true }

def after {V E : Type} : {β : Type} → CoalesceCall V E β → β → Progress → Progress
  | _, .setLock, .received n, g => if n = 1 then { g with acquired := true } else g
  | _, .setLock, .lost n, g => if n = 1 then { g with acquired := true, untold := true } else g
  | _, .fetch, .error _, g => { g with failed := true }
  | _, .delLock, r, g =>
    if r.said.isSome then { g with released := true } else { g with unsent := true }
  | _, _, _, g => g

end Progress

/-- Redis, as far as one key of the cache goes, with the time in milliseconds. The lock's value says
whose it is, which in Redis nobody can tell. -/
structure CoalesceState (ι V : Type) where
  now : Nat
  cached : Option (Entry V Nat)
  lock : Option (Entry ι Nat)
  /-- Until when the lock is there that a worker has set. -/
  deadline : ι → Option Nat
  progress : ι → Progress

section Workers

variable {ι V E : Type} [DecidableEq ι]

/-- What is there at a time. -/
def present {α : Type} (e : Option (Entry α Nat)) (now : Nat) : Option α :=
  (e.filter fun e => decide (Expiring.Alive e now)).map Entry.value

/-- What Redis answers. A fetcher may answer anything. -/
def Possible (st : CoalesceState ι V) : {β : Type} → CoalesceCall V E β → β → Prop
  | _, .get, r => ∀ found ∈ r.said, found = present st.cached st.now
  | _, .setLock, r => ∀ n ∈ r.said, n = if (present st.lock st.now).isSome then 0 else 1
  | _, _, _ => True

/-- What a call of worker `i` does. -/
def effect (i : ι) (st : CoalesceState ι V) :
    {β : Type} → CoalesceCall V E β → β → CoalesceState ι V
  | _, .setLock, r =>
    if r.said = some 1 then
      { st with
        lock := some { value := i, deadline := some (st.now + 1000 * lockTtlSecs) }
        deadline := Function.update st.deadline i (some (st.now + 1000 * lockTtlSecs)) }
    else st
  | _, .set v ttlSecs, r =>
    if r.said.isSome then
      { st with cached := some { value := v, deadline := some (st.now + 1000 * ttlSecs) } }
    else st
  | _, .delLock, r => if r.said.isSome then { st with lock := none } else st
  | _, _, _ => st

def Answers (i : ι) {β : Type} (c : CoalesceCall V E β) (st : CoalesceState ι V) (b : β)
    (st' : CoalesceState ι V) : Prop :=
  Possible st c b ∧ st' = { effect i st c b with
    progress := Function.update st.progress i ((st.progress i).after c b) }

/-- Time passes, or others write or invalidate the key. -/
inductive Background : CoalesceState ι V → CoalesceState ι V → Prop
  | elapse {st : CoalesceState ι V} (later : Nat) (h : st.now ≤ later) :
      Background st { st with now := later }
  | elsewhere {st : CoalesceState ι V} (cached : Option (Entry V Nat)) :
      Background st { st with cached }

/-- Any number of workers before they begin, at any time and with anything in the cache. -/
def beginning (E : Type) (ttlSecs : ι → Nat) (now : Nat) (cached : Option (Entry V Nat)) :
    Pool (CoalesceState ι V) (CoalesceCall V E) (Except E V) ι where
  store := { now, cached, lock := none, deadline := fun _ => none, progress := fun _ => .none }
  prog i := worker (ttlSecs i)

end Workers

/-! ## What a worker has done -/

section Outline

variable {V E : Type}

/-- The script is run before anything is done, and the `DEL` by a worker that has been told that it
has the lock and has fetched. -/
def before : {β : Type} → CoalesceCall V E β → Progress → Prop
  | _, .setLock, g => g = .none
  | _, .delLock, g => g = .winner
  | _, _, _ => True

/-- Who has the lock gives it back, unless it was not told, its fetcher failed or its `DEL` has not
reached Redis. -/
def Settled (g : Progress) : Prop :=
  g.acquired = true →
    (g.released = true ↔ g.untold = false ∧ g.failed = false ∧ g.unsent = false)

abbrev Outline {α : Type} (x : Prog (CoalesceCall V E) α) (Q : α → Progress → Prop) (g : Progress) :
    Prop :=
  x.guarded before Progress.after Q g

theorem outline_cacheAndRelease (ttlSecs : Nat) (v : V) :
    Outline (cacheAndRelease (E := E) ttlSecs (some v)) (fun _ => Settled) .winner := by
  have hreleased : Settled { Progress.winner with released := true } := fun _ => by decide
  have hunsent : Settled { Progress.winner with unsent := true } := fun _ => by decide
  refine ⟨trivial, fun _ => ⟨rfl, ?_⟩⟩
  rintro (_ | _ | _)
  · exact hreleased
  · exact hreleased
  · exact hunsent

/-- The end of a call, with what it hands to its task. -/
def Ends (ttlSecs : Nat) (p : Except E V × Option V) (g : Progress) : Prop :=
  Outline (cacheAndRelease (E := E) ttlSecs p.2) (fun _ => Settled) g

variable (ttlSecs : Nat)

theorem outline_fetchAsWinner :
    Outline fetchAsWinner (Ends (V := V) (E := E) ttlSecs) .winner := by
  have hfailed : Settled { Progress.winner with failed := true } := fun _ => by decide
  refine ⟨trivial, ?_⟩
  rintro (e | v)
  · exact hfailed
  · exact outline_cacheAndRelease ttlSecs v

/-- A worker that has not been told that it has the lock. -/
def Unaware (g : Progress) : Prop := (g.acquired = true → g.untold = true) ∧ g.released = false

theorem Unaware.settled {g : Progress} (h : Unaware g) : Settled g := by
  intro hacquired
  simp [h.1 hacquired, h.2]

theorem outline_awaitCached {Q : Option V → Progress → Prop} {g : Progress} (hQ : ∀ r, Q r g) :
    ∀ attempts, Outline (awaitCached (E := E) attempts) Q g
  | 0 => hQ none
  | attempts + 1 => by
    refine ⟨trivial, fun _ => ⟨trivial, fun found => ?_⟩⟩
    change Outline (match found.ok with
      | some (some cached) => return some cached
      | _ => awaitCached attempts) Q g
    split
    · exact hQ _
    · exact outline_awaitCached hQ attempts

theorem outline_waitAsLoser {g : Progress} (h : Unaware g) :
    Outline waitAsLoser (Ends (V := V) (E := E) ttlSecs) g := by
  refine Prog.guarded_bind (outline_awaitCached (fun found => ?_) _)
  cases found with
  | some cached => exact h.settled
  | none =>
    refine ⟨trivial, ?_⟩
    rintro (e | v)
    · exact Unaware.settled ⟨h.1, h.2⟩
    · exact h.settled

theorem outline_coalesceCache :
    Outline coalesceCache (Ends (V := V) (E := E) ttlSecs) .none := by
  have hunaware : Unaware .none := ⟨fun h => absurd h (by decide), rfl⟩
  refine ⟨trivial, fun found => ?_⟩
  change Outline (match found.ok with
    | some (some cached) => return (.ok cached, none)
    | _ => do
      let acquiredLock ← tryAcquireLock
      if acquiredLock then fetchAsWinner else waitAsLoser) (Ends ttlSecs) .none
  split
  · exact hunaware.settled
  · refine ⟨rfl, fun result => ?_⟩
    change Outline (if (result.ok.getD 0 == 1) = true then fetchAsWinner else waitAsLoser)
      (Ends ttlSecs) (Progress.none.after (.setLock : CoalesceCall V E (Reply Int)) result)
    rcases result with n | n | _
    · by_cases hn : n = 1
      · subst hn
        exact outline_fetchAsWinner ttlSecs
      · simp only [Reply.ok, Option.getD_some, beq_iff_eq, hn, if_false, Progress.after]
        exact outline_waitAsLoser ttlSecs hunaware
    · by_cases hn : n = 1
      · subst hn
        exact outline_waitAsLoser ttlSecs ⟨fun _ => rfl, rfl⟩
      · simp only [Progress.after, hn, if_false]
        exact outline_waitAsLoser ttlSecs hunaware
    · exact outline_waitAsLoser ttlSecs hunaware

theorem outline_worker : Outline (worker (V := V) (E := E) ttlSecs) (fun _ => Settled) .none := by
  refine Prog.guarded_bind (Prog.guarded_mono (fun p g hends => ?_) (outline_coalesceCache ttlSecs))
  exact Prog.guarded_bind hends

end Outline

/-! ## The lock -/

section Lock

variable {ι V E : Type} [DecidableEq ι] {i : ι} {st st' : CoalesceState ι V}
  {g : ι → Progress} {β : Type}

namespace CoalesceState

/-- The worker has set the lock and not deleted it, and the lock has not expired. -/
def Holds (st : CoalesceState ι V) (i : ι) : Prop :=
  (st.progress i).released = false ∧ ∃ d ∈ st.deadline i, st.now ≤ d

/-- The worker's `DEL` has been done, and the lock is none that the worker has set. -/
def GivenBack (st : CoalesceState ι V) (i : ι) : Prop :=
  (st.progress i).released = true ∧ ∀ e ∈ st.lock, e.value ≠ i

end CoalesceState

theorem after_setLock (r : Reply Int) (g : Progress) :
    (g.after (.setLock : CoalesceCall V E (Reply Int)) r).released = g.released ∧
      (r.said = some 1 → (g.after (.setLock : CoalesceCall V E (Reply Int)) r).acquired = true) ∧
      (r.said ≠ some 1 → g.after (.setLock : CoalesceCall V E (Reply Int)) r = g) := by
  rcases r with n | n | _
  · by_cases hn : n = 1 <;> simp [Progress.after, Reply.said, hn]
  · by_cases hn : n = 1 <;> simp [Progress.after, Reply.said, hn]
  · simp [Progress.after, Reply.said]

theorem after_delLock (r : Reply Unit) (g : Progress) :
    (g.after (.delLock : CoalesceCall V E (Reply Unit)) r).acquired = g.acquired ∧
      (r.said.isSome = true →
        (g.after (.delLock : CoalesceCall V E (Reply Unit)) r).released = true) ∧
      (r.said.isSome = false →
        (g.after (.delLock : CoalesceCall V E (Reply Unit)) r).released = g.released) := by
  cases h : r.said.isSome <;> simp [Progress.after, h]

/-- The lock belongs to a worker that has set it and not deleted it, and expires with it. -/
structure LockInv (st : CoalesceState ι V) (g : ι → Progress) : Prop where
  progress : st.progress = g
  owned : ∀ e ∈ st.lock, (g e.value).acquired = true ∧ (g e.value).released = false ∧
    ∃ d, e.deadline = some d ∧ st.deadline e.value = some d

/-- A call that leaves the lock, and of the worker's progress what the lock has to do with. -/
theorem LockInv.of_same {g' : Progress} (h : LockInv st g) (hlock : st'.lock = st.lock)
    (hdeadline : st'.deadline = st.deadline)
    (hprogress : st'.progress = Function.update st.progress i g')
    (hacquired : g'.acquired = (g i).acquired) (hreleased : g'.released = (g i).released) :
    LockInv st' (Function.update g i g') where
  progress := by rw [hprogress, h.progress]
  owned e he := by
    rw [hlock] at he
    obtain ⟨hacq, hrel, hdead⟩ := h.owned e he
    rw [hdeadline]
    by_cases hi : e.value = i
    · rw [hi] at hacq hrel
      rw [hi, Function.update_self]
      exact ⟨hacquired.trans hacq, hreleased.trans hrel, hi ▸ hdead⟩
    · rw [Function.update_of_ne hi]
      exact ⟨hacq, hrel, hdead⟩

theorem LockInv.setLock {r : Reply Int} (h : LockInv st g) (hpre : g i = .none)
    (hs : Answers i (.setLock : CoalesceCall V E (Reply Int)) st r st') :
    LockInv st' (Function.update g i
      ((g i).after (.setLock : CoalesceCall V E (Reply Int)) r)) := by
  obtain ⟨-, rfl⟩ := hs
  obtain ⟨hreleased, hacquired, hsame⟩ := after_setLock (V := V) (E := E) r (g i)
  rw [h.progress]
  by_cases hset : r.said = some 1
  · refine ⟨rfl, ?_⟩
    simp only [effect, hset, if_true]
    rintro e ⟨⟩
    rw [Function.update_self, Function.update_self]
    exact ⟨hacquired hset, hreleased.trans (by rw [hpre]; rfl), _, rfl, rfl⟩
  · rw [hsame hset]
    refine h.of_same ?_ ?_ (by rw [h.progress]) rfl rfl
    · simp only [effect, hset, if_false]
    · simp only [effect, hset, if_false]

theorem LockInv.delLock {r : Reply Unit} (h : LockInv st g)
    (hs : Answers i (.delLock : CoalesceCall V E (Reply Unit)) st r st') :
    LockInv st' (Function.update g i
      ((g i).after (.delLock : CoalesceCall V E (Reply Unit)) r)) := by
  obtain ⟨-, rfl⟩ := hs
  obtain ⟨hacquired, -, hreleased⟩ := after_delLock (V := V) (E := E) r (g i)
  rw [h.progress]
  cases hdone : r.said.isSome with
  | true =>
    refine ⟨rfl, ?_⟩
    simp only [effect, hdone, if_true]
    rintro e ⟨⟩
  | false =>
    refine h.of_same ?_ ?_ (by rw [h.progress]) hacquired (hreleased hdone)
    · simp only [effect, hdone, Bool.false_eq_true, if_false]
    · simp only [effect, hdone, Bool.false_eq_true, if_false]

theorem LockInv.call {c : CoalesceCall V E β} {b : β} (h : LockInv st g) (hpre : before c (g i))
    (hs : Answers i c st b st') :
    LockInv st' (Function.update g i ((g i).after c b)) := by
  cases c with
  | setLock => exact h.setLock hpre hs
  | delLock => exact h.delLock hs
  | get =>
    obtain ⟨-, rfl⟩ := hs
    exact h.of_same rfl rfl (by rw [h.progress]) rfl rfl
  | sleep =>
    obtain ⟨-, rfl⟩ := hs
    exact h.of_same rfl rfl (by rw [h.progress]) rfl rfl
  | fetch =>
    obtain ⟨-, rfl⟩ := hs
    rw [h.progress]
    cases b with
    | error e => exact h.of_same rfl rfl (by rw [h.progress]) rfl rfl
    | ok v => exact h.of_same rfl rfl (by rw [h.progress]) rfl rfl
  | set v ttlSecs =>
    obtain ⟨-, rfl⟩ := hs
    rw [h.progress]
    cases hdone : b.said.isSome with
    | true =>
      refine h.of_same ?_ ?_ (by rw [h.progress]) rfl rfl
      · simp only [effect, hdone, if_true]
      · simp only [effect, hdone, if_true]
    | false =>
      refine h.of_same ?_ ?_ (by rw [h.progress]) rfl rfl
      · simp only [effect, hdone, Bool.false_eq_true, if_false]
      · simp only [effect, hdone, Bool.false_eq_true, if_false]

omit [DecidableEq ι] in
theorem LockInv.background (h : LockInv st g) (hs : Background st st') : LockInv st' g := by
  cases hs with
  | elapse later hlater => exact ⟨h.progress, h.owned⟩
  | elsewhere cached => exact ⟨h.progress, h.owned⟩

/-! ## The lock is given back -/

variable {p : Pool (CoalesceState ι V) (CoalesceCall V E) (Except E V) ι} {ttlSecs : ι → Nat}
  {now : Nat} {cached : Option (Entry V Nat)}

omit [DecidableEq ι] in
/-- Before anybody begins. -/
theorem lockInv_beginning :
    LockInv (beginning (ι := ι) E ttlSecs now cached).store fun _ => .none where
  progress := rfl
  owned e he := by cases he

theorem outlined_of_steps (h : Pool.Steps Answers Background (beginning E ttlSecs now cached) p) :
    p.Outlined (fun _ => before) (fun _ => Progress.after) (fun _ _ => Settled) LockInv :=
  Pool.outlined_of_steps (fun _ _ _ _ _ _ _ hpre hexec hinv => hinv.call hpre hexec)
    (fun _ _ _ hs hinv => hinv.background hs) h ⟨_, lockInv_beginning, fun _ => outline_worker _⟩

/-- A worker that has got the lock and is at its end has given the lock back, if it was told that it
had it, its fetcher did not fail, and its `DEL` has reached Redis; and not otherwise. -/
theorem lock_given_back_iff
    (h : Pool.Steps Answers Background (beginning E ttlSecs now cached) p) {r : Except E V}
    (hret : p.prog i = .ret r) (hacquired : (p.store.progress i).acquired = true) :
    p.store.GivenBack i ↔ (p.store.progress i).untold = false ∧
      (p.store.progress i).failed = false ∧ (p.store.progress i).unsent = false := by
  obtain ⟨g, hinv, hsettled⟩ := (outlined_of_steps h).returned
  have hi := hsettled i r hret
  rw [← hinv.progress] at hi
  refine Iff.trans ⟨fun hback => hback.1, fun hreleased => ⟨hreleased, fun e he howner => ?_⟩⟩
    (hi hacquired)
  obtain ⟨-, hnot, -⟩ := hinv.owned e he
  rw [howner, ← hinv.progress, hreleased] at hnot
  cases hnot

/-! ## One holder -/

/-- A `DEL` that is done comes before the worker's own lock expires, or when no other worker holds
one. -/
def Timely (i : ι) (st : CoalesceState ι V) : {β : Type} → CoalesceCall V E β → β → Prop
  | _, .delLock, r => r.said.isSome = true →
    (∃ d ∈ st.deadline i, st.now ≤ d) ∨ ∀ j, j ≠ i → ¬ st.Holds j
  | _, _, _ => True

/-- No lock that another worker has set is deleted. -/
def Spares (i : ι) (st : CoalesceState ι V) : {β : Type} → CoalesceCall V E β → β → Prop
  | _, .delLock, r => r.said.isSome = true →
    ∀ e ∈ st.lock, Expiring.Alive e st.now → e.value = i
  | _, _, _ => True

def TimelyAnswers (i : ι) {β : Type} (c : CoalesceCall V E β)
    (st : CoalesceState ι V) (b : β) (st' : CoalesceState ι V) : Prop :=
  Answers i c st b st' ∧ Timely i st c b

def SparingAnswers (i : ι) {β : Type} (c : CoalesceCall V E β)
    (st : CoalesceState ι V) (b : β) (st' : CoalesceState ι V) : Prop :=
  Answers i c st b st' ∧ Spares i st c b

/-- Moreover, who holds the lock is whose it is. -/
structure HeldInv (st : CoalesceState ι V) (g : ι → Progress) : Prop extends LockInv st g where
  held : ∀ i, st.Holds i → ∃ e ∈ st.lock, e.value = i

omit [DecidableEq ι] in
theorem HeldInv.unique (h : HeldInv st g) {j : ι} (hi : st.Holds i) (hj : st.Holds j) : i = j := by
  obtain ⟨e, he, rfl⟩ := h.held i hi
  obtain ⟨e', he', rfl⟩ := h.held j hj
  rw [Option.mem_unique he he']

omit [DecidableEq ι] in
theorem LockInv.holds {e : Entry ι Nat} (h : LockInv st g) (he : e ∈ st.lock)
    (halive : Expiring.Alive e st.now) : st.Holds e.value := by
  obtain ⟨-, hreleased, d, hd, hdeadline⟩ := h.owned e he
  exact ⟨by rw [h.progress]; exact hreleased, d, hdeadline, halive d hd⟩

omit [DecidableEq ι] in
/-- A lock that somebody holds has not expired. -/
theorem HeldInv.taken (h : HeldInv st g) {j : ι} (hj : st.Holds j) :
    (present st.lock st.now).isSome = true := by
  obtain ⟨e, he, rfl⟩ := h.held j hj
  obtain ⟨-, d, hd, hle⟩ := hj
  obtain ⟨-, -, d', hd', hdeadline⟩ := h.owned e he
  obtain rfl : d = d' := Option.some.inj (hd.symm.trans hdeadline)
  have halive : Expiring.Alive e st.now := by
    intro t ht
    rw [hd'] at ht
    exact Option.some.inj ht ▸ hle
  have he : st.lock = some e := he
  simp [present, he, Option.filter, halive]

omit [DecidableEq ι] in
/-- Whoever deletes the lock in time is the only one who may hold it. -/
theorem HeldInv.others {r : Reply Unit} (h : HeldInv st g) (hpre : g i = .winner)
    (htimely : Timely i st (.delLock : CoalesceCall V E (Reply Unit)) r)
    (hdone : r.said.isSome = true) {j : ι} (hne : j ≠ i) : ¬ st.Holds j := by
  rcases htimely hdone with ⟨d, hd, hle⟩ | hothers
  · intro hj
    have hi : st.Holds i := ⟨by rw [h.progress, hpre]; rfl, d, hd, hle⟩
    exact hne (h.unique hj hi)
  · exact hothers j hne

/-- After a call that leaves the lock. -/
theorem HeldInv.of_same {g' : Progress} (h : HeldInv st g)
    (hinv : LockInv st' (Function.update g i g')) (hlock : st'.lock = st.lock)
    (hdeadline : st'.deadline = st.deadline) (hnow : st'.now = st.now)
    (hreleased : g'.released = (g i).released) : HeldInv st' (Function.update g i g') where
  toLockInv := hinv
  held j hj := by
    rw [hlock]
    refine h.held j ⟨?_, ?_⟩
    · have hj := hj.1
      rw [hinv.progress] at hj
      rw [h.progress]
      by_cases hji : j = i
      · rw [hji, Function.update_self] at hj
        rw [hji, ← hreleased, hj]
      · rwa [Function.update_of_ne hji] at hj
    · have hj := hj.2
      rwa [hdeadline, hnow] at hj

theorem HeldInv.setLock {r : Reply Int} (h : HeldInv st g) (hpre : g i = .none)
    (hs : Answers i (.setLock : CoalesceCall V E (Reply Int)) st r st') :
    HeldInv st' (Function.update g i
      ((g i).after (.setLock : CoalesceCall V E (Reply Int)) r)) := by
  have hinv := h.toLockInv.setLock hpre hs
  obtain ⟨hpossible, rfl⟩ := hs
  by_cases hset : r.said = some 1
  · refine ⟨hinv, fun j hj => ?_⟩
    have hfree : (present st.lock st.now).isSome = false := by
      have hone := hpossible 1 hset
      cases hp : (present st.lock st.now).isSome with
      | false => rfl
      | true => simp [hp] at hone
    by_cases hji : j = i
    · refine ⟨{ value := i, deadline := some (st.now + 1000 * lockTtlSecs) }, ?_, hji.symm⟩
      simp only [effect, hset, if_true]
      rfl
    · have hold : st.Holds j := by
        simpa only [CoalesceState.Holds, effect, hset, if_true, Function.update_of_ne hji] using hj
      rw [h.taken hold] at hfree
      cases hfree
  · obtain ⟨-, -, hsame⟩ := after_setLock (V := V) (E := E) r (g i)
    refine h.of_same hinv ?_ ?_ ?_ (by rw [hsame hset])
    all_goals simp only [effect, hset, if_false]

theorem HeldInv.delLock {r : Reply Unit} (h : HeldInv st g) (hpre : g i = .winner)
    (htimely : Timely i st (.delLock : CoalesceCall V E (Reply Unit)) r)
    (hs : Answers i (.delLock : CoalesceCall V E (Reply Unit)) st r st') :
    HeldInv st' (Function.update g i
      ((g i).after (.delLock : CoalesceCall V E (Reply Unit)) r)) := by
  have hinv := h.toLockInv.delLock hs
  obtain ⟨-, hdel, hkeeps⟩ := after_delLock (V := V) (E := E) r (g i)
  obtain ⟨-, rfl⟩ := hs
  cases hdone : r.said.isSome with
  | true =>
    refine ⟨hinv, fun j hj => ?_⟩
    by_cases hji : j = i
    · have hj := hj.1
      rw [hinv.progress, hji, Function.update_self, hdel hdone] at hj
      cases hj
    · have hold : st.Holds j := by
        simpa only [CoalesceState.Holds, effect, hdone, if_true, Function.update_of_ne hji] using hj
      exact absurd hold (h.others hpre htimely hdone hji)
  | false =>
    refine h.of_same hinv ?_ ?_ ?_ (hkeeps hdone)
    all_goals simp only [effect, hdone, Bool.false_eq_true, if_false]

theorem HeldInv.call {c : CoalesceCall V E β} {b : β} (h : HeldInv st g) (hpre : before c (g i))
    (hs : TimelyAnswers i c st b st') :
    HeldInv st' (Function.update g i ((g i).after c b)) := by
  obtain ⟨hs, htimely⟩ := hs
  cases c with
  | setLock => exact h.setLock hpre hs
  | delLock => exact h.delLock hpre htimely hs
  | get =>
    have hinv := h.toLockInv.call hpre hs
    obtain ⟨-, rfl⟩ := hs
    exact h.of_same hinv rfl rfl rfl rfl
  | sleep =>
    have hinv := h.toLockInv.call hpre hs
    obtain ⟨-, rfl⟩ := hs
    exact h.of_same hinv rfl rfl rfl rfl
  | fetch =>
    have hinv := h.toLockInv.call hpre hs
    obtain ⟨-, rfl⟩ := hs
    refine h.of_same hinv rfl rfl rfl ?_
    cases b <;> rfl
  | set v ttlSecs =>
    have hinv := h.toLockInv.call hpre hs
    obtain ⟨-, rfl⟩ := hs
    refine h.of_same hinv ?_ ?_ ?_ rfl
    all_goals
      dsimp only [effect]
      split <;> rfl

omit [DecidableEq ι] in
theorem HeldInv.background (h : HeldInv st g) (hs : Background st st') : HeldInv st' g := by
  refine ⟨h.toLockInv.background hs, fun j hj => ?_⟩
  cases hs with
  | elapse later hlater =>
    obtain ⟨hreleased, d, hd, hle⟩ := hj
    exact h.held j ⟨hreleased, d, hd, hlater.trans hle⟩
  | elsewhere cached => exact h.held j hj

theorem HeldInv.spares {c : CoalesceCall V E β} {b : β} (h : HeldInv st g) (hpre : before c (g i))
    (htimely : Timely i st c b) : Spares i st c b := by
  cases c with
  | delLock =>
    intro hdone e he halive
    by_contra hne
    exact h.others hpre htimely hdone hne (h.holds he halive)
  | get | setLock | fetch | sleep | set v ttlSecs => trivial

/-- Where every `DEL` that is done is timely, none deletes another worker's lock, and at most one
worker at a time holds a lock. -/
theorem one_holder
    (h : Pool.Steps TimelyAnswers Background (beginning E ttlSecs now cached) p) :
    Pool.Steps SparingAnswers Background (beginning E ttlSecs now cached) p ∧
      ∀ i j, p.store.Holds i → p.store.Holds j → i = j := by
  have hstart : (beginning (ι := ι) (V := V) E ttlSecs now cached).Outlined (fun _ => before)
      (fun _ => Progress.after) (fun _ _ => Settled) HeldInv := by
    refine ⟨_, ⟨lockInv_beginning, ?_⟩, fun _ => outline_worker _⟩
    rintro i ⟨-, d, hd, -⟩
    cases hd
  constructor
  · exact Pool.steps_of_outlined
      (fun _ _ _ _ _ _ _ hpre hexec hinv => hinv.call hpre hexec)
      (fun _ _ _ hs hinv => hinv.background hs)
      (fun _ _ _ _ _ _ _ hpre hexec hinv => ⟨hexec.1, hinv.spares hpre hexec.2⟩) h hstart
  · obtain ⟨g, hinv, -⟩ := Pool.outlined_of_steps
      (fun _ _ _ _ _ _ _ hpre hexec hinv => hinv.call hpre hexec)
      (fun _ _ _ hs hinv => hinv.background hs) h hstart
    exact fun i j hi hj => hinv.unique hi hj

end Lock

/-! ## Runs -/

section Runs

variable {ι : Type} [DecidableEq ι] (fetched : Except String Nat)

/-- Redis is up, entries stay for 30 seconds, and every fetch has the same result. -/
def answerUp (i : ι) {β : Type} (c : CoalesceCall Nat String β) (st : CoalesceState ι Nat) :
    β × CoalesceState ι Nat :=
  let b : β := match c with
    | .get => .received (present st.cached st.now)
    | .setLock => .received (if (present st.lock st.now).isSome then 0 else 1)
    | .fetch => fetched
    | .sleep => ()
    | .set _ _ => .received ()
    | .delLock => .received ()
  (b, { effect i st c b with
    progress := Function.update st.progress i ((st.progress i).after c b) })

theorem answers_answerUp (i : ι) {β : Type} (c : CoalesceCall Nat String β)
    (st : CoalesceState ι Nat) :
    Answers i c st (answerUp fetched i c st).1 (answerUp fetched i c st).2 := by
  refine ⟨?_, rfl⟩
  cases c with
  | get =>
    rintro found ⟨⟩
    rfl
  | setLock =>
    rintro n ⟨⟩
    rfl
  | fetch | sleep | set | delLock => trivial

def wait (st : CoalesceState ι Nat) (ms : Nat) : CoalesceState ι Nat :=
  { st with now := st.now + ms }

abbrev runTurns (ts : List (Pool.Turn ι Nat)) :
    Pool (CoalesceState ι Nat) (CoalesceCall Nat String) (Except String Nat) ι :=
  ts.foldl (Pool.turn (answerUp fetched) wait) (beginning String (fun _ => 30) 0 none)

theorem steps_runTurns (ts : List (Pool.Turn ι Nat)) :
    Pool.Steps Answers Background (beginning String (fun _ => 30) 0 none)
      (runTurns fetched ts) := by
  have hts : (beginning (ι := ι) (V := Nat) String (fun _ => 30) 0 none).TurnsOk
      (answerUp fetched) wait (fun _ _ _ _ => True) ts :=
    Pool.turnsOk_of_forall fun _ _ _ _ => trivial
  exact Pool.steps_turns (fun i _ c st _ => answers_answerUp fetched i c st)
    (fun _ _ => .elapse _ (Nat.le_add_right _ _)) hts

/-- One worker, from its first call to its last. -/
def alone : List (Pool.Turn Unit Nat) :=
  [.call (), .call (), .env 200, .call (), .call (), .call ()]

theorem lock_given_back_alone :
    (runTurns (.ok 7) alone).prog () = .ret (.ok 7) ∧
      (runTurns (.ok 7) alone).store.GivenBack () :=
  ⟨rfl, (lock_given_back_iff (steps_runTurns _ alone) (r := .ok 7) rfl rfl).2 ⟨rfl, rfl, rfl⟩⟩

/-- The fetcher fails: four seconds later the lock is still there, and nobody will delete it. -/
theorem failed_fetch_keeps_lock :
    let p := runTurns (.error "timeout") [.call (), .call (), .call (), .env 4000]
    Pool.Steps Answers Background (beginning String (fun _ => 30) 0 none) p ∧
      p.prog () = .ret (.error "timeout") ∧ (p.store.progress ()).acquired = true ∧
      ¬ p.store.GivenBack () ∧ (present p.store.lock p.store.now).isSome = true := by
  refine ⟨steps_runTurns _ _, rfl, rfl, ?_, rfl⟩
  rintro ⟨hreleased, -⟩
  cases hreleased

/-- Three workers miss the cache. Worker 0 gets the lock and worker 1 does not; worker 0 gives it
back in time, and worker 2 gets it. -/
def contended : List (Pool.Turn Nat Nat) :=
  [.call 0, .call 1, .call 2, .call 0, .call 1, .env 200, .call 0, .call 0, .call 0, .call 2]

theorem one_holder_alone :
    (runTurns (.ok 7) contended).store.Holds 2 ∧ ¬ (runTurns (.ok 7) contended).store.Holds 0 ∧
      Pool.Steps SparingAnswers Background (beginning String (fun _ => 30) 0 none)
        (runTurns (.ok 7) contended) ∧
      ∀ i j, (runTurns (.ok 7) contended).store.Holds i →
        (runTurns (.ok 7) contended).store.Holds j → i = j := by
  have htimely : (beginning (ι := Nat) (V := Nat) String (fun _ => 30) 0 none).TurnsOk
      (answerUp (.ok 7)) wait
      (fun i _ c st => Timely i st c (answerUp (.ok 7) i c st).1) contended := by
    refine ⟨trivial, trivial, trivial, trivial, trivial, trivial, trivial, trivial, ?_, trivial,
      trivial⟩
    exact fun _ => .inl ⟨5000, rfl, by decide⟩
  have hholds : (runTurns (.ok 7) contended).store.Holds 2 := ⟨rfl, 5200, rfl, by decide⟩
  have hone := one_holder (Pool.steps_turns (fun i _ c st hc => ⟨answers_answerUp _ i c st, hc⟩)
    (fun _ _ => .elapse _ (Nat.le_add_right _ _)) htimely)
  exact ⟨hholds, fun h => absurd (hone.2 0 2 h hholds) (by decide), hone⟩

/-- Worker 0 takes longer than the lock lasts, and deletes the lock of worker 1. Worker 2, which
missed the cache before, gets it too. -/
def slowFetch : List (Pool.Turn Nat Nat) :=
  [.call 0, .call 0, .env 5001, .call 1, .call 1, .call 2, .call 0, .call 0, .call 0, .call 2]

theorem two_holders : ∃ p : Pool (CoalesceState Nat Nat) (CoalesceCall Nat String)
    (Except String Nat) Nat,
    Pool.Steps Answers Background (beginning String (fun _ => 30) 0 none) p ∧
      p.store.Holds 1 ∧ p.store.Holds 2 := by
  refine ⟨_, steps_runTurns (.ok 7) slowFetch, ?_, ?_⟩
  · exact ⟨rfl, 10001, rfl, by decide⟩
  · exact ⟨rfl, 10001, rfl, by decide⟩

end Runs

end Meno.Coalescing
