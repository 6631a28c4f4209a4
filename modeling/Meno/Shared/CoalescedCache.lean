import Meno.Shared.Coalescing

/-!
# Meno.Shared.CoalescedCache

`coalesce_cache` over the keys of one cache. A worker answers with what it has found under its key
or with what its fetcher has answered, and it caches what its fetcher has answered (`outline_seen`).
-/

namespace Meno.Coalescing

open Lib

def CoalesceCall.fetches {V E : Type} : {β : Type} → CoalesceCall V E β → Bool
  | _, .fetch => true
  | _, _ => false

def CoalesceCall.sets {V E : Type} : {β : Type} → CoalesceCall V E β → Bool
  | _, .set _ _ => true
  | _, _ => false

/-- What Redis has under the keys of a cache and of their locks, with the time in milliseconds. -/
structure CacheState (κ V : Type) where
  now : Nat
  entries : Expiring κ V Nat
  locks : Expiring κ Unit Nat

namespace CacheState

def empty (κ V : Type) (now : Nat) : CacheState κ V :=
  { now, entries := .empty, locks := .empty }

section Calls

variable {κ V E : Type} [DecidableEq κ] (key : κ) (fetched : Except E V)

/-- What Redis answers to a call for a key, and what the fetcher does. -/
def Possible (st : CacheState κ V) : {β : Type} → CoalesceCall V E β → β → Prop
  | _, .get, r => ∀ found ∈ r.said, found = st.entries.find st.now key
  | _, .setLock, r => ∀ n ∈ r.said, n = if (st.locks.find st.now key).isSome then 0 else 1
  | _, .fetch, r => r = fetched
  | _, _, _ => True

def effect (st : CacheState κ V) : {β : Type} → CoalesceCall V E β → β → CacheState κ V
  | _, .setLock, r =>
    if r.said = some 1 then
      { st with
        locks := st.locks.set key
          (some { value := (), deadline := some (st.now + 1000 * lockTtlSecs) }) }
    else st
  | _, .set v ttlSecs, r =>
    if r.said.isSome then
      { st with
        entries := st.entries.set key
          (some { value := v, deadline := some (st.now + 1000 * ttlSecs) }) }
    else st
  | _, .delLock, r => if r.said.isSome then { st with locks := st.locks.set key none } else st
  | _, _, _ => st

def Answers {β : Type} (c : CoalesceCall V E β) (st : CacheState κ V) (b : β)
    (st' : CacheState κ V) : Prop :=
  Possible key fetched st c b ∧ st' = effect key st c b

/-- Time passes, or keys are invalidated or evicted. -/
inductive Background : CacheState κ V → CacheState κ V → Prop
  | elapse {st : CacheState κ V} (later : Nat) (h : st.now ≤ later) :
      Background st { st with now := later }
  | vanish {st : CacheState κ V} (keys : List κ) :
      Background st { st with entries := st.entries.remove keys }

/-- Redis is up. -/
def answerUp {β : Type} (c : CoalesceCall V E β) (st : CacheState κ V) : β × CacheState κ V :=
  let b : β := match c with
    | .get => .received (st.entries.find st.now key)
    | .setLock => .received (if (st.locks.find st.now key).isSome then 0 else 1)
    | .fetch => fetched
    | .sleep => ()
    | .set _ _ => .received ()
    | .delLock => .received ()
  (b, effect key st c b)

theorem answers_answerUp {β : Type} (c : CoalesceCall V E β) (st : CacheState κ V) :
    Answers key fetched c st (answerUp key fetched c st).1 (answerUp key fetched c st).2 := by
  refine ⟨?_, rfl⟩
  cases c with
  | get =>
    rintro found ⟨⟩
    rfl
  | setLock =>
    rintro n ⟨⟩
    rfl
  | fetch => rfl
  | sleep | set | delLock => trivial

end Calls

end CacheState

/-! ## What a worker has seen -/

/-- The last value that a worker has found in the cache, and the last answer of its fetcher. -/
structure Seen (V E : Type) where
  found : Option V
  fetched : Option (Except E V)

namespace Seen

variable {V E : Type}

def nothing : Seen V E := { found := none, fetched := none }

def after : {β : Type} → CoalesceCall V E β → β → Seen V E → Seen V E
  | _, .get, r, g => { g with found := r.ok.join <|> g.found }
  | _, .fetch, r, g => { g with fetched := some r }
  | _, _, _, g => g

/-- A worker caches what it has fetched. -/
def before : {β : Type} → CoalesceCall V E β → Seen V E → Prop
  | _, .set v _, g => g.fetched = some (.ok v)
  | _, _, _ => True

/-- A worker answers with what it has found or fetched. -/
def Told (r : Except E V) (g : Seen V E) : Prop :=
  (∃ v, g.found = some v ∧ r = .ok v) ∨ g.fetched = some r

end Seen

section Facts

variable {κ V E β : Type} [DecidableEq κ] {key : κ} {fetched : Except E V} {st st' : CacheState κ V}
  {c : CoalesceCall V E β} {b : β} {g : Seen V E} {v : V}

omit [DecidableEq κ] in
/-- What is found was there. -/
theorem Seen.found_after (hs : st.Possible key fetched c b) (h : (g.after c b).found = some v) :
    g.found = some v ∨ ∃ e, st.entries key = some e ∧ Expiring.Alive e st.now ∧ e.value = v := by
  cases c with
  | get =>
    change (b.ok.join <|> g.found) = some v at h
    rcases b with found | found | _
    · cases found with
      | none => exact .inl h
      | some page =>
        cases h
        obtain ⟨e, he, rfl, halive⟩ := Expiring.find_eq_some (hs (some v) rfl).symm
        exact .inr ⟨e, he, halive, rfl⟩
    · exact .inl h
    · exact .inl h
  | setLock | fetch | sleep | set | delLock => exact .inl h

omit [DecidableEq κ] in
theorem Seen.fetched_after (hs : st.Possible key fetched c b) {r : Except E V}
    (h : (g.after c b).fetched = some r) : g.fetched = some r ∨ r = fetched := by
  cases c with
  | fetch =>
    cases h
    exact .inr hs
  | get | setLock | sleep | set | delLock => exact .inl h

/-- What is there after a call was there before, or the worker has fetched it, under its key. -/
theorem Seen.entry_after (hbefore : g.before c) {k : κ} {e : Entry V Nat}
    (h : (st.effect key c b).entries k = some e) :
    st.entries k = some e ∨
      c.sets = true ∧ k = key ∧ g.fetched = some (.ok e.value) := by
  cases c with
  | set v ttlSecs =>
    cases hdone : b.said.isSome with
    | true =>
      simp only [CacheState.effect, hdone, if_true, Expiring.set_apply] at h
      split at h
      · rename_i hk
        cases h
        exact .inr ⟨rfl, hk, hbefore⟩
      · exact .inl h
    | false =>
      simp only [CacheState.effect, hdone, Bool.false_eq_true, if_false] at h
      exact .inl h
  | setLock | delLock =>
    dsimp only [CacheState.effect] at h
    split at h <;> exact .inl h
  | get | fetch | sleep => exact .inl h

theorem CacheState.entry_background (hs : Background st st') {k : κ} {e : Entry V Nat}
    (h : st'.entries k = some e) (halive : Expiring.Alive e st'.now) :
    st.entries k = some e ∧ Expiring.Alive e st.now := by
  cases hs with
  | elapse later hlater => exact ⟨h, fun t ht => hlater.trans (halive t ht)⟩
  | vanish keys =>
    change (if k ∈ keys then none else st.entries k) = some e at h
    split at h
    · cases h
    · exact ⟨h, halive⟩

@[simp] theorem CacheState.now_effect : (st.effect key c b).now = st.now := by
  cases c with
  | set v ttlSecs | setLock | delLock => dsimp only [effect]; split <;> rfl
  | get | fetch | sleep => rfl

end Facts

section Outline

variable {V E : Type} (ttlSecs : Nat)

abbrev SeenOutline {α : Type} (x : Prog (CoalesceCall V E) α) (Q : α → Seen V E → Prop)
    (g : Seen V E) : Prop :=
  x.guarded Seen.before Seen.after Q g

/-- The end of a call: the result has been told, and what the task gets has been fetched. -/
def Handed (p : Except E V × Option V) (g : Seen V E) : Prop :=
  g.Told p.1 ∧ ∀ v, p.2 = some v → g.fetched = some (.ok v)

theorem seen_fetchAsWinner (g : Seen V E) : SeenOutline fetchAsWinner Handed g := by
  refine ⟨trivial, ?_⟩
  rintro (e | v)
  · exact ⟨.inr rfl, fun v hv => by cases hv⟩
  · exact ⟨.inr rfl, fun v' hv => by cases hv; rfl⟩

theorem seen_awaitCached : ∀ (attempts : Nat) (g : Seen V E),
    SeenOutline (awaitCached attempts) (fun r g' => ∀ v, r = some v → g'.found = some v) g
  | 0, g => fun v hv => by cases hv
  | attempts + 1, g => by
    refine ⟨trivial, fun _ => ⟨trivial, ?_⟩⟩
    rintro ((_ | cached) | _ | _)
    · exact seen_awaitCached attempts _
    · intro v hv
      cases hv
      rfl
    · exact seen_awaitCached attempts _
    · exact seen_awaitCached attempts _

theorem seen_waitAsLoser (g : Seen V E) : SeenOutline waitAsLoser Handed g := by
  refine Prog.guarded_bind (Prog.guarded_mono (fun found g' hfound => ?_)
    (seen_awaitCached lockMaxRetries g))
  cases found with
  | some cached => exact ⟨.inl ⟨cached, hfound cached rfl, rfl⟩, fun v hv => by cases hv⟩
  | none => exact ⟨trivial, fun result => ⟨.inr rfl, fun v hv => by cases hv⟩⟩

theorem seen_afterMiss (g : Seen V E) :
    SeenOutline (do
      let acquiredLock ← tryAcquireLock
      if acquiredLock then fetchAsWinner else waitAsLoser) Handed g := by
  refine ⟨trivial, fun result => ?_⟩
  change SeenOutline (if (result.ok.getD 0 == 1) = true then fetchAsWinner else waitAsLoser)
    Handed _
  split
  · exact seen_fetchAsWinner _
  · exact seen_waitAsLoser _

theorem seen_coalesceCache (g : Seen V E) : SeenOutline coalesceCache Handed g := by
  refine ⟨trivial, ?_⟩
  rintro ((_ | cached) | _ | _)
  · exact seen_afterMiss _
  · exact ⟨.inl ⟨cached, rfl, rfl⟩, fun v hv => by cases hv⟩
  · exact seen_afterMiss _
  · exact seen_afterMiss _

theorem outline_seen (g : Seen V E) : SeenOutline (worker ttlSecs) Seen.Told g := by
  refine Prog.guarded_bind (Prog.guarded_mono (fun p g' hhanded => ?_) (seen_coalesceCache g))
  obtain ⟨result, fill⟩ := p
  obtain ⟨htold, hfill⟩ := hhanded
  cases fill with
  | none => exact htold
  | some v => exact ⟨hfill v rfl, fun _ => ⟨trivial, fun _ => htold⟩⟩

end Outline

/-! ## One worker alone -/

section Alone

variable {κ V E : Type} [DecidableEq κ] {key : κ} {fetched : Except E V} {st : CacheState κ V}
  {ttlSecs : Nat}

/-- What is there is told. -/
theorem run_worker_found {v : V} (h : st.entries.find st.now key = some v) :
    (worker ttlSecs).run (CacheState.answerUp key fetched) st = (.ok v, st) := by
  simp [worker, coalesceCache, ask, Prog.run, CacheState.answerUp, CacheState.effect, Reply.ok, h,
    cacheAndRelease]

/-- What is not there is fetched. -/
theorem run_worker_missing (h : st.entries.find st.now key = none)
    (hfree : st.locks.find st.now key = none) :
    ((worker ttlSecs).run (CacheState.answerUp key fetched) st).1 = fetched := by
  cases fetched <;>
    simp [worker, coalesceCache, ask, Prog.run, CacheState.answerUp, CacheState.effect, Reply.ok,
      Reply.said, h, hfree, cacheAndRelease, tryAcquireLock, fetchAsWinner]

/-- What was fetched is there. -/
theorem run_worker_caches {v : V} (h : st.entries.find st.now key = none)
    (hfree : st.locks.find st.now key = none) :
    let st' := ((worker ttlSecs).run
      (CacheState.answerUp key (.ok v : Except E V)) st).2
    st'.entries.find st'.now key = some v := by
  have hfound : (st.entries.set key
      (some { value := v, deadline := some (st.now + 1000 * ttlSecs) })).find st.now key = some v :=
    Expiring.find_of_alive (if_pos rfl) (by simp [Expiring.Alive])
  simpa [worker, coalesceCache, ask, Prog.run, CacheState.answerUp, CacheState.effect, Reply.ok,
    Reply.said, h, hfree, cacheAndRelease, tryAcquireLock, fetchAsWinner] using hfound

end Alone

end Meno.Coalescing
