import Meno.Lib.Ends
import Meno.Lib.Faults
import Meno.Broadcast.Service

/-!
# Meno.Broadcast.Rules

How the building blocks of the broadcast service end, one rule for each: whichever calls fail
(`Lib.Ends`), and by the calls that do (`Lib.Faults`).
-/

namespace Meno

open Lib

namespace BroadcastService

/-- The outcome of a lookup that has `a` to answer: it, or the error of a failed call. -/
def Outcome {β : Type} (calm : Bool) (a : β) (r : Except BroadcastError β) : Prop :=
  r = .ok a ∨ calm = false ∧ r = .error (.database .infrastructure)

variable {α β : Type} {calm : Bool} {now : OffsetDateTime} {d : BroadcastDb}
  {txn : Option (List BroadcastWrite)} {P : α → BroadcastDb → Option (List BroadcastWrite) → Prop}
  {F : BroadcastError → BroadcastDb → Option (List BroadcastWrite) → Prop}

theorem ends_okOr {error : BroadcastError} {o : Option α} (hsome : ∀ a, o = some a → P a d txn)
    (hnone : o = none → F error d txn) :
    Txn.Ends broadcastEngine calm now (okOr error o) P F d txn := by
  cases o with
  | none => exact Txn.ends_throw (hnone rfl)
  | some a => exact Txn.ends_pure (hsome a rfl)

theorem ends_refuse {error : BroadcastError} {cond : Bool}
    {P : Unit → BroadcastDb → Option (List BroadcastWrite) → Prop}
    (hno : cond = false → P () d txn) (hyes : cond = true → F error d txn) :
    Txn.Ends broadcastEngine calm now (refuse error cond) P F d txn := by
  cases cond with
  | false => exact Txn.ends_pure (hno rfl)
  | true => exact Txn.ends_throw (hyes rfl)

theorem ends_lookup {s : BroadcastStmt β} {a : β}
    {P : Except BroadcastError β → BroadcastDb → Option (List BroadcastWrite) → Prop}
    (h : s.exec now d = .ok (a, [])) (hP : ∀ r, Outcome calm a r → P r d txn) :
    Txn.Ends broadcastEngine calm now (lookup s) P F d txn := by
  refine Txn.ends_attempt (Txn.ends_read h ?_ ?_)
  · exact hP _ (.inl rfl)
  · intro hc
    exact hP _ (.inr ⟨hc, rfl⟩)

theorem ends_outcome {a : α} {r : Except BroadcastError α} (hr : Outcome calm a r)
    (hok : P a d txn) (hfault : calm = false → F (.database .infrastructure) d txn) :
    Txn.Ends broadcastEngine calm now (Act.ofExcept r) P F d txn := by
  rcases hr with rfl | ⟨hc, rfl⟩
  · exact Txn.ends_pure hok
  · exact Txn.ends_throw (hfault hc)

theorem ends_found {error : BroadcastError} {o : Option α} {r : Except BroadcastError (Option α)}
    (hr : Outcome calm o r) (hsome : ∀ a, o = some a → P a d txn) (hnone : o = none → F error d txn)
    (hfault : calm = false → F (.database .infrastructure) d txn) :
    Txn.Ends broadcastEngine calm now (found error r) P F d txn :=
  Txn.ends_bind (ends_outcome hr (ends_okOr hsome hnone) hfault)

theorem ends_mintToken {u b : Uuid} {name : String} {role : LivekitRole}
    {attributes : Option TokenAttributes}
    {P : Token → BroadcastDb → Option (List BroadcastWrite) → Prop}
    (hok : P { identity := u, name, grants := role.getGrant b, attributes } d txn)
    (hfault : calm = false → F .liveKitAccess d txn) :
    Txn.Ends broadcastEngine calm now (mintToken u name b role attributes) P F d txn :=
  Txn.ends_read rfl hok hfault

theorem ends_createRoom {b : Uuid} {P : Unit → BroadcastDb → Option (List BroadcastWrite) → Prop}
    (hok : P () d txn) (hbreaker : calm = false → F .liveKitUnavailable d txn)
    (hroom : calm = false → F .liveKit d txn) :
    Txn.Ends broadcastEngine calm now (createRoom b) P F d txn :=
  Txn.ends_bind (Txn.ends_read rfl (Txn.ends_read rfl hok hroom) hbreaker)

theorem ends_existsOrFalse {s : BroadcastStmt Bool} {a : Bool}
    {P : Bool → BroadcastDb → Option (List BroadcastWrite) → Prop}
    (h : s.exec now d = .ok (a, [])) (hP : ∀ b, P b d txn) :
    Txn.Ends broadcastEngine calm now (existsOrFalse s) P F d txn := by
  refine Txn.ends_bind (ends_lookup h fun r _ => ?_)
  cases r with
  | ok b => exact Txn.ends_pure (hP b)
  | error e => exact Txn.ends_pure (hP false)

/-- The context is put together from lookups: the store stays as it is. -/
theorem ends_buildCtx {row : Broadcast} {pid : Option Uuid} {role : Option ParticipantRole}
    {liveCount totalCount : Int}
    {P : BroadcastContext → BroadcastDb → Option (List BroadcastWrite) → Prop}
    (hP : ∀ ctx, P ctx d txn) (hfault : calm = false → F (.database .infrastructure) d txn) :
    Txn.Ends broadcastEngine calm now (buildCtx row pid role liveCount totalCount) P F d txn := by
  refine Txn.ends_bind (ends_existsOrFalse rfl fun isReconnecting => ?_)
  refine Txn.ends_bind ?_
  cases pid with
  | none => exact Txn.ends_pure (Txn.ends_pure (hP _))
  | some pid =>
    refine Txn.ends_bind (ends_lookup rfl fun isSubRes hsub => ?_)
    refine Txn.ends_bind (ends_lookup rfl fun isBmRes hbm => ?_)
    refine Txn.ends_bind (ends_outcome hsub ?_ hfault)
    refine Txn.ends_bind (ends_outcome hbm ?_ hfault)
    exact Txn.ends_pure (Txn.ends_pure (hP _))

theorem ends_refuseFull {cohosts : Except BroadcastError (List UserSummary)}
    {P : Unit → BroadcastDb → Option (List BroadcastWrite) → Prop}
    (hno : (∀ us, cohosts = .ok us → us.length ≠ maxCohosts) → P () d txn)
    (hyes : ∀ us, F (.cohostLimitExceeded us) d txn) :
    Txn.Ends broadcastEngine calm now (refuseFull cohosts) P F d txn := by
  cases cohosts with
  | error e => exact Txn.ends_pure (hno (by simp))
  | ok us =>
    refine ends_refuse (fun hlen => hno ?_) fun _ => hyes _
    intro us' he
    cases he
    simpa using hlen

/-- The users are looked up, and nothing is written. -/
theorem ends_deduplicateCohosts {ids : List Uuid} {c : Uuid}
    {P : List UserSummary → BroadcastDb → Option (List BroadcastWrite) → Prop}
    (hP : ∀ users, P users d txn) (hF : ∀ e, F e d txn) :
    Txn.Ends broadcastEngine calm now (deduplicateCohosts ids c) P F d txn := by
  unfold deduplicateCohosts
  split
  · exact Txn.ends_pure (hP _)
  · refine Txn.ends_bind (ends_refuse (fun _ => ?_) fun _ => hF _)
    refine Txn.ends_bind (ends_refuse (fun _ => ?_) fun _ => hF _)
    refine Txn.ends_bind (Txn.ends_read rfl ?_ fun _ => hF _)
    refine Txn.ends_bind (ends_refuse (fun _ => ?_) fun _ => hF _)
    exact Txn.ends_pure (hP _)

/-- No ids are no statement, and the statement would write nothing for them. -/
theorem ends_addCohosts {b c : Uuid} {ids : List Uuid} {ws : List BroadcastWrite}
    {P : Unit → BroadcastDb → Option (List BroadcastWrite) → Prop}
    (hok : ∀ ws', BroadcastRepository.addCohosts (broadcastEngine.applyAll d ws) now b c ids =
      .ok ((), ws') → P () d (some (ws ++ ws')))
    (hF : ∀ e, F e d (some ws)) :
    Txn.Ends broadcastEngine calm now (addCohosts b ids c) P F d (some ws) := by
  unfold addCohosts
  split
  · rename_i hnil
    have hids : ids = [] := by simpa using hnil
    subst hids
    refine Txn.ends_pure ?_
    have hP := hok [] rfl
    rwa [List.append_nil] at hP
  · exact Txn.ends_tx (fun _ ws' h => hok ws' h) (fun _ _ => hF _) fun _ => hF _

/-! ## By the calls that fail -/

section Faults

/-- The outcome of the `n`-th call, a lookup that has `a` to answer. -/
def OutcomeAt {β : Type} (faults : List Bool) (n : Nat) (a : β) (r : Except BroadcastError β) :
    Prop :=
  ¬Fails faults n ∧ r = .ok a ∨ Fails faults n ∧ r = .error (.database .infrastructure)

variable {α β : Type} {faults : List Bool} {now : OffsetDateTime} {n k : Nat} {d : BroadcastDb}
  {txn : Option (List BroadcastWrite)}
  {P : α → Nat → BroadcastDb → Option (List BroadcastWrite) → Prop}
  {F : BroadcastError → Nat → BroadcastDb → Option (List BroadcastWrite) → Prop}

theorem endsAt_okOr {error : BroadcastError} {o : Option α} (hsome : ∀ a, o = some a → P a n d txn)
    (hnone : o = none → F error n d txn) :
    Txn.EndsAt broadcastEngine faults now (okOr error o) P F n d txn := by
  cases o with
  | none => exact Txn.endsAt_throw (hnone rfl)
  | some a => exact Txn.endsAt_pure (hsome a rfl)

theorem endsAt_refuse {error : BroadcastError} {cond : Bool}
    {P : Unit → Nat → BroadcastDb → Option (List BroadcastWrite) → Prop}
    (hno : cond = false → P () n d txn) (hyes : cond = true → F error n d txn) :
    Txn.EndsAt broadcastEngine faults now (refuse error cond) P F n d txn := by
  cases cond with
  | false => exact Txn.endsAt_pure (hno rfl)
  | true => exact Txn.endsAt_throw (hyes rfl)

theorem endsAt_lookup {s : BroadcastStmt β} {a : β}
    {P : Except BroadcastError β → Nat → BroadcastDb → Option (List BroadcastWrite) → Prop}
    (h : s.exec now d = .ok (a, [])) (hP : ∀ r, OutcomeAt faults n a r → P r (n + 1) d txn) :
    Txn.EndsAt broadcastEngine faults now (lookup s) P F n d txn := by
  refine Txn.endsAt_attempt (Txn.endsAt_read h ?_ ?_)
  · intro hf
    exact hP _ (.inl ⟨hf, rfl⟩)
  · intro hf
    exact hP _ (.inr ⟨hf, rfl⟩)

theorem endsAt_outcome {a : α} {r : Except BroadcastError α} (hr : OutcomeAt faults k a r)
    (hok : ¬Fails faults k → P a n d txn)
    (hfail : Fails faults k → F (.database .infrastructure) n d txn) :
    Txn.EndsAt broadcastEngine faults now (Act.ofExcept r) P F n d txn := by
  rcases hr with ⟨hf, rfl⟩ | ⟨hf, rfl⟩
  · exact Txn.endsAt_pure (hok hf)
  · exact Txn.endsAt_throw (hfail hf)

theorem endsAt_found {error : BroadcastError} {o : Option α} {r : Except BroadcastError (Option α)}
    (hr : OutcomeAt faults k o r) (hsome : ¬Fails faults k → ∀ a, o = some a → P a n d txn)
    (hnone : o = none → F error n d txn)
    (hfail : Fails faults k → F (.database .infrastructure) n d txn) :
    Txn.EndsAt broadcastEngine faults now (found error r) P F n d txn :=
  Txn.endsAt_bind (endsAt_outcome hr (fun hf => endsAt_okOr (hsome hf) hnone) hfail)

theorem endsAt_mintToken {u b : Uuid} {name : String} {role : LivekitRole}
    {attributes : Option TokenAttributes}
    {P : Token → Nat → BroadcastDb → Option (List BroadcastWrite) → Prop}
    (hok : ¬Fails faults n →
      P { identity := u, name, grants := role.getGrant b, attributes } (n + 1) d txn)
    (hfail : Fails faults n → F .liveKitAccess (n + 1) d txn) :
    Txn.EndsAt broadcastEngine faults now (mintToken u name b role attributes) P F n d txn :=
  Txn.endsAt_read rfl hok hfail

theorem endsAt_createRoom {b : Uuid}
    {P : Unit → Nat → BroadcastDb → Option (List BroadcastWrite) → Prop}
    (hok : ¬Fails faults n → ¬Fails faults (n + 1) → P () (n + 2) d txn)
    (hbreaker : Fails faults n → F .liveKitUnavailable (n + 1) d txn)
    (hroom : Fails faults (n + 1) → F .liveKit (n + 2) d txn) :
    Txn.EndsAt broadcastEngine faults now (createRoom b) P F n d txn := by
  refine Txn.endsAt_bind (Txn.endsAt_read rfl (fun hn => ?_) hbreaker)
  exact Txn.endsAt_read rfl (hok hn) hroom

theorem endsAt_existsOrFalse {s : BroadcastStmt Bool} {a : Bool}
    {P : Bool → Nat → BroadcastDb → Option (List BroadcastWrite) → Prop}
    (h : s.exec now d = .ok (a, [])) (hP : ∀ b, P b (n + 1) d txn) :
    Txn.EndsAt broadcastEngine faults now (existsOrFalse s) P F n d txn := by
  refine Txn.endsAt_bind (endsAt_lookup h fun r _ => ?_)
  cases r with
  | ok b => exact Txn.endsAt_pure (hP b)
  | error e => exact Txn.endsAt_pure (hP false)

end Faults

end BroadcastService

end Meno
