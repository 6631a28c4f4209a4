import Mathlib.Data.List.Induction
import Mathlib.Tactic.Common

/-!
# Meno.Shared.CircuitBreaker

`CircuitBreaker` and its behaviour over histories of calls. The breaker remembers two counters and
one time; `breaker_correct` says what they stand for in the history, in whatever order the results
of calls come in that an earlier state let through.
-/

namespace Meno

/-- Of the monotone clock, in nanoseconds. -/
abbrev Instant := Nat

/-- `elapsed`, which is zero for a time that is still to come. -/
def Instant.elapsed (t now : Instant) : Nat := now - t

inductive CircuitState
  /-- Normal operations -/
  | closed
  /-- Failing fast -/
  | opened
  /-- Probing -/
  | halfOpen
deriving DecidableEq

structure CircuitBreaker where
  state : CircuitState
  failureCount : UInt64
  successCount : UInt64
  lastFailureAt : Option Instant
  failureThreshold : UInt64
  successThreshold : UInt64
  openDuration : Nat

namespace CircuitBreaker

def new (failureThreshold openDurationSecs : UInt64) : CircuitBreaker := {
  state := .closed
  failureCount := 0
  successCount := 0
  lastFailureAt := none
  failureThreshold := failureThreshold
  successThreshold := 2
  openDuration := openDurationSecs.toNat * 1000000000 }

def failingFast : String := "LiveKit circuit breaker is Open — failing fast"

def check (b : CircuitBreaker) (now : Instant) : CircuitBreaker × Except String Unit :=
  match b.state with
  | .closed => (b, .ok ())
  | .opened =>
    match b.lastFailureAt with
    | some t =>
      if t.elapsed now ≥ b.openDuration then ({ b with state := .halfOpen }, .ok ())
      else (b, .error failingFast)
    | none => (b, .error failingFast)
  | .halfOpen => (b, .ok ())

def onSuccess (b : CircuitBreaker) : CircuitBreaker :=
  match b.state with
  | .halfOpen =>
    let successes := b.successCount + 1
    if successes ≥ b.successThreshold then
      { b with state := .closed, failureCount := 0, successCount := 0 }
    else { b with successCount := successes }
  | .closed | .opened => { b with failureCount := 0 }

def onFailure (b : CircuitBreaker) (now : Instant) : CircuitBreaker :=
  let failures := b.failureCount + 1
  let b := { b with failureCount := failures, lastFailureAt := some now }
  if failures ≥ b.failureThreshold ∨ b.state = .halfOpen then
    { b with state := .opened, successCount := 0 }
  else b

/-! ## Histories -/

inductive Call
  | check
  | onSuccess
  | onFailure
deriving DecidableEq

structure Event where
  call : Call
  now : Instant

def step (b : CircuitBreaker) (e : Event) : CircuitBreaker :=
  match e.call with
  | .check => (b.check e.now).1
  | .onSuccess => b.onSuccess
  | .onFailure => b.onFailure e.now

def run (b : CircuitBreaker) (history : List Event) : CircuitBreaker := history.foldl step b

/-- How many failures there were since the last success. -/
def failuresInRow (history : List Event) : Nat :=
  history.foldl (fun n e =>
    match e.call with
    | .check => n
    | .onSuccess => 0
    | .onFailure => n + 1) 0

def latestFailure (history : List Event) : Option Instant :=
  history.foldl (fun t e => if e.call = .onFailure then some e.now else t) none

def successes (history : List Event) : Nat := history.countP fun e => e.call = .onSuccess

/-- The breaker became half open with the last call before `since`. -/
def HalfOpenSince (b : CircuitBreaker) (history since : List Event) : Prop :=
  ∃ (before : List Event) (probe : Event), history = before ++ probe :: since ∧
    (b.run before).state = .opened ∧ (b.run (before ++ [probe])).state = .halfOpen

section Laws

variable {b : CircuitBreaker} {history : List Event} {e : Event}

@[simp] theorem run_nil (b : CircuitBreaker) : b.run [] = b := rfl

@[simp] theorem run_concat (b : CircuitBreaker) (history : List Event) (e : Event) :
    b.run (history ++ [e]) = (b.run history).step e := by
  simp [run]

theorem failuresInRow_check (history : List Event) (h : e.call = .check) :
    failuresInRow (history ++ [e]) = failuresInRow history := by
  simp [failuresInRow, h]

theorem failuresInRow_onSuccess (history : List Event) (h : e.call = .onSuccess) :
    failuresInRow (history ++ [e]) = 0 := by
  simp [failuresInRow, h]

theorem failuresInRow_onFailure (history : List Event) (h : e.call = .onFailure) :
    failuresInRow (history ++ [e]) = failuresInRow history + 1 := by
  simp [failuresInRow, h]

theorem latestFailure_onFailure (history : List Event) (h : e.call = .onFailure) :
    latestFailure (history ++ [e]) = some e.now := by
  simp [latestFailure, h]

theorem latestFailure_of_ne (history : List Event) (h : e.call ≠ .onFailure) :
    latestFailure (history ++ [e]) = latestFailure history := by
  simp [latestFailure, h]

theorem HalfOpenSince.concat {since : List Event} (h : HalfOpenSince b history since) (e : Event) :
    HalfOpenSince b (history ++ [e]) (since ++ [e]) := by
  obtain ⟨before, probe, rfl, hbefore, hprobe⟩ := h
  exact ⟨before, probe, by simp, hbefore, hprobe⟩

theorem forall_mem_concat {P : Event → Prop} {since : List Event} (h : ∀ e' ∈ since, P e')
    (he : P e) : ∀ e' ∈ since ++ [e], P e' := by
  intro e' he'
  rcases List.mem_append.1 he' with he' | he'
  · exact h e' he'
  · rw [List.mem_singleton.1 he']
    exact he

/-! ## One call -/

/-- What a call can do: a check lets a probe through or changes nothing. -/
theorem check_cases (b : CircuitBreaker) (now : Instant) :
    b.check now = (b, .ok ()) ∧ b.state ≠ .opened ∨
      b.check now = ({ b with state := .halfOpen }, .ok ()) ∧ b.state = .opened ∧
        (∃ t, b.lastFailureAt = some t ∧ ¬ t.elapsed now < b.openDuration) ∨
      b.check now = (b, .error failingFast) ∧ b.state = .opened ∧
        ∀ t, b.lastFailureAt = some t → t.elapsed now < b.openDuration := by
  unfold check
  cases hstate : b.state with
  | closed => exact .inl ⟨rfl, nofun⟩
  | halfOpen => exact .inl ⟨rfl, nofun⟩
  | opened =>
    cases hlast : b.lastFailureAt with
    | none => exact .inr (.inr ⟨rfl, rfl, nofun⟩)
    | some t =>
      dsimp only
      split
      · rename_i hle
        exact .inr (.inl ⟨rfl, rfl, t, rfl, Nat.not_lt.2 hle⟩)
      · rename_i hlt
        refine .inr (.inr ⟨rfl, rfl, ?_⟩)
        rintro t' ⟨⟩
        exact Nat.lt_of_not_le hlt

theorem onSuccess_cases (b : CircuitBreaker) :
    b.onSuccess = { b with failureCount := 0 } ∧ b.state ≠ .halfOpen ∨
      b.onSuccess = { b with state := .closed, failureCount := 0, successCount := 0 } ∧
        b.state = .halfOpen ∧ b.successThreshold ≤ b.successCount + 1 ∨
      b.onSuccess = { b with successCount := b.successCount + 1 } ∧ b.state = .halfOpen ∧
        b.successCount + 1 < b.successThreshold := by
  unfold onSuccess
  cases hstate : b.state with
  | closed => exact .inl ⟨rfl, nofun⟩
  | opened => exact .inl ⟨rfl, nofun⟩
  | halfOpen =>
    dsimp only
    split
    · rename_i hle
      exact .inr (.inl ⟨rfl, rfl, hle⟩)
    · rename_i hlt
      exact .inr (.inr ⟨rfl, rfl, UInt64.not_le.1 hlt⟩)

theorem onFailure_cases (b : CircuitBreaker) (now : Instant) :
    b.onFailure now =
        { b with
          state := .opened
          failureCount := b.failureCount + 1
          successCount := 0
          lastFailureAt := some now } ∧
        (b.failureThreshold ≤ b.failureCount + 1 ∨ b.state = .halfOpen) ∨
      b.onFailure now =
        { b with failureCount := b.failureCount + 1, lastFailureAt := some now } ∧
        b.failureCount + 1 < b.failureThreshold ∧ b.state ≠ .halfOpen := by
  unfold onFailure
  dsimp only
  split
  · rename_i hopens
    exact .inl ⟨rfl, hopens⟩
  · rename_i hstays
    rw [not_or] at hstays
    exact .inr ⟨rfl, UInt64.not_le.1 hstays.1, hstays.2⟩

end Laws

/-! ## What the breaker remembers -/

/-- What the counters and the time of a breaker are, after a history that began with `b₀`. -/
structure Inv (b₀ : CircuitBreaker) (history : List Event) (b : CircuitBreaker) : Prop where
  failureThreshold : b.failureThreshold = b₀.failureThreshold
  successThreshold : b.successThreshold = 2
  openDuration : b.openDuration = b₀.openDuration
  lastFailureAt : b.lastFailureAt = latestFailure history
  closed : b.state = .closed → b.failureCount < b₀.failureThreshold ∧
    b.failureCount.toNat = failuresInRow history ∧ b.successCount = 0
  opened : b.state = .opened → (latestFailure history).isSome ∧ b.successCount = 0
  halfOpen : b.state = .halfOpen → b.successCount < 2 ∧ ∃ since, HalfOpenSince b₀ history since ∧
    (∀ e ∈ since, e.call ≠ .onFailure) ∧ successes since = b.successCount.toNat

section Inv

variable {b₀ b : CircuitBreaker} {history : List Event} {e : Event}

theorem inv_new {failureThreshold : UInt64} (hthreshold : 1 ≤ failureThreshold)
    (openDurationSecs : UInt64) :
    Inv (new failureThreshold openDurationSecs) [] (new failureThreshold openDurationSecs) where
  failureThreshold := rfl
  successThreshold := rfl
  openDuration := rfl
  lastFailureAt := rfl
  closed := fun _ => ⟨UInt64.lt_iff_toNat_lt.2 (UInt64.le_iff_toNat_le.1 hthreshold), rfl, rfl⟩
  opened := nofun
  halfOpen := nofun

/-- A failure that does not open a closed breaker does not make its counter wrap round. -/
theorem failureCount_succ (h : b.failureCount < b₀.failureThreshold) :
    (b.failureCount + 1).toNat = b.failureCount.toNat + 1 := by
  have hlt := UInt64.lt_iff_toNat_lt.1 h
  have hsize := b₀.failureThreshold.toNat_lt
  rw [UInt64.toNat_add]
  exact Nat.mod_eq_of_lt (by simp only [UInt64.toNat_one]; omega)

theorem inv_check (h : Inv b₀ history b) (hrun : b = b₀.run history) (hcall : e.call = .check) :
    Inv b₀ (history ++ [e]) (b.check e.now).1 := by
  have hlatest := latestFailure_of_ne (e := e) history (by rw [hcall]; nofun)
  have hrow := failuresInRow_check history hcall
  have hstep : b₀.run (history ++ [e]) = (b.check e.now).1 := by rw [run_concat, ← hrun, step, hcall]
  obtain ⟨hcheck, hstate⟩ | ⟨hcheck, hstate, t, ht, -⟩ | ⟨hcheck, hstate, -⟩ :=
    check_cases b e.now
  · rw [hcheck]
    refine { h with lastFailureAt := ?_, closed := ?_, opened := ?_, halfOpen := ?_ }
    · rw [hlatest, h.lastFailureAt]
    · rw [hrow]
      exact h.closed
    · intro hopened
      exact absurd hopened hstate
    · intro hhalf
      obtain ⟨hlt, since, hsince, hnone, hcount⟩ := h.halfOpen hhalf
      refine ⟨hlt, since ++ [e], hsince.concat e, ?_, ?_⟩
      · exact forall_mem_concat hnone (by rw [hcall]; nofun)
      · rw [← hcount]
        simp [successes, hcall]
  · have hsuccess := (h.opened hstate).2
    rw [hcheck] at hstep ⊢
    refine { h with lastFailureAt := ?_, closed := nofun, opened := nofun, halfOpen := fun _ => ?_ }
    · rw [hlatest, h.lastFailureAt]
    · refine ⟨?_, [], ⟨history, e, rfl, ?_, ?_⟩, ?_, ?_⟩
      · simp only [hsuccess]
        decide
      · rw [← hrun, hstate]
      · rw [hstep]
      · exact fun e' he' => absurd he' List.not_mem_nil
      · simp only [hsuccess]
        rfl
  · rw [hcheck]
    refine { h with lastFailureAt := ?_, closed := ?_, opened := ?_, halfOpen := ?_ }
    · rw [hlatest, h.lastFailureAt]
    · intro hclosed
      exact absurd (hstate.symm.trans hclosed) nofun
    · rw [hlatest]
      exact h.opened
    · intro hhalf
      exact absurd (hstate.symm.trans hhalf) nofun

theorem inv_onSuccess (hthreshold : 1 ≤ b₀.failureThreshold) (h : Inv b₀ history b)
    (hcall : e.call = .onSuccess) : Inv b₀ (history ++ [e]) b.onSuccess := by
  have hlatest := latestFailure_of_ne (e := e) history (by rw [hcall]; nofun)
  have hrow := failuresInRow_onSuccess history hcall
  have hpos : 0 < b₀.failureThreshold :=
    UInt64.lt_iff_toNat_lt.2 (UInt64.le_iff_toNat_le.1 hthreshold)
  obtain ⟨hon, hstate⟩ | ⟨hon, hstate, -⟩ | ⟨hon, hstate, hlt⟩ := onSuccess_cases b
  · rw [hon]
    refine { h with lastFailureAt := ?_, closed := ?_, opened := ?_, halfOpen := ?_ }
    · rw [hlatest, h.lastFailureAt]
    · intro hclosed
      exact ⟨hpos, by rw [hrow]; rfl, (h.closed hclosed).2.2⟩
    · rw [hlatest]
      exact h.opened
    · intro hhalf
      exact absurd hhalf hstate
  · rw [hon]
    refine { h with lastFailureAt := ?_, closed := fun _ => ?_, opened := nofun, halfOpen := nofun }
    · rw [hlatest, h.lastFailureAt]
    · exact ⟨hpos, by rw [hrow]; rfl, rfl⟩
  · rw [hon]
    obtain ⟨-, since, hsince, hnone, hcount⟩ := h.halfOpen hstate
    rw [h.successThreshold] at hlt
    refine { h with lastFailureAt := ?_, closed := ?_, opened := ?_, halfOpen := ?_ }
    · rw [hlatest, h.lastFailureAt]
    · intro hclosed
      exact absurd (hstate.symm.trans hclosed) nofun
    · intro hopened
      exact absurd (hstate.symm.trans hopened) nofun
    · intro _
      refine ⟨hlt, since ++ [e], hsince.concat e, ?_, ?_⟩
      · exact forall_mem_concat hnone (by rw [hcall]; nofun)
      · have hsucc : (b.successCount + 1).toNat = b.successCount.toNat + 1 := by
          have hlt' := UInt64.lt_iff_toNat_lt.1 (h.halfOpen hstate).1
          rw [UInt64.toNat_add]
          exact Nat.mod_eq_of_lt (Nat.lt_trans (Nat.add_lt_add_right hlt' 1) (by decide))
        rw [hsucc, ← hcount]
        simp [successes, hcall]

theorem inv_onFailure (h : Inv b₀ history b) (hcall : e.call = .onFailure) :
    Inv b₀ (history ++ [e]) (b.onFailure e.now) := by
  have hlatest := latestFailure_onFailure history hcall
  have hrow := failuresInRow_onFailure history hcall
  obtain ⟨hon, -⟩ | ⟨hon, hlt, hstate⟩ := onFailure_cases b e.now
  · rw [hon]
    refine { h with lastFailureAt := ?_, closed := nofun, opened := fun _ => ?_, halfOpen := nofun }
    · rw [hlatest]
    · rw [hlatest]
      exact ⟨rfl, rfl⟩
  · rw [hon]
    rw [h.failureThreshold] at hlt
    refine { h with lastFailureAt := ?_, closed := ?_, opened := ?_, halfOpen := ?_ }
    · rw [hlatest]
    · intro hclosed
      obtain ⟨hcount, hin, hsuccess⟩ := h.closed hclosed
      exact ⟨hlt, by rw [hrow, failureCount_succ hcount, hin], hsuccess⟩
    · intro hopened
      rw [hlatest]
      exact ⟨rfl, (h.opened hopened).2⟩
    · intro hhalf
      exact absurd hhalf hstate

theorem inv_run (hnew : Inv b₀ [] b₀) (hthreshold : 1 ≤ b₀.failureThreshold)
    (history : List Event) : Inv b₀ history (b₀.run history) := by
  induction history using List.reverseRecOn with
  | nil => exact hnew
  | append_singleton history e ih =>
    rw [run_concat]
    cases hcall : e.call with
    | check =>
      have hstep : (b₀.run history).step e = ((b₀.run history).check e.now).1 := by rw [step, hcall]
      rw [hstep]
      exact inv_check ih rfl hcall
    | onSuccess =>
      have hstep : (b₀.run history).step e = (b₀.run history).onSuccess := by rw [step, hcall]
      rw [hstep]
      exact inv_onSuccess hthreshold ih hcall
    | onFailure =>
      have hstep : (b₀.run history).step e = (b₀.run history).onFailure e.now := by rw [step, hcall]
      rw [hstep]
      exact inv_onFailure ih hcall

/-! ## What it does -/

theorem opens_only (h : Inv b₀ history b) (hclosed : b.state = .closed)
    (hopened : (b.step e).state = .opened) :
    e.call = .onFailure ∧ b₀.failureThreshold.toNat ≤ failuresInRow (history ++ [e]) := by
  cases hcall : e.call with
  | check =>
    rw [step, hcall] at hopened
    obtain ⟨hcheck, -⟩ | ⟨hcheck, hstate, -⟩ | ⟨hcheck, hstate, -⟩ := check_cases b e.now
    · simp only [hcheck, hclosed] at hopened
      cases hopened
    · exact absurd (hstate.symm.trans hclosed) nofun
    · exact absurd (hstate.symm.trans hclosed) nofun
  | onSuccess =>
    rw [step, hcall] at hopened
    obtain ⟨hon, -⟩ | ⟨hon, hstate, -⟩ | ⟨hon, hstate, -⟩ := onSuccess_cases b
    · simp only [hon, hclosed] at hopened
      cases hopened
    · exact absurd (hstate.symm.trans hclosed) nofun
    · exact absurd (hstate.symm.trans hclosed) nofun
  | onFailure =>
    refine ⟨rfl, ?_⟩
    rw [step, hcall] at hopened
    obtain ⟨hcount, hin, -⟩ := h.closed hclosed
    obtain ⟨-, hle | hhalf⟩ | ⟨hon, -⟩ := onFailure_cases b e.now
    · rw [h.failureThreshold] at hle
      have hle := UInt64.le_iff_toNat_le.1 hle
      rwa [failureCount_succ hcount, hin, ← failuresInRow_onFailure history hcall] at hle
    · exact absurd (hhalf.symm.trans hclosed) nofun
    · simp only [hon, hclosed] at hopened
      cases hopened

theorem check_error_iff (h : Inv b₀ history b) (now : Instant) :
    (b.check now).2 ≠ .ok () ↔ b.state = .opened ∧
      ∃ t, latestFailure history = some t ∧ t.elapsed now < b₀.openDuration := by
  rw [← h.lastFailureAt, ← h.openDuration]
  obtain ⟨hcheck, hstate⟩ | ⟨hcheck, hstate, t, ht, hlong⟩ | ⟨hcheck, hstate, hlast⟩ :=
    check_cases b now
  · rw [hcheck]
    exact ⟨fun hne => absurd rfl hne, fun hopened => absurd hopened.1 hstate⟩
  · rw [hcheck]
    refine ⟨fun hne => absurd rfl hne, ?_⟩
    rintro ⟨-, t', ht', hshort⟩
    obtain rfl := Option.some.inj (ht.symm.trans ht')
    exact absurd hshort hlong
  · rw [hcheck]
    refine ⟨fun _ => ⟨hstate, ?_⟩, fun _ => nofun⟩
    obtain ⟨t, ht⟩ := Option.isSome_iff_exists.1 (h.opened hstate).1
    rw [← h.lastFailureAt] at ht
    exact ⟨t, ht, hlast t ht⟩

theorem closes_only (h : Inv b₀ history b) (hstate : b.state ≠ .closed)
    (hclosed : (b.step e).state = .closed) :
    e.call = .onSuccess ∧ ∃ since, HalfOpenSince b₀ history since ∧
      (∀ e' ∈ since, e'.call ≠ .onFailure) ∧ successes (since ++ [e]) = 2 := by
  cases hcall : e.call with
  | check =>
    rw [step, hcall] at hclosed
    obtain ⟨hcheck, -⟩ | ⟨hcheck, -⟩ | ⟨hcheck, -⟩ := check_cases b e.now
    · rw [hcheck] at hclosed
      exact absurd hclosed hstate
    · rw [hcheck] at hclosed
      cases hclosed
    · rw [hcheck] at hclosed
      exact absurd hclosed hstate
  | onSuccess =>
    refine ⟨rfl, ?_⟩
    rw [step, hcall] at hclosed
    obtain ⟨hon, -⟩ | ⟨-, hhalf, hle⟩ | ⟨hon, -⟩ := onSuccess_cases b
    · rw [hon] at hclosed
      exact absurd hclosed hstate
    · obtain ⟨hlt, since, hsince, hnone, hcount⟩ := h.halfOpen hhalf
      refine ⟨since, hsince, hnone, ?_⟩
      have htwo : b.successCount.toNat + 1 = 2 := by
        have hlt := UInt64.lt_iff_toNat_lt.1 hlt
        have hle := UInt64.le_iff_toNat_le.1 hle
        rw [h.successThreshold, UInt64.toNat_add] at hle
        simp only [UInt64.reduceToNat] at hlt hle
        omega
      rw [← htwo, ← hcount]
      simp [successes, hcall]
    · rw [hon] at hclosed
      exact absurd hclosed hstate
  | onFailure =>
    rw [step, hcall] at hclosed
    obtain ⟨hon, -⟩ | ⟨hon, -⟩ := onFailure_cases b e.now
    · rw [hon] at hclosed
      cases hclosed
    · rw [hon] at hclosed
      exact absurd hclosed hstate

end Inv

/-- What is to hold of a breaker after a history that began with `b₀`: of each state what holds in
it, when it opens if it is closed, when a check fails, and when it closes again. -/
structure Behaves (b₀ : CircuitBreaker) (history : List Event) (b : CircuitBreaker) : Prop where
  closed : b.state = .closed → b.failureCount < b₀.failureThreshold ∧ b.successCount = 0
  opened : b.state = .opened → b.lastFailureAt.isSome ∧ b.successCount = 0
  halfOpen : b.state = .halfOpen → b.successCount < 2
  opens : ∀ e, b.state = .closed → (b.step e).state = .opened →
    e.call = .onFailure ∧ b₀.failureThreshold.toNat ≤ failuresInRow (history ++ [e])
  check : ∀ now, (b.check now).2 ≠ .ok () ↔ b.state = .opened ∧
    ∃ t, latestFailure history = some t ∧ t.elapsed now < b₀.openDuration
  closes : ∀ e, b.state ≠ .closed → (b.step e).state = .closed →
    e.call = .onSuccess ∧ ∃ since, HalfOpenSince b₀ history since ∧
      (∀ e' ∈ since, e'.call ≠ .onFailure) ∧ successes (since ++ [e]) = 2

theorem breaker_correct (failureThreshold openDurationSecs : UInt64)
    (hthreshold : 1 ≤ failureThreshold) (history : List Event) :
    Behaves (new failureThreshold openDurationSecs) history
      ((new failureThreshold openDurationSecs).run history) := by
  have h := inv_run (inv_new hthreshold openDurationSecs) hthreshold history
  refine ⟨?_, ?_, ?_, fun e => opens_only h, check_error_iff h, fun e => closes_only h⟩
  · intro hclosed
    obtain ⟨hlt, -, hsuccess⟩ := h.closed hclosed
    exact ⟨hlt, hsuccess⟩
  · intro hopened
    rw [h.lastFailureAt]
    exact h.opened hopened
  · intro hhalf
    exact (h.halfOpen hhalf).1

/-- Three failures, a probe when half a minute has passed, and one success. -/
def threeFailures : List Event := [
  ⟨.onFailure, 0⟩, ⟨.onFailure, 1⟩, ⟨.onFailure, 2⟩, ⟨.check, 30000000002⟩, ⟨.onSuccess, 30000000003⟩]

theorem three_failures_behave :
    Behaves (new 3 30) threeFailures ((new 3 30).run threeFailures) :=
  breaker_correct 3 30 (by decide) threeFailures

example : ((new 3 30).run threeFailures).state = .halfOpen := by decide

end CircuitBreaker

end Meno
