import Meno.Lib.Txn
import Mathlib.Data.List.Nodup

/-!
# Lib.Chain

Row writes one after the other. A `Chain` is a list of writes each of which is in order when the
ones before it are done; whether a write is in order is a matter of the row it writes, so writes to
other rows may come in between.

Where being in order means that a row's version goes up by one from 0, the writes to a row have
the versions 1, 2, 3, .. in a chain, and no two writes were made on the same version of one row.
-/

namespace Lib

/-! ## Keyed writes -/

/-- Rows under keys: each write stores or removes the row of one key. -/
structure Keyed {σ : Type → Type} {D W T E : Type} (eng : Engine σ D W T E) (κ R : Type)
    [DecidableEq κ] where
  key : W → κ
  value : W → Option R
  look : D → κ → Option R
  look_apply : ∀ d w k, look (eng.apply d w) k = if k = key w then value w else look d k

section Chain

variable {σ : Type → Type} {D W T E : Type} (eng : Engine σ D W T E)

/-- Each write is in order when the ones before it are done. -/
def Engine.Chain (ok : D → W → Prop) : D → List W → Prop
  | _, [] => True
  | d, w :: ws => ok d w ∧ Engine.Chain ok (eng.apply d w) ws

variable {eng} {ok : D → W → Prop}

theorem chain_append {ws ws' : List W} :
    ∀ {d : D}, eng.Chain ok d (ws ++ ws') ↔
      eng.Chain ok d ws ∧ eng.Chain ok (eng.applyAll d ws) ws' := by
  induction ws with
  | nil => intro d; simp [Engine.Chain]
  | cons w ws ih =>
    intro d
    simp only [List.cons_append, Engine.Chain, Engine.applyAll_cons, ih, and_assoc]

variable {κ R : Type} [DecidableEq κ] (K : Keyed eng κ R)

theorem look_applyAll_other {k : κ} (ws : List W) :
    ∀ d : D, (∀ w ∈ ws, K.key w ≠ k) → K.look (eng.applyAll d ws) k = K.look d k := by
  induction ws with
  | nil => intro d _; rfl
  | cons w ws ih =>
    intro d h
    rw [Engine.applyAll_cons, ih _ fun w' hw' => h w' (List.mem_cons_of_mem _ hw'), K.look_apply,
      if_neg (Ne.symm (h w List.mem_cons_self))]

/-- A chain goes through wherever the rows it writes are the same. -/
theorem chain_congr (hlocal : ∀ d d' w, K.look d (K.key w) = K.look d' (K.key w) → ok d w → ok d' w)
    (ws : List W) :
    ∀ d d' : D, (∀ w ∈ ws, K.look d (K.key w) = K.look d' (K.key w)) →
      eng.Chain ok d ws → eng.Chain ok d' ws := by
  induction ws with
  | nil => intro d d' _ _; trivial
  | cons w ws ih =>
    intro d d' hsame h
    refine ⟨hlocal d d' w (hsame w List.mem_cons_self) h.1, ?_⟩
    refine ih _ _ ?_ h.2
    intro w' hw'
    rw [K.look_apply, K.look_apply, hsame w' (List.mem_cons_of_mem _ hw')]

/-- Writes to other rows in between do not break a chain. -/
theorem chain_frame (hlocal : ∀ d d' w, K.look d (K.key w) = K.look d' (K.key w) → ok d w → ok d' w)
    {ws ps : List W} {d : D} (hapart : ∀ p ∈ ps, ∀ w ∈ ws, K.key p ≠ K.key w)
    (h : eng.Chain ok d ps) : eng.Chain ok (eng.applyAll d ws) ps := by
  refine chain_congr K hlocal ps d _ ?_ h
  intro p hp
  exact (look_applyAll_other K ws d fun w hw => (hapart p hp w hw).symm).symm

/-- Writes to different rows, each in order on its own, are a chain. -/
theorem chain_of_nodup
    (hlocal : ∀ d d' w, K.look d (K.key w) = K.look d' (K.key w) → ok d w → ok d' w) (ws : List W) :
    ∀ d : D, (∀ w ∈ ws, ok d w) → (ws.map K.key).Nodup → eng.Chain ok d ws := by
  induction ws with
  | nil => intro d _ _; trivial
  | cons w ws ih =>
    intro d hok hn
    obtain ⟨hnew, hn⟩ := List.nodup_cons.1 hn
    refine ⟨hok w List.mem_cons_self, ?_⟩
    refine ih _ ?_ hn
    intro w' hw'
    refine hlocal d _ w' ?_ (hok w' (List.mem_cons_of_mem _ hw'))
    rw [K.look_apply, if_neg]
    intro hkey
    exact hnew (List.mem_map.2 ⟨w', hw', hkey⟩)

end Chain

/-! ## Versions -/

section Versions

variable {σ : Type → Type} {D W T E κ R : Type} [DecidableEq κ] {eng : Engine σ D W T E}
  (K : Keyed eng κ R) (ver : R → Int) (guard : W → Option Int) {ok : D → W → Prop}

/-- The version of the row of `k`, 0 where there is none. -/
def versionAt (d : D) (k : κ) : Int := ((K.look d k).map ver).getD 0

/-- A write in order stores a row with the next version, and if it was guarded, by the version
before it. -/
def Raising (ok : D → W → Prop) : Prop :=
  ∀ d w, ok d w → ∃ r, K.value w = some r ∧ ver r = versionAt K ver d (K.key w) + 1 ∧
    ∀ v, guard w = some v → v = versionAt K ver d (K.key w)

/-- The writes to the row of `k`. -/
def writesTo (ws : List W) (k : κ) : List W := ws.filter fun w => K.key w = k

/-- The key and the version that a write was guarded by. -/
def guarded (w : W) : Option (κ × Int) := (guard w).map fun v => (K.key w, v)

variable {K ver guard}

theorem versionAt_apply (hr : Raising K ver guard ok) {d : D} {w : W} (h : ok d w) (k : κ) :
    versionAt K ver (eng.apply d w) k =
      if k = K.key w then versionAt K ver d k + 1 else versionAt K ver d k := by
  obtain ⟨r, hv, hver, _⟩ := hr d w h
  by_cases hk : k = K.key w
  · rw [if_pos hk, hk, ← hver, versionAt, K.look_apply, if_pos rfl, hv]
    rfl
  · rw [if_neg hk, versionAt, K.look_apply, if_neg hk]
    rfl

/-- The version of a row is the number of its writes. -/
theorem versionAt_applyAll (hr : Raising K ver guard ok) (k : κ) (ws : List W) :
    ∀ d, eng.Chain ok d ws →
      versionAt K ver (eng.applyAll d ws) k = versionAt K ver d k + (writesTo K ws k).length := by
  induction ws with
  | nil => intro d _; simp [writesTo]
  | cons w ws ih =>
    intro d h
    rw [Engine.applyAll_cons, ih _ h.2, versionAt_apply hr h.1]
    by_cases hk : k = K.key w
    · have hcons : writesTo K (w :: ws) k = w :: writesTo K ws k := by simp [writesTo, hk]
      rw [if_pos hk, hcons, List.length_cons]
      omega
    · have hcons : writesTo K (w :: ws) k = writesTo K ws k := by
        simp [writesTo, Ne.symm hk]
      rw [if_neg hk, hcons]

/-- The writes to a row have the versions after the one it started from, in order. -/
theorem version_of_nth (hr : Raising K ver guard ok) (k : κ) (ws : List W) :
    ∀ (d : D) (n : Nat) (w : W), eng.Chain ok d ws → (writesTo K ws k)[n]? = some w →
      ∃ r, K.value w = some r ∧ ver r = versionAt K ver d k + n + 1 := by
  induction ws with
  | nil => intro d n w _ h; simp [writesTo] at h
  | cons x ws ih =>
    intro d n w h hn
    by_cases hk : k = K.key x
    · have hcons : writesTo K (x :: ws) k = x :: writesTo K ws k := by simp [writesTo, hk]
      rw [hcons] at hn
      cases n with
      | zero =>
        obtain rfl : x = w := by simpa using hn
        obtain ⟨r, hv, hver, _⟩ := hr d x h.1
        refine ⟨r, hv, ?_⟩
        rw [hver, hk]
        omega
      | succ n =>
        obtain ⟨r, hv, hver⟩ := ih _ n w h.2 (by simpa using hn)
        refine ⟨r, hv, ?_⟩
        rw [hver, versionAt_apply hr h.1, if_pos hk]
        omega
    · have hcons : writesTo K (x :: ws) k = writesTo K ws k := by
        simp [writesTo, Ne.symm hk]
      rw [hcons] at hn
      obtain ⟨r, hv, hver⟩ := ih _ n w h.2 hn
      refine ⟨r, hv, ?_⟩
      rw [hver, versionAt_apply hr h.1, if_neg hk]

/-- A guard is never behind the version that its chain starts from. -/
theorem guard_ge (hr : Raising K ver guard ok) {k : κ} {v : Int} (ws : List W) :
    ∀ d, eng.Chain ok d ws → (k, v) ∈ ws.filterMap (guarded K guard) → versionAt K ver d k ≤ v := by
  induction ws with
  | nil => intro d _ h; cases h
  | cons w ws ih =>
    intro d h hmem
    obtain ⟨x, hx, hg⟩ := List.mem_filterMap.1 hmem
    rcases List.mem_cons.1 hx with rfl | hx
    · obtain ⟨v', hv', he⟩ := Option.map_eq_some_iff.1 hg
      cases he
      obtain ⟨_, _, _, hguard⟩ := hr d x h.1
      have hv := hguard _ hv'
      omega
    · have hle := ih _ h.2 (List.mem_filterMap.2 ⟨x, hx, hg⟩)
      rw [versionAt_apply hr h.1] at hle
      split at hle <;> omega

/-- No two writes of a chain were made on the same version of the same row. -/
theorem guards_nodup (hr : Raising K ver guard ok) (ws : List W) :
    ∀ d, eng.Chain ok d ws → (ws.filterMap (guarded K guard)).Nodup := by
  induction ws with
  | nil => intro d _; exact .nil
  | cons w ws ih =>
    intro d h
    rw [List.filterMap_cons]
    cases hg : guarded K guard w with
    | none => exact ih _ h.2
    | some m =>
      refine List.nodup_cons.2 ⟨?_, ih _ h.2⟩
      obtain ⟨v, hv, rfl⟩ := Option.map_eq_some_iff.1 hg
      intro hmem
      have hle := guard_ge hr ws _ h.2 hmem
      obtain ⟨_, _, _, hguard⟩ := hr d w h.1
      rw [versionAt_apply hr h.1, if_pos rfl, ← hguard v hv] at hle
      omega

end Versions

end Lib
