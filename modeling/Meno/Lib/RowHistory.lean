import Meno.Lib.Chain

/-!
# Lib.RowHistory

What the writes of a history leave under one key, value after value. The last of them is what the
store holds, and where each write in order makes one step of a row's life, the history of a row is
a life (`isChain_history`).
-/

namespace Lib

section RowHistory

variable {σ : Type → Type} {D W T E κ R : Type} [DecidableEq κ] {eng : Engine σ D W T E}
  (K : Keyed eng κ R)

/-- The values that the writes leave under `k`. -/
def history (ws : List W) (k : κ) : List (Option R) := (writesTo K ws k).map K.value

variable {K} {k : κ} {w : W} {ws : List W} {d : D}

theorem history_cons_of_eq (h : K.key w = k) :
    history K (w :: ws) k = K.value w :: history K ws k := by
  simp [history, writesTo, h]

theorem history_cons_of_ne (h : K.key w ≠ k) : history K (w :: ws) k = history K ws k := by
  simp [history, writesTo, h]

/-- The store holds what came last. -/
theorem look_applyAll_eq (ws : List W) : ∀ d : D,
    K.look (eng.applyAll d ws) k = (history K ws k).getLast?.getD (K.look d k) := by
  induction ws with
  | nil => intro d; rfl
  | cons w ws ih =>
    intro d
    rw [Engine.applyAll_cons, ih, K.look_apply]
    by_cases hw : K.key w = k
    · rw [if_pos hw.symm, history_cons_of_eq hw, List.getLast?_cons]
      rfl
    · rw [if_neg (Ne.symm hw), history_cons_of_ne hw]

/-- What the store holds was there before, or is what one of the writes leaves. -/
theorem look_applyAll_cases (ws : List W) (d : D) :
    K.look (eng.applyAll d ws) k = K.look d k ∨
      ∃ w ∈ ws, K.key w = k ∧ K.value w = K.look (eng.applyAll d ws) k := by
  rw [look_applyAll_eq]
  cases hlast : (history K ws k).getLast? with
  | none => exact .inl rfl
  | some o =>
    obtain ⟨w, hw, rfl⟩ := List.mem_map.1 (List.mem_of_getLast? hlast)
    obtain ⟨hmem, hkey⟩ := List.mem_filter.1 hw
    exact .inr ⟨w, hmem, of_decide_eq_true hkey, rfl⟩

/-- A write in order makes a step of the row it writes. -/
def Living (K : Keyed eng κ R) (ok : D → W → Prop) (step : κ → Option R → Option R → Prop) : Prop :=
  ∀ d w, ok d w → step (K.key w) (K.look d (K.key w)) (K.value w)

theorem isChain_history {ok : D → W → Prop} {step : κ → Option R → Option R → Prop}
    (hl : Living K ok step) (ws : List W) : ∀ d : D, eng.Chain ok d ws →
      List.IsChain (step k) (K.look d k :: history K ws k) := by
  induction ws with
  | nil => exact fun _ _ => .singleton _
  | cons w ws ih =>
    intro d h
    have hrest := ih _ h.2
    rw [K.look_apply] at hrest
    by_cases hw : K.key w = k
    · rw [if_pos hw.symm] at hrest
      rw [history_cons_of_eq hw]
      exact .cons_cons (hw ▸ hl d w h.1) hrest
    · rw [if_neg (Ne.symm hw)] at hrest
      rw [history_cons_of_ne hw]
      exact hrest

/-- What every step keeps, the whole life keeps. -/
theorem getLast_of_isChain {step : Option R → Option R → Prop} {I : Option R → Prop}
    (hstep : ∀ o o', I o → step o o' → I o') {os : List (Option R)} :
    ∀ {o : Option R}, List.IsChain step (o :: os) → I o → I (os.getLast?.getD o) := by
  induction os with
  | nil => exact fun _ ho => ho
  | cons o' os ih =>
    intro o h ho
    obtain ⟨hs, h⟩ := List.isChain_cons_cons.1 h
    rw [List.getLast?_cons]
    exact ih h (hstep o o' ho hs)

end RowHistory

end Lib
