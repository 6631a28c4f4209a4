/-!
# Lib.Timeline

Runs of a machine with a step function. A run is the list of what happens, in its order; `Along P`
says that `P` holds each time something happens, of the state before it and of what happens. A part
of a machine may be a machine of its own: where each step of the whole is a step of the part, or none
that the part takes, a run of the whole is, as the part sees it, the run of the part's own steps
(`view_run`).
-/

namespace Lib

section Timeline

universe u v

variable {σ : Type u} {ε : Type v} (step : σ → ε → σ)

/-- `P` holds at every step of the run from `s`. -/
def Along (P : σ → ε → Prop) : σ → List ε → Prop
  | _, [] => True
  | s, e :: es => P s e ∧ Along P (step s e) es

instance Along.decidable {P : σ → ε → Prop} [∀ s e, Decidable (P s e)] :
    ∀ s es, Decidable (Along step P s es)
  | _, [] => inferInstanceAs (Decidable True)
  | s, e :: es =>
    have := Along.decidable (P := P) (step s e) es
    inferInstanceAs (Decidable (P s e ∧ Along step P (step s e) es))

variable {step} {P Q G : σ → ε → Prop} {I : σ → Prop}

theorem Along.mono (h : ∀ s e, P s e → Q s e) {es : List ε} :
    ∀ {s : σ}, Along step P s es → Along step Q s es := by
  induction es with
  | nil => intro s _; trivial
  | cons e es ih => intro s hs; exact ⟨h s e hs.1, ih hs.2⟩

theorem Along.and {es : List ε} : ∀ {s : σ}, Along step P s es → Along step Q s es →
    Along step (fun s e => P s e ∧ Q s e) s es := by
  induction es with
  | nil => intro s _ _; trivial
  | cons e es ih => intro s hp hq; exact ⟨⟨hp.1, hq.1⟩, ih hp.2 hq.2⟩

theorem along_append {es es' : List ε} : ∀ {s : σ}, Along step P s (es ++ es') ↔
    Along step P s es ∧ Along step P (es.foldl step s) es' := by
  induction es with
  | nil => simp [Along]
  | cons e es ih =>
    intro s
    simp only [List.cons_append, Along, List.foldl_cons, ih, and_assoc]

/-- What the steps with `G` keep holds at the end of a run of such steps. -/
theorem Along.invariant (hstep : ∀ s e, I s → G s e → I (step s e)) {es : List ε} :
    ∀ {s : σ}, I s → Along step G s es → I (es.foldl step s) := by
  induction es with
  | nil => intro s h _; exact h
  | cons e es ih => intro s h hg; exact ih (hstep s e h hg.1) hg.2

theorem along_of_forall {G : ε → Prop} {es : List ε} :
    ∀ {s : σ}, (∀ e ∈ es, G e) → Along step (fun _ e => G e) s es := by
  induction es with
  | nil => intro s _; trivial
  | cons e es ih =>
    intro s h
    exact ⟨h e List.mem_cons_self, ih fun e' he' => h e' (List.mem_cons_of_mem _ he')⟩

/-- What each step of a kind keeps holds at the end of a run of such steps. -/
theorem foldl_keeps {G : ε → Prop} (hstep : ∀ s e, I s → G e → I (step s e)) {es : List ε} {s : σ}
    (hs : I s) (hes : ∀ e ∈ es, G e) : I (es.foldl step s) :=
  Along.invariant hstep hs (along_of_forall hes)

/-- What the steps with `G` have, as the invariant shows. -/
theorem Along.of_invariant (hstep : ∀ s e, I s → G s e → I (step s e))
    (hQ : ∀ s e, I s → G s e → Q s e) {es : List ε} :
    ∀ {s : σ}, I s → Along step G s es → Along step Q s es := by
  induction es with
  | nil => intro s _ _; trivial
  | cons e es ih => intro s h hg; exact ⟨hQ s e h hg.1, ih (hstep s e h hg.1) hg.2⟩

/-- `I` holds in every state of the run. -/
theorem forall_take_iff {es : List ε} : ∀ {s : σ}, (∀ n, I ((es.take n).foldl step s)) ↔
    I s ∧ Along step (fun s e => I (step s e)) s es := by
  induction es with
  | nil => intro s; simp [Along]
  | cons e es ih =>
    intro s
    constructor
    · intro h
      have hrest := ih.1 fun n => h (n + 1)
      exact ⟨h 0, hrest.1, hrest.2⟩
    · rintro ⟨hs, hnext, hrest⟩ n
      cases n with
      | zero => exact hs
      | succ n => exact ih.2 ⟨hnext, hrest⟩ n

/-- Two conditions that agree in the states of a run agree along it. -/
theorem Along.congr (hstep : ∀ s e, I s → G s e → I (step s e))
    (hiff : ∀ s e, I s → G s e → (P s e ↔ Q s e)) {es : List ε} :
    ∀ {s : σ}, I s → Along step G s es → (Along step P s es ↔ Along step Q s es) := by
  induction es with
  | nil => intro s _ _; exact Iff.rfl
  | cons e es ih =>
    intro s h hg
    exact and_congr (hiff s e h hg.1) (ih (hstep s e h hg.1) hg.2)

/-- Two conditions that agree where an invariant holds that they keep. -/
theorem Along.iff_of_invariant (hiff : ∀ s e, I s → (P s e ↔ Q s e))
    (hstep : ∀ s e, I s → Q s e → I (step s e)) {es : List ε} :
    ∀ {s : σ}, I s → (Along step P s es ↔ Along step Q s es) := by
  induction es with
  | nil => intro s _; exact Iff.rfl
  | cons e es ih =>
    intro s h
    have hhead := hiff s e h
    constructor
    · rintro ⟨hp, hps⟩
      exact ⟨hhead.1 hp, (ih (hstep s e h (hhead.1 hp))).1 hps⟩
    · rintro ⟨hq, hqs⟩
      exact ⟨hhead.2 hq, (ih (hstep s e h hq)).2 hqs⟩

end Timeline

/-! ## Parts -/

section Parts

variable {S E S' E' : Type} (step : S → E → S)

/-- The steps of a run that the part takes, as it takes them. -/
def ownSteps (own : S → E → Option E') : S → List E → List E'
  | _, [] => []
  | s, e :: es => (own s e).toList ++ ownSteps own (step s e) es

variable {step} {ok : S → E → Prop} {step' : S' → E' → S'} {own : S → E → Option E'}

theorem view_run (view : S → S')
    (h : ∀ s e, ok s e → view (step s e) = (own s e).toList.foldl step' (view s)) (es : List E) :
    ∀ s, Along step ok s es →
      view (es.foldl step s) = (ownSteps step own s es).foldl step' (view s) := by
  induction es with
  | nil => exact fun _ _ => rfl
  | cons e es ih =>
    intro s hok
    rw [List.foldl_cons, ih _ hok.2, h s e hok.1, ownSteps, List.foldl_append]

end Parts

section Places

variable {α : Type} {p : α → Bool} {a : α}

/-- Where the element at `i` stands among those with `p`. -/
def place (p : α → Bool) (l : List α) (i : Nat) : Nat := (l.take i).countP p

theorem getElem?_place (ha : p a = true) (l : List α) :
    ∀ {i : Nat}, l[i]? = some a → (l.filter p)[place p l i]? = some a := by
  induction l with
  | nil => exact fun h => by cases h
  | cons b l ih =>
    rintro (_ | i) h
    · obtain rfl := Option.some.inj h
      simp [place, ha]
    · have hrest := ih h
      unfold place at hrest
      cases hb : p b <;> simp [place, hb, hrest]

theorem filter_eraseIdx (ha : p a = true) (l : List α) :
    ∀ {i : Nat}, l[i]? = some a →
      (l.eraseIdx i).filter p = (l.filter p).eraseIdx (place p l i) := by
  induction l with
  | nil => exact fun h => by cases h
  | cons b l ih =>
    rintro (_ | i) h
    · obtain rfl := Option.some.inj h
      simp [place, ha]
    · have hrest := ih h
      unfold place at hrest
      cases hb : p b <;> simp [place, hb, hrest]

theorem filter_eraseIdx_other (ha : p a = false) (l : List α) :
    ∀ {i : Nat}, l[i]? = some a → (l.eraseIdx i).filter p = l.filter p := by
  induction l with
  | nil => exact fun h => by cases h
  | cons b l ih =>
    rintro (_ | i) h
    · obtain rfl := Option.some.inj h
      simp [ha]
    · have hrest := ih h
      cases hb : p b <;> simp [hb, hrest]

end Places

end Lib
