import Meno.Lib.Rely
import Meno.Lib.RowHistory

/-!
# Lib.Provenance

What a caller had been answered before it wrote. A ghost state that only grows still has at the end
what it ever had (`guarded_grow`), and a row that was read has stood in the store (`Stood`).
`Sourced` is `Wrote` with the history that a write came after: the condition on a write may speak of
that, as long as it goes on to hold when the history grows.
-/

namespace Lib

/-! ## What is known stays known -/

section Growing

variable {σ : Type → Type u} {α β : Type} {G : Type w} {pre : {β : Type} → σ β → G → Prop}
  {upd : {β : Type} → σ β → β → G → G} {I : G → G → Prop}

theorem Prog.guarded_grow (hrefl : ∀ g, I g g)
    (htrans : ∀ g g' g'', I g g' → I g' g'' → I g g'')
    (hupd : ∀ {β : Type} (c : σ β) (b : β) (g : G), I g (upd c b g)) {p : Prog σ α}
    {Q : α → G → Prop} : ∀ {g : G}, Prog.guarded pre upd p Q g →
      Prog.guarded pre upd p (fun a g' => I g g' ∧ Q a g') g := by
  induction p with
  | ret a =>
    intro g h
    exact ⟨hrefl g, h⟩
  | call c k ih =>
    intro g h
    refine ⟨h.1, fun b => Prog.guarded_mono ?_ (ih b (h.2 b))⟩
    rintro a g' ⟨hI, hQ⟩
    exact ⟨htrans _ _ _ (hupd c b g) hI, hQ⟩

/-- A program whose calls meet their assertions makes no others. -/
theorem Prog.uses_of_guarded {may : {β : Type} → σ β → Prop}
    (h : ∀ {β : Type} (c : σ β) (g : G), pre c g → may c) {p : Prog σ α} {Q : α → G → Prop} :
    ∀ {g : G}, Prog.guarded pre upd p Q g → p.Uses may := by
  induction p with
  | ret a => exact fun _ => trivial
  | call c k ih => exact fun hp => ⟨h c _ hp.1, fun b => ih b (hp.2 b)⟩

/-- A call whose failure is an answer like any other. -/
theorem Act.guarded_attempt {E ε : Type} {wrap : E → ε} {c : σ (Except E α)}
    {Q : Except ε α → G → Prop} {g : G} (hpre : pre c g)
    (h : ∀ r, Q (r.mapError wrap) (upd c r g)) :
    Act.Guarded pre upd (Act.attempt (Act.ask wrap c)) Q g := by
  refine ⟨hpre, ?_⟩
  rintro (e | a) r ⟨⟩
  · exact h (.error e)
  · exact h (.ok a)

/-- How an answer is made of what a program returns takes no calls. -/
theorem Act.guarded_answer {ε : Type} {x : Act σ ε α} {answer : α → β} {g : G}
    (h : Act.Guarded pre upd x (fun _ _ => True) g) :
    Act.Guarded pre upd (x >>= fun a => pure (answer a)) (fun _ _ => True) g :=
  Act.guarded_bind (Prog.guarded_mono (fun _ _ _ _ _ => Act.guarded_pure trivial) h)

end Growing

/-! ## Rows that have been there -/

section Stood

variable {σ : Type → Type} {D W T E κ R : Type} [DecidableEq κ] {eng : Engine σ D W T E}
  (K : Keyed eng κ R)

/-- The row was there at the start, or one of the writes left it. -/
def Stood (d : D) (ws : List W) (k : κ) (r : R) : Prop :=
  K.look d k = some r ∨ ∃ w ∈ ws, K.key w = k ∧ K.value w = some r

variable {K} {d : D} {ws : List W} {k : κ} {r : R}

theorem stood_of_look (h : K.look (eng.applyAll d ws) k = some r) : Stood K d ws k r := by
  rcases look_applyAll_cases (K := K) (k := k) ws d with hsame | ⟨w, hw, hkey, hvalue⟩
  · exact .inl (hsame.symm.trans h)
  · exact .inr ⟨w, hw, hkey, hvalue.trans h⟩

/-- What the row had, the row under its key has, if every step keeps it. -/
theorem Stood.kept {ok : D → W → Prop} {step : κ → Option R → Option R → Prop}
    (hl : Living K ok step) {I : Option R → Prop} (hstep : ∀ o o', I o → step k o o' → I o')
    (hlawful : eng.Chain ok d ws) (h : Stood K d ws k r) (hr : I (some r)) :
    I (K.look (eng.applyAll d ws) k) := by
  have hstays : ∀ (d : D) (ws : List W), eng.Chain ok d ws → I (K.look d k) →
      I (K.look (eng.applyAll d ws) k) := by
    intro d ws hws hd
    rw [look_applyAll_eq]
    exact getLast_of_isChain hstep (isChain_history hl ws d hws) hd
  rcases h with hlook | ⟨w, hw, hkey, hvalue⟩
  · exact hstays d ws hlawful (by rwa [hlook])
  · obtain ⟨before, after, rfl⟩ := List.append_of_mem hw
    rw [Engine.applyAll_append, Engine.applyAll_cons]
    refine hstays _ after (chain_append.1 hlawful).2.2 ?_
    rwa [K.look_apply, if_pos hkey.symm, hvalue]

theorem Stood.append (h : Stood K d ws k r) (ws' : List W) : Stood K d (ws ++ ws') k r := by
  rcases h with h | ⟨w, hw, hkey, hvalue⟩
  · exact .inl h
  · exact .inr ⟨w, List.mem_append_left _ hw, hkey, hvalue⟩

end Stood

/-! ## Histories before a write -/

/-- An element of `as ++ bs` stands in the one or the other. -/
theorem append_eq_append_cons {α : Type} {as bs pre post : List α} {x : α}
    (h : as ++ bs = pre ++ x :: post) :
    (∃ post', as = pre ++ x :: post') ∨ ∃ pre', pre = as ++ pre' ∧ bs = pre' ++ x :: post := by
  rcases List.append_eq_append_iff.1 h with ⟨pre', hpre, hbs⟩ | ⟨rest, has, hcons⟩
  · exact .inr ⟨pre', hpre, hbs⟩
  · cases rest with
    | nil => exact .inr ⟨[], by simpa using has.symm, hcons.symm⟩
    | cons y rest =>
      obtain ⟨rfl, -⟩ := List.cons.inj hcons
      exact .inl ⟨rest, has⟩

namespace World

variable {σ : Type → Type} {D W T E ρ ι : Type} [DecidableEq ι] {eng : Engine σ D W T E}
  {κ R : Type} [DecidableEq κ] {K : Keyed eng κ R} {w w' : World σ D W T E ρ ι}
  {may : World σ D W T E ρ ι → World σ D W T E ρ ι → Prop} {G : Type}
  {pre : {β : Type} → Cmd σ E β → G → Prop} {upd : {β : Type} → Cmd σ E β → β → G → G}
  {link : G → World σ D W T E ρ ι → Prop} {Q : ρ → G → Prop} {i : ι}
  {P : List (ι × W) → W → Prop}

/-- What the caller has written has `P` with the history before it. -/
structure Sourced (P : List (ι × W) → W → Prop) (i : ι) (w : World σ D W T E ρ ι) : Prop where
  pending : ∀ x ∈ w.pending i, P w.log x
  log : ∀ before x after, w.log = before ++ (i, x) :: after → P before x

/-- What other callers commit comes after. -/
theorem Sourced.other (hmono : ∀ log log' x, P log x → P (log ++ log') x) (h : Sourced P i w)
    {j : ι} (hij : i ≠ j) {β : Type} {c : Cmd σ E β} {k : β → Prog (Cmd σ E) ρ} {fault : Bool} :
    Sourced P i (w.answer eng j c k fault) := by
  constructor
  · intro x hx
    rw [pending_answer_other hij] at hx
    exact hmono _ _ _ (h.pending x hx)
  · intro before x after hlog
    rcases append_eq_append_cons hlog with ⟨after', hw⟩ | ⟨before', -, hnew⟩
    · exact h.log _ _ _ hw
    · have hmem : (i, x) ∈ (c.commits eng (w.session j c fault)).map fun x => (j, x) := by
        rw [hnew]
        exact List.mem_append_right _ List.mem_cons_self
      obtain ⟨y, -, he⟩ := List.mem_map.1 hmem
      exact absurd (congrArg Prod.fst he).symm hij

theorem Sourced.own (hmono : ∀ log log' x, P log x → P (log ++ log') x) (h : Sourced P i w)
    {β : Type} {c : Cmd σ E β} {k : β → Prog (Cmd σ E) ρ} {fault : Bool}
    (hwrites : ∀ x ∈ c.writes eng (w.session i c fault), P w.log x) :
    Sourced P i (w.answer eng i c k fault) := by
  constructor
  · intro x hx
    refine hmono _ _ _ ?_
    rcases mem_pending_answer hx with hx | ⟨-, hx⟩
    · exact h.pending x hx
    · exact hwrites x hx
  · intro before x after hlog
    rcases append_eq_append_cons hlog with ⟨after', hw⟩ | ⟨before', rfl, hnew⟩
    · exact h.log _ _ _ hw
    · have hmem : (i, x) ∈ (c.commits eng (w.session i c fault)).map fun x => (i, x) := by
        rw [hnew]
        exact List.mem_append_right _ List.mem_cons_self
      obtain ⟨y, hy, he⟩ := List.mem_map.1 hmem
      cases he
      refine hmono _ _ _ ?_
      rcases mem_commits hy with hy | hy
      · exact h.pending _ hy
      · exact hwrites _ hy

/-- `wrote_of_steps` for conditions on the history before the write. -/
theorem sourced_of_steps [LE T] (h : Linked K may pre upd link i)
    (hmono : ∀ log log' x, P log x → P (log ++ log') x)
    (hwrites : ∀ {w : World σ D W T E ρ ι} {β : Type} {c : Cmd σ E β} {fault : Bool} {g : G},
      pre c g → link g w → ∀ x ∈ c.writes eng (w.session i c fault), P w.log x)
    (hrun : StepsMay K may w w') {g : G} (hg : link g w)
    (hw : Prog.guarded pre upd (w.callers i).prog Q g) (hstart : Sourced P i w) :
    Sourced P i w' := by
  induction hrun with
  | refl => exact hstart
  | tail hrun hs ih =>
    obtain ⟨g', hg', hw'⟩ := ghost_of_steps h hrun hg hw
    cases hs.1 with
    | @call j β c k fault hp hfree =>
      by_cases hij : i = j
      · subst hij
        rw [hp] at hw'
        exact ih.own hmono (hwrites hw'.1 hg')
      · exact ih.other hmono hij
    | @rollback j r hp =>
      refine ⟨?_, ih.log⟩
      by_cases hij : i = j
      · subst hij
        rw [pending_rollback_self]
        exact fun x hx => nomatch hx
      · rw [pending_rollback_other hij]
        exact ih.pending
    | tick ht => exact ⟨ih.pending, ih.log⟩

end World

end Lib
