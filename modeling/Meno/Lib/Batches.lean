import Mathlib.Data.List.Nodup
import Mathlib.Data.List.Perm.Subperm
import Meno.Lib.Table

/-!
# Lib.Batches

Deleting rows in batches: as long as a batch takes its limit, there is another. Which rows a batch
takes of those that match is up to the store (`Selection`). `Drains` says what a batch does to a
table; from it, the loop ends, it deletes what matches at its last batch, and it counts that
(`Drains.loop_eq`).
-/

namespace Lib

namespace Batches

/-- What the `i`th batch takes of the rows that it finds: as many as the limit allows. -/
structure Selection (ρ : Type) (limit : Nat) where
  pick : Nat → List ρ → List ρ
  subperm : ∀ i found, (pick i found).Subperm found
  length : ∀ i found, (pick i found).length = min limit found.length

/-- The rows that come first. -/
def Selection.first (ρ : Type) (limit : Nat) : Selection ρ limit where
  pick _ found := found.take limit
  subperm _ found := (found.take_sublist limit).subperm
  length _ _ := List.length_take

section Loop

variable {σ : Type} {limit : Nat} {batch : Nat → σ → Nat × σ}

/-- The batches from the `i`th on, the last of which takes less than the limit. -/
def loop (limit : Nat) (batch : Nat → σ → Nat × σ) : Nat → Nat → Nat → σ → Option (Nat × σ)
  | 0, _, _, _ => none
  | fuel + 1, i, total, s =>
    let (n, s) := batch i s
    if n < limit then some (total + n, s) else loop limit batch fuel (i + 1) (total + n) s

theorem loop_succ (fuel i total : Nat) (s : σ) :
    loop limit batch (fuel + 1) i total s =
      if (batch i s).1 < limit then some (total + (batch i s).1, (batch i s).2)
      else loop limit batch fuel (i + 1) (total + (batch i s).1) (batch i s).2 := rfl

theorem loop_rule {I : Nat → Nat → σ → Prop} {Q : Nat → σ → Prop}
    (more : ∀ i total s, I i total s → limit ≤ (batch i s).1 →
      I (i + 1) (total + (batch i s).1) (batch i s).2)
    (last : ∀ i total s, I i total s → (batch i s).1 < limit →
      Q (total + (batch i s).1) (batch i s).2) (fuel : Nat) :
    ∀ {i total : Nat} {s : σ} {out : Nat × σ}, I i total s →
      loop limit batch fuel i total s = some out → Q out.1 out.2 := by
  induction fuel with
  | zero =>
    intro i total s out _ hloop
    cases hloop
  | succ fuel ih =>
    intro i total s out hI hloop
    rw [loop_succ] at hloop
    split at hloop
    · rename_i hlast
      obtain rfl := Option.some.inj hloop
      exact last i total s hI hlast
    · rename_i hmore
      exact ih (more i total s hI (Nat.not_lt.1 hmore)) hloop

/-- A loop that has ended does not need more fuel. -/
theorem loop_mono {fuel fuel' : Nat} (h : fuel ≤ fuel') :
    ∀ {i total : Nat} {s : σ} {out : Nat × σ}, loop limit batch fuel i total s = some out →
      loop limit batch fuel' i total s = some out := by
  induction fuel generalizing fuel' with
  | zero =>
    intro i total s out hloop
    cases hloop
  | succ fuel ih =>
    intro i total s out hloop
    obtain ⟨fuel', rfl⟩ : ∃ n, fuel' = n + 1 := ⟨fuel' - 1, by omega⟩
    rw [loop_succ] at hloop ⊢
    split at hloop
    · rename_i hlast
      rw [if_pos hlast]
      exact hloop
    · rename_i hmore
      rw [if_neg hmore]
      exact ih (Nat.le_of_succ_le_succ h) hloop

theorem loop_unique {fuel fuel' i total : Nat} {s : σ} {out out' : Nat × σ}
    (h : loop limit batch fuel i total s = some out)
    (h' : loop limit batch fuel' i total s = some out') : out = out' :=
  Option.some.inj ((loop_mono (Nat.le_max_left _ _) h).symm.trans
    (loop_mono (Nat.le_max_right _ _) h'))

/-- What the batches take is there only once. -/
theorem exists_loop {m : σ → Nat} (hm : ∀ i s, m (batch i s).2 + (batch i s).1 ≤ m s)
    (fuel : Nat) : ∀ (i total : Nat) {s : σ}, m s < fuel * limit →
      ∃ out, loop limit batch fuel i total s = some out := by
  induction fuel with
  | zero =>
    intro i total s hfuel
    rw [Nat.zero_mul] at hfuel
    exact absurd hfuel (Nat.not_lt_zero _)
  | succ fuel ih =>
    intro i total s hfuel
    rw [loop_succ]
    split
    · exact ⟨_, rfl⟩
    · rename_i hmore
      refine ih (i + 1) _ ?_
      have hstep := hm i s
      rw [Nat.succ_mul] at hfuel
      omega

end Loop

/-! ## Tables -/

section Tables

variable {ρ κ : Type} [DecidableEq κ] {key : ρ → κ} {t t₀ : Table ρ key} {chosen : List ρ}

/-- The rows but these. -/
def without (t : Table ρ key) (ks : List κ) : Table ρ key := t.filter fun r => !ks.contains (key r)

omit [DecidableEq κ] in
theorem filter_filter (t : Table ρ key) (p q : ρ → Bool) :
    (t.filter p).filter q = t.filter fun r => q r && p r := by
  simp only [Table.filter, List.filter_filter]

theorem without_nil (t : Table ρ key) : without t [] = t := by
  simp [without, Table.filter]

theorem without_cons (t : Table ρ key) (k : κ) (ks : List κ) :
    without t (k :: ks) = without (t.erase k) ks := by
  rw [without, without, Table.erase, filter_filter]
  congr 1
  funext r
  by_cases hk : key r = k <;> simp [hk]

omit [DecidableEq κ] in
theorem nodup_rows (t : Table ρ key) : t.rows.Nodup := List.Nodup.of_map key t.nodup

/-- Among the rows of a table, the key tells. -/
theorem contains_key_iff (hsub : ∀ r ∈ chosen, r ∈ t.rows) {r : ρ} (hr : r ∈ t.rows) :
    (chosen.map key).contains (key r) = true ↔ r ∈ chosen := by
  rw [List.contains_iff_mem, List.mem_map]
  constructor
  · rintro ⟨c, hc, hkey⟩
    rwa [← List.inj_on_of_nodup_map t.nodup (hsub c hc) hr hkey]
  · exact fun h => ⟨r, h, rfl⟩

theorem length_without (h : chosen.Subperm t.rows) :
    (without t (chosen.map key)).rows.length + chosen.length = t.rows.length := by
  have hsub : ∀ r ∈ chosen, r ∈ t.rows := fun r hr => h.subset hr
  have hnodup : chosen.Nodup := by
    obtain ⟨l, hperm, hl⟩ := h
    exact hperm.nodup_iff.1 ((nodup_rows t).sublist hl)
  have htaken : (t.rows.filter fun r => (chosen.map key).contains (key r)).Perm chosen := by
    refine (List.perm_ext_iff_of_nodup ((nodup_rows t).filter _) hnodup).2 fun r => ?_
    rw [List.mem_filter]
    constructor
    · exact fun hr => (contains_key_iff hsub hr.1).1 hr.2
    · exact fun hr => ⟨hsub r hr, (contains_key_iff hsub (hsub r hr)).2 hr⟩
  rw [← htaken.length_eq, ← List.countP_eq_length_filter, without, Table.filter,
    ← List.countP_eq_length_filter]
  have hsplit := List.length_eq_countP_add_countP
    (fun r => (chosen.map key).contains (key r)) (l := t.rows)
  rw [hsplit, Nat.add_comm]
  simp only [Bool.not_eq_true, Bool.decide_eq_false]

variable {σ : Type} {view : σ → Table ρ key} {p : Nat → ρ → Bool} {limit : Nat}
  {batch : Nat → σ → Nat × σ}

/-- The `i`th batch takes rows with `p i`, as many as the limit allows, and counts them. -/
def Drains (view : σ → Table ρ key) (p : Nat → ρ → Bool) (limit : Nat)
    (batch : Nat → σ → Nat × σ) : Prop :=
  ∀ i s, ∃ chosen : List ρ, chosen.Subperm ((view s).rows.filter (p i)) ∧
    chosen.length = min limit ((view s).rows.countP (p i)) ∧ (batch i s).1 = chosen.length ∧
    view (batch i s).2 = without (view s) (chosen.map key)

/-- With enough rounds the loop ends in `s'`: of the rows of `s`, those with `q` are gone, and their
number is what it answers. -/
structure Deletes (view : σ → Table ρ key) (limit : Nat) (run : Nat → Option (Nat × σ)) (q : ρ → Bool)
    (s s' : σ) : Prop where
  ends : ∀ rounds, (view s).rows.length < rounds * limit →
    run rounds = some ((view s).rows.countP q, s')
  rows : view s' = (view s).filter fun r => !q r

/-- So many rows of `t₀` are gone, all of them with `q`. -/
structure Drained (t₀ : Table ρ key) (q : ρ → Bool) (total : Nat) (t : Table ρ key) : Prop where
  kept : ∃ gone : ρ → Bool, t = t₀.filter (fun r => !gone r) ∧
    ∀ r ∈ t₀.rows, gone r = true → q r = true
  count : total + t.rows.length = t₀.rows.length

theorem Drained.take {q : ρ → Bool} {total : Nat} (h : Drained t₀ q total t)
    (hchosen : chosen.Subperm (t.rows.filter q)) :
    Drained t₀ q (total + chosen.length) (without t (chosen.map key)) := by
  have hsubperm : chosen.Subperm t.rows := hchosen.trans List.filter_sublist.subperm
  refine ⟨?_, ?_⟩
  · obtain ⟨gone, rfl, hgone⟩ := h.kept
    refine ⟨fun r => (chosen.map key).contains (key r) || gone r, ?_, fun r hr hout => ?_⟩
    · rw [without, filter_filter]
      simp only [Bool.not_or]
    · rcases Bool.or_eq_true_iff.1 hout with htaken | hbefore
      · have hsub : ∀ c ∈ chosen, c ∈ t₀.rows := fun c hc =>
          (Table.mem_filter_rows.1 (hsubperm.subset hc)).1
        exact (List.mem_filter.1 (hchosen.subset ((contains_key_iff hsub hr).1 htaken))).2
      · exact hgone r hr hbefore
  · have hlength := length_without hsubperm
    have hcount := h.count
    omega

omit [DecidableEq κ] in
/-- A batch that has taken all rows with `q` leaves the others. -/
theorem Drained.eq_filter {q : ρ → Bool} {total : Nat} (h : Drained t₀ q total t)
    (hnone : ∀ r ∈ t.rows, q r = false) :
    t = t₀.filter (fun r => !q r) ∧ total = t₀.rows.countP q := by
  obtain ⟨gone, rfl, hgone⟩ := h.kept
  have hfilter : t₀.filter (fun r => !gone r) = t₀.filter fun r => !q r := by
    have hrows : t₀.rows.filter (fun r => !gone r) = t₀.rows.filter fun r => !q r := by
      refine List.filter_congr fun r hr => ?_
      cases hg : gone r with
      | true => rw [hgone r hr hg]
      | false => rw [hnone r (Table.mem_filter_rows.2 ⟨hr, by rw [hg]; rfl⟩)]
    simp only [Table.filter, hrows]
  refine ⟨hfilter, ?_⟩
  have hcount := h.count
  rw [hfilter] at hcount
  have hsplit := List.length_eq_countP_add_countP q (l := t₀.rows)
  have hrest : (t₀.filter fun r => !q r).rows.length = t₀.rows.countP fun r => ¬ q r := by
    rw [Table.filter, ← List.countP_eq_length_filter]
    simp only [Bool.not_eq_true, Bool.decide_eq_false]
  omega

theorem Drains.measure (h : Drains view p limit batch) (i : Nat) (s : σ) :
    (view (batch i s).2).rows.length + (batch i s).1 ≤ (view s).rows.length := by
  obtain ⟨chosen, hsub, -, hn, hview⟩ := h i s
  have hlength := length_without (t := view s) (hsub.trans List.filter_sublist.subperm)
  rw [hn, hview]
  omega

/-- A batch below its limit has taken all. -/
theorem Drains.last (h : Drains view p limit batch) {i total : Nat} {s : σ}
    (hdrained : Drained t₀ (p i) total (view s)) (hlast : (batch i s).1 < limit) :
    view (batch i s).2 = t₀.filter (fun r => !p i r) ∧
      total + (batch i s).1 = t₀.rows.countP (p i) := by
  obtain ⟨chosen, hsub, hlength, hn, hview⟩ := h i s
  have hall : chosen.Perm ((view s).rows.filter (p i)) := by
    refine hsub.perm_of_length_le ?_
    rw [← List.countP_eq_length_filter]
    omega
  rw [hn, hview]
  refine (hdrained.take hsub).eq_filter fun r hr => ?_
  obtain ⟨hr, hkey⟩ := Table.mem_filter_rows.1 hr
  cases hq : p i r with
  | false => rfl
  | true =>
    have hmem : r ∈ chosen := hall.mem_iff.2 (List.mem_filter.2 ⟨hr, hq⟩)
    rw [List.contains_iff_mem.2 (List.mem_map_of_mem hmem)] at hkey
    cases hkey

/-- **The loop ends**, and it has deleted the rows that matched at its last batch and no others, in
batches of which only the last is short; besides, what all batches keep is kept. -/
theorem Drains.loop_eq {J : σ → Prop} (h : Drains view p limit batch)
    (hgrows : ∀ i r, p i r = true → p (i + 1) r = true) (hlimit : 0 < limit)
    (hkeeps : ∀ i s, J s → J (batch i s).2) (s : σ) (hJ : J s) :
    ∃ last s', last = (view s).rows.countP (p last) / limit ∧
      Deletes view limit (fun rounds => loop limit batch rounds 0 0 s) (p last) s s' ∧ J s' := by
  have hends : ∀ rounds, (view s).rows.length < rounds * limit →
      ∃ out, loop limit batch rounds 0 0 s = some out := fun rounds =>
    exists_loop (m := fun s => (view s).rows.length) h.measure rounds 0 0
  have henough : (view s).rows.length < ((view s).rows.length + 1) * limit :=
    Nat.lt_of_lt_of_le (Nat.lt_succ_self _) (Nat.le_mul_of_pos_right _ hlimit)
  obtain ⟨out, hout⟩ := hends _ henough
  have hmore : ∀ i total s', (Drained (view s) (p i) total (view s') ∧ total = i * limit) ∧ J s' →
      limit ≤ (batch i s').1 → (Drained (view s) (p (i + 1)) (total + (batch i s').1)
        (view (batch i s').2) ∧ total + (batch i s').1 = (i + 1) * limit) ∧ J (batch i s').2 := by
    rintro i total s' ⟨⟨hdrained, rfl⟩, hJ⟩ hfull
    obtain ⟨chosen, hsub, hlength, hn, hview⟩ := h i s'
    refine ⟨⟨?_, ?_⟩, hkeeps i s' hJ⟩
    · rw [hn, hview]
      obtain ⟨⟨gone, hgone, hq⟩, hcount⟩ := hdrained.take hsub
      exact ⟨⟨gone, hgone, fun r hr hr' => hgrows i r (hq r hr hr')⟩, hcount⟩
    · have hexact : (batch i s').1 = limit := by omega
      rw [hexact, Nat.succ_mul]
  have hlast : ∀ i total s', (Drained (view s) (p i) total (view s') ∧ total = i * limit) ∧ J s' →
      (batch i s').1 < limit → ∃ last, last = (view s).rows.countP (p last) / limit ∧
        (view (batch i s').2 = (view s).filter (fun r => !p last r) ∧
          total + (batch i s').1 = (view s).rows.countP (p last)) ∧ J (batch i s').2 := by
    rintro i total s' ⟨⟨hdrained, rfl⟩, hJ⟩ hshort
    have hdone := h.last hdrained hshort
    refine ⟨i, ?_, hdone, hkeeps i s' hJ⟩
    rw [← hdone.2, Nat.mul_comm, Nat.mul_add_div hlimit, Nat.div_eq_of_lt hshort, Nat.add_zero]
  have hstart : Drained (view s) (p 0) 0 (view s) :=
    ⟨⟨fun _ => false, by simp [Table.filter], fun _ _ hgone => nomatch hgone⟩, Nat.zero_add _⟩
  obtain ⟨last, hnumber, ⟨hview, htotal⟩, hJ'⟩ := loop_rule
    (Q := fun total s' => ∃ last, last = (view s).rows.countP (p last) / limit ∧
      (view s' = (view s).filter (fun r => !p last r) ∧
        total = (view s).rows.countP (p last)) ∧ J s')
    hmore hlast _ ⟨⟨hstart, (Nat.zero_mul _).symm⟩, hJ⟩ hout
  refine ⟨last, out.2, hnumber, ⟨fun rounds hrounds => ?_, hview⟩, hJ'⟩
  obtain ⟨out', hout'⟩ := hends rounds hrounds
  rw [hout', loop_unique hout' hout, ← htotal]

end Tables

end Batches

end Lib
