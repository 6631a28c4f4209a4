import Meno.Broadcast.Lifecycle

/-!
# Meno.Broadcast.Serializable

Concurrent `start`, `end` and `delete` calls of a creator on one broadcast. The code checks the row
that it reads first and later updates by id, so that two starts can both succeed, and a broadcast can
be made active after it was deleted. In the runs in which each change is made while the broadcast is
still found in the status that was checked, the calls that are over and the broadcast's row are those
of a serial execution.
-/

namespace Meno

open Lib BroadcastRepository

/-! ## The calls -/

namespace BroadcastOp

/-- A start, end or delete of broadcast `b` by user `u`. -/
def Manages (b u : Uuid) : BroadcastOp → Prop
  | .start _ b' u' => b' = b ∧ u' = u
  | .endBroadcast _ b' u' => b' = b ∧ u' = u
  | .delete b' u' => b' = b ∧ u' = u
  | _ => False

/-- The operation's check of the broadcast, made again. -/
def stillFinds (db : BroadcastDb) : BroadcastOp → Bool
  | .start _ b _ => (findById db b).any Broadcast.isNotActive
  | .endBroadcast _ b _ => (findById db b).any Broadcast.isActive
  | .delete b _ => (findById db b).any Broadcast.isNotActive
  | _ => true

/-- The status that a start or an end sets. -/
def sets : BroadcastOp → Option BroadcastStatus
  | .start _ _ _ => some .active
  | .endBroadcast _ _ _ => some .inactive
  | _ => none

/-- What the operation does when it is made alone. -/
def decision (faults : List Bool) : BroadcastOp → Decision Lifecycle OffsetDateTime
  | .start now b u => Lifecycle.start now b u faults
  | .endBroadcast _ _ u => Lifecycle.endBroadcast u faults
  | .delete _ u => Lifecycle.delete u faults
  | _ => { passes := fun _ => False, well := false, effect := fun _ c => c }

end BroadcastOp

/-- The call that makes an operation's change: the commit, or the update of `delete`. -/
def makesChange {β : Type} : Cmd BroadcastStmt DbError β → Bool
  | .commit => true
  | .exec .pool (.delete _) => true
  | _ => false

/-- The change is made while the check still holds. -/
def Vigilant {ι : Type} (ops : ι → BroadcastOp) (i : ι) {β : Type} (c : Cmd BroadcastStmt DbError β)
    (db : BroadcastDb) : Prop :=
  makesChange c = true → (ops i).stillFinds db = true

instance {ι : Type} (ops : ι → BroadcastOp) (i : ι) {β : Type} (c : Cmd BroadcastStmt DbError β)
    (db : BroadcastDb) : Decidable (Vigilant ops i c db) :=
  inferInstanceAs (Decidable (_ → _))

abbrev BroadcastMetered (ι : Type) :=
  Metered BroadcastStmt BroadcastDb BroadcastWrite OffsetDateTime DbError
    (Except BroadcastError BroadcastAnswer) ι

/-- The worlds that the operations reach, interleaved in any way, when the calls of operation `i` fail
as `faults i` says and those that do not fail are made when they `may`. -/
abbrev MeteredReaches {ι : Type} [DecidableEq ι]
    (may : ι → {β : Type} → Cmd BroadcastStmt DbError β → BroadcastDb → Prop)
    (ops : ι → BroadcastOp) (faults : ι → List Bool) (db : BroadcastDb) (t : OffsetDateTime)
    (r : BroadcastMetered ι) : Prop :=
  Metered.Reaches broadcastKeyed faults may (callers ops) db t r

/-- A serial execution of some of the operations, with those that ended well marked. -/
abbrev BroadcastSerially {ι : Type} (ops : ι → BroadcastOp) (faults : ι → List Bool)
    (db : BroadcastDb) : List (ι × Bool) → BroadcastDb → Prop :=
  Serially broadcastEngine (fun i => (ops i).prog) faults db

/-- The operation is over and has answered well. -/
def Succeeded {ι : Type} (r : BroadcastMetered ι) (i : ι) : Prop :=
  (r.world.callers i).prog.isOk = true

instance {ι : Type} (r : BroadcastMetered ι) (i : ι) : Decidable (Succeeded r i) :=
  inferInstanceAs (Decidable (_ = true))

theorem Succeeded.over {ι : Type} {r : BroadcastMetered ι} {i : ι} (h : Succeeded r i) :
    ∃ a, (r.world.callers i).prog = .ret a ∧ a.isOk = true := by
  unfold Succeeded at h
  cases hp : (r.world.callers i).prog with
  | ret a =>
    rw [hp] at h
    exact ⟨a, rfl, h⟩
  | call c k =>
    rw [hp] at h
    cases h

/-! ## Alone and among others -/

theorem around_alone (b u : Uuid) (status : BroadcastStatus) :
    Around b u status (fun db db' => db' = db) fun _ => True where
  trans := by
    rintro db _ _ rfl rfl
    rfl
  steady := by
    rintro db _ rfl
    exact Steady.refl b _
  still := by
    rintro db _ rfl _ hfound
    exact hfound

theorem around_steady {b u : Uuid} {status : BroadcastStatus} {cond : BroadcastDb → Prop}
    {p : Broadcast → Bool} (hp : ∀ row, p row = true → row.status = status)
    (hcond : ∀ db, cond db → (findById db b).any p = true) :
    Around b u status (Steady b) cond where
  trans := Steady.trans b
  steady _ _ h := h
  still db db' h hc hfound := by
    obtain ⟨row, hrow, hown, -⟩ := Lifecycle.found_iff.1 hfound
    obtain ⟨row', hrow', hsame⟩ := h.2 row (Option.filter_eq_some_iff.1 hrow).1
    have hany := hcond db' hc
    cases hfind : findById db' b with
    | none => simp [hfind] at hany
    | some row'' =>
      have hrows : some row'' = some row' :=
        (Option.filter_eq_some_iff.1 hfind).1.symm.trans hrow'
      cases hrows
      rw [hfind] at hany
      exact Lifecycle.found_iff.2 ⟨row', hfind, hsame.trans hown, hp row' hany⟩

theorem status_of_isActive (row : Broadcast) (h : row.isActive = true) : row.status = .active := by
  simpa [Broadcast.isActive] using h

theorem status_of_isNotActive (row : Broadcast) (h : row.isNotActive = true) :
    row.status = .inactive := by
  cases hst : row.status with
  | inactive => rfl
  | active => simp [Broadcast.isNotActive, hst] at h

namespace BroadcastOp

variable {b u : Uuid} {op : BroadcastOp} {faults : List Bool}

theorem undecided_alone (h : op.Manages b u) (db : BroadcastDb) (t : OffsetDateTime) :
    Prog.Undecided broadcastEngine broadcastKeyed faults (lifecycle b u) (fun db db' => db' = db)
      (fun _ _ => True) (op.decision faults) (ExceptT.run op.prog) none t 0 db := by
  cases op with
  | start now b' u' =>
    obtain ⟨rfl, rfl⟩ := h
    exact start_undecided (around_alone _ _ _) db
  | endBroadcast now b' u' =>
    obtain ⟨rfl, rfl⟩ := h
    exact end_undecided (around_alone _ _ _) db
  | delete b' u' =>
    obtain ⟨rfl, rfl⟩ := h
    exact delete_undecided (around_alone _ _ _) db
  | _ => exact h.elim

/-- What the operation does alone is what is decided. -/
theorem gives_of_run (faults : List Bool) (h : op.Manages b u) (db : BroadcastDb)
    (t : OffsetDateTime) : (op.decision faults).Gives t (lifecycle b u db) (op.run t faults db).1.isOk
      (lifecycle b u (op.run t faults db).2) :=
  (undecided_alone h db t).run

theorem undecided_among {ι : Type} {ops : ι → BroadcastOp} {i : ι} (faults : List Bool)
    (h : (ops i).Manages b u) (db : BroadcastDb) (t : OffsetDateTime) :
    Prog.Undecided broadcastEngine broadcastKeyed faults (lifecycle b u) (Steady b)
      (Vigilant ops i) ((ops i).decision faults) (ExceptT.run (ops i).prog) none t 0 db := by
  unfold Vigilant
  cases hop : ops i with
  | start now b' u' =>
    rw [hop] at h
    obtain ⟨rfl, rfl⟩ := h
    exact start_undecided (around_steady status_of_isNotActive fun _ hc => hc rfl) db
  | endBroadcast now b' u' =>
    rw [hop] at h
    obtain ⟨rfl, rfl⟩ := h
    exact end_undecided (around_steady status_of_isActive fun _ hc => hc rfl) db
  | delete b' u' =>
    rw [hop] at h
    obtain ⟨rfl, rfl⟩ := h
    exact delete_undecided (around_steady status_of_isNotActive fun _ hc => hc rfl) db
  | _ =>
    rw [hop] at h
    exact h.elim

end BroadcastOp

/-! ## Serial executions -/

namespace Lifecycle

/-- The broadcast is not active and deleted. -/
def Sound (c : Lifecycle) : Prop :=
  ∀ row, c.row = some row → row.status = .active → row.deletedAt = none

/-- The row has this status. -/
def In (status : BroadcastStatus) (c : Lifecycle) : Prop :=
  ∃ row, c.row = some row ∧ row.status = status

variable {b u : Uuid} {op : BroadcastOp} {faults : List Bool} {t : OffsetDateTime}
  {c c' : Lifecycle} {v : Bool}

/-- What passes has found the row in a status, and writes it in one. -/
theorem gives_cases (hm : op.Manages b u) (h : (op.decision faults).Gives t c v c') :
    (v = false ∧ c' = c) ∨
      ∃ row row', c.row = some row ∧ c'.row = some row' ∧ row.deletedAt = none ∧
        (op.sets = some .active ∧ row.status = .inactive ∧ row'.status = .active ∧
            row'.deletedAt = none ∨
          op.sets = some .inactive ∧ row.status = .active ∧ row'.status = .inactive ∨
          op.sets = none ∧ row.status = .inactive ∧ row'.status = .inactive) := by
  rcases h with ⟨hp, -, rfl⟩ | ⟨-, rfl, rfl⟩
  swap
  · exact .inl ⟨rfl, rfl⟩
  right
  cases op with
  | start now b' u' =>
    obtain ⟨⟨row, hrow, hdel, -, hst⟩, huser, -⟩ := hp
    obtain ⟨user, hu⟩ := Option.isSome_iff_exists.1 huser
    refine ⟨row, startedRow now t b' user c.present row, hrow, ?_, hdel, .inl ⟨rfl, hst, rfl, hdel⟩⟩
    simp [BroadcastOp.decision, start, hu, hrow]
  | endBroadcast now b' u' =>
    obtain ⟨⟨row, hrow, hdel, -, hst⟩, -⟩ := hp
    refine ⟨row, endedRow t row, hrow, ?_, hdel, .inr (.inl ⟨rfl, hst, rfl⟩)⟩
    simp [BroadcastOp.decision, endBroadcast, hrow]
  | delete b' u' =>
    obtain ⟨⟨row, hrow, hdel, -, hst⟩, -⟩ := hp
    refine ⟨row, deletedRow t row, hrow, ?_, hdel, .inr (.inr ⟨rfl, hst, hst⟩)⟩
    simp [BroadcastOp.decision, delete, hrow]
  | _ => exact hm.elim

theorem Sound.gives (hm : op.Manages b u) (h : (op.decision faults).Gives t c v c')
    (hc : c.Sound) : c'.Sound := by
  rcases gives_cases hm h with ⟨-, rfl⟩ | ⟨row, row', -, hrow', -, hsets⟩
  · exact hc
  · intro row'' hrow'' hactive
    rw [hrow'] at hrow''
    cases hrow''
    rcases hsets with ⟨-, -, -, hdel⟩ | ⟨-, -, hst⟩ | ⟨-, -, hst⟩
    · exact hdel
    · rw [hst] at hactive
      cases hactive
    · rw [hst] at hactive
      cases hactive

/-- Among operations that set no other status, those that set this one succeed when the row does not
have it, and once the row has it, it keeps it. -/
theorem In.gives {status : BroadcastStatus} (hm : op.Manages b u)
    (hsets : op.sets = none ∨ op.sets = some status) (h : (op.decision faults).Gives t c v c') :
    (c.In status → c'.In status) ∧
      (v = true → op.sets = some status → ¬c.In status ∧ c'.In status) := by
  rcases gives_cases hm h with ⟨rfl, rfl⟩ | ⟨row, row', hrow, hrow', -, hcases⟩
  · exact ⟨id, by simp⟩
  · have hin : c.In status ↔ row.status = status := by simp [In, hrow]
    have hin' : c'.In status ↔ row'.status = status := by simp [In, hrow']
    rw [hin, hin']
    rcases hcases with ⟨hs, hst, hst', -⟩ | ⟨hs, hst, hst'⟩ | ⟨hs, hst, hst'⟩
    · have hstatus : BroadcastStatus.active = status := by simpa [hs] using hsets
      subst hstatus
      simp [hst, hst']
    · have hstatus : BroadcastStatus.inactive = status := by simpa [hs] using hsets
      subst hstatus
      simp [hst, hst']
    · simp [hs, hst, hst']

end Lifecycle

section Serial

variable {ι : Type} {ops : ι → BroadcastOp} {faults : ι → List Bool} {b u : Uuid}
  {db d : BroadcastDb} {done : List (ι × Bool)}

theorem sound_of_serially (hops : ∀ i, (ops i).Manages b u)
    (h : BroadcastSerially ops faults db done d)
    (hdb : (lifecycle b u db).Sound) : (lifecycle b u d).Sound := by
  induction h with
  | nil => exact hdb
  | next i t h hnew ih => exact ih.gives (hops i) (BroadcastOp.gives_of_run (faults i) (hops i) _ t)

/-- In a serial execution of operations of which none sets another status, one at most sets this
one and succeeds. -/
theorem one_of_serially {status : BroadcastStatus} (hops : ∀ i, (ops i).Manages b u)
    (hsets : ∀ i, (ops i).sets = none ∨ (ops i).sets = some status)
    (h : BroadcastSerially ops faults db done d) :
    (∀ i, (i, true) ∈ done → (ops i).sets = some status → (lifecycle b u d).In status) ∧
      ∀ i j, (i, true) ∈ done → (j, true) ∈ done → (ops i).sets = some status →
        (ops j).sets = some status → i = j := by
  induction h with
  | nil => simp
  | @next done d k t h hnew ih =>
    obtain ⟨hin, hone⟩ := ih
    have hgives := BroadcastOp.gives_of_run (faults k) (hops k) d t
    obtain ⟨hkeeps, hmoves⟩ := Lifecycle.In.gives (hops k) (hsets k) hgives
    have hlast : ∀ i, (i, true) ∈ done ++ [(k, ((ops k).run t (faults k) d).1.isOk)] →
        (i, true) ∈ done ∨ i = k ∧ ((ops k).run t (faults k) d).1.isOk = true := by
      intro i hi
      rcases List.mem_append.1 hi with hi | hi
      · exact .inl hi
      · obtain ⟨rfl, hok⟩ := Prod.mk.inj (List.mem_singleton.1 hi)
        exact .inr ⟨rfl, hok.symm⟩
    constructor
    · intro i hi hs
      rcases hlast i hi with hi | ⟨rfl, hok⟩
      · exact hkeeps (hin i hi hs)
      · exact (hmoves hok hs).2
    · intro i j hi hj hsi hsj
      rcases hlast i hi with hi' | ⟨hik, hok⟩
      · rcases hlast j hj with hj' | ⟨hjk, hok⟩
        · exact hone i j hi' hj' hsi hsj
        · exact absurd (hin i hi' hsi) (hmoves hok (hjk ▸ hsj)).1
      · rcases hlast j hj with hj' | ⟨hjk, -⟩
        · exact absurd (hin j hj' hsj) (hmoves hok (hik ▸ hsi)).1
        · exact hik.trans hjk.symm

end Serial

/-! ## Any interleaving -/

/-- In every run in which each start, end and delete makes its change while it still finds the
broadcast as it checked it, the broadcast's row and the calls that are over come from a serial
execution; the row is not active and deleted; of starts without an end among them one at most
succeeds, and so of ends without a start. -/
theorem start_end_delete_serializable {ι : Type} [DecidableEq ι] (ops : ι → BroadcastOp)
    (faults : ι → List Bool) (b u : Uuid) (hops : ∀ i, (ops i).Manages b u) (db : BroadcastDb)
    (t : OffsetDateTime) (r : BroadcastMetered ι)
    (h : MeteredReaches (Vigilant ops) ops faults db t r) :
    (∃ done d, BroadcastSerially ops faults db done d ∧
      d.broadcasts.get b = r.world.committed.broadcasts.get b ∧
      ∀ i a, (r.world.callers i).prog = .ret a → (i, a.isOk) ∈ done) ∧
    ((lifecycle b u db).Sound → (lifecycle b u r.world.committed).Sound) ∧
    (∀ status, (∀ i, (ops i).sets = none ∨ (ops i).sets = some status) →
      ∀ i j, (ops i).sets = some status → (ops j).sets = some status → Succeeded r i →
        Succeeded r j → i = j) := by
  have halone : ∀ i d t, ((ops i).decision (faults i)).Gives t (lifecycle b u d)
      (Txn.run broadcastEngine (ops i).prog d t (faults i)).1.isOk
      (lifecycle b u (Txn.run broadcastEngine (ops i).prog d t (faults i)).2) :=
    fun i d t => BroadcastOp.gives_of_run (faults i) (hops i) d t
  have hamong := fun i => BroadcastOp.undecided_among (faults i) (hops i) db t
  obtain ⟨done, d, hserial, hsame, hover⟩ := serial_of_reaches broadcast_disciplined
    (fun _ => World.uses_anything _) (Steady.refl b) (Steady.trans b) (steady_of_legal b) halone
    hamong h
  refine ⟨⟨done, d, hserial, congrArg Lifecycle.row hsame, hover⟩, ?_, ?_⟩
  · intro hdb
    rw [← hsame]
    exact sound_of_serially hops hserial hdb
  · intro status hsets i j hi hj hsi hsj
    obtain ⟨a, ha, hok⟩ := hsi.over
    obtain ⟨a', ha', hok'⟩ := hsj.over
    refine (one_of_serially hops hsets hserial).2 i j ?_ ?_ hi hj
    · exact hok ▸ hover i a ha
    · exact hok' ▸ hover j a' ha'

/-- User 1 starts broadcast 9 twice, ends it and deletes it. -/
def busyMorning : Fin 4 → BroadcastOp
  | 0 => .start 2 ⟨9⟩ ⟨1⟩
  | 1 => .start 2 ⟨9⟩ ⟨1⟩
  | 2 => .endBroadcast 3 ⟨9⟩ ⟨1⟩
  | 3 => .delete ⟨9⟩ ⟨1⟩

theorem busyMorning_manages : ∀ i : Fin 4, (busyMorning i).Manages ⟨9⟩ ⟨1⟩
  | 0 => ⟨rfl, rfl⟩
  | 1 => ⟨rfl, rfl⟩
  | 2 => ⟨rfl, rfl⟩
  | 3 => ⟨rfl, rfl⟩

/-- Both starts find the draft. One of them goes live; the other fails to create its room, when the
broadcast has been ended. Then it is deleted. -/
theorem busy_morning_is_serial : ∃ r : BroadcastMetered (Fin 4),
    MeteredReaches (Vigilant busyMorning) busyMorning
      (fun i => if i = 1 then onlyFault 3 else []) (storeAfter (firstSession.take 1)) 1 r ∧
    Succeeded r 0 ∧ ¬Succeeded r 1 ∧ Succeeded r 2 ∧ Succeeded r 3 ∧
    ∃ done d, BroadcastSerially busyMorning (fun i => if i = 1 then onlyFault 3 else [])
      (storeAfter (firstSession.take 1)) done d ∧
      d.broadcasts.get ⟨9⟩ = r.world.committed.broadcasts.get ⟨9⟩ ∧
      ∀ i a, (r.world.callers i).prog = .ret a → (i, a.isOk) ∈ done := by
  have hrun : ∃ r : BroadcastMetered (Fin 4), MeteredReaches (Vigilant busyMorning) busyMorning
      (fun i => if i = 1 then onlyFault 3 else []) (storeAfter (firstSession.take 1)) 1 r ∧
      Succeeded r 0 ∧ ¬Succeeded r 1 ∧ Succeeded r 2 ∧ Succeeded r 3 :=
    Metered.reaches_of_runSchedule ([(2, 0), (2, 1)] ++ List.replicate 9 (2, 0) ++
      List.replicate 5 (3, 2) ++ List.replicate 3 (4, 1) ++ List.replicate 3 (5, 3))
      (by decide +kernel)
  obtain ⟨r, hr, h0, h1, h2, h3⟩ := hrun
  exact ⟨r, hr, h0, h1, h2, h3,
    (start_end_delete_serializable busyMorning _ ⟨9⟩ ⟨1⟩ busyMorning_manages _ 1 r hr).1⟩

/-- Two operations of user 1 on broadcast 9. -/
def both (op op' : BroadcastOp) : Fin 2 → BroadcastOp
  | 0 => op
  | 1 => op'

/-- Without that, of two starts that both find the draft both succeed, and of two ends that both find
it live, which no serial execution does; and a start that has found the draft before its delete
leaves it active and deleted. -/
theorem lost_checks :
    (∃ r : BroadcastMetered (Fin 2), MeteredReaches (fun _ {_} _ _ => True)
      (both (.start 2 ⟨9⟩ ⟨1⟩) (.start 2 ⟨9⟩ ⟨1⟩)) (fun _ => []) (storeAfter (firstSession.take 1)) 1 r ∧
      Succeeded r 0 ∧ Succeeded r 1 ∧
      ¬∃ done d, BroadcastSerially (both (.start 2 ⟨9⟩ ⟨1⟩) (.start 2 ⟨9⟩ ⟨1⟩)) (fun _ => [])
        (storeAfter (firstSession.take 1)) done d ∧
        ∀ i a, (r.world.callers i).prog = .ret a → (i, a.isOk) ∈ done) ∧
    (∃ r : BroadcastMetered (Fin 2), MeteredReaches (fun _ {_} _ _ => True)
      (both (.endBroadcast 4 ⟨9⟩ ⟨1⟩) (.endBroadcast 4 ⟨9⟩ ⟨1⟩)) (fun _ => [])
      (storeAfter (firstSession.take 2)) 3 r ∧ Succeeded r 0 ∧ Succeeded r 1 ∧
      ¬∃ done d, BroadcastSerially (both (.endBroadcast 4 ⟨9⟩ ⟨1⟩) (.endBroadcast 4 ⟨9⟩ ⟨1⟩))
        (fun _ => []) (storeAfter (firstSession.take 2)) done d ∧
        ∀ i a, (r.world.callers i).prog = .ret a → (i, a.isOk) ∈ done) ∧
    ∃ r : BroadcastMetered (Fin 2), MeteredReaches (fun _ {_} _ _ => True)
      (both (.start 2 ⟨9⟩ ⟨1⟩) (.delete ⟨9⟩ ⟨1⟩)) (fun _ => []) (storeAfter (firstSession.take 1)) 1 r ∧
      Succeeded r 0 ∧ Succeeded r 1 ∧
      ((r.world.committed.broadcasts.get ⟨9⟩).any fun row =>
        row.status = .active ∧ row.deletedAt.isSome) = true := by
  have hserial : ∀ {op : BroadcastOp} {status : BroadcastStatus} {db : BroadcastDb}
      {r : BroadcastMetered (Fin 2)}, op.Manages ⟨9⟩ ⟨1⟩ → op.sets = some status →
      Succeeded r 0 → Succeeded r 1 →
      ¬∃ done d, BroadcastSerially (both op op) (fun _ => []) db done d ∧
        ∀ i a, (r.world.callers i).prog = .ret a → (i, a.isOk) ∈ done := by
    rintro op status db r hm hs h0 h1 ⟨done, d, hserial, hover⟩
    obtain ⟨a, ha, hok⟩ := h0.over
    obtain ⟨a', ha', hok'⟩ := h1.over
    have hops : ∀ i, (both op op i).Manages ⟨9⟩ ⟨1⟩ := Fin.forall_fin_two.2 ⟨hm, hm⟩
    have hsets : ∀ i, (both op op i).sets = some status := Fin.forall_fin_two.2 ⟨hs, hs⟩
    have hone := (one_of_serially hops (fun i => .inr (hsets i)) hserial).2 0 1
      (hok ▸ hover 0 a ha) (hok' ▸ hover 1 a' ha') (hsets 0) (hsets 1)
    cases hone
  refine ⟨?_, ?_, ?_⟩
  · have hrun : ∃ r : BroadcastMetered (Fin 2), MeteredReaches (fun _ {_} _ _ => True)
        (both (.start 2 ⟨9⟩ ⟨1⟩) (.start 2 ⟨9⟩ ⟨1⟩)) (fun _ => [])
        (storeAfter (firstSession.take 1)) 1 r ∧ Succeeded r 0 ∧ Succeeded r 1 :=
      Metered.reaches_of_runSchedule ([(2, 0), (2, 1)] ++ List.replicate 9 (2, 0) ++
        List.replicate 9 (2, 1)) (by decide +kernel)
    obtain ⟨r, hr, h0, h1⟩ := hrun
    exact ⟨r, hr, h0, h1, hserial ⟨rfl, rfl⟩ rfl h0 h1⟩
  · have hrun : ∃ r : BroadcastMetered (Fin 2), MeteredReaches (fun _ {_} _ _ => True)
        (both (.endBroadcast 4 ⟨9⟩ ⟨1⟩) (.endBroadcast 4 ⟨9⟩ ⟨1⟩)) (fun _ => [])
        (storeAfter (firstSession.take 2)) 3 r ∧ Succeeded r 0 ∧ Succeeded r 1 :=
      Metered.reaches_of_runSchedule ([(4, 0), (4, 1)] ++ List.replicate 4 (4, 0) ++
        List.replicate 4 (4, 1)) (by decide +kernel)
    obtain ⟨r, hr, h0, h1⟩ := hrun
    exact ⟨r, hr, h0, h1, hserial ⟨rfl, rfl⟩ rfl h0 h1⟩
  · exact Metered.reaches_of_runSchedule ([(2, 0), (2, 1), (2, 1), (2, 1)] ++ List.replicate 9 (2, 0))
      (by decide +kernel)

end Meno
