import Meno.Notes.PushCells

/-!
# Meno.Notes.PushRefinement

The push program does, row by row, what `PushCells` says. The first part takes one mutation: four
lemmas, one for each way it can end. The second part is the loop, by induction on the mutations,
with the rows of the transaction as the state; the third the whole batch.
-/

namespace Meno

open Lib Mutation

/-! ## The statements on known rows -/

section Rows

variable {k : EntityType} {c : Uuid} {m : Mutation k.Fields} {now : OffsetDateTime} {db : NotesDb}

theorem storeFields_of_valid (h : m.valid = true) : k.storeFields m.fields = .ok m.fields := by
  cases k with
  | note =>
    simp only [valid, NotesService.rejection, Option.isNone_iff_eq_none] at h
    split at h
    · cases h
    · split at h
      · cases h
      · rename_i ht hc
        simp only [EntityType.storeFields, varchar_of_le (Nat.le_of_not_lt ht),
          varchar_of_le (Nat.le_of_not_lt hc)]
        rfl
  | folder =>
    simp only [valid, NotesService.rejection, Option.isNone_iff_eq_none] at h
    split at h
    · cases h
    · rename_i ht
      simp only [EntityType.storeFields, varchar_of_le (Nat.le_of_not_lt ht)]
      rfl

def snapshotOf (m : Mutation k.Fields) : Snapshot k.Fields :=
  { fields := m.fields, deleted := m.deleted }

theorem upsertIfAbsent_absent (hv : m.valid = true) (hst : m.Storable)
    (href : db.checkRefs k m.fields = .ok ()) (hn : db.get k m.id = none) :
    upsertIfAbsent db now k m.id c (snapshotOf m) =
      .ok (some (newRow now m.id c m.fields), [.put k (newRow now m.id c m.fields) none]) := by
  have hst : k.bindFields m.fields = .ok () := hst
  simp only [upsertIfAbsent, snapshotOf, hst, storeFields_of_valid hv, hn, href, ok_bind]
  rfl

theorem upsertIfAbsent_present (hv : m.valid = true) (hst : m.Storable) {r : Row k.Fields}
    (hr : db.get k m.id = some r) :
    upsertIfAbsent db now k m.id c (snapshotOf m) = .ok (none, []) := by
  have hst : k.bindFields m.fields = .ok () := hst
  simp only [upsertIfAbsent, snapshotOf, hst, storeFields_of_valid hv, hr]
  rfl

/-- Every statement of a mutation binds its texts first. -/
theorem unstorable {β : Type} (hst : ¬m.Storable) (f : Unit → Except DbError β) :
    ∃ e, (k.bindFields m.fields >>= f) = .error e := by
  cases hb : k.bindFields m.fields with
  | ok u => exact absurd hb hst
  | error e => exact ⟨e, rfl⟩

theorem setSnapshot_room (hv : m.valid = true) (href : db.checkRefs k m.fields = .ok ())
    {r : Row k.Fields} (h : r.version < intMax) :
    setSnapshot db now k (snapshotOf m) r = .ok (m.writeTo now c (some r)) := by
  simp only [setSnapshot, snapshotOf, storeFields_of_valid hv, href, intSucc, h, if_true, ok_bind]
  rfl

theorem setSnapshot_full (hv : m.valid = true) (href : db.checkRefs k m.fields = .ok ())
    {r : Row k.Fields} (h : ¬r.version < intMax) :
    setSnapshot db now k (snapshotOf m) r = .error .numericValueOutOfRange := by
  simp only [setSnapshot, snapshotOf, storeFields_of_valid hv, href, intSucc, h, if_false, ok_bind]
  rfl

end Rows

/-- What a push's transaction shows of the database it started from: no row is gone, none changed
hands, and the new ones are the caller's. -/
structure Extends (c : Uuid) (db V : NotesDb) : Prop where
  keeps : ∀ k id (r : Row k.Fields), db.get k id = some r →
    ∃ r' : Row k.Fields, V.get k id = some r' ∧ r'.creatorId = r.creatorId
  fresh : ∀ k id (r : Row k.Fields), V.get k id = some r → db.get k id = none → r.creatorId = c

theorem Extends.refl (c : Uuid) (db : NotesDb) : Extends c db db where
  keeps _ _ r h := ⟨r, h, rfl⟩
  fresh _ _ r h hn := by rw [hn] at h; cases h

/-- The committed row tells whose the row of the transaction is. -/
theorem Extends.owner {c : Uuid} {db V : NotesDb} (h : Extends c db V) {k : EntityType} {id : Uuid}
    {r : Row k.Fields} (hr : V.get k id = some r) :
    r.creatorId = c ↔ (db.get k id).all (·.creatorId == c) = true := by
  cases hs : db.get k id with
  | none => simpa using h.fresh k id r hr hs
  | some r₀ =>
    obtain ⟨r', hr', hc⟩ := h.keeps k id r₀ hs
    rw [hr] at hr'
    cases hr'
    simp [hc]

theorem findById_eq_none {db : NotesDb} {k : EntityType} {id c : Uuid}
    (h : ¬LiveFor c (db.get k id)) : findById db k id c = none := by
  rw [findById, Option.filter_eq_none_iff]
  intro r hr hp
  simp only [Bool.and_eq_true, beq_iff_eq, Option.isNone_iff_eq_none] at hp
  exact h ⟨r, hr, hp.1, hp.2⟩

theorem findById_eq_some {db : NotesDb} {k : EntityType} {id c : Uuid} {r : Row k.Fields}
    (hr : db.get k id = some r) (hc : r.creatorId = c) (hd : r.deletedAt = none) :
    findById db k id c = some r := by
  rw [findById, hr]
  simp [Option.filter, hc, hd]

namespace NotesService

/-! ## One mutation -/

section One

variable {k : EntityType} {c : Uuid} {m : Mutation k.Fields}
  {s : Session NotesDb Write OffsetDateTime} {db V : NotesDb}

/-- The answers of the notes tables to a caller. -/
abbrev serve {β : Type} (call : Cmd NotesStmt DbError β) (s : Session NotesDb Write OffsetDateTime) :
    β × Session NotesDb Write OffsetDateTime :=
  Session.handle notesEngine call s

theorem answer_tx_ok {β : Type} {stmt : NotesStmt β} {b : β} {ws : List Write}
    (hf : s.faults = []) (h : stmt.exec s.now (s.view notesEngine) = .ok (b, ws)) :
    Act.answer serve (query .tx stmt) s = (.ok b, s.write ws) := by
  rw [query, Act.answer_ask, serve, Session.handle_tx_ok notesEngine hf h]

theorem answer_tx_read {β : Type} {stmt : NotesStmt β} {b : β} (hs : s.Calm)
    (h : stmt.exec s.now (s.view notesEngine) = .ok (b, [])) :
    Act.answer serve (query .tx stmt) s = (.ok b, s) := by
  rw [answer_tx_ok hs.faults h, hs.write_nil]

theorem answer_tx_error {β : Type} {stmt : NotesStmt β} {e : DbError}
    (hf : s.faults = []) (h : stmt.exec s.now (s.view notesEngine) = .error e) :
    Act.answer serve (query .tx stmt) s = (.error (.database e), s) := by
  rw [query, Act.answer_ask, serve, Session.handle_tx_error notesEngine hf h]

/-- The statements of a mutation, on the row `cur` that the transaction shows. -/
theorem answer_upsert_absent (hs : s.Calm) (hv : m.valid = true) (hst : m.Storable)
    (href : (s.view notesEngine).checkRefs k m.fields = .ok ())
    (hcur : (s.view notesEngine).get k m.id = none) :
    Act.answer serve (query .tx (.upsertIfAbsent k m.id c (snapshotOf m))) s =
      (.ok (some (m.writeTo s.now c none)), s.write [.put k (m.writeTo s.now c none) none]) :=
  answer_tx_ok hs.faults (upsertIfAbsent_absent hv hst href hcur)

theorem answer_upsert_present (hs : s.Calm) (hv : m.valid = true) (hst : m.Storable)
    {r : Row k.Fields} (hcur : (s.view notesEngine).get k m.id = some r) :
    Act.answer serve (query .tx (.upsertIfAbsent k m.id c (snapshotOf m))) s = (.ok none, s) :=
  answer_tx_read hs (upsertIfAbsent_present hv hst hcur)

theorem answer_force (hs : s.Calm) (hv : m.valid = true) (hst : m.Storable)
    (href : (s.view notesEngine).checkRefs k m.fields = .ok ())
    {r : Row k.Fields} (hcur : (s.view notesEngine).get k m.id = some r) (hc : r.creatorId = c)
    (hroom : r.version < intMax) :
    Act.answer serve (query .tx (.forceApplySnapshot k m.id c (snapshotOf m))) s =
      (.ok (m.writeTo s.now c (some r)), s.write [.put k (m.writeTo s.now c (some r)) none]) := by
  refine answer_tx_ok hs.faults ?_
  have hbind : k.bindFields (snapshotOf m).fields = .ok () := hst
  simp only [NotesStmt.exec, forceApplySnapshot, hbind, ok_bind, updateRow, hcur, hc, beq_self_eq_true,
    if_true, setSnapshot_room (c := c) hv href hroom, pure_ok]

theorem answer_force_full (hs : s.Calm) (hv : m.valid = true) (hst : m.Storable)
    (href : (s.view notesEngine).checkRefs k m.fields = .ok ())
    {r : Row k.Fields} (hcur : (s.view notesEngine).get k m.id = some r) (hc : r.creatorId = c)
    (hroom : ¬r.version < intMax) :
    Act.answer serve (query .tx (.forceApplySnapshot k m.id c (snapshotOf m))) s =
      (.error (.database .numericValueOutOfRange), s) := by
  refine answer_tx_error hs.faults ?_
  have hbind : k.bindFields (snapshotOf m).fields = .ok () := hst
  simp only [NotesStmt.exec, forceApplySnapshot, hbind, ok_bind, updateRow, hcur, hc, beq_self_eq_true,
    if_true, setSnapshot_full hv href hroom, error_bind]

theorem answer_match (hs : s.Calm) (hv : m.valid = true) (hst : m.Storable)
    (href : (s.view notesEngine).checkRefs k m.fields = .ok ())
    {r : Row k.Fields} (hcur : (s.view notesEngine).get k m.id = some r) (hc : r.creatorId = c)
    (hroom : r.version < intMax) :
    Act.answer serve
        (query .tx (.applySnapshotIfVersionMatches k m.id c r.version (snapshotOf m))) s =
      (.ok (some (m.writeTo s.now c (some r))),
       s.write [.put k (m.writeTo s.now c (some r)) (some r.version)]) := by
  refine answer_tx_ok hs.faults ?_
  have hbind : k.bindFields (snapshotOf m).fields = .ok () := hst
  simp only [NotesStmt.exec, applySnapshotIfVersionMatches, hbind, ok_bind, updateRow, hcur, hc,
    beq_self_eq_true, Bool.and_true, if_true, setSnapshot_room (c := c) hv href hroom, pure_ok]

theorem answer_match_full (hs : s.Calm) (hv : m.valid = true) (hst : m.Storable)
    (href : (s.view notesEngine).checkRefs k m.fields = .ok ())
    {r : Row k.Fields} (hcur : (s.view notesEngine).get k m.id = some r) (hc : r.creatorId = c)
    (hroom : ¬r.version < intMax) :
    Act.answer serve
        (query .tx (.applySnapshotIfVersionMatches k m.id c r.version (snapshotOf m))) s =
      (.error (.database .numericValueOutOfRange), s) := by
  refine answer_tx_error hs.faults ?_
  have hbind : k.bindFields (snapshotOf m).fields = .ok () := hst
  simp only [NotesStmt.exec, applySnapshotIfVersionMatches, hbind, ok_bind, updateRow, hcur, hc,
    beq_self_eq_true, Bool.and_true, if_true, setSnapshot_full hv href hroom, error_bind]

theorem answer_match_miss (hs : s.Calm) (hst : m.Storable) {b : Int}
    (hcur : ∀ r, (s.view notesEngine).get k m.id = some r → ¬(r.creatorId = c ∧ r.version = b)) :
    Act.answer serve (query .tx (.applySnapshotIfVersionMatches k m.id c b (snapshotOf m))) s =
      (.ok none, s) := by
  refine answer_tx_read hs ?_
  have hbind : k.bindFields (snapshotOf m).fields = .ok () := hst
  simp only [NotesStmt.exec, applySnapshotIfVersionMatches, hbind, ok_bind, updateRow]
  cases hr : (s.view notesEngine).get k m.id with
  | none => rfl
  | some r =>
    have hno : (r.creatorId == c && r.version == b) = false := by
      simpa using hcur r hr
    simp only [hno, Bool.false_eq_true, if_false]

theorem answer_find_ok {id : Uuid} {r : Row k.Fields} (hf : s.faults = [])
    (h : findById s.committed k id c = some r) :
    Act.answer serve (findOrFail k id c) s = (.ok r, s) := by
  have hq : Act.answer serve (query .pool (.findById k id c)) s = (.ok (some r), s) := by
    rw [query, Act.answer_ask, serve, Session.handle_read notesEngine (b := some r) hf]
    exact congrArg answerOnly h
  rw [findOrFail, Act.answer_bind_ok _ hq]
  rfl

theorem answer_find_error {id : Uuid} (hf : s.faults = [])
    (h : findById s.committed k id c = none) :
    Act.answer serve (findOrFail k id c) s = (.error k.notFound, s) := by
  have hq : Act.answer serve (query .pool (.findById k id c)) s = (.ok none, s) := by
    rw [query, Act.answer_ask, serve, Session.handle_read notesEngine (b := none) hf]
    exact congrArg answerOnly h
  rw [findOrFail, Act.answer_bind_ok _ hq]
  rfl

/-- Not offered to its row: answered at once. -/
theorem applyMutation_idle (h : m.effective = false) :
    ∃ r, Act.answer serve (applyMutation k c m) s = (.ok r, s) ∧
      (r.outcome = .applied ↔ m.valid = true) := by
  unfold applyMutation
  cases hr : rejection k m.fields with
  | some reason =>
    refine ⟨_, rfl, ?_⟩
    simp [MutationResult.rejected, valid, hr]
  | none =>
    have hv : m.valid = true := by simp [valid, hr]
    have hu : m.unpersisted = true := by simpa [effective, hv] using h
    simp only [unpersisted, Bool.and_eq_true, Option.isNone_iff_eq_none] at hu
    rw [hu.1]
    simp only [hu.2, if_true]
    refine ⟨_, rfl, ?_⟩
    simp [MutationResult.appliedUnpersisted, hv]

/-- The program of a mutation that is offered to its row. -/
def offer (k : EntityType) (c : Uuid) (m : Mutation k.Fields) : NotesSvc MutationResult :=
  match m.baseVersion with
  | none => do
    match ← query .tx (.upsertIfAbsent k m.id c (snapshotOf m)) with
    | some row => return .applied k (ConflictEntity.ofRow k row)
    | none =>
      let existing ← findOrFail k m.id c
      if m.clientUpdatedAt > existing.updatedAt then
        let row ← query .tx (.forceApplySnapshot k m.id c (snapshotOf m))
        return .applied k (ConflictEntity.ofRow k row)
      else
        return .conflict k (ConflictEntity.ofRow k existing)
  | some baseVersion => do
    match ← query .tx (.applySnapshotIfVersionMatches k m.id c baseVersion (snapshotOf m)) with
    | some row => return .applied k (ConflictEntity.ofRow k row)
    | none =>
      let existing ← findOrFail k m.id c
      return .conflict k (ConflictEntity.ofRow k existing)

theorem applyMutation_effective (h : m.effective = true) : applyMutation k c m = offer k c m := by
  simp only [effective, valid, Bool.and_eq_true, Option.isNone_iff_eq_none,
    Bool.not_eq_true'] at h
  unfold applyMutation offer
  rw [h.1]
  cases hb : m.baseVersion with
  | none =>
    have hd : m.deleted = false := by simpa [unpersisted, hb] using h.2
    unfold snapshotOf
    rw [hd]
    rfl
  | some b => rfl

/-- A text that cannot be stored ends the push. -/
theorem offer_unstorable (hf : s.faults = []) (hst : ¬m.Storable) :
    ∃ e s', Act.answer serve (offer k c m) s = (.error e, s') := by
  unfold offer
  cases m.baseVersion with
  | none =>
    obtain ⟨e, he⟩ := unstorable hst fun _ => do
      let fields ← k.storeFields m.fields
      if ((s.view notesEngine).get k m.id).isSome then return (none, [])
      (s.view notesEngine).checkRefs k fields
      let row := newRow s.now m.id c fields
      return (some row, [Write.put k row none])
    exact ⟨_, _, Act.answer_bind_error _ (answer_tx_error hf he)⟩
  | some b =>
    obtain ⟨e, he⟩ := unstorable hst fun _ =>
      updateRow (s.view notesEngine) k m.id (some b)
        (fun r => r.creatorId == c && r.version == b)
        (setSnapshot (s.view notesEngine) s.now k (snapshotOf m))
    exact ⟨_, _, Act.answer_bind_error _ (answer_tx_error hf he)⟩

/-- A mutation that hits and has room is written over the row the transaction shows. -/
theorem offer_hit (hs : s.Calm) (hx : Extends c s.committed (s.view notesEngine))
    (hv : m.valid = true) (hst : m.Storable)
    (href : (s.view notesEngine).checkRefs k m.fields = .ok ())
    {cur : Option (Row k.Fields)} (hcur : (s.view notesEngine).get k m.id = cur)
    (hh : m.hits c (s.committed.get k m.id) (versionOf cur) = true)
    (hroom : (versionOf cur).getD 0 < intMax) :
    Act.answer serve (offer k c m) s =
      (.ok (.applied k (ConflictEntity.ofRow k (m.writeTo s.now c cur))),
       s.write [.put k (m.writeTo s.now c cur) m.baseVersion]) := by
  unfold offer
  cases cur with
  | none =>
    rw [(hits_absent.1 hh).2]
    simp only
    rw [Act.answer_bind_ok _ (answer_upsert_absent hs hv hst href hcur)]
    rfl
  | some r =>
    have hroom : r.version < intMax := hroom
    cases hb : m.baseVersion with
    | none =>
      obtain ⟨e, he, hec, hed, hlww⟩ := (hits_collision hb).1 hh
      have hc : r.creatorId = c := (hx.owner hcur).2 (by simp [he, hec])
      simp only
      rw [Act.answer_bind_ok _ (answer_upsert_present hs hv hst hcur)]
      simp only
      rw [Act.answer_bind_ok _ (answer_find_ok hs.faults (findById_eq_some he hec hed))]
      simp only [gt_iff_lt, hlww, if_true]
      rw [Act.answer_bind_ok _ (answer_force hs hv hst href hcur hc hroom)]
      rfl
    | some b =>
      obtain ⟨hall, hvb⟩ := (hits_based hb).1 hh
      have hc : r.creatorId = c := (hx.owner hcur).2 hall
      have hvb : r.version = b := hvb
      subst hvb
      simp only
      rw [Act.answer_bind_ok _ (answer_match hs hv hst href hcur hc hroom)]
      rfl

/-- A mutation that hits a row whose version is used up ends the push. -/
theorem offer_full (hs : s.Calm) (hx : Extends c s.committed (s.view notesEngine))
    (hv : m.valid = true) (hst : m.Storable)
    (href : (s.view notesEngine).checkRefs k m.fields = .ok ())
    {cur : Option (Row k.Fields)} (hcur : (s.view notesEngine).get k m.id = cur)
    (hh : m.hits c (s.committed.get k m.id) (versionOf cur) = true)
    (hroom : ¬(versionOf cur).getD 0 < intMax) :
    ∃ e s', Act.answer serve (offer k c m) s = (.error e, s') := by
  unfold offer
  cases cur with
  | none =>
    have h0 : (0 : Int) < intMax := by decide
    exact absurd h0 hroom
  | some r =>
    have hroom : ¬r.version < intMax := hroom
    cases hb : m.baseVersion with
    | none =>
      obtain ⟨e, he, hec, hed, hlww⟩ := (hits_collision hb).1 hh
      have hc : r.creatorId = c := (hx.owner hcur).2 (by simp [he, hec])
      simp only
      rw [Act.answer_bind_ok _ (answer_upsert_present hs hv hst hcur)]
      simp only
      rw [Act.answer_bind_ok _ (answer_find_ok hs.faults (findById_eq_some he hec hed))]
      simp only [gt_iff_lt, hlww, if_true]
      exact ⟨_, _, Act.answer_bind_error _ (answer_force_full hs hv hst href hcur hc hroom)⟩
    | some b =>
      obtain ⟨hall, hvb⟩ := (hits_based hb).1 hh
      have hc : r.creatorId = c := (hx.owner hcur).2 hall
      have hvb : r.version = b := hvb
      subst hvb
      exact ⟨_, _, Act.answer_bind_error _ (answer_match_full hs hv hst href hcur hc hroom)⟩

/-- A mutation that misses leaves the transaction alone and looks the committed row up. -/
theorem offer_miss (hs : s.Calm) (hx : Extends c s.committed (s.view notesEngine))
    (hv : m.valid = true) (hst : m.Storable)
    (hh : m.hits c (s.committed.get k m.id)
      (versionOf ((s.view notesEngine).get k m.id)) = false) :
    Act.answer serve (offer k c m) s =
      Act.answer serve (findOrFail k m.id c >>= fun existing =>
        pure (.conflict k (ConflictEntity.ofRow k existing))) s := by
  unfold offer
  cases hb : m.baseVersion with
  | none =>
    cases hcur : (s.view notesEngine).get k m.id with
    | none =>
      -- an id that is nowhere is not missed
      have hseen : s.committed.get k m.id = none := by
        cases hseen : s.committed.get k m.id with
        | none => rfl
        | some e =>
          obtain ⟨r, hr, _⟩ := hx.keeps k m.id e hseen
          rw [hcur] at hr
          cases hr
      rw [hcur, hseen] at hh
      simp [hits, versionOf, hb] at hh
    | some r =>
      rw [hcur] at hh
      simp only
      rw [Act.answer_bind_ok _ (answer_upsert_present hs hv hst hcur)]
      simp only
      by_cases hlive : LiveFor c (s.committed.get k m.id)
      · obtain ⟨e, he, hec, hed⟩ := hlive
        have hfind := answer_find_ok (k := k) hs.faults (findById_eq_some he hec hed)
        have hold : ¬e.updatedAt < m.clientUpdatedAt := by
          intro hlww
          have := (hits_collision (v := r.version) hb).2 ⟨e, he, hec, hed, hlww⟩
          rw [show versionOf (some r) = some r.version from rfl, this] at hh
          cases hh
        rw [Act.answer_bind_ok _ hfind, Act.answer_bind_ok _ hfind]
        simp only [gt_iff_lt, hold, if_false]
      · have hfind := answer_find_error (k := k) hs.faults (findById_eq_none hlive)
        rw [Act.answer_bind_error _ hfind, Act.answer_bind_error _ hfind]
  | some b =>
    have hmiss := answer_match_miss (c := c) (b := b) hs hst (by
      rintro r hr ⟨hc, hvb⟩
      rw [hr] at hh
      have := (hits_based hb).2 ⟨(hx.owner hr).1 hc, hvb⟩
      rw [show versionOf (some r) = some r.version from rfl, this] at hh
      cases hh)
    simp only
    rw [Act.answer_bind_ok _ hmiss]

end One

/-! ## The loop -/

section Loop

variable {k : EntityType} {c : Uuid} {s s' s'' : Session NotesDb Write OffsetDateTime}

/-- Between `s` and `s'` the transaction has taken in `ms`, mutations of entity type `k`. -/
structure Advances (k : EntityType) (c : Uuid) (ms : List (Nat × Mutation k.Fields))
    (s s' : Session NotesDb Write OffsetDateTime) : Prop where
  calm : s'.Calm
  committed : s'.committed = s.committed
  now : s'.now = s.now
  grows : Extends c s.committed (s'.view notesEngine)
  same : ∀ id, (s'.view notesEngine).get k id =
    settle s.now c (s.committed.get k id) ((s.view notesEngine).get k id) (offers id ms)
  other : ∀ k' id, k' ≠ k → (s'.view notesEngine).get k' id = (s.view notesEngine).get k' id

theorem Advances.refl (hs : s.Calm) (hx : Extends c s.committed (s.view notesEngine)) :
    Advances k c [] s s where
  calm := hs
  committed := rfl
  now := rfl
  grows := hx
  same _ := rfl
  other _ _ _ := rfl

theorem Advances.trans {xs ys : List (Nat × Mutation k.Fields)} (h : Advances k c xs s s')
    (h' : Advances k c ys s' s'') : Advances k c (xs ++ ys) s s'' where
  calm := h'.calm
  committed := h'.committed.trans h.committed
  now := h'.now.trans h.now
  grows := h.committed ▸ h'.grows
  same id := by rw [h'.same id, h.now, h.committed, h.same id, ← settle_append, offers_append]
  other k' id hk := (h'.other k' id hk).trans (h.other k' id hk)

theorem Advances.checkRefs {ms : List (Nat × Mutation k.Fields)} (h : Advances k c ms s s')
    (f : k.Fields) :
    (s'.view notesEngine).checkRefs k f = (s.view notesEngine).checkRefs k f := by
  cases k with
  | folder => rfl
  | note =>
    have hfolder := fun id => h.other .folder id (by decide)
    simp only [NotesDb.checkRefs, NotesDb.checkFolder, hfolder]

/-- A mutation that does not reach its row. -/
theorem Advances.idle (hs : s.Calm) (hx : Extends c s.committed (s.view notesEngine))
    {p : Nat × Mutation k.Fields}
    (h : ∀ id, settle s.now c (s.committed.get k id) ((s.view notesEngine).get k id)
      (offers id [p]) = (s.view notesEngine).get k id) : Advances k c [p] s s where
  calm := hs
  committed := rfl
  now := rfl
  grows := hx
  same id := (h id).symm
  other _ _ _ := rfl

theorem writeTo_id {m : Mutation k.Fields} {now : OffsetDateTime} {cur : Option (Row k.Fields)}
    (h : ∀ r, cur = some r → r.id = m.id) : (m.writeTo now c cur).id = m.id := by
  cases cur with
  | none => rfl
  | some r => exact h r rfl

/-- A mutation that is written over the row the transaction shows. -/
theorem Advances.hit (hs : s.Calm) (hx : Extends c s.committed (s.view notesEngine))
    {p : Nat × Mutation k.Fields} (he : p.2.effective = true) {guard : Option Int}
    (hh : p.2.hits c (s.committed.get k p.2.id)
      (versionOf ((s.view notesEngine).get k p.2.id)) = true) :
    Advances k c [p] s
      (s.write [.put k (p.2.writeTo s.now c ((s.view notesEngine).get k p.2.id)) guard]) := by
  have hid : (p.2.writeTo s.now c ((s.view notesEngine).get k p.2.id)).id = p.2.id :=
    writeTo_id fun r hr => NotesDb.id_of_get hr
  generalize hrow : p.2.writeTo s.now c ((s.view notesEngine).get k p.2.id) = row at hid
  have hview : (s.write [.put k row guard]).view notesEngine = (s.view notesEngine).put k row :=
    Session.view_write notesEngine s _
  refine ⟨hs.write _, rfl, rfl, ?_, ?_, ?_⟩
  · rw [hview]
    -- the written row keeps the creator of the row it replaces
    have hc : ∀ r, (s.view notesEngine).get k p.2.id = some r → row.creatorId = r.creatorId := by
      intro r hr
      rw [← hrow, hr]
      rfl
    constructor
    · intro k' id r hr
      obtain ⟨r', hr', hcr⟩ := hx.keeps k' id r hr
      by_cases hkey : (k', id) = (k, row.id)
      · cases hkey
        refine ⟨row, NotesDb.get_put_self _ k row, ?_⟩
        rw [hc r' (hid ▸ hr'), hcr]
      · exact ⟨r', by rw [NotesDb.get_put_other _ k row hkey, hr'], hcr⟩
    · intro k' id r hr hn
      by_cases hkey : (k', id) = (k, row.id)
      · cases hkey
        rw [NotesDb.get_put_self] at hr
        cases hr
        cases hcur : (s.view notesEngine).get k p.2.id with
        | none =>
          rw [← hrow, hcur]
          rfl
        | some r' =>
          rw [hc r' hcur]
          exact hx.fresh k p.2.id r' hcur (hid ▸ hn)
      · rw [NotesDb.get_put_other _ k row hkey] at hr
        exact hx.fresh k' id r hr hn
  · intro id
    rw [hview]
    by_cases hk : id = p.2.id
    · subst hk
      rw [offers_cons_self he, settle_cons_hit hh, hrow]
      exact hid ▸ NotesDb.get_put_self _ k row
    · rw [offers_cons_other hk, NotesDb.get_put_same, if_neg (hid ▸ hk)]
      rfl
  · intro k' id hk'
    rw [hview, NotesDb.get_put_ne _ hk']

/-- One mutation: it ends the push exactly when it does not fit the row it meets. -/
theorem applyMutation_runs (hs : s.Calm) (hx : Extends c s.committed (s.view notesEngine))
    {p : Nat × Mutation k.Fields}
    (href : (s.view notesEngine).checkRefs k p.2.fields = .ok ()) :
    (Fits c (s.committed.get k p.2.id) ((s.view notesEngine).get k p.2.id) (offers p.2.id [p]) →
      ∃ r s', Act.answer serve (applyMutation k c p.2) s = (.ok r, s') ∧ Advances k c [p] s s' ∧
        (r.outcome = .applied ↔ ReportedApplied c (s.committed.get k p.2.id)
          ((s.view notesEngine).get k p.2.id) [] p.2)) ∧
    (¬Fits c (s.committed.get k p.2.id) ((s.view notesEngine).get k p.2.id) (offers p.2.id [p]) →
      ∃ e s', Act.answer serve (applyMutation k c p.2) s = (.error e, s')) := by
  cases he : p.2.effective with
  | false =>
    have hnil : ∀ id, offers id [p] = [] := fun id => offers_cons_idle he
    refine ⟨fun _ => ?_, fun hno => absurd (by rw [hnil]; exact fits_nil _) hno⟩
    obtain ⟨r, hr, hout⟩ := applyMutation_idle (c := c) (s := s) he
    refine ⟨r, s, hr, Advances.idle hs hx fun id => by rw [hnil]; rfl, ?_⟩
    rw [hout]
    constructor
    · intro hv
      exact ⟨hv, .inl (by simpa [effective, hv] using he)⟩
    · exact fun h => h.1
  | true =>
    have hv : p.2.valid = true := (Bool.and_eq_true_iff.1 he).1
    have hu : p.2.unpersisted = false := by simpa [effective, hv] using he
    rw [applyMutation_effective he, offers_cons_self he, offers_nil]
    by_cases hst : p.2.Storable
    swap
    · refine ⟨fun hfit => absurd (hfit.storable _ List.mem_cons_self) hst, fun _ => ?_⟩
      exact offer_unstorable hs.faults hst
    cases hh : p.2.hits c (s.committed.get k p.2.id)
        (versionOf ((s.view notesEngine).get k p.2.id)) with
    | true =>
      rw [fits_cons_hit s.now hh]
      refine ⟨fun hfit => ?_, fun hno => ?_⟩
      · refine ⟨_, _, offer_hit hs hx hv hst href rfl hh hfit.2.1, Advances.hit hs hx he hh, ?_⟩
        simp only [MutationResult.applied, true_iff]
        exact ⟨hv, .inr hh⟩
      · refine offer_full hs hx hv hst href rfl hh fun hroom => ?_
        exact hno ⟨hst, hroom, fits_nil _⟩
    | false =>
      rw [fits_cons_miss hh, offer_miss hs hx hv hst hh]
      refine ⟨?_, fun hno => ?_⟩
      · rintro ⟨_, ⟨r, hr, hc, hd⟩, _⟩
        have hfind := answer_find_ok (k := k) hs.faults (findById_eq_some hr hc hd)
        refine ⟨.conflict k (ConflictEntity.ofRow k r), s, ?_, Advances.idle hs hx ?_, ?_⟩
        · rw [Act.answer_bind_ok _ hfind]
          rfl
        · intro id
          by_cases hk : id = p.2.id
          · subst hk
            rw [offers_cons_self he, settle_cons_miss hh]
            rfl
          · rw [offers_cons_other hk]
            rfl
        · simp [MutationResult.conflict, ReportedApplied, hu, hh]
      · have hlive : ¬LiveFor c (s.committed.get k p.2.id) :=
          fun hlive => hno ⟨hst, hlive, fits_nil _⟩
        have hfind := answer_find_error (k := k) hs.faults (findById_eq_none hlive)
        exact ⟨_, _, Act.answer_bind_error _ hfind⟩

/-- What the loop reports of each mutation: applied or not, by the row it met. -/
def Reports (k : EntityType) (c : Uuid) (s : Session NotesDb Write OffsetDateTime)
    (ms : List (Nat × Mutation k.Fields)) (rs : List (Nat × MutationResult)) : Prop :=
  ∀ pre i m post, ms = pre ++ (i, m) :: post → ∃ r, (i, r) ∈ rs ∧
    (r.outcome = .applied ↔ ReportedApplied c (s.committed.get k m.id)
      ((s.view notesEngine).get k m.id) (offers m.id pre) m)

theorem ReportedApplied.shift {seen cur : Option (Row k.Fields)} {now : OffsetDateTime}
    {xs ys : List (Mutation k.Fields)} {m : Mutation k.Fields} :
    ReportedApplied c seen (settle now c seen cur xs) ys m ↔
      ReportedApplied c seen cur (xs ++ ys) m := by
  rw [ReportedApplied, ReportedApplied, versionOf_settle, after_append]

/-- The loop over mutations of one entity type goes through exactly when every row's mutations fit
the row; then it leaves every row as `settle` says. -/
theorem applyEach_runs (ms : List (Nat × Mutation k.Fields)) :
    ∀ s : Session NotesDb Write OffsetDateTime, s.Calm →
      Extends c s.committed (s.view notesEngine) →
      (∀ p ∈ ms, (s.view notesEngine).checkRefs k p.2.fields = .ok ()) →
      ((∀ id, Fits c (s.committed.get k id) ((s.view notesEngine).get k id) (offers id ms)) →
        ∃ rs s', Act.answer serve (applyEach (applyMutation k c) ms) s = (.ok rs, s') ∧
          Advances k c ms s s' ∧ Reports k c s ms rs) ∧
      ((¬∀ id, Fits c (s.committed.get k id) ((s.view notesEngine).get k id) (offers id ms)) →
        ∃ e s', Act.answer serve (applyEach (applyMutation k c) ms) s = (.error e, s')) := by
  induction ms with
  | nil =>
    intro s hs hx _
    refine ⟨fun _ => ⟨[], s, rfl, Advances.refl hs hx, ?_⟩, fun hno => ?_⟩
    · intro pre i m post h
      simp at h
    · exact absurd (fun id => fits_nil _) hno
  | cons p ms ih =>
    intro s hs hx href
    obtain ⟨hok, herr⟩ := applyMutation_runs hs hx (href p List.mem_cons_self)
    -- every row's mutations fit when the first fits its row and the rest what it leaves
    have hsplit : ∀ s₁, Advances k c [p] s s₁ →
        ((∀ id, Fits c (s.committed.get k id) ((s.view notesEngine).get k id)
            (offers id (p :: ms))) ↔
          Fits c (s.committed.get k p.2.id) ((s.view notesEngine).get k p.2.id)
            (offers p.2.id [p]) ∧
          ∀ id, Fits c (s₁.committed.get k id) ((s₁.view notesEngine).get k id)
            (offers id ms)) := by
      intro s₁ h₁
      have hcons : ∀ id, Fits c (s.committed.get k id) ((s.view notesEngine).get k id)
          (offers id (p :: ms)) ↔
          Fits c (s.committed.get k id) ((s.view notesEngine).get k id) (offers id [p]) ∧
          Fits c (s₁.committed.get k id) ((s₁.view notesEngine).get k id) (offers id ms) := by
        intro id
        rw [h₁.committed, h₁.same id, ← fits_append, ← offers_append]
        rfl
      simp only [hcons]
      constructor
      · intro h
        exact ⟨(h p.2.id).1, fun id => (h id).2⟩
      · rintro ⟨hp, h⟩ id
        refine ⟨?_, h id⟩
        by_cases hk : id = p.2.id
        · subst hk
          exact hp
        · rw [offers_cons_other hk]
          exact fits_nil _
    by_cases hfit : Fits c (s.committed.get k p.2.id) ((s.view notesEngine).get k p.2.id)
        (offers p.2.id [p])
    swap
    · refine ⟨fun hall => absurd ?_ hfit, fun _ => ?_⟩
      · have := hall p.2.id
        rw [show p :: ms = [p] ++ ms from rfl, offers_append] at this
        exact ((fits_append s.now _ _ _).1 this).1
      · obtain ⟨e, s₁, h⟩ := herr hfit
        exact ⟨e, s₁, Act.answer_bind_error _ h⟩
    obtain ⟨r, s₁, hr, h₁, hout⟩ := hok hfit
    obtain ⟨ihok, iherr⟩ := ih s₁ h₁.calm (h₁.committed ▸ h₁.grows)
      fun q hq => (h₁.checkRefs _).trans (href q (List.mem_cons_of_mem _ hq))
    rw [hsplit s₁ h₁]
    refine ⟨fun hall => ?_, fun hno => ?_⟩
    · obtain ⟨rs, s₂, hrs, h₂, hrep⟩ := ihok hall.2
      refine ⟨(p.1, r) :: rs, s₂, ?_, h₁.trans h₂, ?_⟩
      · rw [applyEach, Act.answer_bind_ok _ hr, Act.answer_bind_ok _ hrs]
        rfl
      · intro pre i m post h
        cases pre with
        | nil =>
          cases h
          exact ⟨r, List.mem_cons_self, hout⟩
        | cons q pre =>
          obtain ⟨rfl, htail⟩ := List.cons.inj h
          obtain ⟨r', hr', hout'⟩ := hrep pre i m post htail
          refine ⟨r', List.mem_cons_of_mem _ hr', ?_⟩
          rw [hout', h₁.committed, h₁.same, ReportedApplied.shift, ← offers_append]
          rfl
    · obtain ⟨e, s₂, h⟩ := iherr fun hall => hno ⟨hfit, hall⟩
      refine ⟨e, s₂, ?_⟩
      rw [applyEach, Act.answer_bind_ok _ hr, Act.answer_bind_error _ h]

end Loop

end NotesService

end Meno
