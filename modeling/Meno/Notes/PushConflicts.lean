import Meno.Notes.PushFiling

/-!
# Meno.Notes.PushConflicts

What a conflict is answered with. The current row is looked up on the pool, on another connection
than the one that the push writes on: it is the committed row, and so the row of the push's own
transaction only as long as no mutation of the batch has been written to it.
-/

namespace Meno

open Lib Mutation

/-- The version that a client is told. -/
def ConflictEntity.version : ConflictEntity → Int
  | .note n => n.version
  | .folder f => f.version

theorem ConflictEntity.version_ofRow (k : EntityType) (r : Row k.Fields) :
    (ConflictEntity.ofRow k r).version = r.version := by
  cases k <;> rfl

/-- A mutation, as one of a batch. -/
def SyncMutation.of : (k : EntityType) → Mutation k.Fields → SyncMutation
  | .note, m => .note m
  | .folder, m => .folder m

namespace NotesService

/-! ## Loops, in two parts -/

section Loops

variable {M : Type} {f : M → NotesSvc MutationResult} {s s' : Session NotesDb Write OffsetDateTime}

/-- A loop that answers has answered the mutations before a place, then the one there. -/
theorem applyEach_split {i : Nat} {m : M} {post : List (Nat × M)} :
    ∀ {pre : List (Nat × M)} {s : Session NotesDb Write OffsetDateTime}
      {rs : List (Nat × MutationResult)},
      Act.answer serve (applyEach f (pre ++ (i, m) :: post)) s = (.ok rs, s') →
      ∃ rs₁ s₁ r s₂, Act.answer serve (applyEach f pre) s = (.ok rs₁, s₁) ∧
        Act.answer serve (f m) s₁ = (.ok r, s₂) ∧ (i, r) ∈ rs := by
  intro pre
  induction pre with
  | nil =>
    intro s rs h
    rw [List.nil_append, applyEach, Act.answer_bind_eq_ok] at h
    obtain ⟨r, s₂, hr, h⟩ := h
    obtain ⟨rs₂, s₃, _, h⟩ := (Act.answer_bind_eq_ok _).1 h
    cases h
    exact ⟨[], s, r, s₂, rfl, hr, List.mem_cons_self⟩
  | cons p pre ih =>
    intro s rs h
    rw [List.cons_append, applyEach, Act.answer_bind_eq_ok] at h
    obtain ⟨r, s₂, hr, h⟩ := h
    obtain ⟨rs₂, s₃, hrs, h⟩ := (Act.answer_bind_eq_ok _).1 h
    cases h
    obtain ⟨rs₁, s₁, r', s₂', hpre, hm, hmem⟩ := ih hrs
    refine ⟨(p.1, r) :: rs₁, s₁, r', s₂', ?_, hm, List.mem_cons_of_mem _ hmem⟩
    rw [applyEach, Act.answer_bind_ok _ hr, Act.answer_bind_ok _ hpre]
    rfl

end Loops

/-! ## One mutation -/

section One

variable {k : EntityType} {c : Uuid} {m : Mutation k.Fields}
  {s s' : Session NotesDb Write OffsetDateTime}

/-- The mutation is offered to its row, the transaction's, and is not written. -/
def Misses (c : Uuid) (m : Mutation k.Fields) (s : Session NotesDb Write OffsetDateTime) : Prop :=
  m.effective = true ∧
    m.hits c (s.committed.get k m.id) (versionOf ((s.view notesEngine).get k m.id)) = false

/-- A mutation that is not offered to its row is rejected, or applied without a write. -/
theorem idle_not_conflict (he : m.effective = false) {r : MutationResult}
    (h : Act.answer serve (applyMutation k c m) s = (.ok r, s')) : r.outcome ≠ .conflict := by
  unfold applyMutation at h
  cases hr : rejection k m.fields with
  | some reason =>
    rw [hr] at h
    cases h
    exact MutationOutcome.noConfusion
  | none =>
    have hu : m.unpersisted = true := by simpa [effective, valid, hr] using he
    simp only [unpersisted, Bool.and_eq_true, Option.isNone_iff_eq_none] at hu
    rw [hr, hu.1] at h
    simp only [hu.2, if_true] at h
    cases h
    exact MutationOutcome.noConfusion

/-- A mutation that is answered as a conflict is one that is not written, and the answer is the
committed row. -/
theorem applyMutation_conflict (hs : s.Calm) (hx : Extends c s.committed (s.view notesEngine))
    (href : (s.view notesEngine).checkRefs k m.fields = .ok ()) {r : MutationResult}
    (h : Act.answer serve (applyMutation k c m) s = (.ok r, s')) :
    (r.outcome = .conflict ↔ Misses c m s) ∧ (Misses c m s →
      ∃ e, s.committed.get k m.id = some e ∧ e.creatorId = c ∧
        r.serverEntity = some (ConflictEntity.ofRow k e)) := by
  cases he : m.effective with
  | false =>
    have hno : ¬Misses c m s := fun hmiss => Bool.false_ne_true (he.symm.trans hmiss.1)
    exact ⟨iff_of_false (idle_not_conflict he h) hno, fun hmiss => absurd hmiss hno⟩
  | true =>
    have hv : m.valid = true := (Bool.and_eq_true_iff.1 he).1
    rw [applyMutation_effective he] at h
    by_cases hst : m.Storable
    swap
    · obtain ⟨e, s₁, herr⟩ := offer_unstorable (c := c) hs.faults hst
      rw [herr] at h
      cases h
    cases hh : m.hits c (s.committed.get k m.id) (versionOf ((s.view notesEngine).get k m.id)) with
    | true =>
      have hno : ¬Misses c m s := fun hmiss => Bool.false_ne_true (hmiss.2.symm.trans hh)
      refine ⟨iff_of_false ?_ hno, fun hmiss => absurd hmiss hno⟩
      by_cases hroom : (versionOf ((s.view notesEngine).get k m.id)).getD 0 < intMax
      · rw [offer_hit hs hx hv hst href rfl hh hroom] at h
        cases h
        exact MutationOutcome.noConfusion
      · obtain ⟨e, s₁, herr⟩ := offer_full hs hx hv hst href rfl hh hroom
        rw [herr] at h
        cases h
    | false =>
      rw [offer_miss hs hx hv hst hh] at h
      by_cases hlive : LiveFor c (s.committed.get k m.id)
      · obtain ⟨e, he', hc, hd⟩ := hlive
        have hfind := answer_find_ok (k := k) hs.faults (findById_eq_some he' hc hd)
        rw [Act.answer_bind_ok _ hfind] at h
        cases h
        exact ⟨iff_of_true rfl ⟨he, hh⟩, fun _ => ⟨e, he', hc, rfl⟩⟩
      · have hfind := answer_find_error (k := k) hs.faults (findById_eq_none hlive)
        rw [Act.answer_bind_error _ hfind] at h
        cases h

end One

/-! ## The loop -/

section Loop

variable {k : EntityType} {c : Uuid} {s s' : Session NotesDb Write OffsetDateTime}

/-- What a loop has answered at a place: the session in which it came to the mutation there, after
the mutations before it, and whether it answered a conflict. -/
theorem loop_conflict (hs : s.Calm) (hx : Extends c s.committed (s.view notesEngine))
    {pre post : List (Nat × Mutation k.Fields)} {i : Nat} {m : Mutation k.Fields}
    (href : ∀ p ∈ pre ++ (i, m) :: post,
      (s.view notesEngine).checkRefs k p.2.fields = .ok ())
    {rs : List (Nat × MutationResult)}
    (h : Act.answer serve (applyEach (applyMutation k c) (pre ++ (i, m) :: post)) s = (.ok rs, s')) :
    ∃ rs₁ s₁ r, Act.answer serve (applyEach (applyMutation k c) pre) s = (.ok rs₁, s₁) ∧
      Advances k c pre s s₁ ∧ (i, r) ∈ rs ∧ (r.outcome = .conflict ↔ Misses c m s₁) ∧
      (Misses c m s₁ → ∃ e, s₁.committed.get k m.id = some e ∧ e.creatorId = c ∧
        r.serverEntity = some (ConflictEntity.ofRow k e)) := by
  obtain ⟨rs₁, s₁, r, s₂, hpre, hm, hmem⟩ := applyEach_split h
  have hadv : Advances k c pre s s₁ := by
    obtain ⟨hok, herr⟩ := applyEach_runs (k := k) (c := c) pre s hs hx
      fun p hp => href p (List.mem_append_left _ hp)
    by_cases hfit : ∀ id, Fits c (s.committed.get k id) ((s.view notesEngine).get k id)
        (offers id pre)
    · obtain ⟨rs', s'', hrun, hadv, _⟩ := hok hfit
      rw [hpre] at hrun
      cases hrun
      exact hadv
    · obtain ⟨e, s'', hrun⟩ := herr hfit
      rw [hpre] at hrun
      cases hrun
  obtain ⟨hiff, hrow⟩ := applyMutation_conflict hadv.calm (hadv.committed ▸ hadv.grows)
    ((hadv.checkRefs _).trans (href (i, m) (List.mem_append_right _ List.mem_cons_self))) hm
  exact ⟨rs₁, s₁, r, hpre, hadv, hmem, hiff, hrow⟩

end Loop

/-! ## The push -/

/-- What a push runs before it comes to the `n`-th of its mutations of type `k`. -/
def pushUntil (c : Uuid) (batch : List SyncMutation) : EntityType → Nat → NotesSvc Unit
  | .folder, n => do
    beginTx
    let _ ← applyEach (applyFolderMutation c) ((folderMutations batch).take n)
  | .note, n => do
    beginTx
    let _ ← applyEach (applyFolderMutation c) (folderMutations batch)
    let owned ← ownedOf c (referencedFolderIds (noteMutations batch))
    let _ ← applyEach (fun nm => applyNoteMutation c (unfile owned nm)) ((noteMutations batch).take n)

/-- The row as it stands inside the push's transaction then. -/
def rowInPush (c : Uuid) (db : NotesDb) (now : OffsetDateTime) (batch : List SyncMutation)
    (k : EntityType) (n : Nat) (id : Uuid) : Option (Row k.Fields) :=
  ((Act.answer serve (pushUntil c batch k n) (Session.start db now [])).2.view notesEngine).get k id

section Push

variable {db db' : NotesDb} {c : Uuid} {now : OffsetDateTime} {batch : List SyncMutation}
  {rs : List MutationResult}

/-- The session of a push that has begun. -/
def begun (db : NotesDb) (now : OffsetDateTime) : Session NotesDb Write OffsetDateTime :=
  ⟨db, some [], now, []⟩

theorem answer_begin_start (db : NotesDb) (now : OffsetDateTime) :
    Act.answer serve beginTx (Session.start db now []) = (.ok (), begun db now) :=
  answer_beginTx rfl

/-- The two loops of a push that answers. -/
theorem loops_of_ok (hempty : batch ≠ [])
    (h : Txn.run notesEngine (syncPush c batch) db now [] = (.ok rs, db')) :
    ∃ frs s₂ nrs s₃,
      Act.answer serve (applyEach (applyMutation .folder c) (mutationsOf .folder batch))
        (begun db now) = (.ok frs, s₂) ∧
      Advances .folder c (mutationsOf .folder batch) (begun db now) s₂ ∧
      Act.answer serve (applyEach (applyMutation .note c) ((mutationsOf .note batch).map fun p =>
        (p.1, filedAs db c .note p.2))) s₂ = (.ok nrs, s₃) ∧
      rs = inOrder (frs ++ nrs) ∧ frs.map Prod.fst = (mutationsOf .folder batch).map Prod.fst ∧
      nrs.map Prod.fst = (mutationsOf .note batch).map Prod.fst := by
  obtain ⟨hfits, _⟩ := pushed_of_ok h
  obtain ⟨frs, s₂, hfrs, hadv, _⟩ := (folderLoop_runs c batch (s := begun db now) ⟨rfl, rfl⟩ rfl).1
    (hfits .folder)
  have hcom : s₂.committed = db := hadv.committed
  have hgrows : Extends c s₂.committed (s₂.view notesEngine) := by
    rw [hcom]
    exact hadv.grows
  have hnotes : ∀ id, (s₂.view notesEngine).get .note id = s₂.committed.get .note id := by
    intro id
    rw [hcom]
    exact hadv.other .note id (by decide)
  obtain ⟨nrs, s₃, hnrs, hadv', _⟩ := (noteLoop_runs c batch hadv.calm hgrows hnotes).1
    (by rw [hcom]; exact hfits .note)
  have howned := answer_ownedOf (c := c) hadv.calm.faults (referencedFolderIds (noteMutations batch))
  have hrun : Act.answer serve (syncPush c batch) (Session.start db now []) =
      (.ok (inOrder (frs ++ nrs)), { s₃ with committed := s₃.view notesEngine, txn := none }) := by
    rw [syncPush_eq hempty (length_le_of_ok h)]
    refine (Act.answer_bind_ok _ (answer_begin_start db now)).trans ?_
    refine (Act.answer_bind_ok _ hfrs).trans ?_
    refine (Act.answer_bind_ok _ howned).trans ?_
    refine (Act.answer_bind_ok _ hnrs).trans ?_
    exact Act.answer_bind_ok _ (answer_commitTx hadv'.calm.faults)
  rw [Txn.run_eq hrun] at h
  have hfn : frs.map Prod.fst = (mutationsOf .folder batch).map Prod.fst :=
    numbers_of_loop (k := .folder) (g := fun m => m) (fun _ => rfl) (fun _ => rfl) hfrs
  have hnn : nrs.map Prod.fst = (mutationsOf .note batch).map Prod.fst :=
    numbers_of_loop (k := .note) (unfile_id _) (fun _ => rfl) hnrs
  have hprog := @noteLoop_eq s₂.committed c batch (noteMutations batch) fun p hp => hp
  rw [hprog, hcom] at hnrs
  exact ⟨frs, s₂, nrs, s₃, hfrs, hadv, hnrs, (Except.ok.inj (Prod.mk.inj h).1).symm, hfn, hnn⟩

/-- What a push has answered at a place: `row` is the row of its transaction when it comes there. -/
structure AnsweredAt (c : Uuid) (db : NotesDb) {k : EntityType} (m : Mutation k.Fields)
    (row : Option (Row k.Fields)) (r : MutationResult) : Prop where
  conflict : r.outcome = .conflict ↔
    m.effective = true ∧ m.hits c (db.get k m.id) (versionOf row) = false
  entity : r.outcome = .conflict → ∃ e, db.get k m.id = some e ∧ e.creatorId = c ∧
    r.serverEntity = some (ConflictEntity.ofRow k e)

/-- In every place of its batch: the row there is what the mutations before it leave. -/
theorem answered_at (h : Txn.run notesEngine (syncPush c batch) db now [] = (.ok rs, db'))
    {k : EntityType} {pre post : List (Nat × Mutation k.Fields)} {i : Nat} {m : Mutation k.Fields}
    (hsplit : mutationsOf k batch = pre ++ (i, m) :: post) :
    ∃ r, rs[i]? = some r ∧ AnsweredAt c db m (rowInPush c db now batch k pre.length m.id) r ∧
      rowInPush c db now batch k pre.length m.id =
        settle now c (db.get k m.id) (db.get k m.id)
          ((offers m.id pre).map (filedAs db c k)) := by
  have hempty : batch ≠ [] := by
    rintro rfl
    simp [mutationsOf, select] at hsplit
  obtain ⟨frs, s₂, nrs, s₃, hfrs, hadv, hnrs, rfl, hfn, hnn⟩ := loops_of_ok hempty h
  simp only [getElem?_inOrder (numbers_perm hfn hnn), List.mem_append]
  cases k with
  | folder =>
    rw [hsplit] at hfrs
    obtain ⟨rs₁, s₁, r, hpre, hadv₁, hmem, hiff, hrow⟩ :=
      loop_conflict ⟨rfl, rfl⟩ (Extends.refl c db) (fun _ _ => rfl) hfrs
    have hview : rowInPush c db now batch .folder pre.length m.id =
        (s₁.view notesEngine).get .folder m.id := by
      have htake : (folderMutations batch).take pre.length = pre := by
        rw [show folderMutations batch = pre ++ (i, m) :: post from hsplit, List.take_left]
      have hrun : Act.answer serve (pushUntil c batch .folder pre.length) (Session.start db now []) =
          (.ok (), s₁) := by
        rw [pushUntil, htake]
        refine (Act.answer_bind_ok _ (answer_begin_start db now)).trans ?_
        exact Act.answer_bind_ok _ hpre
      rw [rowInPush, hrun]
    have hcom : s₁.committed = db := hadv₁.committed
    refine ⟨r, .inl hmem, ⟨?_, ?_⟩, ?_⟩
    · rw [hiff, hview, Misses, hcom]
    · intro hr
      have := hrow (hiff.1 hr)
      rwa [hcom] at this
    · rw [hview, hadv₁.same]
      exact congrArg _ (List.map_id' _).symm
  | note =>
    have hcom₂ : s₂.committed = db := hadv.committed
    have hnotes₂ : ∀ id, (s₂.view notesEngine).get .note id = db.get .note id :=
      fun id => hadv.other .note id (by decide)
    have href : ∀ p ∈ (mutationsOf .note batch).map (fun p => (p.1, filedAs db c .note p.2)),
        (s₂.view notesEngine).checkRefs .note p.2.fields = .ok () := by
      intro p hp
      obtain ⟨q, _, rfl⟩ := List.mem_map.1 hp
      exact checkFolder_filedAs hadv.grows q.2
    rw [hsplit, List.map_append, List.map_cons] at hnrs href
    obtain ⟨rs₁, s₁, r, hpre, hadv₁, hmem, hiff, hrow⟩ :=
      loop_conflict hadv.calm (hcom₂ ▸ hadv.grows) href hnrs
    have hview : rowInPush c db now batch .note pre.length m.id =
        (s₁.view notesEngine).get .note m.id := by
      have htake : (noteMutations batch).take pre.length = pre := by
        rw [show noteMutations batch = pre ++ (i, m) :: post from hsplit, List.take_left]
      have hsub : ∀ p ∈ pre, p ∈ noteMutations batch := fun p hp => by
        rw [show noteMutations batch = pre ++ (i, m) :: post from hsplit]
        exact List.mem_append_left _ hp
      have howned := answer_ownedOf (c := c) hadv.calm.faults
        (referencedFolderIds (noteMutations batch))
      rw [hcom₂] at howned
      rw [← noteLoop_eq hsub] at hpre
      have hrun : Act.answer serve (pushUntil c batch .note pre.length) (Session.start db now []) =
          (.ok (), s₁) := by
        rw [pushUntil, htake]
        refine (Act.answer_bind_ok _ (answer_begin_start db now)).trans ?_
        refine (Act.answer_bind_ok _ hfrs).trans ?_
        refine (Act.answer_bind_ok _ howned).trans ?_
        exact Act.answer_bind_ok _ hpre
      rw [rowInPush, hrun]
    have hcom₁ : s₁.committed = db := hadv₁.committed.trans hcom₂
    refine ⟨r, .inr hmem, ⟨?_, ?_⟩, ?_⟩
    · rw [hiff, hview, Misses, hcom₁, filedAs_id, filedAs_effective, filedAs_hits]
    · intro hr
      have := hrow (hiff.1 hr)
      rwa [hcom₁, filedAs_id] at this
    · have hsame := hadv₁.same m.id
      rw [hview, hsame, hcom₂, hnotes₂, hadv.now, offers_filedAs]
      rfl

/-- Every conflict is answered with the row as it stands in the push's transaction when the push
comes to the mutation. -/
def ConflictsCurrent (c : Uuid) (db : NotesDb) (now : OffsetDateTime) (batch : List SyncMutation)
    (rs : List MutationResult) : Prop :=
  ∀ k n i (m : Mutation k.Fields), (mutationsOf k batch)[n]? = some (i, m) →
    ∀ r, rs[i]? = some r → r.outcome = .conflict →
      r.serverEntity = (rowInPush c db now batch k n m.id).map (ConflictEntity.ofRow k)

/-- A mutation that is offered to a row after another of the batch has been written to it is
written, too. -/
def WritesGoOn (c : Uuid) (db : NotesDb) (batch : List SyncMutation) : Prop :=
  ∀ k pre i (m : Mutation k.Fields) post, mutationsOf k batch = pre ++ (i, m) :: post →
    m.effective = true → landedOn c (db.get k m.id) (db.get k m.id) (offers m.id pre) ≠ [] →
      m.hits c (db.get k m.id)
        (after (hits c (db.get k m.id)) (versionOf (db.get k m.id)) (offers m.id pre)) = true

theorem settle_unwritten {k : EntityType} {seen cur : Option (Row k.Fields)} (now : OffsetDateTime)
    {ms : List (Mutation k.Fields)} (hms : ∀ m ∈ ms, m.unpersisted = false)
    (hnil : landedOn c seen cur ms = []) :
    settle now c seen cur (ms.map (filedAs db c k)) = cur := by
  have hms' : ∀ m ∈ ms.map (filedAs db c k), m.unpersisted = false := by
    intro m hm
    obtain ⟨m', hm', rfl⟩ := List.mem_map.1 hm
    rw [filedAs_unpersisted]
    exact hms m' hm'
  rcases settle_spec now c seen _ hms' cur with ⟨_, hs⟩ | ⟨m, r, hlast, _⟩
  · exact hs
  · rw [landedOn_filedAs, hnil] at hlast
    cases hlast

/-- The row that the mutations before a place leave is the committed one when none is written. -/
theorem row_eq_iff {k : EntityType} {e : Row k.Fields} (now : OffsetDateTime)
    {ms : List (Mutation k.Fields)} (hms : ∀ m ∈ ms, m.unpersisted = false) :
    (settle now c (some e) (some e) (ms.map (filedAs db c k))).map (ConflictEntity.ofRow k) =
      some (ConflictEntity.ofRow k e) ↔ landedOn c (some e) (some e) ms = [] := by
  constructor
  · intro hsame
    obtain ⟨row, hrow, hof⟩ := Option.map_eq_some_iff.1 hsame
    have hv : (versionOf (settle now c (some e) (some e) (ms.map (filedAs db c k)))).getD 0 =
        e.version := by
      rw [hrow]
      have := congrArg ConflictEntity.version hof
      rwa [ConflictEntity.version_ofRow, ConflictEntity.version_ofRow] at this
    rw [versionOf_settle, after_filedAs, after_getD] at hv
    have hlen : (landedOn c (some e) (some e) ms).length = 0 := by
      have hv : e.version + ((landedOn c (some e) (some e) ms).length : Int) = e.version := hv
      omega
    exact List.eq_nil_of_length_eq_zero hlen
  · intro hnil
    rw [settle_unwritten now hms hnil]
    rfl

theorem split_of_getElem? {α : Type} {l : List α} {n : Nat} {a : α} (h : l[n]? = some a) :
    ∃ pre post, l = pre ++ a :: post ∧ pre.length = n := by
  obtain ⟨hn, rfl⟩ := List.getElem?_eq_some_iff.1 h
  exact ⟨l.take n, l.drop (n + 1), by simp, by simp; omega⟩

theorem conflictsCurrent_iff (h : Txn.run notesEngine (syncPush c batch) db now [] = (.ok rs, db')) :
    ConflictsCurrent c db now batch rs ↔ WritesGoOn c db batch := by
  constructor
  · intro hcurrent k pre i m post hsplit he hlanded
    obtain ⟨r, hr, hans, hrow⟩ := answered_at h hsplit
    by_contra hmiss
    have hver : versionOf (rowInPush c db now batch k pre.length m.id) =
        after (hits c (db.get k m.id)) (versionOf (db.get k m.id)) (offers m.id pre) := by
      rw [hrow, versionOf_settle, after_filedAs]
    have hconflict := hans.conflict.2 ⟨he, by rw [hver]; simpa using hmiss⟩
    obtain ⟨e, hget, _, hentity⟩ := hans.entity hconflict
    have hplace : (mutationsOf k batch)[pre.length]? = some (i, m) := by
      rw [hsplit]
      simp
    have hsame := hcurrent k pre.length i m hplace r hr hconflict
    rw [hentity, hrow, hget] at hsame
    rw [hget] at hlanded
    exact hlanded ((row_eq_iff now unpersisted_of_mem_offers).1 hsame.symm)
  · intro hgoes k n i m hplace r hr hconflict
    obtain ⟨pre, post, hsplit, rfl⟩ := split_of_getElem? hplace
    obtain ⟨r', hr', hans, hrow⟩ := answered_at h hsplit
    rw [hr] at hr'
    cases hr'
    obtain ⟨he, hmiss⟩ := hans.conflict.1 hconflict
    obtain ⟨e, hget, _, hentity⟩ := hans.entity hconflict
    have hnil : landedOn c (db.get k m.id) (db.get k m.id) (offers m.id pre) = [] := by
      by_contra hlanded
      have hhit := hgoes k pre i m post hsplit he hlanded
      rw [hrow, versionOf_settle, after_filedAs, hhit] at hmiss
      cases hmiss
    rw [hentity, hrow, hget]
    rw [hget] at hnil
    exact ((row_eq_iff now unpersisted_of_mem_offers).2 hnil).symm

/-! ## Resubmitting -/

/-- Whoever was answered a conflict, and by nothing of the batch since then, resubmits with the
version that was returned, and succeeds if nobody else has written. -/
def ConflictsResolve (c : Uuid) (db' : NotesDb) (batch : List SyncMutation)
    (rs : List MutationResult) : Prop :=
  ∀ k (pre : List (Nat × Mutation k.Fields)) i m post,
    mutationsOf k batch = pre ++ (i, m) :: post → (∀ p ∈ post, p.2.id ≠ m.id) → ∀ (r : MutationResult) (e : ConflictEntity),
      rs[i]? = some r → r.outcome = .conflict → r.serverEntity = some e →
      e.version < intMax → ∀ m' : Mutation k.Fields, m'.id = m.id → m'.baseVersion = some e.version →
          m'.valid = true → m'.Storable → ∀ now',
            ∃ r' db'', Txn.run notesEngine (syncPush c [SyncMutation.of k m']) db' now' [] =
              (.ok [r'], db'') ∧ r'.outcome = .applied

theorem mutationsOf_of {k : EntityType} (m : Mutation k.Fields) :
    mutationsOf k [SyncMutation.of k m] = [(0, m)] := by
  cases k <;> rfl

theorem mutationsOf_of_ne {k k' : EntityType} (hk : k' ≠ k) (m : Mutation k.Fields) :
    mutationsOf k' [SyncMutation.of k m] = [] := by
  cases k <;> cases k' <;> first | rfl | exact absurd rfl hk

/-- A mutation that names the version of a row of the caller's is applied to it. -/
theorem resubmit_applied {k : EntityType} {m : Mutation k.Fields} {row : Row k.Fields}
    (hrow : db.get k m.id = some row) (hc : row.creatorId = c) (hb : m.baseVersion = some row.version)
    (hroom : row.version < intMax) (hv : m.valid = true) (hst : m.Storable) (now : OffsetDateTime) :
    ∃ r db', Txn.run notesEngine (syncPush c [SyncMutation.of k m]) db now [] = (.ok [r], db') ∧
      r.outcome = .applied := by
  have hu : m.unpersisted = false := by simp [unpersisted, hb]
  have he : m.effective = true := by simp [effective, hv, hu]
  have hhit : m.hits c (db.get k m.id) (versionOf (db.get k m.id)) = true := by
    rw [hrow]
    exact (hits_based hb).2 ⟨by simp [hc], rfl⟩
  have hfits : PushFits c db [SyncMutation.of k m] := by
    intro k' id
    by_cases hk : k' = k
    · subst hk
      rw [mutationsOf_of]
      by_cases hid : id = m.id
      · subst hid
        rw [offers_cons_self (p := (0, m)) he, offers_nil, fits_cons_hit now hhit, hrow]
        exact ⟨hst, hroom, fits_nil _⟩
      · rw [offers_cons_other hid]
        exact fits_nil _
    · rw [mutationsOf_of_ne hk]
      exact fits_nil _
  obtain ⟨rs, db', hrun, hp⟩ := (syncPush_runs c db now (by simp [maxMutationsPerPush])).1 hfits
  obtain ⟨r, hr, hout⟩ := hp.reports k [] 0 m [] (mutationsOf_of m)
  have hlen : rs.length = 1 := by
    have hends := syncPush_ends db now [] c [SyncMutation.of k m]
    rw [hrun] at hends
    exact hends.1
  obtain ⟨x, rfl⟩ := List.length_eq_one_iff.1 hlen
  cases hr
  exact ⟨r, db', hrun, hout.2 ⟨hv, .inr hhit⟩⟩

theorem conflictsResolve_of_current
    (h : Txn.run notesEngine (syncPush c batch) db now [] = (.ok rs, db'))
    (hcurrent : ConflictsCurrent c db now batch rs) : ConflictsResolve c db' batch rs := by
  intro k pre i m post hsplit hlast r e hr hconflict hentity hroom m' hid hb hv hst now'
  obtain ⟨_, hp⟩ := pushed_of_ok h
  obtain ⟨r', hr', hans, hrow⟩ := answered_at h hsplit
  rw [hr] at hr'
  cases hr'
  obtain ⟨he, hmiss⟩ := hans.conflict.1 hconflict
  obtain ⟨e₀, hget, hc, hentity₀⟩ := hans.entity hconflict
  obtain rfl : ConflictEntity.ofRow k e₀ = e := Option.some.inj (hentity₀.symm.trans hentity)
  -- the row that the push leaves is the one that it had when it came to the mutation
  have hleft : db'.get k m.id = rowInPush c db now batch k pre.length m.id := by
    have hpost : offers m.id post = [] := by
      rw [offers, List.filter_eq_nil_iff]
      intro x hx
      obtain ⟨p, hpm, rfl⟩ := List.mem_map.1 hx
      simp [hlast p hpm]
    have hmissed : (filedAs db c k m).hits c (db.get k m.id)
        (versionOf (rowInPush c db now batch k pre.length m.id)) = false := by
      rw [filedAs_hits, hmiss]
    rw [hp.rows, hsplit, offers_append, offers_cons_self (p := (i, m)) he, hpost, List.map_append,
      settle_append, ← hrow, List.map_cons, settle_cons_miss hmissed]
    rfl
  have hplace : (mutationsOf k batch)[pre.length]? = some (i, m) := by
    rw [hsplit]
    simp
  have hsame := hcurrent k pre.length i m hplace r hr hconflict
  rw [hentity₀, hrow, hget] at hsame
  have hnil := (row_eq_iff now unpersisted_of_mem_offers).1 hsame.symm
  rw [hrow, hget, settle_unwritten now unpersisted_of_mem_offers hnil] at hleft
  rw [ConflictEntity.version_ofRow] at hroom hb
  rw [← hid] at hleft
  exact resubmit_applied hleft hc hb hroom hv hst now'

/-- Every conflict of a successful push is answered with the row as it stands inside the push,
exactly when no mutation of the batch misses a row that another one of the batch has been written
to before; and then whoever resubmits succeeds. -/
theorem syncPush_conflicts_iff (c : Uuid) (db db' : NotesDb) (now : OffsetDateTime)
    (faults : List Bool) (batch : List SyncMutation) (rs : List MutationResult)
    (h : Txn.run notesEngine (syncPush c batch) db now faults = (.ok rs, db')) :
    (ConflictsCurrent c db now batch rs ↔ WritesGoOn c db batch) ∧
      (ConflictsCurrent c db now batch rs → ConflictsResolve c db' batch rs) := by
  have hcalm := Txn.run_ok_calm (failFast_syncPush batch) h
  exact ⟨conflictsCurrent_iff hcalm, conflictsResolve_of_current hcalm⟩

/-- The fresh note, edited on a device that has seen its first version. -/
def editedOnce : NoteMutation := { freshNote with baseVersion := some 1 }

/-- An edit from a version that is gone, and a new note. -/
def staleBatch : List SyncMutation :=
  [.note { freshNote with baseVersion := some 9 }, .note { freshNote with id := ⟨4⟩ }]

theorem syncPush_conflicts_once :
    ∃ rs db', Txn.run notesEngine (syncPush ⟨7⟩ staleBatch) storedOnce 20 [] = (.ok rs, db') ∧
      rs.map (·.outcome) = [.conflict, .applied] ∧
      (ConflictsCurrent ⟨7⟩ storedOnce 20 staleBatch rs ↔ WritesGoOn ⟨7⟩ storedOnce staleBatch) ∧
      (ConflictsCurrent ⟨7⟩ storedOnce 20 staleBatch rs →
        ConflictsResolve ⟨7⟩ db' staleBatch rs) :=
  ⟨_, _, rfl, rfl, syncPush_conflicts_iff ⟨7⟩ storedOnce _ 20 [] staleBatch _ rfl⟩

/-- Two edits from the same version: the second is answered with the row before the first, whose
version is no longer right inside the push. -/
theorem second_edit_stale :
    ∃ rs db', Txn.run notesEngine (syncPush ⟨7⟩ [.note editedOnce, .note editedOnce]) storedOnce 20
        [] = (.ok rs, db') ∧
      ¬ConflictsCurrent ⟨7⟩ storedOnce 20 [.note editedOnce, .note editedOnce] rs := by
  refine ⟨_, _, rfl, fun h => ?_⟩
  have hstale := h .note 1 1 editedOnce rfl _ rfl rfl
  have hversion : some (1 : Int) = some 2 := congrArg (Option.map ConflictEntity.version) hstale
  exact absurd hversion (by decide)

end Push

end NotesService

end Meno
