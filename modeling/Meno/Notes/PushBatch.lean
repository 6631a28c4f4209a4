import Meno.Notes.PushRefinement
import Meno.Notes.PushResults
import Mathlib.Data.List.Dedup

/-!
# Meno.Notes.PushBatch

A whole push. `syncPush_runs` says what it does in terms of the rows alone: it succeeds exactly
when the mutations of every id fit their row, it leaves the row that they settle on, and it
reports each mutation by the row it met. From this: when a push of a batch answers at all.

`OneBadMutation` is the input that breaks the promise that one bad mutation does not poison the
batch: a mutation whose row the lookup for the conflict answer does not find.
-/

namespace Meno

open Lib Mutation

/-! ## Notes as they are filed -/

def ownsFolder (db : NotesDb) (c f : Uuid) : Bool := (db.get .folder f).any (·.creatorId == c)

/-- The mutation as a push from `db` applies it: a note stays filed only in a folder that is the
caller's in the committed database. -/
def filedAs (db : NotesDb) (c : Uuid) : (k : EntityType) → Mutation k.Fields → Mutation k.Fields
  | .folder, m => m
  | .note, m => { m with fields := {
      m.fields with folderId := m.fields.folderId.filter (ownsFolder db c) } }

section FiledAs

variable {db : NotesDb} {c : Uuid} {k : EntityType} {m : Mutation k.Fields}

@[simp] theorem filedAs_id : (filedAs db c k m).id = m.id := by cases k <;> rfl

@[simp] theorem filedAs_deleted : (filedAs db c k m).deleted = m.deleted := by cases k <;> rfl

@[simp] theorem filedAs_unpersisted : (filedAs db c k m).unpersisted = m.unpersisted := by
  cases k <;> rfl

@[simp] theorem filedAs_valid : (filedAs db c k m).valid = m.valid := by cases k <;> rfl

@[simp] theorem filedAs_effective : (filedAs db c k m).effective = m.effective := by
  cases k <;> rfl

theorem filedAs_storable : (filedAs db c k m).Storable ↔ m.Storable := by cases k <;> rfl

@[simp] theorem filedAs_hits {seen : Option (Row k.Fields)} {v : Option Int} :
    (filedAs db c k m).hits c seen v = m.hits c seen v := by cases k <;> rfl

end FiledAs

theorem mem_ownedFolderIds {db : NotesDb} {c f : Uuid} {ids : List Uuid} :
    f ∈ ownedFolderIds db c ids ↔ ownsFolder db c f = true ∧ f ∈ ids := by
  simp only [ownedFolderIds, ownsFolder, List.mem_map, List.mem_filter, Bool.and_eq_true,
    beq_iff_eq, List.contains_iff_mem, Option.any_eq_true]
  constructor
  · rintro ⟨r, ⟨hr, hc, hids⟩, rfl⟩
    exact ⟨⟨r, Lib.Table.mem_rows_iff.1 hr, hc⟩, hids⟩
  · rintro ⟨⟨r, hr, hc⟩, hids⟩
    have hid : r.id = f := NotesDb.id_of_get hr
    subst hid
    exact ⟨r, ⟨Lib.Table.mem_rows_iff.2 hr, hc, hids⟩, rfl⟩

namespace NotesService

theorem mem_referencedFolderIds {nms : List (Nat × NoteMutation)} {p : Nat × NoteMutation}
    (hp : p ∈ nms) {f : Uuid} (hf : p.2.fields.folderId = some f) :
    f ∈ referencedFolderIds nms :=
  List.mem_dedup.2 (List.mem_filterMap.2 ⟨p, hp, hf⟩)

theorem unfile_eq {db : NotesDb} {c : Uuid} {nms : List (Nat × NoteMutation)}
    {p : Nat × NoteMutation} (hp : p ∈ nms) :
    unfile (ownedFolderIds db c (referencedFolderIds nms)) p.2 = filedAs db c .note p.2 := by
  have hcontains : ∀ f, p.2.fields.folderId = some f →
      (ownedFolderIds db c (referencedFolderIds nms)).contains f = ownsFolder db c f := by
    intro f hf
    rw [Bool.eq_iff_iff, List.contains_iff_mem, mem_ownedFolderIds]
    exact and_iff_left (mem_referencedFolderIds hp hf)
  generalize ownedFolderIds db c (referencedFolderIds nms) = owned at hcontains
  obtain ⟨i, ⟨id, ⟨title, content, pinned, folderId⟩, deleted, base, clock⟩⟩ := p
  cases folderId with
  | none => rfl
  | some f =>
    have howned : owned.contains f = ownsFolder db c f := hcontains f rfl
    simp only [unfile, filedAs, howned, Option.filter]
    cases ownsFolder db c f <;> rfl

/-! ## The steps of a push -/

section Steps

variable {k : EntityType} {c : Uuid} {s : Session NotesDb Write OffsetDateTime}

theorem answer_ownedOf (hf : s.faults = []) (ids : List Uuid) :
    Act.answer serve (ownedOf c ids) s = (.ok (ownedFolderIds s.committed c ids), s) := by
  unfold ownedOf
  by_cases hids : ids.isEmpty = true
  · rw [if_pos hids]
    rw [List.isEmpty_iff] at hids
    subst hids
    have hnil : ownedFolderIds s.committed c [] = [] := by simp [ownedFolderIds]
    rw [hnil]
    rfl
  · rw [if_neg hids, query, Act.answer_ask, serve, Session.handle_read notesEngine hf]
    rfl

theorem answer_beginTx (hf : s.faults = []) :
    Act.answer serve beginTx s = (.ok (), { s with txn := some [] }) := by
  rw [beginTx, Act.answer_ask, serve, Session.handle_begin notesEngine hf]

theorem answer_commitTx (hf : s.faults = []) :
    Act.answer serve commitTx s =
      (.ok (), { s with committed := s.view notesEngine, txn := none }) := by
  rw [commitTx, Act.answer_ask, serve, Session.handle_commit notesEngine hf]

theorem applyEach_map {M N : Type} {f : M → NotesSvc MutationResult}
    {f' : N → NotesSvc MutationResult} {g : M → N} :
    ∀ {ms : List (Nat × M)}, (∀ p ∈ ms, f p.2 = f' (g p.2)) →
      applyEach f ms = applyEach f' (ms.map fun p => (p.1, g p.2)) := by
  intro ms
  induction ms with
  | nil => intro _; rfl
  | cons p ms ih =>
    intro h
    rw [List.map_cons, applyEach, applyEach, h p List.mem_cons_self,
      ih fun q hq => h q (List.mem_cons_of_mem _ hq)]

theorem offers_filedAs {db : NotesDb} {id : Uuid} (ms : List (Nat × Mutation k.Fields)) :
    offers id (ms.map fun p => (p.1, filedAs db c k p.2)) = (offers id ms).map (filedAs db c k) := by
  induction ms with
  | nil => rfl
  | cons p ms ih =>
    rw [List.map_cons]
    by_cases he : p.2.effective = true
    · by_cases hid : id = p.2.id
      · subst hid
        have h : offers (filedAs db c k p.2).id ((p.1, filedAs db c k p.2) ::
            ms.map fun p => (p.1, filedAs db c k p.2)) =
            filedAs db c k p.2 :: offers (filedAs db c k p.2).id
              (ms.map fun p => (p.1, filedAs db c k p.2)) :=
          offers_cons_self (by simpa using he)
        simp only [filedAs_id] at h
        rw [h, offers_cons_self he, List.map_cons, ih]
      · rw [offers_cons_other hid, offers_cons_other (by simpa using hid), ih]
    · have he : p.2.effective = false := by simpa using he
      rw [offers_cons_idle he, offers_cons_idle (by simpa using he), ih]

theorem landedOn_filedAs (db : NotesDb) (c : Uuid) (seen cur : Option (Row k.Fields))
    (ms : List (Mutation k.Fields)) :
    landedOn c seen cur (ms.map (filedAs db c k)) =
      (landedOn c seen cur ms).map (filedAs db c k) :=
  landed_map (fun _ _ => filedAs_hits) ms _

theorem fits_filedAs {db : NotesDb} {seen cur : Option (Row k.Fields)}
    (ms : List (Mutation k.Fields)) :
    Fits c seen cur (ms.map (filedAs db c k)) ↔ Fits c seen cur ms := by
  have hlen : (landedOn c seen cur (ms.map (filedAs db c k))).length =
      (landedOn c seen cur ms).length := by rw [landedOn_filedAs, List.length_map]
  have hnil : landedOn c seen cur (ms.map (filedAs db c k)) = [] ↔ landedOn c seen cur ms = [] := by
    rw [landedOn_filedAs, List.map_eq_nil_iff]
  -- everything lands when as many land as there are
  have hall : landedOn c seen cur (ms.map (filedAs db c k)) = ms.map (filedAs db c k) ↔
      landedOn c seen cur ms = ms := by
    constructor
    · intro h
      refine (landed_sublist _ ms _).eq_of_length ?_
      have hl := congrArg List.length h
      rw [hlen, List.length_map] at hl
      exact hl
    · intro h
      rw [landedOn_filedAs, h]
  constructor
  · rintro ⟨hst, hmet, hroom⟩
    refine ⟨?_, hmet.imp_left hall.1, ?_⟩
    · intro m hm
      exact filedAs_storable.1 (hst _ (List.mem_map_of_mem hm))
    · intro h
      rw [← hlen]
      exact hroom fun h' => h (hnil.1 h')
  · rintro ⟨hst, hmet, hroom⟩
    refine ⟨?_, hmet.imp_left hall.2, ?_⟩
    · intro m hm
      obtain ⟨m', hm', rfl⟩ := List.mem_map.1 hm
      exact filedAs_storable.2 (hst m' hm')
    · intro h
      rw [hlen]
      exact hroom fun h' => h (hnil.2 h')

theorem after_filedAs {db : NotesDb} {seen : Option (Row k.Fields)} (ms : List (Mutation k.Fields)) :
    ∀ v : Option Int,
      after (hits c seen) v (ms.map (filedAs db c k)) = after (hits c seen) v ms := by
  induction ms with
  | nil => intro v; rfl
  | cons x ms ih =>
    intro v
    cases h : x.hits c seen v with
    | true => rw [List.map_cons, after_cons_hit h, after_cons_hit (by rw [filedAs_hits, h]), ih]
    | false => rw [List.map_cons, after_cons_miss h, after_cons_miss (by rw [filedAs_hits, h]), ih]

theorem reportedApplied_filedAs {db : NotesDb} {seen cur : Option (Row k.Fields)}
    {before : List (Mutation k.Fields)} {m : Mutation k.Fields} :
    ReportedApplied c seen cur (before.map (filedAs db c k)) (filedAs db c k m) ↔
      ReportedApplied c seen cur before m := by
  simp only [ReportedApplied, filedAs_valid, filedAs_unpersisted, filedAs_hits, after_filedAs]

end Steps

/-! ## The batch -/

section Batch

variable {db db' : NotesDb} {c : Uuid} {now : OffsetDateTime} {batch : List SyncMutation}

/-- Every mutation of the batch fits the row it meets. -/
def PushFits (c : Uuid) (db : NotesDb) (batch : List SyncMutation) : Prop :=
  ∀ k id, Fits c (db.get k id) (db.get k id) (offers id (mutationsOf k batch))

/-- A successful push: the rows it leaves and what it reports. -/
structure Pushed (db : NotesDb) (c : Uuid) (now : OffsetDateTime) (batch : List SyncMutation)
    (rs : List MutationResult) (db' : NotesDb) : Prop where
  rows : ∀ k id, db'.get k id = settle now c (db.get k id) (db.get k id)
    ((offers id (mutationsOf k batch)).map (filedAs db c k))
  reports : ∀ k pre i (m : Mutation k.Fields) post, mutationsOf k batch = pre ++ (i, m) :: post →
    ∃ r, rs[i]? = some r ∧ (r.outcome = .applied ↔
      ReportedApplied c (db.get k m.id) (db.get k m.id) (offers m.id pre) m)

/-- The numbers of a loop's results are those of its mutations. -/
theorem numbers_of_loop {k : EntityType} {f : Mutation k.Fields → NotesSvc MutationResult}
    {g : Mutation k.Fields → Mutation k.Fields} (hg : ∀ m, (g m).id = m.id)
    (hf : ∀ m, f m = applyMutation k c (g m)) {ms : List (Nat × Mutation k.Fields)}
    {s s' : Session NotesDb Write OffsetDateTime} {rs : List (Nat × MutationResult)}
    (h : Act.answer serve (applyEach f ms) s = (.ok rs, s')) :
    rs.map Prod.fst = ms.map Prod.fst := by
  have hwp := applyEach_answers hg hf ms s rfl
  unfold Act.wp at hwp
  have h : Act.answer (Session.handle notesEngine) (applyEach f ms) s = (.ok rs, s') := h
  rw [h] at hwp
  exact (hwp.2 rs rfl).numbers

/-- The folder loop meets the rows as they are. -/
theorem folderLoop_runs (c : Uuid) (batch : List SyncMutation)
    {s : Session NotesDb Write OffsetDateTime} (hs : s.Calm)
    (hview : s.view notesEngine = s.committed) :
    ((∀ id, Fits c (s.committed.get .folder id) (s.committed.get .folder id)
        (offers id (mutationsOf .folder batch))) →
      ∃ rs s', Act.answer serve (applyEach (applyFolderMutation c) (folderMutations batch)) s =
        (.ok rs, s') ∧ Advances .folder c (mutationsOf .folder batch) s s' ∧
        Reports .folder c s (mutationsOf .folder batch) rs) ∧
    ((¬∀ id, Fits c (s.committed.get .folder id) (s.committed.get .folder id)
        (offers id (mutationsOf .folder batch))) →
      ∃ e s', Act.answer serve (applyEach (applyFolderMutation c) (folderMutations batch)) s =
        (.error e, s')) := by
  have h := applyEach_runs (k := .folder) (c := c) (mutationsOf .folder batch) s hs
    (hview ▸ Extends.refl c s.committed) (fun _ _ => rfl)
  rw [hview] at h
  exact h

theorem checkFolder_filedAs {db V : NotesDb} (hx : Extends c db V) (m : NoteMutation) :
    V.checkRefs .note (filedAs db c .note m).fields = .ok () := by
  simp only [filedAs, NotesDb.checkRefs]
  cases m.fields.folderId with
  | none => rfl
  | some f =>
    cases ho : ownsFolder db c f with
    | false => simp [Option.filter, ho, NotesDb.checkFolder]
    | true =>
      obtain ⟨r, hr, _⟩ := (Option.any_eq_true _ _).1 ho
      obtain ⟨r', hr', _⟩ := hx.keeps .folder f r hr
      simp [Option.filter, ho, NotesDb.checkFolder, hr']

/-- A loop over notes of the batch applies them as they are filed. -/
theorem noteLoop_eq {nms : List (Nat × NoteMutation)} (h : ∀ p ∈ nms, p ∈ noteMutations batch) :
    applyEach (fun nm => applyNoteMutation c
        (unfile (ownedFolderIds db c (referencedFolderIds (noteMutations batch))) nm)) nms =
      applyEach (applyMutation .note c) (nms.map fun p => (p.1, filedAs db c .note p.2)) := by
  refine applyEach_map fun p hp => ?_
  rw [unfile_eq (h p hp)]
  rfl

/-- The note loop: the notes as they are in the committed database, filed by the folders there. -/
theorem noteLoop_runs (c : Uuid) (batch : List SyncMutation)
    {s : Session NotesDb Write OffsetDateTime} (hs : s.Calm)
    (hx : Extends c s.committed (s.view notesEngine))
    (hnotes : ∀ id, (s.view notesEngine).get .note id = s.committed.get .note id) :
    ((∀ id, Fits c (s.committed.get .note id) (s.committed.get .note id)
        (offers id (mutationsOf .note batch))) →
      ∃ rs s', Act.answer serve (applyEach (fun nm => applyNoteMutation c
          (unfile (ownedFolderIds s.committed c (referencedFolderIds (noteMutations batch))) nm))
          (noteMutations batch)) s = (.ok rs, s') ∧
        Advances .note c ((mutationsOf .note batch).map fun p =>
          (p.1, filedAs s.committed c .note p.2)) s s' ∧
        Reports .note c s ((mutationsOf .note batch).map fun p =>
          (p.1, filedAs s.committed c .note p.2)) rs) ∧
    ((¬∀ id, Fits c (s.committed.get .note id) (s.committed.get .note id)
        (offers id (mutationsOf .note batch))) →
      ∃ e s', Act.answer serve (applyEach (fun nm => applyNoteMutation c
          (unfile (ownedFolderIds s.committed c (referencedFolderIds (noteMutations batch))) nm))
          (noteMutations batch)) s = (.error e, s')) := by
  have hprog : applyEach (fun nm => applyNoteMutation c
      (unfile (ownedFolderIds s.committed c (referencedFolderIds (noteMutations batch))) nm))
      (noteMutations batch) =
      applyEach (applyMutation .note c) ((mutationsOf .note batch).map fun p =>
        (p.1, filedAs s.committed c .note p.2)) := noteLoop_eq fun _ hp => hp
  have hfit : (∀ id, Fits c (s.committed.get .note id) ((s.view notesEngine).get .note id)
      (offers id ((mutationsOf .note batch).map fun p => (p.1, filedAs s.committed c .note p.2)))) ↔
      ∀ id, Fits c (s.committed.get .note id) (s.committed.get .note id)
        (offers id (mutationsOf .note batch)) := by
    refine forall_congr' fun id => ?_
    rw [hnotes, offers_filedAs (k := .note), fits_filedAs (k := .note)]
  rw [hprog]
  have h := applyEach_runs (k := .note) (c := c)
    ((mutationsOf .note batch).map fun p => (p.1, filedAs s.committed c .note p.2)) s hs hx
    (by
      intro p hp
      obtain ⟨q, _, rfl⟩ := List.mem_map.1 hp
      exact checkFolder_filedAs hx q.2)
  rw [hfit] at h
  exact h

/-- The results of the two loops, put back in order. -/
theorem reports_inOrder {s s₂ : Session NotesDb Write OffsetDateTime} {db : NotesDb}
    {frs nrs : List (Nat × MutationResult)} (hs : s.committed = db) (hs₂ : s₂.committed = db)
    (hview : s.view notesEngine = db)
    (hnotes : ∀ id, (s₂.view notesEngine).get .note id = db.get .note id)
    (hfn : frs.map Prod.fst = (mutationsOf .folder batch).map Prod.fst)
    (hnn : nrs.map Prod.fst = (mutationsOf .note batch).map Prod.fst)
    (hf : Reports .folder c s (mutationsOf .folder batch) frs)
    (hn : Reports .note c s₂ ((mutationsOf .note batch).map fun p =>
      (p.1, filedAs db c .note p.2)) nrs)
    (k : EntityType) (pre : List (Nat × Mutation k.Fields)) (i : Nat) (m : Mutation k.Fields)
    (post : List (Nat × Mutation k.Fields)) (h : mutationsOf k batch = pre ++ (i, m) :: post) :
    ∃ r, (inOrder (frs ++ nrs))[i]? = some r ∧ (r.outcome = .applied ↔
      ReportedApplied c (db.get k m.id) (db.get k m.id) (offers m.id pre) m) := by
  simp only [getElem?_inOrder (numbers_perm hfn hnn), List.mem_append]
  cases k with
  | folder =>
    obtain ⟨r, hr, hout⟩ := hf pre i m post h
    rw [hs, hview] at hout
    exact ⟨r, .inl hr, hout⟩
  | note =>
    obtain ⟨r, hr, hout⟩ := hn (pre.map fun p => (p.1, filedAs db c .note p.2)) i
      (filedAs db c .note m) (post.map fun p => (p.1, filedAs db c .note p.2)) (by
        rw [h, List.map_append, List.map_cons])
    rw [offers_filedAs, reportedApplied_filedAs, filedAs_id, hs₂, hnotes] at hout
    exact ⟨r, .inr hr, hout⟩

/-- The program of a push that is not answered at once. -/
theorem syncPush_eq (hempty : batch ≠ []) (hlen : batch.length ≤ maxMutationsPerPush) :
    syncPush c batch = do
      beginTx
      let folderResults ← applyEach (applyFolderMutation c) (folderMutations batch)
      let owned ← ownedOf c (referencedFolderIds (noteMutations batch))
      let noteResults ← applyEach (fun nm => applyNoteMutation c (unfile owned nm))
        (noteMutations batch)
      commitTx
      return inOrder (folderResults ++ noteResults) := by
  have h₁ : batch.isEmpty = false := by simpa using hempty
  have h₂ : ¬batch.length > maxMutationsPerPush := by omega
  unfold syncPush
  simp only [h₁, h₂, Bool.false_eq_true, if_false]

/-- A push of at most 200 mutations succeeds exactly when the batch fits, and what it then does. -/
theorem syncPush_runs (c : Uuid) (db : NotesDb) (now : OffsetDateTime)
    (hlen : batch.length ≤ maxMutationsPerPush) :
    (PushFits c db batch → ∃ rs db', Txn.run notesEngine (syncPush c batch) db now [] =
      (.ok rs, db') ∧ Pushed db c now batch rs db') ∧
    (¬PushFits c db batch → ∃ e db', Txn.run notesEngine (syncPush c batch) db now [] =
      (.error e, db')) := by
  by_cases hempty : batch = []
  · subst hempty
    refine ⟨fun _ => ⟨[], db, rfl, ?_, ?_⟩, fun hno => absurd (fun k id => fits_nil _) hno⟩
    · intro k id
      rfl
    · intro k pre i m post h
      simp [mutationsOf, select] at h
  rw [syncPush_eq hempty hlen]
  have hbegin : Act.answer serve beginTx (Session.start db now []) = (.ok (), ⟨db, some [], now, []⟩) :=
    answer_beginTx rfl
  obtain ⟨hfok, hferr⟩ := folderLoop_runs c batch
    (s := ⟨db, some [], now, []⟩) ⟨rfl, rfl⟩ rfl
  by_cases hfolders : ∀ id, Fits c (db.get .folder id) (db.get .folder id)
      (offers id (mutationsOf .folder batch))
  swap
  · refine ⟨fun hall => absurd (hall .folder) hfolders, fun _ => ?_⟩
    obtain ⟨e, s', h⟩ := hferr hfolders
    refine ⟨e, s'.committed, Txn.run_eq ?_⟩
    exact (Act.answer_bind_ok _ hbegin).trans (Act.answer_bind_error _ h)
  obtain ⟨frs, s₂, hfrs, hadv, hfrep⟩ := hfok hfolders
  have hcom : s₂.committed = db := hadv.committed
  have hgrows : Extends c s₂.committed (s₂.view notesEngine) := by
    rw [hcom]
    exact hadv.grows
  have hnotes₂ : ∀ id, (s₂.view notesEngine).get .note id = db.get .note id :=
    fun id => hadv.other .note id (by decide)
  obtain ⟨hnok, hnerr⟩ := noteLoop_runs c batch hadv.calm hgrows
    (by rw [hcom]; exact hnotes₂)
  have howned := answer_ownedOf (c := c) hadv.calm.faults (referencedFolderIds (noteMutations batch))
  by_cases hnotes : ∀ id, Fits c (db.get .note id) (db.get .note id)
      (offers id (mutationsOf .note batch))
  swap
  · refine ⟨fun hall => absurd (hall .note) hnotes, fun _ => ?_⟩
    obtain ⟨e, s', h⟩ := hnerr (by rw [hcom]; exact hnotes)
    refine ⟨e, s'.committed, Txn.run_eq ?_⟩
    refine (Act.answer_bind_ok _ hbegin).trans ?_
    refine (Act.answer_bind_ok _ hfrs).trans ?_
    refine (Act.answer_bind_ok _ howned).trans ?_
    exact Act.answer_bind_error _ h
  obtain ⟨nrs, s₃, hnrs, hadv', hnrep⟩ := hnok (by rw [hcom]; exact hnotes)
  refine ⟨fun _ => ?_, fun hno => absurd (fun k id => ?_) hno⟩
  · refine ⟨inOrder (frs ++ nrs), s₃.view notesEngine, Txn.run_eq (s := { s₃ with
      committed := s₃.view notesEngine, txn := none }) ?_, ?_, ?_⟩
    · refine (Act.answer_bind_ok _ hbegin).trans ?_
      refine (Act.answer_bind_ok _ hfrs).trans ?_
      refine (Act.answer_bind_ok _ howned).trans ?_
      refine (Act.answer_bind_ok _ hnrs).trans ?_
      refine (Act.answer_bind_ok _ (answer_commitTx hadv'.calm.faults)).trans ?_
      rfl
    · intro k id
      cases k with
      | folder =>
        rw [hadv'.other .folder id (by decide), hadv.same id]
        exact congrArg _ (List.map_id' _).symm
      | note =>
        rw [hadv'.same id, hadv.now, hcom, hnotes₂, offers_filedAs]
    · rw [hcom] at hnrep
      exact reports_inOrder rfl hcom rfl hnotes₂
        (numbers_of_loop (k := .folder) (g := fun m => m) (fun _ => rfl) (fun _ => rfl) hfrs)
        (numbers_of_loop (k := .note) (unfile_id _) (fun _ => rfl) hnrs) hfrep hnrep
  · cases k with
    | folder => exact hfolders id
    | note => exact hnotes id

/-! ## With failing calls -/

theorem failFast_query {β : Type} (e : Executor) (stmt : NotesStmt β) :
    FailFast (query e stmt) :=
  failFast_exec NotesError.database e stmt

theorem failFast_findOrFail (k : EntityType) (id : Uuid) : FailFast (findOrFail k id c) := by
  refine failFast_bind (failFast_query _ _) ?_
  rintro (_ | r)
  · exact failFast_throw _
  · exact failFast_pure _

theorem failFast_applyMutation (k : EntityType) (m : Mutation k.Fields) :
    FailFast (applyMutation k c m) := by
  unfold applyMutation
  cases rejection k m.fields with
  | some reason => exact failFast_pure _
  | none =>
    cases m.baseVersion with
    | none =>
      cases m.deleted with
      | true => exact failFast_pure _
      | false =>
        refine failFast_bind (failFast_query _ _) ?_
        rintro (_ | row)
        · refine failFast_bind (failFast_findOrFail k m.id) fun existing => ?_
          by_cases hlww : m.clientUpdatedAt > existing.updatedAt
          · simp only [hlww, if_true]
            exact failFast_bind (failFast_query _ _) fun _ => failFast_pure _
          · simp only [hlww, if_false]
            exact failFast_pure _
        · exact failFast_pure _
    | some b =>
      refine failFast_bind (failFast_query _ _) ?_
      rintro (_ | row)
      · exact failFast_bind (failFast_findOrFail k m.id) fun _ => failFast_pure _
      · exact failFast_pure _

theorem failFast_applyEach {M : Type} {f : M → NotesSvc MutationResult}
    (hf : ∀ m, FailFast (f m)) (ms : List (Nat × M)) : FailFast (applyEach f ms) := by
  induction ms with
  | nil => exact failFast_pure _
  | cons p ms ih =>
    exact failFast_bind (hf p.2) fun _ => failFast_bind ih fun _ => failFast_pure _

theorem failFast_ownedOf (ids : List Uuid) : FailFast (ownedOf c ids) := by
  unfold ownedOf
  split
  · exact failFast_pure _
  · exact failFast_query _ _

theorem failFast_syncPush (batch : List SyncMutation) : FailFast (syncPush c batch) := by
  unfold syncPush
  by_cases hempty : batch.isEmpty = true
  · simp only [hempty, if_true]
    exact failFast_pure _
  by_cases hlen : batch.length > maxMutationsPerPush
  · simp only [hempty, hlen, Bool.false_eq_true, if_false, if_true]
    exact failFast_throw _
  simp only [hempty, hlen, Bool.false_eq_true, if_false]
  refine failFast_bind (failFast_begin _) fun _ => ?_
  refine failFast_bind (failFast_applyEach (failFast_applyMutation .folder) _) fun _ => ?_
  refine failFast_bind (failFast_ownedOf _) fun owned => ?_
  refine failFast_bind
    (failFast_applyEach (fun m => failFast_applyMutation .note (unfile owned m)) _) fun _ => ?_
  exact failFast_bind (failFast_commit _) fun _ => failFast_pure _

theorem length_le_of_ok {faults : List Bool} {rs : List MutationResult}
    (h : Txn.run notesEngine (syncPush c batch) db now faults = (.ok rs, db')) :
    batch.length ≤ maxMutationsPerPush := by
  by_contra hno
  have hempty : batch.isEmpty = false := by
    cases batch with
    | nil => exact absurd (Nat.zero_le _) hno
    | cons _ _ => rfl
  have hbad : syncPush c batch = throw (.badRequest
      s!"Cannot push more than {maxMutationsPerPush} mutations per request") := by
    unfold syncPush
    simp only [hempty, Nat.not_le.1 hno, Bool.false_eq_true, if_false, if_true]
    rfl
  rw [hbad] at h
  cases h

/-- A push that succeeds, with whatever calls made to fail, met rows that fit and has done what a
push does. -/
theorem pushed_of_ok {faults : List Bool} {rs : List MutationResult}
    (h : Txn.run notesEngine (syncPush c batch) db now faults = (.ok rs, db')) :
    PushFits c db batch ∧ Pushed db c now batch rs db' := by
  have hcalm := Txn.run_ok_calm (failFast_syncPush batch) h
  obtain ⟨hok, herr⟩ := syncPush_runs c db now (length_le_of_ok h)
  by_cases hfit : PushFits c db batch
  · obtain ⟨rs', d', hrun, hp⟩ := hok hfit
    rw [hrun] at hcalm
    cases hcalm
    exact ⟨hfit, hp⟩
  · obtain ⟨e, d', hrun⟩ := herr hfit
    rw [hrun] at hcalm
    cases hcalm

/-- The mutations of the batch for one row that are written. -/
def writtenTo (c : Uuid) (db : NotesDb) (batch : List SyncMutation) (k : EntityType) (id : Uuid) :
    List (Mutation k.Fields) :=
  landedOn c (db.get k id) (db.get k id) (offers id (mutationsOf k batch))

/-- The row that a push leaves is the one it found, or what the last written mutation says. -/
theorem Pushed.row {rs : List MutationResult} (h : Pushed db c now batch rs db') (k : EntityType)
    (id : Uuid) :
    (writtenTo c db batch k id = [] ∧ db'.get k id = db.get k id) ∨
      ∃ m r, (writtenTo c db batch k id).getLast? = some m ∧ db'.get k id = some r ∧
        r.fields = (filedAs db c k m).fields ∧ r.isDeleted = m.deleted ∧
        r.creatorId = ((db.get k id).map Row.creatorId).getD c ∧ r.updatedAt = now := by
  have hidle : ∀ m ∈ (offers id (mutationsOf k batch)).map (filedAs db c k),
      m.unpersisted = false := by
    intro m hm
    obtain ⟨m', hm', rfl⟩ := List.mem_map.1 hm
    rw [filedAs_unpersisted]
    exact unpersisted_of_mem_offers m' hm'
  rw [h.rows k id]
  rcases settle_spec now c (db.get k id) _ hidle (db.get k id) with
    ⟨hnil, hs⟩ | ⟨m, r, hlast, hs, hshow, hup, hc⟩
  · rw [landedOn_filedAs, List.map_eq_nil_iff] at hnil
    exact .inl ⟨hnil, hs⟩
  · rw [landedOn_filedAs, List.getLast?_map, Option.map_eq_some_iff] at hlast
    obtain ⟨m', hm', rfl⟩ := hlast
    refine .inr ⟨m', r, hm', hs, hshow.1, ?_, hc, hup⟩
    rw [hshow.2, filedAs_deleted]

theorem versionOf_of_get {k : EntityType} {id : Uuid} {r : Row k.Fields} (hr : db.get k id = some r) :
    (versionOf (db.get k id)).getD 0 = r.version := by
  rw [hr]
  rfl

theorem version_of_pushed {rs : List MutationResult} (h : Pushed db c now batch rs db')
    {k : EntityType} {id : Uuid} {r : Row k.Fields}
    (hr : db'.get k id = some r) :
    r.version = (versionOf (db.get k id)).getD 0 + (writtenTo c db batch k id).length := by
  have hv := congrArg (fun o => (versionOf o).getD 0) (h.rows k id)
  simp only [versionOf_settle, after_getD] at hv
  have hlen : (landed (hits c (db.get k id)) (versionOf (db.get k id))
      ((offers id (mutationsOf k batch)).map (filedAs db c k))).length =
      (writtenTo c db batch k id).length := by
    have := congrArg List.length
      (landedOn_filedAs db c (db.get k id) (db.get k id)
        (offers id (mutationsOf k batch)))
    rwa [List.length_map] at this
  rw [hlen, hr] at hv
  exact hv

/-! ## When a push answers -/

/-- Nothing else failing, the push answers every mutation. -/
def PushAnswers (c : Uuid) (db : NotesDb) (now : OffsetDateTime) (batch : List SyncMutation) : Prop :=
  ∃ rs db', Txn.run notesEngine (syncPush c batch) db now [] = (.ok rs, db') ∧
    rs.length = batch.length

theorem syncPush_answers_iff (c : Uuid) (db : NotesDb) (now : OffsetDateTime)
    (batch : List SyncMutation) (hlen : batch.length ≤ maxMutationsPerPush) :
    PushAnswers c db now batch ↔ PushFits c db batch := by
  obtain ⟨hok, herr⟩ := syncPush_runs c db now hlen
  constructor
  · rintro ⟨rs, db', hrun, _⟩
    by_contra hno
    obtain ⟨e, d', hrun'⟩ := herr hno
    rw [hrun] at hrun'
    cases hrun'
  · intro hfit
    obtain ⟨rs, db', hrun, _⟩ := hok hfit
    have hends := syncPush_ends db now [] c batch
    rw [hrun] at hends
    exact ⟨rs, db', hrun, hends.1⟩

/-- A note the server does not know yet. -/
def freshNote : NoteMutation where
  id := ⟨1⟩
  fields := { title := "Groceries", content := "milk", pinned := false, folderId := none }
  deleted := false
  baseVersion := none
  clientUpdatedAt := 0

/-- An edit of a note that was purged in the meantime. -/
def purgedNote : NoteMutation := { freshNote with id := ⟨2⟩, baseVersion := some 3 }

/-- A title that is too long. -/
def longTitledNote : NoteMutation :=
  let title := String.ofList (List.replicate 101 'a')
  { freshNote with id := ⟨3⟩, fields := { freshNote.fields with title } }

/-- The tables after the first push of the fresh note. -/
def storedOnce : NotesDb :=
  (Txn.run notesEngine (syncPush ⟨7⟩ [.note freshNote]) .empty 10 []).2

/-- An invalid mutation, a stale one, one that goes through, and a new note. -/
def mixedBatch : List SyncMutation :=
  [.note longTitledNote, .note { freshNote with baseVersion := some 9 },
    .note { freshNote with baseVersion := some 1 }, .note { freshNote with id := ⟨4⟩ }]

theorem syncPush_answers_fresh :
    mixedBatch.length ≤ maxMutationsPerPush ∧
      (PushAnswers ⟨7⟩ storedOnce 20 mixedBatch ↔ PushFits ⟨7⟩ storedOnce mixedBatch) ∧
      (Txn.run notesEngine (syncPush ⟨7⟩ mixedBatch) storedOnce 20 []).1.map
        (List.map MutationResult.outcome) = .ok [.rejected, .conflict, .applied, .applied] :=
  ⟨by decide, syncPush_answers_iff ⟨7⟩ storedOnce 20 mixedBatch (by decide), by decide +kernel⟩

/-- The edit of the purged note takes the fresh note down with it. -/
theorem purged_note_poisons_batch :
    ¬PushAnswers ⟨7⟩ .empty 10 [.note freshNote, .note purgedNote] := by
  rintro ⟨rs, db', hrun, _⟩
  have herr : (Txn.run notesEngine (syncPush ⟨7⟩ [.note freshNote, .note purgedNote])
      .empty 10 []).1 = .error .noteNotFound := rfl
  rw [hrun] at herr
  cases herr

end Batch

end NotesService

end Meno
