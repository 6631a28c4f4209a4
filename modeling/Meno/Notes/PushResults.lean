import Meno.Notes.Service
import Meno.Notes.Statements

/-!
# Meno.Notes.PushResults

`syncPush` is all-or-nothing and positional, with any call of it failing: a push that ends in an
error has changed no row, and a push that succeeds answers mutation `i` at index `i`.

A push writes in its transaction only, so until the commit the committed database is the one it
started from. The results keep the numbers of their mutations; each carries the id and the entity
type of its mutation, whichever way it was made.
-/

namespace Meno

open Lib

namespace NotesService

/-! ## Statements that leave the committed database alone -/

/-- Executed there, the statement commits nothing. -/
def Quiet {β : Type} (e : Executor) (c : NotesStmt β) : Prop :=
  e = .tx ∨ ∀ now d b ws, c.exec now d = .ok (b, ws) → ws = []

theorem quiet_tx {β : Type} (c : NotesStmt β) : Quiet .tx c := .inl rfl

theorem quiet_findById (k : EntityType) (id c : Uuid) (e : Executor) :
    Quiet e (.findById k id c) := by
  refine .inr ?_
  intro now d b ws h
  cases h
  rfl

theorem quiet_ownedFolderIds (c : Uuid) (ids : List Uuid) (e : Executor) :
    Quiet e (.ownedFolderIds c ids) := by
  refine .inr ?_
  intro now d b ws h
  cases h
  rfl

variable {s : Session NotesDb Write OffsetDateTime} {db : NotesDb}

theorem Quiet.committed {β : Type} {e : Executor} {c : NotesStmt β} (h : Quiet e c) :
    (Session.handle notesEngine (.exec e c) s).2.committed = s.committed := by
  cases e with
  | tx => exact Session.handle_tx_committed notesEngine c s
  | pool =>
    refine Session.handle_pool_committed notesEngine ?_
    intro b ws he
    rcases h with h | h
    · cases h
    · exact h _ _ b ws he

/-- What is known after a quiet statement: nothing was committed, and an answer was computed on
some database. -/
theorem wp_query {β : Type} {e : Executor} {c : NotesStmt β} {Q : Except NotesError β → _ → Prop}
    (hq : Quiet e c) (hs : s.committed = db)
    (hok : ∀ b s' d ws, s'.committed = db → c.exec s.now d = .ok (b, ws) → Q (.ok b) s')
    (herr : ∀ err s', s'.committed = db → Q (.error err) s') :
    Act.wp (Session.handle notesEngine) (query e c) Q s := by
  have hcom := hq.committed (s := s)
  rw [query, Act.wp_ask]
  split
  · rename_i b s' hh
    obtain ⟨d, ws, he⟩ := Session.handle_exec_ok notesEngine hh
    rw [hh] at hcom
    exact hok b s' d ws (hcom.trans hs) he
  · rename_i err s' hh
    rw [hh] at hcom
    exact herr _ s' (hcom.trans hs)

theorem wp_beginTx {Q : Except NotesError Unit → _ → Prop} (hs : s.committed = db)
    (hok : ∀ s', s'.committed = db → Q (.ok ()) s')
    (herr : ∀ err s', s'.committed = db → Q (.error err) s') :
    Act.wp (Session.handle notesEngine) beginTx Q s := by
  have hcom := Session.handle_begin_committed notesEngine s
  rw [beginTx, Act.wp_ask]
  split
  · rename_i s' hh
    rw [hh] at hcom
    exact hok s' (hcom.trans hs)
  · rename_i err s' hh
    rw [hh] at hcom
    exact herr _ s' (hcom.trans hs)

/-- A commit that fails has committed nothing. -/
theorem wp_commitTx {Q : Except NotesError Unit → _ → Prop} (hs : s.committed = db)
    (hok : ∀ s', Q (.ok ()) s') (herr : ∀ err s', s'.committed = db → Q (.error err) s') :
    Act.wp (Session.handle notesEngine) commitTx Q s := by
  rw [commitTx, Act.wp_ask]
  simp only [Session.handle]
  by_cases hf : s.faults.headD false = true
  · rw [if_pos hf]
    exact herr _ _ hs
  · rw [if_neg hf]
    exact hok _

/-! ## One mutation -/

theorem wp_findOrFail {k : EntityType} {id c : Uuid} {Q : Except NotesError (Row k.Fields) → _ → Prop}
    (hs : s.committed = db)
    (hok : ∀ row s', s'.committed = db → row.id = id → Q (.ok row) s')
    (herr : ∀ err s', s'.committed = db → Q (.error err) s') :
    Act.wp (Session.handle notesEngine) (findOrFail k id c) Q s := by
  rw [findOrFail, Act.wp_bind]
  refine wp_query (quiet_findById k id c .pool) hs ?_ herr
  intro o s' d ws hs' he
  cases o with
  | none => exact herr _ s' hs'
  | some row =>
    have hfind : findById d k id c = some row := (Prod.mk.inj (Except.ok.inj he)).1
    exact hok row s' hs' (NotesDb.id_of_get (Option.filter_eq_some_iff.1 hfind).1)

/-- A result that answers the mutation with id `id` of entity type `k`. -/
def Answers (k : EntityType) (id : Uuid) (r : MutationResult) : Prop :=
  r.id = id ∧ r.entityType = k

theorem applyMutation_answers {k : EntityType} {c : Uuid} {m : Mutation k.Fields}
    (hs : s.committed = db) :
    Act.wp (Session.handle notesEngine) (applyMutation k c m)
      (fun r s' => s'.committed = db ∧ ∀ res, r = .ok res → Answers k m.id res) s := by
  -- an early exit carries no result; a result made from a row carries the row's id
  have herr : ∀ (err : NotesError) (s' : Session NotesDb Write OffsetDateTime), s'.committed = db →
      s'.committed = db ∧ ∀ res, Except.error err = .ok res → Answers k m.id res :=
    fun _ _ hs' => ⟨hs', fun _ h => by cases h⟩
  have hrow : ∀ (make : EntityType → ConflictEntity → MutationResult) (row : Row k.Fields),
      (∀ e, Answers k e.id (make k e)) → row.id = m.id →
      Answers k m.id (make k (ConflictEntity.ofRow k row)) := by
    intro make row hmake hid
    have := hmake (ConflictEntity.ofRow k row)
    rwa [ConflictEntity.id_ofRow, hid] at this
  have happlied : ∀ e, Answers k e.id (.applied k e) := fun _ => ⟨rfl, rfl⟩
  have hconflict : ∀ e, Answers k e.id (.conflict k e) := fun _ => ⟨rfl, rfl⟩
  have hdone : ∀ (x : MutationResult) (s' : Session NotesDb Write OffsetDateTime),
      s'.committed = db → Answers k m.id x →
      s'.committed = db ∧ ∀ res, Except.ok (ε := NotesError) x = .ok res → Answers k m.id res := by
    intro x s' hs' hx
    refine ⟨hs', ?_⟩
    intro res h
    cases h
    exact hx
  unfold applyMutation
  cases rejection k m.fields with
  | some reason => exact hdone _ s hs ⟨rfl, rfl⟩
  | none =>
    cases m.baseVersion with
    | none =>
      by_cases hd : m.deleted = true
      · simp only [hd, if_true]
        exact hdone _ s hs ⟨rfl, rfl⟩
      · simp only [hd, Bool.false_eq_true, if_false]
        rw [Act.wp_bind]
        refine wp_query (quiet_tx _) hs ?_ herr
        intro o s₁ d ws hs₁ he
        cases o with
        | some row =>
          refine hdone _ s₁ hs₁ (hrow _ row happlied ?_)
          obtain ⟨h, _⟩ | ⟨f', _, _, _, h, _⟩ := upsertIfAbsent_ok he
          · cases h
          · cases h; rfl
        | none =>
          simp only
          rw [Act.wp_bind]
          refine wp_findOrFail hs₁ ?_ herr
          intro existing s₂ hs₂ hid
          by_cases hlww : m.clientUpdatedAt > existing.updatedAt
          · simp only [hlww, if_true]
            rw [Act.wp_bind]
            refine wp_query (quiet_tx _) hs₂ ?_ herr
            intro row s₃ d ws hs₃ he
            refine hdone _ s₃ hs₃ (hrow _ row happlied ?_)
            exact updateRow_id (fun _ _ h => (setSnapshot_bump h).id) (forceApplySnapshot_ok he)
          · simp only [hlww, if_false]
            exact hdone _ s₂ hs₂ (hrow _ existing hconflict hid)
    | some baseVersion =>
      rw [Act.wp_bind]
      refine wp_query (quiet_tx _) hs ?_ herr
      intro o s₁ d ws hs₁ he
      cases o with
      | some row =>
        refine hdone _ s₁ hs₁ (hrow _ row happlied ?_)
        exact updateRow_id (fun _ _ h => (setSnapshot_bump h).id)
          (applySnapshotIfVersionMatches_ok he)
      | none =>
        simp only
        rw [Act.wp_bind]
        refine wp_findOrFail hs₁ ?_ herr
        intro existing s₂ hs₂ hid
        exact hdone _ s₂ hs₂ (hrow _ existing hconflict hid)

/-! ## The loops -/

/-- One result a mutation, under the mutation's number. -/
def AnswersEach {k : EntityType} (ms : List (Nat × Mutation k.Fields))
    (rs : List (Nat × MutationResult)) : Prop :=
  List.Forall₂ (fun p q => q.1 = p.1 ∧ Answers k p.2.id q.2) ms rs

theorem applyEach_answers {k : EntityType} {f : Mutation k.Fields → NotesSvc MutationResult}
    {c : Uuid} {g : Mutation k.Fields → Mutation k.Fields} (hg : ∀ m, (g m).id = m.id)
    (hf : ∀ m, f m = applyMutation k c (g m)) (ms : List (Nat × Mutation k.Fields)) :
    ∀ s : Session NotesDb Write OffsetDateTime, s.committed = db →
      Act.wp (Session.handle notesEngine) (applyEach f ms)
        (fun r s' => s'.committed = db ∧ ∀ rs, r = .ok rs → AnswersEach ms rs) s := by
  induction ms with
  | nil =>
    intro s hs
    refine ⟨hs, ?_⟩
    intro rs h
    cases h
    exact .nil
  | cons p ms ih =>
    intro s hs
    obtain ⟨idx, m⟩ := p
    rw [applyEach, Act.wp_bind, hf m]
    refine Act.wp_mono _ (applyMutation_answers hs) ?_
    rintro (err | res) s₁ ⟨hs₁, hres⟩
    · exact ⟨hs₁, fun _ h => by cases h⟩
    have hres := hres res rfl
    rw [hg] at hres
    simp only
    rw [Act.wp_bind]
    refine Act.wp_mono _ (ih s₁ hs₁) ?_
    rintro (err | rs) s₂ ⟨hs₂, hrs⟩
    · exact ⟨hs₂, fun _ h => by cases h⟩
    refine ⟨hs₂, ?_⟩
    intro rs' h
    cases h
    exact .cons ⟨rfl, hres⟩ (hrs rs rfl)

/-- The results of one loop cover its kind's share of the batch. -/
theorem AnswersEach.numbers {k : EntityType} {ms : List (Nat × Mutation k.Fields)}
    {rs : List (Nat × MutationResult)} (h : AnswersEach ms rs) :
    rs.map Prod.fst = ms.map Prod.fst := by
  induction h with
  | nil => rfl
  | cons h _ ih => rw [List.map_cons, List.map_cons, h.1, ih]

theorem AnswersEach.of_mem {k : EntityType} {ms : List (Nat × Mutation k.Fields)}
    {rs : List (Nat × MutationResult)} (h : AnswersEach ms rs) {i : Nat}
    {m : Mutation k.Fields} (hm : (i, m) ∈ ms) : ∃ r, (i, r) ∈ rs ∧ Answers k m.id r := by
  induction h with
  | nil => cases hm
  | @cons p q ms rs h _ ih =>
    rcases List.mem_cons.1 hm with rfl | hm
    · have hi : i = q.1 := h.1.symm
      exact ⟨q.2, by rw [hi]; exact List.mem_cons_self, h.2⟩
    · obtain ⟨r, hr, ha⟩ := ih hm
      exact ⟨r, List.mem_cons_of_mem _ hr, ha⟩

theorem wp_ownedOf {c : Uuid} {ids : List Uuid} {Q : Except NotesError (List Uuid) → _ → Prop}
    (hs : s.committed = db) (hok : ∀ owned s', s'.committed = db → Q (.ok owned) s')
    (herr : ∀ err s', s'.committed = db → Q (.error err) s') :
    Act.wp (Session.handle notesEngine) (ownedOf c ids) Q s := by
  unfold ownedOf
  by_cases hids : ids.isEmpty = true
  · rw [if_pos hids]
    exact hok [] s hs
  · rw [if_neg hids]
    exact wp_query (quiet_ownedFolderIds c ids .pool) hs (fun owned s' _ _ hs' _ => hok owned s' hs')
      herr

/-! ## The batch -/

/-- As many results as mutations, the one at `i` for the mutation at `i`. -/
def Positional (mutations : List SyncMutation) (results : List MutationResult) : Prop :=
  results.length = mutations.length ∧
  ∀ (i : Nat) (m : SyncMutation), mutations[i]? = some m →
    ∃ r : MutationResult, results[i]? = some r ∧ Answers m.entityType m.id r

theorem unfile_id (owned : List Uuid) (nm : NoteMutation) : (unfile owned nm).id = nm.id := by
  unfold unfile
  split
  · split <;> rfl
  · rfl

/-- Together the results of the two loops have the numbers of the batch. -/
theorem numbers_perm {mutations : List SyncMutation} {frs nrs : List (Nat × MutationResult)}
    (hf : frs.map Prod.fst = (mutationsOf .folder mutations).map Prod.fst)
    (hn : nrs.map Prod.fst = (mutationsOf .note mutations).map Prod.fst) :
    ((frs ++ nrs).map Prod.fst).Perm (List.range mutations.length) := by
  rw [List.map_append, hf, hn]
  refine select_perm_range ?_ mutations
  intro a
  cases a <;> rfl

theorem positional_inOrder {mutations : List SyncMutation} {frs nrs : List (Nat × MutationResult)}
    (hf : AnswersEach (mutationsOf .folder mutations) frs)
    (hn : AnswersEach (mutationsOf .note mutations) nrs) :
    Positional mutations (inOrder (frs ++ nrs)) := by
  have hperm := numbers_perm hf.numbers hn.numbers
  refine ⟨length_inOrder hperm, ?_⟩
  intro i m hm
  simp only [getElem?_inOrder hperm, List.mem_append]
  cases m with
  | folder fm =>
    obtain ⟨r, hr, ha⟩ := hf.of_mem (mem_select.2 ⟨_, hm, rfl⟩)
    exact ⟨r, .inl hr, ha⟩
  | note nm =>
    obtain ⟨r, hr, ha⟩ := hn.of_mem (mem_select.2 ⟨_, hm, rfl⟩)
    exact ⟨r, .inr hr, ha⟩

/-- What a push ends in: an error and the old database, or a result for every mutation. -/
def PushEnds (db : NotesDb) (mutations : List SyncMutation) :
    Except NotesError (List MutationResult) → NotesDb → Prop
  | .error _, db' => db' = db
  | .ok results, _ => Positional mutations results

theorem syncPush_wp (creatorId : Uuid) (mutations : List SyncMutation) (hs : s.committed = db) :
    Act.wp (Session.handle notesEngine) (syncPush creatorId mutations)
      (fun r s' => PushEnds db mutations r s'.committed) s := by
  unfold syncPush
  by_cases hempty : mutations.isEmpty = true
  · simp only [hempty, if_true, Act.wp_pure]
    rw [List.isEmpty_iff] at hempty
    subst hempty
    exact ⟨rfl, fun i m h => by simp at h⟩
  simp only [hempty, Bool.false_eq_true, if_false]
  by_cases hlen : mutations.length > maxMutationsPerPush
  · simp only [hlen, if_true]
    exact hs
  simp only [hlen, if_false]
  rw [Act.wp_bind]
  refine wp_beginTx hs ?_ (fun _ _ h => h)
  intro s₁ hs₁
  simp only
  rw [Act.wp_bind]
  refine Act.wp_mono _
    (applyEach_answers (k := .folder) (g := fun m => m) (fun _ => rfl) (fun _ => rfl) _ s₁ hs₁) ?_
  rintro (err | frs) s₂ ⟨hs₂, hfrs⟩
  · exact hs₂
  simp only
  rw [Act.wp_bind]
  refine wp_ownedOf hs₂ ?_ (fun _ _ h => h)
  intro owned s₃ hs₃
  simp only
  rw [Act.wp_bind]
  refine Act.wp_mono _
    (applyEach_answers (k := .note) (unfile_id owned) (fun _ => rfl) _ s₃ hs₃) ?_
  rintro (err | nrs) s₄ ⟨hs₄, hnrs⟩
  · exact hs₄
  simp only
  rw [Act.wp_bind]
  refine wp_commitTx hs₄ ?_ (fun _ _ h => h)
  intro s₅
  exact positional_inOrder (hfrs frs rfl) (hnrs nrs rfl)

theorem syncPush_ends (db : NotesDb) (now : OffsetDateTime) (faults : List Bool)
    (creatorId : Uuid) (mutations : List SyncMutation) :
    PushEnds db mutations (Txn.run notesEngine (syncPush creatorId mutations) db now faults).1
      (Txn.run notesEngine (syncPush creatorId mutations) db now faults).2 :=
  syncPush_wp (s := Session.start db now faults) creatorId mutations rfl

/-- A push that fails, wherever it fails, leaves the database as it was; a push that succeeds
answers every mutation at its place. -/
theorem syncPush_all_or_nothing (db : NotesDb) (now : OffsetDateTime) (faults : List Bool)
    (creatorId : Uuid) (mutations : List SyncMutation) :
    match Txn.run notesEngine (syncPush creatorId mutations) db now faults with
    | (.error _, db') => db' = db
    | (.ok results, _) => Positional mutations results := by
  have h := syncPush_ends db now faults creatorId mutations
  generalize Txn.run notesEngine (syncPush creatorId mutations) db now faults = out at h
  obtain ⟨err | results, db'⟩ := out
  · exact h
  · exact h

end NotesService

end Meno
