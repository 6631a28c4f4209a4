import Meno.Lib.Provenance
import Meno.Notes.Interleaving
import Meno.Notes.Ownership

/-!
# Meno.Notes.Incarnations

Versions over the lives of an id. The requests and the purge are callers of one store, and each
DELETE of the purge is a step of its own among their statements. A client sends a version that it
was told; when the note has been purged since, the id may have a new note, which starts over at
version 1. And the foreign key clears the folder of a note without a new version.

`Sound` says what a write has to be for versions to tell; `sound_of_writes` is the step lemma, for
every statement under the condition `Orderly`, and row locks keep it up to the commit.
-/

namespace Meno

open Lib NotesService

/-! ## The purge -/

/-- A row is a tombstone from before the cutoff. -/
def Row.isStale {F : Type} (cutoff : OffsetDateTime) (r : Row F) : Bool :=
  r.deletedAt.any (· < cutoff)

/-- What a round takes. -/
def staleRows (db : NotesDb) (k : EntityType) (cutoff : OffsetDateTime) : List (Row k.Fields) :=
  ((db.table k).rows.filter fun r => r.isStale cutoff).take 5000

/-- The tombstones of folders that a statement deletes are those from before this time. -/
def NotesStmt.purgesFolders : {β : Type} → NotesStmt β → Option OffsetDateTime
  | _, .purgeBatch .folder cutoff => some cutoff
  | _, _ => none

/-- No note is filed in a folder that a round takes. -/
def NoneFiled (db : NotesDb) (cutoff : OffsetDateTime) : Prop :=
  ∀ f ∈ staleRows db .folder cutoff, ∀ n ∈ db.notes.rows, n.fields.folderId ≠ some f.id

instance (db : NotesDb) (cutoff : OffsetDateTime) : Decidable (NoneFiled db cutoff) :=
  inferInstanceAs (Decidable (∀ f ∈ staleRows db .folder cutoff, ∀ n ∈ db.notes.rows,
    n.fields.folderId ≠ some f.id))

/-- Where no note is filed in a stale folder, the foreign key has nothing to clear. -/
theorem erases_of_purge {db : NotesDb} {now cutoff : OffsetDateTime} {k : EntityType} {n : Nat}
    {ws : List Write}
    (hidle : ∀ t ∈ (NotesStmt.purgeBatch k cutoff).purgesFolders, NoneFiled db t)
    (h : purgeBatch db now k cutoff = .ok (n, ws)) : ∀ x ∈ ws, x.value = none := by
  intro x hx
  cases k with
  | note =>
    have hws : ws = (staleRows db .note cutoff).flatMap fun r => [.erase .note r.id] := by
      cases h
      rfl
    rw [hws] at hx
    obtain ⟨r, -, hr⟩ := List.mem_flatMap.1 hx
    rw [List.mem_singleton.1 hr]
    rfl
  | folder =>
    have hws : ws =
        (staleRows db .folder cutoff).flatMap fun r => deleteFolderWrites db now r.id := by
      cases h
      rfl
    rw [hws] at hx
    obtain ⟨f, hf, hx⟩ := List.mem_flatMap.1 hx
    rcases List.mem_cons.1 hx with rfl | hx
    · rfl
    · obtain ⟨m, hm, -⟩ := List.mem_map.1 hx
      obtain ⟨hrow, hfile⟩ := List.mem_filter.1 hm
      exact absurd (eq_of_beq hfile) (hidle cutoff rfl f hf m hrow)

/-! ## Guarded statements -/

/-- The note that a statement with a `base_version` looks for; `live`: not a tombstone. -/
structure NoteGuard where
  id : Uuid
  creatorId : Uuid
  version : Int
  live : Bool

/-- The rest of the statement's WHERE clause. -/
def NoteGuard.Seeks (g : NoteGuard) (r : Note) : Prop :=
  r.creatorId = g.creatorId ∧ (g.live = true → r.deletedAt = none)

instance (g : NoteGuard) (r : Note) : Decidable (g.Seeks r) :=
  inferInstanceAs (Decidable (r.creatorId = g.creatorId ∧ (g.live = true → r.deletedAt = none)))

def NotesStmt.guardsNote : {β : Type} → NotesStmt β → Option NoteGuard
  | _, .updateNoteByVersion i => some ⟨i.noteId, i.creatorId, i.baseVersion, true⟩
  | _, .softDelete .note id c v => some ⟨id, c, v, true⟩
  | _, .applySnapshotIfVersionMatches .note id c v _ => some ⟨id, c, v, false⟩
  | _, _ => none

section Guarded

variable {db : NotesDb} {now : OffsetDateTime} {ws : List Write}

theorem guarded_of_updateRow {k : EntityType} {id : Uuid} {guard : Option Int}
    {cond : Row k.Fields → Bool} {set : Row k.Fields → Except DbError (Row k.Fields)}
    {o : Option (Row k.Fields)} (hset : ∀ r row, set r = .ok row → row.id = r.id)
    (h : updateRow db k id guard cond set = .ok (o, ws)) {row : Row k.Fields} {v : Int}
    (hx : .put k row (some v) ∈ ws) :
    guard = some v ∧ row.id = id ∧ ∃ r, db.get k id = some r ∧ cond r = true := by
  rcases updateRow_ok h with ⟨-, rfl, -⟩ | ⟨r, row', hr, hc, hs, -, rfl⟩
  · cases hx
  · cases List.mem_singleton.1 hx
    exact ⟨rfl, (hset r row hs).trans (NotesDb.id_of_get hr), r, hr, hc⟩

/-- A guarded write of a note has found the note that its statement looks for. -/
theorem exec_guarded {β : Type} {s : NotesStmt β} {b : β} (h : s.exec now db = .ok (b, ws))
    {row : Note} {v : Int} (hx : .put .note row (some v) ∈ ws) :
    ∃ g ∈ s.guardsNote, g.id = row.id ∧ g.version = v ∧
      ∃ r, db.get .note row.id = some r ∧ g.Seeks r ∧ r.version = v := by
  -- the other statements tell of no guarded write of a note
  have hmarks : ws.filterMap mark = told s b := notes_honest s now db b ws h
  have htold : (((.note, row.id), v) : Guard) ∈ told s b := by
    rw [← hmarks]
    exact List.mem_filterMap.2 ⟨_, hx, rfl⟩
  cases s with
  | updateNoteByVersion i =>
    simp only [NotesStmt.exec, updateNoteByVersion, bind_eq_ok] at h
    obtain ⟨_, _, _, _, h⟩ := h
    obtain ⟨hv, hid, r, hr, hc⟩ := guarded_of_updateRow (fun r row hs => by
      simp only [bind_eq_ok, pure_eq_ok] at hs
      obtain ⟨_, _, _, _, _, _, rfl⟩ := hs
      rfl) h hx
    cases hv
    simp only [Bool.and_eq_true, beq_iff_eq, Option.isNone_iff_eq_none] at hc
    rw [hid]
    exact ⟨_, rfl, rfl, rfl, r, hr, ⟨hc.1.1, fun _ => hc.2⟩, hc.1.2⟩
  | softDelete k id c v' =>
    have h : softDelete db now k id c v' = .ok (b, ws) := h
    cases k with
    | folder =>
      cases b with
      | none => cases htold
      | some row' => cases List.mem_singleton.1 htold
    | note =>
      obtain ⟨hv, hid, r, hr, hc⟩ := guarded_of_updateRow (fun r row hs => by
        simp only [bind_eq_ok, pure_eq_ok] at hs
        obtain ⟨_, _, rfl⟩ := hs
        rfl) h hx
      cases hv
      simp only [Bool.and_eq_true, beq_iff_eq, Option.isNone_iff_eq_none] at hc
      rw [hid]
      exact ⟨_, rfl, rfl, rfl, r, hr, ⟨hc.1.1, fun _ => hc.2⟩, hc.1.2⟩
  | applySnapshotIfVersionMatches k id c v' sn =>
    cases k with
    | folder =>
      cases b with
      | none => cases htold
      | some row' => cases List.mem_singleton.1 htold
    | note =>
      obtain ⟨hv, hid, r, hr, hc⟩ := guarded_of_updateRow
        (fun r row hs => (setSnapshot_bump hs).id) (applySnapshotIfVersionMatches_ok h) hx
      cases hv
      simp only [Bool.and_eq_true, beq_iff_eq] at hc
      rw [hid]
      exact ⟨_, rfl, rfl, rfl, r, hr, ⟨hc.1, fun hlive => absurd hlive Bool.false_ne_true⟩, hc.2⟩
  | updateFolderByVersion i =>
    cases b with
    | none => cases htold
    | some row' => cases List.mem_singleton.1 htold
  | _ => cases htold

end Guarded

/-! ## Transactions put rows -/

/-- A transaction makes no round of the purge. -/
def PurgesOnPool : {β : Type} → Cmd NotesStmt DbError β → Prop
  | _, .exec .tx s => s.isPurge = false
  | _, _ => True

theorem NotesOp.uses_purgesOnPool (op : NotesOp) : Act.Uses PurgesOnPool op.prog := by
  cases hop : op.isPurge with
  | false =>
    refine Prog.uses_mono ?_ (NotesOp.uses_notPurge hop)
    intro β c hc
    cases c with
    | begin => trivial
    | commit => trivial
    | exec e s =>
      cases e with
      | pool => trivial
      | tx => exact hc
  | true =>
    cases op with
    | purgeStale cutoff rounds =>
      have hloop : ∀ k rounds total,
          Act.Uses PurgesOnPool (NotesService.purgeBatched k cutoff rounds total) := by
        intro k rounds
        induction rounds with
        | zero => exact fun _ => Act.uses_throw _
        | succ rounds ih =>
          intro total
          rw [NotesService.purgeBatched]
          refine Act.uses_bind (uses_query trivial) fun n => ?_
          split
          · exact Act.uses_pure _
          · exact ih _
      refine Act.uses_bind ?_ fun _ => Act.uses_pure _
      refine Act.uses_bind (hloop _ _ _) fun _ => ?_
      exact Act.uses_bind (hloop _ _ _) fun _ => Act.uses_pure _
    | _ => cases hop

theorem puts_of_exec {β : Type} {s : NotesStmt β} {now : OffsetDateTime} {db : NotesDb} {b : β}
    {ws : List Write} (hs : s.isPurge = false) (h : s.exec now db = .ok (b, ws)) :
    ∀ x ∈ ws, x.value.isSome = true := by
  intro x hx
  cases (exec_legal hs h).1 x hx <;> rfl

/-! ## Versions that tell -/

/-- The write deletes the note's row. -/
def Write.purges (id : Uuid) : Write → Bool
  | .erase .note id' => id' == id
  | _ => false

theorem key_of_purges {x : Write} {id : Uuid} (h : x.purges id = true) : x.key = (.note, id) := by
  cases x with
  | put k row guard => cases h
  | erase k id' =>
    cases k with
    | note => rw [Write.key, eq_of_beq h]
    | folder => cases h

theorem value_of_purges {x : Write} {id : Uuid} (h : x.purges id = true) : x.value = none := by
  cases x with
  | put k row guard => cases h
  | erase k id' => rfl

namespace NotesRun

variable {ι : Type}

/-- The note under `id` has been purged since the sender of request `i` was told its version `v`,
which was when the first `readAt i id v` row writes had been committed. -/
def Outlived (readAt : ι → Uuid → Int → Nat) (log : List (ι × Write)) (i : ι) (id : Uuid)
    (v : Int) : Prop :=
  ∃ e ∈ log.drop (readAt i id v), e.2.purges id = true

instance (readAt : ι → Uuid → Int → Nat) (log : List (ι × Write)) (i : ι) (id : Uuid) (v : Int) :
    Decidable (Outlived readAt log i id v) :=
  inferInstanceAs (Decidable (∃ e ∈ log.drop (readAt i id v), e.2.purges id = true))

/-- `raises`: a note that has changed between `w` and `w'`, and was not purged in between, has a
greater version and a later stamp. `guards`: a guarded write was made to the note that its version
was read from. -/
structure VersionsTell (readAt : ι → Uuid → Int → Nat) (w w' : NotesWorld ι) : Prop where
  raises : ∀ id (r r' : Note), w.committed.get .note id = some r →
    w'.committed.get .note id = some r' → (∀ x ∈ World.fresh w w', x.purges id = false) → r ≠ r' →
      r.version < r'.version ∧ r.updatedAt < r'.updatedAt
  guards : ∀ before i (row : Note) v after,
    w'.log = before ++ (i, .put .note row (some v)) :: after → ¬Outlived readAt before i row.id v

/-- The tables as a statement finds them. -/
def found (w : NotesWorld ι) (i : ι) : Executor → NotesDb
  | .pool => w.committed
  | .tx => notesEngine.applyAll w.committed (w.pending i)

/-- The row that is replaced was stamped before `now`. -/
def StampedBefore (now : OffsetDateTime) (db : NotesDb) : Write → Prop
  | .put .note row _ => ∀ r ∈ db.get .note row.id, r.updatedAt < now
  | _ => True

instance (now : OffsetDateTime) (db : NotesDb) : (x : Write) → Decidable (StampedBefore now db x)
  | .put .note row _ =>
    inferInstanceAs (Decidable (∀ r ∈ db.get .note row.id, r.updatedAt < now))
  | .put .folder _ _ => isTrue trivial
  | .erase _ _ => isTrue trivial

/-- `folders`: a round of the purge takes no folder that a note is filed in. `clock`: a note that
the statement writes was last changed before the `NOW()` of the statement. `guards`: where the
statement bears a version of a note that is gone, the note that it finds under the id has another
version. -/
structure OrderlyStmt (readAt : ι → Uuid → Int → Nat) (w : NotesWorld ι) (i : ι) {β : Type}
    (e : Executor) (s : NotesStmt β) (fault : Bool) : Prop where
  folders : ∀ cutoff ∈ s.purgesFolders, NoneFiled (found w i e) cutoff
  clock : ∀ x ∈ (Cmd.exec e s).writes notesEngine (w.session i (.exec e s) fault),
    StampedBefore (w.session i (.exec e s) fault).now w.committed x
  guards : ∀ g ∈ s.guardsNote, Outlived readAt w.log i g.id g.version →
    ∀ r ∈ (found w i e).get .note g.id, g.Seeks r → r.version ≠ g.version

instance (readAt : ι → Uuid → Int → Nat) (w : NotesWorld ι) (i : ι) {β : Type} (e : Executor)
    (s : NotesStmt β) (fault : Bool) : Decidable (OrderlyStmt readAt w i e s fault) :=
  decidable_of_iff ((∀ cutoff ∈ s.purgesFolders, NoneFiled (found w i e) cutoff) ∧
    (∀ x ∈ (Cmd.exec e s).writes notesEngine (w.session i (.exec e s) fault),
      StampedBefore (w.session i (.exec e s) fault).now w.committed x) ∧
    ∀ g ∈ s.guardsNote, Outlived readAt w.log i g.id g.version →
      ∀ r ∈ (found w i e).get .note g.id, g.Seeks r → r.version ≠ g.version)
    ⟨fun h => ⟨h.1, h.2.1, h.2.2⟩, fun h => ⟨h.folders, h.clock, h.guards⟩⟩

/-- Every statement is orderly in the world in which it is answered. -/
def Orderly (readAt : ι → Uuid → Int → Nat) (w : NotesWorld ι) (i : ι) :
    {β : Type} → Cmd NotesStmt DbError β → Bool → Prop
  | _, .exec e s, fault => OrderlyStmt readAt w i e s fault
  | _, _, _ => True

instance (readAt : ι → Uuid → Int → Nat) (w : NotesWorld ι) (i : ι) {β : Type} :
    (c : Cmd NotesStmt DbError β) → (fault : Bool) → Decidable (Orderly readAt w i c fault)
  | .exec e s, fault => inferInstanceAs (Decidable (OrderlyStmt readAt w i e s fault))
  | .begin, _ => isTrue trivial
  | .commit, _ => isTrue trivial

/-! ## What a write has to be -/

/-- A note that is put has a greater version and a later stamp than the one that is stored. -/
def Rises (db : NotesDb) : Write → Prop
  | .put .note row _ => ∀ r, db.get .note row.id = some r →
      r.version < row.version ∧ r.updatedAt < row.updatedAt
  | _ => True

structure Sound (readAt : ι → Uuid → Int → Nat) (db : NotesDb) (log : List (ι × Write)) (i : ι)
    (x : Write) : Prop where
  rises : Rises db x
  guards : ∀ (row : Note) v, x = .put .note row (some v) → ¬Outlived readAt log i row.id v

variable {readAt : ι → Uuid → Int → Nat}

/-- What is committed meanwhile to other rows changes neither. -/
theorem sound_steady : World.Steady notesKeyed (Sound readAt) := by
  intro db log i x j zs hkeys h
  refine ⟨?_, ?_⟩
  · have hrises := h.rises
    cases x with
    | erase k id => trivial
    | put k row guard =>
      cases k with
      | folder => trivial
      | note =>
        have hsame : (notesEngine.applyAll db zs).get .note row.id = db.get .note row.id :=
          get_applyAll_other zs db hkeys
        intro r hr
        rw [hsame] at hr
        exact hrises r hr
  · rintro row v rfl ⟨e, he, hpurge⟩
    rw [List.drop_append, List.mem_append] at he
    rcases he with he | he
    · exact h.guards row v rfl ⟨e, he, hpurge⟩
    · obtain ⟨z, hz, rfl⟩ := List.mem_map.1 (List.mem_of_mem_drop he)
      exact hkeys z hz (key_of_purges hpurge)

variable [DecidableEq ι] {ops : ι → NotesOp} {d : NotesDb} {t : OffsetDateTime}
  {w w' w'' : NotesWorld ι}

/-! ## One statement -/

abbrev start (ops : ι → NotesOp) (d : NotesDb) (t : OffsetDateTime) : NotesWorld ι :=
  World.start d t fun i => ExceptT.run (ops i).prog

theorem puts_of_reaches (h : World.Reaches notesKeyed (fun i => ExceptT.run (ops i).prog) d t w)
    (i : ι) : ∀ x ∈ w.pending i, x.value.isSome = true := by
  have huses : (ExceptT.run (ops i).prog).Uses PurgesOnPool := (ops i).uses_purgesOnPool
  have hmakes : World.Makes PurgesOnPool (fun x => x.value.isSome = true) i w := by
    refine World.makes_of_reaches ?_ huses h
    intro β s hs now db b ws he
    exact puts_of_exec hs he
  exact hmakes.pending

section Statement

variable {i : ι} {β : Type} {e : Executor} {s : NotesStmt β} {fault : Bool}

omit [DecidableEq ι] in
/-- What a statement finds of a note that is stored: at least its version. -/
theorem found_of_stored (hputs : ∀ x ∈ w.pending i, x.value.isSome = true)
    (hsound : ∀ x ∈ w.pending i, Rises w.committed x) {id : Uuid} {r : Note}
    (hr : w.committed.get .note id = some r) :
    ∃ r', (found w i e).get .note id = some r' ∧ r.version ≤ r'.version := by
  cases e with
  | pool => exact ⟨r, hr, Int.le_refl _⟩
  | tx =>
    -- the row that was committed, or the last one that the transaction has put
    rcases look_applyAll_cases (K := notesKeyed) (k := (.note, id)) (w.pending i) w.committed with
      hsame | ⟨x, hx, hkey, hvalue⟩
    · exact ⟨r, (look_eq_iff hsame).trans hr, Int.le_refl _⟩
    · cases x with
      | erase k id' => cases hputs _ hx
      | put k row guard =>
        cases hkey
        have hlook : ((notesEngine.applyAll w.committed (w.pending i)).get .note row.id).map
            (fun r => (⟨.note, r⟩ : AnyRow)) = some ⟨.note, row⟩ := hvalue.symm
        obtain ⟨r', hr', he⟩ := Option.map_eq_some_iff.1 hlook
        cases he
        exact ⟨row, hr', (hsound _ hx r hr).1.le⟩

omit [DecidableEq ι] in
/-- What an orderly statement writes is sound. -/
theorem sound_of_writes (hputs : ∀ x ∈ w.pending i, x.value.isSome = true)
    (hsound : ∀ x ∈ w.pending i, Rises w.committed x) (hs : OrderlyStmt readAt w i e s fault) :
    ∀ x ∈ (Cmd.exec e s).writes notesEngine (w.session i (.exec e s) fault),
      Sound readAt w.committed w.log i x := by
  intro x hx
  have hclock := hs.clock x hx
  obtain ⟨b, ws, he, hmem⟩ := World.mem_writes hx
  have he : s.exec (w.session i (.exec e s) fault).now (found w i e) = .ok (b, ws) := by
    cases e <;> exact he
  refine ⟨?_, ?_⟩
  · cases hp : s.isPurge with
    | true =>
      cases s with
      | purgeBatch k cutoff =>
        have hvalue := erases_of_purge hs.folders he x hmem
        cases x with
        | put k row guard => cases hvalue
        | erase k id => trivial
      | _ => cases hp
    | false =>
      have hlegal := (exec_legal hp he).1 x hmem
      cases x with
      | erase k id => trivial
      | put k row guard =>
        cases k with
        | folder => trivial
        | note =>
          intro r hr
          have hbefore := hclock r hr
          obtain ⟨r', hr', hle⟩ := found_of_stored (e := e) hputs hsound hr
          generalize found w i e = db at hlegal hr'
          cases hlegal with
          | insert hins hnone => cases hr'.symm.trans hnone
          | @update _ r₀ _ _ hr₀ hb hg =>
            rw [hb.id, hr₀] at hr'
            cases hr'
            rw [hb.version, hb.updatedAt]
            exact ⟨Int.lt_add_one_of_le hle, hbefore⟩
  · rintro row v rfl hout
    obtain ⟨g, hg, hid, hv, r, hr, hseeks, hver⟩ := exec_guarded he hmem
    rw [← hid, ← hv] at hout
    rw [← hid] at hr
    exact hs.guards g hg hout r hr hseeks (hver.trans hv.symm)

end Statement

/-! ## Runs -/

section Steps

variable (hrun : World.StepsWhen notesKeyed (Orderly readAt) (start ops d t) w)
include hrun

theorem sound_of_steps : World.Pending (Sound readAt) w := by
  refine World.pending_of_stepsWhen sound_steady ?_ hrun
  intro w i β c k fault hreach hsound hp hc
  cases c with
  | begin => exact fun x hx => nomatch hx
  | commit => exact fun x hx => nomatch hx
  | exec e s =>
    exact sound_of_writes (puts_of_reaches hreach i) (fun x hx => (hsound i x hx).rises) hc

/-- What a step commits is sound where it is committed. -/
theorem sound_of_step (hs : World.StepWhen notesKeyed (Orderly readAt) w w') {i : ι} {x : Write}
    (hx : (i, x) ∈ World.newLog w w') : Sound readAt w.committed w.log i x := by
  have hsound := sound_of_steps hrun
  refine hsound.commits ?_ hs hx
  intro j β c k fault hp hc
  cases c with
  | begin => exact fun x hx => nomatch hx
  | commit => exact fun x hx => nomatch hx
  | exec e s =>
    exact sound_of_writes (puts_of_reaches hrun.steps j) (fun x hx => (hsound j x hx).rises) hc

/-- A commit with a guarded write purges nothing. -/
theorem puts_of_guarded (hs : World.Step notesKeyed w w') {i : ι} {row : Note} {v : Int}
    (hx : (i, .put .note row (some v)) ∈ World.newLog w w') :
    ∀ y ∈ World.newLog w w', y.2.value.isSome = true := by
  cases hs with
  | @call j β c k fault hp hfree =>
    rw [World.newLog_answer] at hx ⊢
    obtain ⟨x, hx, he⟩ := List.mem_map.1 hx
    cases he
    suffices h : ∀ y ∈ c.commits notesEngine (w.session i c fault), y.value.isSome = true by
      intro y hy
      obtain ⟨z, hz, rfl⟩ := List.mem_map.1 hy
      exact h z hz
    cases c with
    | begin => cases hx
    | commit =>
      intro y hy
      rcases World.mem_commits hy with hy | hy
      · exact puts_of_reaches hrun.steps i y hy
      · cases hy
    | exec e s =>
      cases e with
      | tx => cases hx
      | pool =>
        intro y hy
        have hx : .put .note row (some v) ∈
          (Cmd.exec .pool s).writes notesEngine (w.session i (.exec .pool s) fault) := hx
        have hy : y ∈
          (Cmd.exec .pool s).writes notesEngine (w.session i (.exec .pool s) fault) := hy
        obtain ⟨b, ws, he, hmem⟩ := World.mem_writes hx
        obtain ⟨b', ws', he', hmem'⟩ := World.mem_writes hy
        cases he.symm.trans he'
        cases hs : s.isPurge with
        | false => exact puts_of_exec hs he y hmem'
        | true =>
          cases s with
          | purgeBatch k cutoff =>
            have hnone := told_purgeBatch he
            have hmark : (((.note, row.id), v) : Guard) ∈ ws.filterMap mark :=
              List.mem_filterMap.2 ⟨_, hmem, rfl⟩
            rw [hnone] at hmark
            cases hmark
          | _ => cases hs
  | rollback hp =>
    rw [World.newLog_rollback] at hx
    cases hx
  | tick ht =>
    rw [World.newLog_tick] at hx
    cases hx

/-- One step and one note that it does not purge. -/
theorem note_of_step (hs : World.StepWhen notesKeyed (Orderly readAt) w w') {id : Uuid} {r : Note}
    (hr : w.committed.get .note id = some r) (hkeep : ∀ x ∈ World.fresh w w', x.purges id = false) :
    ∃ r', w'.committed.get .note id = some r' ∧
      (r = r' ∨ (r.version < r'.version ∧ r.updatedAt < r'.updatedAt)) := by
  have hcom : w'.committed = notesEngine.applyAll w.committed (World.fresh w w') := by
    have ha := World.apart_of_reaches hrun.steps
    exact (ha.fresh (ha.step (World.anything_disciplined notesKeyed) hs.step) hs.step).2
  rcases look_applyAll_cases (K := notesKeyed) (k := (.note, id)) (World.fresh w w')
    w.committed with hsame | ⟨x, hx, hkey, hvalue⟩
  · refine ⟨r, ?_, .inl rfl⟩
    rw [hcom]
    exact (look_eq_iff hsame).trans hr
  · obtain ⟨⟨i, x'⟩, hi, rfl⟩ := List.mem_map.1 hx
    have hrises := (sound_of_step hrun hs hi).rises
    cases x' with
    | erase k id' =>
      cases hkey
      have hpurge := hkeep _ hx
      simp [Write.purges] at hpurge
    | put k row guard =>
      cases hkey
      have hlook : (w'.committed.get .note row.id).map (fun r => (⟨.note, r⟩ : AnyRow)) =
          some ⟨.note, row⟩ := by
        rw [hcom]
        exact hvalue.symm
      obtain ⟨r', hr', he⟩ := Option.map_eq_some_iff.1 hlook
      cases he
      exact ⟨row, hr', .inr (hrises r hr)⟩

/-- A note that is not purged in a run. -/
theorem note_of_steps (hrest : World.StepsWhen notesKeyed (Orderly readAt) w w') {id : Uuid}
    {r : Note} (hr : w.committed.get .note id = some r)
    (hkeep : ∀ x ∈ World.fresh w w', x.purges id = false) :
    ∃ r', w'.committed.get .note id = some r' ∧
      (r = r' ∨ (r.version < r'.version ∧ r.updatedAt < r'.updatedAt)) := by
  induction hrest with
  | refl => exact ⟨r, hr, .inl rfl⟩
  | @tail v v' hrest hs ih =>
    rw [World.fresh_tail (World.StepsWhen.steps hrest) hs.step] at hkeep
    obtain ⟨r', hr', hrise⟩ := ih fun x hx => hkeep x (List.mem_append_left _ hx)
    obtain ⟨r'', hr'', hrise'⟩ := note_of_step (hrun.trans hrest) hs hr' fun x hx =>
      hkeep x (List.mem_append_right _ hx)
    refine ⟨r'', hr'', ?_⟩
    rcases hrise with rfl | ⟨hv, ht⟩
    · exact hrise'
    · rcases hrise' with rfl | ⟨hv', ht'⟩
      · exact .inr ⟨hv, ht⟩
      · exact .inr ⟨hv.trans hv', ht.trans ht'⟩

theorem guards_of_steps (before : List (ι × Write)) (i : ι) (row : Note) (v : Int)
    (after : List (ι × Write)) (h : w.log = before ++ (i, .put .note row (some v)) :: after) :
    ¬Outlived readAt before i row.id v := by
  induction hrun generalizing after with
  | refl =>
    have hlen := congrArg List.length h
    simp [World.start] at hlen
  | @tail u u' hrun hs ih =>
    rw [World.log_eq_newLog hs.step] at h
    rcases append_eq_append_cons h with ⟨after', hlog⟩ | ⟨before', rfl, hnew⟩
    · exact ih after' hlog
    · have hmem : (i, .put .note row (some v)) ∈ World.newLog u u' := by
        rw [hnew]
        exact List.mem_append_right _ List.mem_cons_self
      rintro ⟨e, he, hpurge⟩
      -- the note was purged before the commit, or in it
      rw [List.drop_append, List.mem_append] at he
      rcases he with he | he
      · exact (sound_of_step hrun hs hmem).guards row v rfl ⟨e, he, hpurge⟩
      · have hput := puts_of_guarded hrun hs.step hmem e (by
          rw [hnew]
          exact List.mem_append_left _ (List.mem_of_mem_drop he))
        rw [value_of_purges hpurge] at hput
        cases hput

end Steps

omit [DecidableEq ι] in
theorem not_tells_of_change (id : Uuid)
    (h : ∃ r ∈ w.committed.get .note id, ∃ r' ∈ w'.committed.get .note id,
      (∀ x ∈ World.fresh w w', x.purges id = false) ∧ r.updatedAt ≠ r'.updatedAt ∧
        ¬(r.version < r'.version ∧ r.updatedAt < r'.updatedAt)) : ¬VersionsTell readAt w w' := by
  obtain ⟨r, hr, r', hr', hkeep, hne, hrise⟩ := h
  intro ht
  exact hrise (ht.raises id r r' hr hr' hkeep fun he => hne (congrArg Row.updatedAt he))

omit [DecidableEq ι] in
theorem not_tells_of_last (id : Uuid) (v : Int)
    (h : ∃ e ∈ w'.log.getLast?, e.2.guard = some v ∧ e.2.key = (.note, id) ∧
      Outlived readAt w'.log.dropLast e.1 id v) : ¬VersionsTell readAt w w' := by
  obtain ⟨⟨i, x⟩, hlast, hguard, hkey, hout⟩ := h
  intro ht
  cases x with
  | erase k id' => cases hguard
  | put k row guard =>
    cases hkey
    cases hguard
    obtain ⟨before, hlog⟩ := List.getLast?_eq_some_iff.1 hlast
    rw [hlog, List.dropLast_concat] at hout
    exact ht.guards before i row v [] hlog hout

/-! ## Purged notes, and notes that come back -/

def groceriesAgain : CreateNoteRequest := { noteInHome with folderId := none }

/-- User 7 makes note 1, deletes it and makes it again after the purge; one device edits it as it
was when it was deleted, the other one as it is. -/
def comeback : Fin 6 → NotesOp
  | 0 => .createNote ⟨7⟩ groceriesAgain
  | 1 => .deleteNote ⟨1⟩ ⟨7⟩ 1
  | 2 => .purgeStale 100 1
  | 3 => .createNote ⟨7⟩ groceriesAgain
  | 4 => .updateNote ⟨1⟩ ⟨7⟩ { editTo "bread" with baseVersion := 2 }
  | 5 => .updateNote ⟨1⟩ ⟨7⟩ (editTo "eggs")

/-- How many row writes had been committed when the sender was told the version. -/
def toldAt : Fin 6 → Uuid → Int → Nat
  | 4, _, _ => 2
  | 5, _, _ => 4
  | _, _, _ => 1

/-- The folder goes, the note in it stays. -/
def stranded : Fin 4 → NotesOp
  | 0 => .createFolder ⟨7⟩ homeFolder
  | 1 => .createNote ⟨7⟩ noteInHome
  | 2 => .deleteFolder ⟨3⟩ ⟨7⟩ 1
  | 3 => .purgeStale 100 1

/-- A note is purged and created once more, and edited by a client that read the first one. -/
def returned : Fin 5 → NotesOp
  | 0 => .createNote ⟨7⟩ groceriesAgain
  | 1 => .deleteNote ⟨1⟩ ⟨7⟩ 1
  | 2 => .purgeStale 100 1
  | 3 => .createNote ⟨7⟩ groceriesAgain
  | 4 => .updateNote ⟨1⟩ ⟨7⟩ (editTo "bread")

/-- A push that begins before an edit is made and writes after it. -/
def overtaken : Fin 3 → NotesOp
  | 0 => .createNote ⟨7⟩ groceriesAgain
  | 1 => .syncPush ⟨7⟩ [.note {
      id := ⟨1⟩
      fields := { title := "Groceries", content := "eggs", pinned := false, folderId := none }
      deleted := false
      baseVersion := some 2
      clientUpdatedAt := 14 }]
  | 2 => .updateNote ⟨1⟩ ⟨7⟩ (editTo "bread")

end NotesRun

end Meno
