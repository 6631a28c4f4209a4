import Meno.Lib.World
import Meno.Notes.Service
import Meno.Notes.Statements

/-!
# Meno.Notes.Ops

The operations of the notes service that write, as one type, with their programs; and runs of
whole operations, one after the other, each at its own time and with its own failing calls.
-/

namespace Meno

open Lib NotesService

inductive NotesOp where
  | createNote (creatorId : Uuid) (req : CreateNoteRequest)
  | createFolder (creatorId : Uuid) (req : CreateFolderRequest)
  | updateNote (id creatorId : Uuid) (req : UpdateNoteRequest)
  | updateFolder (id creatorId : Uuid) (req : UpdateFolderRequest)
  | deleteNote (id creatorId : Uuid) (baseVersion : Int)
  | deleteFolder (id creatorId : Uuid) (baseVersion : Int)
  | addNoteToFolder (creatorId noteId folderId : Uuid)
  | removeNoteToFolder (creatorId noteId folderId : Uuid)
  | moveNotesToFolder (creatorId : Uuid) (req : MoveNotesToFolderRequest)
  | syncPush (creatorId : Uuid) (mutations : List SyncMutation)
  | purgeStale (cutoff : OffsetDateTime) (rounds : Nat)

inductive NotesAnswer where
  | note (n : NoteDto)
  | folder (f : FolderDto)
  | notes (ns : List NoteDto)
  | pushed (results : List MutationResult)
  | purged (notes folders : Nat)

namespace NotesOp

def prog : NotesOp → NotesSvc NotesAnswer
  | .createNote c req => do return .note (← NotesService.createNote c req)
  | .createFolder c req => do return .folder (← NotesService.createFolder c req)
  | .updateNote id c req => do return .note (← NotesService.updateNote id c req)
  | .updateFolder id c req => do return .folder (← NotesService.updateFolder id c req)
  | .deleteNote id c v => do return .note (← NotesService.deleteNote id c v)
  | .deleteFolder id c v => do return .folder (← NotesService.deleteFolder id c v)
  | .addNoteToFolder c n f => do return .note (← NotesService.addNoteToFolder c n f)
  | .removeNoteToFolder c n f => do return .note (← NotesService.removeNoteToFolder c n f)
  | .moveNotesToFolder c req => do return .notes (← NotesService.moveNotesToFolder c req)
  | .syncPush c ms => do return .pushed (← NotesService.syncPush c ms)
  | .purgeStale cutoff rounds => do
    let (notes, folders) ← NotesService.purgeStale cutoff rounds
    return .purged notes folders

def isPurge : NotesOp → Bool
  | .purgeStale _ _ => true
  | _ => false

/-- The operation has answered, and with it has made a write to the row `κ` that was guarded by
version `v`; `p` tells the writes of one push apart. -/
def Wins : NotesOp → NotesAnswer → Nat → EntityType × Uuid → Int → Prop
  | .updateNote id _ req, _, p, κ, v => p = 0 ∧ κ = (.note, id) ∧ v = req.baseVersion
  | .updateFolder id _ req, _, p, κ, v => p = 0 ∧ κ = (.folder, id) ∧ v = req.baseVersion
  | .deleteNote id _ b, _, p, κ, v => p = 0 ∧ κ = (.note, id) ∧ v = b
  | .deleteFolder id _ b, _, p, κ, v => p = 0 ∧ κ = (.folder, id) ∧ v = b
  | .syncPush _ ms, .pushed rs, p, κ, v => ∃ m r, ms[p]? = some m ∧ κ = (m.entityType, m.id) ∧
      m.baseVersion = some v ∧ rs[p]? = some r ∧ r.outcome = .applied
  | _, _, _, _, _ => False

end NotesOp

/-- The operation run alone: its result and the database it leaves. -/
def NotesOp.run (op : NotesOp) (now : OffsetDateTime) (faults : List Bool) (db : NotesDb) :
    Except NotesError NotesAnswer × NotesDb :=
  Txn.run notesEngine op.prog db now faults

/-- The states that runs of whole operations reach from the empty tables, when every operation is
`ok` in the state it starts from. -/
inductive Reached (ok : NotesOp → NotesDb → Prop) : NotesDb → Prop where
  | empty : Reached ok .empty
  | step {db : NotesDb} {op : NotesOp} (now : OffsetDateTime) (faults : List Bool) :
      Reached ok db → ok op db → Reached ok (op.run now faults db).2

/-- An invariant that every operation keeps holds in every state reached. -/
theorem Reached.inv {ok : NotesOp → NotesDb → Prop} {I : NotesDb → Prop} (h₀ : I .empty)
    (hstep : ∀ db op now faults, I db → ok op db → I (op.run now faults db).2) {db : NotesDb}
    (h : Reached ok db) : I db := by
  induction h with
  | empty => exact h₀
  | step now faults _ hok ih => exact hstep _ _ now faults ih hok

/-! ## The statements of an operation -/

section Uses

variable {ok : {β : Type} → Cmd NotesStmt DbError β → Prop}

theorem uses_query {β : Type} {e : Executor} {s : NotesStmt β}
    (h : ok (.exec e s : Cmd NotesStmt DbError (Except DbError β))) : Act.Uses ok (query e s) :=
  Act.uses_ask h

theorem uses_okOr {α : Type} (err : NotesError) (o : Option α) : Act.Uses ok (okOr err o) := by
  cases o with
  | none => exact Act.uses_throw _
  | some a => exact Act.uses_pure _

theorem uses_findOrFail {k : EntityType} {id c : Uuid}
    (h : ok (.exec .pool (.findById k id c) : Cmd NotesStmt DbError (Except DbError _))) :
    Act.Uses ok (findOrFail k id c) :=
  Act.uses_bind (uses_query h) fun _ => uses_okOr _ _

theorem uses_rowOrConflict {k : EntityType} {id c : Uuid}
    (h : ok (.exec .pool (.findById k id c) : Cmd NotesStmt DbError (Except DbError _)))
    (o : Option (Row k.Fields)) : Act.Uses ok (rowOrConflict k id c o) := by
  cases o with
  | some row => exact Act.uses_pure _
  | none => exact Act.uses_bind (uses_findOrFail h) fun _ => Act.uses_throw _

theorem uses_applyMutation {k : EntityType} {c : Uuid} {m : Mutation k.Fields}
    (hfind : ok (.exec .pool (.findById k m.id c) : Cmd NotesStmt DbError (Except DbError _)))
    (hupsert : m.baseVersion = none → m.deleted = false → ∀ snapshot,
      ok (.exec .tx (.upsertIfAbsent k m.id c snapshot) : Cmd NotesStmt DbError (Except DbError _)))
    (hforce : ∀ snapshot,
      ok (.exec .tx (.forceApplySnapshot k m.id c snapshot) :
        Cmd NotesStmt DbError (Except DbError _)))
    (hmatch : ∀ v snapshot,
      ok (.exec .tx (.applySnapshotIfVersionMatches k m.id c v snapshot) :
        Cmd NotesStmt DbError (Except DbError _))) :
    Act.Uses ok (applyMutation k c m) := by
  unfold applyMutation
  cases rejection k m.fields with
  | some reason => exact Act.uses_pure _
  | none =>
    cases hb : m.baseVersion with
    | none =>
      cases hd : m.deleted with
      | true => exact Act.uses_pure _
      | false =>
        refine Act.uses_bind (uses_query (hupsert hb hd _)) ?_
        rintro (_ | row)
        · refine Act.uses_bind (uses_findOrFail hfind) fun existing => ?_
          by_cases hlww : m.clientUpdatedAt > existing.updatedAt
          · simp only [hlww, if_true]
            exact Act.uses_bind (uses_query (hforce _)) fun _ => Act.uses_pure _
          · simp only [hlww, if_false]
            exact Act.uses_pure _
        · exact Act.uses_pure _
    | some b =>
      refine Act.uses_bind (uses_query (hmatch _ _)) ?_
      rintro (_ | row)
      · exact Act.uses_bind (uses_findOrFail hfind) fun _ => Act.uses_pure _
      · exact Act.uses_pure _

theorem uses_applyEach {M : Type} {f : M → NotesSvc MutationResult} {ms : List (Nat × M)}
    (hf : ∀ p ∈ ms, Act.Uses ok (f p.2)) : Act.Uses ok (applyEach f ms) := by
  induction ms with
  | nil => exact Act.uses_pure _
  | cons p ms ih =>
    refine Act.uses_bind (hf p List.mem_cons_self) fun _ => ?_
    exact Act.uses_bind (ih fun q hq => hf q (List.mem_cons_of_mem _ hq)) fun _ => Act.uses_pure _

end Uses

/-! ## Calls on the pool -/

section Wp

variable {s : Session NotesDb Write OffsetDateTime}

/-- A statement on the pool, and what it commits. -/
theorem wp_pool {β : Type} {c : NotesStmt β} {Q : Except NotesError β → _ → Prop}
    (hok : ∀ b ws s', c.exec s.now s.committed = .ok (b, ws) →
      s'.committed = notesEngine.applyAll s.committed ws → s'.now = s.now → Q (.ok b) s')
    (herr : ∀ err s', s'.committed = s.committed → s'.now = s.now → Q (.error (.database err)) s') :
    Act.wp (Session.handle notesEngine) (query .pool c) Q s := by
  rw [query, Act.wp_ask]
  simp only [Session.handle]
  by_cases hf : s.faults.headD false = true
  · rw [if_pos hf]
    exact herr _ _ rfl rfl
  · rw [if_neg hf]
    have hexec : notesEngine.exec c s.now s.committed = c.exec s.now s.committed := rfl
    rw [hexec]
    cases he : c.exec s.now s.committed with
    | ok p =>
      obtain ⟨b, ws⟩ := p
      exact hok b ws _ he rfl rfl
    | error e => exact herr _ _ rfl rfl

/-- The loop of the purge: `I` is kept by every round, and a round that finds less than its limit
ends it in `Done`. -/
theorem purgeBatched_wp {k : EntityType} {cutoff : OffsetDateTime} {I Done : NotesDb → Prop}
    (hround : ∀ db now n ws, I db → purgeBatch db now k cutoff = .ok (n, ws) →
      I (notesEngine.applyAll db ws) ∧ (n < 5000 → Done (notesEngine.applyAll db ws)))
    (rounds : Nat) :
    ∀ (total : Nat) (s : Session NotesDb Write OffsetDateTime), I s.committed →
      Act.wp (Session.handle notesEngine) (purgeBatched k cutoff rounds total)
        (fun r s' => I s'.committed ∧ ((∃ n, r = .ok n) → Done s'.committed)) s := by
  induction rounds with
  | zero =>
    intro total s hI
    refine ⟨hI, ?_⟩
    rintro ⟨n, hn⟩
    cases hn
  | succ rounds ih =>
    intro total s hI
    rw [purgeBatched, Act.wp_bind]
    refine wp_pool ?_ ?_
    · intro n ws s' he hs' _
      obtain ⟨hI', hdone⟩ := hround _ _ _ _ hI he
      rw [← hs'] at hI' hdone
      simp only
      by_cases hn : n < 5000
      · rw [if_pos hn]
        exact ⟨hI', fun _ => hdone hn⟩
      · rw [if_neg hn]
        exact ih _ s' hI'
    · intro err s' hs' _
      rw [hs']
      refine ⟨hI, ?_⟩
      rintro ⟨n, hn⟩
      cases hn

end Wp

/-- The statement of the call, if it is one, is not the purge. -/
abbrev NotPurge {β : Type} : Cmd NotesStmt DbError β → Prop :=
  World.AllGood fun s => s.isPurge = false

theorem uses_syncPush (c : Uuid) (ms : List SyncMutation) :
    Act.Uses NotPurge (NotesService.syncPush c ms) := by
  have hm : ∀ (k : EntityType) (m : Mutation k.Fields), Act.Uses NotPurge (applyMutation k c m) :=
    fun k m => uses_applyMutation rfl (fun _ _ _ => rfl) (fun _ => rfl) fun _ _ => rfl
  unfold NotesService.syncPush
  by_cases hempty : ms.isEmpty = true
  · simp only [hempty, if_true]
    exact Act.uses_pure _
  by_cases hlen : ms.length > maxMutationsPerPush
  · simp only [hempty, hlen, Bool.false_eq_true, if_false, if_true]
    exact Act.uses_throw _
  simp only [hempty, hlen, Bool.false_eq_true, if_false]
  refine Act.uses_bind (Act.uses_ask trivial) fun _ => ?_
  refine Act.uses_bind (uses_applyEach fun p _ => hm .folder p.2) fun _ => ?_
  refine Act.uses_bind ?_ fun owned => ?_
  · unfold ownedOf
    split
    · exact Act.uses_pure _
    · exact uses_query rfl
  refine Act.uses_bind (uses_applyEach fun p _ => hm .note (unfile owned p.2)) fun _ => ?_
  exact Act.uses_bind (Act.uses_ask trivial) fun _ => Act.uses_pure _

/-- The statements that an operation other than a push or the purge makes, all on the pool. -/
inductive NotesOp.Makes : NotesOp → {β : Type} → NotesStmt β → Prop where
  | createNote {c : Uuid} {req : CreateNoteRequest} : Makes (.createNote c req) (.createNote {
      id := req.id, title := req.title, content := req.content, pinned := req.pinned,
      folderId := req.folderId, creatorId := c })
  | createFolder {c : Uuid} {req : CreateFolderRequest} : Makes (.createFolder c req)
      (.createFolder { id := req.id, title := req.title, pinned := req.pinned, creatorId := c })
  | updateNote {id c : Uuid} {req : UpdateNoteRequest} : Makes (.updateNote id c req)
      (.updateNoteByVersion {
        title := req.title, content := req.content, pinned := req.pinned, folderId := req.folderId,
        baseVersion := req.baseVersion, noteId := id, creatorId := c })
  | updateFolder {id c : Uuid} {req : UpdateFolderRequest} : Makes (.updateFolder id c req)
      (.updateFolderByVersion {
        title := req.title, pinned := req.pinned, folderId := id, creatorId := c,
        baseVersion := req.baseVersion })
  | deleteNote {id c : Uuid} {v : Int} : Makes (.deleteNote id c v) (.softDelete .note id c v)
  | deleteFolder {id c : Uuid} {v : Int} : Makes (.deleteFolder id c v) (.softDelete .folder id c v)
  | addNoteToFolder {c n f : Uuid} : Makes (.addNoteToFolder c n f) (.addNoteToFolder c n f)
  | removeNoteToFolder {c n f : Uuid} :
      Makes (.removeNoteToFolder c n f) (.removeNoteFromFolder c n f)
  | moveNotesToFolder {c : Uuid} {req : MoveNotesToFolderRequest} :
      Makes (.moveNotesToFolder c req) (.moveNotesToFolder c req)
  | findById {op : NotesOp} {k : EntityType} {id c : Uuid} : Makes op (.findById k id c)

/-- The operation is a program on the pool. -/
def NotesOp.isPlain : NotesOp → Bool
  | .syncPush _ _ => false
  | .purgeStale _ _ => false
  | _ => true

theorem NotesOp.plain_or (op : NotesOp) :
    op.isPlain = true ∨ (∃ c ms, op = .syncPush c ms) ∨ ∃ cutoff rounds, op = .purgeStale cutoff rounds := by
  cases op with
  | syncPush c ms => exact .inr (.inl ⟨c, ms, rfl⟩)
  | purgeStale cutoff rounds => exact .inr (.inr ⟨cutoff, rounds, rfl⟩)
  | _ => exact .inl rfl

/-- A plain operation makes the statements of `Makes`, on the pool. -/
theorem NotesOp.uses_makes {op : NotesOp} (h : op.isPlain = true) :
    Act.Uses (Txn.OnPool fun s => op.Makes s) op.prog := by
  have hfind : ∀ {k id c}, Txn.OnPool (fun s => op.Makes s)
      (.exec .pool (.findById k id c) : Cmd NotesStmt DbError (Except DbError _)) :=
    fun {_ _ _} => NotesOp.Makes.findById
  cases op with
  | createNote c req =>
    refine Act.uses_bind ?_ fun _ => Act.uses_pure _
    exact Act.uses_bind (uses_query .createNote) fun _ => Act.uses_pure _
  | createFolder c req =>
    refine Act.uses_bind ?_ fun _ => Act.uses_pure _
    exact Act.uses_bind (uses_query .createFolder) fun _ => Act.uses_pure _
  | updateNote id c req =>
    refine Act.uses_bind ?_ fun _ => Act.uses_pure _
    exact Act.uses_bind (uses_query .updateNote) fun _ => uses_rowOrConflict hfind _
  | updateFolder id c req =>
    refine Act.uses_bind ?_ fun _ => Act.uses_pure _
    exact Act.uses_bind (uses_query .updateFolder) fun _ => uses_rowOrConflict hfind _
  | deleteNote id c v =>
    refine Act.uses_bind ?_ fun _ => Act.uses_pure _
    exact Act.uses_bind (uses_query .deleteNote) fun _ => uses_rowOrConflict hfind _
  | deleteFolder id c v =>
    refine Act.uses_bind ?_ fun _ => Act.uses_pure _
    exact Act.uses_bind (uses_query .deleteFolder) fun _ => uses_rowOrConflict hfind _
  | addNoteToFolder c n f =>
    refine Act.uses_bind ?_ fun _ => Act.uses_pure _
    unfold NotesService.addNoteToFolder
    refine Act.uses_bind (Act.uses_attempt (uses_query hfind)) fun noteResult => ?_
    refine Act.uses_bind (Act.uses_attempt (uses_query hfind)) fun folderResult => ?_
    refine Act.uses_bind (Act.uses_ofExcept _) fun note? => ?_
    refine Act.uses_bind (uses_okOr _ _) fun note => ?_
    refine Act.uses_bind (Act.uses_ofExcept _) fun folder? => ?_
    refine Act.uses_bind (uses_okOr _ _) fun folder => ?_
    split
    · exact Act.uses_pure _
    split
    · exact Act.uses_throw _
    split
    · exact Act.uses_throw _
    refine Act.uses_bind (uses_query .addNoteToFolder) ?_
    rintro (_ | row)
    · exact Act.uses_throw _
    · exact Act.uses_pure _
  | removeNoteToFolder c n f =>
    refine Act.uses_bind ?_ fun _ => Act.uses_pure _
    refine Act.uses_bind (uses_query .removeNoteToFolder) fun _ => ?_
    exact Act.uses_bind (uses_okOr _ _) fun _ => Act.uses_pure _
  | moveNotesToFolder c req =>
    refine Act.uses_bind ?_ fun _ => Act.uses_pure _
    unfold NotesService.moveNotesToFolder
    split
    · exact Act.uses_pure _
    split
    · exact Act.uses_throw _
    refine Act.uses_bind ?_ fun _ => ?_
    · cases req.folderId with
      | none => exact Act.uses_pure _
      | some folderId => exact Act.uses_bind (uses_findOrFail hfind) fun _ => Act.uses_pure _
    · exact Act.uses_bind (uses_query .moveNotesToFolder) fun _ => Act.uses_pure _
  | syncPush c ms => cases h
  | purgeStale cutoff rounds => cases h

theorem NotesOp.uses_notPurge {op : NotesOp} (h : op.isPurge = false) :
    Act.Uses NotPurge op.prog := by
  rcases op.plain_or with hop | ⟨c, ms, rfl⟩ | ⟨cutoff, rounds, rfl⟩
  · refine Prog.uses_mono ?_ (NotesOp.uses_makes hop)
    intro β c hc
    cases c with
    | begin => cases hc
    | commit => cases hc
    | exec e s =>
      cases e with
      | tx => cases hc
      | pool =>
        cases hc <;> rfl
  · exact Act.uses_bind (uses_syncPush c ms) fun _ => Act.uses_pure _
  · cases h

end Meno
