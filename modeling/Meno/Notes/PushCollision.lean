import Meno.Lib.Rely
import Meno.Notes.Interleaving

/-!
# Meno.Notes.PushCollision

A push without a base version that meets an existing row decides by the times which of the two is
newer: it looks the row up on the pool, and writes in its transaction without looking again.
`force_overwrites_older` says when the row that it writes over is the one that it looked at.
-/

namespace Meno

open Lib

variable {ι : Type} [DecidableEq ι]

/-! ## Between the lookup and the write -/

/-- When the row was last written. -/
def rowTime (db : NotesDb) (k : EntityType) (id : Uuid) : Option OffsetDateTime :=
  (db.get k id).map Row.updatedAt

/-- The row, if it is there, was last written before a time. -/
def Older (db : NotesDb) (k : EntityType) (id : Uuid) (time : OffsetDateTime) : Prop :=
  ∀ t ∈ rowTime db k id, t < time

omit [DecidableEq ι] in
/-- The tables as the transaction of a caller sees them. -/
def NotesWorld.seenBy (w : NotesWorld ι) (i : ι) : NotesDb :=
  notesEngine.applyAll w.committed (w.pending i)

/-- The row that a call writes unconditionally. -/
def forced : {β : Type} → Cmd NotesStmt DbError β → Option (EntityType × Uuid)
  | _, .exec .tx (.forceApplySnapshot k id _ _) => some (k, id)
  | _, _ => none

omit [DecidableEq ι] in
/-- The row that the caller is about to write unconditionally: it has looked it up just before. -/
def NotesWorld.forcing (w : NotesWorld ι) (i : ι) : Option (EntityType × Uuid) :=
  match (w.callers i).prog with
  | .ret _ => none
  | .call c _ => forced c

/-- While a push stands between the two, nobody's write of the row is committed, and the push itself
has not written the row before in its transaction. -/
def Undisturbed (w w' : NotesWorld ι) : Prop :=
  ∀ i, ∀ κ ∈ w.forcing i, rowTime w'.committed κ.1 κ.2 = rowTime w.committed κ.1 κ.2 ∧
    rowTime (w.seenBy i) κ.1 κ.2 = rowTime w.committed κ.1 κ.2

instance [Fintype ι] (w w' : NotesWorld ι) : Decidable (Undisturbed w w') :=
  inferInstanceAs (Decidable (∀ i, ∀ κ ∈ w.forcing i,
    rowTime w'.committed κ.1 κ.2 = rowTime w.committed κ.1 κ.2 ∧
      rowTime (w.seenBy i) κ.1 κ.2 = rowTime w.committed κ.1 κ.2))

/-! ## What the push knows -/

namespace NotesService

section Found

variable {k : EntityType} {id : Uuid}

/-- When the row was last written, as the last answer said; none if the last answer was another. -/
def noteFound (k : EntityType) (id : Uuid) :
    {β : Type} → Cmd NotesStmt DbError β → β → Option OffsetDateTime → Option OffsetDateTime
  | _, .exec .pool (.findById k' id' _), .ok (some row), _ =>
    if k' = k ∧ id' = id then some row.updatedAt else none
  | _, _, _, _ => none

/-- An unconditional write is made of an older row only. -/
def MayForce (k : EntityType) (id : Uuid) (clientUpdatedAt : OffsetDateTime) :
    {β : Type} → Cmd NotesStmt DbError β → Option OffsetDateTime → Prop
  | _, .exec .tx (.forceApplySnapshot k' id' _ _), g =>
    k' = k → id' = id → ∃ t, g = some t ∧ t < clientUpdatedAt
  | _, _, _ => True

variable {m : Mutation k.Fields} {c : Uuid} {g : Option OffsetDateTime}

/-- A lookup finds nothing, or notes when the row was written. -/
theorem guarded_findOrFail {α : Type} {f : Row k.Fields → NotesSvc α}
    (h : ∀ existing : Row k.Fields,
      Act.Guarded (MayForce k id m.clientUpdatedAt) (noteFound k id) (f existing)
        (fun _ _ => True) (some existing.updatedAt)) :
    Act.Guarded (MayForce k id m.clientUpdatedAt) (noteFound k id)
      (findOrFail k id c >>= f) (fun _ _ => True) g := by
  refine Act.guarded_bind (Act.guarded_bind (Act.guarded_ask trivial fun o => ?_))
  cases o with
  | none => nofun
  | some existing =>
    refine Act.guarded_pure ?_
    have hnote : noteFound k id (.exec .pool (.findById k id c)) (.ok (some existing)) g =
        some existing.updatedAt := if_pos ⟨rfl, rfl⟩
    rw [hnote]
    exact h existing

theorem guarded_applyMutation (c : Uuid) (m : Mutation k.Fields) (g : Option OffsetDateTime) :
    Act.Guarded (MayForce k m.id m.clientUpdatedAt) (noteFound k m.id) (applyMutation k c m)
      (fun _ _ => True) g := by
  unfold applyMutation
  cases rejection k m.fields with
  | some reason => exact Act.guarded_pure trivial
  | none =>
    cases m.baseVersion with
    | none =>
      cases m.deleted with
      | true => exact Act.guarded_pure trivial
      | false =>
        refine Act.guarded_bind (Act.guarded_ask trivial fun o => ?_)
        cases o with
        | some row => exact Act.guarded_pure trivial
        | none =>
          refine guarded_findOrFail fun existing => ?_
          split
          · rename_i hnewer
            refine Act.guarded_bind (Act.guarded_ask ?_ fun row => Act.guarded_pure trivial)
            exact fun _ _ => ⟨existing.updatedAt, rfl, hnewer⟩
          · exact Act.guarded_pure trivial
    | some baseVersion =>
      refine Act.guarded_bind (Act.guarded_ask trivial fun o => ?_)
      cases o with
      | some row => exact Act.guarded_pure trivial
      | none => exact guarded_findOrFail fun existing => Act.guarded_pure trivial

end Found

/-! ## Among others -/

variable {k : EntityType} {id : Uuid} {i : ι} {clientUpdatedAt : OffsetDateTime}

/-- If the push stands before the write, what it found is still so. -/
def StillThere (k : EntityType) (id : Uuid) (i : ι) (g : Option OffsetDateTime)
    (w : NotesWorld ι) : Prop :=
  w.forcing i = some (k, id) → ∀ t, g = some t → rowTime w.committed k id = some t

/-- Only a lookup of the row notes anything, and it changes nothing. -/
theorem rowTime_of_noteFound {w : NotesWorld ι} {β : Type} {call : Cmd NotesStmt DbError β}
    {kont : β → Prog (Cmd NotesStmt DbError) _} {fault : Bool} {g : Option OffsetDateTime}
    {t : OffsetDateTime}
    (h : noteFound k id call (Session.handle notesEngine call (w.session i call fault)).1 g = some t) :
    rowTime (w.answer notesEngine i call kont fault).committed k id = some t := by
  rw [World.committed_answer]
  cases call with
  | begin => cases h
  | commit => cases h
  | exec e stmt =>
    cases e with
    | tx => cases h
    | pool =>
      cases stmt with
      | findById k' id' c =>
        cases fault with
        | true => cases h
        | false =>
          have hanswer : (Session.handle notesEngine (.exec .pool (.findById k' id' c))
              (w.session i (.exec .pool (.findById k' id' c)) false)).1 =
              .ok (findById w.committed k' id' c) := rfl
          rw [hanswer] at h
          cases hfound : findById w.committed k' id' c with
          | none => rw [hfound] at h; cases h
          | some row =>
            rw [hfound] at h
            obtain ⟨⟨rfl, rfl⟩, ht⟩ := Option.ite_none_right_eq_some.1 h
            have hrow := (Option.filter_eq_some_iff.1 hfound).1
            have hsame : notesEngine.applyAll w.committed
                (Cmd.commits notesEngine (.exec .pool (.findById k' id' c))
                  (w.session i (.exec .pool (.findById k' id' c)) false)) = w.committed := rfl
            rw [hsame, rowTime, hrow]
            exact ht
      | _ => cases h

theorem linked_stillThere :
    World.Linked notesKeyed Undisturbed (MayForce k id clientUpdatedAt) (noteFound k id)
      (StillThere k id i) i where
  own := fun _ _ _ _ _ _ ht => rowTime_of_noteFound ht
  others := by
    intro (w : NotesWorld ι) (w' : NotesWorld ι) g hs hapart hlink hforcing t ht
    have hforcing' : w.forcing i = some (k, id) := by
      rw [← hforcing]
      unfold NotesWorld.forcing
      rw [hapart.prog]
    exact (hs.2 i _ hforcing').1.trans (hlink hforcing' t ht)

end NotesService

/-- In every run whose steps all meet the condition: the push is inside a mutation, and the step that
writes the row unconditionally writes over a row that is older than the mutation. -/
theorem force_overwrites_older {i : ι} {k : EntityType} {c : Uuid} {m : Mutation k.Fields}
    {rest : Except NotesError MutationResult → Prog (Cmd NotesStmt DbError) _}
    {w v : NotesWorld ι} {s : Snapshot k.Fields}
    {kont : Except DbError (Row k.Fields) → Prog (Cmd NotesStmt DbError) _} {fault : Bool}
    (hinside : World.Inside notesKeyed Undisturbed i rest w
      (ExceptT.run (NotesService.applyMutation k c m)) v
      (.call (.exec .tx (.forceApplySnapshot k m.id c s)) kont))
    (hs : World.StepMay notesKeyed Undisturbed v
      (v.answer notesEngine i (.exec .tx (.forceApplySnapshot k m.id c s))
        (fun b => kont b >>= rest) fault)) :
    Older (v.seenBy i) k m.id m.clientUpdatedAt := by
  intro t ht
  have hforcing : v.forcing i = some (k, m.id) := by
    rw [NotesWorld.forcing, hinside.prog]
    rfl
  obtain ⟨g, hlink, hpre, -⟩ := hinside.ghost NotesService.linked_stillThere
    (fun _ t ht => by cases ht) (NotesService.guarded_applyMutation c m none)
  obtain ⟨t', rfl, hlt⟩ := hpre rfl rfl
  have hfound := hlink hforcing t' rfl
  rw [(hs.2 i _ hforcing).2, hfound] at ht
  obtain rfl := Option.some.inj ht
  exact hlt

/-! ### Runs -/

/-- A mutation made at 50 of a note that is there already. -/
def fifty : NoteMutation :=
  { id := ⟨1⟩, fields := ⟨"Groceries", "milk", false, none⟩, deleted := false, baseVersion := none,
    clientUpdatedAt := 50 }

/-- The mutation, with the note there since 0. -/
def pushedFifty : NotesWorld (Fin 1) :=
  .start (NotesDb.empty.put .note (newRow 0 ⟨1⟩ ⟨7⟩ fifty.fields)) 10 fun _ =>
    ExceptT.run (NotesService.applyMutation .note ⟨7⟩ fifty) >>= fun r =>
      .ret (r.map fun result => .pushed [result])

theorem fifty_overwrites_older :
    ∃ v : NotesWorld (Fin 1), rowTime (v.seenBy 0) .note ⟨1⟩ = some 0 ∧
      Older (v.seenBy 0) .note ⟨1⟩ 50 := by
  have hbegun : World.Inside notesKeyed Undisturbed 0 _ pushedFifty
      (ExceptT.run (NotesService.applyMutation .note ⟨7⟩ fifty)) pushedFifty
      (.call (.exec .tx (.upsertIfAbsent .note ⟨1⟩ ⟨7⟩ ⟨fifty.fields, false⟩)) _) :=
    .enter rfl
  have hfound := hbegun.answered (free_of_idle (by decide) 0 _ false) (by decide)
  have hlooked := World.Inside.answered (c := .exec .pool (.findById .note ⟨1⟩ ⟨7⟩)) hfound
    (free_of_idle (by decide) 0 _ false) (by decide)
  have hstands : World.Inside notesKeyed Undisturbed 0 _ pushedFifty _ _
      (.call (.exec .tx (.forceApplySnapshot .note ⟨1⟩ ⟨7⟩ ⟨fifty.fields, false⟩)) _) := hlooked
  have hwrite := force_overwrites_older hstands
    ⟨.call false hstands.prog (free_of_idle (by decide) 0 _ false), by decide⟩
  exact ⟨_, rfl, hwrite⟩

/-- The note is made, pushed again, and edited. -/
def collide : Fin 3 → NotesOp
  | 0 => .createNote ⟨7⟩ groceries
  | 1 => .syncPush ⟨7⟩ [.note fifty]
  | 2 => .updateNote ⟨1⟩ ⟨7⟩ (editTo "bread")

/-- The caller's next call is answered, at the time `t`. -/
def turnAt (t : OffsetDateTime) (i : Fin 3) (w : NotesWorld (Fin 3)) : NotesWorld (Fin 3) :=
  match (w.callers i).prog with
  | .ret _ => { w with clock := t }
  | .call c k => World.answer { w with clock := t } notesEngine i c k false

theorem reaches_turnAt {ops : Fin 3 → NotesOp} {start t : OffsetDateTime}
    {w : NotesWorld (Fin 3)} (h : NotesReaches ops start w) (ht : w.clock ≤ t)
    (hidle : ∀ i, w.pending i = []) (i : Fin 3) : NotesReaches ops start (turnAt t i w) := by
  have htick : NotesReaches ops start { w with clock := t } := .tail h (.tick ht)
  unfold turnAt
  split
  · exact htick
  · rename_i β c k hp
    exact .tail htick (.call false hp
      (free_of_idle (w := { w with clock := t }) hidle i c false))

/-- The note is there since 0, the push has begun at 10 and has looked it up, the edit comes at 60,
and the push is about to write. -/
def edited : NotesWorld (Fin 3) :=
  turnAt 60 2 (turnAt 10 1 (turnAt 10 1 (turnAt 10 1 (turnAt 0 0
    (.start .empty 0 fun i => ExceptT.run (collide i).prog)))))

theorem newer_edit_overwritten :
    NotesReaches collide 0 edited ∧ edited.forcing 1 = some (.note, ⟨1⟩) ∧
      ¬ Older (edited.seenBy 1) .note ⟨1⟩ fifty.clientUpdatedAt ∧
      ((edited.seenBy 1).get .note ⟨1⟩).map (fun r => r.fields.content) = some "bread" ∧
      (((turnAt 70 1 edited).seenBy 1).get .note ⟨1⟩).map (fun r => r.fields.content) =
        some "milk" := by
  refine ⟨?_, rfl, ?_, rfl, rfl⟩
  · unfold edited
    refine reaches_turnAt (reaches_turnAt (reaches_turnAt (reaches_turnAt (reaches_turnAt .refl
      ?_ ?_ 0) ?_ ?_ 1) ?_ ?_ 1) ?_ ?_ 1) ?_ ?_ 2
    all_goals decide
  · intro h
    exact absurd (h 60 rfl) (by decide)

end Meno
