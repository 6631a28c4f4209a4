import Meno.Auth.Interleaving
import Meno.Auth.Token
import Meno.Lib.Merge

/-!
# Meno.Auth.Rotation

What the transaction of `rotate` commits. It deletes the row of the token that it was given and
stores the new one, and does not look at the number of rows that it has deleted. In the runs in
which the `DELETE` of every rotation finds its row, a commit that stores a new row has deleted the
old one (`drops_of_stores`).
-/

namespace Meno

namespace Auth

open Lib

/-! ## The next call -/

section Condition

variable {ρ ι : Type}

/-- The `DELETE` of a rotation: the id and the user that it names. -/
def deletes : {β : Type} → Cmd AuthStmt DbError β → Option (Uuid × Uuid)
  | _, .exec .tx (.deleteRefreshToken jti u) => some (jti, u)
  | _, _ => none

/-- The `INSERT` of a rotation. -/
def inserts : {β : Type} → Cmd AuthStmt DbError β → Bool
  | _, .exec .tx (.storeRefreshToken _ _ _ _) => true
  | _, _ => false

/-- The `DELETE` that a program is about to make. -/
def deleting : Prog (Cmd AuthStmt DbError) ρ → Option (Uuid × Uuid)
  | .call c _ => deletes c
  | .ret _ => none

/-- The program is about to make its `INSERT`. -/
def inserting : Prog (Cmd AuthStmt DbError) ρ → Bool
  | .call c _ => inserts c
  | .ret _ => false

/-- A rotation whose `DELETE` is answered has found the row that it names. -/
def DeleteFinds (w w' : World AuthStmt AuthDb AuthWrite OffsetDateTime DbError ρ ι) : Prop :=
  ∀ i, ∀ p ∈ deleting (w.callers i).prog, inserting (w'.callers i).prog = true →
    (AuthRepository.findRefreshToken (authEngine.applyAll w.committed (w.pending i)) p.1
      p.2).isSome = true

instance [Fintype ι] (w w' : World AuthStmt AuthDb AuthWrite OffsetDateTime DbError ρ ι) :
    Decidable (DeleteFinds w w') :=
  inferInstanceAs (Decidable (∀ i, ∀ p ∈ deleting (w.callers i).prog, _ → _))

end Condition

/-! ## The order of the statements -/

/-- Calls that store no refresh token's row. -/
def Storeless : {β : Type} → Cmd AuthStmt DbError β → Prop
  | _, .exec _ (.storeRefreshToken _ _ _ _) => False
  | _, _ => True

/-- The calls of a rotation outside of its transaction. -/
def Looking : {β : Type} → Cmd AuthStmt DbError β → Prop
  | _, .exec .pool .nowUtc => True
  | _, .exec .pool (.findRefreshToken _ _) => True
  | _, .exec .pool (.revokeRefreshToken _) => True
  | _, .exec .pool (.findById _) => True
  | _, _ => False

/-- The calls of a rotation. -/
def Rotating (newJti : Uuid) : {β : Type} → Cmd AuthStmt DbError β → Prop
  | _, .begin => True
  | _, .exec .tx (.deleteRefreshToken _ _) => True
  | _, .exec .tx (.storeRefreshToken jti _ _ _) => jti = newJti
  | _, .commit => True
  | _, c => Looking c

/-- A row is stored in a transaction, right after the `DELETE`. -/
def AfterDelete : {β : Type} → Cmd AuthStmt DbError β → Prop → Prop
  | _, .exec .tx (.storeRefreshToken _ _ _ _), g => g
  | _, .exec .pool (.storeRefreshToken _ _ _ _), _ => False
  | _, _, _ => True

/-- That the last call was the `DELETE` of `jti`, and was answered. -/
def noteDeleted (jti : Uuid) : {β : Type} → Cmd AuthStmt DbError β → β → Prop → Prop
  | _, .exec .tx (.deleteRefreshToken jti' _), .ok _, _ => jti' = jti
  | _, _, _, _ => False

theorem afterDelete_of_storeless {β : Type} (c : Cmd AuthStmt DbError β) (g : Prop)
    (h : Storeless c) : AfterDelete c g := by
  cases c with
  | begin => trivial
  | commit => trivial
  | exec e s =>
    cases s with
    | storeRefreshToken => exact h.elim
    | _ => cases e <;> trivial

theorem storeless_of_looking {β : Type} (c : Cmd AuthStmt DbError β) (h : Looking c) :
    Storeless c := by
  cases c with
  | exec e s =>
    cases s with
    | storeRefreshToken => cases e <;> exact h.elim
    | _ => trivial
  | _ => trivial

theorem rotating_of_looking {newJti : Uuid} {β : Type} (c : Cmd AuthStmt DbError β)
    (h : Looking c) : Rotating newJti c := by
  cases c with
  | exec e s =>
    cases e with
    | pool => exact h
    | tx => exact h.elim
  | _ => trivial

section Programs

variable {τ : Type} {ts : TokenService τ} {token : τ} {g : Prop}

theorem storeless_ask {β : Type} {wrap : DbError → AuthError} {e : Executor} {s : AuthStmt β}
    (h : Storeless (.exec e s : Cmd AuthStmt DbError _)) :
    Act.Uses Storeless (Act.ask wrap (.exec e s) : AuthSvc β) := Act.uses_ask h

theorem uses_okOr {may : {β : Type} → Cmd AuthStmt DbError β → Prop} {α : Type} {e : AuthError}
    (o : Option α) : Act.Uses may (okOr e o) := by
  cases o <;> trivial

theorem uses_refuse {may : {β : Type} → Cmd AuthStmt DbError β → Prop} {e : AuthError}
    (cond : Bool) : Act.Uses may (refuse e cond) := by
  cases cond <;> trivial

theorem looking_ask {β : Type} {wrap : DbError → AuthError} {e : Executor} {s : AuthStmt β}
    (h : Looking (.exec e s : Cmd AuthStmt DbError _)) :
    Act.Uses Looking (Act.ask wrap (.exec e s) : AuthSvc β) := Act.uses_ask h

theorem looking_decodeRefresh : Act.Uses Looking (ts.decodeRefresh token) :=
  Act.uses_bind (looking_ask trivial) fun _ => Act.uses_ofExcept _

theorem looking_refuseExpired {stored : RefreshToken} {jti : Uuid} :
    Act.Uses Looking (TokenService.refuseExpired stored jti) := by
  refine Act.uses_bind (looking_ask trivial) fun now => ?_
  split
  · exact Act.uses_bind (looking_ask trivial) fun _ => Act.uses_throw _
  · exact Act.uses_pure _

theorem looking_signAccess {user : User} {providers : List AuthProvider} {jti : Uuid} :
    Act.Uses Looking (ts.signAccess user providers jti) :=
  Act.uses_bind (looking_ask trivial) fun _ => Act.uses_pure _

theorem storeless_blockIfValid {accessToken : Option τ} :
    Act.Uses Storeless (ts.blockIfValid accessToken) := by
  cases accessToken with
  | none => exact Act.uses_pure _
  | some access =>
    refine Act.uses_bind (storeless_ask trivial) fun now => ?_
    split
    · exact Act.uses_pure _
    · refine Act.uses_bind (storeless_ask trivial) fun now => ?_
      dsimp only
      split
      · unfold AuthCache.blockAccessToken
        dsimp only
        split
        · exact Act.uses_pure _
        · exact storeless_ask trivial
      · exact Act.uses_pure _

theorem storeless_revoke {accessToken : Option τ} :
    Act.Uses Storeless (ts.revoke token accessToken) := by
  refine Act.uses_bind (Prog.uses_mono storeless_of_looking looking_decodeRefresh) fun _ => ?_
  exact Act.uses_bind (storeless_ask trivial) fun _ => storeless_blockIfValid

theorem uses_rotate {providers : List AuthProvider} {newJti accessJti : Uuid} :
    Act.Uses (Rotating newJti) (ts.rotate token providers newJti accessJti) := by
  have huses : ∀ {α : Type} {x : AuthSvc α}, Act.Uses Looking x → Act.Uses (Rotating newJti) x :=
    fun hx => Prog.uses_mono rotating_of_looking hx
  refine Act.uses_bind (huses looking_decodeRefresh) fun claims => ?_
  refine Act.uses_bind (huses (looking_ask trivial)) fun found => ?_
  refine Act.uses_bind (uses_okOr _) fun stored => ?_
  refine Act.uses_bind (uses_refuse _) fun _ => ?_
  refine Act.uses_bind (huses looking_refuseExpired) fun _ => ?_
  refine Act.uses_bind (huses (looking_ask trivial)) fun found => ?_
  refine Act.uses_bind (uses_okOr _) fun user => ?_
  refine Act.uses_bind (huses (looking_ask trivial)) fun now => ?_
  refine Act.uses_bind (huses (looking_ask trivial)) fun nowUnix => ?_
  refine Act.uses_bind ?_ fun _ => ?_
  · refine Act.uses_bind (Act.uses_ask trivial) fun _ => ?_
    refine Act.uses_bind (Act.uses_ask trivial) fun _ => ?_
    refine Act.uses_bind (Act.uses_ask rfl) fun _ => ?_
    exact Act.uses_ask trivial
  · exact Act.uses_bind (huses looking_signAccess) fun _ => Act.uses_pure _

theorem checkRefresh_decodes {now : OffsetDateTime} {c : RefreshClaims}
    (h : ts.checkRefresh now token = .ok c) :
    (ts.crypto.decode ts.config.refreshSecret token).bind Payload.toRefresh = some c := by
  unfold TokenService.checkRefresh at h
  split at h
  · cases h
  · rename_i c' hc
    split at h
    · cases h
    · cases h
      exact hc

/-- A rotation stores its row right after the `DELETE` of the row of the token that it was given. -/
theorem rotate_guarded {claims : RefreshClaims} {providers : List AuthProvider}
    {newJti accessJti : Uuid}
    (hclaims : (ts.crypto.decode ts.config.refreshSecret token).bind Payload.toRefresh =
      some claims) :
    Act.Guarded AfterDelete (noteDeleted claims.jti) (ts.rotate token providers newJti accessJti)
      (fun _ _ => True) g := by
  have hdecoded : Act.Guarded AfterDelete (noteDeleted claims.jti) (ts.decodeRefresh token)
      (fun c _ => c = claims) g := by
    refine Act.guarded_bind (Act.guarded_ask trivial fun now => ?_)
    refine Act.guarded_ofExcept fun c hc => ?_
    rw [checkRefresh_decodes hc] at hclaims
    exact Option.some.inj hclaims
  have hafter : ∀ {α β : Type} {x : AuthSvc α} {f : α → AuthSvc β} {Q : β → Prop → Prop} {g : Prop},
      Act.Uses Looking x → (∀ a g', Act.Guarded AfterDelete (noteDeleted claims.jti) (f a) Q g') →
        Act.Guarded AfterDelete (noteDeleted claims.jti) (x >>= f) Q g :=
    fun hx h => Act.guarded_after afterDelete_of_storeless
      (Prog.uses_mono storeless_of_looking hx) h
  refine Act.guarded_bind (Prog.guarded_mono (fun r g' hr => ?_) hdecoded)
  rintro c rfl
  cases hr c rfl
  refine hafter (looking_ask trivial) fun found _ => ?_
  refine hafter (uses_okOr _) fun stored _ => ?_
  refine hafter (uses_refuse _) fun _ _ => ?_
  refine hafter looking_refuseExpired fun _ _ => ?_
  refine hafter (looking_ask trivial) fun found _ => ?_
  refine hafter (uses_okOr _) fun user _ => ?_
  refine hafter (looking_ask trivial) fun now _ => ?_
  refine hafter (looking_ask trivial) fun nowUnix _ => ?_
  refine Act.guarded_bind ?_
  refine Act.guarded_bind (Act.guarded_ask trivial fun _ => ?_)
  refine Act.guarded_bind (Act.guarded_ask trivial fun _ => ?_)
  refine Act.guarded_bind (Act.guarded_ask rfl fun _ => ?_)
  refine Act.guarded_ask trivial fun _ => ?_
  exact hafter looking_signAccess fun _ _ => Act.guarded_pure trivial

end Programs

/-! ## Rows in the history -/

/-- The id and the user of the refresh token whose row is stored. -/
def AuthWrite.storedFor : AuthWrite → Option (Uuid × Uuid)
  | .refreshToken row => some (row.id, row.userId)
  | _ => none

theorem storedId_eq (x : AuthWrite) : x.storedId = x.storedFor.map Prod.fst := by
  cases x <;> rfl

/-- A statement's answer tells which rows of refresh tokens it has stored. -/
def stores : {β : Type} → AuthStmt β → β → List (Uuid × Uuid)
  | _, .storeRefreshToken jti u _ _, _ => [(jti, u)]
  | _, _, _ => []

theorem stores_honest : World.Honest AuthWrite.storedFor stores authEngine := by
  intro β s now db b ws h
  have hnone : (∀ x ∈ ws, x.storedFor = none) → ws.filterMap AuthWrite.storedFor = [] :=
    fun hws => List.filterMap_eq_nil_iff.2 hws
  cases s with
  | storeRefreshToken jti u hash e =>
    obtain ⟨rfl, -⟩ := AuthRepository.storeRefreshToken_ok h
    rfl
  | deleteRefreshToken jti u =>
    rcases deleteRefreshToken_ok h with rfl | ⟨rfl, -⟩
    · rfl
    · rfl
  | revokeRefreshToken jti =>
    rcases revokeRefreshToken_ok h with ⟨rfl, -⟩ | ⟨rfl, -⟩
    · rfl
    · rfl
  | deleteRefreshTokens ids =>
    cases h
    refine hnone fun x hx => ?_
    obtain ⟨r, -, rfl⟩ := List.mem_map.1 hx
    rfl
  | _ =>
    refine hnone fun x hx => ?_
    have hstored := (exec_other h trivial x hx).1
    rw [storedId_eq] at hstored
    exact Option.map_eq_none_iff.1 hstored

/-- A row that a statement stores is one that its answer tells. -/
theorem mem_stores {β : Type} {s : AuthStmt β} {now : OffsetDateTime} {db : AuthDb} {b : β}
    {ws : List AuthWrite} (h : authEngine.exec s now db = .ok (b, ws)) {x : AuthWrite} (hx : x ∈ ws)
    {jti : Uuid} (hstored : x.storedId = some jti) : ∃ u, (jti, u) ∈ stores s b := by
  rw [storedId_eq] at hstored
  obtain ⟨⟨jti', u⟩, hfor, rfl⟩ := Option.map_eq_some_iff.1 hstored
  have hmem : (jti', u) ∈ ws.filterMap AuthWrite.storedFor := List.mem_filterMap.2 ⟨x, hx, hfor⟩
  rw [stores_honest s now db b ws h] at hmem
  exact ⟨u, hmem⟩

section Steps

variable {ρ ι : Type} [DecidableEq ι] {progs : ι → Prog (Cmd AuthStmt DbError) ρ} {db : AuthDb}
  {t : OffsetDateTime} {w w' : World AuthStmt AuthDb AuthWrite OffsetDateTime DbError ρ ι}
  {jti : Uuid}

/-- What a step commits, as a chain on the store before it. -/
theorem commit_of_step (hw : World.Reaches authKeyed progs db t w)
    (hs : World.Step authKeyed w w') :
    authEngine.Chain AuthWrite.Legal w.committed ((World.newLog w w').map Prod.snd) ∧
      w'.committed = authEngine.applyAll w.committed ((World.newLog w w').map Prod.snd) := by
  have hinv : ∀ {v : World AuthStmt AuthDb AuthWrite OffsetDateTime DbError ρ ι},
      World.Reaches authKeyed progs db t v →
        World.Inv authKeyed (fun _ => True) AuthWrite.Legal db v :=
    fun hv => World.inv_of_reaches auth_disciplined (fun _ => World.uses_anything _) hv
  exact (hinv hw).fresh (hinv (.tail hw hs)) hs

/-- A row that is gone stays away while no commit stores it. -/
theorem absent_step (hw : World.Reaches authKeyed progs db t w) (hs : World.Step authKeyed w w')
    (hother : ∀ e ∈ World.newLog w w', e.2.storedId ≠ some jti)
    (h : w.committed.refreshTokens.get jti = none) :
    w'.committed.refreshTokens.get jti = none := by
  rw [(commit_of_step hw hs).2]
  refine absent_applyAll _ _ h fun x hx => ?_
  obtain ⟨e, he, rfl⟩ := List.mem_map.1 hx
  exact hother e he

/-- The row that a commit removes was there. -/
theorem dropped_step (hw : World.Reaches authKeyed progs db t w) (hs : World.Step authKeyed w w')
    (hother : ∀ e ∈ World.newLog w w', e.2.storedId ≠ some jti)
    (h : ∃ e ∈ World.newLog w w', e.2.droppedId = some jti) :
    (w.committed.refreshTokens.get jti).isSome ∧ w'.committed.refreshTokens.get jti = none := by
  obtain ⟨hchain, hcommitted⟩ := commit_of_step hw hs
  obtain ⟨e, he, hdropped⟩ := h
  rw [hcommitted]
  refine dropped_chain _ _ hchain ⟨e.2, List.mem_map.2 ⟨e, he, rfl⟩, hdropped⟩ fun x hx => ?_
  obtain ⟨e, he, rfl⟩ := List.mem_map.1 hx
  exact hother e he

end Steps

/-! ## What a rotation commits -/

section Runs

variable {ρ ι : Type} [DecidableEq ι]
  {may : World AuthStmt AuthDb AuthWrite OffsetDateTime DbError ρ ι →
    World AuthStmt AuthDb AuthWrite OffsetDateTime DbError ρ ι → Prop}
  {jti : Uuid} {i : ι}

/-- The transaction of the caller has the old row deleted, when it is about to store the new one,
and when it has stored it. -/
structure Deletion (jti : Uuid) (i : ι) (g : Prop)
    (w : World AuthStmt AuthDb AuthWrite OffsetDateTime DbError ρ ι) : Prop where
  next : g → inserting (w.callers i).prog = true → ∃ x ∈ w.pending i, x.droppedId = some jti
  both : (∃ x ∈ w.pending i, x.storedId.isSome) → ∃ x ∈ w.pending i, x.droppedId = some jti

/-- A statement other than the `INSERT` stores no row. -/
theorem writes_storeless {β : Type} {e : Executor} {s : AuthStmt β}
    {session : Session AuthDb AuthWrite OffsetDateTime}
    (h : Storeless (.exec e s : Cmd AuthStmt DbError _)) :
    ∀ x ∈ (Cmd.exec e s).writes authEngine session, x.storedId = none := by
  intro x hx
  obtain ⟨b, ws, he, hx⟩ := World.mem_writes hx
  cases hstored : x.storedId with
  | none => rfl
  | some jti' =>
    obtain ⟨u, hmem⟩ := mem_stores he hx hstored
    cases s with
    | storeRefreshToken => exact h.elim
    | _ => cases hmem

/-- A `DELETE` that finds its row removes it. -/
theorem delete_writes {jti' u : Uuid} {session : Session AuthDb AuthWrite OffsetDateTime} {n : Nat}
    (hanswer : (Session.handle authEngine (.exec .tx (.deleteRefreshToken jti' u)) session).1 =
      .ok n)
    (hfinds : (AuthRepository.findRefreshToken (session.view authEngine) jti' u).isSome = true) :
    (Cmd.exec .tx (.deleteRefreshToken jti' u)).writes authEngine session =
      [.dropRefreshToken jti'] := by
  obtain ⟨r, hr⟩ := Option.isSome_iff_exists.1 hfinds
  obtain ⟨ws, he, hwrites⟩ := World.writes_of_answered hanswer
  have hexec := Except.ok.inj he
  simp only [AuthRepository.deleteRefreshToken, hr] at hexec
  rw [hwrites]
  exact (congrArg Prod.snd hexec).symm

theorem noteDeleted_pool {β : Type} {s : AuthStmt β} {b : Except DbError β} {g : Prop} :
    ¬noteDeleted jti (.exec .pool s) b g := by
  cases s <;> exact id

theorem deletion_linked (hmay : ∀ w w', may w w' → DeleteFinds w w') :
    World.Linked authKeyed may AfterDelete (noteDeleted jti) (Deletion jti i) i where
  own := by
    intro w β c k fault g hp hs hpre hg
    cases c with
    | begin =>
      have hpending := @Cmd.pending_begin _ _ _ _ _ authEngine (w.session i .begin fault)
      refine ⟨False.elim, ?_⟩
      rw [World.pending_answer_self]
      rcases hpending with he | he
      · rw [he]
        exact hg.both
      · rw [he]
        simp
    | commit =>
      refine ⟨False.elim, ?_⟩
      rw [World.pending_answer_self, Cmd.pending_commit]
      simp
    | exec e s =>
      cases e with
      | pool =>
        refine ⟨fun h => (noteDeleted_pool h).elim, ?_⟩
        rw [World.pending_answer_self, Cmd.pending_pool]
        exact hg.both
      | tx =>
        have hpending : (w.answer authEngine i (.exec .tx s) k fault).pending i =
            w.pending i ++ (Cmd.exec .tx s).writes authEngine (w.session i (.exec .tx s) fault) := by
          rw [World.pending_answer_self, Cmd.pending_tx]
          rfl
        have hkeep : (∃ x ∈ w.pending i, x.droppedId = some jti) →
            ∃ x ∈ (w.answer authEngine i (.exec .tx s) k fault).pending i,
              x.droppedId = some jti := by
          rintro ⟨x, hx, hdropped⟩
          rw [hpending]
          exact ⟨x, List.mem_append_left _ hx, hdropped⟩
        have hboth : Storeless (.exec .tx s : Cmd AuthStmt DbError _) →
            (∃ x ∈ (w.answer authEngine i (.exec .tx s) k fault).pending i, x.storedId.isSome) →
            ∃ x ∈ (w.answer authEngine i (.exec .tx s) k fault).pending i,
              x.droppedId = some jti := by
          rintro hfree ⟨x, hx, hstored⟩
          rw [hpending] at hx
          rcases List.mem_append.1 hx with hx | hx
          · exact hkeep (hg.both ⟨x, hx, hstored⟩)
          · rw [writes_storeless hfree x hx] at hstored
            cases hstored
        cases s with
        | storeRefreshToken jti' u hash e =>
          refine ⟨False.elim, fun _ => hkeep (hg.next hpre ?_)⟩
          rw [hp]
          rfl
        | deleteRefreshToken jti' u =>
          refine ⟨fun hnoted hnext => ?_, hboth trivial⟩
          cases hanswer : (Session.handle authEngine (.exec .tx (.deleteRefreshToken jti' u))
              (w.session i (.exec .tx (.deleteRefreshToken jti' u)) fault)).1 with
          | error e =>
            rw [hanswer] at hnoted
            exact hnoted.elim
          | ok n =>
            rw [hanswer] at hnoted
            obtain rfl : jti' = jti := hnoted
            -- The condition says that the `DELETE` has found its row.
            have hfinds := hmay _ _ hs.2 i (jti', u) (by rw [hp]; rfl) hnext
            have hwrites := delete_writes hanswer hfinds
            rw [hpending, hwrites]
            exact ⟨_, List.mem_append_right _ (List.mem_singleton_self _), rfl⟩
        | _ => exact ⟨False.elim, hboth trivial⟩
  others := by
    intro w w' g hs hapart hg
    rcases hapart.pending with he | ⟨he, r, hr⟩
    · refine ⟨?_, ?_⟩
      · rw [hapart.prog, he]
        exact hg.next
      · rw [he]
        exact hg.both
    · refine ⟨?_, ?_⟩
      · rw [hapart.prog, hr]
        intro _ h
        cases h
      · rw [he]
        simp

/-- A rotation that is committed has deleted the old row. -/
theorem drops_of_stores (hmay : ∀ w w', may w w' → DeleteFinds w w')
    {progs : ι → Prog (Cmd AuthStmt DbError) ρ} {db : AuthDb} {t : OffsetDateTime}
    {w w' : World AuthStmt AuthDb AuthWrite OffsetDateTime DbError ρ ι} {Q : ρ → Prop → Prop}
    (hrun : World.StepsMay authKeyed may (World.start db t progs) w)
    (hprog : Prog.guarded AfterDelete (noteDeleted jti) (progs i) Q False)
    (hs : World.StepMay authKeyed may w w') {x : AuthWrite} (hx : (i, x) ∈ World.newLog w w')
    (hstored : x.storedId.isSome) :
    ∃ y, (i, y) ∈ World.newLog w w' ∧ y.droppedId = some jti := by
  have hstart : Deletion jti i False (World.start db t progs) := ⟨False.elim, by simp⟩
  obtain ⟨g, hg, hguarded⟩ := World.ghost_of_steps (deletion_linked hmay) hrun hstart hprog
  have hstep := hs.1
  cases hstep with
  | @call j β c k fault hp hfree =>
    rw [World.newLog_answer] at hx ⊢
    obtain ⟨y, hy, he⟩ := List.mem_map.1 hx
    cases he
    cases c with
    | begin => cases hy
    | commit =>
      simp only [Cmd.commits] at hy ⊢
      split at hy
      · cases hy
      · rename_i hquiet
        rw [if_neg hquiet]
        obtain ⟨z, hz, hdropped⟩ := hg.both ⟨x, hy, hstored⟩
        exact ⟨z, List.mem_map.2 ⟨z, hz, rfl⟩, hdropped⟩
    | exec e s =>
      cases e with
      | tx => cases hy
      | pool =>
        rw [hp] at hguarded
        have hpre := hguarded.1
        have hfree : Storeless (.exec .pool s : Cmd AuthStmt DbError _) := by
          cases s with
          | storeRefreshToken => exact hpre
          | _ => trivial
        rw [writes_storeless hfree x hy] at hstored
        cases hstored
  | rollback hp =>
    rw [World.newLog_rollback] at hx
    cases hx
  | tick ht =>
    rw [World.newLog_tick] at hx
    cases hx

end Runs

end Auth

end Meno
