import Meno.Auth.Entrances
import Meno.Auth.Rotation

/-!
# Meno.Auth.SingleUse

Calls of `rotate` and `revoke` that are given one refresh token, interleaved statement by statement.
A rotation that has found the row in its lookup goes on when its `DELETE` finds none. In the runs in
which every `DELETE` finds its row, a token is used once (`single_use`).
-/

namespace Meno

namespace Auth

open Lib

variable {τ : Type}

/-- A call that is given the refresh token: `jti`s are what `Uuid::new_v4()` gives. -/
inductive TokenOp (τ : Type) where
  | rotate (providers : List AuthProvider) (newJti accessJti : Uuid)
  | revoke (accessToken : Option τ)

def TokenOp.prog (ts : TokenService τ) (token : τ) :
    TokenOp τ → AuthSvc (Option (IssuedTokenPair τ × User))
  | .rotate providers newJti accessJti => do
    return some (← ts.rotate token providers newJti accessJti)
  | .revoke accessToken => do
    ts.revoke token accessToken
    return none

/-- The call is one of `rotate`. -/
def TokenOp.Rotates : TokenOp τ → Prop
  | .rotate _ _ _ => True
  | .revoke _ => False

abbrev TokenWorld (τ ι : Type) :=
  World AuthStmt AuthDb AuthWrite OffsetDateTime DbError
    (Except AuthError (Option (IssuedTokenPair τ × User))) ι

section Runs

variable {ι : Type}

/-- Caller `i` has been answered `Ok` with a new pair. -/
def Rotated (w : TokenWorld τ ι) (i : ι) : Prop :=
  ∃ pair, (w.callers i).prog = .ret (.ok (some pair))

/-- The `revoke` of caller `i` has been answered `Ok`. -/
def Revoked (w : TokenWorld τ ι) (i : ι) : Prop := (w.callers i).prog = .ret (.ok none)

/-- Whether a program has ended well, with a pair or with none. -/
def endsWith (pair : Bool) :
    Prog (Cmd AuthStmt DbError) (Except AuthError (Option (IssuedTokenPair τ × User))) → Bool
  | .ret (.ok (some _)) => pair
  | .ret (.ok none) => !pair
  | _ => false

theorem rotated_iff {w : TokenWorld τ ι} {i : ι} :
    Rotated w i ↔ endsWith true (w.callers i).prog = true := by
  unfold Rotated endsWith
  split <;> simp_all

theorem revoked_iff {w : TokenWorld τ ι} {i : ι} :
    Revoked w i ↔ endsWith false (w.callers i).prog = true := by
  unfold Revoked endsWith
  split <;> simp_all

instance (w : TokenWorld τ ι) (i : ι) : Decidable (Rotated w i) :=
  decidable_of_iff _ rotated_iff.symm

instance (w : TokenWorld τ ι) (i : ι) : Decidable (Revoked w i) :=
  decidable_of_iff _ revoked_iff.symm

/-- Caller `i` has stored a refresh token's row. -/
def Stored (w : TokenWorld τ ι) (i : ι) : Prop := ∃ x, (i, x) ∈ w.log ∧ x.storedId.isSome

/-- Of the calls at most one has been answered with a new pair in `w'`; and a rotation that had
stored nothing in `w`, when a revocation had been answered, stores nothing and ends with an error. -/
def UsedOnce (ops : ι → TokenOp τ) (w w' : TokenWorld τ ι) : Prop :=
  (∀ i j, Rotated w' i → Rotated w' j → i = j) ∧
    ∀ r i, Revoked w r → (ops i).Rotates → ¬Stored w i →
      ¬Stored w' i ∧ ∀ answer, (w'.callers i).prog = .ret answer → ∃ e, answer = .error e

variable [DecidableEq ι]

/-- The world in which all the calls are about to begin. -/
abbrev calling (ts : TokenService τ) (token : τ) (ops : ι → TokenOp τ) (db : AuthDb)
    (t : OffsetDateTime) : TokenWorld τ ι :=
  World.start db t fun i => ExceptT.run ((ops i).prog ts token)

end Runs

/-! ## What a caller knows -/

section Programs

variable {ts : TokenService τ} {token : τ}

/-- A rotation that ends well has stored its new row. -/
theorem rotateRefreshToken_stores {u oldJti newJti : Uuid} {hash : String} {e : OffsetDateTime}
    {g : List (Uuid × Uuid) × List (Uuid × Uuid)} :
    Act.Ensures (World.note stores) (TokenService.rotateRefreshToken u oldJti newJti hash e)
      (fun _ g' => g'.1 ≠ []) g := by
  refine Act.ensures_bind (Act.ensures_ask fun _ => ?_)
  refine Act.ensures_bind (Act.ensures_ask fun _ => ?_)
  refine Act.ensures_bind (Act.ensures_ask fun _ => ?_)
  refine Act.ensures_ask fun _ => ?_
  simp [World.note, stores]

theorem rotate_stores {providers : List AuthProvider} {newJti accessJti : Uuid}
    {g : List (Uuid × Uuid) × List (Uuid × Uuid)} :
    Act.Ensures (World.note stores) (ts.rotate token providers newJti accessJti)
      (fun _ g' => g'.1 ≠ []) g := by
  refine Act.ensures_after fun claims _ => ?_
  refine Act.ensures_after fun found _ => ?_
  refine Act.ensures_after fun stored _ => ?_
  refine Act.ensures_after fun _ _ => ?_
  refine Act.ensures_after fun _ _ => ?_
  refine Act.ensures_after fun found _ => ?_
  refine Act.ensures_after fun user _ => ?_
  refine Act.ensures_after fun now _ => ?_
  refine Act.ensures_after fun nowUnix _ => ?_
  refine Act.ensures_bind (Act.ensures_mono rotateRefreshToken_stores fun _ g' hg => ?_)
  -- The access token is signed after the commit, with no statement that writes.
  refine Act.ensures_bind (Act.ensures_bind (Act.ensures_ask fun t => ?_))
  refine Act.ensures_pure (Act.ensures_pure ?_)
  simpa [World.note, stores] using hg

/-- The calls of a rotation and of a revocation store no row under the id `jti`. -/
def StoresNot (jti : Uuid) : {β : Type} → AuthStmt β → Prop
  | _, .storeRefreshToken jti' _ _ _ => jti' ≠ jti
  | _, _ => True

theorem exec_storesNot {jti : Uuid} {β : Type} {s : AuthStmt β} (hs : StoresNot jti s)
    {now : OffsetDateTime} {db : AuthDb} {b : β} {ws : List AuthWrite}
    (h : authEngine.exec s now db = .ok (b, ws)) : ∀ x ∈ ws, x.storedId ≠ some jti := by
  intro x hx hstored
  obtain ⟨u, hmem⟩ := mem_stores h hx hstored
  cases s with
  | storeRefreshToken jti' u' hash e =>
    cases List.mem_singleton.1 hmem
    exact hs rfl
  | _ => cases hmem

/-- The calls that store no row under the id `jti`. -/
abbrev AllStoreNot (jti : Uuid) : {β : Type} → Cmd AuthStmt DbError β → Prop :=
  World.AllGood fun s => StoresNot jti s

theorem storesNot_of_storeless {jti : Uuid} {β : Type} (c : Cmd AuthStmt DbError β)
    (h : Storeless c) : AllStoreNot jti c := by
  cases c with
  | begin => trivial
  | commit => trivial
  | exec e s =>
    cases s with
    | storeRefreshToken => exact h.elim
    | _ => trivial

theorem storesNot_of_rotating {jti newJti : Uuid} (hnew : newJti ≠ jti) {β : Type}
    (c : Cmd AuthStmt DbError β) (h : Rotating newJti c) : AllStoreNot jti c := by
  cases c with
  | exec e s =>
    cases s with
    | storeRefreshToken jti' u hash t =>
      cases e with
      | pool => exact h.elim
      | tx =>
        obtain rfl : jti' = newJti := h
        exact hnew
    | _ => trivial
  | _ => trivial

/-- That the row of `jti` has been deleted, as a revocation knows it from its answers. -/
def noteRevoked (jti : Uuid) : {β : Type} → Cmd AuthStmt DbError β → β → Prop → Prop
  | _, .exec .pool (.revokeRefreshToken jti'), .ok _, g => g ∨ jti' = jti
  | _, _, _, g => g

/-- What is noted at a call holds of the store that the call leaves. -/
theorem gone_of_noted {jti : Uuid} {β : Type} {c : Cmd AuthStmt DbError β}
    {s : Session AuthDb AuthWrite OffsetDateTime} {g : Prop}
    (h : noteRevoked jti c (Session.handle authEngine c s).1 g) :
    g ∨ (Session.handle authEngine c s).2.committed.refreshTokens.get jti = none := by
  cases c with
  | begin => exact .inl h
  | commit => exact .inl h
  | exec e q =>
    cases e with
    | tx => exact .inl h
    | pool =>
      cases q with
      | revokeRefreshToken jti' =>
        cases hanswer : (Session.handle authEngine (.exec .pool (.revokeRefreshToken jti')) s).1 with
        | error e =>
          rw [hanswer] at h
          exact .inl h
        | ok n =>
          rw [hanswer] at h
          rcases h with hg | rfl
          · exact .inl hg
          · obtain ⟨ws, he, hcommitted⟩ := Session.handle_pool_ok authEngine hanswer
            refine .inr ?_
            rw [hcommitted]
            exact revokeRefreshToken_gone he
      | _ => exact .inl h

theorem blockIfValid_keeps {jti : Uuid} {accessToken : Option τ} {g : Prop} (hg : g) :
    Act.Ensures (noteRevoked jti) (ts.blockIfValid accessToken) (fun _ g' => g') g := by
  cases accessToken with
  | none => exact Act.ensures_pure hg
  | some access =>
    refine Act.ensures_bind (Act.ensures_ask fun now => ?_)
    split
    · exact Act.ensures_pure hg
    · refine Act.ensures_bind (Act.ensures_ask fun now => ?_)
      dsimp only
      split
      · unfold AuthCache.blockAccessToken
        dsimp only
        split
        · exact Act.ensures_pure hg
        · exact Act.ensures_ask fun _ => hg
      · exact Act.ensures_pure hg

/-- A revocation that ends well has deleted the row of the token that it was given. -/
theorem revoke_deletes {claims : RefreshClaims} {accessToken : Option τ} {g : Prop}
    (hclaims : (ts.crypto.decode ts.config.refreshSecret token).bind Payload.toRefresh =
      some claims) :
    Act.Ensures (noteRevoked claims.jti) (ts.revoke token accessToken) (fun _ g' => g') g := by
  have hdecoded : Act.Ensures (noteRevoked claims.jti) (ts.decodeRefresh token)
      (fun c _ => c = claims) g := by
    refine Act.ensures_bind (Act.ensures_ask fun now => ?_)
    refine Act.ensures_ofExcept fun c hc => ?_
    rw [checkRefresh_decodes hc] at hclaims
    exact Option.some.inj hclaims
  refine Act.ensures_bind (Act.ensures_mono hdecoded fun c g' hc => ?_)
  subst hc
  refine Act.ensures_bind (Act.ensures_ask fun _ => ?_)
  exact blockIfValid_keeps (.inr rfl)

end Programs

/-! ## Runs -/

section Runs

variable {ι : Type} [DecidableEq ι] {ts : TokenService τ} {token : τ} {claims : RefreshClaims}
  {ops : ι → TokenOp τ} {db : AuthDb} {t : OffsetDateTime} {w w' : TokenWorld τ ι}

/-- No call's new token has the id of the one that it was given. -/
def FreshIn (ops : ι → TokenOp τ) (jti : Uuid) : Prop :=
  ∀ i providers newJti accessJti, ops i = .rotate providers newJti accessJti → newJti ≠ jti

theorem storedId_of_reaches (hfresh : FreshIn ops claims.jti)
    (h : World.Reaches authKeyed (fun i => ExceptT.run ((ops i).prog ts token)) db t w) :
    ∀ e ∈ w.log, e.2.storedId ≠ some claims.jti := by
  rintro ⟨i, x⟩ hx
  refine World.log_of_uses (fun hs _ _ _ _ he => exec_storesNot hs he) ?_ h x hx
  cases hop : ops i with
  | rotate providers newJti accessJti =>
    refine Act.uses_bind ?_ fun _ => Act.uses_pure _
    exact Prog.uses_mono (storesNot_of_rotating (hfresh i _ _ _ hop)) uses_rotate
  | revoke accessToken =>
    refine Act.uses_bind ?_ fun _ => Act.uses_pure _
    exact Prog.uses_mono storesNot_of_storeless storeless_revoke

/-- The rotations store right after their `DELETE`, and the revocations do not store. -/
theorem op_guarded
    (hclaims : (ts.crypto.decode ts.config.refreshSecret token).bind Payload.toRefresh =
      some claims) (op : TokenOp τ) :
    Act.Guarded AfterDelete (noteDeleted claims.jti) (op.prog ts token) (fun _ _ => True) False := by
  cases op with
  | rotate providers newJti accessJti =>
    refine Act.guarded_bind (Prog.guarded_mono (fun r g hr => ?_) (rotate_guarded hclaims))
    exact fun _ _ => Act.guarded_pure trivial
  | revoke accessToken =>
    exact Act.guarded_after afterDelete_of_storeless storeless_revoke fun _ _ =>
      Act.guarded_pure trivial

/-- A rotation that is answered `Ok`, or whoever has got a new pair, has stored its row. -/
theorem stored_of_ok
    (h : World.Reaches authKeyed (fun i => ExceptT.run ((ops i).prog ts token)) db t w) {i : ι}
    {a : Option (IssuedTokenPair τ × User)} (hi : (w.callers i).prog = .ret (.ok a))
    (ha : (ops i).Rotates ∨ a ≠ none) : Stored w i := by
  have hends : ∀ i, Act.Ensures (World.note stores) ((ops i).prog ts token)
      (fun a g => (ops i).Rotates ∨ a ≠ none → g.1 ≠ []) ([], []) := by
    intro i
    cases ops i with
    | rotate providers newJti accessJti =>
      refine Act.ensures_bind (Act.ensures_mono rotate_stores fun _ g hg => ?_)
      exact Act.ensures_pure fun _ => hg
    | revoke accessToken =>
      refine Act.ensures_after fun _ g => Act.ensures_pure ?_
      rintro (h | h)
      · exact h.elim
      · exact absurd rfl h
  have htold := World.told_of_reaches authKeyed stores_honest
    (Q := fun i (r : Except AuthError (Option (IssuedTokenPair τ × User))) stored =>
      ∀ a, r = .ok a → (ops i).Rotates ∨ a ≠ none → stored ≠ []) hends h i
  rw [hi] at htold
  have hmarks : (w.marks AuthWrite.storedFor i).1 ≠ [] := htold _ rfl ha
  obtain ⟨m, hm⟩ := List.exists_mem_of_ne_nil _ hmarks
  obtain ⟨⟨j, x⟩, hmem, hstored⟩ := List.mem_filterMap.1 hm
  obtain ⟨hlog, hj⟩ := List.mem_filter.1 hmem
  obtain rfl : j = i := of_decide_eq_true hj
  refine ⟨x, hlog, ?_⟩
  have hfor : x.storedFor = some m := hstored
  rw [storedId_eq, hfor]
  rfl

section Step

variable (hclaims : (ts.crypto.decode ts.config.refreshSecret token).bind Payload.toRefresh =
    some claims)
  (hfresh : FreshIn ops claims.jti)
  (hrun : World.StepsMay authKeyed DeleteFinds (calling ts token ops db t) w)

include hfresh hrun

theorem newLog_storesNot (hs : World.Step authKeyed w w') :
    ∀ e ∈ World.newLog w w', e.2.storedId ≠ some claims.jti := by
  intro e he
  refine storedId_of_reaches hfresh (.tail (World.StepsMay.reaches hrun) hs) e ?_
  rw [World.log_eq_newLog hs]
  exact List.mem_append_right _ he

/-- A token that is gone does not come back. -/
theorem gone_step (hs : World.Step authKeyed w w')
    (h : w.committed.refreshTokens.get claims.jti = none) :
    w'.committed.refreshTokens.get claims.jti = none :=
  absent_step (World.StepsMay.reaches hrun) hs (newLog_storesNot hfresh hrun hs) h

include hclaims

/-- Where a rotation is committed, the token was there, and is gone. -/
theorem spent_of_step (hs : World.StepMay authKeyed DeleteFinds w w')
    (hstored : ∃ e ∈ World.newLog w w', e.2.storedId.isSome) :
    (w.committed.refreshTokens.get claims.jti).isSome ∧
      w'.committed.refreshTokens.get claims.jti = none := by
  obtain ⟨⟨i, x⟩, hx, hstored⟩ := hstored
  obtain ⟨y, hy, hdropped⟩ := drops_of_stores (fun _ _ h => h) hrun
    (op_guarded hclaims (ops i)) hs hx hstored
  exact dropped_step (World.StepsMay.reaches hrun) hs.1 (newLog_storesNot hfresh hrun hs.1)
    ⟨_, hy, hdropped⟩

end Step

/-- At most one caller has stored a new token, and if one has, the old one is gone. -/
structure Spent (jti : Uuid) (w : TokenWorld τ ι) : Prop where
  gone : ∀ i, Stored w i → w.committed.refreshTokens.get jti = none
  once : ∀ i j, Stored w i → Stored w j → i = j

theorem Spent.step
    (hclaims : (ts.crypto.decode ts.config.refreshSecret token).bind Payload.toRefresh =
      some claims) (hfresh : FreshIn ops claims.jti)
    (hrun : World.StepsMay authKeyed DeleteFinds (calling ts token ops db t) w)
    (hs : World.StepMay authKeyed DeleteFinds w w') (h : Spent claims.jti w) :
    Spent claims.jti w' := by
  have hlog := World.log_eq_newLog hs.1
  by_cases hnew : ∃ e ∈ World.newLog w w', e.2.storedId.isSome
  · -- A rotation is committed: it is the first, since the token was still there.
    obtain ⟨hthere, hgone⟩ := spent_of_step hclaims hfresh hrun hs hnew
    have hfirst : ∀ i, ¬Stored w i := by
      intro i hi
      rw [h.gone i hi] at hthere
      cases hthere
    have hone : ∀ i, Stored w' i → ∃ x, (i, x) ∈ World.newLog w w' := by
      rintro i ⟨x, hx, hstored⟩
      rw [hlog] at hx
      rcases List.mem_append.1 hx with hx | hx
      · exact absurd ⟨x, hx, hstored⟩ (hfirst i)
      · exact ⟨x, hx⟩
    refine ⟨fun _ _ => hgone, fun i j hi hj => ?_⟩
    obtain ⟨x, hx⟩ := hone i hi
    obtain ⟨y, hy⟩ := hone j hj
    exact World.newLog_caller hs.1 hx hy
  · have hold : ∀ i, Stored w' i → Stored w i := by
      rintro i ⟨x, hx, hstored⟩
      rw [hlog] at hx
      rcases List.mem_append.1 hx with hx | hx
      · exact ⟨x, hx, hstored⟩
      · exact absurd ⟨_, hx, hstored⟩ hnew
    exact ⟨fun i hi => gone_step hfresh hrun hs.1 (h.gone i (hold i hi)),
      fun i j hi hj => h.once i j (hold i hi) (hold j hj)⟩

theorem spent_of_steps
    (hclaims : (ts.crypto.decode ts.config.refreshSecret token).bind Payload.toRefresh =
      some claims) (hfresh : FreshIn ops claims.jti)
    (hrun : World.StepsMay authKeyed DeleteFinds (calling ts token ops db t) w) :
    Spent claims.jti w := by
  induction hrun with
  | refl =>
    refine ⟨?_, ?_⟩
    · rintro i ⟨x, hx, -⟩
      cases hx
    · rintro i j ⟨x, hx, -⟩
      cases hx
  | tail hrun hs ih => exact ih.step hclaims hfresh hrun hs

/-- Once the token is gone no caller stores a new one. -/
theorem stored_of_absent
    (hclaims : (ts.crypto.decode ts.config.refreshSecret token).bind Payload.toRefresh =
      some claims) (hfresh : FreshIn ops claims.jti)
    (hrun : World.StepsMay authKeyed DeleteFinds (calling ts token ops db t) w)
    (hsteps : World.StepsMay authKeyed DeleteFinds w w')
    (hgone : w.committed.refreshTokens.get claims.jti = none) :
    w'.committed.refreshTokens.get claims.jti = none ∧ ∀ i, Stored w' i → Stored w i := by
  induction hsteps with
  | refl => exact ⟨hgone, fun _ h => h⟩
  | @tail w₁ w₂ hsteps hs ih =>
    have hrun₁ := Relation.ReflTransGen.trans hrun hsteps
    obtain ⟨hgone₁, hstored₁⟩ := ih
    refine ⟨gone_step hfresh hrun₁ hs.1 hgone₁, ?_⟩
    rintro i ⟨x, hx, hstored⟩
    rw [World.log_eq_newLog hs.1] at hx
    rcases List.mem_append.1 hx with hx | hx
    · exact hstored₁ i ⟨x, hx, hstored⟩
    · obtain ⟨hthere, -⟩ := spent_of_step hclaims hfresh hrun₁ hs ⟨_, hx, hstored⟩
      rw [hgone₁] at hthere
      cases hthere

/-- What a revocation knows is so. -/
theorem revoke_linked (hfresh : FreshIn ops claims.jti) (i : ι) :
    World.Linked authKeyed DeleteFinds (fun _ _ => True) (noteRevoked claims.jti)
      (fun g (w : TokenWorld τ ι) =>
        World.StepsMay authKeyed DeleteFinds (calling ts token ops db t) w ∧
          (g → w.committed.refreshTokens.get claims.jti = none)) i where
  own := by
    rintro w β c k fault g hp hs - ⟨hrun, hg⟩
    refine ⟨.tail hrun hs, ?_⟩
    intro h
    rcases gone_of_noted h with hg' | hgone
    · exact gone_step hfresh hrun hs.1 (hg hg')
    · exact hgone
  others := by
    rintro w w' g hs hapart ⟨hrun, hg⟩
    exact ⟨.tail hrun hs, fun h => gone_step hfresh hrun hs.1 (hg h)⟩

/-- A revocation that has been answered `Ok` has deleted the token's row. -/
theorem gone_of_revoked
    (hclaims : (ts.crypto.decode ts.config.refreshSecret token).bind Payload.toRefresh =
      some claims) (hfresh : FreshIn ops claims.jti)
    (hrun : World.StepsMay authKeyed DeleteFinds (calling ts token ops db t) w) {r : ι}
    (hr : Revoked w r) : w.committed.refreshTokens.get claims.jti = none := by
  have hensures : Act.Ensures (noteRevoked claims.jti) ((ops r).prog ts token)
      (fun a g => a = none → g) False := by
    cases ops r with
    | rotate providers newJti accessJti =>
      refine Act.ensures_after fun _ g => Act.ensures_pure ?_
      rintro ⟨⟩
    | revoke accessToken =>
      refine Act.ensures_bind (Act.ensures_mono (revoke_deletes hclaims) fun _ g hg => ?_)
      exact Act.ensures_pure fun _ => hg
  have hlink : World.StepsMay authKeyed DeleteFinds (calling ts token ops db t)
      (calling ts token ops db t) ∧
      (False → (calling ts token ops db t).committed.refreshTokens.get claims.jti = none) :=
    ⟨.refl, False.elim⟩
  obtain ⟨g, ⟨-, hg⟩, hQ⟩ := World.post_of_steps (revoke_linked hfresh r) hrun hlink
    (Act.guarded_of_ensures hensures) hr
  exact hg (hQ _ rfl rfl)

/-- In the runs in which every rotation's `DELETE` finds its row, a token is used once. -/
theorem single_use (ts : TokenService τ) (token : τ) (claims : RefreshClaims)
    (hclaims : (ts.crypto.decode ts.config.refreshSecret token).bind Payload.toRefresh =
      some claims) (ops : ι → TokenOp τ) (hfresh : FreshIn ops claims.jti) (db : AuthDb)
    (t : OffsetDateTime) (w w' : TokenWorld τ ι)
    (hrun : World.StepsMay authKeyed DeleteFinds (calling ts token ops db t) w)
    (hsteps : World.StepsMay authKeyed DeleteFinds w w') : UsedOnce ops w w' := by
  have hrun' := Relation.ReflTransGen.trans hrun hsteps
  have hreach := World.StepsMay.reaches hrun'
  constructor
  · rintro i j ⟨p, hp⟩ ⟨q, hq⟩
    refine (spent_of_steps hclaims hfresh hrun').once i j ?_ ?_
    · exact stored_of_ok hreach hp (.inr (by simp))
    · exact stored_of_ok hreach hq (.inr (by simp))
  · intro r i hr hi hnot
    have hgone := gone_of_revoked hclaims hfresh hrun hr
    have hnever : ¬Stored w' i := fun h =>
      hnot ((stored_of_absent hclaims hfresh hrun hsteps hgone).2 i h)
    refine ⟨hnever, ?_⟩
    rintro (e | a) hret
    · exact ⟨e, rfl⟩
    · exact absurd (stored_of_ok hreach hret (.inl hi)) hnever

end Runs

/-! ## Two clients and a logout -/

/-- Two clients present Ann's refresh token, and it is revoked. -/
def twoClients : Fin 3 → TokenOp (String × Payload)
  | 0 => .rotate [.google] ⟨5⟩ ⟨6⟩
  | 1 => .rotate [.google] ⟨7⟩ ⟨8⟩
  | 2 => .revoke none

theorem twoClients_fresh : FreshIn twoClients ⟨4⟩ := by
  intro i providers newJti accessJti h
  match i with
  | 0 => cases h; decide
  | 1 => cases h; decide
  | 2 => cases h

/-- The second client comes when the first has its new pair. -/
theorem second_client_refused : ∃ w w' : TokenWorld (String × Payload) (Fin 3),
    Rotated w 0 ∧ Revoked w' 2 ∧ UsedOnce twoClients w w' := by
  have hruns : ∃ w ∈ World.runMay authKeyed DeleteFinds (List.replicate 11 (1, 0))
      (calling .transparent annsRefresh twoClients annSignedIn 0), Rotated w 0 ∧
        ∃ w' ∈ World.runMay authKeyed DeleteFinds
          (List.replicate 2 (2, 1) ++ List.replicate 2 (3, 2)) w, Revoked w' 2 := by
    decide +kernel
  obtain ⟨w, hw, hrotated, w', hw', hrevoked⟩ := hruns
  refine ⟨w, w', hrotated, hrevoked, ?_⟩
  exact single_use .transparent annsRefresh { sub := ⟨1⟩, jti := ⟨4⟩, exp := 604800, iat := 0 } rfl
    twoClients twoClients_fresh annSignedIn 0 w w' (World.steps_runMay _ hw)
    (World.steps_runMay _ hw')

/-- Both clients look the token up, it is revoked, and both are answered with a new pair. -/
theorem token_used_twice : ¬∀ w w' : TokenWorld (String × Payload) (Fin 3),
    World.StepsMay authKeyed (fun _ _ => True)
      (calling .transparent annsRefresh twoClients annSignedIn 0) w →
    World.StepsMay authKeyed (fun _ _ => True) w w' → UsedOnce twoClients w w' := by
  intro h
  have hruns : ∃ w ∈ World.runMay authKeyed (fun _ _ => True)
      (List.replicate 4 (1, 0) ++ List.replicate 4 (2, 1) ++ List.replicate 2 (3, 2))
      (calling .transparent annsRefresh twoClients annSignedIn 0), Revoked w 2 ∧
        ∃ w' ∈ World.runMay authKeyed (fun _ _ => True)
          (List.replicate 7 (4, 0) ++ List.replicate 7 (5, 1)) w,
          Rotated w' 0 ∧ Rotated w' 1 := by
    decide +kernel
  obtain ⟨w, hw, -, w', hw', hfirst, hsecond⟩ := hruns
  have hsame := (h w w' (World.steps_runMay _ hw) (World.steps_runMay _ hw')).1 0 1 hfirst hsecond
  exact absurd hsame (by decide)

end Auth

end Meno
