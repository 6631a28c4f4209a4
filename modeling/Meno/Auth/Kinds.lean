import Meno.Auth.Blocklist
import Meno.Auth.SingleUse

/-!
# Meno.Auth.Kinds

Access tokens and refresh tokens under one secret. The claims of an access token can be read as
those of a refresh token, so `rotate` decodes it and looks its id up: there is no row with that id,
since the ids of stored rows were drawn for refresh tokens (`absent_of_reaches`). The claims of a
refresh token lack fields that `decode_access` asks for.
-/

namespace Meno

namespace Auth

open Lib

variable {τ : Type}

/-- A token is decoded to what it was encoded from, or not at all. -/
def Crypto.Sound (crypto : Crypto τ) : Prop :=
  ∀ secret secret' p q, crypto.decode secret' (crypto.encode secret p) = some q → q = p

/-- The calls of a run: any operation, and `rotate` with any token. -/
inductive TokenCall (τ : Type) where
  | auth (op : AuthOp τ)
  | rotate (refreshToken : τ) (providers : List AuthProvider) (newJti accessJti : Uuid)

namespace TokenCall

def prog (ts : TokenService τ) : TokenCall τ → AuthSvc (Option (IssuedTokenPair τ × User))
  | .auth op => do
    let _ ← op.prog ts
    return none
  | .rotate refreshToken providers newJti accessJti => do
    return some (← ts.rotate refreshToken providers newJti accessJti)

/-- The id of the refresh token that the call may store. -/
def refreshJti : TokenCall τ → Option Uuid
  | .auth op => op.refreshJti
  | .rotate _ _ newJti _ => some newJti

end TokenCall

/-! ## Claims of the other kind -/

section Claims

variable {ts : TokenService τ}

theorem signAccess_returns {user : User} {providers : List AuthProvider} {jti : Uuid} {token : τ}
    (h : Act.Returns (ts.signAccess user providers jti) token) : ∃ now, token =
      ts.crypto.encode ts.config.accessSecret (.access (ts.accessClaims user providers jti now)) := by
  obtain ⟨now, -, h⟩ := Act.returns_bind.1 h
  exact ⟨_, (Act.returns_pure.1 h).symm⟩

/-- Read as a refresh token, an access token keeps its id. -/
theorem checkRefresh_access (hsound : ts.crypto.Sound) {secret : String} {c : AccessClaims}
    {now : OffsetDateTime} {claims : RefreshClaims}
    (h : ts.checkRefresh now (ts.crypto.encode secret (.access c)) = .ok claims) :
    claims.jti = c.jti := by
  obtain ⟨q, hq, hclaims⟩ := Option.bind_eq_some_iff.1 (checkRefresh_decodes h)
  obtain rfl := hsound _ _ _ _ hq
  cases hclaims
  rfl

/-- A refresh token cannot be read as an access token. -/
theorem checkAccess_refresh (hsound : ts.crypto.Sound) {secret : String} {c : RefreshClaims}
    {now : OffsetDateTime} :
    ts.checkAccess now (ts.crypto.encode secret (.refresh c)) = .error .invalidToken := by
  have hnone : (ts.crypto.decode ts.config.accessSecret
      (ts.crypto.encode secret (.refresh c))).bind Payload.toAccess = none := by
    cases hq : ts.crypto.decode ts.config.accessSecret (ts.crypto.encode secret (.refresh c)) with
    | none => rfl
    | some q =>
      obtain rfl := hsound _ _ _ _ hq
      rfl
  rw [TokenService.checkAccess, hnone]

theorem issuePair_returns {user : User} {providers : List AuthProvider} {accessJti jti : Uuid}
    {pair : IssuedTokenPair τ}
    (h : Act.Returns (ts.issuePair user providers accessJti jti) pair) :
    ∃ now, pair.refreshToken = ts.signRefresh user.id jti now := by
  obtain ⟨access, -, h⟩ := Act.returns_bind.1 h
  obtain ⟨now, -, h⟩ := Act.returns_bind.1 h
  obtain ⟨nowUnix, -, h⟩ := Act.returns_bind.1 h
  obtain ⟨_, -, h⟩ := Act.returns_bind.1 h
  cases Act.returns_pure.1 h
  exact ⟨_, rfl⟩

theorem rotate_returns {token : τ} {providers : List AuthProvider} {newJti accessJti : Uuid}
    {pair : IssuedTokenPair τ} {user : User}
    (h : Act.Returns (ts.rotate token providers newJti accessJti) (pair, user)) :
    ∃ now, pair.refreshToken = ts.signRefresh user.id newJti now := by
  obtain ⟨claims, -, h⟩ := Act.returns_bind.1 h
  obtain ⟨found, -, h⟩ := Act.returns_bind.1 h
  obtain ⟨stored, -, h⟩ := Act.returns_bind.1 h
  obtain ⟨_, -, h⟩ := Act.returns_bind.1 h
  obtain ⟨_, -, h⟩ := Act.returns_bind.1 h
  obtain ⟨found, -, h⟩ := Act.returns_bind.1 h
  obtain ⟨u, -, h⟩ := Act.returns_bind.1 h
  obtain ⟨now, -, h⟩ := Act.returns_bind.1 h
  obtain ⟨nowUnix, -, h⟩ := Act.returns_bind.1 h
  obtain ⟨_, -, h⟩ := Act.returns_bind.1 h
  obtain ⟨access, -, h⟩ := Act.returns_bind.1 h
  cases Act.returns_pure.1 h
  exact ⟨_, rfl⟩

/-- `decode_access` has an error for whatever `sign_refresh` makes. -/
theorem decodeAccess_signRefresh (hsound : ts.crypto.Sound) {userId jti : Uuid} {now : Int}
    {r : Except AuthError AccessClaims}
    (h : Prog.Returns (ExceptT.run (ts.decodeAccess (ts.signRefresh userId jti now))) r) :
    ∃ e, r = .error e := by
  cases r with
  | error e => exact ⟨e, rfl⟩
  | ok claims =>
    obtain ⟨t, -, hclaims⟩ := Act.returns_bind.1 (show Act.Returns _ claims from h)
    rw [TokenService.signRefresh, checkAccess_refresh hsound] at hclaims
    cases hclaims

end Claims

/-! ## A lookup that finds nothing -/

/-- That the row of `jti` has been found. -/
def noteFound (jti : Uuid) : {β : Type} → Cmd AuthStmt DbError β → β → Prop → Prop
  | _, .exec .pool (.findRefreshToken jti' _), .ok (some _), g => g ∨ jti' = jti
  | _, _, _, g => g

/-- A row is stored only when the old one has been found. -/
def AfterLookup {β : Type} (c : Cmd AuthStmt DbError β) (g : Prop) : Prop := Storeless c ∨ g

section Programs

variable {ts : TokenService τ} {token : τ} {jti : Uuid} {g : Prop}

theorem noteFound_keeps {β : Type} {c : Cmd AuthStmt DbError β} {b : β} (hg : g) :
    noteFound jti c b g := by
  cases c with
  | exec e s =>
    cases e with
    | tx => exact hg
    | pool =>
      cases s with
      | findRefreshToken jti' u =>
        rcases b with _ | _ | row
        · exact hg
        · exact hg
        · exact .inl hg
      | _ => exact hg
  | _ => exact hg

/-- When the row has been found, anything may follow. -/
theorem guarded_found {ρ : Type} (p : Prog (Cmd AuthStmt DbError) ρ) :
    ∀ {g : Prop}, g → Prog.guarded AfterLookup (noteFound jti) p (fun _ g => g) g := by
  induction p with
  | ret r => intro g hg; exact hg
  | call c k ih => intro g hg; exact ⟨.inr hg, fun b => ih b (noteFound_keeps hg)⟩

/-- A rotation finds the row of the token that it was given, or stops without storing one. -/
theorem rotate_afterLookup {providers : List AuthProvider} {newJti accessJti : Uuid}
    (hjti : ∀ now claims, ts.checkRefresh now token = .ok claims → claims.jti = jti) :
    Act.Guarded AfterLookup (noteFound jti) (ts.rotate token providers newJti accessJti)
      (fun _ g => g) g := by
  have hdecoded : Act.Guarded AfterLookup (noteFound jti) (ts.decodeRefresh token)
      (fun c _ => c.jti = jti) g := by
    refine Act.guarded_bind (Act.guarded_ask (.inl trivial) fun now => ?_)
    exact Act.guarded_ofExcept fun c hc => hjti now c hc
  refine Act.guarded_bind (Prog.guarded_mono (fun r g' hr => ?_) hdecoded)
  rintro claims rfl
  have hclaims : claims.jti = jti := hr claims rfl
  refine Act.guarded_bind (Act.guarded_ask (.inl trivial) fun found => ?_)
  cases found with
  | none => rintro a ⟨⟩
  | some stored => exact Prog.guarded_mono (fun r g hg a _ => hg) (guarded_found _ (.inr hclaims))

end Programs

/-! ## Runs -/

section Runs

variable {ι : Type} [DecidableEq ι] {ts : TokenService τ} {calls : ι → TokenCall τ} {jti : Uuid}
  {db : AuthDb} {t : OffsetDateTime} {w : TokenWorld τ ι} {i : ι}

theorem storesNot_of_opCmd {ttl : Int} {newJti : Option Uuid} (hnew : newJti ≠ some jti) {β : Type}
    (c : Cmd AuthStmt DbError β) (h : OpCmd ttl newJti c) : AllStoreNot jti c := by
  cases c with
  | exec e s =>
    cases s with
    | storeRefreshToken jti' u hash t =>
      have hstored : newJti = some jti' := by cases e <;> exact h
      rintro rfl
      exact hnew hstored
    | _ => trivial
  | _ => trivial

theorem call_storesNot {call : TokenCall τ} (hnew : call.refreshJti ≠ some jti) :
    Act.Uses (AllStoreNot jti) (call.prog ts) := by
  cases call with
  | auth op =>
    refine Act.uses_bind ?_ fun _ => Act.uses_pure _
    exact Prog.uses_mono (storesNot_of_opCmd hnew) (op_cmds op)
  | rotate refreshToken providers newJti accessJti =>
    refine Act.uses_bind ?_ fun _ => Act.uses_pure _
    exact Prog.uses_mono (storesNot_of_rotating fun h => hnew (congrArg some h)) uses_rotate

/-- No row has an id that was drawn for none. -/
theorem absent_of_reaches (hnew : ∀ i, (calls i).refreshJti ≠ some jti)
    (hdb : db.refreshTokens.get jti = none)
    (h : World.Reaches authKeyed (fun i => ExceptT.run ((calls i).prog ts)) db t w) :
    w.committed.refreshTokens.get jti = none := by
  have hlog : ∀ {v : TokenWorld τ ι},
      World.Reaches authKeyed (fun i => ExceptT.run ((calls i).prog ts)) db t v →
        ∀ e ∈ v.log, e.2.storedId ≠ some jti := by
    rintro v hv ⟨i, x⟩ hx
    refine World.log_of_uses (fun hs _ _ _ _ he => exec_storesNot hs he) ?_ hv x hx
    exact call_storesNot (hnew i)
  induction h with
  | refl => exact hdb
  | tail hrun hs ih =>
    refine absent_step hrun hs (fun e he => hlog (.tail hrun hs) e ?_) ih
    rw [World.log_eq_newLog hs]
    exact List.mem_append_right _ he

/-- What is noted of a lookup was in the store. -/
theorem found_of_noted {β : Type} {c : Cmd AuthStmt DbError β}
    {s : Session AuthDb AuthWrite OffsetDateTime} {g : Prop}
    (h : noteFound jti c (Session.handle authEngine c s).1 g) :
    g ∨ s.committed.refreshTokens.get jti ≠ none := by
  cases c with
  | begin => exact .inl h
  | commit => exact .inl h
  | exec e q =>
    cases e with
    | tx => exact .inl h
    | pool =>
      cases q with
      | findRefreshToken jti' u =>
        cases hanswer : (Session.handle authEngine (.exec .pool (.findRefreshToken jti' u)) s).1 with
        | error e =>
          rw [hanswer] at h
          exact .inl h
        | ok row =>
          rw [hanswer] at h
          cases row with
          | none => exact .inl h
          | some row =>
            rcases h with hg | rfl
            · exact .inl hg
            · obtain ⟨ws, he, -⟩ := Session.handle_pool_ok authEngine hanswer
              refine .inr fun hnone => ?_
              have hfound : AuthRepository.findRefreshToken s.committed jti' u = some row :=
                congrArg Prod.fst (Except.ok.inj he)
              rw [AuthRepository.findRefreshToken, hnone] at hfound
              cases hfound
      | _ => exact .inl h

/-- In these runs the row is never found. -/
theorem lookup_linked (hnew : ∀ i, (calls i).refreshJti ≠ some jti)
    (hdb : db.refreshTokens.get jti = none) :
    World.Linked authKeyed (fun _ _ => True) AfterLookup (noteFound jti)
      (fun g (w : TokenWorld τ ι) =>
        World.Reaches authKeyed (fun i => ExceptT.run ((calls i).prog ts)) db t w ∧ ¬g) i where
  own := by
    rintro w β c k fault g hp hs - ⟨hrun, hg⟩
    refine ⟨.tail hrun hs.1, fun h => ?_⟩
    rcases found_of_noted h with hg' | hthere
    · exact hg hg'
    · exact hthere (absent_of_reaches hnew hdb hrun)
  others := by
    rintro w w' g hs hapart ⟨hrun, hg⟩
    exact ⟨.tail hrun hs.1, hg⟩

/-- A rotation of a token whose id no row has stores nothing and ends with an error. -/
theorem rotation_fails {token : τ} {providers : List AuthProvider} {newJti accessJti : Uuid}
    (hjti : ∀ now claims, ts.checkRefresh now token = .ok claims → claims.jti = jti)
    (hnew : ∀ i, (calls i).refreshJti ≠ some jti) (hdb : db.refreshTokens.get jti = none)
    (h : World.Reaches authKeyed (fun i => ExceptT.run ((calls i).prog ts)) db t w)
    (hi : calls i = .rotate token providers newJti accessJti) :
    ¬Stored w i ∧ ∀ answer, (w.callers i).prog = .ret answer → ∃ e, answer = .error e := by
  have hguarded : Act.Guarded AfterLookup (noteFound jti) ((calls i).prog ts) (fun _ g => g)
      False := by
    rw [hi]
    refine Act.guarded_bind (Prog.guarded_mono (fun r g hr => ?_) (rotate_afterLookup hjti))
    exact fun a ha => Act.guarded_pure (hr a ha)
  have hlinked : World.Linked authKeyed (fun _ _ => True) AfterLookup (noteFound jti)
      (fun g (w : TokenWorld τ ι) =>
        World.Reaches authKeyed (fun i => ExceptT.run ((calls i).prog ts)) db t w ∧ ¬g) i :=
    lookup_linked hnew hdb
  have hrun : World.StepsMay authKeyed (fun _ _ => True)
      (World.start db t fun i => ExceptT.run ((calls i).prog ts)) w :=
    Relation.ReflTransGen.mono (fun _ _ hs => ⟨hs, trivial⟩) _ _ h
  have hstart := (⟨.refl, id⟩ : World.Reaches authKeyed
    (fun i => ExceptT.run ((calls i).prog ts)) db t (World.start db t _) ∧ ¬False)
  constructor
  · have hwrote : World.Wrote (fun x => x.storedId = none) i w := by
      refine World.wrote_of_steps hlinked ?_ hrun hstart hguarded ⟨?_, ?_⟩
      · rintro w β c fault g hpre ⟨-, hg⟩ x hx
        have hstoreless : Storeless c := hpre.resolve_right hg
        cases c with
        | begin => cases hx
        | commit => cases hx
        | exec e s => exact writes_storeless hstoreless x hx
      · exact fun x hx => nomatch hx
      · exact fun x hx => nomatch hx
    rintro ⟨x, hx, hstored⟩
    rw [hwrote.log x hx] at hstored
    cases hstored
  · rintro (e | a) hret
    · exact ⟨e, rfl⟩
    · obtain ⟨g, ⟨-, hg⟩, hpost⟩ := World.post_of_steps hlinked hrun hstart hguarded hret
      exact absurd (hpost a rfl) hg

/-- Whatever runs beside it, a rotation of an access token stores nothing and ends with an error; and
`decode_access` has an error for every refresh token. -/
theorem tokens_keep_kind (ts : TokenService τ) (hsound : ts.crypto.Sound) :
    (∀ user providers jti token, Act.Returns (ts.signAccess user providers jti) token →
      ∀ (calls : ι → TokenCall τ) (db : AuthDb) (t : OffsetDateTime) (w : TokenWorld τ ι),
        (∀ i, (calls i).refreshJti ≠ some jti) → db.refreshTokens.get jti = none →
        World.Reaches authKeyed (fun i => ExceptT.run ((calls i).prog ts)) db t w →
          ∀ i providers' newJti accessJti, calls i = .rotate token providers' newJti accessJti →
            ¬Stored w i ∧
              ∀ answer, (w.callers i).prog = .ret answer → ∃ e, answer = .error e) ∧
    (∀ user providers accessJti jti pair,
      Act.Returns (ts.issuePair user providers accessJti jti) pair →
        ∀ r, Prog.Returns (ExceptT.run (ts.decodeAccess pair.refreshToken)) r → ∃ e, r = .error e) ∧
    ∀ token providers newJti accessJti pair user,
      Act.Returns (ts.rotate token providers newJti accessJti) (pair, user) →
        ∀ r, Prog.Returns (ExceptT.run (ts.decodeAccess pair.refreshToken)) r →
          ∃ e, r = .error e := by
  refine ⟨?_, ?_, ?_⟩
  · intro user providers jti token htoken calls db t w hnew hdb h i providers' newJti accessJti hi
    obtain ⟨now, rfl⟩ := signAccess_returns htoken
    exact rotation_fails (fun _ _ hclaims => checkRefresh_access hsound hclaims) hnew hdb h hi
  · intro user providers accessJti jti pair hpair r hr
    obtain ⟨now, hrefresh⟩ := issuePair_returns hpair
    rw [hrefresh] at hr
    exact decodeAccess_signRefresh hsound hr
  · intro token providers newJti accessJti pair user hpair r hr
    obtain ⟨now, hrefresh⟩ := rotate_returns hpair
    rw [hrefresh] at hr
    exact decodeAccess_signRefresh hsound hr

end Runs

/-! ## One secret for both -/

section Examples

/-- Access and refresh tokens under one secret. -/
def oneSecret : TokenService (String × Payload) :=
  { TokenService.transparent with
    config := { TokenService.transparent.config with refreshSecret := "access" } }

theorem transparent_sound : Crypto.transparent.Sound := by
  intro secret secret' p q hq
  simp only [Crypto.transparent] at hq
  split at hq
  · exact (Option.some.inj hq).symm
  · cases hq

def annVerified : User where
  id := ⟨1⟩
  fullName := "Ann"
  bio := none
  email := "ann@meno"
  avatarId := none
  avatarUrl := none
  verified := true
  role := .user
  createdAt := 0
  updatedAt := 0
  deletedAt := none

/-- Ann's access token is given to `rotate`. -/
def accessRotated : Fin 1 → TokenCall (String × Payload) :=
  fun _ => .rotate annsAccess [.google] ⟨5⟩ ⟨6⟩

/-- It is decoded as a refresh token, and its id has no row. -/
theorem access_not_rotated : ∃ w : TokenWorld (String × Payload) (Fin 1),
    (w.callers 0).prog = .ret (.error .refreshTokenNotFound) ∧ ¬Stored w 0 := by
  have hruns : ∃ w ∈ World.runMay authKeyed (fun _ _ => True) (List.replicate 2 (1, 0))
      (World.start annSignedIn 0 fun i => ExceptT.run ((accessRotated i).prog oneSecret)),
        (w.callers 0).prog = .ret (.error .refreshTokenNotFound) := ⟨_, rfl, rfl⟩
  obtain ⟨w, hw, hanswer⟩ := hruns
  have hsigned : Act.Returns (oneSecret.signAccess annVerified [.google] ⟨3⟩) annsAccess :=
    Prog.returns_run (Session.handle authEngine) _ (Session.start annSignedIn 0 [])
  have hnew : ∀ i, (accessRotated i).refreshJti ≠ some ⟨3⟩ := by decide
  refine ⟨w, hanswer, ?_⟩
  exact ((tokens_keep_kind oneSecret transparent_sound).1 _ _ ⟨3⟩ _ hsigned accessRotated annSignedIn
    0 w hnew (by decide) (World.StepsMay.reaches (World.steps_runMay _ hw)) 0 _ _ _ rfl).1

end Examples

end Auth

end Meno
