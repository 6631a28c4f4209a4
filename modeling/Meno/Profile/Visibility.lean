import Meno.Profile.FailedUpdate

/-!
# Meno.Profile.Visibility

One `update_me` and any number of `get_me` of the same user at once. The key is dropped before the row
is written, so a `get_me` that has read the row before can fill it again with what was there. Without
such a fill (`FreshAnswers`) the author sees what was written: `profile_update_visible`.
-/

namespace Meno.Profiles

open Lib

open ProfileService

/-! ## What is seen -/

/-- A profile that has what the request gives, as the columns have it. -/
structure Shown (tools : Tools) (req : UpdateProfileRequest) (fullName : String)
    (bio avatarId avatarUrl : Option String) : Prop where
  fullName : ∀ name ∈ req.fullName, fullName = name
  bio : ∀ b ∈ req.bio, ∃ kept, varchar 244 b = .ok kept ∧ bio = some kept
  avatarId : ∀ key ∈ req.avatarKey, avatarId = some key
  avatarUrl : ∀ key ∈ req.avatarKey, avatarUrl = some (getAvatarUrl tools key)

abbrev Profile.Shows (tools : Tools) (req : UpdateProfileRequest) (p : Profile) : Prop :=
  Shown tools req p.fullName p.bio p.avatarId p.avatarUrl

abbrev MeResponse.Shows (tools : Tools) (req : UpdateProfileRequest) (r : MeResponse) : Prop :=
  Shown tools req r.fullName r.bio r.avatarId r.avatarUrl

/-- What a call has found where it looked last, in Redis or in the table. -/
inductive Looked where
  | nothing
  | absent
  | cached (v : Value)
  | missing
  | row (profile : Profile)

/-- How far a call is, and whether one that `get_me` makes has failed. -/
structure Sight where
  looked : Looked
  dropped : Bool
  written : Bool
  failed : Bool

namespace Sight

def start : Sight := { looked := .nothing, dropped := false, written := false, failed := false }

def after : {β : Type} → ProfileCmd β → β → Sight → Sight
  | _, .get _, .ok none, g => { g with looked := .absent }
  | _, .get _, .ok (some v), g => { g with looked := .cached v }
  | _, .get _, .error _, g => { g with looked := .absent, failed := true }
  | _, .findById _, .ok none, g => { g with looked := .missing }
  | _, .findById _, .ok (some profile), g => { g with looked := .row profile }
  | _, .findById _, .error _, g => { g with looked := .absent, failed := true }
  | _, .findByUserId _, .error _, g => { g with failed := true }
  | _, .findProviders _, .error _, g => { g with failed := true }
  | _, .set _ _ _, .error _, g => { g with failed := true }
  | _, .del _, .ok _, g => { g with dropped := true }
  | _, .updateProfile _ _ _ _ _, .ok _, g => { g with written := true }
  | _, _, _, g => g

end Sight

/-- Whether the last look of a call was before the row was written. -/
def oldAfter (written : Bool) : {β : Type} → ProfileCmd β → Bool → Bool
  | _, .get _, _ => !written
  | _, .findById _, _ => !written
  | _, _, old => old

/-! ## Steps -/

/-- The update is `none`, and the reads are the others. -/
structure Watched (κ : Type) where
  store : Store
  sights : Option κ → Sight
  old : Option κ → Bool

section

variable {κ : Type} [DecidableEq κ] (tools : Tools) (u : Uuid) (req : UpdateProfileRequest)

/-- A call is answered, at whatever time, or fails and does nothing. -/
def WatchedAnswers (i : Option κ) {β : Type} (c : ProfileCmd β) (st : Watched κ) (b : β)
    (st' : Watched κ) : Prop :=
  ((∃ now later, Store.exec tools now later c st.store = (b, st'.store)) ∨
      Fails c b ∧ st'.store = st.store) ∧
    st'.sights = Function.update st.sights i ((st.sights i).after c b) ∧
      st'.old = Function.update st.old i (oldAfter (st.sights none).written c (st.old i))

/-- Once the key is dropped, nobody fills it who has read the row before it was written. -/
def FreshFill (i : Option κ) : {β : Type} → ProfileCmd β → Watched κ → Prop
  | _, .set _ _ _, st => (st.sights none).dropped = true → st.old i = false
  | _, _, _ => True

def FreshAnswers (i : Option κ) {β : Type} (c : ProfileCmd β) (st : Watched κ) (b : β)
    (st' : Watched κ) : Prop :=
  WatchedAnswers tools i c st b st' ∧ FreshFill i c st

/-- What happens besides: everything that leaves the user's row alone and puts nothing under the
user's key. -/
inductive Apart : Watched κ → Watched κ → Prop
  | intro {st : Watched κ} (store : Store)
      (hcache : store.cache (RedisKey.profile u) = none ∨
        store.cache (RedisKey.profile u) = st.store.cache (RedisKey.profile u))
      (hrow : store.db.users.get u = st.store.db.users.get u) : Apart st { st with store }

/-- The programs of the update and of the reads. -/
def visitor : Option κ → Prog ProfileCmd (Except ProfileError MeResponse)
  | none => (updateMe tools u req).run
  | some _ => (getMe tools u).run

def visit (s : Store) : Pool (Watched κ) ProfileCmd (Except ProfileError MeResponse) (Option κ) where
  store := { store := s, sights := fun _ => .start, old := fun _ => false }
  prog := visitor tools u req

end

/-! ## Outlines -/

/-- A response made of what was found. -/
def Looked.Gives (tools : Tools) : Looked → MeResponse → Prop
  | .cached v, me => MeResponse.fromValue tools.time v = .ok me
  | .row p, me => me.fullName = p.fullName ∧ me.bio = p.bio ∧ me.avatarId = p.avatarId ∧
    me.avatarUrl = p.avatarUrl
  | _, _ => False

/-- No response can be made of what was found. -/
def Looked.Barren (tools : Tools) : Looked → Prop
  | .cached v => ∀ me, MeResponse.fromValue tools.time v ≠ .ok me
  | .missing => True
  | _ => False

/-- A response is kept that Redis does not give back, for what its preferences are nested. -/
def Looked.TooDeep (tools : Tools) : Looked → Prop
  | .cached v => ∃ me : MeResponse, v = me.toValue tools.time ∧ ¬ me.Readable
  | _ => False

/-- A value for the user's key, made of a row that was read. -/
def Fills (tools : Tools) (key : String) (value : Value) (g : Sight) : Prop :=
  ∃ profile settings providers, g.looked = .row profile ∧ key = RedisKey.profile profile.id ∧
    value = (meResponse profile settings providers).toValue tools.time

section Outlines

variable {κ : Type} (tools : Tools) (u : Uuid) (req : UpdateProfileRequest) (i : Option κ)

/-- How far a call is before each of its calls. -/
def visitorBefore : {β : Type} → ProfileCmd β → Sight → Prop
  | _, .get key, g => key = RedisKey.profile u ∧ g.looked = .nothing
  | _, .findById id, _ => id = u
  | _, .set key value _, g => Fills tools key value g
  | _, .del key, _ => i = none ∧ key = RedisKey.profile u
  | _, .updateProfile id fullName bio avatarKey avatarUrl, g =>
    i = none ∧ g.looked = .nothing ∧ g.dropped = true ∧ id = u ∧ fullName = req.fullName ∧
      bio = req.bio ∧ avatarKey = req.avatarKey ∧
        avatarUrl = req.avatarKey.map (getAvatarUrl tools)
  | _, _, _ => True

/-- What a call returns. -/
def VisitorEnds : Except ProfileError MeResponse → Sight → Prop
  | .ok me, g => (i = none → g.written = true) ∧ g.looked.Gives tools me
  | .error _, g => i = none ∨ g.failed = true ∨ g.looked.Barren tools

/-- From the row on, nothing but a call that fails ends a read. -/
theorem outline_visitor_row {g : Sight} {profile : Profile} (hg : g.looked = .row profile)
    (hwritten : i = none → g.written = true) :
    Act.Outline (visitorBefore tools u req i) Sight.after
      (do
        let settings ← Act.ask .internal (.findByUserId u)
        let providers ← Act.ask .database (.findProviders u)
        let response := meResponse profile (settings.getD (.new u)) providers
        ProfileCache.cacheMe tools.time response
        return response)
      (VisitorEnds tools i) g := by
  refine Act.outline_bind (Act.outline_ask trivial ?_ fun e => .inr (.inl rfl))
  intro settings
  refine Act.outline_bind (Act.outline_ask trivial ?_ fun e => .inr (.inl rfl))
  intro providers
  refine Act.outline_bind (Act.outline_ask ?_ ?_ fun e => .inr (.inl rfl))
  · exact ⟨profile, _, providers, hg, rfl, rfl⟩
  · intro _
    have hgives : (Looked.row profile).Gives tools
        (meResponse profile (settings.getD (.new u)) providers) := ⟨rfl, rfl, rfl, rfl⟩
    rw [← hg] at hgives
    exact Act.outline_pure ⟨hwritten, hgives⟩

theorem outline_visitor_getMe {g : Sight} (hg : g.looked = .nothing)
    (hwritten : i = none → g.written = true) :
    Act.Outline (visitorBefore tools u req i) Sight.after (getMe tools u) (VisitorEnds tools i) g := by
  refine Act.outline_bind (Act.outline_bind (Act.outline_ask ⟨rfl, hg⟩ ?_ ?_))
  · rintro (_ | v)
    · refine Act.outline_pure (Act.outline_bind (Act.outline_ask rfl ?_ ?_))
      · rintro (_ | profile)
        · exact .inr (.inr trivial)
        · exact outline_visitor_row tools u req i rfl hwritten
      · exact fun e => .inr (.inl rfl)
    · dsimp only
      cases hread : MeResponse.fromValue tools.time v with
      | ok me => exact ⟨hwritten, hread⟩
      | error e =>
        refine .inr (.inr fun me hme => ?_)
        rw [hread] at hme
        cases hme
  · exact fun e => .inr (.inl rfl)

theorem outline_visitor_newAvatar {g : Sight} {Q : Except ProfileError (Option String × Option String) →
    Sight → Prop} (hok : Q (.ok (avatarOf tools req)) g) (herror : ∀ e, Q (.error e) g) :
    Act.Outline (visitorBefore tools u req i) Sight.after (newAvatar tools u req.avatarKey) Q g := by
  rw [avatarOf] at hok
  cases hkey : req.avatarKey with
  | none =>
    rw [hkey] at hok
    exact Act.outline_pure hok
  | some key =>
    rw [hkey] at hok
    refine Act.outline_bind (Act.outline_ask trivial ?_ fun e => herror _)
    rintro (_ | _)
    · exact Act.outline_throw (herror _)
    · refine Act.outline_bind (Act.outline_bind (Act.outline_ask trivial ?_ fun e => herror _))
      rintro (_ | old)
      · exact Act.outline_pure hok
      · exact Act.outline_ask trivial (fun _ => hok) fun e => e.elim

theorem outline_visitor_updateMe (hreq : req.isEmpty = false) :
    Act.Outline (visitorBefore tools u req (none : Option κ)) Sight.after (updateMe tools u req)
      (VisitorEnds tools (none : Option κ)) .start := by
  have hempty : ¬ (req.fullName.isNone && req.bio.isNone && req.avatarKey.isNone) = true :=
    fun hall => Bool.false_ne_true (hreq.symm.trans hall)
  rw [updateMe, if_neg hempty]
  refine Act.outline_bind (Act.outline_ask ⟨rfl, rfl⟩ (fun _ => ?_) fun e => .inl rfl)
  refine Act.outline_bind
    (outline_visitor_newAvatar tools u req (none : Option κ) ?_ fun e => .inl rfl)
  refine Act.outline_bind (Act.outline_ask ?_ (fun _ => ?_) fun e => .inl rfl)
  · exact ⟨rfl, rfl, rfl, rfl, rfl, rfl, rfl, rfl⟩
  · exact outline_visitor_getMe tools u req none rfl fun _ => rfl

theorem outline_visitor (hreq : req.isEmpty = false) :
    (visitor tools u req i).guarded (visitorBefore tools u req i) Sight.after (VisitorEnds tools i)
      .start := by
  cases i with
  | none => exact outline_visitor_updateMe tools u req hreq
  | some k => exact outline_visitor_getMe tools u req (some k) rfl nofun

end Outlines

/-! ## The invariant -/

/-- What was found has what the request gives. -/
def Looked.New (tools : Tools) (req : UpdateProfileRequest) : Looked → Prop
  | .cached v => ∃ me : MeResponse, v = me.toValue tools.time ∧ Rfc3339.Fits me.createdAt ∧
    me.Shows tools req
  | .row profile => profile.Shows tools req
  | .missing => False
  | _ => True

/-- Once the key is dropped, what it holds is new; once the row is written, it is new, and so is what
anybody finds who looks from then on. -/
structure VisitInv {κ : Type} (tools : Tools) (u : Uuid) (req : UpdateProfileRequest)
    (st : Watched κ) (g : Option κ → Sight) : Prop where
  sights : st.sights = g
  unlooked : ∀ i, (g i).looked = .nothing → st.old i = false
  author : (g none).written = true → st.old none = false
  order : (g none).written = true → (g none).dropped = true
  kept : (g none).dropped = true → ∀ e, st.store.cache (RedisKey.profile u) = some e →
    (Looked.cached e.value).New tools req
  row : (g none).written = true → ∃ profile, st.store.db.findById u = some profile ∧
    profile.Shows tools req
  looks : ∀ i, st.old i = false → (g i).looked.New tools req

section Invariant

variable {κ : Type} [DecidableEq κ] {tools : Tools} {u : Uuid} {req : UpdateProfileRequest}
  {st st' : Watched κ} {g : Option κ → Sight} {i : Option κ}

theorem findById_congr {db db' : ProfileDb} (h : db'.users.get u = db.users.get u) :
    db'.findById u = db.findById u := by
  rw [ProfileDb.findById, ProfileDb.live, h, ProfileDb.findById, ProfileDb.live]

/-- A call that is no look, and that neither drops the key nor writes the row. -/
theorem VisitInv.quiet {sight : Sight} (h : VisitInv tools u req st g)
    (hsights : st'.sights = Function.update st.sights i sight) (hold : st'.old = st.old)
    (hsight : sight.looked = (g i).looked ∧ sight.dropped = (g i).dropped ∧
      sight.written = (g i).written)
    (hkept : (g none).dropped = true → ∀ e, st'.store.cache (RedisKey.profile u) = some e →
      (Looked.cached e.value).New tools req)
    (hrow : st'.store.db.users.get u = st.store.db.users.get u) :
    VisitInv tools u req st' (Function.update g i sight) := by
  have hsame : ∀ j, (Function.update g i sight j).looked = (g j).looked ∧
      (Function.update g i sight j).dropped = (g j).dropped ∧
        (Function.update g i sight j).written = (g j).written := by
    intro j
    by_cases hj : j = i
    · subst hj
      rw [Function.update_self]
      exact hsight
    · rw [Function.update_of_ne hj]
      exact ⟨rfl, rfl, rfl⟩
  obtain ⟨-, hdropped, hwritten⟩ := hsame none
  refine ⟨by rw [hsights, h.sights], ?_, ?_, ?_, ?_, ?_, ?_⟩
  · intro j
    rw [(hsame j).1, hold]
    exact h.unlooked j
  · rw [hwritten, hold]
    exact h.author
  · rw [hwritten, hdropped]
    exact h.order
  · rw [hdropped]
    exact hkept
  · rw [hwritten, findById_congr hrow]
    exact h.row
  · intro j
    rw [(hsame j).1, hold]
    exact h.looks j

/-- A look that finds what is new once the row is written. -/
theorem VisitInv.look {sight : Sight} (h : VisitInv tools u req st g)
    (hsights : st'.sights = Function.update st.sights i sight)
    (hold : st'.old = Function.update st.old i (!(st.sights none).written))
    (hlooked : sight.looked ≠ .nothing)
    (hsight : sight.dropped = (g i).dropped ∧ sight.written = (g i).written)
    (hnew : (g none).written = true → sight.looked.New tools req) (hstore : st'.store = st.store) :
    VisitInv tools u req st' (Function.update g i sight) := by
  have hsame : ∀ j, (Function.update g i sight j).dropped = (g j).dropped ∧
      (Function.update g i sight j).written = (g j).written := by
    intro j
    by_cases hj : j = i
    · subst hj
      rw [Function.update_self]
      exact hsight
    · rw [Function.update_of_ne hj]
      exact ⟨rfl, rfl⟩
  obtain ⟨hdropped, hwritten⟩ := hsame none
  rw [h.sights] at hold hsights
  refine ⟨hsights, ?_, ?_, ?_, ?_, ?_, ?_⟩
  · intro j hj
    by_cases hij : j = i
    · subst hij
      rw [Function.update_self] at hj
      exact absurd hj hlooked
    · rw [Function.update_of_ne hij] at hj
      rw [hold, Function.update_of_ne hij]
      exact h.unlooked j hj
  · rw [hwritten, hold]
    intro hdone
    by_cases hi : none = i
    · subst hi
      rw [Function.update_self, hdone]
      rfl
    · rw [Function.update_of_ne hi]
      exact h.author hdone
  · rw [hwritten, hdropped]
    exact h.order
  · rw [hdropped, hstore]
    exact h.kept
  · rw [hwritten, hstore]
    exact h.row
  · intro j hj
    by_cases hij : j = i
    · subst hij
      rw [hold, Function.update_self, Bool.not_eq_false'] at hj
      rw [Function.update_self]
      exact hnew hj
    · rw [hold, Function.update_of_ne hij] at hj
      rw [Function.update_of_ne hij]
      exact h.looks j hj

theorem VisitInv.apart (h : VisitInv tools u req st g) (hs : Apart u st st') :
    VisitInv tools u req st' g := by
  obtain ⟨store, hcache, hrow⟩ := hs
  have hself : Function.update g none (g none) = g := Function.update_eq_self none g
  rw [← hself]
  refine h.quiet ?_ rfl ⟨rfl, rfl, rfl⟩ ?_ hrow
  · rw [h.sights]
    exact hself.symm
  · intro hdropped e he
    rcases hcache with hnone | hsame
    · rw [hnone] at he
      cases he
    · rw [hsame] at he
      exact h.kept hdropped e he

/-- Calls that neither look nor change what is looked for. -/
def Idle : {β : Type} → ProfileCmd β → Prop
  | _, .get _ => False
  | _, .set _ _ _ => False
  | _, .del _ => False
  | _, .findById _ => False
  | _, .updateProfile _ _ _ _ _ => False
  | _, _ => True

theorem exec_idle {now later : OffsetDateTime} {β : Type} {c : ProfileCmd β} {s s' : Store} {b : β}
    (hc : Idle c) (h : Store.exec tools now later c s = (b, s')) :
    s'.cache = s.cache ∧ s'.db = s.db := by
  obtain rfl : (Store.exec tools now later c s).2 = s' := congrArg Prod.snd h
  cases c <;> first | exact hc.elim | exact ⟨rfl, rfl⟩

theorem after_idle {β : Type} {c : ProfileCmd β} (hc : Idle c) (b : β) (sight : Sight) :
    (sight.after c b).looked = sight.looked ∧ (sight.after c b).dropped = sight.dropped ∧
      (sight.after c b).written = sight.written := by
  cases c with
  | findByUserId | findProviders => cases b <;> exact ⟨rfl, rfl, rfl⟩
  | findAvatarKey | isFollowing | searchProfiles | objectExists | spawnDelete => exact ⟨rfl, rfl, rfl⟩
  | _ => exact hc.elim

theorem VisitInv.idle {β : Type} {c : ProfileCmd β} {b : β} (h : VisitInv tools u req st g)
    (hc : Idle c) (hs : WatchedAnswers tools i c st b st') :
    VisitInv tools u req st' (Function.update g i ((g i).after c b)) := by
  obtain ⟨hanswer, hsights, hold⟩ := hs
  have hstore : st'.store.cache = st.store.cache ∧ st'.store.db = st.store.db := by
    rcases hanswer with ⟨now, later, hexec⟩ | ⟨-, hsame⟩
    · exact exec_idle hc hexec
    · rw [hsame]
      exact ⟨rfl, rfl⟩
  have hquiet : oldAfter (st.sights none).written c (st.old i) = st.old i := by
    cases c <;> first | exact hc.elim | rfl
  rw [hquiet, Function.update_eq_self] at hold
  rw [h.sights] at hsights
  refine h.quiet (by rw [hsights, h.sights]) hold (after_idle hc b (g i)) ?_ (by rw [hstore.2])
  rw [hstore.1]
  exact h.kept

theorem VisitInv.get {key : String} {b : Except RedisError (Option Value)}
    (h : VisitInv tools u req st g) (hkey : key = RedisKey.profile u)
    (hs : WatchedAnswers tools i (.get key) st b st') :
    VisitInv tools u req st' (Function.update g i ((g i).after (.get key) b)) := by
  obtain ⟨hanswer, hsights, hold⟩ := hs
  rw [h.sights] at hsights
  have hstore : st'.store = st.store := by
    rcases hanswer with ⟨now, later, hexec⟩ | ⟨-, hsame⟩
    · exact (congrArg Prod.snd hexec).symm
    · exact hsame
  rcases b with e | _ | v
  · exact h.look (by rw [hsights, h.sights]) hold nofun ⟨rfl, rfl⟩ (fun _ => trivial) hstore
  · exact h.look (by rw [hsights, h.sights]) hold nofun ⟨rfl, rfl⟩ (fun _ => trivial) hstore
  · refine h.look (by rw [hsights, h.sights]) hold nofun ⟨rfl, rfl⟩ (fun hwritten => ?_) hstore
    rcases hanswer with ⟨now, later, hexec⟩ | ⟨hfails, -⟩
    · have hfound : st.store.cache.find now key = some v := Except.ok.inj (congrArg Prod.fst hexec)
      rw [hkey] at hfound
      obtain ⟨e, he, rfl, -⟩ := Expiring.find_eq_some hfound
      exact h.kept (h.order hwritten) e he
    · cases hfails

theorem VisitInv.findById {b : Except DbError (Option Profile)} (h : VisitInv tools u req st g)
    (hs : WatchedAnswers tools i (.findById u) st b st') :
    VisitInv tools u req st' (Function.update g i ((g i).after (.findById u) b)) := by
  obtain ⟨hanswer, hsights, hold⟩ := hs
  rw [h.sights] at hsights
  have hstore : st'.store = st.store := by
    rcases hanswer with ⟨now, later, hexec⟩ | ⟨-, hsame⟩
    · exact (congrArg Prod.snd hexec).symm
    · exact hsame
  have hfound : ∀ profile, b = .ok profile → st.store.db.findById u = profile := by
    rintro profile rfl
    rcases hanswer with ⟨now, later, hexec⟩ | ⟨hfails, -⟩
    · exact Except.ok.inj (congrArg Prod.fst hexec)
    · cases hfails
  rcases b with e | _ | profile
  · exact h.look (by rw [hsights, h.sights]) hold nofun ⟨rfl, rfl⟩ (fun _ => trivial) hstore
  · refine h.look (by rw [hsights, h.sights]) hold nofun ⟨rfl, rfl⟩ (fun hwritten => ?_) hstore
    obtain ⟨profile, hprofile, -⟩ := h.row hwritten
    rw [hfound _ rfl] at hprofile
    cases hprofile
  · refine h.look (by rw [hsights, h.sights]) hold nofun ⟨rfl, rfl⟩ (fun hwritten => ?_) hstore
    obtain ⟨profile', hprofile, hshows⟩ := h.row hwritten
    rw [hfound _ rfl] at hprofile
    obtain rfl := Option.some.inj hprofile
    exact hshows

theorem VisitInv.set {key : String} {value : Value} {ttl : Int} {b : Except RedisError Unit}
    (h : VisitInv tools u req st g) (hfills : Fills tools key value (g i))
    (hs : FreshAnswers tools i (.set key value ttl) st b st') :
    VisitInv tools u req st' (Function.update g i ((g i).after (.set key value ttl) b)) := by
  obtain ⟨⟨hanswer, hsights, hold⟩, hfresh⟩ := hs
  replace hfresh : (g none).dropped = true → st.old i = false := by
    rw [← h.sights]
    exact hfresh
  replace hold : st'.old = st.old := hold.trans (Function.update_eq_self i st.old)
  have hsight : ((g i).after (.set key value ttl) b).looked = (g i).looked ∧
      ((g i).after (.set key value ttl) b).dropped = (g i).dropped ∧
        ((g i).after (.set key value ttl) b).written = (g i).written := by
    cases b <;> exact ⟨rfl, rfl, rfl⟩
  rcases hanswer with ⟨now, later, hexec⟩ | ⟨-, hsame⟩
  · have hstore : (Store.exec tools now later (.set key value ttl) st.store).2 = st'.store :=
      congrArg Prod.snd hexec
    refine h.quiet (by rw [hsights, h.sights]) hold hsight (fun hdropped e he => ?_) ?_
    · rw [← hstore] at he
      have hset : (if RedisKey.profile u = key then some _ else st.store.cache (RedisKey.profile u)) =
        some e := he
      split at hset
      · obtain rfl := Option.some.inj hset
        obtain ⟨profile, settings, providers, hrow, -, rfl⟩ := hfills
        have hnew := h.looks i (hfresh hdropped)
        rw [hrow] at hnew
        exact ⟨_, rfl, profile.created, hnew⟩
      · exact h.kept hdropped e hset
    · rw [← hstore]
      rfl
  · refine h.quiet (by rw [hsights, h.sights]) hold hsight ?_ (by rw [hsame])
    rw [hsame]
    exact h.kept

theorem VisitInv.del {b : Except RedisError Unit} (h : VisitInv tools u req st g) (hi : i = none)
    (hs : WatchedAnswers tools i (.del (RedisKey.profile u)) st b st') :
    VisitInv tools u req st' (Function.update g i ((g i).after (.del (RedisKey.profile u)) b)) := by
  obtain ⟨hanswer, hsights, hold⟩ := hs
  replace hold : st'.old = st.old := hold.trans (Function.update_eq_self i st.old)
  subst hi
  cases b with
  | error e =>
    have hsame : st'.store = st.store := by
      rcases hanswer with ⟨now, later, hexec⟩ | ⟨-, hsame⟩
      · cases congrArg Prod.fst hexec
      · exact hsame
    refine h.quiet (by rw [hsights, h.sights]) hold ⟨rfl, rfl, rfl⟩ ?_ (by rw [hsame])
    rw [hsame]
    exact h.kept
  | ok a =>
    have hstore : st'.store = { st.store with
        cache := st.store.cache.set (RedisKey.profile u) none } := by
      rcases hanswer with ⟨now, later, hexec⟩ | ⟨hfails, -⟩
      · exact (congrArg Prod.snd hexec).symm
      · cases hfails
    rw [h.sights] at hsights
    have hdropped : (g none).after (.del (RedisKey.profile u)) (.ok a) =
        { g none with dropped := true } := rfl
    rw [hdropped] at hsights ⊢
    refine ⟨hsights, ?_, ?_, ?_, ?_, ?_, ?_⟩
    · rintro (_ | k)
      · rw [Function.update_self, hold]
        exact h.unlooked none
      · rw [hold]
        exact h.unlooked (some k)
    · rw [Function.update_self, hold]
      exact h.author
    · rw [Function.update_self]
      exact fun _ => rfl
    · intro _ e he
      have hnone : st.store.cache.set (RedisKey.profile u) none (RedisKey.profile u) = none := by
        rw [Expiring.set_apply, if_pos rfl]
      have hcache : st'.store.cache = st.store.cache.set (RedisKey.profile u) none := by rw [hstore]
      rw [hcache, hnone] at he
      cases he
    · rw [Function.update_self, hstore]
      exact h.row
    · rintro (_ | k)
      · rw [Function.update_self, hold]
        exact h.looks none
      · rw [hold]
        exact h.looks (some k)

/-- A row that is written shows what was given. -/
theorem shows_of_send {db : ProfileDb} {r : Profile × ProfileDb} (h : req.send tools u db = .ok r) :
    r.1.Shows tools req := by
  obtain ⟨user, -, bio, hbio, -, hprofile⟩ := get_of_send h
  rw [hprofile]
  constructor
  · intro name hname
    rw [UpdateProfileRequest.written, hname, Option.getD_some]
  · intro b hb
    rcases mapM_varchar_eq_ok.1 hbio with ⟨hnone, -⟩ | ⟨b', hb', kept, hkept, rfl⟩
    · rw [hnone] at hb
      cases hb
    · obtain rfl := Option.mem_unique hb hb'
      exact ⟨kept, hkept, rfl⟩
  · rintro key (hkey : req.avatarKey = some key)
    simp [UpdateProfileRequest.written, hkey]
  · rintro key (hkey : req.avatarKey = some key)
    simp [UpdateProfileRequest.written, hkey]

theorem VisitInv.updateProfile {b : Except DbError Profile} (h : VisitInv tools u req st g)
    (hi : i = none) (hlooked : (g i).looked = .nothing) (hdropped : (g i).dropped = true)
    (hs : WatchedAnswers tools i (.updateProfile u req.fullName req.bio req.avatarKey
      (req.avatarKey.map (getAvatarUrl tools))) st b st') :
    VisitInv tools u req st' (Function.update g i ((g i).after (.updateProfile u req.fullName req.bio
      req.avatarKey (req.avatarKey.map (getAvatarUrl tools))) b)) := by
  obtain ⟨hanswer, hsights, hold⟩ := hs
  replace hold : st'.old = st.old := hold.trans (Function.update_eq_self i st.old)
  subst hi
  have hrefused : st'.store = st.store → ((g none).after (.updateProfile u req.fullName req.bio
      req.avatarKey (req.avatarKey.map (getAvatarUrl tools))) b) = g none →
      VisitInv tools u req st' (Function.update g none ((g none).after (.updateProfile u req.fullName
        req.bio req.avatarKey (req.avatarKey.map (getAvatarUrl tools))) b)) := by
    intro hsame hafter
    refine h.quiet (by rw [hsights, h.sights]) hold (by rw [hafter]; exact ⟨rfl, rfl, rfl⟩) ?_
      (by rw [hsame])
    rw [hsame]
    exact h.kept
  rcases hanswer with ⟨now, later, hexec⟩ | ⟨hfails, hsame⟩
  · rw [Store.exec] at hexec
    cases hsend : req.send tools u st.store.db with
    | error e =>
      rw [UpdateProfileRequest.send] at hsend
      rw [hsend] at hexec
      obtain ⟨rfl, hsame⟩ := Prod.mk.inj hexec
      exact hrefused hsame.symm rfl
    | ok r =>
      have hrow := findById_of_send hsend
      have hshows := shows_of_send hsend
      rw [UpdateProfileRequest.send] at hsend
      rw [hsend] at hexec
      obtain ⟨rfl, hstore⟩ := Prod.mk.inj hexec
      have hcache : st'.store.cache = st.store.cache := by rw [← hstore]
      have hdb : st'.store.db = r.2 := by rw [← hstore]
      have hafter : (g none).after (.updateProfile u req.fullName req.bio req.avatarKey
          (req.avatarKey.map (getAvatarUrl tools))) (.ok r.1) =
        { g none with written := true } := rfl
      rw [h.sights] at hsights
      rw [hafter] at hsights ⊢
      refine ⟨hsights, ?_, ?_, ?_, ?_, ?_, ?_⟩
      · rintro (_ | k)
        · rw [hold]
          exact fun _ => h.unlooked none hlooked
        · rw [hold]
          exact h.unlooked (some k)
      · rw [hold]
        exact fun _ => h.unlooked none hlooked
      · rw [Function.update_self]
        exact fun _ => hdropped
      · rw [Function.update_self, hcache]
        exact h.kept
      · rw [hdb]
        exact fun _ => ⟨r.1, hrow, hshows⟩
      · rintro (_ | k)
        · rw [Function.update_self, hold]
          exact h.looks none
        · rw [hold]
          exact h.looks (some k)
  · cases b with
    | error e => exact hrefused hsame rfl
    | ok profile => cases hfails

/-- Every answer, but a fill with what was there before, keeps the invariant. -/
theorem VisitInv.call {β : Type} {c : ProfileCmd β} {b : β} (h : VisitInv tools u req st g)
    (hbefore : visitorBefore tools u req i c (g i)) (hs : FreshAnswers tools i c st b st') :
    VisitInv tools u req st' (Function.update g i ((g i).after c b)) := by
  cases c with
  | get key => exact h.get hbefore.1 hs.1
  | set key value ttl => exact h.set hbefore hs
  | del key =>
    obtain ⟨hi, rfl⟩ := hbefore
    exact h.del hi hs.1
  | findById id =>
    obtain rfl : id = u := hbefore
    exact h.findById hs.1
  | updateProfile id fullName bio avatarKey avatarUrl =>
    obtain ⟨hi, hlooked, hdropped, rfl, rfl, rfl, rfl, rfl⟩ := hbefore
    exact h.updateProfile hi hlooked hdropped hs.1
  | _ => exact h.idle trivial hs.1

end Invariant

/-! ## Runs -/

section Runs

variable {κ : Type} [DecidableEq κ] {tools : Tools} {u : Uuid} {req : UpdateProfileRequest}

theorem shows_of_gives {looked : Looked} {me : MeResponse} (hnew : looked.New tools req)
    (hgives : looked.Gives tools me) : me.Shows tools req := by
  cases looked with
  | cached v =>
    obtain ⟨me', rfl, hfits, hshows⟩ := hnew
    have hread : MeResponse.fromValue tools.time (me'.toValue tools.time) = .ok me := hgives
    by_cases hr : me'.Readable
    · rw [MeResponse.fromValue_toValue tools.time hfits hr] at hread
      obtain rfl := Except.ok.inj hread
      exact hshows
    · rw [MeResponse.fromValue_nested tools.time hfits hr] at hread
      cases hread
  | row profile =>
    obtain ⟨hname, hbio, hid, hurl⟩ := hgives
    rw [MeResponse.Shows, hname, hbio, hid, hurl]
    exact hnew
  | nothing => exact hgives.elim
  | absent => exact hgives.elim
  | missing => exact hgives.elim

theorem tooDeep_of_barren {looked : Looked} (hnew : looked.New tools req)
    (hbarren : looked.Barren tools) : looked.TooDeep tools := by
  cases looked with
  | cached v =>
    obtain ⟨me, rfl, hfits, -⟩ := hnew
    exact ⟨me, rfl, fun hr => hbarren me (MeResponse.fromValue_toValue tools.time hfits hr)⟩
  | missing => exact hnew.elim
  | nothing => exact hbarren.elim
  | absent => exact hbarren.elim
  | row profile => exact hbarren.elim

theorem shows_of_isEmpty (hreq : req.isEmpty = true) (me : MeResponse) : me.Shows tools req := by
  simp only [UpdateProfileRequest.isEmpty, Bool.and_eq_true, Option.isNone_iff_eq_none] at hreq
  obtain ⟨⟨hname, hbio⟩, hkey⟩ := hreq
  constructor <;> simp [hname, hbio, hkey]

/-- What is reached when nobody fills the key with what was there before. -/
theorem outlined_visit {s : Store}
    {p : Pool (Watched κ) ProfileCmd (Except ProfileError MeResponse) (Option κ)}
    (hreq : req.isEmpty = false)
    (hrun : Pool.Steps (FreshAnswers tools) (Apart u) (visit tools u req s) p) :
    p.Outlined (visitorBefore tools u req) (fun _ => Sight.after) (VisitorEnds tools)
      (VisitInv tools u req) := by
  refine Pool.outlined_of_steps (fun _ _ _ _ _ _ _ hbefore hs h => h.call hbefore hs)
    (fun _ _ _ hs h => h.apart hs) hrun ?_
  refine ⟨fun _ => .start, ?_, fun i => outline_visitor tools u req i hreq⟩
  constructor
  · rfl
  · exact fun _ _ => rfl
  · nofun
  · nofun
  · nofun
  · nofun
  · exact fun _ _ => trivial

theorem written_after {β : Type} (c : ProfileCmd β) (b : β) {g : Sight} (h : g.written = true) :
    (g.after c b).written = true := by
  cases c with
  | get | findById => rcases b with e | _ | x <;> exact h
  | set | del | findProviders | findByUserId => cases b <;> exact h
  | updateProfile =>
    cases b with
    | error e => exact h
    | ok profile => rfl
  | _ => exact h

theorem oldAfter_written {β : Type} (c : ProfileCmd β) : oldAfter true c false = false := by
  cases c <;> rfl

/-- Once the row is written, whoever looks for the first time finds what is new. -/
theorem not_old_of_steps {k : κ}
    {p p' : Pool (Watched κ) ProfileCmd (Except ProfileError MeResponse) (Option κ)}
    (hrun : Pool.Steps (FreshAnswers tools) (Apart u) p p')
    (hwritten : (p.store.sights none).written = true) (hold : p.store.old (some k) = false) :
    p'.store.old (some k) = false := by
  have hkeeps := Pool.keeps_of_steps
    (I := fun st : Watched κ => (st.sights none).written = true ∧ st.old (some k) = false) ?_ ?_ hrun
    ⟨hwritten, hold⟩
  · exact hkeeps.2
  · rintro i β c st b st' ⟨⟨-, hsights, hlooks⟩, -⟩ ⟨hwritten, hold⟩
    rw [hsights, hlooks]
    constructor
    · by_cases hi : none = i
      · subst hi
        rw [Function.update_self]
        exact written_after c b hwritten
      · rw [Function.update_of_ne hi]
        exact hwritten
    · by_cases hi : some k = i
      · subst hi
        rw [Function.update_self, hwritten, hold]
        exact oldAfter_written c
      · rw [Function.update_of_ne hi]
        exact hold
  · rintro st st' ⟨store, -, -⟩ h
    exact h

/-- The update returns what was given, and so does every read that begins when it has returned, or
one of its calls has failed, that to Redis among them, which refuses preferences that are nested too
deep; whoever else reads meanwhile. -/
theorem profile_update_visible (tools : Tools) (u : Uuid) (req : UpdateProfileRequest) (s : Store)
    (p₁ p₂ : Pool (Watched κ) ProfileCmd (Except ProfileError MeResponse) (Option κ))
    (me : MeResponse)
    (hrun : Pool.Steps (FreshAnswers tools) (Apart u) (visit tools u req s) p₁)
    (hupdated : p₁.prog none = .ret (.ok me))
    (hlater : Pool.Steps (FreshAnswers tools) (Apart u) p₁ p₂) :
    me.Shows tools req ∧ ∀ k, p₁.prog (some k) = (getMe tools u).run →
      (∀ me', p₂.prog (some k) = .ret (.ok me') → me'.Shows tools req) ∧
        ∀ e, p₂.prog (some k) = .ret (.error e) →
          (p₂.store.sights (some k)).failed = true ∨
            (p₂.store.sights (some k)).looked.TooDeep tools ∨ req.isEmpty = true := by
  cases hreq : req.isEmpty with
  | true =>
    exact ⟨shows_of_isEmpty hreq me, fun k _ => ⟨fun me' _ => shows_of_isEmpty hreq me',
      fun e _ => .inr (.inr rfl)⟩⟩
  | false =>
    obtain ⟨g₁, hinv₁, hprogs₁⟩ := outlined_visit hreq hrun
    obtain ⟨g₂, hinv₂, hreturned⟩ := (outlined_visit hreq (hrun.trans hlater)).returned
    have hend := hprogs₁ none
    rw [hupdated] at hend
    obtain ⟨hwritten, hgives⟩ : VisitorEnds tools none (.ok me) (g₁ none) := hend
    have hwritten : (g₁ none).written = true := hwritten rfl
    refine ⟨shows_of_gives (hinv₁.looks none (hinv₁.author hwritten)) hgives, fun k hk => ?_⟩
    have hbegin := hprogs₁ (some k)
    rw [hk] at hbegin
    have hunlooked : (g₁ (some k)).looked = .nothing := hbegin.1.2
    have hnew : (g₂ (some k)).looked.New tools req := by
      refine hinv₂.looks (some k) (not_old_of_steps hlater ?_ (hinv₁.unlooked (some k) hunlooked))
      rw [hinv₁.sights]
      exact hwritten
    constructor
    · intro me' hme
      exact shows_of_gives hnew (hreturned (some k) _ hme).2
    · intro e he
      rcases hreturned (some k) _ he with hk | hfailed | hbarren
      · cases hk
      · rw [hinv₂.sights]
        exact .inl hfailed
      · rw [hinv₂.sights]
        exact .inr (.inl (tooDeep_of_barren hnew hbarren))

/-! ### Alice's new name -/

def aliceRenames : UpdateProfileRequest where
  fullName := some "alicia"
  bio := none
  avatarKey := none

/-- One call that is answered at once. -/
def answerWatched (i : Option Unit) {β : Type} (c : ProfileCmd β) (st : Watched Unit) :
    β × Watched Unit :=
  let (b, store) := Store.exec plainTools 0 0 c st.store
  (b, {
    store
    sights := Function.update st.sights i ((st.sights i).after c b)
    old := Function.update st.old i (oldAfter (st.sights none).written c (st.old i)) })

def nothingBesides (_ : Watched Unit) (e : Empty) : Watched Unit := e.elim

/-- An update and a read of Alice's profile, in turns. -/
def playVisits (ts : List (Pool.Turn (Option Unit) Empty)) :
    Pool (Watched Unit) ProfileCmd (Except ProfileError MeResponse) (Option Unit) :=
  ts.foldl (Pool.turn answerWatched nothingBesides)
    (visit plainTools ⟨1⟩ aliceRenames (.start followedDb []))

theorem watchedAnswers_answer (i : Option Unit) {β : Type} (c : ProfileCmd β) (st : Watched Unit) :
    WatchedAnswers plainTools i c st (answerWatched i c st).1 (answerWatched i c st).2 :=
  ⟨.inl ⟨0, 0, rfl⟩, rfl, rfl⟩

/-- The next call of the update. -/
def updates : Pool.Turn (Option Unit) Empty := .call none

/-- The next call of the read. -/
def reads : Pool.Turn (Option Unit) Empty := .call (some ())

/-- The update, and then the read, which finds what the update has put there. -/
def oneThenTheOther : List (Pool.Turn (Option Unit) Empty) :=
  [updates, updates, updates, updates, updates, updates, updates]

/-- The read fills the key when the row is written, with what it has read before. -/
def readFillsLate : List (Pool.Turn (Option Unit) Empty) :=
  [reads, reads, reads, reads, updates, updates, reads, updates]

theorem alicia_seen : ∃ me me',
    (playVisits oneThenTheOther).prog none = .ret (.ok me) ∧ me.Shows plainTools aliceRenames ∧
      ((playVisits oneThenTheOther).turn answerWatched nothingBesides reads).prog (some ()) =
        .ret (.ok me') ∧ me'.Shows plainTools aliceRenames := by
  have hexec : ∀ i {β : Type} (c : ProfileCmd β) (st : Watched Unit), (∀ j, FreshFill j c st) →
      FreshAnswers plainTools i c st (answerWatched i c st).1 (answerWatched i c st).2 :=
    fun i _ c st hc => ⟨watchedAnswers_answer i c st, hc i⟩
  have hrun : Pool.Steps (FreshAnswers plainTools) (Apart ⟨1⟩)
      (visit plainTools ⟨1⟩ aliceRenames (.start followedDb [])) (playVisits oneThenTheOther) := by
    have hfill : ∀ j, (playVisits (oneThenTheOther.take 6)).store.old j = false := by
      intro j
      cases j <;> rfl
    refine Pool.steps_turns hexec (fun _ e => e.elim) ⟨fun _ => trivial, fun _ => trivial,
      fun _ => trivial, fun _ => trivial, fun _ => trivial, fun _ => trivial, fun j _ => hfill j, trivial⟩
  have hlater : Pool.Steps (FreshAnswers plainTools) (Apart ⟨1⟩) (playVisits oneThenTheOther)
      ((playVisits oneThenTheOther).turn answerWatched nothingBesides reads) := by
    have hget : ∀ j, FreshFill j (.get (RedisKey.profile ⟨1⟩))
        (playVisits oneThenTheOther).store := fun _ => trivial
    exact Pool.step_turn hexec (fun _ e => e.elim) hget
  obtain ⟨hme, hothers⟩ := profile_update_visible plainTools ⟨1⟩ aliceRenames
    (.start followedDb []) _ _ _ hrun rfl hlater
  exact ⟨_, _, rfl, hme, rfl, (hothers () rfl).1 _ rfl⟩

/-- Alice is returned her old name, and the key has it. -/
theorem old_name_returned :
    Pool.Steps (WatchedAnswers plainTools) (Apart ⟨1⟩)
        (visit plainTools ⟨1⟩ aliceRenames (.start followedDb [])) (playVisits readFillsLate) ∧
      ∃ me, (playVisits readFillsLate).prog none = .ret (.ok me) ∧
        ¬ me.Shows plainTools aliceRenames := by
  constructor
  · have hexec : ∀ i {β : Type} (c : ProfileCmd β) (st : Watched Unit), True →
        WatchedAnswers plainTools i c st (answerWatched i c st).1 (answerWatched i c st).2 :=
      fun i _ c st _ => watchedAnswers_answer i c st
    exact Pool.steps_turns hexec (fun _ e => e.elim) (Pool.turnsOk_of_forall fun _ _ _ _ => trivial)
  · refine ⟨_, rfl, fun h => ?_⟩
    have hname := h.fullName "alicia" rfl
    exact absurd hname (by decide)

end Runs

end Meno.Profiles
