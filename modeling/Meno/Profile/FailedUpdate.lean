import Meno.Auth.Validators
import Meno.Profile.Avatars

/-!
# Meno.Profile.FailedUpdate

What a failed `update_me` leaves behind. The deletion of the old avatar is spawned before the
`UPDATE`, which can fail even for a request that passes its checks, and `get_me` can fail after it.
`failed_update_clean_iff` says when the row and the avatar's object are what they were all the same.
-/

namespace Meno.Profiles

open Lib

open ProfileService

open Auth (FieldError checkField validateBetween)

/-! ## Requests -/

namespace UpdateProfileRequest

/-- An `avatar_key` is not checked. -/
def validate (req : UpdateProfileRequest) : List FieldError :=
  (req.fullName.elim [] fun s =>
    checkField "full_name" (validateBetween 3 (some 100) "Name must be 3-100 characters" s)) ++
  (req.bio.elim [] fun s =>
    checkField "bio" (validateBetween 0 (some 500) "Bio must be under 500 characters" s))

/-- The texts that the `UPDATE` binds. -/
def texts (tools : Tools) (req : UpdateProfileRequest) : List String :=
  req.fullName.toList ++ req.bio.toList ++ req.avatarKey.toList ++
    (req.avatarKey.map (getAvatarUrl tools)).toList

end UpdateProfileRequest

/-! ## Calls that fail -/

/-- The errors of the calls that fail; `update_me` makes at most one call of each kind. -/
structure Outages where
  get : Option RedisError := none
  set : Option RedisError := none
  del : Option RedisError := none
  findById : Option DbError := none
  findProviders : Option DbError := none
  findByUserId : Option DbError := none
  findAvatarKey : Option DbError := none
  updateProfile : Option DbError := none
  objectExists : Option String := none

def Outages.refusal (o : Outages) : {β : Type} → ProfileCmd β → Option β
  | _, .get _ => o.get.map .error
  | _, .set _ _ _ => o.set.map .error
  | _, .del _ => o.del.map .error
  | _, .findById _ => o.findById.map .error
  | _, .findProviders _ => o.findProviders.map .error
  | _, .findByUserId _ => o.findByUserId.map .error
  | _, .findAvatarKey _ => o.findAvatarKey.map .error
  | _, .updateProfile _ _ _ _ _ => o.updateProfile.map .error
  | _, .objectExists _ => o.objectExists.map .error
  | _, _ => none

section Refusal

variable (o : Outages)

@[simp] theorem refusal_get (key : String) : o.refusal (.get key) = o.get.map .error := rfl

@[simp] theorem refusal_set (key : String) (value : Value) (ttl : Int) :
    o.refusal (.set key value ttl) = o.set.map .error := rfl

@[simp] theorem refusal_del (key : String) : o.refusal (.del key) = o.del.map .error := rfl

@[simp] theorem refusal_findById (u : Uuid) :
    o.refusal (.findById u) = o.findById.map .error := rfl

@[simp] theorem refusal_findProviders (u : Uuid) :
    o.refusal (.findProviders u) = o.findProviders.map .error := rfl

@[simp] theorem refusal_findByUserId (u : Uuid) :
    o.refusal (.findByUserId u) = o.findByUserId.map .error := rfl

@[simp] theorem refusal_findAvatarKey (u : Uuid) :
    o.refusal (.findAvatarKey u) = o.findAvatarKey.map .error := rfl

@[simp] theorem refusal_updateProfile (id : Uuid) (fullName bio avatarKey avatarUrl : Option String) :
    o.refusal (.updateProfile id fullName bio avatarKey avatarUrl) =
      o.updateProfile.map .error := rfl

@[simp] theorem refusal_objectExists (key : String) :
    o.refusal (.objectExists key) = o.objectExists.map .error := rfl

@[simp] theorem refusal_spawnDelete (key : String) : o.refusal (.spawnDelete key) = none := rfl

end Refusal

/-- The times of a run, and what fails in it. -/
structure Circumstances where
  now : OffsetDateTime
  later : OffsetDateTime
  /-- `NOW()`, as the column has it. -/
  stamp : OffsetDateTime
  outages : Outages

/-- The store, and the column `updated_at` of `users`. -/
structure Stamped where
  store : Store
  updatedAt : Uuid → OffsetDateTime

/-- An `UPDATE` that goes through sets `updated_at`. -/
def stampAfter (stamp : OffsetDateTime) :
    {β : Type} → ProfileCmd β → β → (Uuid → OffsetDateTime) → Uuid → OffsetDateTime
  | _, .updateProfile id _ _ _ _, .ok _, updatedAt => Function.update updatedAt id stamp
  | _, _, _, updatedAt => updatedAt

/-- A call that fails does nothing: there is no `UPDATE` here that is done and whose answer is
lost. -/
def Circumstances.exec (w : Circumstances) (tools : Tools) {β : Type} (c : ProfileCmd β)
    (st : Stamped) : β × Stamped :=
  match w.outages.refusal c with
  | some b => (b, st)
  | none =>
    let (b, store) := Store.exec tools w.now w.later c st.store
    (b, { store, updatedAt := stampAfter w.stamp c b st.updatedAt })

def Stamped.update (tools : Tools) (w : Circumstances) (u : Uuid) (req : UpdateProfileRequest)
    (st : Stamped) : Except ProfileError MeResponse × Stamped :=
  Lib.Act.answer (w.exec tools) (updateMe tools u req) st

/-! ## What is left behind -/

/-- The spawned deletions come to their ends, in whatever order: each is carried out or fails. -/
inductive DeletionsEnd (tools : Tools) : List String → List String → List String → Prop
  | done {objects : List String} : DeletionsEnd tools [] objects objects
  | delete {key : String} {pending objects objects' : List String} (h : key ∈ pending)
      (hrest : DeletionsEnd tools (pending.erase key)
        (objects.filter fun o => o ≠ tools.path key) objects') :
      DeletionsEnd tools pending objects objects'
  | deleteFails {key : String} {pending objects objects' : List String} (h : key ∈ pending)
      (hrest : DeletionsEnd tools (pending.erase key) objects objects') :
      DeletionsEnd tools pending objects objects'

/-- The user's row is what it was, and so is its avatar's object, however the deletions end that were
spawned meanwhile. -/
def Unchanged (tools : Tools) (u : Uuid) (st st' : Stamped) : Prop :=
  st'.store.db.users.get u = st.store.db.users.get u ∧ st'.updatedAt u = st.updatedAt u ∧
    ∃ spawned, st'.store.deletions = st.store.deletions ++ spawned ∧
      ∀ objects, DeletionsEnd tools spawned st'.store.objects objects →
        ∀ key ∈ st.store.db.findAvatarKey u,
          (tools.path key ∈ objects ↔ tools.path key ∈ st.store.objects)

def FailsClean (tools : Tools) (w : Circumstances) (u : Uuid) (req : UpdateProfileRequest)
    (st : Stamped) : Prop :=
  ∀ e, (st.update tools w u req).1 = .error e → Unchanged tools u st (st.update tools w u req).2

/-! ## The condition -/

section Condition

variable (tools : Tools) (o : Outages) (u : Uuid) (req : UpdateProfileRequest) (s : Store)

/-- Something fails before a deletion is spawned. -/
def StopsEarly : Prop :=
  o.del.isSome ∨ ∃ key ∈ req.avatarKey,
    o.objectExists.isSome ∨ tools.path key ∉ s.objects ∨ o.findAvatarKey.isSome

/-- The `UPDATE` goes through: the user is there, no text has a NUL, and the column takes the bio. -/
def Writes : Prop :=
  o.updateProfile = none ∧ (∀ text ∈ req.texts tools, storable text) ∧ (s.db.live u).isSome ∧
    ∀ bio ∈ req.bio, ∃ kept, varchar 244 bio = .ok kept

/-- One of the calls fails that `get_me` makes. -/
def ReadFails : Prop :=
  o.get.isSome ∨ o.findById.isSome ∨ o.findByUserId.isSome ∨ o.findProviders.isSome ∨ o.set.isSome

/-- No avatar is chosen, or the old one has no object. -/
def AvatarStays : Prop :=
  req.avatarKey = none ∨ ∀ old ∈ s.db.findAvatarKey u, tools.path old ∉ s.objects

/-- The row has all this already. -/
def NothingNew (stamp : OffsetDateTime) (st : Stamped) : Prop :=
  req.avatarKey = none ∧ st.updatedAt u = stamp ∧ ∃ user ∈ st.store.db.live u,
    (∀ name ∈ req.fullName, user.profile.fullName = name) ∧
      ∀ bio ∈ req.bio, ∃ kept, varchar 244 bio = .ok kept ∧ user.profile.bio = some kept

def Clean (w : Circumstances) (st : Stamped) : Prop :=
  req.isEmpty = true ∨ StopsEarly tools w.outages req st.store ∨
    (¬ Writes tools w.outages u req st.store ∧ AvatarStays tools u req st.store) ∨
      (Writes tools w.outages u req st.store ∧
        (¬ ReadFails w.outages ∨ NothingNew u req w.stamp st))

end Condition

/-! ## The statement -/

section Statement

variable {tools : Tools} {o : Outages} {u : Uuid} {req : UpdateProfileRequest} {s : Store}

theorem bindTextOpt_eq_ok {text : Option String} {a : Unit} :
    bindTextOpt text = .ok a ↔ ∀ t ∈ text, storable t := by
  cases text with
  | none => simp [bindTextOpt, bindText, storable]
  | some t => simp [bindTextOpt, bindText]

/-- The row that the `UPDATE` makes of `user`. -/
def UpdateProfileRequest.written (tools : Tools) (req : UpdateProfileRequest) (bio : Option String)
    (user : User) : User where
  profile := {
    user.profile with
    fullName := req.fullName.getD user.profile.fullName
    bio := bio.or user.profile.bio
    avatarId := req.avatarKey.or user.profile.avatarId
    avatarUrl := (req.avatarKey.map (getAvatarUrl tools)).or user.profile.avatarUrl }
  deletedAt := user.deletedAt

/-- The statement for the request. -/
def UpdateProfileRequest.send (tools : Tools) (u : Uuid) (req : UpdateProfileRequest)
    (db : ProfileDb) : Except DbError (Profile × ProfileDb) :=
  db.updateProfile u req.fullName req.bio req.avatarKey (req.avatarKey.map (getAvatarUrl tools))

theorem send_eq_ok {db : ProfileDb} {r : Profile × ProfileDb} :
    req.send tools u db = .ok r ↔ (∀ text ∈ req.texts tools, storable text) ∧
      ∃ user ∈ db.live u, ∃ bio, req.bio.mapM (varchar 244) = .ok bio ∧
        r = ((req.written tools bio user).profile,
          { db with users := db.users.put (req.written tools bio user) }) := by
  have htexts : (∀ text ∈ req.texts tools, storable text) ↔
      (∀ t ∈ req.fullName, storable t) ∧ (∀ t ∈ req.bio, storable t) ∧
        (∀ t ∈ req.avatarKey, storable t) ∧
          ∀ t ∈ req.avatarKey.map (getAvatarUrl tools), storable t := by
    simp only [UpdateProfileRequest.texts, List.mem_append, Option.mem_toList, or_imp,
      forall_and, and_assoc, Option.mem_def]
  simp only [UpdateProfileRequest.send, ProfileDb.updateProfile, bind_eq_ok, bindTextOpt_eq_ok, htexts,
    exists_and_left, exists_const, and_assoc, and_congr_right_iff]
  intro _ _ _ _
  cases hlive : db.live u with
  | none => simp [throw, throwThe, MonadExceptOf.throw]
  | some user =>
    simp only [bind_eq_ok, Option.mem_some_iff, exists_eq_left']
    refine exists_congr fun bio => and_congr_right fun _ => ?_
    rw [pure_eq_ok]
    exact eq_comm

theorem mapM_varchar_eq_ok {n : Nat} {text kept : Option String} :
    text.mapM (varchar n) = .ok kept ↔ (text = none ∧ kept = none) ∨
      ∃ t ∈ text, ∃ t', varchar n t = .ok t' ∧ kept = some t' := by
  cases text with
  | none =>
    rw [Option.mapM_none, pure_eq_ok]
    simp [eq_comm]
  | some t =>
    cases ht : varchar n t with
    | error e => simp [ht, Functor.map, Except.map]
    | ok t' => simp [ht, Functor.map, Except.map, eq_comm]

theorem writes_iff : Writes tools o u req s ↔
    o.updateProfile = none ∧ ∃ r, req.send tools u s.db = .ok r := by
  constructor
  · rintro ⟨hupdate, htexts, hlive, hbio⟩
    obtain ⟨user, huser⟩ := Option.isSome_iff_exists.1 hlive
    refine ⟨hupdate, ?_⟩
    cases hreq : req.bio with
    | none =>
      exact ⟨_, send_eq_ok.2 ⟨htexts, user, huser, none, by rw [hreq]; rfl, rfl⟩⟩
    | some bio =>
      obtain ⟨kept, hkept⟩ := hbio bio hreq
      exact ⟨_, send_eq_ok.2
        ⟨htexts, user, huser, some kept, mapM_varchar_eq_ok.2 (.inr ⟨bio, hreq, kept, hkept, rfl⟩), rfl⟩⟩
  · rintro ⟨hupdate, r, hr⟩
    obtain ⟨htexts, user, huser, kept, hkept, -⟩ := send_eq_ok.1 hr
    refine ⟨hupdate, htexts, Option.isSome_of_mem huser, fun bio hbio => ?_⟩
    rcases mapM_varchar_eq_ok.1 hkept with ⟨hnone, -⟩ | ⟨bio', hbio', t', ht', -⟩
    · rw [hnone] at hbio
      cases hbio
    · obtain rfl := Option.mem_unique hbio hbio'
      exact ⟨t', ht'⟩

theorem get_of_send {db : ProfileDb} {r : Profile × ProfileDb} (h : req.send tools u db = .ok r) :
    ∃ user ∈ db.live u, ∃ bio, req.bio.mapM (varchar 244) = .ok bio ∧
      r.2.users.get u = some (req.written tools bio user) ∧
        r.1 = (req.written tools bio user).profile := by
  obtain ⟨-, user, huser, bio, hbio, rfl⟩ := send_eq_ok.1 h
  have hid : user.id = u := Table.key_of_get (Option.filter_eq_some_iff.1 huser).1
  have hid' : (req.written tools bio user).id = u := hid
  refine ⟨user, huser, bio, hbio, ?_, rfl⟩
  rw [Table.get_put, if_pos hid'.symm]

theorem findById_of_send {db : ProfileDb} {r : Profile × ProfileDb} (h : req.send tools u db = .ok r) :
    r.2.findById u = some r.1 := by
  obtain ⟨user, huser, bio, -, hget, hprofile⟩ := get_of_send h
  have hlive : user.deletedAt.isNone = true := (Option.filter_eq_some_iff.1 huser).2
  rw [ProfileDb.findById, ProfileDb.live, hget, hprofile]
  simp [Option.filter, UpdateProfileRequest.written, hlive]

end Statement

/-! ## Runs -/

section Runs

open Lib.Act

variable {tools : Tools} {w : Circumstances} {u : Uuid} {req : UpdateProfileRequest} {st : Stamped}

theorem exec_of_refused {β : Type} {c : ProfileCmd β} {b : β} (h : w.outages.refusal c = some b) :
    w.exec tools c st = (b, st) := by
  rw [Circumstances.exec, h]

theorem exec_of_answered {β : Type} {c : ProfileCmd β} (h : w.outages.refusal c = none) :
    w.exec tools c st =
      ((Store.exec tools w.now w.later c st.store).1,
        { store := (Store.exec tools w.now w.later c st.store).2
          updatedAt := stampAfter w.stamp c (Store.exec tools w.now w.later c st.store).1
            st.updatedAt }) := by
  rw [Circumstances.exec, h]

/-- The same behind Redis. -/
def SameBehind (st st' : Stamped) : Prop :=
  st'.store.db = st.store.db ∧ st'.store.objects = st.store.objects ∧
    st'.store.deletions = st.store.deletions ∧ st'.updatedAt = st.updatedAt

theorem exec_sameBehind {β : Type} (c : ProfileCmd β) (st₀ st : Stamped) (hc : Neutral c)
    (h : SameBehind st₀ st) : SameBehind st₀ (w.exec tools c st).2 := by
  cases hrefused : w.outages.refusal c with
  | some b =>
    rw [exec_of_refused hrefused]
    exact h
  | none =>
    rw [exec_of_answered hrefused]
    obtain ⟨hdb, hobjects, hdeletions⟩ :=
      @exec_neutral tools w.now w.later β c st.store _ _ hc Prod.mk.eta.symm
    obtain ⟨hdb', hobjects', hdeletions', hstamps⟩ := h
    refine ⟨hdb.trans hdb', hobjects.trans hobjects', hdeletions.trans hdeletions', ?_⟩
    rw [← hstamps]
    cases c <;> first | rfl | exact hc.elim

/-- Reads leave everything as it is but Redis. -/
theorem getMe_sameBehind (tools : Tools) (w : Circumstances) (u : Uuid) (st : Stamped) :
    SameBehind st (answer (w.exec tools) (getMe tools u) st).2 :=
  Prog.run_keeps (fun c st' hc h => exec_sameBehind c st st' hc h) (uses_getMe tools u)
    ⟨rfl, rfl, rfl, rfl⟩

/-- Of a user who is there, and of whom Redis keeps nothing. -/
theorem getMe_error_iff {profile : Profile}
    (hfind : st.store.cache.find w.now (RedisKey.profile u) = none)
    (hprofile : st.store.db.findById u = some profile) :
    (∃ e, (answer (w.exec tools) (getMe tools u) st).1 = .error e) ↔ ReadFails w.outages := by
  rw [ReadFails, getMe, ProfileCache.getCachedMe, ProfileCache.get]
  cases hget : w.outages.get with
  | some e => simp [answer_bind, answer_ask, Circumstances.exec, hget]
  | none =>
  cases hrow : w.outages.findById with
  | some e =>
    simp [answer_bind, answer_ask, Circumstances.exec, hget, hrow, Store.exec, hfind,
      stampAfter]
  | none =>
  cases hsettings : w.outages.findByUserId with
  | some e =>
    simp [answer_bind, answer_ask, Circumstances.exec, hget, hrow, hsettings,
      Store.exec, hfind, hprofile, stampAfter]
  | none =>
  cases hproviders : w.outages.findProviders with
  | some e =>
    simp [answer_bind, answer_ask, Circumstances.exec, hget, hrow, hsettings,
      hproviders, Store.exec, hfind, hprofile, stampAfter]
  | none =>
  cases hset : w.outages.set with
  | some e =>
    simp [answer_bind, answer_ask, Circumstances.exec, hget, hrow, hsettings,
      hproviders, hset, Store.exec, hfind, hprofile, stampAfter, ProfileCache.cacheMe,
      ProfileCache.set, answer_map, Except.map]
  | none =>
    simp [answer_bind, answer_ask, Circumstances.exec, hget, hrow, hsettings,
      hproviders, hset, Store.exec, hfind, hprofile, stampAfter, ProfileCache.cacheMe,
      ProfileCache.set, answer_map, Except.map]

/-- The keys whose deletion is spawned when a new avatar has been found. -/
def replaced (u : Uuid) (req : UpdateProfileRequest) (s : Store) : List String :=
  if req.avatarKey.isSome then (s.db.findAvatarKey u).toList else []

theorem newAvatar_stops (h : ∃ key ∈ req.avatarKey, w.outages.objectExists.isSome ∨
    tools.path key ∉ st.store.objects ∨ w.outages.findAvatarKey.isSome) :
    ∃ e, answer (w.exec tools) (newAvatar tools u req.avatarKey) st = (.error e, st) := by
  obtain ⟨key, hkey, h⟩ := h
  rw [hkey, newAvatar, updateAvatarUrl]
  cases hexists : w.outages.objectExists with
  | some e => simp [answer_bind, answer_ask, Circumstances.exec, hexists]
  | none =>
  by_cases hobject : tools.path key ∈ st.store.objects
  · obtain ⟨e, hfind⟩ : ∃ e, w.outages.findAvatarKey = some e := by
      simpa [hexists, hobject, Option.isSome_iff_exists] using h
    simp [answer_bind, answer_ask, Circumstances.exec, hexists, hfind, hobject,
      Store.exec, stampAfter, deleteAvatar]
  · simp [answer_bind, answer_ask, Circumstances.exec, hexists, hobject, Store.exec,
      stampAfter]

theorem newAvatar_goes_on (h : ¬ ∃ key ∈ req.avatarKey, w.outages.objectExists.isSome ∨
    tools.path key ∉ st.store.objects ∨ w.outages.findAvatarKey.isSome) :
    answer (w.exec tools) (newAvatar tools u req.avatarKey) st =
      (.ok (avatarOf tools req),
        { st with store := {
          st.store with deletions := st.store.deletions ++ replaced u req st.store } }) := by
  rw [avatarOf, replaced]
  cases hkey : req.avatarKey with
  | none => simp [newAvatar]
  | some key =>
    simp only [hkey, Option.mem_some_iff, exists_eq_left', not_or, Bool.not_eq_true,
      Option.isSome_eq_false_iff, Option.isNone_iff_eq_none, not_not] at h
    obtain ⟨hexists, hobject, hfind⟩ := h
    rw [newAvatar, updateAvatarUrl]
    cases hold : st.store.db.findAvatarKey u with
    | none =>
      simp [answer_bind, answer_ask, Circumstances.exec, hexists, hfind, hobject,
        Store.exec, stampAfter, deleteAvatar, hold]
    | some old =>
      simp [answer_bind, answer_ask, Circumstances.exec, hexists, hfind, hobject,
        Store.exec, stampAfter, deleteAvatar, hold, answer_map, Except.map]

/-- Redis has forgotten the user. -/
def Stamped.dropped (u : Uuid) (st : Stamped) : Stamped :=
  { st with store := {
    st.store with cache := st.store.cache.set (RedisKey.profile u) none } }

theorem update_of_del (hreq : req.isEmpty = false) (hdel : w.outages.del = none) :
    st.update tools w u req =
      answer (w.exec tools)
        (do
          let (newAvatarKey, newAvatarUrl) ← newAvatar tools u req.avatarKey
          let _ ← ask .database (.updateProfile u req.fullName req.bio newAvatarKey newAvatarUrl)
          getMe tools u)
        (st.dropped u) := by
  have hempty : ¬ (req.fullName.isNone && req.bio.isNone && req.avatarKey.isNone) = true :=
    fun hall => Bool.false_ne_true (hreq.symm.trans hall)
  have hanswer : answer (w.exec tools) (ProfileCache.invalidateCachedProfile u) st =
      (.ok (), st.dropped u) := by
    simp [ProfileCache.invalidateCachedProfile, answer_ask, Circumstances.exec, hdel,
      Store.exec, stampAfter, Stamped.dropped]
  rw [Stamped.update, updateMe, if_neg hempty, answer_bind_ok _ hanswer]

theorem update_stops (hreq : req.isEmpty = false)
    (h : StopsEarly tools w.outages req st.store) :
    ∃ e, (st.update tools w u req).1 = .error e ∧ SameBehind st (st.update tools w u req).2 := by
  cases hdel : w.outages.del with
  | some e =>
    have hempty : ¬ (req.fullName.isNone && req.bio.isNone && req.avatarKey.isNone) = true :=
      fun hall => Bool.false_ne_true (hreq.symm.trans hall)
    have hanswer : answer (w.exec tools) (ProfileCache.invalidateCachedProfile u) st =
        (.error (.redis e), st) := by
      simp [ProfileCache.invalidateCachedProfile, answer_ask, Circumstances.exec, hdel]
    rw [Stamped.update, updateMe, if_neg hempty, answer_bind_error _ hanswer]
    exact ⟨_, rfl, rfl, rfl, rfl, rfl⟩
  | none =>
    have hkey := h.resolve_left (by simp [hdel])
    obtain ⟨e, hanswer⟩ := @newAvatar_stops tools w u req (st.dropped u) hkey
    rw [update_of_del hreq hdel, answer_bind_error _ hanswer]
    exact ⟨_, rfl, rfl, rfl, rfl, rfl⟩

/-- The deletion of what the request replaces is spawned. -/
def Stamped.spawned (u : Uuid) (req : UpdateProfileRequest) (st : Stamped) : Stamped :=
  { st with store := {
    st.store with deletions := st.store.deletions ++ replaced u req st.store } }

theorem update_goes_on (hreq : req.isEmpty = false)
    (h : ¬ StopsEarly tools w.outages req st.store) :
    st.update tools w u req =
      answer (w.exec tools)
        (do
          let _ ← ask .database (.updateProfile u req.fullName req.bio req.avatarKey
            (req.avatarKey.map (getAvatarUrl tools)))
          getMe tools u)
        ((st.dropped u).spawned u req) := by
  obtain ⟨hdel, hkey⟩ := not_or.1 h
  have hanswer := @newAvatar_goes_on tools w u req (st.dropped u) hkey
  rw [update_of_del hreq (Option.not_isSome_iff_eq_none.1 hdel), answer_bind_ok _ hanswer]
  rfl

theorem update_refused (hreq : req.isEmpty = false)
    (h : ¬ StopsEarly tools w.outages req st.store)
    (hwrites : ¬ Writes tools w.outages u req st.store) :
    ∃ e, (st.update tools w u req).1 = .error e ∧
      SameBehind (st.spawned u req) (st.update tools w u req).2 := by
  rw [update_goes_on hreq h]
  cases hupdate : w.outages.updateProfile with
  | some e =>
    simp [answer_bind, answer_ask, Circumstances.exec, hupdate]
    exact ⟨rfl, rfl, rfl, rfl⟩
  | none =>
    rw [writes_iff, and_iff_right hupdate] at hwrites
    cases hsend : req.send tools u st.store.db with
    | ok r => exact absurd ⟨r, hsend⟩ hwrites
    | error e =>
      rw [UpdateProfileRequest.send] at hsend
      simp [answer_bind, answer_ask, Circumstances.exec, hupdate, Store.exec,
        Stamped.spawned, Stamped.dropped, hsend, stampAfter]
      exact ⟨rfl, rfl, rfl, rfl⟩

/-- The store and the column after an `UPDATE` that goes through. -/
def Stamped.written (u : Uuid) (stamp : OffsetDateTime) (db : ProfileDb) (st : Stamped) : Stamped where
  store := { st.store with db }
  updatedAt := Function.update st.updatedAt u stamp

theorem update_goes_through (hreq : req.isEmpty = false)
    (h : ¬ StopsEarly tools w.outages req st.store) (hupdate : w.outages.updateProfile = none)
    {r : Profile × ProfileDb} (hsend : req.send tools u st.store.db = .ok r) :
    ((∃ e, (st.update tools w u req).1 = .error e) ↔ ReadFails w.outages) ∧
      SameBehind ((st.spawned u req).written u w.stamp r.2) (st.update tools w u req).2 := by
  have hanswer : answer (w.exec tools) (ask ProfileError.database (.updateProfile u req.fullName req.bio
      req.avatarKey (req.avatarKey.map (getAvatarUrl tools)))) ((st.dropped u).spawned u req) =
      (.ok r.1, (((st.dropped u).spawned u req).written u w.stamp r.2)) := by
    rw [UpdateProfileRequest.send] at hsend
    simp [answer_ask, Circumstances.exec, hupdate, Store.exec, Stamped.spawned,
      Stamped.dropped, Stamped.written, hsend, stampAfter]
  rw [update_goes_on hreq h, answer_bind_ok _ hanswer]
  refine ⟨getMe_error_iff ?_ (findById_of_send hsend), getMe_sameBehind tools w u _⟩
  have hentry : (st.store.cache.set (RedisKey.profile u) none) (RedisKey.profile u) = none := by
    rw [Expiring.set_apply, if_pos rfl]
  simp [Stamped.written, Stamped.spawned, Stamped.dropped, Expiring.find, Expiring.entry, hentry]

end Runs

/-! ## When a failure leaves nothing behind -/

section Failures

variable {tools : Tools} {w : Circumstances} {u : Uuid} {req : UpdateProfileRequest} {st st' : Stamped}

theorem deletionsEnd_nil {objects objects' : List String} :
    DeletionsEnd tools [] objects objects' ↔ objects' = objects := by
  constructor
  · rintro (_ | ⟨h, -⟩ | ⟨h, -⟩)
    · rfl
    · cases h
    · cases h
  · rintro rfl
    exact .done

theorem deletionsEnd_singleton {old : String} {objects objects' : List String} :
    DeletionsEnd tools [old] objects objects' ↔
      objects' = objects ∨ objects' = objects.filter fun o => o ≠ tools.path old := by
  constructor
  · rintro (_ | ⟨h, hrest⟩ | ⟨h, hrest⟩)
    · obtain rfl := List.mem_singleton.1 h
      rw [List.erase_cons_head, deletionsEnd_nil] at hrest
      exact .inr hrest
    · obtain rfl := List.mem_singleton.1 h
      rw [List.erase_cons_head, deletionsEnd_nil] at hrest
      exact .inl hrest
  · have hold : old ∈ [old] := List.mem_singleton_self old
    rintro (rfl | rfl)
    · refine .deleteFails hold ?_
      rw [List.erase_cons_head]
      exact .done
    · refine .delete hold ?_
      rw [List.erase_cons_head]
      exact .done

/-- Whatever becomes of the deletion of the old avatar. -/
theorem avatarStays_iff {s : Store} : AvatarStays tools u req s ↔
    ∀ objects, DeletionsEnd tools (replaced u req s) s.objects objects →
      ∀ key ∈ s.db.findAvatarKey u, (tools.path key ∈ objects ↔ tools.path key ∈ s.objects) := by
  rw [AvatarStays, replaced]
  cases req.avatarKey with
  | none => simp [deletionsEnd_nil]
  | some key =>
    cases s.db.findAvatarKey u with
    | none => simp
    | some old => simp [deletionsEnd_singleton]

theorem unchanged_iff (hobjects : st'.store.objects = st.store.objects)
    (hdeletions : st'.store.deletions = st.store.deletions ++ replaced u req st.store) :
    Unchanged tools u st st' ↔ st'.store.db.users.get u = st.store.db.users.get u ∧
      st'.updatedAt u = st.updatedAt u ∧ AvatarStays tools u req st.store := by
  rw [Unchanged, avatarStays_iff, hobjects, hdeletions]
  simp only [List.append_cancel_left_eq, exists_eq_left']

theorem unchanged_of_sameBehind (h : SameBehind st st') : Unchanged tools u st st' := by
  obtain ⟨hdb, hobjects, hdeletions, hstamps⟩ := h
  refine ⟨by rw [hdb], by rw [hstamps], [], by rw [hdeletions, List.append_nil], ?_⟩
  intro objects hend key hkey
  rw [deletionsEnd_nil.1 hend, hobjects]

theorem unchanged_of_refused (h : SameBehind (st.spawned u req) st') :
    Unchanged tools u st st' ↔ AvatarStays tools u req st.store := by
  obtain ⟨hdb, hobjects, hdeletions, hstamps⟩ := h
  rw [@unchanged_iff tools u req st st' hobjects hdeletions, hdb, hstamps]
  exact (and_iff_right rfl).trans (and_iff_right rfl)

theorem written_eq_self_iff {bio : Option String} {user : User} :
    req.written tools bio user = user ↔
      (∀ name ∈ req.fullName, user.profile.fullName = name) ∧
        (∀ b ∈ bio, user.profile.bio = some b) ∧ ∀ key ∈ req.avatarKey,
          user.profile.avatarId = some key ∧
            user.profile.avatarUrl = some (getAvatarUrl tools key) := by
  obtain ⟨profile, deletedAt⟩ := user
  obtain ⟨id, fullName, bio', email, avatarId, avatarUrl⟩ := profile
  simp only [UpdateProfileRequest.written, User.mk.injEq, Profile.mk.injEq, and_true, true_and]
  have hor : ∀ new old : Option String, new.or old = old ↔ ∀ b ∈ new, old = some b := by
    intro new old
    cases new <;> simp [eq_comm]
  rw [hor, hor, hor]
  cases req.fullName <;> cases req.avatarKey <;> simp [eq_comm]

/-- A row that is written is what it was if it had all this already. -/
theorem unchanged_of_written {r : Profile × ProfileDb}
    (hsend : req.send tools u st.store.db = .ok r)
    (hkeys : ∀ key ∈ req.avatarKey, tools.path key ∈ st.store.objects)
    (h : SameBehind ((st.spawned u req).written u w.stamp r.2) st') :
    Unchanged tools u st st' ↔ NothingNew u req w.stamp st := by
  obtain ⟨hdb, hobjects, hdeletions, hstamps⟩ := h
  obtain ⟨user, huser, bio, hbio, hget, -⟩ := get_of_send hsend
  have hrow : st.store.db.users.get u = some user := (Option.filter_eq_some_iff.1 huser).1
  have hwritten : st'.store.db.users.get u = some (req.written tools bio user) := by
    rw [hdb]
    exact hget
  have hstamp : st'.updatedAt u = w.stamp := by
    rw [hstamps]
    exact Function.update_self ..
  rw [@unchanged_iff tools u req st st' hobjects hdeletions, hwritten, hrow, hstamp,
    Option.some.injEq, written_eq_self_iff]
  constructor
  · rintro ⟨⟨hname, hbios, hkey⟩, hstamp, hstays⟩
    refine ⟨?_, hstamp.symm, user, huser, hname, fun b hb => ?_⟩
    · cases hchosen : req.avatarKey with
      | none => rfl
      | some key =>
        -- What is chosen again is there, and its deletion has been spawned.
        have hold := hstays.resolve_left (by simp [hchosen])
        have hfind : st.store.db.findAvatarKey u = some key := by
          rw [ProfileDb.findAvatarKey, hrow]
          exact (hkey key hchosen).1
        exact absurd (hkeys key hchosen) (hold key hfind)
    · rcases mapM_varchar_eq_ok.1 hbio with ⟨hnone, -⟩ | ⟨b', hb', kept, hkept, hsome⟩
      · rw [hnone] at hb
        cases hb
      · obtain rfl := Option.mem_unique hb hb'
        exact ⟨kept, hkept, hbios kept hsome⟩
  · rintro ⟨hnone, hstamp, user', huser', hname, hbios⟩
    obtain rfl := Option.mem_unique huser huser'
    refine ⟨⟨hname, fun b hb => ?_, ?_⟩, hstamp.symm, .inl hnone⟩
    · rcases mapM_varchar_eq_ok.1 hbio with ⟨-, hnone⟩ | ⟨b', hb', kept, hkept, rfl⟩
      · rw [hnone] at hb
        cases hb
      · obtain ⟨kept', hkept', hsame⟩ := hbios b' hb'
        obtain rfl := Except.ok.inj (hkept.symm.trans hkept')
        obtain rfl := Option.some.inj hb
        exact hsame
    · intro key hkey
      rw [hnone] at hkey
      cases hkey

theorem keys_of_not_stopsEarly {o : Outages} {s : Store} (h : ¬ StopsEarly tools o req s) :
    ∀ key ∈ req.avatarKey, tools.path key ∈ s.objects := by
  intro key hkey
  by_contra hobject
  exact h (.inr ⟨key, hkey, .inr (.inl hobject)⟩)

theorem clean_of_failsClean (h : FailsClean tools w u req st) : Clean tools u req w st := by
  cases hreq : req.isEmpty with
  | true => exact .inl hreq
  | false =>
  by_cases hstops : StopsEarly tools w.outages req st.store
  · exact .inr (.inl hstops)
  by_cases hwrites : Writes tools w.outages u req st.store
  · obtain ⟨hupdate, r, hsend⟩ := writes_iff.1 hwrites
    obtain ⟨herror, hsame⟩ := update_goes_through hreq hstops hupdate hsend
    refine .inr (.inr (.inr ⟨hwrites, or_iff_not_imp_left.2 fun hread => ?_⟩))
    obtain ⟨e, he⟩ := herror.2 (not_not.1 hread)
    exact (unchanged_of_written hsend (keys_of_not_stopsEarly hstops) hsame).1 (h e he)
  · obtain ⟨e, herror, hsame⟩ := update_refused hreq hstops hwrites
    exact .inr (.inr (.inl ⟨hwrites, (unchanged_of_refused hsame).1 (h e herror)⟩))

/-- Of any request, from any state, whatever fails and however the deletion ends. -/
theorem failed_update_clean_iff (tools : Tools) (w : Circumstances) (u : Uuid)
    (req : UpdateProfileRequest) (st : Stamped) :
    FailsClean tools w u req st ↔ Clean tools u req w st := by
  refine ⟨clean_of_failsClean, fun h e he => ?_⟩
  cases hreq : req.isEmpty with
  | true =>
    have hempty : (req.fullName.isNone && req.bio.isNone && req.avatarKey.isNone) = true := hreq
    have hrun : st.update tools w u req = Lib.Act.answer (w.exec tools) (getMe tools u) st := by
      rw [Stamped.update, updateMe, if_pos hempty]
    rw [hrun]
    exact unchanged_of_sameBehind (getMe_sameBehind tools w u st)
  | false =>
  by_cases hstops : StopsEarly tools w.outages req st.store
  · obtain ⟨e', -, hsame⟩ := @update_stops tools w u req st hreq hstops
    exact unchanged_of_sameBehind hsame
  by_cases hwrites : Writes tools w.outages u req st.store
  · obtain ⟨hupdate, r, hsend⟩ := writes_iff.1 hwrites
    obtain ⟨herror, hsame⟩ := update_goes_through hreq hstops hupdate hsend
    have hread : ReadFails w.outages := herror.1 ⟨e, he⟩
    rw [unchanged_of_written hsend (keys_of_not_stopsEarly hstops) hsame]
    rcases h with h | h | ⟨h, -⟩ | ⟨-, h⟩
    · exact absurd (hreq.symm.trans h) Bool.false_ne_true
    · exact absurd h hstops
    · exact absurd hwrites h
    · exact h.resolve_left (not_not.2 hread)
  · obtain ⟨e', -, hsame⟩ := @update_refused tools w u req st hreq hstops hwrites
    rw [unchanged_of_refused hsame]
    rcases h with h | h | ⟨-, h⟩ | ⟨h, -⟩
    · exact absurd (hreq.symm.trans h) Bool.false_ne_true
    · exact absurd h hstops
    · exact h
    · exact absurd h hwrites

/-! ### A bio that is too long for its column -/

def repeated (n : Nat) (c : Char) : String := String.ofList (List.replicate n c)

theorem length_repeated (n : Nat) (c : Char) : (repeated n c).length = n := by
  rw [repeated, String.length_ofList, List.length_replicate]

theorem varchar_repeated {m n : Nat} {c : Char} (h : m < n) (hc : c ≠ ' ') :
    varchar m (repeated n c) = .error .stringDataRightTruncation := by
  have hlong : ¬ n ≤ m := by omega
  have hrest : n - m ≠ 0 := by omega
  rw [varchar, length_repeated, if_neg hlong, repeated, String.toList_ofList, List.drop_replicate,
    List.all_replicate, if_neg hrest]
  simp [hc]

/-- A new avatar, and a bio that passes its check. -/
def longBio : UpdateProfileRequest where
  fullName := none
  bio := some (repeated 300 'b')
  avatarKey := some "b"

/-- Nothing fails by itself. -/
def calm : Circumstances where
  now := 0
  later := 0
  stamp := 1
  outages := {}

/-- Alice, whose avatar is `"a"`, loses it. -/
theorem long_bio_loses_avatar : longBio.validate = [] ∧
    ¬ FailsClean plainTools calm ⟨1⟩ longBio { store := aliceWith "a", updatedAt := fun _ => 0 } := by
  have hshort : ∀ max ∈ some 500, (repeated 300 'b').length ≤ max := by
    rintro _ ⟨⟩
    rw [length_repeated]
    decide
  have hbetween : validateBetween 0 (some 500) "Bio must be under 500 characters" (repeated 300 'b') =
      .ok () := if_pos ⟨Nat.zero_le _, hshort⟩
  constructor
  · rw [UpdateProfileRequest.validate, longBio, Option.elim_none, Option.elim_some, hbetween]
    rfl
  · intro h
    rcases clean_of_failsClean h with h | h | ⟨-, h⟩ | ⟨h, -⟩
    · cases h
    · rcases h with h | ⟨key, hkey, h⟩
      · cases h
      · obtain rfl : "b" = key := Option.some.inj hkey
        rcases h with h | h | h
        · cases h
        · exact h (by decide)
        · cases h
    · rcases h with h | h
      · cases h
      · exact h "a" rfl (by decide)
    · obtain ⟨-, -, -, hbio⟩ := h
      obtain ⟨kept, hkept⟩ := hbio (repeated 300 'b') rfl
      rw [varchar_repeated (by decide) (by decide)] at hkept
      cases hkept

end Failures

end Meno.Profiles
