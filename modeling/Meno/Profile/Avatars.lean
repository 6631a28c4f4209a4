import Meno.Lib.Pool
import Meno.Profile.Histories

/-!
# Meno.Profile.Avatars

Whether the object of every avatar is there. `update_me` sees that the new object exists, has the old
one deleted in the background, and only then writes the new key; other calls do the same meanwhile.
`avatars_exist` is about the runs in which nothing is deleted that somebody has or has just chosen.
-/

namespace Meno.Profiles

open Lib

open ProfileService

/-! ## Progress -/

/-- How far a call of `update_me` is: the key that it has seen to exist and not written yet, and
whether it has had an old one deleted for it. -/
structure Progress where
  chosen : Option String
  replacing : Bool
deriving DecidableEq

namespace Progress

def none : Progress := { chosen := .none, replacing := false }

def after : {β : Type} → ProfileCmd β → β → Progress → Progress
  | _, .objectExists key, .ok true, g => { g with chosen := some key }
  | _, .spawnDelete _, _, g => { g with replacing := true }
  | _, .updateProfile _ _ _ _ _, _, _ => none
  | _, _, _, g => g

end Progress

structure AvatarState (ι : Type) where
  store : Store
  progress : ι → Progress

/-! ## Steps -/

/-- The call is answered with an error. -/
def Fails : {β : Type} → ProfileCmd β → β → Prop
  | _, .get _, r => r.isOk = false
  | _, .set _ _ _, r => r.isOk = false
  | _, .del _, r => r.isOk = false
  | _, .findById _, r => r.isOk = false
  | _, .findProviders _, r => r.isOk = false
  | _, .findByUserId _, r => r.isOk = false
  | _, .findAvatarKey _, r => r.isOk = false
  | _, .updateProfile _ _ _ _ _, r => r.isOk = false
  | _, .isFollowing _ _, r => r.isOk = false
  | _, .searchProfiles _ _, r => r.isOk = false
  | _, .objectExists _, r => r.isOk = false
  | _, .spawnDelete _, _ => False

section

variable {ι : Type} [DecidableEq ι] (tools : Tools) (calls : ι → Uuid × UpdateProfileRequest)

/-- A call is answered, at whatever time, or fails and does nothing. -/
def Answers (i : ι) {β : Type} (c : ProfileCmd β) (st : AvatarState ι) (b : β)
    (st' : AvatarState ι) : Prop :=
  ((∃ now later, Store.exec tools now later c st.store = (b, st'.store)) ∨
      Fails c b ∧ st'.store = st.store) ∧
    st'.progress = Function.update st.progress i ((st.progress i).after c b)

/-- What happens besides: a deletion that was spawned, or its failure, uploads, keys of Redis that
come and go, and changes of the tables that leave the avatars alone or take them away. -/
inductive Background : AvatarState ι → AvatarState ι → Prop
  | delete {st : AvatarState ι} {key : String} (h : key ∈ st.store.deletions) : Background st
      { st with store := {
        st.store with
        objects := st.store.objects.filter fun o => o ≠ tools.path key
        deletions := st.store.deletions.erase key } }
  | deleteFails {st : AvatarState ι} {key : String} (h : key ∈ st.store.deletions) : Background st
      { st with store := { st.store with deletions := st.store.deletions.erase key } }
  | upload {st : AvatarState ι} (path : String) : Background st
      { st with store := { st.store with objects := path :: st.store.objects } }
  | redis {st : AvatarState ι} (cache : Expiring String Value OffsetDateTime) : Background st
      { st with store := { st.store with cache } }
  | elsewhere {st : AvatarState ι} (db : ProfileDb)
      (h : ∀ u, ∀ key ∈ db.findAvatarKey u, st.store.db.findAvatarKey u = some key) : Background st
      { st with store := { st.store with db } }

/-- Nothing is chosen that waits for its deletion. Nothing is deleted that a call has chosen, this
one included, or that somebody else has. A call that has had an old avatar deleted writes the new
one. -/
def Careful (i : ι) : {β : Type} → ProfileCmd β → β → AvatarState ι → Prop
  | _, .objectExists key, .ok true, st =>
    ∀ old ∈ st.store.deletions, tools.path old ≠ tools.path key
  | _, .spawnDelete old, _, st =>
    (∀ j, ∀ key ∈ (st.progress j).chosen, tools.path key ≠ tools.path old) ∧
      ∀ user ∈ st.store.db.users.rows, user.id ≠ (calls i).1 →
        ∀ key ∈ user.profile.avatarId, tools.path key ≠ tools.path old
  | _, .updateProfile _ _ _ _ _, r, st => (st.progress i).replacing = true → r.isOk = true
  | _, _, _, _ => True

def CarefulAnswers (i : ι) {β : Type} (c : ProfileCmd β) (st : AvatarState ι) (b : β)
    (st' : AvatarState ι) : Prop :=
  Answers tools i c st b st' ∧ Careful tools calls i c b st

/-- All calls before they begin. -/
def beginning (s : Store) : Pool (AvatarState ι) ProfileCmd (Except ProfileError MeResponse) ι where
  store := { store := s, progress := fun _ => .none }
  prog i := (updateMe tools (calls i).1 (calls i).2).run

end

/-! ## The outline of a call -/

/-- What a call of `update_me` for `userId` has done before each of its calls. -/
def before (userId : Uuid) : {β : Type} → ProfileCmd β → Progress → Prop
  | _, .spawnDelete _, g => g.chosen.isSome
  | _, .updateProfile id _ _ avatarKey _, g =>
    id = userId ∧ avatarKey = g.chosen ∧ (g.replacing = true → g.chosen.isSome)
  | _, _, _ => True

/-- Calls that are no matter of avatars. -/
def Neutral : {β : Type} → ProfileCmd β → Prop
  | _, .objectExists _ => False
  | _, .spawnDelete _ => False
  | _, .updateProfile _ _ _ _ _ => False
  | _, _ => True

theorem before_of_neutral {u : Uuid} {β : Type} (c : ProfileCmd β) (g : Progress)
    (h : Neutral c) : before u c g := by
  cases c <;> trivial

theorem careful_of_neutral {ι : Type} {tools : Tools} {calls : ι → Uuid × UpdateProfileRequest}
    {i : ι} {β : Type} {b : β} {st : AvatarState ι} (c : ProfileCmd β) (h : Neutral c) :
    Careful tools calls i c b st := by
  cases c <;> trivial

theorem after_of_neutral {β : Type} (c : ProfileCmd β) (b : β) (g : Progress) (h : Neutral c) :
    g.after c b = g := by
  cases c <;> first | rfl | exact h.elim

theorem uses_get {α : Type} (read : Value → Except DeError α) (key : String) :
    Act.Uses Neutral (ProfileCache.get read key) := by
  refine Act.uses_bind (Act.uses_ask trivial) ?_
  rintro (_ | v)
  · exact Act.uses_pure _
  · dsimp only
    cases read v with
    | ok a => exact Act.uses_pure _
    | error e => exact Act.uses_throw _

theorem uses_getMe (tools : Tools) (u : Uuid) : Act.Uses Neutral (getMe tools u) := by
  refine Act.uses_bind (uses_get _ _) ?_
  rintro (_ | cached)
  · refine Act.uses_bind (Act.uses_ask trivial) ?_
    rintro (_ | profile)
    · exact Act.uses_throw _
    · exact Act.uses_bind (Act.uses_ask trivial) fun settings =>
        Act.uses_bind (Act.uses_ask trivial) fun providers =>
          Act.uses_bind (Act.uses_ask trivial) fun _ => Act.uses_pure _
  · exact Act.uses_pure _

section Outline

variable (tools : Tools) (u : Uuid)

/-- What ends a call. -/
def Settled (_ : Except ProfileError MeResponse) (g : Progress) : Prop := g.replacing = false

theorem outline_getMe {g : Progress} (hg : g.replacing = false) :
    Act.Outline (before u) Progress.after (getMe tools u) Settled g :=
  Act.outline_of_neutral (fun c g => before_of_neutral c g) (fun c b g => after_of_neutral c b g)
    (uses_getMe tools u) fun _ => hg

theorem outline_update {g : Progress} (fullName bio : Option String)
    (avatar : Option String × Option String) (hchosen : avatar.1 = g.chosen)
    (hreplacing : g.replacing = true → g.chosen.isSome) :
    Act.Outline (before u) Progress.after
      (do
        let _ ← Act.ask .database (.updateProfile u fullName bio avatar.1 avatar.2)
        getMe tools u) Settled g := by
  refine Act.outline_bind (Act.outline_ask ⟨rfl, hchosen, hreplacing⟩ (fun _ => ?_) fun _ => rfl)
  exact outline_getMe tools u rfl

theorem outline_deleteAvatar {g : Progress} {Q : Except ProfileError Unit → Progress → Prop}
    (hchosen : g.chosen.isSome) (hold : Q (.ok ()) g)
    (hdeleted : Q (.ok ()) { g with replacing := true }) (herror : ∀ e, Q (.error e) g) :
    Act.Outline (before u) Progress.after (deleteAvatar u) Q g := by
  refine Act.outline_bind (Act.outline_ask trivial ?_ fun e => herror _)
  rintro (_ | oldKey)
  · exact hold
  · exact Act.outline_ask hchosen (fun _ => hdeleted) nofun

/-- Whatever a call returns, it has not left a deletion without its update. -/
theorem outline_updateMe (req : UpdateProfileRequest) :
    Act.Outline (before u) Progress.after (updateMe tools u req) Settled .none := by
  rw [updateMe]
  split
  · exact outline_getMe tools u rfl
  · refine Act.outline_bind (Act.outline_ask trivial (fun _ => ?_) fun _ => rfl)
    refine Act.outline_bind ?_
    cases req.avatarKey with
    | none =>
      refine Act.outline_pure ?_
      refine outline_update tools u req.fullName req.bio (none, none) rfl ?_
      intro hreplacing
      cases hreplacing
    | some key =>
      refine Act.outline_bind (Act.outline_ask trivial ?_ fun _ => rfl)
      rintro (_ | _)
      · exact Act.outline_throw rfl
      · refine Act.outline_bind ?_
        refine outline_deleteAvatar u rfl ?_ ?_ fun _ => rfl
        · refine Act.outline_pure ?_
          refine outline_update tools u req.fullName req.bio (some key, _) rfl ?_
          intro hreplacing
          cases hreplacing
        · refine Act.outline_pure ?_
          exact outline_update tools u req.fullName req.bio (some key, _) rfl fun _ => rfl

end Outline

/-! ## The invariant -/

section Invariant

variable {ι : Type} [DecidableEq ι] {tools : Tools} {calls : ι → Uuid × UpdateProfileRequest}
  {st st' : AvatarState ι} {g : ι → Progress} {i : ι}

/-- The key's object is there and is not to be deleted. -/
def Kept (tools : Tools) (s : Store) (key : String) : Prop :=
  tools.path key ∈ s.objects ∧ ∀ old ∈ s.deletions, tools.path old ≠ tools.path key

/-- Avatars are kept, unless they are being replaced; so is what calls have chosen. -/
structure AvatarInv (tools : Tools) (calls : ι → Uuid × UpdateProfileRequest) (st : AvatarState ι)
    (g : ι → Progress) : Prop where
  progress : st.progress = g
  avatars : ∀ u, ∀ key ∈ st.store.db.findAvatarKey u,
    Kept tools st.store key ∨ ∃ i, (calls i).1 = u ∧ (g i).replacing = true
  chosen : ∀ i, ∀ key ∈ (g i).chosen, Kept tools st.store key

omit [DecidableEq ι] in
/-- Objects and deletions that keep what was kept, and avatars that were there before. -/
theorem AvatarInv.mono (h : AvatarInv tools calls st g) (hprogress : st'.progress = st.progress)
    (havatars : ∀ u, ∀ key ∈ st'.store.db.findAvatarKey u, st.store.db.findAvatarKey u = some key)
    (hkept : ∀ key, Kept tools st.store key → Kept tools st'.store key) :
    AvatarInv tools calls st' g where
  progress := hprogress.trans h.progress
  avatars u key hkey := (h.avatars u key (havatars u key hkey)).imp_left (hkept key)
  chosen i key hkey := hkept key (h.chosen i key hkey)

omit [DecidableEq ι] in
theorem AvatarInv.background (h : AvatarInv tools calls st g) (hs : Background tools st st') :
    AvatarInv tools calls st' g := by
  cases hs with
  | @delete old hold =>
    refine h.mono rfl (fun u key hkey => hkey) fun key hkey => ⟨?_, fun d hd => ?_⟩
    · have hne : tools.path key ≠ tools.path old := (hkey.2 old hold).symm
      exact List.mem_filter.2 ⟨hkey.1, by simpa using hne⟩
    · exact hkey.2 d (List.mem_of_mem_erase hd)
  | deleteFails hold =>
    exact h.mono rfl (fun u key hkey => hkey) fun key hkey =>
      ⟨hkey.1, fun d hd => hkey.2 d (List.mem_of_mem_erase hd)⟩
  | upload path =>
    exact h.mono rfl (fun u key hkey => hkey) fun key hkey =>
      ⟨List.mem_cons_of_mem _ hkey.1, hkey.2⟩
  | redis cache => exact h.mono rfl (fun u key hkey => hkey) fun key hkey => hkey
  | elsewhere db hdb => exact h.mono rfl hdb fun key hkey => hkey

/-- A call of `i` that leaves objects, deletions and avatars, and makes no more than a kept choice. -/
theorem AvatarInv.called {progress : Progress} (h : AvatarInv tools calls st g)
    (hstore : st'.store.db = st.store.db ∧ st'.store.objects = st.store.objects ∧
      st'.store.deletions = st.store.deletions)
    (hprogress : st'.progress = Function.update st.progress i progress)
    (hreplacing : progress.replacing = (g i).replacing)
    (hchosen : ∀ key ∈ progress.chosen, Kept tools st.store key) :
    AvatarInv tools calls st' (Function.update g i progress) := by
  obtain ⟨hdb, hobjects, hdeletions⟩ := hstore
  have hkept : ∀ key, Kept tools st.store key → Kept tools st'.store key := by
    intro key hkey
    rw [Kept, hobjects, hdeletions]
    exact hkey
  refine ⟨by rw [hprogress, h.progress], fun u key hkey => ?_, fun j key hkey => ?_⟩
  · rw [hdb] at hkey
    refine (h.avatars u key hkey).imp (hkept key) ?_
    rintro ⟨j, hj, hreplaces⟩
    refine ⟨j, hj, ?_⟩
    by_cases hij : j = i
    · rw [hij, Function.update_self, hreplacing, ← hij]
      exact hreplaces
    · rw [Function.update_of_ne hij]
      exact hreplaces
  · refine hkept key ?_
    by_cases hij : j = i
    · rw [hij, Function.update_self] at hkey
      exact hchosen key hkey
    · rw [Function.update_of_ne hij] at hkey
      exact h.chosen j key hkey

theorem exec_neutral {now later : OffsetDateTime} {β : Type} {c : ProfileCmd β} {s s' : Store}
    {b : β} (hc : Neutral c) (h : Store.exec tools now later c s = (b, s')) :
    s'.db = s.db ∧ s'.objects = s.objects ∧ s'.deletions = s.deletions := by
  obtain rfl : (Store.exec tools now later c s).2 = s' := congrArg Prod.snd h
  cases c with
  | updateProfile => exact hc.elim
  | objectExists => exact hc.elim
  | spawnDelete => exact hc.elim
  | _ => exact ⟨rfl, rfl, rfl⟩

theorem AvatarInv.neutral {β : Type} {c : ProfileCmd β} {b : β} (h : AvatarInv tools calls st g)
    (hc : Neutral c) (hs : Answers tools i c st b st') :
    AvatarInv tools calls st' (Function.update g i ((g i).after c b)) := by
  have hstore : st'.store.db = st.store.db ∧ st'.store.objects = st.store.objects ∧
      st'.store.deletions = st.store.deletions := by
    rcases hs.1 with ⟨now, later, hexec⟩ | ⟨-, hsame⟩
    · exact exec_neutral hc hexec
    · rw [hsame]
      exact ⟨rfl, rfl, rfl⟩
  rw [after_of_neutral c b (g i) hc]
  refine h.called hstore ?_ rfl (h.chosen i)
  rw [hs.2, after_of_neutral c b _ hc, h.progress]

theorem AvatarInv.objectExists {key : String} {b : Except String Bool}
    (h : AvatarInv tools calls st g) (hs : CarefulAnswers tools calls i (.objectExists key) st b st') :
    AvatarInv tools calls st'
      (Function.update g i ((g i).after (.objectExists key) b)) := by
  obtain ⟨⟨hanswer, hprogress⟩, hcareful⟩ := hs
  rw [h.progress] at hprogress
  have hstore : st'.store = st.store := by
    rcases hanswer with ⟨now, later, hexec⟩ | ⟨-, hsame⟩
    · exact (congrArg Prod.snd hexec).symm
    · exact hsame
  have hsame : st'.store.db = st.store.db ∧ st'.store.objects = st.store.objects ∧
      st'.store.deletions = st.store.deletions := by
    rw [hstore]
    exact ⟨rfl, rfl, rfl⟩
  rcases b with e | (_ | _)
  · exact h.called hsame (by rw [h.progress]; exact hprogress) rfl (h.chosen i)
  · exact h.called hsame (by rw [h.progress]; exact hprogress) rfl (h.chosen i)
  · refine h.called hsame (by rw [h.progress]; exact hprogress) rfl ?_
    rintro _ ⟨⟩
    refine ⟨?_, hcareful⟩
    rcases hanswer with ⟨now, later, hexec⟩ | ⟨hfails, -⟩
    · have hcontains := Except.ok.inj (congrArg Prod.fst hexec)
      simpa using hcontains
    · cases hfails

theorem AvatarInv.spawnDelete {old : String} {b : Except Empty Unit}
    (h : AvatarInv tools calls st g) (hs : CarefulAnswers tools calls i (.spawnDelete old) st b st') :
    AvatarInv tools calls st' (Function.update g i ((g i).after (.spawnDelete old) b)) := by
  obtain ⟨⟨hanswer, hprogress⟩, hcareful⟩ := hs
  rw [h.progress] at hprogress
  have hchosen : ∀ j, ∀ key ∈ (g j).chosen, tools.path key ≠ tools.path old := by
    rw [← h.progress]
    exact hcareful.1
  have hstore : st'.store = { st.store with deletions := st.store.deletions ++ [old] } := by
    rcases hanswer with ⟨now, later, hexec⟩ | ⟨hfails, -⟩
    · exact (congrArg Prod.snd hexec).symm
    · exact hfails.elim
  have hkept : ∀ key, tools.path key ≠ tools.path old → Kept tools st.store key →
      Kept tools st'.store key := by
    intro key hne hkey
    rw [hstore]
    refine ⟨hkey.1, fun d hd => ?_⟩
    rcases List.mem_append.1 hd with hd | hd
    · exact hkey.2 d hd
    · rw [List.mem_singleton.1 hd]
      exact hne.symm
  have hreplaces : ∀ j, (g j).replacing = true →
      (Function.update g i ((g i).after (.spawnDelete old) b) j).replacing = true := by
    intro j hj
    by_cases hij : j = i
    · subst hij
      rw [Function.update_self]
      rfl
    · rwa [Function.update_of_ne hij]
  refine ⟨hprogress, fun u key hkey => ?_, fun j key hkey => ?_⟩
  · rw [hstore] at hkey
    by_cases hu : u = (calls i).1
    · refine .inr ⟨i, hu.symm, ?_⟩
      rw [Function.update_self]
      rfl
    · rcases h.avatars u key hkey with hkey' | ⟨j, hj, hreplacing⟩
      · obtain ⟨user, huser, hkey⟩ := Option.bind_eq_some_iff.1 hkey
        obtain ⟨hrow, hid⟩ := Table.get_eq_some_iff.1 huser
        exact .inl (hkept key (hcareful.2 user hrow (hid ▸ hu) key hkey) hkey')
      · exact .inr ⟨j, hj, hreplaces j hreplacing⟩
  · have hkey : key ∈ (g j).chosen := by
      by_cases hij : j = i
      · subst hij
        rw [Function.update_self] at hkey
        exact hkey
      · rwa [Function.update_of_ne hij] at hkey
    exact hkept key (hchosen j key hkey) (h.chosen j key hkey)

/-- An update that goes through writes the avatar's key if there is a new one. -/
theorem findAvatarKey_updateProfile {db db' : ProfileDb} {id u : Uuid} {profile : Profile}
    {fullName bio avatarKey avatarUrl : Option String}
    (h : db.updateProfile id fullName bio avatarKey avatarUrl = .ok (profile, db')) :
    db'.findAvatarKey u =
      if u = id then avatarKey.or (db.findAvatarKey u) else db.findAvatarKey u := by
  simp only [ProfileDb.updateProfile, bind_eq_ok] at h
  obtain ⟨-, -, -, -, -, -, -, -, h⟩ := h
  cases hlive : db.live id with
  | none =>
    rw [hlive] at h
    cases h
  | some user =>
    rw [hlive] at h
    obtain ⟨bio', -, h⟩ := bind_eq_ok.1 h
    cases h
    have hget : db.users.get id = some user := (Option.filter_eq_some_iff.1 hlive).1
    have hid : user.id = id := Table.key_of_get hget
    have hput : ∀ r : User, r.id = id → r.profile.avatarId = avatarKey.or user.profile.avatarId →
        ((db.users.put r).get u).bind (fun user => user.profile.avatarId) =
          if u = id then avatarKey.or (db.findAvatarKey u) else db.findAvatarKey u := by
      rintro r rfl hkey
      rw [Table.get_put]
      by_cases hu : u = r.id
      · rw [if_pos hu, if_pos hu, ProfileDb.findAvatarKey, hu, hget]
        exact hkey
      · rw [if_neg hu, if_neg hu]
        rfl
    exact hput ⟨_, _⟩ hid rfl

omit [DecidableEq ι] in
/-- Where an update leaves the avatars, when it is answered with `b`. -/
theorem updateProfile_cases {id : Uuid} {fullName bio avatarKey avatarUrl : Option String}
    {b : Except DbError Profile} {s s' : Store}
    (h : (∃ now later, Store.exec tools now later
      (.updateProfile id fullName bio avatarKey avatarUrl) s = (b, s')) ∨
        b.isOk = false ∧ s' = s) :
    (s'.objects = s.objects ∧ s'.deletions = s.deletions) ∧
      ((b.isOk = false ∧ s'.db = s.db) ∨
        ∀ u, s'.db.findAvatarKey u =
          if u = id then avatarKey.or (s.db.findAvatarKey u) else s.db.findAvatarKey u) := by
  rcases h with ⟨now, later, hexec⟩ | ⟨hfails, rfl⟩
  · rw [Store.exec] at hexec
    cases hdb : s.db.updateProfile id fullName bio avatarKey avatarUrl with
    | error e =>
      rw [hdb] at hexec
      cases hexec
      exact ⟨⟨rfl, rfl⟩, .inl ⟨rfl, rfl⟩⟩
    | ok r =>
      rw [hdb] at hexec
      cases hexec
      exact ⟨⟨rfl, rfl⟩, .inr fun u => findAvatarKey_updateProfile hdb⟩
  · exact ⟨⟨rfl, rfl⟩, .inl ⟨hfails, rfl⟩⟩

theorem AvatarInv.updateProfile {id : Uuid} {fullName bio avatarKey avatarUrl : Option String}
    {b : Except DbError Profile} (h : AvatarInv tools calls st g)
    (hbefore : before (calls i).1 (.updateProfile id fullName bio avatarKey avatarUrl) (g i))
    (hs : CarefulAnswers tools calls i (.updateProfile id fullName bio avatarKey avatarUrl) st b
      st') :
    AvatarInv tools calls st' (Function.update g i .none) := by
  obtain ⟨⟨hanswer, hprogress⟩, hcareful⟩ := hs
  rw [h.progress] at hprogress
  have hcareful : (g i).replacing = true → b.isOk = true := by
    rw [← h.progress]
    exact hcareful
  obtain ⟨hid, hkey, hreplaces⟩ := hbefore
  obtain ⟨⟨hobjects, hdeletions⟩, hdb⟩ := updateProfile_cases hanswer
  have hkept : ∀ key, Kept tools st.store key → Kept tools st'.store key := by
    intro key hkey
    rw [Kept, hobjects, hdeletions]
    exact hkey
  -- What is replaced goes on being replaced, but by `i`.
  have hothers : ∀ u, (u = (calls i).1 → (g i).replacing = false) →
      (∃ j, (calls j).1 = u ∧ (g j).replacing = true) →
        ∃ j, (calls j).1 = u ∧ (Function.update g i Progress.none j).replacing = true := by
    rintro u hno ⟨j, rfl, hreplacing⟩
    have hij : j ≠ i := by
      rintro rfl
      rw [hno rfl] at hreplacing
      cases hreplacing
    exact ⟨j, rfl, by rwa [Function.update_of_ne hij]⟩
  refine ⟨hprogress, fun u key hu => ?_, fun j key hj => ?_⟩
  · rcases hdb with ⟨hfails, hdb⟩ | hdb
    · rw [hdb] at hu
      refine (h.avatars u key hu).imp (hkept key) (hothers u fun _ => ?_)
      cases hreplacing : (g i).replacing with
      | false => rfl
      | true => rw [hcareful hreplacing] at hfails; cases hfails
    · rw [hdb, hid, hkey] at hu
      by_cases huser : u = (calls i).1
      · rw [if_pos huser] at hu
        cases hchosen : (g i).chosen with
        | some chosen =>
          rw [hchosen] at hu
          obtain rfl : chosen = key := Option.some.inj hu
          exact .inl (hkept chosen (h.chosen i chosen hchosen))
        | none =>
          rw [hchosen] at hu
          refine (h.avatars u key hu).imp (hkept key) (hothers u fun _ => ?_)
          cases hreplacing : (g i).replacing with
          | false => rfl
          | true =>
            have hsome := hreplaces hreplacing
            rw [hchosen] at hsome
            cases hsome
      · rw [if_neg huser] at hu
        exact (h.avatars u key hu).imp (hkept key) (hothers u fun h => absurd h huser)
  · by_cases hij : j = i
    · rw [hij, Function.update_self] at hj
      cases hj
    · rw [Function.update_of_ne hij] at hj
      exact hkept key (h.chosen j key hj)

/-- Every call that keeps to its outline and is careful keeps the invariant. -/
theorem AvatarInv.call {β : Type} {c : ProfileCmd β} {b : β} (h : AvatarInv tools calls st g)
    (hbefore : before (calls i).1 c (g i)) (hs : CarefulAnswers tools calls i c st b st') :
    AvatarInv tools calls st' (Function.update g i ((g i).after c b)) := by
  cases c with
  | objectExists => exact h.objectExists hs
  | spawnDelete => exact h.spawnDelete hs
  | updateProfile => exact h.updateProfile hbefore hs
  | _ => exact h.neutral trivial hs.1

end Invariant

/-! ## Runs -/

section Runs

variable {ι : Type} [DecidableEq ι]

/-- Of any number of calls, whoever makes them, with whatever keys: when every call is careful, and
none that has had an avatar deleted is under way still, the objects of all avatars are there. -/
theorem avatars_exist (tools : Tools) (calls : ι → Uuid × UpdateProfileRequest) (s : Store)
    (hstart : ∀ u, ∀ key ∈ s.db.findAvatarKey u, tools.path key ∈ s.objects)
    (hdeletions : s.deletions = [])
    (p : Pool (AvatarState ι) ProfileCmd (Except ProfileError MeResponse) ι)
    (hrun : Pool.Steps (CarefulAnswers tools calls) (Background tools) (beginning tools calls s) p)
    (hreturned : ∀ i, (p.store.progress i).replacing = true → ∃ r, p.prog i = .ret r) :
    ∀ u, ∀ key ∈ p.store.store.db.findAvatarKey u, tools.path key ∈ p.store.store.objects := by
  have hbegin : (beginning tools calls s).Outlined (fun i => before (calls i).1)
      (fun _ => Progress.after) (fun _ => Settled) (AvatarInv tools calls) := by
    refine ⟨fun _ => .none, ⟨rfl, fun u key hkey => .inl ⟨hstart u key hkey, ?_⟩, nofun⟩, ?_⟩
    · intro old (hold : old ∈ s.deletions)
      rw [hdeletions] at hold
      cases hold
    · exact fun i => outline_updateMe tools (calls i).1 (calls i).2
  have hend : p.Outlined (fun i => before (calls i).1) (fun _ => Progress.after)
      (fun _ => Settled) (AvatarInv tools calls) :=
    Pool.outlined_of_steps (fun _ _ _ _ _ _ _ hbefore hs h => h.call hbefore hs)
      (fun _ _ _ hs h => h.background hs) hrun hbegin
  obtain ⟨g, hinv, hsettled⟩ := hend.returned
  intro u key hkey
  rcases hinv.avatars u key hkey with hkept | ⟨i, -, hreplacing⟩
  · exact hkept.1
  · rw [← hinv.progress] at hreplacing hsettled
    obtain ⟨r, hr⟩ := hreturned i hreplacing
    have hno : (p.store.progress i).replacing = false := hsettled i r hr
    rw [hno] at hreplacing
    cases hreplacing

/-! ### Alice's avatar -/

def aliceWith (avatar : String) : Store :=
  let alice := userNamed ⟨1⟩ "alice"
  let profile := { alice.profile with avatarId := some avatar }
  .start { followedDb with users := .put .empty { alice with profile } } ["a", "b"]

def aliceChooses (key : String) : Unit → Uuid × UpdateProfileRequest := fun _ =>
  (⟨1⟩, { fullName := none, bio := none, avatarKey := some key })

/-- One call that is answered at once. -/
def answerAlone {β : Type} (c : ProfileCmd β) (st : AvatarState Unit) : β × AvatarState Unit :=
  let (b, store) := Store.exec plainTools 0 0 c st.store
  (b, { store, progress := Function.update st.progress () ((st.progress ()).after c b) })

/-- Where a call leaves Alice, whose avatar is `"a"`, and what it returns. -/
def aliceChose (key : String) : Except ProfileError MeResponse × AvatarState Unit :=
  (updateMe plainTools ⟨1⟩ (aliceChooses key ()).2).run.run answerAlone {
    store := aliceWith "a"
    progress := fun _ => .none }

/-- Afterwards. -/
def aliceDone (key : String) :
    Pool (AvatarState Unit) ProfileCmd (Except ProfileError MeResponse) Unit where
  store := (aliceChose key).2
  prog _ := .ret (aliceChose key).1

theorem answers_alone {β : Type} (c : ProfileCmd β) (st : AvatarState Unit) :
    Answers plainTools () c st (answerAlone c st).1 (answerAlone c st).2 :=
  ⟨.inl ⟨0, 0, rfl⟩, rfl⟩

theorem steps_aliceDone {key : String}
    {exec : Unit → {β : Type} → ProfileCmd β → AvatarState Unit → β → AvatarState Unit → Prop}
    {ok : {β : Type} → ProfileCmd β → AvatarState Unit → Prop}
    (hexec : ∀ {β : Type} (c : ProfileCmd β) (st : AvatarState Unit), ok c st →
      exec () c st (answerAlone c st).1 (answerAlone c st).2)
    (hok : Pool.Alone answerAlone ok (updateMe plainTools ⟨1⟩ (aliceChooses key ()).2).run
      { store := aliceWith "a", progress := fun _ => .none }) :
    Pool.Steps exec (Background plainTools)
      (beginning plainTools (aliceChooses key) (aliceWith "a")) (aliceDone key) := by
  have hrun := @Pool.steps_alone _ _ _ _ _ exec (Background plainTools) () answerAlone ok hexec _
    (fun _ => (updateMe plainTools ⟨1⟩ (aliceChooses key ()).2).run) _ rfl hok
  have hprog : Function.update (fun _ : Unit => (updateMe plainTools ⟨1⟩ (aliceChooses key ()).2).run)
      () (.ret (aliceChose key).1) = fun _ => .ret (aliceChose key).1 :=
    funext fun _ => Function.update_self ..
  rw [aliceDone, ← hprog]
  exact hrun

theorem findAvatarKey_aliceWith {u : Uuid} {avatar key : String}
    (h : key ∈ (aliceWith avatar).db.findAvatarKey u) : key = avatar := by
  obtain ⟨user, huser, hkey⟩ := Option.bind_eq_some_iff.1 h
  obtain ⟨hrow, -⟩ := Table.get_eq_some_iff.1 huser
  rcases Table.mem_put_rows.1 hrow with rfl | ⟨hrow, -⟩
  · exact (Option.some.inj hkey).symm
  · cases hrow

/-- Alice has chosen `"b"`. -/
theorem alice_has_new_avatar :
    (aliceDone "b").store.store.db.findAvatarKey ⟨1⟩ = some "b" ∧
      plainTools.path "b" ∈ (aliceDone "b").store.store.objects := by
  have hother : ∀ old, old ∈ some "b" → plainTools.path old ≠ plainTools.path "a" := by
    rintro _ ⟨⟩
    decide
  have halone : Pool.Alone answerAlone
      (fun c st => Careful plainTools (aliceChooses "b") () c (answerAlone c st).1 st)
      (updateMe plainTools ⟨1⟩ (aliceChooses "b" ()).2).run
      { store := aliceWith "a", progress := fun _ => .none } := by
    refine .intro trivial (.intro nofun (.intro trivial (.intro ⟨fun _ => hother, ?_⟩ ?_)))
    · rintro user (hrow : user ∈ (aliceWith "a").db.users.rows) hid
      rcases Table.mem_put_rows.1 hrow with rfl | ⟨hrow, -⟩
      · exact absurd rfl hid
      · cases hrow
    · refine .intro (fun _ => rfl) ?_
      exact Pool.alone_of_uses (fun c _ hc => careful_of_neutral c hc) (uses_getMe plainTools ⟨1⟩) _
  have hchosen : (aliceDone "b").store.store.db.findAvatarKey ⟨1⟩ = some "b" := rfl
  refine ⟨hchosen, ?_⟩
  refine avatars_exist plainTools (aliceChooses "b") (aliceWith "a") ?_ rfl (aliceDone "b")
    (steps_aliceDone (fun c st hok => ⟨answers_alone c st, hok⟩) halone) (fun _ _ => ⟨_, rfl⟩) ⟨1⟩
    "b" hchosen
  intro u key hkey
  rw [findAvatarKey_aliceWith hkey]
  decide

/-- Her own avatar chosen again: it is written after its deletion was spawned. -/
theorem alice_loses_avatar : ∃ p,
    Pool.Steps (Answers plainTools) (Background plainTools)
      (beginning plainTools (aliceChooses "a") (aliceWith "a")) p ∧
    (∀ u, ∀ key ∈ (aliceWith "a").db.findAvatarKey u, key ∈ (aliceWith "a").objects) ∧
    (∃ me, p.prog () = .ret (.ok me)) ∧ p.store.store.deletions = [] ∧
      p.store.store.db.findAvatarKey ⟨1⟩ = some "a" ∧ "a" ∉ p.store.store.objects := by
  have hrun := @steps_aliceDone "a" _ (fun _ _ => True) (fun c st _ => answers_alone c st)
    (Pool.alone_of_forall (fun _ _ => trivial) _ _)
  refine ⟨_, hrun.tail (.env (@Background.delete _ plainTools _ "a" ?_)), ?_, ⟨_, rfl⟩, rfl, rfl, ?_⟩
  · exact .head _
  · intro u key hkey
    rw [findAvatarKey_aliceWith hkey]
    decide
  · decide

end Runs

end Meno.Profiles
