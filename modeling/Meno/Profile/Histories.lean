import Meno.Profile.Cached

/-!
# Meno.Profile.Histories

Histories of requests to the profile module. What a user's key holds is a matter of who asked for
the user first (`Store.opener`): `profile_reads_served_iff` says when every read can use what it
finds, and `viewer_independent_iff` when it shows what the database would.
-/

namespace Meno.Profiles

open Lib

open ProfileService

/-! ## Histories -/

namespace Step

/-- What a step does to the views. -/
def events (tools : Tools) (s : Store) :
    Step → List (CacheAside.Event Uuid Read ProfileDb OffsetDateTime)
  | request r now later => r.events tools s now later
  | elsewhere _ _ => []

end Step

namespace Store

def start (db : ProfileDb) (objects : List String) : Store where
  cache := .empty
  db := db
  objects := objects
  deletions := []

/-- What a history does to the views. -/
def events (tools : Tools) :
    Store → List Step → List (CacheAside.Event Uuid Read ProfileDb OffsetDateTime)
  | _, [] => []
  | s, step :: history => step.events tools s ++ (s.step tools step).events tools history

/-- The read that the user's key holds the view of, when a history from an empty cache is over. -/
def opener (tools : Tools) (s : Store) (history : List Step) (userId : Uuid) :
    Option (CacheAside.Opening Read ProfileDb OffsetDateTime) :=
  views.opener userId (s.events tools history)

end Store

section Histories

variable {tools : Tools} {db : ProfileDb} {objects : List String}

theorem agrees_run {s : Store} {kept : Expiring Uuid View OffsetDateTime} {history : List Step}
    (h : Agrees tools.time s.cache kept) :
    Agrees tools.time (s.run tools history).cache
      ((s.events tools history).foldl views.step kept) := by
  induction history generalizing s kept with
  | nil => exact h
  | cons step history ih =>
    rw [Store.events, List.foldl_append]
    refine ih ?_
    cases step with
    | request r now later => exact (request_spec h r).1
    | elsewhere db objects => exact h

theorem agrees_of_start (history : List Step) :
    Agrees tools.time ((Store.start db objects).run tools history).cache
      (views.run ((Store.start db objects).events tools history)) :=
  agrees_run .empty

theorem isMe_of_view {q : Read} {v : View} (h : q.view db = some v) : v.isMe = q.isMe := by
  cases q with
  | me u =>
    obtain ⟨profile, -, rfl⟩ := Option.map_eq_some_iff.1 h
    rfl
  | profile viewer u =>
    obtain ⟨user, -, rfl⟩ := Option.map_eq_some_iff.1 h
    rfl

/-- What is found was kept for the opener. -/
theorem find_views_iff {history : List Step} {now : OffsetDateTime} {u : Uuid} {v : View} :
    (views.run ((Store.start db objects).events tools history)).find now u = some v ↔
      ∃ o ∈ (Store.start db objects).opener tools history u,
        now ≤ o.deadline ∧ o.request.view o.data = some v := by
  constructor
  · exact CacheAside.find_eq_some
  · rintro ⟨o, ho, halive, hv⟩
    rw [CacheAside.find_of_opener ho halive]
    exact hv

/-- The request answers, and does not fail at what it finds in Redis; a read of a user who is there
succeeds. -/
def Served (tools : Tools) (s : Store) (r : Request) (now later : OffsetDateTime) : Prop :=
  (∀ e, (s.request tools r now later).1 ≠ .error (.redis e)) ∧
    ∀ q, r = .read q → (s.db.findById q.userId).isSome →
      ∃ v, (s.request tools r now later).1 = .ok (.view v)

/-- The preferences that a user had then are not nested too deep for the own profile. -/
def ShallowPreferences (db : ProfileDb) (userId : Uuid) : Prop :=
  ∀ settings ∈ db.settings.get userId,
    settings.notificationPreferences.nestsWithin (recursionLimit - 2) = true

/-- As long as a user's key lives, those who asked first and who ask now ask in the same way, and
whoever asks for the own profile had no preferences that are nested too deep. -/
def SameKind (tools : Tools) (s : Store) (history : List Step) (r : Request)
    (now : OffsetDateTime) : Prop :=
  ∀ q ∈ r.reads, ∀ o ∈ s.opener tools history q.userId, now ≤ o.deadline →
    o.request.isMe = q.isMe ∧ (q.isMe = true → ShallowPreferences o.data q.userId)

/-- What an opening keeps can be used. -/
theorem reads_iff {q q' : Read} {db : ProfileDb} {v : View} (hv : q'.view db = some v)
    (hu : q'.userId = q.userId) :
    q.Reads v ↔ q'.isMe = q.isMe ∧ (q.isMe = true → ShallowPreferences db q.userId) := by
  rw [Read.Reads, isMe_of_view hv]
  refine and_congr_right fun hkind => ?_
  rw [← hkind, ← hu]
  cases q' with
  | me u =>
    obtain ⟨profile, -, rfl⟩ := Option.map_eq_some_iff.1 hv
    have hshallow : (View.me (meResponse profile ((db.settings.get u).getD (.new u))
        (db.findProviders u))).Readable ↔ ShallowPreferences db u := by
      rw [ShallowPreferences]
      cases db.settings.get u with
      | none => exact iff_of_true rfl nofun
      | some settings => exact ⟨fun h _ hs => Option.mem_some_iff.1 hs ▸ h, fun h => h settings rfl⟩
    exact hshallow.trans ⟨fun h _ => h, fun h => h rfl⟩
  | profile viewer u =>
    obtain ⟨user, -, rfl⟩ := Option.map_eq_some_iff.1 hv
    exact iff_of_true trivial nofun

theorem served_iff (history : List Step) (r : Request) (now later : OffsetDateTime) :
    Served tools ((Store.start db objects).run tools history) r now later ↔
      SameKind tools (.start db objects) history r now := by
  have hagrees := @agrees_of_start tools db objects history
  have hspec := (@request_spec tools _ _ now later hagrees r).2
  have hkind : (∀ e, (((Store.start db objects).run tools history).request tools r now later).1 ≠
      .error (.redis e)) ↔ SameKind tools (.start db objects) history r now := by
    rw [hspec]
    refine forall₂_congr fun q hq => ?_
    constructor
    · intro h o ho halive
      obtain ⟨hu, hsome⟩ := CacheAside.opener_opens ho
      obtain ⟨v, hv⟩ := Option.isSome_iff_exists.1 hsome
      exact (reads_iff hv hu).1 (h v (find_views_iff.2 ⟨o, ho, halive, hv⟩))
    · intro h v hv
      obtain ⟨o, ho, halive, hv⟩ := find_views_iff.1 hv
      exact (reads_iff hv (CacheAside.opener_opens ho).1).2 (h o ho halive)
  rw [Served, hkind, and_iff_left_iff_imp]
  rintro h q rfl hsome
  obtain ⟨cache, hanswer, -⟩ := @request_read tools _ _ now later hagrees q
  have hnone := hkind.2 h
  rw [hanswer] at hnone ⊢
  simp only [ne_eq, map_eq_error] at hnone
  obtain ⟨v, hv⟩ := seen_eq_ok hsome hnone
  exact ⟨v, by rw [hv]; rfl⟩

/-- For every history from an empty cache, whatever else changes the tables meanwhile. -/
theorem profile_reads_served_iff (tools : Tools) (db : ProfileDb) (objects : List String)
    (history : List Step) :
    (∀ before r now later after, history = before ++ .request r now later :: after →
        Served tools ((Store.start db objects).run tools before) r now later) ↔
      ∀ before r now later after, history = before ++ .request r now later :: after →
        SameKind tools (.start db objects) before r now := by
  simp only [served_iff]

/-! ### Runs -/

/-- The epoch as RFC 3339 has it, and every other time in nanoseconds. -/
def nanoseconds : Rfc3339 where
  format ts := if ts = 0 then "1970-01-01T00:00:00Z" else String.ofList (Text.showInt ts)
  parse s :=
    if s = "1970-01-01T00:00:00Z" then .ok 0
    else
      match Text.parseInt s.toList with
      | some ts => .ok ts
      | none => .error "not a time"
  parse_format ts _ := by
    by_cases h : ts = 0
    · simp [h]
    · have hne : String.ofList (Text.showInt ts) ≠ "1970-01-01T00:00:00Z" := by
        intro htext
        have hmem : 'T' ∈ Text.showInt ts := by
          rw [← @String.toList_ofList (Text.showInt ts), htext]
          decide
        exact Text.not_mem_showInt (by decide) (by decide) ts hmem
      simp [h, hne, Text.parseInt_showInt]

def plainTools : Tools where
  time := nanoseconds
  folded q := q.trimAscii.toString.toLower
  isF32 cs := (Text.parseInt cs).isSome
  path key := key
  publicUrl := "https://cdn.meno.app"

def userNamed (id : Uuid) (fullName : String) : User where
  profile := {
    id
    fullName
    bio := none
    email := fullName ++ "@meno.app"
    avatarId := none
    avatarUrl := none
    verified := true
    followers := 0
    following := 0
    broadcasts := 0
    createdAt := 0
    created := by decide }
  deletedAt := none

/-- Of three users the second follows the first. -/
def followedDb : ProfileDb where
  users := ((Table.empty.put (userNamed ⟨1⟩ "alice")).put (userNamed ⟨2⟩ "bob")).put
    (userNamed ⟨3⟩ "carol")
  settings := .empty
  identities := []
  subscribers := [(⟨1⟩, ⟨2⟩)]

/-- The second user has looked at the first. -/
def bobLooks : List Step := [.request (.read (.profile ⟨2⟩ ⟨1⟩)) 0 0]

theorem find_bobLooks {now : OffsetDateTime} (h : now ≤ expiry 0) :
    (views.run ((Store.start followedDb []).events plainTools bobLooks)).find now ⟨1⟩ =
      (Read.profile ⟨2⟩ ⟨1⟩).view followedDb :=
  CacheAside.find_of_opener (A := views)
    (o := { request := .profile ⟨2⟩ ⟨1⟩, data := followedDb, deadline := expiry 0 }) rfl h

/-- A second later the first user asks for the own profile. -/
theorem own_profile_refused :
    (followedDb.findById ⟨1⟩).isSome ∧
      (((Store.start followedDb []).run plainTools bobLooks).request plainTools (.read (.me ⟨1⟩))
        Auth.second Auth.second).1 = .error (.redis (.parse (.missingField "email"))) := by
  refine ⟨by decide, ?_⟩
  obtain ⟨cache, hanswer, -⟩ := @request_read plainTools _ _ Auth.second Auth.second
    (@agrees_of_start plainTools followedDb [] bobLooks) (.me ⟨1⟩)
  rw [hanswer, Read.seen, Read.userId, find_bobLooks (by decide)]
  rfl

/-! ### Viewers -/

/-- What everybody is shown of a profile is the same. -/
def Profile.SameShown (p p' : Profile) : Prop :=
  p.fullName = p'.fullName ∧ p.bio = p'.bio ∧ p.avatarUrl = p'.avatarUrl ∧
    p.followers = p'.followers ∧ p.following = p'.following ∧ p.broadcasts = p'.broadcasts ∧
    p.createdAt = p'.createdAt

/-- An opening was made for a viewer to whom the database shows now what it showed then. -/
def ShowsSame (db : ProfileDb) (viewer userId : Uuid)
    (o : CacheAside.Opening Read ProfileDb OffsetDateTime) : Prop :=
  ∃ viewer', o.request = .profile viewer' userId ∧
    o.data.isFollowing userId viewer' = db.isFollowing userId viewer ∧
    ∃ p ∈ o.data.findById userId, ∃ p' ∈ db.findById userId, p.SameShown p'

theorem publicResponse_eq_iff {p p' : Profile} {f f' : Bool} (hid : p.id = p'.id) :
    publicResponse p f = publicResponse p' f' ↔ f = f' ∧ p.SameShown p' := by
  simp only [publicResponse, PublicProfileResponse.mk.injEq, Profile.SameShown, hid, true_and]
  constructor
  · rintro ⟨hname, hbio, havatar, hf, hfollowers, hfollowing, hbroadcasts, hcreated⟩
    exact ⟨hf, hname, hbio, havatar, hfollowers, hfollowing, hbroadcasts, hcreated⟩
  · rintro ⟨hf, hname, hbio, havatar, hfollowers, hfollowing, hbroadcasts, hcreated⟩
    exact ⟨hname, hbio, havatar, hf, hfollowers, hfollowing, hbroadcasts, hcreated⟩

/-- What the view of an opening answers, and what the database would. -/
theorem view_eq_iff {db : ProfileDb} {viewer u : Uuid}
    {o : CacheAside.Opening Read ProfileDb OffsetDateTime} {v : View} (hu : o.request.userId = u)
    (hv : o.request.view o.data = some v)
    {kept : Expiring Uuid View OffsetDateTime} {now : OffsetDateTime}
    (hfind : kept.find now u = some v) :
    (Read.profile viewer u).seen kept now db = (Read.profile viewer u).seen .empty now db ↔
      ShowsSame db viewer u o := by
  obtain ⟨q, data, deadline⟩ := o
  rw [Read.seen, Read.seen, Expiring.find_empty, show kept.find now (Read.profile viewer u).userId =
    some v from hfind]
  cases q with
  | me u' =>
    obtain ⟨profile, -, rfl⟩ := Option.map_eq_some_iff.1 hv
    constructor
    · intro h
      cases hview : (Read.profile viewer u).view db with
      | none => simp [Read.Reads, View.isMe, Read.isMe, hview] at h
      | some v => simp [Read.Reads, View.isMe, Read.isMe, hview] at h
    · rintro ⟨viewer', ⟨⟩, -⟩
  | profile viewer' u' =>
    obtain rfl : u' = u := hu
    obtain ⟨p, hp, rfl⟩ := Option.map_eq_some_iff.1 hv
    cases hp' : db.findById u' with
    | none =>
      constructor
      · intro h
        simp [Read.Reads, View.Readable, View.isMe, Read.isMe, Read.view, hp'] at h
      · rintro ⟨viewer'', -, -, p, -, p', hnone, -⟩
        rw [hp'] at hnone
        cases hnone
    | some p' =>
      have hid : p.id = p'.id := (findById_id hp).trans (findById_id hp').symm
      simp only [Read.Reads, View.isMe, View.Readable, Read.isMe, Read.view, hp', Option.map_some,
        and_true, if_true, Except.ok.injEq, View.profile.injEq, publicResponse_eq_iff hid]
      constructor
      · rintro ⟨hfollowing, hsame⟩
        exact ⟨viewer', rfl, hfollowing, p, hp, p', hp', hsame⟩
      · rintro ⟨viewer'', ⟨⟩, hfollowing, q, hq, q', hq', hsame⟩
        rw [hp, Option.mem_some_iff] at hq
        rw [hp', Option.mem_some_iff] at hq'
        subst hq hq'
        exact ⟨hfollowing, hsame⟩

theorem map_view_inj {x y : Except ProfileError View}
    (h : x.map Response.view = y.map Response.view) : x = y := by
  cases x with
  | error e =>
    cases y with
    | error e' => simpa [Except.map] using h
    | ok v' => cases h
  | ok v =>
    cases y with
    | error e' => cases h
    | ok v' => simpa [Except.map] using h

theorem seen_empty_iff (tools : Tools) (db data : ProfileDb) (objects : List String)
    (history : List Step) (viewer u : Uuid) (now : OffsetDateTime) :
    (Read.profile viewer u).seen (views.run ((Store.start db objects).events tools history)) now
          data = (Read.profile viewer u).seen .empty now data ↔
      ∀ o ∈ (Store.start db objects).opener tools history u, now ≤ o.deadline →
        ShowsSame data viewer u o := by
  cases hfind : (views.run ((Store.start db objects).events tools history)).find now u with
  | none =>
    have hseen : (Read.profile viewer u).seen
        (views.run ((Store.start db objects).events tools history)) now data =
          (Read.profile viewer u).seen .empty now data := by
      rw [Read.seen, Read.seen, Expiring.find_empty, Read.userId, hfind]
    refine iff_of_true hseen fun o ho halive => ?_
    obtain ⟨v, hv⟩ := Option.isSome_iff_exists.1 (CacheAside.opener_opens ho).2
    rw [find_views_iff.2 ⟨o, ho, halive, hv⟩] at hfind
    cases hfind
  | some v =>
    obtain ⟨o, ho, halive, hv⟩ := find_views_iff.1 hfind
    rw [view_eq_iff (CacheAside.opener_opens ho).1 hv hfind]
    constructor
    · intro h o' ho' _
      obtain rfl : o = o' := Option.mem_unique ho ho'
      exact h
    · intro h
      exact h o ho halive

/-- For every history, whoever asks for whatever next, and when. -/
theorem viewer_independent_iff (tools : Tools) (db : ProfileDb) (objects : List String)
    (history : List Step) (viewer userId : Uuid) (now later : OffsetDateTime) :
    let s := (Store.start db objects).run tools history
    let emptied := { s with cache := .empty }
    ((s.request tools (.read (.profile viewer userId)) now later).1 =
        (emptied.request tools (.read (.profile viewer userId)) now later).1 ∧
      ∀ query, (s.request tools (.searchProfiles query viewer) now later).1 =
        (emptied.request tools (.searchProfiles query viewer) now later).1) ↔
      ∀ o ∈ (Store.start db objects).opener tools history userId, now ≤ o.deadline →
        ShowsSame s.db viewer userId o := by
  intro s emptied
  have hagrees : Agrees tools.time s.cache
      (views.run ((Store.start db objects).events tools history)) := agrees_of_start history
  have hemptied : Agrees tools.time emptied.cache .empty := .empty
  have hsearch : ∀ query, (s.request tools (.searchProfiles query viewer) now later).1 =
      (emptied.request tools (.searchProfiles query viewer) now later).1 := by
    intro query
    rw [Store.request, Store.request, Request.act, Lib.Act.answer_map, Lib.Act.answer_map,
      answer_searchProfiles hagrees, answer_searchProfiles hemptied]
  obtain ⟨cache, hanswer, -⟩ :=
    @request_read tools s _ now later hagrees (.profile viewer userId)
  obtain ⟨cache', hanswer', -⟩ :=
    @request_read tools emptied _ now later hemptied (.profile viewer userId)
  rw [hanswer, hanswer', and_iff_left hsearch, ← seen_empty_iff tools db s.db objects history]
  exact ⟨map_view_inj, congrArg (Except.map Response.view)⟩

end Histories

/-- A second later the third user, who follows nobody, looks at the first. -/
theorem follower_shown_to_stranger :
    let s := (Store.start followedDb []).run plainTools bobLooks
    let stranger := Request.read (.profile ⟨3⟩ ⟨1⟩)
    s.db.isFollowing ⟨1⟩ ⟨3⟩ = false ∧
      ∃ r, (s.request plainTools stranger Auth.second Auth.second).1 = .ok (.view (.profile r)) ∧
        r.isFollowing = true ∧
        ({ s with cache := .empty }.request plainTools stranger Auth.second Auth.second).1 ≠
          .ok (.view (.profile r)) := by
  intro s stranger
  refine ⟨by decide, ?_⟩
  obtain ⟨cache, hanswer, -⟩ := @request_read plainTools s _ Auth.second Auth.second
    (@agrees_of_start plainTools followedDb [] bobLooks) (.profile ⟨3⟩ ⟨1⟩)
  obtain ⟨cache', hanswer', -⟩ := @request_read plainTools { s with cache := .empty } .empty
    Auth.second Auth.second .empty (.profile ⟨3⟩ ⟨1⟩)
  have hview : (Read.profile ⟨3⟩ ⟨1⟩).seen .empty Auth.second s.db =
      .ok (.profile (publicResponse (userNamed ⟨1⟩ "alice").profile false)) := rfl
  rw [hanswer, hanswer', hview, Read.seen, Read.userId, find_bobLooks (by decide)]
  refine ⟨publicResponse (userNamed ⟨1⟩ "alice").profile true, rfl, rfl, ?_⟩
  intro h
  have hflag := congrArg PublicProfileResponse.isFollowing
    (View.profile.inj (Response.view.inj (Except.ok.inj h)))
  exact Bool.false_ne_true hflag

end Meno.Profiles
