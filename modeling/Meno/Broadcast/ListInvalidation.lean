import Meno.Broadcast.CachedLists
import Meno.Shared.Redis

/-!
# Meno.Broadcast.ListInvalidation

`invalidate_list_caches` deletes by four patterns, in a task of its own, what is cached under keys
that the service builds elsewhere. `list_pages_never_invalidated` says what it reaches.
-/

namespace Meno

open Lib Redis

/-! ## Keys -/

namespace BroadcastService

def nowLiveKey (query : BroadcastQuery) : String :=
  String.ofList ("bc:now_live:cur=".toList ++ query.pagination.cursorStr ++ ":lim=".toList ++
    Text.showInt query.pagination.pageLimit)

def recentlyLiveKey (query : BroadcastQuery) : String :=
  String.ofList ("bc:recently_live:cur=".toList ++ query.pagination.cursorStr ++
    ":lim=".toList ++ Text.showInt query.pagination.pageLimit)

def liveForYouKey (query : BroadcastQuery) (userId : Uuid) : String :=
  String.ofList ("bc:live_for_you:v=".toList ++ userId.text.toList ++ ":cur=".toList ++
    query.pagination.cursorStr ++ ":lim=".toList ++ Text.showInt query.pagination.pageLimit)

end BroadcastService

/-- A call that answers with a page, of its own or from the cache. -/
inductive ListRequest
  | getBroadcasts (query : BroadcastQuery) (requesterId : Option Uuid)
  | getNowLive (query : BroadcastQuery)
  | getRecentlyLive (query : BroadcastQuery)
  | getLiveForYou (query : BroadcastQuery) (userId : Uuid)
  | getParticipants (broadcastId : Uuid) (query : ParticipantQuery)

/-- The key that the call hands to `coalesce_cache`; none where it asks the database only. -/
def ListRequest.cacheKey (hash : String → BitVec 64) : ListRequest → Option String
  | getBroadcasts query _ => BroadcastListCacheKey.build hash query
  | getNowLive query => some (BroadcastService.nowLiveKey query)
  | getRecentlyLive query => some (BroadcastService.recentlyLiveKey query)
  | getLiveForYou query userId => some (BroadcastService.liveForYouKey query userId)
  | getParticipants broadcastId query => some (ParticipantListCacheKey.all hash broadcastId query)

/-! ## The task -/

/-- What `invalidate_list_caches` deletes, in this order. -/
def listPatterns : List String := ["home:now_live:*", "home:recently_live:*", "bl:*", "pl:*"]

/-- The cached pages, and one spawned task of `invalidate_list_caches`. -/
structure Invalidation (V : Type) where
  cache : Expiring String V Int
  clock : Int
  /-- The patterns that are still to come. -/
  todo : List String
  /-- The pattern that is being deleted. -/
  running : Option (String × Deletion)

inductive Invalidation.Actor
  | task
  | others
deriving DecidableEq

namespace Invalidation

variable {V : Type}

def spawn (cache : Expiring String V Int) (clock : Int) : Invalidation V := {
  cache := cache
  clock := clock
  todo := listPatterns
  running := none }

def Done (w : Invalidation V) : Prop := w.todo = [] ∧ w.running = none

/-- The deletion that runs sees the cache as it is now. -/
def seen (cache : Expiring String V Int) (clock : Int) (r : String × Deletion) :
    String × Deletion :=
  (r.1, r.2.watch (Deletion.Present cache clock))

inductive Step : Actor → Invalidation V → Invalidation V → Prop
  | begin {w : Invalidation V} {pattern : String} {todo : List String}
      (htodo : w.todo = pattern :: todo) (hidle : w.running = none) (rest : Nat) :
      Step .task w
        { w with
          todo := todo
          running := some (pattern, Deletion.start pattern w.cache w.clock rest) }
  | own {w : Invalidation V} {pattern : String} {sw sw' : Deletion} {removed : List String}
      (hrunning : w.running = some (pattern, sw)) (hown : Deletion.Own pattern sw removed sw') :
      Step .task w
        { w with
          cache := w.cache.remove removed
          running := some (seen (w.cache.remove removed) w.clock (pattern, sw')) }
  -- An error is logged, and the next pattern is tried.
  | finish {w : Invalidation V} {pattern : String} {sw : Deletion}
      (hrunning : w.running = some (pattern, sw)) (hover : ¬ sw.Running) :
      Step .task w { w with running := none }
  -- Other requests fill and delete, and what is cached expires.
  | others {w : Invalidation V} (cache : Expiring String V Int) {clock : Int}
      (hclock : w.clock ≤ clock) :
      Step .others w
        { w with
          cache := cache
          clock := clock
          running := w.running.map (seen cache clock) }

/-- Runs of the task among others that leave one key as it is. -/
def Spares (key : String) : Invalidation V → Invalidation V → Prop :=
  Relation.ReflTransGen fun w w' =>
    ∃ actor, Step actor w w' ∧ (actor = .others → w'.cache key = w.cache key)

abbrev Runs : Invalidation V → Invalidation V → Prop :=
  Relation.ReflTransGen fun w w' => ∃ actor, Step actor w w'

/-! ## What the task does -/

variable {w w' : Invalidation V} {actor : Actor}

/-- The task deletes by its patterns only, and each deletion is right so far. -/
structure Inv (w : Invalidation V) : Prop where
  todo : ∀ pattern ∈ w.todo, pattern ∈ listPatterns
  running : ∀ r ∈ w.running, r.1 ∈ listPatterns ∧ Deletion.Inv r.1 r.2

theorem inv_spawn (cache : Expiring String V Int) (clock : Int) : Inv (spawn cache clock) where
  todo := fun _ hp => hp
  running := fun _ hr => by cases hr

theorem inv_step (h : Inv w) (hs : Step actor w w') : Inv w' := by
  cases hs with
  | @begin _ pattern todo htodo hidle rest =>
    have hmem : ∀ p ∈ pattern :: todo, p ∈ listPatterns := htodo ▸ h.todo
    refine ⟨fun p hp => hmem p (List.mem_cons_of_mem _ hp), ?_⟩
    rintro r ⟨⟩
    exact ⟨hmem _ List.mem_cons_self, Sweep.inv_start⟩
  | own hrunning hown =>
    obtain ⟨hpattern, hinv⟩ := h.running _ hrunning
    refine ⟨h.todo, ?_⟩
    rintro r ⟨⟩
    exact ⟨hpattern, Sweep.inv_watch (Sweep.inv_own hinv hown)⟩
  | finish hrunning hover =>
    refine ⟨h.todo, ?_⟩
    rintro r ⟨⟩
  | others cache hclock =>
    refine ⟨h.todo, fun r hr => ?_⟩
    obtain ⟨r₀, hr₀, rfl⟩ := Option.map_eq_some_iff.1 hr
    obtain ⟨hpattern, hinv⟩ := h.running _ hr₀
    exact ⟨hpattern, Sweep.inv_watch hinv⟩

/-- The task leaves what none of its patterns accepts. -/
theorem cache_of_task {key : String} (hkey : ∀ pattern ∈ listPatterns, ¬ Glob.Accepts pattern key)
    (h : Inv w) (hs : Step .task w w') : w'.cache key = w.cache key := by
  cases hs with
  | begin htodo hidle rest => rfl
  | own hrunning hown =>
    obtain ⟨hpattern, hinv⟩ := h.running _ hrunning
    refine Expiring.remove_of_not_mem fun hmem => ?_
    exact hkey _ hpattern (Sweep.hit_of_own hinv hown _ hmem)
  | finish hrunning hover => rfl

theorem cache_of_spares {key : String}
    (hkey : ∀ pattern ∈ listPatterns, ¬ Glob.Accepts pattern key) (hinv : Inv w)
    (h : Spares key w w') : Inv w' ∧ w'.cache key = w.cache key := by
  induction h with
  | refl => exact ⟨hinv, rfl⟩
  | tail _ hs ih =>
    obtain ⟨hinv, hsame⟩ := ih
    obtain ⟨actor, hs, hothers⟩ := hs
    refine ⟨inv_step hinv hs, Eq.trans ?_ hsame⟩
    cases actor with
    | task => exact cache_of_task hkey hinv hs
    | others => exact hothers rfl

/-- Where nothing is cached that a pattern accepts, the task can go through all of them and finds
nothing. -/
theorem exists_done (hidle : w.running = none)
    (hnone : ∀ pattern ∈ w.todo, ∀ key, Deletion.Present w.cache w.clock key →
      ¬ Glob.Accepts pattern key) :
    ∃ w', Runs w w' ∧ w'.Done ∧ w'.cache = w.cache := by
  obtain ⟨cache, clock, todo, running⟩ := w
  obtain rfl : running = none := hidle
  induction todo with
  | nil => exact ⟨_, .refl, ⟨rfl, rfl⟩, rfl⟩
  | cons pattern todo ih =>
    obtain ⟨w', hruns, hdone, hcache⟩ := ih fun p hp => hnone p (List.mem_cons_of_mem _ hp)
    refine ⟨w', ?_, hdone, hcache⟩
    have hbegin : Step .task ⟨cache, clock, pattern :: todo, none⟩
        ⟨cache, clock, todo, some (pattern, Deletion.start pattern cache clock 0)⟩ :=
      .begin rfl rfl 0
    have hpage : Deletion.Own pattern (Deletion.start pattern cache clock 0) []
        ((Deletion.start pattern cache clock 0).paged "0" [] "0") :=
      .page rfl (fun k hk => absurd hk List.not_mem_nil)
        (fun _ k hk => absurd hk.1 (hnone pattern List.mem_cons_self k hk.2))
        (fun hne => absurd rfl hne)
    have hown : Step .task ⟨cache, clock, todo, some (pattern, _)⟩
        ⟨cache.remove [], clock, todo, some (seen (cache.remove []) clock (pattern, _))⟩ :=
      .own rfl hpage
    have hfinish : Step .task ⟨cache.remove [], clock, todo, some (seen (cache.remove []) clock
        (pattern, (Deletion.start pattern cache clock 0).paged "0" [] "0"))⟩
        ⟨cache.remove [], clock, todo, none⟩ :=
      .finish rfl id
    rw [Expiring.remove_nil] at hown hfinish
    exact .head ⟨_, hbegin⟩ (.head ⟨_, hown⟩ (.head ⟨_, hfinish⟩ hruns))

end Invalidation

/-! ## What is out of reach -/

theorem begins_text {cs : List Char} (h : "bc:".toList <+: cs) :
    "bc:".toList <+: (String.ofList cs).toList := by
  rwa [@String.toList_ofList cs]

theorem begins_append {cs : List Char} (h : "bc:".toList <+: cs) (rest : List Char) :
    "bc:".toList <+: cs ++ rest :=
  h.trans (List.prefix_append cs rest)

theorem begins_cacheKey {hash : String → BitVec 64} {request : ListRequest} {key : String}
    (h : request.cacheKey hash = some key) : "bc:".toList <+: key.toList := by
  cases request with
  | getBroadcasts query requesterId =>
    have hstart : "bc:".toList <+: "bc:list:".toList := by decide
    simp only [ListRequest.cacheKey, BroadcastListCacheKey.build] at h
    split at h
    · cases h
    split at h
    · obtain rfl := Option.some.inj h
      decide
    · obtain rfl := Option.some.inj h
      exact begins_text (begins_append hstart _)
  | getNowLive query =>
    have hstart : "bc:".toList <+: "bc:now_live:cur=".toList := by decide
    obtain rfl := Option.some.inj h
    exact begins_text (begins_append (begins_append (begins_append hstart _) _) _)
  | getRecentlyLive query =>
    have hstart : "bc:".toList <+: "bc:recently_live:cur=".toList := by decide
    obtain rfl := Option.some.inj h
    exact begins_text (begins_append (begins_append (begins_append hstart _) _) _)
  | getLiveForYou query userId =>
    have hstart : "bc:".toList <+: "bc:live_for_you:v=".toList := by decide
    obtain rfl := Option.some.inj h
    exact begins_text (begins_append (begins_append (begins_append (begins_append (begins_append
      hstart _) _) _) _) _)
  | getParticipants broadcastId query =>
    have hstart : "bc:".toList <+: "bc:".toList := List.prefix_rfl
    obtain rfl := Option.some.inj h
    exact begins_text (begins_append (begins_append (begins_append (begins_append (begins_append
      hstart _) _) _) _) _)

/-- What a pattern accepts begins with a text that no key of a page begins with. -/
theorem begins_of_listPatterns {pattern key : String} (hpattern : pattern ∈ listPatterns)
    (h : Glob.Accepts pattern key) : ¬ "bc:".toList <+: key.toList := by
  have hstarts : ∃ start : List Char, pattern.toList = start ++ ['*'] ∧
      start.all Glob.plain = true ∧ ¬ start <+: "bc:".toList ∧ ¬ "bc:".toList <+: start := by
    simp only [listPatterns, List.mem_cons, List.not_mem_nil, or_false] at hpattern
    rcases hpattern with rfl | rfl | rfl | rfl
    · exact ⟨"home:now_live:".toList, by decide⟩
    · exact ⟨"home:recently_live:".toList, by decide⟩
    · exact ⟨"bl:".toList, by decide⟩
    · exact ⟨"pl:".toList, by decide⟩
  obtain ⟨start, htext, hplain, hshort, hlong⟩ := hstarts
  have hbegins := (Glob.accepts_iff_begins htext hplain).1 h
  intro hkey
  rcases List.prefix_or_prefix_of_prefix hbegins hkey with hle | hle
  · exact hshort hle
  · exact hlong hle

/-- For every page that is cached, and every run of the task: the page is served after it as before.
The deletions themselves are right, whatever else happens to the store. -/
theorem list_pages_never_invalidated {V : Type} (hash : String → BitVec 64)
    (request : ListRequest) {key : String} (hkey : request.cacheKey hash = some key) :
    (∀ pattern ∈ listPatterns, ¬ Glob.Accepts pattern key) ∧
      (∀ (cache : Expiring String V Int) (clock : Int) (w : Invalidation V),
        Invalidation.Spares key (.spawn cache clock) w → w.Done →
          ∀ now, w.cache.find now key = cache.find now key) ∧
      ∀ (pattern : String) (cache : Expiring String V Int) (clock : Int) (rest n : Nat)
        (sw : Deletion),
        Sweep.Walk "0" (Glob.Accepts pattern) n (Deletion.start pattern cache clock rest) sw →
          n ≤ 2 * rest + 2 ∧ (sw.phase = .ended → ∀ k, ¬ sw.there k) := by
  have hnone : ∀ pattern ∈ listPatterns, ¬ Glob.Accepts pattern key := fun pattern hp h =>
    begins_of_listPatterns hp h (begins_cacheKey hkey)
  refine ⟨hnone, ?_, ?_⟩
  · intro cache clock w h _ now
    exact Expiring.find_congr
      (Invalidation.cache_of_spares hnone (Invalidation.inv_spawn cache clock) h).2 now
  · intro pattern cache clock rest n sw h
    have hsteps := h.steps_le
    refine ⟨Nat.le_trans (Nat.le_add_right _ _) hsteps, fun hended k => ?_⟩
    exact Sweep.not_there_of_ended (h.inv Sweep.inv_start) hended k

/-! ### Runs -/

/-- The first page of what is live. -/
def nowLive : ListRequest := .getNowLive { byStartTime with sortBy := none }

/-- Its page, until ten seconds have passed. -/
def nowLiveCached : Expiring String String Int :=
  Expiring.empty.set "bc:now_live:cur=:lim=20" (some { value := "page", deadline := some 10 })

theorem now_live_out_of_reach :
    (∀ pattern ∈ listPatterns, ¬ Glob.Accepts pattern "bc:now_live:cur=:lim=20") ∧
      (∀ (cache : Expiring String String Int) (clock : Int) (w : Invalidation String),
        Invalidation.Spares "bc:now_live:cur=:lim=20" (.spawn cache clock) w → w.Done →
          ∀ now, w.cache.find now "bc:now_live:cur=:lim=20" =
            cache.find now "bc:now_live:cur=:lim=20") ∧
      ∀ (pattern : String) (cache : Expiring String String Int) (clock : Int) (rest n : Nat)
        (sw : Deletion),
        Sweep.Walk "0" (Glob.Accepts pattern) n (Deletion.start pattern cache clock rest) sw →
          n ≤ 2 * rest + 2 ∧ (sw.phase = .ended → ∀ k, ¬ sw.there k) :=
  list_pages_never_invalidated (fun _ => 0) nowLive (by decide)

/-- The task is done, and the page from before it is served. -/
theorem now_live_survives :
    nowLive.cacheKey (fun _ => 0) = some "bc:now_live:cur=:lim=20" ∧
      ∃ w : Invalidation String, Invalidation.Runs (.spawn nowLiveCached 0) w ∧ w.Done ∧
        w.cache.find 5 "bc:now_live:cur=:lim=20" = some "page" := by
  refine ⟨by decide, ?_⟩
  have hnone : ∀ pattern ∈ listPatterns, ∀ key, Deletion.Present nowLiveCached 0 key →
      ¬ Glob.Accepts pattern key := by
    intro pattern hpattern key hpresent haccepts
    by_cases hkey : key = "bc:now_live:cur=:lim=20"
    · subst hkey
      exact begins_of_listPatterns hpattern haccepts (by decide)
    · simp [Deletion.Present, Expiring.entry, nowLiveCached, Expiring.set, hkey,
        Expiring.empty] at hpresent
  obtain ⟨w, hruns, hdone, hcache⟩ :=
    Invalidation.exists_done (w := .spawn nowLiveCached 0) rfl hnone
  refine ⟨w, hruns, hdone, ?_⟩
  rw [hcache]
  decide

end Meno
