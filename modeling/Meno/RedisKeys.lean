import Meno.Profile.Service

/-!
# Meno.RedisKeys

The keys of Redis: `RedisKey` puts them together from ids, numbers and texts, with colons between
them. A text may have colons of its own, so what tells two keys apart are their segments
(`segments_key`): the first one is the kind of the key, except for the results of a search, which
begin with what the user has typed.

Two different keys have the same text just if they clash (`key_inj_iff`).
-/

namespace Meno

open Lib

/-- A UUID has hyphens that are no sign. -/
theorem Uuid.text_ne_showInt (id : Uuid) (n : Int) : id.text.toList ≠ Text.showInt n := by
  intro h
  have hhyphen : '-' ∈ id.text.toList.tail := by
    have hlength : ((hexDigits 32 id.bits.toNat).map hexChar).length = 32 := by
      simp [length_hexDigits]
    rw [text, String.toList_ofList]
    cases hdigits : (hexDigits 32 id.bits.toNat).map hexChar with
    | nil =>
      rw [hdigits] at hlength
      cases hlength
    | cons c cs => simp [hyphenated]
  rw [h] at hhyphen
  exact absurd (Text.isDigit_of_mem_tail_showInt hhyphen) (by decide)

namespace RedisKeys

/-! ## Keys -/

/-- What is kept for a broadcast. -/
inductive BroadcastSlot where
  | live
  | grace
  | graceStart
  | discCount
  | start
deriving DecidableEq, Repr

def BroadcastSlot.text : BroadcastSlot → String
  | .live => "live"
  | .grace => "grace"
  | .graceStart => "grace_start"
  | .discCount => "disc_count"
  | .start => "start"

theorem BroadcastSlot.text_inj {s s' : BroadcastSlot} (h : s.text.toList = s'.text.toList) :
    s = s' := by
  revert h
  cases s <;> cases s' <;> decide

/-- What is kept for a user. -/
inductive UserSlot where
  | online
  | wsBuf
  | profile
  | providers
  | session
  | unread
deriving DecidableEq, Repr

def UserSlot.text : UserSlot → String
  | .online => "online"
  | .wsBuf => "ws_buf"
  | .profile => "profile"
  | .providers => "providers"
  | .session => "session"
  | .unread => "unread"

theorem UserSlot.text_inj {s s' : UserSlot} (h : s.text.toList = s'.text.toList) : s = s' := by
  revert h
  cases s <;> cases s' <;> decide

inductive RedisKey where
  | ofBroadcast (slot : BroadcastSlot) (broadcastId : Uuid)
  | recordingReady (broadcastId : Uuid)
  | broadcast (broadcastId : Uuid)
  | ofUser (slot : UserSlot) (userId : Uuid)
  | quota (userId : Uuid) (date : String)
  | reconnectRate (userId : Uuid)
  | rateLimit (pre identifier : String)
  | oauth2State (state : String)
  | otp (email otpType : String)
  | searchResults (query : String) (page limit : Int64)
  | blockList (pre : String) (id : Uuid)
  | lock (cacheKey : String)
  | idempotency (key : Uuid)
  | cursorCache (module : String) (ownerId : Uuid) (cursor : String) (limit : Int64)
deriving DecidableEq

/-- An `i64` in a key. -/
def number (n : Int64) : String := String.ofList (Text.showInt n.toInt)

namespace RedisKey

abbrev liveCount (broadcastId : Uuid) : RedisKey := .ofBroadcast .live broadcastId
abbrev hostGrace (broadcastId : Uuid) : RedisKey := .ofBroadcast .grace broadcastId
abbrev graceStarted (broadcastId : Uuid) : RedisKey := .ofBroadcast .graceStart broadcastId
abbrev disconnectCount (broadcastId : Uuid) : RedisKey := .ofBroadcast .discCount broadcastId
abbrev startedAt (broadcastId : Uuid) : RedisKey := .ofBroadcast .start broadcastId
abbrev presence (userId : Uuid) : RedisKey := .ofUser .online userId
abbrev wsBuffer (userId : Uuid) : RedisKey := .ofUser .wsBuf userId
abbrev profile (userId : Uuid) : RedisKey := .ofUser .profile userId
abbrev userProviders (userId : Uuid) : RedisKey := .ofUser .providers userId
abbrev session (userId : Uuid) : RedisKey := .ofUser .session userId
abbrev unreadCount (userId : Uuid) : RedisKey := .ofUser .unread userId

/-- `Display` -/
def key : RedisKey → String
  | .ofBroadcast slot broadcastId => "b:" ++ broadcastId.text ++ ":" ++ slot.text
  | .recordingReady broadcastId => "recording:" ++ broadcastId.text
  | .broadcast broadcastId => "b:" ++ broadcastId.text
  | .ofUser slot userId => "u:" ++ userId.text ++ ":" ++ slot.text
  | .quota userId date => "u:" ++ userId.text ++ ":quota:" ++ date
  | .reconnectRate userId => "rate:reconnect:" ++ userId.text
  | .rateLimit pre identifier => "rate:" ++ pre ++ ":" ++ identifier
  | .oauth2State state => "oauth2:" ++ state
  | .otp email otpType => "otp:" ++ otpType ++ ":" ++ email
  | .searchResults query page limit => query ++ ":" ++ number page ++ ":" ++ number limit
  | .blockList pre id => "block-list:" ++ pre ++ ":" ++ id.text
  | .lock cacheKey => "lock:" ++ cacheKey
  | .idempotency key => "idem:" ++ key.text
  | .cursorCache module ownerId cursor limit =>
    "cursor:" ++ module ++ ":" ++ ownerId.text ++ ":" ++ cursor ++ ":" ++ number limit

end RedisKey

theorem key_profile (u : Uuid) : (RedisKey.profile u).key = Profiles.RedisKey.profile u := by
  simp only [RedisKey.key, UserSlot.text, Profiles.RedisKey.profile, String.append_assoc]
  rfl

theorem key_userProviders (u : Uuid) :
    (RedisKey.userProviders u).key = Profiles.RedisKey.userProviders u := by
  simp only [RedisKey.key, UserSlot.text, Profiles.RedisKey.userProviders, String.append_assoc]
  rfl

theorem key_searchResults (query : String) (page limit : Int64) :
    (RedisKey.searchResults query page limit).key =
      Profiles.RedisKey.searchResults query page.toInt limit.toInt := rfl

/-! ## Segments -/

/-- What stands between the colons. -/
def segments (s : String) : List (List Char) := s.toList.splitOn ':'

section Segments

variable {s s' : String}

theorem segments_ne_nil (s : String) : segments s ≠ [] :=
  List.splitOn_ne_nil _ _

theorem segments_inj (h : segments s = segments s') : s = s' := by
  have hjoin := congrArg ([':'].intercalate ·) h
  simp only [segments, List.intercalate_splitOn] at hjoin
  exact String.toList_inj.1 hjoin

theorem segments_append (s s' : String) : segments (s ++ ":" ++ s') = segments s ++ segments s' := by
  have htext : (s ++ ":" ++ s').toList = s.toList ++ ':' :: s'.toList := by simp
  rw [segments, htext, List.splitOn_append_cons_self]
  rfl

theorem segments_of_not_mem (h : ':' ∉ s.toList) : segments s = [s.toList] :=
  List.splitOn_eq_singleton h

theorem segments_text (id : Uuid) : segments id.text = [id.text.toList] :=
  segments_of_not_mem (colon_not_mem_text id)

theorem segments_number (n : Int64) : segments (number n) = [Text.showInt n.toInt] := by
  rw [segments_of_not_mem, number, String.toList_ofList]
  rw [number, String.toList_ofList]
  exact Text.colon_not_mem_showInt _

/-- A text that begins with a kind. -/
theorem segments_kind (lit kind : String) (hlit : lit = kind ++ ":")
    (hkind : ':' ∉ kind.toList) (s : String) : segments (lit ++ s) = kind.toList :: segments s := by
  rw [hlit, segments_append, segments_of_not_mem hkind]
  rfl

theorem showInt_inj {m n : Int64} (h : Text.showInt m.toInt = Text.showInt n.toInt) : m = n := by
  have hparse := congrArg Text.parseInt h
  rw [Text.parseInt_showInt, Text.parseInt_showInt, Option.some.injEq] at hparse
  exact Int64.toInt_inj.1 hparse

end Segments

namespace RedisKey

/-- The first segment, where it does not come from a search. -/
def space : RedisKey → String
  | .ofBroadcast .. | .broadcast _ => "b"
  | .recordingReady _ => "recording"
  | .ofUser .. | .quota .. => "u"
  | .reconnectRate _ | .rateLimit .. => "rate"
  | .oauth2State _ => "oauth2"
  | .otp .. => "otp"
  | .searchResults .. => ""
  | .blockList .. => "block-list"
  | .lock _ => "lock"
  | .idempotency _ => "idem"
  | .cursorCache .. => "cursor"

/-- The segments after the first. -/
def rest : RedisKey → List (List Char)
  | .ofBroadcast slot broadcastId => [broadcastId.text.toList, slot.text.toList]
  | .recordingReady broadcastId => [broadcastId.text.toList]
  | .broadcast broadcastId => [broadcastId.text.toList]
  | .ofUser slot userId => [userId.text.toList, slot.text.toList]
  | .quota userId date => userId.text.toList :: "quota".toList :: segments date
  | .reconnectRate userId => ["reconnect".toList, userId.text.toList]
  | .rateLimit pre identifier => segments pre ++ segments identifier
  | .oauth2State state => segments state
  | .otp email otpType => segments otpType ++ segments email
  | .searchResults .. => []
  | .blockList pre id => segments pre ++ [id.text.toList]
  | .lock cacheKey => segments cacheKey
  | .idempotency key => [key.text.toList]
  | .cursorCache module ownerId cursor limit =>
    segments module ++ ownerId.text.toList :: (segments cursor ++ [Text.showInt limit.toInt])

def IsSearch : RedisKey → Prop
  | .searchResults .. => True
  | _ => False

theorem IsSearch.exists {k : RedisKey} (h : k.IsSearch) :
    ∃ query page limit, k = searchResults query page limit := by
  cases k with
  | searchResults query page limit => exact ⟨query, page, limit, rfl⟩
  | _ => exact absurd h id

theorem segments_search (query : String) (page limit : Int64) :
    segments (searchResults query page limit).key =
      segments query ++ [Text.showInt page.toInt, Text.showInt limit.toInt] := by
  rw [key, segments_append, segments_append, segments_number, segments_number, List.append_assoc]
  rfl

/-- The segments of a key, of which the first is its kind. -/
theorem segments_key {k : RedisKey} (h : ¬ k.IsSearch) :
    segments k.key = k.space.toList :: k.rest := by
  cases k with
  | ofBroadcast slot id =>
    have hslot : ':' ∉ slot.text.toList := by cases slot <;> decide
    rw [key, segments_append, segments_kind "b:" "b" rfl (by decide), segments_text,
      segments_of_not_mem hslot]
    rfl
  | recordingReady id => rw [key, segments_kind "recording:" "recording" rfl (by decide), segments_text]; rfl
  | broadcast id => rw [key, segments_kind "b:" "b" rfl (by decide), segments_text]; rfl
  | ofUser slot id =>
    have hslot : ':' ∉ slot.text.toList := by cases slot <;> decide
    rw [key, segments_append, segments_kind "u:" "u" rfl (by decide), segments_text,
      segments_of_not_mem hslot]
    rfl
  | quota id date =>
    have htext : (quota id date).key = "u:" ++ id.text ++ ":" ++ ("quota:" ++ date) := by
      simp only [key, ← String.append_assoc]
      simp only [String.append_assoc]
      rfl
    rw [htext, segments_append, segments_kind "u:" "u" rfl (by decide), segments_text,
      segments_kind "quota:" "quota" rfl (by decide)]
    rfl
  | reconnectRate id =>
    have htext : (reconnectRate id).key = "rate:" ++ ("reconnect:" ++ id.text) := by
      simp only [key, ← String.append_assoc]
      rfl
    rw [htext, segments_kind "rate:" "rate" rfl (by decide), segments_kind "reconnect:" "reconnect" rfl (by decide),
      segments_text]
    rfl
  | rateLimit pre identifier =>
    rw [key, segments_append, segments_kind "rate:" "rate" rfl (by decide)]
    rfl
  | oauth2State state => rw [key, segments_kind "oauth2:" "oauth2" rfl (by decide)]; rfl
  | otp email otpType =>
    rw [key, segments_append, segments_kind "otp:" "otp" rfl (by decide)]
    rfl
  | searchResults => exact absurd trivial h
  | blockList pre id =>
    rw [key, segments_append, segments_kind "block-list:" "block-list" rfl (by decide), segments_text]
    rfl
  | lock cacheKey => rw [key, segments_kind "lock:" "lock" rfl (by decide)]; rfl
  | idempotency id => rw [key, segments_kind "idem:" "idem" rfl (by decide), segments_text]; rfl
  | cursorCache module ownerId cursor limit =>
    rw [key, segments_append, segments_append, segments_append,
      segments_kind "cursor:" "cursor" rfl (by decide), segments_text, segments_number]
    simp [space, rest]

/-! ## Clashes -/

/-- Two keys with the same text: segments of one argument can as well be those of the argument
before it, and the last two segments can be the page and the limit of a search. -/
inductive Clash : RedisKey → RedisKey → Prop where
  | reconnectRate (userId : Uuid) :
    Clash (.reconnectRate userId) (.rateLimit "reconnect" userId.text)
  | rateLimit (pre identifier pre' identifier' : String) (moved : List (List Char))
    (hmoved : moved ≠ []) (hpre : segments pre' = segments pre ++ moved)
    (hidentifier : segments identifier = moved ++ segments identifier') :
    Clash (.rateLimit pre identifier) (.rateLimit pre' identifier')
  | otp (email otpType email' otpType' : String) (moved : List (List Char))
    (hmoved : moved ≠ []) (htype : segments otpType' = segments otpType ++ moved)
    (hemail : segments email = moved ++ segments email') :
    Clash (.otp email otpType) (.otp email' otpType')
  | cursorCache (module : String) (ownerId : Uuid) (cursor module' : String) (ownerId' : Uuid)
    (cursor' : String) (limit : Int64) (moved : List (List Char))
    (hmodule : segments module' = segments module ++ ownerId.text.toList :: moved)
    (hcursor : segments cursor = moved ++ ownerId'.text.toList :: segments cursor') :
    Clash (.cursorCache module ownerId cursor limit) (.cursorCache module' ownerId' cursor' limit)
  | searchQuota (query : String) (page limit : Int64) (userId : Uuid) (date : String)
    (front : List (List Char))
    (hquery : segments query = "u".toList :: userId.text.toList :: "quota".toList :: front)
    (hdate : segments date = front ++ [Text.showInt page.toInt, Text.showInt limit.toInt]) :
    Clash (.searchResults query page limit) (.quota userId date)
  | searchRateLimit (query : String) (page limit : Int64) (pre identifier : String)
    (front : List (List Char))
    (hquery : segments query = "rate".toList :: (segments pre ++ front))
    (hidentifier :
      segments identifier = front ++ [Text.showInt page.toInt, Text.showInt limit.toInt]) :
    Clash (.searchResults query page limit) (.rateLimit pre identifier)
  | searchRateLimitPrefix (query : String) (page limit : Int64) (pre : String)
    (front : List (List Char)) (hquery : segments query = "rate".toList :: front)
    (hpre : segments pre = front ++ [Text.showInt page.toInt]) :
    Clash (.searchResults query page limit) (.rateLimit pre (number limit))
  | searchOtp (query : String) (page limit : Int64) (email otpType : String)
    (front : List (List Char))
    (hquery : segments query = "otp".toList :: (segments otpType ++ front))
    (hemail : segments email = front ++ [Text.showInt page.toInt, Text.showInt limit.toInt]) :
    Clash (.searchResults query page limit) (.otp email otpType)
  | searchOtpType (query : String) (page limit : Int64) (otpType : String)
    (front : List (List Char)) (hquery : segments query = "otp".toList :: front)
    (htype : segments otpType = front ++ [Text.showInt page.toInt]) :
    Clash (.searchResults query page limit) (.otp (number limit) otpType)
  | searchOauth2State (query : String) (page limit : Int64) (state : String)
    (front : List (List Char)) (hquery : segments query = "oauth2".toList :: front)
    (hstate : segments state = front ++ [Text.showInt page.toInt, Text.showInt limit.toInt]) :
    Clash (.searchResults query page limit) (.oauth2State state)
  | searchLock (query : String) (page limit : Int64) (cacheKey : String)
    (front : List (List Char)) (hquery : segments query = "lock".toList :: front)
    (hcacheKey :
      segments cacheKey = front ++ [Text.showInt page.toInt, Text.showInt limit.toInt]) :
    Clash (.searchResults query page limit) (.lock cacheKey)
  | searchCursorCache (query : String) (page : Int64) (module : String) (ownerId : Uuid)
    (cursor : String) (limit : Int64) (front : List (List Char))
    (hquery : segments query =
      "cursor".toList :: (segments module ++ ownerId.text.toList :: front))
    (hcursor : segments cursor = front ++ [Text.showInt page.toInt]) :
    Clash (.searchResults query page limit) (.cursorCache module ownerId cursor limit)

variable {a b : RedisKey}

/-- Keys that clash are different, and have the same text. -/
theorem Clash.sound (h : Clash a b) : a.key = b.key ∧ a ≠ b := by
  have hkey : ∀ {a b : RedisKey}, ¬ a.IsSearch → ¬ b.IsSearch → a.space = b.space →
      a.rest = b.rest → a.key = b.key := by
    intro a b ha hb hspace hrest
    refine segments_inj ?_
    rw [segments_key ha, segments_key hb, hspace, hrest]
  have hsearch : ∀ {query : String} {page limit : Int64} {b : RedisKey}, ¬ b.IsSearch →
      segments query ++ [Text.showInt page.toInt, Text.showInt limit.toInt] =
        b.space.toList :: b.rest → (searchResults query page limit).key = b.key := by
    intro query page limit b hb hrest
    refine segments_inj ?_
    rw [segments_search, segments_key hb, hrest]
  cases h with
  | reconnectRate userId =>
    refine ⟨hkey id id rfl ?_, by simp⟩
    rw [rest, rest, segments_of_not_mem (by decide), segments_text]
    rfl
  | rateLimit pre identifier pre' identifier' moved hmoved hpre hidentifier =>
    refine ⟨hkey id id rfl ?_, ?_⟩
    · rw [rest, rest, hpre, hidentifier, List.append_assoc]
    · rintro ⟨⟩
      exact hmoved (List.append_cancel_left (hpre.symm.trans (List.append_nil _).symm))
  | otp email otpType email' otpType' moved hmoved htype hemail =>
    refine ⟨hkey id id rfl ?_, ?_⟩
    · rw [rest, rest, htype, hemail, List.append_assoc]
    · rintro ⟨⟩
      exact hmoved (List.append_cancel_left (htype.symm.trans (List.append_nil _).symm))
  | cursorCache module ownerId cursor module' ownerId' cursor' limit moved hmodule hcursor =>
    refine ⟨hkey id id rfl ?_, ?_⟩
    · rw [rest, rest, hmodule, hcursor]
      simp
    · rintro ⟨⟩
      have hnil := List.append_cancel_left (hmodule.symm.trans (List.append_nil _).symm)
      cases hnil
  | searchQuota query page limit userId date front hquery hdate =>
    exact ⟨hsearch id (by simp [hquery, rest, hdate, space]), by simp⟩
  | searchRateLimit query page limit pre identifier front hquery hidentifier =>
    exact ⟨hsearch id (by simp [hquery, rest, hidentifier, space]), by simp⟩
  | searchRateLimitPrefix query page limit pre front hquery hpre =>
    exact ⟨hsearch id (by simp [hquery, rest, hpre, segments_number, space]), by simp⟩
  | searchOtp query page limit email otpType front hquery hemail =>
    exact ⟨hsearch id (by simp [hquery, rest, hemail, space]), by simp⟩
  | searchOtpType query page limit otpType front hquery htype =>
    exact ⟨hsearch id (by simp [hquery, rest, htype, segments_number, space]), by simp⟩
  | searchOauth2State query page limit state front hquery hstate =>
    exact ⟨hsearch id (by simp [hquery, rest, hstate, space]), by simp⟩
  | searchLock query page limit cacheKey front hquery hcacheKey =>
    exact ⟨hsearch id (by simp [hquery, rest, hcacheKey, space]), by simp⟩
  | searchCursorCache query page module ownerId cursor limit front hquery hcursor =>
    exact ⟨hsearch id (by simp [hquery, rest, hcursor, space]), by simp⟩

/-! ## Keys with the same text -/

theorem last_one {as bs : List (List Char)} {x y : List Char} (h : as ++ [x] = bs ++ [y]) :
    as = bs ∧ x = y := by
  obtain ⟨hfront, hlast⟩ := List.append_inj' h rfl
  exact ⟨hfront, (List.cons.inj hlast).1⟩

/-- Where two segments at the end come from. -/
theorem last_two {as bs front : List (List Char)} {x y : List Char} (hbs : bs ≠ [])
    (h : as ++ bs = front ++ [x, y]) :
    (∃ front', front = as ++ front' ∧ bs = front' ++ [x, y]) ∨ as = front ++ [x] ∧ bs = [y] := by
  rcases List.append_eq_append_iff.1 h with ⟨front', hfront, hbs'⟩ | ⟨moved, has, hmoved⟩
  · exact .inl ⟨front', hfront, hbs'⟩
  · cases moved with
    | nil => exact .inl ⟨[], by simp [has], hmoved.symm⟩
    | cons z moved =>
      obtain ⟨rfl, hmoved⟩ := List.cons.inj hmoved
      cases moved with
      | nil => exact .inr ⟨has, (List.cons.inj hmoved.symm).2⟩
      | cons w moved =>
        have hlength := congrArg List.length hmoved
        simp only [List.length_cons, List.length_append, List.length_nil] at hlength
        exact absurd (List.length_eq_zero_iff.1 (by omega)) hbs

theorem only_two {front : List (List Char)} {x y x' y' : List Char}
    (h : [x', y'] = front ++ [x, y]) : x' = x ∧ y' = y := by
  cases front with
  | nil =>
    obtain ⟨hx, hy⟩ := List.cons.inj h
    exact ⟨hx, (List.cons.inj hy).1⟩
  | cons z front =>
    have hlength := congrArg List.length h
    simp only [List.length_cons, List.length_append, List.length_nil] at hlength
    omega

/-- The last segment of a number is the number. -/
theorem eq_number {s : String} {n : Int64} (h : segments s = [Text.showInt n.toInt]) :
    s = number n :=
  segments_inj (h.trans (segments_number n).symm)

/-- A search whose key is that of something else. -/
theorem clash_of_search {query : String} {page limit : Int64} (hb : ¬ b.IsSearch)
    (h : (searchResults query page limit).key = b.key) :
    Clash (.searchResults query page limit) b := by
  have hsegments := congrArg segments h
  rw [segments_search, segments_key hb] at hsegments
  obtain ⟨front, hquery, hrest⟩ : ∃ front, segments query = b.space.toList :: front ∧
      b.rest = front ++ [Text.showInt page.toInt, Text.showInt limit.toInt] := by
    cases hquery : segments query with
    | nil => exact absurd hquery (segments_ne_nil query)
    | cons first front =>
      rw [hquery] at hsegments
      obtain ⟨rfl, hrest⟩ := List.cons.inj hsegments
      exact ⟨front, rfl, hrest.symm⟩
  have hlength := congrArg List.length hrest
  cases b with
  | ofBroadcast slot id => exact absurd (only_two hrest).1 (id.text_ne_showInt _)
  | recordingReady id => simp [rest] at hlength
  | broadcast id => simp [rest] at hlength
  | ofUser slot id => exact absurd (only_two hrest).1 (id.text_ne_showInt _)
  | quota id date =>
    rw [space] at hquery
    have hrest : [id.text.toList, "quota".toList] ++ segments date =
        front ++ [Text.showInt page.toInt, Text.showInt limit.toInt] := hrest
    rcases last_two (segments_ne_nil date) hrest with ⟨front', rfl, hdate⟩ | ⟨hpage, hdate⟩
    · exact .searchQuota _ _ _ _ _ front' hquery hdate
    · have hpage : [id.text.toList] ++ ["quota".toList] = front ++ [Text.showInt page.toInt] := hpage
      have hquota : 'q' ∈ Text.showInt page.toInt := by
        rw [← (last_one hpage).2]
        decide
      exact absurd hquota (Text.not_mem_showInt (by decide) (by decide) _)
  | reconnectRate id => exact absurd (only_two hrest).2 (id.text_ne_showInt _)
  | rateLimit pre identifier =>
    rw [space] at hquery
    rw [rest] at hrest
    rcases last_two (segments_ne_nil identifier) hrest with ⟨front', rfl, hidentifier⟩ |
      ⟨hpre, hidentifier⟩
    · exact .searchRateLimit _ _ _ _ _ front' hquery hidentifier
    · rw [eq_number hidentifier]
      exact .searchRateLimitPrefix _ _ _ _ front hquery hpre
  | oauth2State state =>
    rw [space] at hquery
    rw [rest] at hrest
    exact .searchOauth2State _ _ _ _ front hquery hrest
  | otp email otpType =>
    rw [space] at hquery
    rw [rest] at hrest
    rcases last_two (segments_ne_nil email) hrest with ⟨front', rfl, hemail⟩ | ⟨htype, hemail⟩
    · exact .searchOtp _ _ _ _ _ front' hquery hemail
    · rw [eq_number hemail]
      exact .searchOtpType _ _ _ _ front hquery htype
  | searchResults => exact absurd trivial hb
  | blockList pre id =>
    rw [rest] at hrest
    rcases last_two (List.cons_ne_nil _ _) hrest with ⟨front', -, hid⟩ | ⟨-, hid⟩
    · have hlength := congrArg List.length hid
      simp at hlength
    · exact absurd (List.cons.inj hid).1 (id.text_ne_showInt _)
  | lock cacheKey =>
    rw [space] at hquery
    rw [rest] at hrest
    exact .searchLock _ _ _ _ front hquery hrest
  | idempotency id => simp [rest] at hlength
  | cursorCache module ownerId cursor limit' =>
    rw [space] at hquery
    rw [rest] at hrest
    have hends : (segments module ++ ownerId.text.toList :: segments cursor) ++
        [Text.showInt limit'.toInt] =
        (front ++ [Text.showInt page.toInt]) ++ [Text.showInt limit.toInt] := by
      simpa using hrest
    obtain ⟨hfront, hlimit⟩ := last_one hends
    obtain rfl := showInt_inj hlimit
    obtain ⟨front', last, hcursor⟩ := (List.eq_nil_or_concat (segments cursor)).resolve_left
      (segments_ne_nil cursor)
    rw [List.concat_eq_append] at hcursor
    rw [hcursor, ← List.cons_append, ← List.append_assoc] at hfront
    obtain ⟨rfl, rfl⟩ := last_one hfront
    exact .searchCursorCache _ _ _ _ _ _ front' hquery hcursor

/-- Texts that are one after the other, with colons between them. -/
theorem moved_of_append {s t s' t' : String} (h : segments s ++ segments t = segments s' ++ segments t') :
    s = s' ∧ t = t' ∨
      (∃ moved, moved ≠ [] ∧ segments s' = segments s ++ moved ∧ segments t = moved ++ segments t') ∨
      ∃ moved, moved ≠ [] ∧ segments s = segments s' ++ moved ∧ segments t' = moved ++ segments t := by
  rcases List.append_eq_append_iff.1 h with ⟨moved, hs, ht⟩ | ⟨moved, hs, ht⟩
  · cases moved with
    | nil =>
      rw [List.append_nil] at hs
      exact .inl ⟨segments_inj hs.symm, segments_inj ht⟩
    | cons x moved => exact .inr (.inl ⟨_, List.cons_ne_nil x moved, hs, ht⟩)
  · cases moved with
    | nil =>
      rw [List.append_nil] at hs
      exact .inl ⟨segments_inj hs, segments_inj ht.symm⟩
    | cons x moved => exact .inr (.inr ⟨_, List.cons_ne_nil x moved, hs, ht⟩)

/-- The kinds of two keys with the same text, and what follows. -/
theorem rest_of_key_eq (ha : ¬ a.IsSearch) (hb : ¬ b.IsSearch) (h : a.key = b.key) :
    a.space = b.space ∧ a.rest = b.rest := by
  have hsegments := congrArg segments h
  rw [segments_key ha, segments_key hb] at hsegments
  obtain ⟨hspace, hrest⟩ := List.cons.inj hsegments
  exact ⟨String.toList_inj.1 hspace, hrest⟩

theorem text_eq {s : String} {id : Uuid} (h : segments s = [id.text.toList]) : s = id.text :=
  segments_inj (h.trans (segments_text id).symm)

/-- The one limit of reconnections that is no other limit's name. -/
theorem reconnect_of_rest {id : Uuid} {pre identifier : String}
    (h : (reconnectRate id).rest = (rateLimit pre identifier).rest) :
    pre = "reconnect" ∧ identifier = id.text := by
  have hrest : segments "reconnect" ++ segments id.text = segments pre ++ segments identifier := by
    rw [segments_of_not_mem (by decide : ':' ∉ "reconnect".toList), segments_text]
    exact h
  have hlength : ∀ {s : String} {as bs : List (List Char)}, as ≠ [] → bs ≠ [] →
      segments s = as ++ bs → 2 ≤ (segments s).length := by
    intro s as bs has hbs hs
    have hpos := List.length_pos_iff.2 has
    have hpos' := List.length_pos_iff.2 hbs
    rw [hs, List.length_append]
    omega
  rcases moved_of_append hrest with ⟨rfl, rfl⟩ | ⟨moved, hmoved, -, hid⟩ | ⟨moved, hmoved, hpre, -⟩
  · exact ⟨rfl, rfl⟩
  · have htwo := hlength hmoved (segments_ne_nil _) hid
    rw [segments_text, List.length_singleton] at htwo
    omega
  · have htwo := hlength (segments_ne_nil _) hmoved hpre
    exact absurd htwo (by decide)

/-- What stands in a module may be an owner and part of a cursor. -/
theorem cursor_of_moved {module module' cursor cursor' : String} {ownerId ownerId' : Uuid}
    {moved : List (List Char)} (limit : Int64) (hmodule : segments module' = segments module ++ moved)
    (hcursor : ownerId.text.toList :: segments cursor =
      moved ++ ownerId'.text.toList :: segments cursor') :
    cursorCache module ownerId cursor limit = cursorCache module' ownerId' cursor' limit ∨
      Clash (.cursorCache module ownerId cursor limit)
        (.cursorCache module' ownerId' cursor' limit) := by
  cases moved with
  | nil =>
    obtain ⟨howner, hcursor⟩ := List.cons.inj hcursor
    rw [List.append_nil] at hmodule
    rw [segments_inj hmodule, Uuid.text_inj howner, segments_inj hcursor]
    exact .inl rfl
  | cons x moved =>
    rw [List.cons_append] at hcursor
    obtain ⟨rfl, hafter⟩ := List.cons.inj hcursor
    exact .inr (.cursorCache _ _ _ _ _ _ _ moved hmodule hafter)

theorem cursor_of_rest {module module' cursor cursor' : String} {ownerId ownerId' : Uuid}
    {limit limit' : Int64} (h : (cursorCache module ownerId cursor limit).rest =
      (cursorCache module' ownerId' cursor' limit').rest) :
    cursorCache module ownerId cursor limit = cursorCache module' ownerId' cursor' limit' ∨
      Clash (.cursorCache module ownerId cursor limit)
        (.cursorCache module' ownerId' cursor' limit') ∨
      Clash (.cursorCache module' ownerId' cursor' limit')
        (.cursorCache module ownerId cursor limit) := by
  have hends : (segments module ++ ownerId.text.toList :: segments cursor) ++
      [Text.showInt limit.toInt] =
      (segments module' ++ ownerId'.text.toList :: segments cursor') ++
        [Text.showInt limit'.toInt] := by
    simpa [rest] using h
  obtain ⟨hfront, hlimit⟩ := last_one hends
  obtain rfl := showInt_inj hlimit
  rcases List.append_eq_append_iff.1 hfront with ⟨moved, hmodule, hcursor⟩ |
    ⟨moved, hmodule, hcursor⟩
  · exact (cursor_of_moved limit hmodule hcursor).imp_right .inl
  · rcases cursor_of_moved limit hmodule hcursor with hsame | hclash
    · exact .inl hsame.symm
    · exact .inr (.inr hclash)

/-- Keys of one kind, with the same segments. -/
theorem eq_or_clash (ha : ¬ a.IsSearch) (hb : ¬ b.IsSearch) (hspace : a.space = b.space)
    (hrest : a.rest = b.rest) : a = b ∨ Clash a b ∨ Clash b a := by
  cases a with
  | ofBroadcast slot id =>
    cases b with
    | ofBroadcast slot' id' =>
      obtain ⟨hid, hslot⟩ := List.cons.inj hrest
      rw [Uuid.text_inj hid, BroadcastSlot.text_inj (List.cons.inj hslot).1]
      exact .inl rfl
    | broadcast id' => simp [rest] at hrest
    | _ => simp [space] at hspace
  | recordingReady id =>
    cases b with
    | recordingReady id' =>
      rw [Uuid.text_inj (List.cons.inj hrest).1]
      exact .inl rfl
    | _ => simp [space] at hspace
  | broadcast id =>
    cases b with
    | ofBroadcast slot' id' => simp [rest] at hrest
    | broadcast id' =>
      rw [Uuid.text_inj (List.cons.inj hrest).1]
      exact .inl rfl
    | _ => simp [space] at hspace
  | ofUser slot id =>
    cases b with
    | ofUser slot' id' =>
      obtain ⟨hid, hslot⟩ := List.cons.inj hrest
      rw [Uuid.text_inj hid, UserSlot.text_inj (List.cons.inj hslot).1]
      exact .inl rfl
    | quota id' date =>
      exact absurd (List.cons.inj (List.cons.inj hrest).2).2.symm (segments_ne_nil date)
    | _ => simp [space] at hspace
  | quota id date =>
    cases b with
    | ofUser slot' id' => simp [rest, segments_ne_nil] at hrest
    | quota id' date' =>
      obtain ⟨hid, hdate⟩ := List.cons.inj hrest
      rw [Uuid.text_inj hid, segments_inj (List.cons.inj hdate).2]
      exact .inl rfl
    | _ => simp [space] at hspace
  | reconnectRate id =>
    cases b with
    | reconnectRate id' =>
      rw [Uuid.text_inj (List.cons.inj (List.cons.inj hrest).2).1]
      exact .inl rfl
    | rateLimit pre identifier =>
      obtain ⟨rfl, rfl⟩ := reconnect_of_rest hrest
      exact .inr (.inl (.reconnectRate id))
    | _ => simp [space] at hspace
  | rateLimit pre identifier =>
    cases b with
    | reconnectRate id' =>
      obtain ⟨rfl, rfl⟩ := reconnect_of_rest hrest.symm
      exact .inr (.inr (.reconnectRate id'))
    | rateLimit pre' identifier' =>
      rcases moved_of_append hrest with ⟨rfl, rfl⟩ | ⟨moved, hmoved, hpre, hidentifier⟩ |
        ⟨moved, hmoved, hpre, hidentifier⟩
      · exact .inl rfl
      · exact .inr (.inl (.rateLimit _ _ _ _ moved hmoved hpre hidentifier))
      · exact .inr (.inr (.rateLimit _ _ _ _ moved hmoved hpre hidentifier))
    | _ => simp [space] at hspace
  | oauth2State state =>
    cases b with
    | oauth2State state' =>
      rw [segments_inj hrest]
      exact .inl rfl
    | _ => simp [space] at hspace
  | otp email otpType =>
    cases b with
    | otp email' otpType' =>
      rcases moved_of_append hrest with ⟨rfl, rfl⟩ | ⟨moved, hmoved, htype, hemail⟩ |
        ⟨moved, hmoved, htype, hemail⟩
      · exact .inl rfl
      · exact .inr (.inl (.otp _ _ _ _ moved hmoved htype hemail))
      · exact .inr (.inr (.otp _ _ _ _ moved hmoved htype hemail))
    | _ => simp [space] at hspace
  | searchResults query page limit => exact absurd trivial ha
  | blockList pre id =>
    cases b with
    | blockList pre' id' =>
      obtain ⟨hpre, hid⟩ := last_one hrest
      rw [segments_inj hpre, Uuid.text_inj hid]
      exact .inl rfl
    | _ => simp [space] at hspace
  | lock cacheKey =>
    cases b with
    | lock cacheKey' =>
      rw [segments_inj hrest]
      exact .inl rfl
    | _ => simp [space] at hspace
  | idempotency id =>
    cases b with
    | idempotency id' =>
      rw [Uuid.text_inj (List.cons.inj hrest).1]
      exact .inl rfl
    | _ => simp [space] at hspace
  | cursorCache module ownerId cursor limit =>
    cases b with
    | cursorCache module' ownerId' cursor' limit' => exact cursor_of_rest hrest
    | _ => simp [space] at hspace

/-- Different keys with the same text clash. -/
theorem clash_of_key_eq (h : a.key = b.key) : a = b ∨ Clash a b ∨ Clash b a := by
  by_cases ha : a.IsSearch
  · by_cases hb : b.IsSearch
    · obtain ⟨query, page, limit, rfl⟩ := ha.exists
      obtain ⟨query', page', limit', rfl⟩ := hb.exists
      have hsegments := congrArg segments h
      rw [segments_search, segments_search, List.append_cons, List.append_cons (segments query')]
        at hsegments
      obtain ⟨hfront, hlimit⟩ := last_one hsegments
      obtain ⟨hquery, hpage⟩ := last_one hfront
      rw [segments_inj hquery, showInt_inj hpage, showInt_inj hlimit]
      exact .inl rfl
    · obtain ⟨query, page, limit, rfl⟩ := ha.exists
      exact .inr (.inl (clash_of_search hb h))
  · by_cases hb : b.IsSearch
    · obtain ⟨query, page, limit, rfl⟩ := hb.exists
      exact .inr (.inr (clash_of_search ha h.symm))
    · obtain ⟨hspace, hrest⟩ := rest_of_key_eq ha hb h
      exact eq_or_clash ha hb hspace hrest

/-- **Keys tell apart** what they are for, except where they clash. -/
theorem key_inj_iff (a b : RedisKey) : (a.key = b.key → a = b) ↔ ¬ (Clash a b ∨ Clash b a) := by
  constructor
  · intro h hclash
    rcases hclash with hclash | hclash
    · exact hclash.sound.2 (h hclash.sound.1)
    · exact hclash.sound.2 (h hclash.sound.1.symm).symm
  · intro h hkey
    exact (clash_of_key_eq hkey).resolve_right h

/-- A search for `oauth2` has the key of a state that a client can choose. -/
theorem search_names_state : ¬ ∀ a b : RedisKey, a.key = b.key → a = b := by
  intro h
  have hclash : Clash (searchResults "oauth2" 0 20) (oauth2State "0:20") :=
    .searchOauth2State _ _ _ _ [] (by decide) (by decide)
  exact hclash.sound.2 (h _ _ hclash.sound.1)

end RedisKey

end RedisKeys

end Meno
