import Meno.Broadcast.Listing
import Meno.Lib.Fields
import Meno.Shared.UuidText

/-!
# Meno.Broadcast.CacheKeys

The keys under which Redis keeps pages of broadcasts and of participants, and what two requests
with one key have in common.
-/

namespace Meno

open Lib Lib.Text

/-! ## Texts -/

/-- `unix_timestamp`: whole seconds, rounded down. -/
def unixTimestamp (t : OffsetDateTime) : Int := t / 1000000000

/-- `Debug`, as of all enumerations here. -/
def Order.debug : Order → List Char
  | .desc => "Desc".toList
  | .asc => "Asc".toList

def BroadcastStatus.debug : BroadcastStatus → List Char
  | .active => "Active".toList
  | .inactive => "Inactive".toList

def BroadcastSortBy.debug : BroadcastSortBy → List Char
  | .createdAt => "CreatedAt".toList
  | .title => "Title".toList
  | .startTime => "StartTime".toList
  | .endTime => "EndTime".toList
  | .totalParticipants => "TotalParticipants".toList

def ParticipantSortBy.debug : ParticipantSortBy → List Char
  | .role => "Role".toList
  | .joinedAt => "JoinedAt".toList
  | .name => "Name".toList

def ParticipantRole.debug : ParticipantRole → List Char
  | .host => "Host".toList
  | .cohost => "Cohost".toList
  | .participant => "Participant".toList
  | .none => "None".toList

/-- `e as u8`. -/
def bit (e : Bool) : List Char := if e then ['1'] else ['0']

/-- `{:x}` of the hash of a keyword. -/
def hexOf (hash : String → BitVec 64) (kw : String) : List Char := Nat.toDigits 16 (hash kw).toNat

/-- `query.cursor().map(|c| c.0.clone()).unwrap_or_default()`. -/
def CursorParams.cursorStr (p : CursorParams) : List Char := (p.cursor.elim "" Cursor.text).toList

/-! ## Keys -/

namespace BroadcastListCacheKey

variable (hash : String → BitVec 64)

def segments (query : BroadcastQuery) : List (List Char × Option (List Char)) := [
  ("cid".toList, query.creatorId.map fun cid => cid.text.toList),
  ("kw".toList, query.keywords.map (hexOf hash)),
  ("s".toList, query.status.map BroadcastStatus.debug),
  ("stgt".toList, query.startTimeGt.map (showInt ∘ unixTimestamp)),
  ("stge".toList, query.startTimeGte.map (showInt ∘ unixTimestamp)),
  ("stlt".toList, query.startTimeLt.map (showInt ∘ unixTimestamp)),
  ("stle".toList, query.startTimeLte.map (showInt ∘ unixTimestamp)),
  ("etgt".toList, query.endTimeGt.map (showInt ∘ unixTimestamp)),
  ("etge".toList, query.endTimeGte.map (showInt ∘ unixTimestamp)),
  ("etlt".toList, query.endTimeLt.map (showInt ∘ unixTimestamp)),
  ("etle".toList, query.endTimeLte.map (showInt ∘ unixTimestamp)),
  ("ste".toList, query.startTimeExists.map bit),
  ("ete".toList, query.endTimeExists.map bit),
  ("sb".toList, some query.effectiveSort.debug),
  ("ord".toList, some query.effectiveOrder.debug)]

def parts (query : BroadcastQuery) : List (List Char) :=
  fields (segments hash query) ++ [
    "cur=".toList ++ query.pagination.cursorStr,
    "lim=".toList ++ showInt query.pagination.pageLimit]

def build (query : BroadcastQuery) : Option String :=
  if query.onlySubscriptions = some true then none
  else
    let parts := parts hash query
    if parts.isEmpty then some "bc:list:all"
    else some (String.ofList ("bc:list:".toList ++ [':'].intercalate parts))

end BroadcastListCacheKey

namespace ParticipantListCacheKey

variable (hash : String → BitVec 64)

def sortSegment : Option ParticipantSortBy → Option (List Char)
  | none => none
  | some .role => none
  | some s => some s.debug

def orderSegment : Option Order → Option (List Char)
  | none => none
  | some .desc => none
  | some o => some o.debug

def segments (query : ParticipantQuery) : List (List Char × Option (List Char)) := [
  ("kw".toList, query.keywords.map (hexOf hash)),
  ("s".toList, query.role.map ParticipantRole.debug),
  ("sb".toList, sortSegment query.sortBy),
  ("ob".toList, orderSegment query.order)]

def build (pre : List Char) (broadcastId : Uuid) (query : ParticipantQuery) : String :=
  String.ofList ("bc:".toList ++ pre ++ ":".toList ++ broadcastId.text.toList ++ ":".toList ++
    [':'].intercalate (fields (segments hash query)))

def all (broadcastId : Uuid) (query : ParticipantQuery) : String :=
  build hash "participants".toList broadcastId query

end ParticipantListCacheKey

/-! ## Laws of the texts -/

theorem colon_not_mem_hexOf (hash : String → BitVec 64) (kw : String) : ':' ∉ hexOf hash kw :=
  fun h => absurd (mem_toDigits_hex h) (by decide)

theorem map_hash_of_hexOf {hash : String → BitVec 64} {a b : Option String}
    (h : a.map (hexOf hash) = b.map (hexOf hash)) : a.map hash = b.map hash := by
  have hcomp : hexOf hash = (fun n : BitVec 64 => Nat.toDigits 16 n.toNat) ∘ hash := rfl
  rw [hcomp, ← Option.map_map, ← Option.map_map] at h
  exact Option.map_injective (fun _ _ hab => BitVec.toNat_inj.1 (toDigits_hex_inj hab)) h

theorem showInt_inj {a b : Int} (h : showInt a = showInt b) : a = b := by
  have hparse := congrArg parseInt h
  rwa [parseInt_showInt, parseInt_showInt, Option.some.injEq] at hparse

theorem bit_inj {a b : Bool} (h : bit a = bit b) : a = b := by
  cases a <;> cases b <;> first | rfl | exact absurd h (by decide)

theorem Order.debug_inj {a b : Order} (h : a.debug = b.debug) : a = b := by
  cases a <;> cases b <;> first | rfl | exact absurd h (by decide)

theorem BroadcastStatus.debug_inj {a b : BroadcastStatus} (h : a.debug = b.debug) : a = b := by
  cases a <;> cases b <;> first | rfl | exact absurd h (by decide)

theorem BroadcastSortBy.debug_inj {a b : BroadcastSortBy} (h : a.debug = b.debug) : a = b := by
  cases a <;> cases b <;> first | rfl | exact absurd h (by decide)

theorem ParticipantRole.debug_inj {a b : ParticipantRole} (h : a.debug = b.debug) : a = b := by
  cases a <;> cases b <;> first | rfl | exact absurd h (by decide)

/-! ## Requests with one key -/

namespace BroadcastListCacheKey

variable {hash : String → BitVec 64} {query query' : BroadcastQuery}

/-- What two requests with one key have in common. -/
structure Agree (hash : String → BitVec 64) (query query' : BroadcastQuery) : Prop where
  creatorId : query.creatorId = query'.creatorId
  keywords : query.keywords.map hash = query'.keywords.map hash
  status : query.status = query'.status
  startTimeGt : query.startTimeGt.map unixTimestamp = query'.startTimeGt.map unixTimestamp
  startTimeGte : query.startTimeGte.map unixTimestamp = query'.startTimeGte.map unixTimestamp
  startTimeLt : query.startTimeLt.map unixTimestamp = query'.startTimeLt.map unixTimestamp
  startTimeLte : query.startTimeLte.map unixTimestamp = query'.startTimeLte.map unixTimestamp
  endTimeGt : query.endTimeGt.map unixTimestamp = query'.endTimeGt.map unixTimestamp
  endTimeGte : query.endTimeGte.map unixTimestamp = query'.endTimeGte.map unixTimestamp
  endTimeLt : query.endTimeLt.map unixTimestamp = query'.endTimeLt.map unixTimestamp
  endTimeLte : query.endTimeLte.map unixTimestamp = query'.endTimeLte.map unixTimestamp
  startTimeExists : query.startTimeExists = query'.startTimeExists
  endTimeExists : query.endTimeExists = query'.endTimeExists
  sort : query.effectiveSort = query'.effectiveSort
  order : query.effectiveOrder = query'.effectiveOrder
  cursor : query.pagination.cursorStr = query'.pagination.cursorStr
  limit : query.pagination.pageLimit = query'.pagination.pageLimit
  shared : query.onlySubscriptions ≠ some true ∧ query'.onlySubscriptions ≠ some true

def tags : List (List Char) :=
  ["cid", "kw", "s", "stgt", "stge", "stlt", "stle", "etgt", "etge", "etlt", "etle", "ste", "ete",
    "sb", "ord"].map String.toList

theorem tags_segments (hash : String → BitVec 64) (query : BroadcastQuery) :
    (segments hash query).map Prod.fst = tags :=
  rfl

theorem mem_tags {f : List Char × Option (List Char)} (hf : f ∈ segments hash query) :
    ':' ∉ f.1 ∧ '=' ∉ f.1 ∧ f.1 ≠ "cur".toList := by
  have htags : ∀ tag ∈ tags, ':' ∉ tag ∧ '=' ∉ tag ∧ tag ≠ "cur".toList := by decide
  refine htags _ ?_
  rw [← tags_segments hash query]
  exact List.mem_map_of_mem hf

/-- No value but the cursor's has a colon in it. -/
theorem colon_not_mem_segments {f : List Char × Option (List Char)}
    (hf : f ∈ segments hash query) {v : List Char} (hv : f.2 = some v) : ':' ∉ v := by
  have htime : ∀ {x : Option OffsetDateTime},
      x.map (showInt ∘ unixTimestamp) = some v → ':' ∉ v := by
    intro x hx
    obtain ⟨ts, -, rfl⟩ := Option.map_eq_some_iff.1 hx
    exact colon_not_mem_showInt _
  have hbit : ∀ {x : Option Bool}, x.map bit = some v → ':' ∉ v := by
    intro x hx
    obtain ⟨e, -, rfl⟩ := Option.map_eq_some_iff.1 hx
    cases e <;> decide
  simp only [segments, List.mem_cons, List.not_mem_nil, or_false] at hf
  rcases hf with rfl | rfl | rfl | rfl | rfl | rfl | rfl | rfl | rfl | rfl | rfl | rfl | rfl | rfl |
    rfl
  · obtain ⟨cid, -, rfl⟩ := Option.map_eq_some_iff.1 hv
    exact colon_not_mem_text cid
  · obtain ⟨kw, -, rfl⟩ := Option.map_eq_some_iff.1 hv
    exact colon_not_mem_hexOf hash kw
  · obtain ⟨status, -, rfl⟩ := Option.map_eq_some_iff.1 hv
    cases status <;> decide
  · exact htime hv
  · exact htime hv
  · exact htime hv
  · exact htime hv
  · exact htime hv
  · exact htime hv
  · exact htime hv
  · exact htime hv
  · exact hbit hv
  · exact hbit hv
  · obtain rfl := Option.some.inj hv
    cases query.effectiveSort <;> decide
  · obtain rfl := Option.some.inj hv
    cases query.effectiveOrder <;> decide

theorem part_segments {p : List Char} (hp : p ∈ fields (segments hash query)) :
    ':' ∉ p ∧ ¬ "cur=".toList <+: p := by
  obtain ⟨f, hf, v, hv, rfl⟩ := mem_fields.1 hp
  have hcolon := colon_not_mem_segments hf hv
  obtain ⟨hcolon', heq, hcur⟩ := mem_tags hf
  constructor
  · simp [hcolon, hcolon']
  · rintro ⟨r, hr⟩
    have hr : "cur".toList ++ '=' :: r = f.1 ++ '=' :: v := hr
    exact hcur (tag_eq (by decide) heq hr).1.symm

theorem agree_of_build {key : String} (h : build hash query = some key)
    (h' : build hash query' = some key) : Agree hash query query' := by
  have hparts : ∀ {q : BroadcastQuery}, build hash q = some key → q.onlySubscriptions ≠ some true ∧
      key.toList = "bc:list:".toList ++ [':'].intercalate (parts hash q) := by
    intro q hq
    unfold build at hq
    split at hq
    · cases hq
    · rename_i honly
      have hne : (parts hash q).isEmpty = false := by simp [parts]
      simp only [hne, Bool.false_eq_true, if_false, Option.some.injEq] at hq
      exact ⟨honly, by rw [← hq, String.toList_ofList]⟩
  obtain ⟨honly, hkey⟩ := hparts h
  obtain ⟨honly', hkey'⟩ := hparts h'
  have htext := List.append_cancel_left (hkey.symm.trans hkey')
  have hlim : ∀ q : BroadcastQuery, ':' ∉ "lim=".toList ++ showInt q.pagination.pageLimit := by
    intro q hq
    rcases List.mem_append.1 hq with hq | hq
    · exact absurd hq (by decide)
    · exact colon_not_mem_showInt _ hq
  obtain ⟨hfields, hcursor, hlimit⟩ := intercalate_open_inj (by decide)
    (fun p hp => part_segments hp) (fun p hp => part_segments hp) (hlim query) (hlim query') htext
  have hsegments : segments hash query = segments hash query' := by
    refine fields_inj (by rw [tags_segments, tags_segments]) ?_ (fun f hf => (mem_tags hf).2.1)
      hfields
    rw [tags_segments]
    decide
  have hunix : ∀ {x y : Option OffsetDateTime}, x.map (showInt ∘ unixTimestamp) =
      y.map (showInt ∘ unixTimestamp) → x.map unixTimestamp = y.map unixTimestamp := by
    intro x y hxy
    rw [← Option.map_map, ← Option.map_map] at hxy
    exact Option.map_injective (fun _ _ => showInt_inj) hxy
  simp only [segments, List.cons.injEq, Prod.mk.injEq, true_and, and_true, Option.some.injEq]
    at hsegments
  obtain ⟨hcid, hkw, hs, hstgt, hstge, hstlt, hstle, hetgt, hetge, hetlt, hetle, hste, hete, hsb,
    hord⟩ := hsegments
  exact {
    creatorId := Option.map_injective (fun _ _ => Uuid.text_inj) hcid
    keywords := map_hash_of_hexOf hkw
    status := Option.map_injective (fun _ _ => BroadcastStatus.debug_inj) hs
    startTimeGt := hunix hstgt
    startTimeGte := hunix hstge
    startTimeLt := hunix hstlt
    startTimeLte := hunix hstle
    endTimeGt := hunix hetgt
    endTimeGte := hunix hetge
    endTimeLt := hunix hetlt
    endTimeLte := hunix hetle
    startTimeExists := Option.map_injective (fun _ _ => bit_inj) hste
    endTimeExists := Option.map_injective (fun _ _ => bit_inj) hete
    sort := BroadcastSortBy.debug_inj hsb
    order := Order.debug_inj hord
    cursor := hcursor
    limit := showInt_inj (List.append_cancel_left hlimit)
    shared := ⟨honly, honly'⟩ }

end BroadcastListCacheKey

namespace ParticipantListCacheKey

variable {hash : String → BitVec 64} {broadcastId broadcastId' : Uuid}
  {query query' : ParticipantQuery}

/-- What two requests with one key have in common. The key has neither the cursor nor the limit in
it, and no order for the two that ascend and descend without and with a word of it. -/
structure Agree (hash : String → BitVec 64) (broadcastId broadcastId' : Uuid)
    (query query' : ParticipantQuery) : Prop where
  id : broadcastId = broadcastId'
  keywords : query.keywords.map hash = query'.keywords.map hash
  role : query.role = query'.role
  sort : query.sort = query'.sort

def tags : List (List Char) := ["kw", "s", "sb", "ob"].map String.toList

theorem tags_segments (hash : String → BitVec 64) (query : ParticipantQuery) :
    (segments hash query).map Prod.fst = tags :=
  rfl

theorem mem_tags {f : List Char × Option (List Char)} (hf : f ∈ segments hash query) :
    ':' ∉ f.1 ∧ '=' ∉ f.1 := by
  have htags : ∀ tag ∈ tags, ':' ∉ tag ∧ '=' ∉ tag := by decide
  refine htags _ ?_
  rw [← tags_segments hash query]
  exact List.mem_map_of_mem hf

/-- A sort that is left out is the default. -/
theorem sortSegment_inj {a b : Option ParticipantSortBy} (h : sortSegment a = sortSegment b) :
    a.getD .role = b.getD .role := by
  rcases a with _ | a
  · rcases b with _ | b
    · rfl
    · cases b <;> first | rfl | exact absurd h (by decide)
  · rcases b with _ | b
    · cases a <;> first | rfl | exact absurd h (by decide)
    · cases a <;> cases b <;> first | rfl | exact absurd h (by decide)

theorem colon_not_mem_segments {f : List Char × Option (List Char)}
    (hf : f ∈ segments hash query) {v : List Char} (hv : f.2 = some v) : ':' ∉ v := by
  simp only [segments, List.mem_cons, List.not_mem_nil, or_false] at hf
  rcases hf with rfl | rfl | rfl | rfl
  · obtain ⟨kw, -, rfl⟩ := Option.map_eq_some_iff.1 hv
    exact colon_not_mem_hexOf hash kw
  · obtain ⟨role, -, rfl⟩ := Option.map_eq_some_iff.1 hv
    cases role <;> decide
  · have hsort : ∀ s, sortSegment s = some v → ':' ∉ v := by
      rintro (_ | s) hs
      · cases hs
      · have hdebug : ∀ s : ParticipantSortBy, ':' ∉ s.debug := by
          rintro (_ | _ | _) <;> decide
        cases s <;> cases hs <;> exact hdebug _
    exact hsort _ hv
  · have horder : ∀ o, orderSegment o = some v → ':' ∉ v := by
      rintro (_ | o) ho
      · cases ho
      · have hdebug : ∀ o : Order, ':' ∉ o.debug := by rintro (_ | _) <;> decide
        cases o with
        | desc => cases ho
        | asc =>
          cases ho
          exact hdebug _
    exact horder _ hv

theorem part_segments {p : List Char} (hp : p ∈ fields (segments hash query)) :
    ':' ∉ p ∧ p ≠ [] := by
  obtain ⟨f, hf, v, hv, rfl⟩ := mem_fields.1 hp
  have hcolon := colon_not_mem_segments hf hv
  have hcolon' := (mem_tags hf).1
  simp [hcolon, hcolon']

theorem agree_of_build {pre : List Char}
    (h : build hash pre broadcastId query = build hash pre broadcastId' query') :
    Agree hash broadcastId broadcastId' query query' := by
  unfold build at h
  have htext := String.ofList_injective h
  simp only [List.append_assoc, List.append_cancel_left_eq] at htext
  obtain ⟨hid, htext⟩ := List.append_inj htext (by rw [Uuid.length_text, Uuid.length_text])
  rw [List.append_cancel_left_eq] at htext
  have hfields := intercalate_inj (fun p hp => part_segments hp) (fun p hp => part_segments hp)
    htext
  have hsegments : segments hash query = segments hash query' := by
    refine fields_inj (by rw [tags_segments, tags_segments]) ?_ (fun f hf => (mem_tags hf).2)
      hfields
    rw [tags_segments]
    decide
  simp only [segments, List.cons.injEq, Prod.mk.injEq, true_and, and_true] at hsegments
  obtain ⟨hkw, hrole, hsort, -⟩ := hsegments
  exact {
    id := Uuid.text_inj hid
    keywords := map_hash_of_hexOf hkw
    role := Option.map_injective (fun _ _ => ParticipantRole.debug_inj) hrole
    sort := sortSegment_inj hsort }

theorem agree_of_all (h : all hash broadcastId query = all hash broadcastId' query') :
    Agree hash broadcastId broadcastId' query query' :=
  agree_of_build h

end ParticipantListCacheKey

end Meno
