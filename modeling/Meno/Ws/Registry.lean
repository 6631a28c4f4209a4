import Meno.Lib.Timeline
import Meno.Ws.Hub

/-!
# Meno.Ws.Registry

Calls of `register` and `unregister` that overlap. `register` holds one guard of `clients` for all it
does; `unregister` takes two, one after the other: it drops the connection from the entry of its user,
and removes the entry when it has found it empty. `registry_kept_iff` says in which runs of these
sections no connection is lost.
-/

namespace Meno.Ws

open Lib

namespace WsService

variable (h : WsService)

def connectionCount (userId : Uuid) : Nat := (h.senders userId).length

/-- The `conn_id`s of a user's connections. -/
def connIds (userId : Uuid) : List Nat := (h.senders userId).map ConnectionSender.connId

variable {h} {u v : Uuid} {c : Nat}

theorem length_connIds : (h.connIds u).length = h.connectionCount u := List.length_map ..

theorem register_none (hfull : maxWsConnectionsPerUser ≤ h.connectionCount u) :
    h.register u = (none, h) := if_pos hfull

theorem connIds_register (hfits : h.connectionCount u < maxWsConnectionsPerUser) :
    (h.register u).2.connIds v = if v = u then h.connIds u ++ [h.connSeq] else h.connIds v := by
  have hshort : (h.senders u).length < maxWsConnectionsPerUser := hfits
  simp only [connIds, senders_register, hshort, and_true]
  split
  · simp
  · rfl

theorem register_some (hfits : h.connectionCount u < maxWsConnectionsPerUser) :
    (h.register u).1 = some h.connSeq ∧ (h.register u).2.connSeq = h.connSeq + 1 := by
  have hshort : ¬maxWsConnectionsPerUser ≤ (h.senders u).length := Nat.not_le.2 hfits
  rw [register, if_neg hshort]
  exact ⟨rfl, rfl⟩

theorem connIds_retainOthers : (h.retainOthers u c).2.connIds v =
    if v = u then (h.connIds u).filter fun c' => c' ≠ c else h.connIds v := by
  simp only [connIds, senders_retainOthers]
  split
  · rw [List.filter_map]
    rfl
  · rfl

theorem connSeq_retainOthers : (h.retainOthers u c).2.connSeq = h.connSeq := by
  simp only [retainOthers]
  split <;> rfl

theorem connIds_removeClient :
    (h.removeClient u).connIds v = if v = u then [] else h.connIds v := by
  simp only [connIds, senders_removeClient]
  split <;> rfl

theorem isOnline_put (client : Client) : { h with clients := h.clients.put client }.isOnline v =
    (decide (v = client.userId) || h.isOnline v) := by
  simp only [isOnline, Table.get_put]
  split
  · rename_i hv
    simp [hv]
  · rename_i hv
    simp [hv]

theorem isOnline_register (hfits : h.connectionCount u < maxWsConnectionsPerUser) :
    (h.register u).2.isOnline v = (decide (v = u) || h.isOnline v) := by
  have hshort : ¬maxWsConnectionsPerUser ≤ (h.senders u).length := Nat.not_le.2 hfits
  rw [register, if_neg hshort]
  exact isOnline_put _

theorem isOnline_retainOthers : (h.retainOthers u c).2.isOnline v = h.isOnline v := by
  cases hget : h.clients.get u with
  | none => simp only [retainOthers, hget]
  | some entry =>
    have hkey : entry.userId = u := Table.key_of_get hget
    simp only [retainOthers, hget, isOnline_put, hkey]
    by_cases hv : v = u
    · simp [hv, isOnline, hget]
    · simp [hv]

/-- `unregister` goes on when it has found the entry, and empty. -/
theorem retainOthers_fst : (h.retainOthers u c).1 =
    (h.isOnline u && ((h.connIds u).filter fun c' => c' ≠ c).isEmpty) := by
  cases hget : h.clients.get u with
  | none => simp [retainOthers, isOnline, hget]
  | some entry =>
    have hsenders : h.senders u = entry.senders := by rw [senders, hget]; rfl
    simp only [retainOthers, isOnline, hget, connIds, hsenders, List.filter_map,
      List.isEmpty_map, Option.isSome_some, Bool.true_and]
    rfl

theorem isOnline_removeClient :
    (h.removeClient u).isOnline v = (decide (v ≠ u) && h.isOnline v) := by
  simp only [isOnline, removeClient, Table.get_erase]
  split
  · rename_i hv
    simp [hv]
  · rename_i hv
    simp [hv]

/-- A user with a connection has an entry. -/
theorem isOnline_of_mem (hc : c ∈ h.connIds u) : h.isOnline u = true := by
  cases hget : h.clients.get u with
  | none =>
    have hnone : h.connIds u = [] := by rw [connIds, senders, hget]; rfl
    rw [hnone] at hc
    cases hc
  | some entry => rw [isOnline, hget]; rfl

end WsService

/-! ## The sections -/

/-- The maps of the instance, the calls of `unregister` that are between their two sections, which
connections have been registered, and which of them have not been unregistered since. -/
structure Registry where
  hub : WsService
  removing : List (Uuid × Nat)
  registered : List (Uuid × Nat)
  opened : List (Uuid × Nat)

inductive Section where
  | register (userId : Uuid)
  | retainOthers (userId : Uuid) (connId : Nat)
  | removeClient (userId : Uuid) (connId : Nat)

/-- The connection that a section of `unregister` is for. -/
def Section.unregisters : Section → Option (Uuid × Nat)
  | .register _ => none
  | .retainOthers u c => some (u, c)
  | .removeClient u c => some (u, c)

namespace Registry

def new : Registry where
  hub := .new
  removing := []
  registered := []
  opened := []

variable (s : Registry)

def register (userId : Uuid) : Registry :=
  match s.hub.register userId with
  | (none, _) => s
  | (some connId, hub) =>
    { s with
      hub
      registered := s.registered ++ [(userId, connId)]
      opened := s.opened ++ [(userId, connId)] }

def retainOthers (userId : Uuid) (connId : Nat) : Registry :=
  let (empty, hub) := s.hub.retainOthers userId connId
  { s with
    hub
    removing := if empty then (userId, connId) :: s.removing else s.removing
    opened := s.opened.filter fun p => p ≠ (userId, connId) }

/-- For a call that has got there. -/
def removeClient (userId : Uuid) (connId : Nat) : Registry :=
  if (userId, connId) ∈ s.removing then
    { s with
      hub := s.hub.removeClient userId
      removing := s.removing.erase (userId, connId) }
  else s

def step (s : Registry) : Section → Registry
  | .register u => s.register u
  | .retainOthers u c => s.retainOthers u c
  | .removeClient u c => s.removeClient u c

abbrev run (es : List Section) : Registry := es.foldl step new

/-! ## The property -/

/-- What is open is in `clients`. -/
def Listed (s : Registry) : Prop := ∀ u c, (u, c) ∈ s.opened → c ∈ s.hub.connIds u

structure Kept (s : Registry) : Prop where
  listed : s.Listed
  /-- No two connections have been given the same `conn_id`. -/
  given : (s.registered.map Prod.snd).Nodup
  unique : ∀ u, (s.hub.connIds u).Nodup ∧ ∀ c ∈ s.hub.connIds u, (u, c) ∈ s.registered
  bounded : ∀ u, s.hub.connectionCount u ≤ maxWsConnectionsPerUser
  online : s.removing = [] → ∀ u, s.hub.isOnline u = true ↔ 0 < s.hub.connectionCount u

/-- No other connection is removed. -/
def KeepsOthers (s : Registry) (e : Section) : Prop :=
  ∀ u c, e.unregisters ≠ some (u, c) → c ∈ s.hub.connIds u → c ∈ (s.step e).hub.connIds u

/-- A call removes the entry when the user has no open connection. -/
def RemovesUnused (s : Registry) : Section → Prop
  | .register _ => True
  | .retainOthers _ _ => True
  | .removeClient u c => (u, c) ∈ s.removing → ∀ c', (u, c') ∉ s.opened

/-! ## Steps -/

variable {s} {u v : Uuid} {c c' : Nat}

theorem register_of_full (hfull : maxWsConnectionsPerUser ≤ s.hub.connectionCount u) :
    s.register u = s := by
  rw [register, WsService.register_none hfull]

theorem register_of_fits (hfits : s.hub.connectionCount u < maxWsConnectionsPerUser) :
    s.register u = { s with
      hub := (s.hub.register u).2
      registered := s.registered ++ [(u, s.hub.connSeq)]
      opened := s.opened ++ [(u, s.hub.connSeq)] } := by
  have hsome := (WsService.register_some hfits).1
  unfold register
  split
  · rename_i hnone
    rw [hnone] at hsome
    cases hsome
  · rename_i connId hub heq
    rw [heq] at hsome ⊢
    cases hsome
    rfl

theorem removeClient_of_mem (hc : (u, c) ∈ s.removing) : s.removeClient u c = { s with
    hub := s.hub.removeClient u
    removing := s.removing.erase (u, c) } := if_pos hc

theorem removeClient_of_not (hc : (u, c) ∉ s.removing) : s.removeClient u c = s := if_neg hc

/-- The two sections in a row are what `unregister` does. -/
theorem unregister_eq (hc : (u, c) ∉ s.removing) :
    ((s.retainOthers u c).removeClient u c).hub = s.hub.unregister u c := by
  have hremoving : (s.retainOthers u c).removing =
      if (s.hub.retainOthers u c).1 then (u, c) :: s.removing else s.removing := rfl
  have hhub : (s.retainOthers u c).hub = (s.hub.retainOthers u c).2 := rfl
  unfold WsService.unregister
  split
  · rename_i hub heq
    rw [heq] at hremoving hhub
    rw [removeClient_of_mem (by rw [hremoving]; exact List.mem_cons_self ..), hhub]
  · rename_i hub heq
    rw [heq] at hremoving hhub
    rw [removeClient_of_not (by rw [hremoving]; exact hc), hhub]

/-! ## What always holds -/

/-- The invariant. An entry without connections waits for the second section of some call. -/
structure Inv (s : Registry) : Prop where
  fresh : ∀ p ∈ s.registered, p.2 < s.hub.connSeq
  given : (s.registered.map Prod.snd).Nodup
  opened : ∀ p ∈ s.opened, p ∈ s.registered
  unique : ∀ u, (s.hub.connIds u).Nodup ∧ ∀ c ∈ s.hub.connIds u, (u, c) ∈ s.opened
  bounded : ∀ u, s.hub.connectionCount u ≤ maxWsConnectionsPerUser
  entries : ∀ u, s.hub.isOnline u = true → s.hub.connIds u = [] → ∃ c, (u, c) ∈ s.removing

theorem inv_new : new.Inv where
  fresh _ hp := nomatch hp
  given := .nil
  opened _ hp := nomatch hp
  unique _ := ⟨.nil, fun _ hc => nomatch hc⟩
  bounded _ := Nat.zero_le _
  entries _ hu := nomatch hu

theorem Inv.register (h : s.Inv) (u : Uuid) : (s.register u).Inv := by
  rcases Nat.lt_or_ge (s.hub.connectionCount u) maxWsConnectionsPerUser with hfits | hfull
  · rw [register_of_fits hfits]
    have hnew : ∀ v, s.hub.connSeq ∉ s.hub.connIds v := by
      intro v hmem
      exact Nat.lt_irrefl _ (h.fresh _ (h.opened _ ((h.unique v).2 _ hmem)))
    constructor
    · intro p hp
      rw [(WsService.register_some hfits).2]
      rcases List.mem_append.1 hp with hp | hp
      · exact Nat.lt_succ_of_lt (h.fresh p hp)
      · rw [List.mem_singleton.1 hp]
        exact Nat.lt_succ_self _
    · rw [List.map_append]
      refine List.Nodup.append h.given (List.nodup_singleton _) ?_
      intro c hold hc
      obtain ⟨p, hp, rfl⟩ := List.mem_map.1 hold
      have hlt := h.fresh p hp
      rw [List.mem_singleton.1 hc] at hlt
      exact Nat.lt_irrefl _ hlt
    · intro p hp
      rcases List.mem_append.1 hp with hp | hp
      · exact List.mem_append_left _ (h.opened p hp)
      · exact List.mem_append_right _ hp
    · intro v
      rw [WsService.connIds_register hfits]
      split
      · rename_i hv
        subst hv
        refine ⟨List.Nodup.append (h.unique v).1 (List.nodup_singleton _) ?_, ?_⟩
        · intro c hold hc
          rw [List.mem_singleton.1 hc] at hold
          exact hnew v hold
        · intro c hc
          rcases List.mem_append.1 hc with hc | hc
          · exact List.mem_append_left _ ((h.unique v).2 c hc)
          · rw [List.mem_singleton.1 hc]
            exact List.mem_append_right _ (List.mem_singleton.2 rfl)
      · exact ⟨(h.unique v).1, fun c hc => List.mem_append_left _ ((h.unique v).2 c hc)⟩
    · intro v
      rw [← WsService.length_connIds, WsService.connIds_register hfits]
      split
      · rw [List.length_append, WsService.length_connIds]
        exact hfits
      · rw [WsService.length_connIds]
        exact h.bounded v
    · intro v hv hnone
      rw [WsService.connIds_register hfits] at hnone
      rw [WsService.isOnline_register hfits] at hv
      split at hnone
      · exact absurd hnone (by simp)
      · rename_i hne
        exact h.entries v (by simpa [hne] using hv) hnone
  · rwa [register_of_full hfull]

theorem Inv.retainOthers (h : s.Inv) (u : Uuid) (c : Nat) : (s.retainOthers u c).Inv := by
  have hsub : ∀ v, ((s.hub.retainOthers u c).2.connIds v).Sublist (s.hub.connIds v) := by
    intro v
    rw [WsService.connIds_retainOthers]
    split
    · rename_i hv
      rw [hv]
      exact List.filter_sublist
    · exact List.Sublist.refl _
  constructor
  · intro p hp
    have hseq : (s.retainOthers u c).hub.connSeq = s.hub.connSeq := WsService.connSeq_retainOthers
    rw [hseq]
    exact h.fresh p hp
  · exact h.given
  · exact fun p hp => h.opened p (List.mem_of_mem_filter hp)
  · intro v
    refine ⟨(h.unique v).1.sublist (hsub v), fun c' hc' => ?_⟩
    refine List.mem_filter.2 ⟨(h.unique v).2 c' ((hsub v).subset hc'), ?_⟩
    have hkept : c' ∈ (s.hub.retainOthers u c).2.connIds v := hc'
    rw [WsService.connIds_retainOthers] at hkept
    simp only [ne_eq, Prod.mk.injEq, not_and, decide_eq_true_eq]
    intro hv
    rw [if_pos hv] at hkept
    simpa using (List.mem_filter.1 hkept).2
  · intro v
    have hle := (hsub v).length_le
    rw [WsService.length_connIds, WsService.length_connIds] at hle
    exact Nat.le_trans hle (h.bounded v)
  · intro v hv hnone
    have hremoving : (s.retainOthers u c).removing =
        if (s.hub.retainOthers u c).1 then (u, c) :: s.removing else s.removing := rfl
    have honline : s.hub.isOnline v = true := by
      rw [← WsService.isOnline_retainOthers (h := s.hub)]
      exact hv
    have hids : (s.hub.retainOthers u c).2.connIds v = [] := hnone
    rw [WsService.connIds_retainOthers] at hids
    rw [hremoving]
    split at hids
    · rename_i hvu
      subst hvu
      have hempty : (s.hub.retainOthers v c).1 = true := by
        rw [WsService.retainOthers_fst, honline, hids]
        rfl
      rw [if_pos hempty]
      exact ⟨c, List.mem_cons_self ..⟩
    · obtain ⟨c', hc'⟩ := h.entries v honline hids
      refine ⟨c', ?_⟩
      split
      · exact List.mem_cons_of_mem _ hc'
      · exact hc'

theorem Inv.removeClient (h : s.Inv) (u : Uuid) (c : Nat) : (s.removeClient u c).Inv := by
  by_cases hc : (u, c) ∈ s.removing
  · rw [removeClient_of_mem hc]
    constructor
    · exact h.fresh
    · exact h.given
    · exact h.opened
    · intro v
      rw [WsService.connIds_removeClient]
      split
      · exact ⟨.nil, fun c' hc' => nomatch hc'⟩
      · exact h.unique v
    · intro v
      rw [← WsService.length_connIds, WsService.connIds_removeClient]
      split
      · exact Nat.zero_le _
      · rw [WsService.length_connIds]
        exact h.bounded v
    · intro v hv hnone
      rw [WsService.isOnline_removeClient, Bool.and_eq_true, decide_eq_true_eq] at hv
      rw [WsService.connIds_removeClient, if_neg hv.1] at hnone
      obtain ⟨c', hc'⟩ := h.entries v hv.2 hnone
      have hne : (v, c') ≠ (u, c) := fun hsame => hv.1 (congrArg Prod.fst hsame)
      exact ⟨c', (List.mem_erase_of_ne hne).2 hc'⟩
  · rwa [removeClient_of_not hc]

theorem Inv.step (h : s.Inv) (e : Section) : (s.step e).Inv := by
  cases e with
  | register u => exact h.register u
  | retainOthers u c => exact h.retainOthers u c
  | removeClient u c => exact h.removeClient u c

theorem Inv.kept (h : s.Inv) (hlisted : s.Listed) : s.Kept where
  listed := hlisted
  given := h.given
  unique u := ⟨(h.unique u).1, fun c hc => h.opened _ ((h.unique u).2 c hc)⟩
  bounded := h.bounded
  online hnone u := by
    rw [← WsService.length_connIds, List.length_pos_iff]
    constructor
    · intro hu hids
      obtain ⟨c, hc⟩ := h.entries u hu hids
      rw [hnone] at hc
      cases hc
    · intro hids
      obtain ⟨c, hc⟩ := List.exists_mem_of_ne_nil _ hids
      exact WsService.isOnline_of_mem hc

/-! ## What a section does to the others' connections -/

/-- The entry is removed when there is nothing in it that has to stay. -/
theorem Listed.step (h : s.Listed) {e : Section} (he : s.RemovesUnused e) : (s.step e).Listed := by
  cases e with
  | register w =>
    show (s.register w).Listed
    rcases Nat.lt_or_ge (s.hub.connectionCount w) maxWsConnectionsPerUser with hfits | hfull
    · rw [register_of_fits hfits]
      intro u c hopen
      rw [WsService.connIds_register hfits]
      rcases List.mem_append.1 hopen with hold | hnew
      · have hmem := h u c hold
        split
        · rename_i hu
          rw [← hu]
          exact List.mem_append_left _ hmem
        · exact hmem
      · cases List.mem_singleton.1 hnew
        rw [if_pos rfl]
        exact List.mem_append_right _ (List.mem_singleton.2 rfl)
    · rwa [register_of_full hfull]
  | retainOthers w d =>
    intro u c hopen
    obtain ⟨hold, hne⟩ := List.mem_filter.1 hopen
    have hids : (s.step (.retainOthers w d)).hub.connIds u =
        if u = w then (s.hub.connIds w).filter fun c' => c' ≠ d else s.hub.connIds u :=
      WsService.connIds_retainOthers
    rw [hids]
    split
    · rename_i hu
      subst hu
      refine List.mem_filter.2 ⟨h u c hold, ?_⟩
      simpa using hne
    · exact h u c hold
  | removeClient w d =>
    show (s.removeClient w d).Listed
    by_cases hd : (w, d) ∈ s.removing
    · rw [removeClient_of_mem hd]
      intro u c hopen
      have hu : u ≠ w := by
        rintro rfl
        exact he hd c hopen
      rw [WsService.connIds_removeClient, if_neg hu]
      exact h u c hopen
    · rwa [removeClient_of_not hd]

/-- Where what is open stays listed, and nothing else was listed, only the connection that is
unregistered goes. -/
theorem Inv.keepsOthers (h : s.Inv) {e : Section} (hlisted : (s.step e).Listed) :
    s.KeepsOthers e := by
  intro u c hother hc
  have hopen : (u, c) ∈ s.opened := (h.unique u).2 c hc
  refine hlisted u c ?_
  cases e with
  | register w =>
    show (u, c) ∈ (s.register w).opened
    rcases Nat.lt_or_ge (s.hub.connectionCount w) maxWsConnectionsPerUser with hfits | hfull
    · rw [register_of_fits hfits]
      exact List.mem_append_left _ hopen
    · rwa [register_of_full hfull]
  | retainOthers w d =>
    refine List.mem_filter.2 ⟨hopen, ?_⟩
    rw [decide_eq_true_eq]
    rintro ⟨⟩
    exact hother rfl
  | removeClient w d =>
    show (u, c) ∈ (s.removeClient w d).opened
    by_cases hd : (w, d) ∈ s.removing
    · rwa [removeClient_of_mem hd]
    · rwa [removeClient_of_not hd]

/-- An entry in use is not removed without loss. -/
theorem removesUnused_of_listed {e : Section} (hlisted : (s.step e).Listed) : s.RemovesUnused e := by
  cases e with
  | register w => trivial
  | retainOthers w d => trivial
  | removeClient w d =>
    intro hd c hopen
    have hafter : (s.removeClient w d).Listed := hlisted
    rw [removeClient_of_mem hd] at hafter
    have hmem := hafter w c hopen
    rw [WsService.connIds_removeClient, if_pos rfl] at hmem
    cases hmem

end Registry

open Registry

/-- In every run of the sections, and in no other run, all is kept when no call removes the entry of a
user who has an open connection again. -/
theorem registry_kept_iff (es : List Section) :
    ((∀ n, (run (es.take n)).Kept) ∧ Along step KeepsOthers new es) ↔
      Along step RemovesUnused new es := by
  rw [forall_take_iff]
  constructor
  · rintro ⟨⟨-, hkept⟩, -⟩
    exact Along.mono (fun _ _ h => removesUnused_of_listed h.listed) hkept
  · intro hes
    have hstep : ∀ s e, (s.Inv ∧ s.Listed) → RemovesUnused s e → (s.step e).Inv ∧ (s.step e).Listed :=
      fun s e h he => ⟨h.1.step e, h.2.step he⟩
    have hnew : new.Inv ∧ new.Listed := ⟨inv_new, fun _ _ hc => nomatch hc⟩
    refine ⟨⟨hnew.1.kept hnew.2, ?_⟩, ?_⟩
    · refine Along.of_invariant hstep (fun s e h he => ?_) hnew hes
      exact (h.1.step e).kept (h.2.step he)
    · exact Along.of_invariant hstep (fun s e h he => h.1.keepsOthers (h.2.step he)) hnew hes

/-- A user comes back while the only connection is being unregistered. -/
def comingBack : List Section :=
  [.register ⟨1⟩, .retainOthers ⟨1⟩ 0, .register ⟨1⟩, .removeClient ⟨1⟩ 0]

/-- The second connection is lost. -/
theorem connection_lost : ¬((∀ n, (run (comingBack.take n)).Kept) ∧
    Along step KeepsOthers new comingBack) := by
  rintro ⟨hkept, -⟩
  have hopen : (⟨1⟩, 1) ∈ (run (comingBack.take 4)).opened := by decide
  have hmem := (hkept 4).listed ⟨1⟩ 1 hopen
  have hnone : (run (comingBack.take 4)).hub.connIds ⟨1⟩ = [] := by decide
  rw [hnone] at hmem
  cases hmem

end Meno.Ws
