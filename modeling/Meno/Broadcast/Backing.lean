import Meno.Broadcast.Writes
import Meno.Lib.Provenance

/-!
# Meno.Broadcast.Backing

What an operation of the broadcast service has been answered before it writes. Who changes, starts,
ends or deletes a broadcast, or appoints and dismisses cohosts, has found the broadcast and is its
creator; who joins has found somebody else's, and is a cohost there only if the list of cohosts said
so. `backed_prog` follows all programs.
-/

namespace Meno

open Lib BroadcastService

/-! ## Answers -/

/-- What an answer tells: the broadcast that was found or stored under an id, a user, and who is on
a list of cohosts. -/
inductive Sighting where
  | found (id : Uuid) (b : Broadcast)
  | stored (id : Uuid) (b : Broadcast)
  | user (id : Uuid) (u : UserSummary)
  | cohost (broadcastId userId : Uuid)

namespace Sighting

def learned : {β : Type} → Cmd BroadcastStmt DbError β → β → List Sighting
  | _, .exec .pool (.findById id), .ok (some b) => [.found id b]
  | _, .exec .tx (.create id _), .ok b => [.stored id b]
  | _, .exec .tx (.update input), .ok b => [.stored input.broadcastId b]
  | _, .exec .pool (.findUserSummary id), .ok (some u) => [.user id u]
  | _, .exec .pool (.isCohost id u), .ok true => [.cohost id u]
  | _, _, _ => []

def observe {β : Type} (c : Cmd BroadcastStmt DbError β) (b : β) (g : List Sighting) :
    List Sighting :=
  learned c b ++ g

end Sighting

/-! ## What an operation may do -/

namespace BroadcastOp

/-- The broadcast that an operation controls, and in whose name. -/
def controls : BroadcastOp → Option (Uuid × Uuid)
  | .update _ _ id u => some (id, u)
  | .delete id u => some (id, u)
  | .start _ id u => some (id, u)
  | .endBroadcast _ id u => some (id, u)
  | .addCohost _ id requesterId _ => some (id, requesterId)
  | .removeCohost _ id _ requesterId _ => some (id, requesterId)
  | _ => none

/-- The broadcast that an operation enters or leaves. -/
def attends : BroadcastOp → Option Uuid
  | .join _ id _ => some id
  | .leave _ id _ => some id
  | _ => none

/-- The operation asks in the name of `c` that the user be a cohost of the broadcast. -/
inductive Names : BroadcastOp → (id c userId : Uuid) → Prop
  | create {now later : OffsetDateTime} {id c u : Uuid} {req : CreateBroadcastRequest} :
      u ∈ req.cohosts.getD [] → Names (.create now later id req c) id c u
  | update {now : OffsetDateTime} {id c u : Uuid} {req : UpdateBroadcastRequest} :
      u ∈ req.cohosts.getD [] → Names (.update now req id c) id c u
  | addCohost {now : OffsetDateTime} {id c u : Uuid} : Names (.addCohost now id c u) id c u

variable (known : Sighting → Prop)

/-- The operation is one that only a creator may make, and the broadcast has been found to be the
requester's. -/
def ByCreator (op : BroadcastOp) (id : Uuid) : Prop :=
  ∃ b, op.controls = some (id, b.creatorId) ∧ known (.found id b)

/-- Who puts whom on a list of cohosts: the creator, or who creates the broadcast. -/
inductive Invites : BroadcastOp → (id c userId : Uuid) → Prop
  | create {now later : OffsetDateTime} {id c u : Uuid} {req : CreateBroadcastRequest}
      {b : Broadcast} : u ∈ req.cohosts.getD [] → known (.stored id b) →
      Invites (.create now later id req c) b.id c u
  | update {now : OffsetDateTime} {id u : Uuid} {req : UpdateBroadcastRequest}
      {b b' : Broadcast} : u ∈ req.cohosts.getD [] → known (.found id b) → known (.stored id b') →
      Invites (.update now req id b.creatorId) b'.id b.creatorId u
  | addCohost {now : OffsetDateTime} {id u : Uuid} {b : Broadcast} : known (.found id b) →
      Invites (.addCohost now id b.creatorId u) id b.creatorId u

/-- Who gives whom which role. -/
inductive GivesRole : BroadcastOp → (id userId : Uuid) → ParticipantRole → Prop
  | start {now : OffsetDateTime} {id : Uuid} {b : Broadcast} {u : UserSummary} :
      known (.found id b) → known (.user b.creatorId u) →
      GivesRole (.start now id b.creatorId) id u.id .host
  | joinAsCohost {now : OffsetDateTime} {id u : Uuid} {b : Broadcast} : known (.found id b) →
      b.creatorId ≠ u → known (.cohost id u) → GivesRole (.join now id u) id u .cohost
  | join {now : OffsetDateTime} {id u : Uuid} {b : Broadcast} : known (.found id b) →
      b.creatorId ≠ u → GivesRole (.join now id u) id u .participant
  | addCohost {now : OffsetDateTime} {id u : Uuid} {b : Broadcast} : known (.found id b) →
      b.creatorId ≠ u → GivesRole (.addCohost now id b.creatorId u) id u .cohost
  | removeCohost {now : OffsetDateTime} {id u : Uuid} {b : Broadcast} {fromRoom : Bool} :
      known (.found id b) →
      GivesRole (.removeCohost now id u b.creatorId fromRoom) id u .participant

/-- What the statements of an operation need. -/
def May (op : BroadcastOp) : {β : Type} → Cmd BroadcastStmt DbError β → List Sighting → Prop
  | _, .exec _ (.create id input), _ =>
    ∃ now later req, op = .create now later id req input.creatorId
  | _, .exec _ (.update input), g => op.ByCreator (· ∈ g) input.broadcastId
  | _, .exec _ (.delete id), g => op.ByCreator (· ∈ g) id
  | _, .exec _ (.setActive input), g => op.ByCreator (· ∈ g) input.broadcastId
  | _, .exec _ (.setInactive id _), g => op.ByCreator (· ∈ g) id
  | _, .exec _ (.addCohosts id us c), g => ∀ u ∈ us, op.Invites (· ∈ g) id c u
  | _, .exec _ (.removeCohost id _), g => op.ByCreator (· ∈ g) id
  | _, .exec _ (.upsertParticipant input), g =>
    op.GivesRole (· ∈ g) input.broadcastId input.participantId input.role
  | _, .exec _ (.removeParticipant id u), g =>
    op.ByCreator (· ∈ g) id ∨ ∃ now, op = .leave now id u
  | _, .exec _ (.getParticipantIdsAndClear id), g =>
    op.ByCreator (· ∈ g) id ∧ ∃ now u, op = .endBroadcast now id u
  | _, _, _ => True

/-- Calls that the operation may make without having seen anything. -/
def MayAlways (op : BroadcastOp) {β : Type} (c : Cmd BroadcastStmt DbError β) : Prop :=
  ∀ g, op.May c g

variable {known known' : Sighting → Prop} {op : BroadcastOp} {id c u : Uuid}

theorem ByCreator.mono (hk : ∀ f, known f → known' f) (h : op.ByCreator known id) :
    op.ByCreator known' id := by
  obtain ⟨b, hop, hfound⟩ := h
  exact ⟨b, hop, hk _ hfound⟩

theorem Invites.mono (hk : ∀ f, known f → known' f) (h : op.Invites known id c u) :
    op.Invites known' id c u := by
  cases h with
  | create hu hstored => exact .create hu (hk _ hstored)
  | update hu hfound hstored => exact .update hu (hk _ hfound) (hk _ hstored)
  | addCohost hfound => exact .addCohost (hk _ hfound)

theorem GivesRole.mono {role : ParticipantRole} (hk : ∀ f, known f → known' f)
    (h : op.GivesRole known id u role) : op.GivesRole known' id u role := by
  cases h with
  | start hfound huser => exact .start (hk _ hfound) (hk _ huser)
  | joinAsCohost hfound hother hcohost => exact .joinAsCohost (hk _ hfound) hother (hk _ hcohost)
  | join hfound hother => exact .join (hk _ hfound) hother
  | addCohost hfound hother => exact .addCohost (hk _ hfound) hother
  | removeCohost hfound => exact .removeCohost (hk _ hfound)

/-! ## Programs -/

theorem always_read {β : Type} (s : BroadcastStmt β) (hs : s.isRead = true) :
    op.MayAlways (.exec .pool s : Cmd BroadcastStmt DbError _) := by
  intro g
  cases s <;> first
    | exact absurd hs Bool.false_ne_true
    | trivial

/-- The program makes its calls with what it has seen. -/
abbrev Backed {α : Type} (op : BroadcastOp) (x : BroadcastSvc α) (Q : α → List Sighting → Prop)
    (g : List Sighting) : Prop :=
  Act.Guarded op.May Sighting.observe x Q g

section Backed

variable {g : List Sighting} {α β : Type} {f : α → BroadcastSvc β} {Q : β → List Sighting → Prop}

theorem backed_always {x : BroadcastSvc α} (h : Act.Uses op.MayAlways x) :
    op.Backed x (fun _ _ => True) g :=
  Prog.guarded_of_uses (fun _ g hc => hc g) h (fun _ _ _ _ => trivial) g

/-- What comes before needs nothing, and nothing is forgotten. -/
theorem backed_after {x : BroadcastSvc α} (hx : Act.Uses op.MayAlways x)
    (h : ∀ a g', g ⊆ g' → op.Backed (f a) Q g') : op.Backed (x >>= f) Q g := by
  refine Act.guarded_bind (Prog.guarded_mono ?_ (Prog.guarded_grow (I := fun g g' => g ⊆ g')
    (fun _ => List.Subset.refl _) (fun _ _ _ => List.Subset.trans)
    (fun _ _ _ => List.subset_append_right _ _) (backed_always hx)))
  rintro r g' ⟨hsub, -⟩ a rfl
  exact h a g' hsub

theorem backed_query {e : Executor} {s : BroadcastStmt α}
    (hmay : op.May (.exec e s : Cmd BroadcastStmt DbError _) g)
    (h : ∀ a, op.Backed (f a) Q (Sighting.observe (.exec e s) (.ok a) g)) :
    op.Backed (query e s >>= f) Q g :=
  Act.guarded_bind (Act.guarded_ask hmay h)

theorem backed_lookup {s : BroadcastStmt α} {f : Except BroadcastError α → BroadcastSvc β}
    (hs : s.isRead = true)
    (h : ∀ r g', g ⊆ g' →
      (∀ a, r = .ok a → Sighting.learned (.exec .pool s) (.ok a) ⊆ g') → op.Backed (f r) Q g') :
    op.Backed (lookup s >>= f) Q g := by
  refine Act.guarded_bind ⟨always_read s hs g, ?_⟩
  rintro (e | a) r ⟨⟩
  · exact h _ _ (List.subset_append_right _ _) fun _ he => by cases he
  · refine h _ _ (List.subset_append_right _ _) fun _ he => ?_
    cases he
    exact List.subset_append_left _ _

theorem backed_okOr {e : BroadcastError} {o : Option α}
    (h : ∀ a, o = some a → op.Backed (f a) Q g) : op.Backed (okOr e o >>= f) Q g := by
  cases o with
  | none => rintro _ ⟨⟩
  | some a => exact Act.guarded_bind (Act.guarded_pure (h a rfl))

theorem backed_found {e : BroadcastError} {r : Except BroadcastError (Option α)}
    (h : ∀ a, r = .ok (some a) → op.Backed (f a) Q g) : op.Backed (found e r >>= f) Q g := by
  cases r with
  | error err => rintro _ ⟨⟩
  | ok o => exact backed_okOr fun a ho => h a (by rw [ho])

theorem backed_outcome {r : Except BroadcastError α}
    (h : ∀ a, r = .ok a → op.Backed (f a) Q g) : op.Backed (Act.ofExcept r >>= f) Q g := by
  cases r with
  | error err => rintro _ ⟨⟩
  | ok a => exact Act.guarded_bind (Act.guarded_pure (h a rfl))

theorem backed_refuse {e : BroadcastError} {cond : Bool} {f : Unit → BroadcastSvc β}
    (h : cond = false → op.Backed (f ()) Q g) : op.Backed (refuse e cond >>= f) Q g := by
  cases cond with
  | true => rintro _ ⟨⟩
  | false => exact Act.guarded_bind (Act.guarded_pure (h rfl))

/-- The ownership test: what comes after it is the creator's. -/
theorem backed_creator {e : BroadcastError} {b : Broadcast} {f : Unit → BroadcastSvc β}
    (h : b.creatorId = u → op.Backed (f ()) Q g) :
    op.Backed (refuse e (b.creatorId != u) >>= f) Q g :=
  backed_refuse fun hc => h (by simpa using hc)

theorem backed_begin {f : Unit → BroadcastSvc β} (h : op.Backed (f ()) Q g) :
    op.Backed (beginTx >>= f) Q g :=
  Act.guarded_bind (Act.guarded_ask trivial fun _ => h)

theorem backed_addCohosts {us : List Uuid} {f : Unit → BroadcastSvc β}
    (hmay : ∀ u ∈ us, op.Invites (· ∈ g) id c u) (h : op.Backed (f ()) Q g) :
    op.Backed (addCohosts id us c >>= f) Q g := by
  unfold BroadcastService.addCohosts
  split
  · exact Act.guarded_bind (Act.guarded_pure h)
  · exact backed_query hmay fun _ => h

end Backed

/-! ## Operations -/

section Operations

variable {g : List Sighting} {now later : OffsetDateTime}

theorem backed_create {req : CreateBroadcastRequest} (hop : op = .create now later id req c) :
    op.Backed (BroadcastService.create now later id req c) (fun _ _ => True) g := by
  refine backed_query trivial fun live => backed_refuse fun _ => backed_refuse fun _ => ?_
  refine backed_after (uses_deduplicateCohosts always_read _ _) fun cohosts g _ => ?_
  refine backed_begin (backed_query ⟨now, later, req, hop⟩ fun b => ?_)
  refine backed_addCohosts (fun u hu => ?_) (backed_always ?_)
  · rw [hop]
    exact .create hu List.mem_cons_self
  · refine Act.uses_bind (uses_commit fun _ => trivial) fun _ => ?_
    refine Act.uses_bind (uses_query (always_read _ rfl)) fun _ => ?_
    exact Act.uses_bind (uses_okOr _ _) fun _ => Act.uses_pure _

theorem backed_update {req : UpdateBroadcastRequest} (hop : op = .update now req id c) :
    op.Backed (BroadcastService.update now req id c) (fun _ _ => True) g := by
  refine backed_lookup rfl fun rb g₁ _ hb => backed_lookup rfl fun rc g₂ hsub _ => ?_
  refine backed_found ?_
  rintro b rfl
  refine backed_found fun creator _ => backed_creator ?_
  rintro rfl
  have hfound : .found id b ∈ g₂ := hsub (hb _ rfl List.mem_cons_self)
  refine backed_refuse fun _ => ?_
  refine backed_after (uses_deduplicateCohosts always_read _ _) fun cohosts g hsub => ?_
  refine backed_begin (backed_query ⟨b, by rw [hop]; rfl, hsub hfound⟩ fun b' => ?_)
  refine backed_addCohosts (fun u hu => ?_) (backed_always ?_)
  · rw [hop]
    exact .update hu (List.mem_cons_of_mem _ (hsub hfound)) List.mem_cons_self
  · exact Act.uses_bind (uses_commit fun _ => trivial) fun _ => Act.uses_pure _

theorem backed_delete (hop : op = .delete id c) :
    op.Backed (BroadcastService.delete id c) (fun _ _ => True) g := by
  refine backed_lookup rfl fun rb g₁ _ hb => backed_lookup rfl fun rc g₂ hsub _ => ?_
  refine backed_found ?_
  rintro b rfl
  refine backed_found fun creator _ => ?_
  split
  · exact Act.guarded_pure trivial
  · refine backed_refuse fun _ => backed_creator ?_
    rintro rfl
    refine backed_query ⟨b, by rw [hop]; rfl, hsub (hb _ rfl List.mem_cons_self)⟩ fun _ => ?_
    exact Act.guarded_pure trivial

theorem backed_start (hop : op = .start now id c) :
    op.Backed (BroadcastService.start now id c) (fun _ _ => True) g := by
  refine backed_lookup rfl fun rb g₁ _ hb => backed_lookup rfl fun rc g₂ hsub hc => ?_
  refine backed_found ?_
  rintro b rfl
  refine backed_found ?_
  rintro creator rfl
  refine backed_creator ?_
  rintro rfl
  have hfound : .found id b ∈ g₂ := hsub (hb _ rfl List.mem_cons_self)
  have huser : .user b.creatorId creator ∈ g₂ := hc _ rfl List.mem_cons_self
  refine backed_refuse fun _ => backed_after (uses_createRoom always_read _) fun _ g₃ hsub₃ => ?_
  refine backed_after (uses_mintToken always_read _ _ _ _ _) fun token g₄ hsub₄ => ?_
  refine backed_begin (backed_query ⟨b, by rw [hop]; rfl, hsub₄ (hsub₃ hfound)⟩ fun row => ?_)
  refine backed_query ?_ fun _ => backed_always ?_
  · rw [hop]
    exact .start (hsub₄ (hsub₃ hfound)) (hsub₄ (hsub₃ huser))
  · refine Act.uses_bind (uses_commit fun _ => trivial) fun _ => ?_
    exact Act.uses_bind (uses_query (always_read _ rfl)) fun _ => Act.uses_pure _

theorem backed_endBroadcast (hop : op = .endBroadcast now id c) :
    op.Backed (BroadcastService.endBroadcast now id c) (fun _ _ => True) g := by
  refine backed_query trivial fun found => backed_okOr ?_
  rintro b rfl
  refine backed_creator ?_
  rintro rfl
  have hmay : op.ByCreator (· ∈ .found id b :: g) id :=
    ⟨b, by rw [hop]; rfl, List.mem_cons_self⟩
  refine backed_refuse fun _ => backed_begin ?_
  refine backed_query ⟨hmay, now, b.creatorId, hop⟩ fun _ => backed_query hmay fun _ => ?_
  refine backed_always (Act.uses_bind (uses_commit fun _ => trivial) fun _ => ?_)
  cases b.recordingEnabled with
  | true => exact Act.uses_bind (uses_existsOrFalse always_read rfl) fun _ => Act.uses_pure _
  | false => exact Act.uses_bind (Act.uses_pure _) fun _ => Act.uses_pure _

/-- `join` makes a cohost of whom it has found on the list, and of nobody else. -/
theorem givesRole_join {b : Broadcast} {isCohost : Bool} (hfound : .found id b ∈ g)
    (hother : b.creatorId ≠ u) (hcohost : isCohost = true → .cohost id u ∈ g) :
    GivesRole (· ∈ g) (.join now id u) id u (joinRole isCohost) := by
  cases isCohost with
  | true => exact .joinAsCohost hfound hother (hcohost rfl)
  | false => exact .join hfound hother

theorem backed_join (hop : op = .join now id u) :
    op.Backed (BroadcastService.join now id u) (fun _ _ => True) g := by
  refine backed_lookup rfl fun rb g₁ _ hb => backed_lookup rfl fun ru g₂ hsub₂ _ => ?_
  refine backed_lookup rfl fun rc g₃ hsub₃ hc => backed_lookup rfl fun rp g₄ hsub₄ _ => ?_
  refine backed_found ?_
  rintro b rfl
  refine backed_found fun user _ => backed_outcome ?_
  rintro isCohost rfl
  have hfound : .found id b ∈ g₄ := hsub₄ (hsub₃ (hsub₂ (hb _ rfl List.mem_cons_self)))
  have hcohost : isCohost = true → .cohost id u ∈ g₄ := by
    rintro rfl
    exact hsub₄ (hc _ rfl List.mem_cons_self)
  refine backed_refuse fun _ => backed_refuse fun hother => backed_outcome fun p _ => ?_
  refine backed_after (uses_alreadyIn _ _) fun _ g₅ hsub₅ => ?_
  refine backed_after (uses_mintToken always_read _ _ _ _ _) fun token g₆ hsub₆ => ?_
  refine backed_begin (backed_query ?_ fun _ => backed_always ?_)
  · rw [hop]
    exact givesRole_join (hsub₆ (hsub₅ hfound)) (by simpa using hother)
      fun h => hsub₆ (hsub₅ (hcohost h))
  · refine Act.uses_bind (uses_commit fun _ => trivial) fun _ => ?_
    refine Act.uses_bind (uses_lookup (always_read _ rfl)) fun _ => ?_
    refine Act.uses_bind (uses_lookup (always_read _ rfl)) fun _ => ?_
    refine Act.uses_bind (uses_lookup (always_read _ rfl)) fun _ => ?_
    refine Act.uses_bind (uses_found _ _) fun _ => Act.uses_bind (Act.uses_ofExcept _) fun _ => ?_
    refine Act.uses_bind (Act.uses_ofExcept _) fun _ => ?_
    refine Act.uses_bind (Act.uses_ask (always_read _ rfl)) fun _ => ?_
    exact Act.uses_bind (uses_buildCtx always_read _ _ _ _ _) fun _ => Act.uses_pure _

theorem backed_leave (hop : op = .leave now id u) :
    op.Backed (BroadcastService.leave now id u) (fun _ _ => True) g := by
  refine backed_after (uses_lookup (always_read _ rfl)) fun _ _ _ => ?_
  refine backed_after (uses_lookup (always_read _ rfl)) fun _ _ _ => ?_
  refine backed_after (uses_lookup (always_read _ rfl)) fun _ _ _ => ?_
  refine backed_found fun b _ => backed_found fun _ _ => backed_found fun p _ => ?_
  split
  · exact Act.guarded_pure trivial
  · exact backed_query (.inr ⟨now, hop⟩) fun _ => Act.guarded_pure trivial

theorem backed_addCohost (hop : op = .addCohost now id c u) :
    op.Backed (BroadcastService.addCohost now id c u) (fun _ _ => True) g := by
  refine backed_query trivial fun there => backed_refuse fun _ => ?_
  refine backed_lookup rfl fun rb g₁ _ hb => backed_lookup rfl fun ru g₂ hsub₂ _ => ?_
  refine backed_lookup rfl fun rc g₃ hsub₃ _ => ?_
  refine backed_found ?_
  rintro b rfl
  have hfound : .found id b ∈ g₃ := hsub₃ (hsub₂ (hb _ rfl List.mem_cons_self))
  refine backed_found fun cohost _ => backed_after (uses_refuseFull _) fun _ g₄ hsub₄ => ?_
  refine backed_refuse fun _ => backed_creator ?_
  rintro rfl
  refine backed_refuse fun hother => ?_
  refine backed_after (uses_mintToken always_read _ _ _ _ _) fun token g₅ hsub₅ => ?_
  refine backed_begin (backed_addCohosts (fun v hv => ?_) (backed_query ?_ fun _ => ?_))
  · rw [List.mem_singleton.1 hv, hop]
    exact .addCohost (hsub₅ (hsub₄ hfound))
  · rw [hop]
    exact .addCohost (hsub₅ (hsub₄ hfound)) (by simpa using hother)
  · exact backed_always (Act.uses_bind (uses_commit fun _ => trivial) fun _ => Act.uses_pure _)

theorem backed_removeCohost {fromRoom : Bool} (hop : op = .removeCohost now id u c fromRoom) :
    op.Backed (BroadcastService.removeCohost now id u c fromRoom) (fun _ _ => True) g := by
  refine backed_lookup rfl fun rb g₁ _ hb => backed_lookup rfl fun ru g₂ hsub₂ _ => ?_
  refine backed_lookup rfl fun ri g₃ hsub₃ _ => ?_
  refine backed_found ?_
  rintro b rfl
  have hfound : .found id b ∈ g₃ := hsub₃ (hsub₂ (hb _ rfl List.mem_cons_self))
  refine backed_found fun user _ => backed_outcome fun isCohost _ => ?_
  refine backed_refuse fun _ => backed_creator ?_
  rintro rfl
  have hmay : op.ByCreator (· ∈ g₃) id := ⟨b, by rw [hop]; rfl, hfound⟩
  split
  · exact Act.guarded_pure trivial
  refine backed_begin (backed_query hmay fun _ => ?_)
  cases fromRoom with
  | true =>
    refine backed_query (.inl hmay) fun _ => backed_always ?_
    refine Act.uses_bind (uses_commit fun _ => trivial) fun _ => ?_
    exact Act.uses_bind (uses_lookup (always_read _ rfl)) fun _ => Act.uses_pure _
  | false =>
    refine backed_query ?_ fun _ => backed_always ?_
    · rw [hop]
      exact .removeCohost hfound
    · refine Act.uses_bind (uses_commit fun _ => trivial) fun _ => ?_
      refine Act.uses_bind (uses_lookup (always_read _ rfl)) fun _ => ?_
      exact Act.uses_bind (uses_mintToken always_read _ _ _ _ _) fun _ => Act.uses_pure _

theorem always_refreshToken : Act.Uses op.MayAlways (BroadcastService.refreshToken now id u) := by
  refine Act.uses_bind (uses_lookup (always_read _ rfl)) fun _ => ?_
  refine Act.uses_bind (uses_lookup (always_read _ rfl)) fun _ => ?_
  refine Act.uses_bind (uses_lookup (always_read _ rfl)) fun _ => ?_
  refine Act.uses_bind (uses_found _ _) fun _ => Act.uses_bind (uses_found _ _) fun _ => ?_
  refine Act.uses_bind (uses_refuse _ _) fun _ => ?_
  refine Act.uses_bind (uses_currentRole _ _ _) fun _ => Act.uses_bind (uses_okOr _ _) fun _ => ?_
  exact Act.uses_bind (uses_mintToken always_read _ _ _ _ _) fun _ => Act.uses_pure _

theorem backed_prog (op : BroadcastOp) : op.Backed op.prog (fun _ _ => True) [] := by
  cases hop : op with
  | create now later id req c => exact Act.guarded_answer (backed_create rfl)
  | update now req id c => exact Act.guarded_answer (backed_update rfl)
  | delete id c => exact Act.guarded_answer (backed_delete rfl)
  | start now id c => exact Act.guarded_answer (backed_start rfl)
  | endBroadcast now id c => exact Act.guarded_answer (backed_endBroadcast rfl)
  | join now id u => exact Act.guarded_answer (backed_join rfl)
  | leave now id u => exact Act.guarded_answer (backed_leave rfl)
  | addCohost now id c u => exact Act.guarded_answer (backed_addCohost rfl)
  | removeCohost now id u c fromRoom => exact Act.guarded_answer (backed_removeCohost rfl)
  | refreshToken now id u => exact Act.guarded_answer (backed_always always_refreshToken)

end Operations

end BroadcastOp

end Meno
