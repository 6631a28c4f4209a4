import Meno.Lib.Provenance
import Meno.Lib.Tenants
import Meno.Settings.Service

/-!
# Meno.Settings.Changes

What the operations on settings and push tokens may write, and what they have been answered before.
A message is posted to a token that the sender has found, and a sender clears a token only after FCM
has refused one. `backed_prog` follows all programs.
-/

namespace Meno

open Lib

open Profiles (Settings)

/-! ## Rows under keys -/

inductive SettingsKey where
  | settings (userId : Uuid)
  | lookUp
  | post (userId : Uuid)
deriving DecidableEq

inductive SettingsRow where
  | settings (row : Settings)
  | lookUp (userIds : List Uuid)
  | post (p : Post)

def SettingsWrite.key : SettingsWrite → SettingsKey
  | .settings row => .settings row.userId
  | .lookUp _ => .lookUp
  | .post p => .post p.userId

def SettingsWrite.value : SettingsWrite → Option SettingsRow
  | .settings row => some (.settings row)
  | .lookUp us => some (.lookUp us)
  | .post p => some (.post p)

namespace SettingsDb

def look (db : SettingsDb) : SettingsKey → Option SettingsRow
  | .settings u => (db.settings.get u).map .settings
  | .lookUp => db.lookUp.map .lookUp
  | .post u => (db.posts.get u).map .post

theorem look_apply (db : SettingsDb) (w : SettingsWrite) (k : SettingsKey) :
    (db.apply w).look k = if k = w.key then w.value else db.look k := by
  cases w with
  | settings row =>
    cases k with
    | settings u =>
      simp only [look, apply, Table.get_put, SettingsWrite.key, SettingsWrite.value,
        SettingsKey.settings.injEq]
      split <;> rfl
    | lookUp => rfl
    | post u => rfl
  | lookUp us => cases k <;> rfl
  | post p =>
    cases k with
    | settings u => rfl
    | lookUp => rfl
    | post u =>
      simp only [look, apply, Table.get_put, SettingsWrite.key, SettingsWrite.value,
        SettingsKey.post.injEq]
      split <;> rfl

theorem settings_of_look {d d' : SettingsDb} {u : Uuid}
    (h : d.look (.settings u) = d'.look (.settings u)) : d.settings.get u = d'.settings.get u := by
  have hinj : Function.Injective (Option.map SettingsRow.settings) :=
    Option.map_injective fun _ _ he => SettingsRow.settings.inj he
  exact hinj h

/-- The token of a user. -/
def token (db : SettingsDb) (u : Uuid) : Option String :=
  (db.settings.get u).bind Settings.pushNotificationToken

end SettingsDb

variable (jsonb : Value → Except DbError Value)

def settingsKeyed : Keyed (settingsEngine jsonb) SettingsKey SettingsRow where
  key := SettingsWrite.key
  value := SettingsWrite.value
  look := SettingsDb.look
  look_apply := SettingsDb.look_apply

/-- The store after a history. -/
abbrev SettingsDb.after {ι : Type} (db : SettingsDb) (log : List (ι × SettingsWrite)) :
    SettingsDb :=
  (settingsEngine jsonb).applyAll db (log.map Prod.snd)

/-! ## What an operation may write -/

/-- The handler and the service let the request through. -/
structure UpdateSettingsRequest.Accepted (req : UpdateSettingsRequest) : Prop where
  fields : req.validate = []
  language : ∀ lang ∈ req.language, isLang lang = true

namespace SettingsOp

/-- Whose token an operation may come to clear. -/
def clearing : SettingsOp → Option Uuid
  | .clearPushToken u => some u
  | .pushTo u _ _ => some u
  | _ => none

/-- The operation may write this row in the place of the one that is there. -/
inductive Changes (op : SettingsOp) (db : SettingsDb) : Settings → Prop
  | inserts {u : Uuid} : op = .insertSettings u → db.settings.get u = none →
      Changes op db (.inserted u)
  | updates {u : Uuid} {body : UpdateSettingsRequest} {s : Settings} {preferences : Option Value} :
      op = .update u body → body.Accepted → db.settings.get u = some s →
      body.notificationPreferences.mapM jsonb = .ok preferences →
      Changes op db ((body.input u).set preferences s)
  | clears {u : Uuid} {s : Settings} : op.clearing = some u → db.settings.get u = some s →
      Changes op db s.withoutToken

/-- The message that an operation posts, when `us` are asked for and `u` has the token. -/
inductive Addresses : SettingsOp → (us : List Uuid) → (u : Uuid) → (token : String) → Post →
    Except PushError Unit → Prop
  | one {u : Uuid} {content : PushContent} {result : Except PushError Unit} {token : String} :
      Addresses (.pushTo u content result) [u] u token (content.toUser u token) result
  | many {us : List Uuid} {content : PushContent} {sends : SendOrder}
      {results : Uuid → Except PushError Unit} {u : Uuid} {token : String} :
      Addresses (.pushMany us content sends results) us u token (content.toDevice u token)
        (results u)

theorem Addresses.addressee {op : SettingsOp} {us : List Uuid} {u : Uuid} {token : String}
    {p : Post} {result : Except PushError Unit} (h : op.Addresses us u token p result) :
    p.userId = u ∧ p.message.token = token := by
  cases h <;> exact ⟨rfl, rfl⟩

end SettingsOp

/-! ## What an operation has been answered -/

/-- What an answer tells of the tokens: that one was found when these users were asked for, and that
FCM does not know one. -/
inductive PushFact where
  | found (us : List Uuid) (u : Uuid) (token : String)
  | rejected (p : Post) (result : Except PushError Unit)

namespace PushFact

def learned : {β : Type} → Cmd SettingsStmt DbError β → β → List PushFact
  | _, .exec .pool (.getPushToken u), .ok (some token) => [.found [u] u token]
  | _, .exec .pool (.getPushTokensBatch us), .ok tokens => tokens.map fun t => .found us t.1 t.2
  | _, .exec .pool (.send p result), .ok (.error .tokenInvalid) => [.rejected p result]
  | _, _, _ => []

def observe {β : Type} (c : Cmd SettingsStmt DbError β) (b : β) (g : List PushFact) :
    List PushFact :=
  learned c b ++ g

end PushFact

namespace SettingsOp

/-- What the statements of an operation need. -/
def May (op : SettingsOp) : {β : Type} → Cmd SettingsStmt DbError β → List PushFact → Prop
  | _, .exec _ (.update input), _ => ∃ u body, op = .update u body ∧ body.Accepted ∧
      input = body.input u
  | _, .exec _ (.clearPushToken u), g => op = .clearPushToken u ∨
      ∃ content result token, op = .pushTo u content result ∧
        .rejected (content.toUser u token) result ∈ g
  | _, .exec _ (.insertSettings u), _ => op = .insertSettings u
  | _, .exec e (.send p result), g => e = .pool ∧
      ∃ us u token, .found us u token ∈ g ∧ op.Addresses us u token p result
  | _, _, _ => True

abbrev Backed {α : Type} (op : SettingsOp) (x : SettingsSvc α) (Q : α → List PushFact → Prop)
    (g : List PushFact) : Prop :=
  Act.Guarded op.May PushFact.observe x Q g

section Programs

open SettingsService

variable {op : SettingsOp} {u : Uuid} {g : List PushFact}

theorem backed_ignore {β : Type} {s : SettingsStmt β}
    (hmay : op.May (.exec .pool s : Cmd SettingsStmt DbError _) g) :
    op.Backed (ignore s) (fun _ _ => True) g :=
  Act.guarded_bind (Act.guarded_attempt hmay fun _ => Act.guarded_pure trivial)

theorem backed_get : op.Backed (SettingsService.get u) (fun _ _ => True) g := by
  refine Act.guarded_bind (Act.guarded_ask trivial fun found => ?_)
  cases found with
  | none => rintro _ ⟨⟩
  | some s => exact Act.guarded_pure trivial

theorem backed_updateSettings {body : UpdateSettingsRequest} (hop : op = .update u body) :
    op.Backed (updateSettings u body) (fun _ _ => True) g := by
  unfold updateSettings
  split
  · rename_i hfields
    unfold SettingsService.update
    split
    · rintro _ ⟨⟩
    · rename_i hlang
      have haccepted : body.Accepted := by
        refine ⟨hfields, fun lang hmem => ?_⟩
        rw [Option.mem_def.1 hmem] at hlang
        simpa using hlang
      refine Act.guarded_bind (Act.guarded_ask ⟨u, body, hop, haccepted, rfl⟩ fun updated => ?_)
      refine Act.guarded_bind (Prog.guarded_mono ?_ (backed_ignore trivial))
      exact fun _ _ _ _ _ => Act.guarded_pure trivial
  · rintro _ ⟨⟩

theorem backed_clearPushToken (hop : op = .clearPushToken u) :
    op.Backed (SettingsService.clearPushToken u) (fun _ _ => True) g :=
  Act.guarded_bind (Act.guarded_ask (.inl hop) fun _ => backed_ignore trivial)

theorem backed_insertSettings (hop : op = .insertSettings u) :
    op.Backed (SettingsService.insertSettings u) (fun _ _ => True) g := by
  refine Act.guarded_bind (Act.guarded_ask trivial fun _ => ?_)
  exact Act.guarded_bind (Act.guarded_ask hop fun _ => Act.guarded_ask trivial fun _ => trivial)

theorem backed_sendToUser {content : PushContent} {result : Except PushError Unit}
    (hop : op = .pushTo u content result) :
    op.Backed (PushNotificationService.sendToUserIfEnabled u content result)
      (fun _ _ => True) g := by
  refine Act.guarded_bind (Act.guarded_attempt trivial ?_)
  rintro (e | _ | token)
  · exact Act.guarded_pure trivial
  · exact Act.guarded_pure trivial
  have hsends : op.Addresses [u] u token (content.toUser u token) result := by
    rw [hop]
    exact .one
  refine Act.guarded_bind (Act.guarded_attempt
    ⟨rfl, [u], u, token, List.mem_cons_self, hsends⟩ ?_)
  rintro (e | e | ⟨⟩)
  · exact Act.guarded_pure trivial
  · cases e with
    | tokenInvalid => exact backed_ignore (.inr ⟨content, result, token, hop, List.mem_cons_self⟩)
    | _ => exact Act.guarded_pure trivial
  · exact Act.guarded_pure trivial

theorem backed_sendMulticast {us : List Uuid} {content : PushContent} {sends : SendOrder}
    {results : Uuid → Except PushError Unit} (hop : op = .pushMany us content sends results)
    (tokens : List (Uuid × String)) : ∀ {g : List PushFact},
      (∀ t ∈ tokens, .found us t.1 t.2 ∈ g) →
        op.Backed (PushNotificationService.sendMulticast content results tokens)
          (fun _ _ => True) g := by
  induction tokens with
  | nil => exact fun _ => Act.guarded_pure trivial
  | cons t tokens ih =>
    intro g hg
    have hsends : op.Addresses us t.1 t.2 (content.toDevice t.1 t.2) (results t.1) := by
      rw [hop]
      exact .many
    refine Act.guarded_bind (Act.guarded_bind (Act.guarded_attempt
      ⟨rfl, us, t.1, t.2, hg t List.mem_cons_self, hsends⟩ fun r => Act.guarded_pure ?_))
    exact ih fun t' ht' => List.mem_append_right _ (hg t' (List.mem_cons_of_mem _ ht'))

theorem backed_pushMany {us : List Uuid} {content : PushContent} {sends : SendOrder}
    {results : Uuid → Except PushError Unit} (hop : op = .pushMany us content sends results) :
    op.Backed (NotificationService.pushMany us content sends results) (fun _ _ => True) g := by
  refine Act.guarded_bind (Act.guarded_attempt trivial ?_)
  rintro (e | tokens)
  · exact Act.guarded_pure trivial
  · refine backed_sendMulticast hop (sends.order tokens) fun t ht => ?_
    exact List.mem_append_left _ (List.mem_map_of_mem ((sends.perm tokens).mem_iff.1 ht))

theorem backed_prog (op : SettingsOp) : op.Backed op.prog (fun _ _ => True) [] := by
  cases hop : op with
  | get u => exact Act.guarded_answer backed_get
  | update u body => exact Act.guarded_answer (backed_updateSettings rfl)
  | clearPushToken u => exact Act.guarded_answer (backed_clearPushToken rfl)
  | insertSettings u => exact Act.guarded_answer (backed_insertSettings rfl)
  | pushTo u content result => exact Act.guarded_answer (backed_sendToUser rfl)
  | pushMany us content sends results => exact Act.guarded_answer (backed_pushMany rfl)

end Programs

end SettingsOp

/-! ## The rows that an operation leaves -/

section Rows

variable {jsonb} {op : SettingsOp} {db d d' : SettingsDb} {now : OffsetDateTime}
  {ws : List SettingsWrite} {row : Settings}

theorem SettingsOp.Changes.congr (hsame : d.settings.get row.userId = d'.settings.get row.userId)
    (h : op.Changes jsonb d row) : op.Changes jsonb d' row := by
  cases h with
  | inserts hop hnone => exact .inserts hop (hsame.symm.trans hnone)
  | @updates u body s preferences hop haccepted hget hjson =>
    have hid : s.userId = u := Table.key_of_get hget
    subst hid
    exact .updates hop haccepted (hsame.symm.trans hget) hjson
  | @clears u s hop hget =>
    have hid : s.userId = u := Table.key_of_get hget
    subst hid
    exact .clears hop (hsame.symm.trans hget)

/-- The rows of settings that the operation leaves are such. -/
def SettingsOp.Keeps (jsonb : Value → Except DbError Value) (op : SettingsOp) (db : SettingsDb)
    (x : SettingsWrite) : Prop :=
  ∀ row, x = .settings row → op.Changes jsonb db row

theorem keeps_settings (h : op.Changes jsonb db row) :
    (settingsEngine jsonb).Chain (op.Keeps jsonb) db [.settings row] := by
  refine ⟨?_, trivial⟩
  rintro _ ⟨⟩
  exact h

/-- What an `UPDATE` finds and stores. -/
theorem update_ok {input : SettingsInput} {updated : Settings}
    (h : SettingsRepository.update jsonb db input = .ok (updated, ws)) :
    ∃ s preferences, db.settings.get input.userId = some s ∧
      input.notificationPreferences.mapM jsonb = .ok preferences ∧
      updated = input.set preferences s ∧ ws = [.settings updated] := by
  simp only [SettingsRepository.update, bind_eq_ok] at h
  obtain ⟨_, _, preferences, hjson, _, _, h⟩ := h
  cases hget : db.settings.get input.userId with
  | none =>
    rw [hget] at h
    cases h
  | some s =>
    rw [hget] at h
    cases h
    exact ⟨s, preferences, rfl, hjson, rfl, rfl⟩

theorem update_keeps {u : Uuid} {body : UpdateSettingsRequest} {updated : Settings}
    (hop : op = .update u body) (haccepted : body.Accepted)
    (h : SettingsRepository.update jsonb db (body.input u) = .ok (updated, ws)) :
    (settingsEngine jsonb).Chain (op.Keeps jsonb) db ws := by
  obtain ⟨s, preferences, hget, hjson, rfl, rfl⟩ := update_ok h
  exact keeps_settings (.updates hop haccepted hget hjson)

theorem clearPushToken_keeps {u : Uuid} (hop : op.clearing = some u) :
    (settingsEngine jsonb).Chain (op.Keeps jsonb) db (SettingsRepository.clearPushToken db u) := by
  unfold SettingsRepository.clearPushToken
  cases hget : db.settings.get u with
  | none => trivial
  | some s => exact keeps_settings (.clears hop hget)

theorem insertSettings_keeps {u : Uuid} (hop : op = .insertSettings u)
    (h : SettingsRepository.insertSettings db u = .ok ((), ws)) :
    (settingsEngine jsonb).Chain (op.Keeps jsonb) db ws := by
  unfold SettingsRepository.insertSettings at h
  split at h
  · cases h
  · rename_i hnone
    cases h
    exact keeps_settings (.inserts hop (by simpa using hnone))

/-- The statements that the operation may make. -/
def SettingsOp.Writes (op : SettingsOp) {β : Type} (s : SettingsStmt β) : Prop :=
  ∃ e g, op.May (.exec e s : Cmd SettingsStmt DbError _) g

theorem uses_settings (op : SettingsOp) :
    Prog.Uses (World.AllGood op.Writes) (ExceptT.run op.prog) := by
  refine Prog.uses_of_guarded (fun c g h => ?_) op.backed_prog
  cases c with
  | exec e s => exact ⟨e, g, h⟩
  | begin => trivial
  | commit => trivial

theorem settings_confined (op : SettingsOp) :
    World.Disciplined (K := settingsKeyed jsonb) (T := OffsetDateTime) op.Writes
      (op.Keeps jsonb) where
  row := by
    rintro d d' x hsame h row rfl
    exact (h row rfl).congr (SettingsDb.settings_of_look hsame)
  exec := by
    intro β s now d a ws hs h
    obtain ⟨e, g, hmay⟩ := hs
    cases s with
    | update input =>
      obtain ⟨u, body, hop, haccepted, rfl⟩ := hmay
      exact update_keeps hop haccepted h
    | clearPushToken u =>
      cases h
      refine clearPushToken_keeps ?_
      rcases hmay with rfl | ⟨content, result, token, rfl, -⟩ <;> rfl
    | insertSettings u => exact insertSettings_keeps hmay h
    | getPushToken | getPushTokensBatch =>
      cases h
      exact ⟨nofun, trivial⟩
    | send p result =>
      cases h
      split
      · exact ⟨nofun, trivial⟩
      · trivial
    | _ =>
      cases h
      trivial

end Rows

end Meno
