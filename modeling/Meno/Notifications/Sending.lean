import Meno.Notifications.Templates
import Meno.Notifications.UnreadCount
import Meno.Profile.Dto

/-!
# Meno.Notifications.Sending

`notify` and `notify_many`: what they send, and what they leave for the list. The messages have the
actor's name and the title of the broadcast filled in; the row has the template and the actor only,
so the list shows what was sent where the title would not change it (`shown_as_sent_iff`).
-/

namespace Meno

open Lib Lib.Sql Lib.Substitute
open Profiles (Settings)

inductive NotificationError where
  | templateNotFound (typeCode : String)
  | database (e : DbError)
deriving DecidableEq

/-- What is published to the user's sockets, and what the push service gets. -/
inductive NotificationMessage where
  | ws (userId : Uuid) (title body : String)
  | push (userId : Uuid) (token title body : String) (image : Option String) (deepLink : String)
deriving DecidableEq

namespace NotificationMessage

def title : NotificationMessage → String
  | ws _ title _ => title
  | push _ _ title _ _ _ => title

def body : NotificationMessage → String
  | ws _ _ body => body
  | push _ _ _ body _ _ => body

end NotificationMessage

/-- The orders in which the maps of a call are gone through. -/
structure MapOrder where
  iter : TemplateVars → List (String × String)
  perm : ∀ vars, (iter vars).Perm vars.entries

/-- The tables, and the cache of the templates. -/
structure NotificationsStore where
  db : NotificationsDb
  /-- `is_active = true AND deleted_at IS NULL`. -/
  inUse : NotificationTemplate → Bool
  settings : Table Settings Settings.userId
  templates : String → Option NotificationTemplate

/-- The statements of a call, each of which can fail. -/
inductive NotifyStatement where
  | findTemplateByCode
  | create
  | hasAppNotificationsEnabled
  | getPushToken
deriving DecidableEq

/-- What a call does not determine: the order of its map, what fails, and the ids and the time that
the database gives to the rows. -/
structure NotifyRun where
  order : MapOrder
  fails : List NotifyStatement
  ids : Nat → Uuid
  now : OffsetDateTime

/-- What a call leaves behind: the rows that it has created, and the messages. -/
structure Notified where
  result : Except NotificationError Unit
  store : NotificationsStore
  created : List Notification := []
  sent : List NotificationMessage := []

/-! ## Statements -/

namespace NotificationRepository

def findTemplateByCode (store : NotificationsStore) (typeCode : String) :
    Option NotificationTemplate :=
  store.db.templates.rows.find? fun template => template.type = typeCode && store.inUse template

/-- The rows that were inserted, too. -/
def createBulk (db : NotificationsDb) : List NewNotification → NotificationsDb × List Notification
  | [] => (db, [])
  | n :: ns =>
    match db.insert n.row with
    | .ok db => ((createBulk db ns).1, n.row :: (createBulk db ns).2)
    | .error _ => createBulk db ns

def hasAppNotificationsEnabled (store : NotificationsStore) (userId : Uuid) : Bool :=
  ((store.settings.get userId).map Settings.appNotifications).getD false

def getPushToken (store : NotificationsStore) (userId : Uuid) : Option String :=
  ((store.settings.get userId).filter Settings.pushNotifications).bind
    Settings.pushNotificationToken

def getPushTokensBatch (store : NotificationsStore) (userIds : List Uuid) : List (Uuid × String) :=
  (store.settings.rows.filter fun s => userIds.contains s.userId && s.pushNotifications).filterMap
    fun s => s.pushNotificationToken.map fun token => (s.userId, token)

end NotificationRepository

/-! ## Calls -/

namespace NotificationService

/-- From the cache, or else from the table. -/
def getTemplate (store : NotificationsStore) (fails : List NotifyStatement) (typeCode : String) :
    Except NotificationError (NotificationTemplate × NotificationsStore) :=
  match store.templates typeCode with
  | some template => .ok (template, store)
  | none =>
    if .findTemplateByCode ∈ fails then .error (.database .infrastructure)
    else
      match NotificationRepository.findTemplateByCode store typeCode with
      | none => .error (.templateNotFound typeCode)
      | some template =>
        .ok (template,
          { store with templates := Function.update store.templates typeCode (some template) })

-- `t` writes the ids of the links.
variable (t : CursorText) (run : NotifyRun) (store : NotificationsStore)

def notify (ownerId : Uuid) (typeCode : String) (actor : Option UserSummary)
    (broadcastId : Option Uuid) (broadcastTitle : Option String) : Notified :=
  let actorId := actor.map UserSummary.id
  match getTemplate store run.fails typeCode with
  | .error e => { result := .error e, store }
  | .ok (template, store) =>
    let vars := buildVars actor broadcastTitle
    let (title, body, imageUrl) := resolveTemplate (run.order.iter vars) template
    let deepLink := buildDeepLink t typeCode broadcastId actorId
    let n : NewNotification := {
      id := run.ids 0, ownerId, templateId := template.id, actorId, broadcastId
      createdAt := run.now }
    if .create ∈ run.fails then { result := .error (.database .infrastructure), store }
    else
      match store.db.insert n.row with
      | .error e => { result := .error (.database e), store }
      | .ok db =>
        let enabled := .hasAppNotificationsEnabled ∈ run.fails ||
          NotificationRepository.hasAppNotificationsEnabled store ownerId
        let token :=
          if .getPushToken ∈ run.fails then none
          else NotificationRepository.getPushToken store ownerId
        { result := .ok ()
          store := { store with db }
          created := [n.row]
          sent := (if enabled then [.ws ownerId title body] else []) ++
            (token.map fun token => .push ownerId token title body imageUrl deepLink).toList }

/-- Nothing is published to the sockets. -/
def notifyMany (ownerIds : List Uuid) (typeCode : String) (actor : Option UserSummary)
    (broadcastId : Option Uuid) (broadcastTitle : Option String) : Notified :=
  if ownerIds = [] then { result := .ok (), store }
  else
    let actorId := actor.map UserSummary.id
    match getTemplate store run.fails typeCode with
    | .error e => { result := .error e, store }
    | .ok (template, store) =>
      let vars := buildVars actor broadcastTitle
      let (title, body, imageUrl) := resolveTemplate (run.order.iter vars) template
      let deepLink := buildDeepLink t typeCode broadcastId actorId
      let ns : List NewNotification := ownerIds.mapIdx fun i ownerId => {
        id := run.ids i, ownerId, templateId := template.id, actorId, broadcastId
        createdAt := run.now }
      if .create ∈ run.fails then { result := .error (.database .infrastructure), store }
      else
        let (db, created) := NotificationRepository.createBulk store.db ns
        let tokens :=
          if .getPushToken ∈ run.fails then []
          else NotificationRepository.getPushTokensBatch store ownerIds
        { result := .ok ()
          store := { store with db }
          created
          sent := tokens.map fun p => .push p.1 p.2 title body imageUrl deepLink }

end NotificationService

/-- Whom a call is for: one user, or many. -/
inductive Recipients where
  | one (ownerId : Uuid)
  | many (ownerIds : List Uuid)

def Recipients.isMany : Recipients → Bool
  | one _ => false
  | many _ => true

/-- The call for these users. -/
def NotificationService.send (t : CursorText) (run : NotifyRun) (store : NotificationsStore)
    (recipients : Recipients) (typeCode : String) (actor : Option UserSummary)
    (broadcastId : Option Uuid) (broadcastTitle : Option String) : Notified :=
  match recipients with
  | .one ownerId => notify t run store ownerId typeCode actor broadcastId broadcastTitle
  | .many ownerIds => notifyMany t run store ownerIds typeCode actor broadcastId broadcastTitle

/-! ## What is shown later -/

/-- At a later time the template and the actor's profile are as they were, and the notification, if
it is still there, is of this template and actor. -/
structure Unchanged (template : NotificationTemplate) (actor : Option UserSummary)
    (n : Notification) (later : NotificationsDb) : Prop where
  template : later.templates.get template.id = some template
  actor : ∀ a ∈ actor, ∃ u, later.users.get a.id = some u ∧ u.fullName = a.fullName ∧
    u.deletedAt = none
  notification : ∀ n' ∈ later.notifications.get n.id,
    n'.templateId = n.templateId ∧ n'.actorId = n.actorId

/-- Whatever the order of the maps and whatever fails: as long as template and actor are unchanged,
every page on which a notification of such a call is to be found shows the texts that were sent. -/
def ShownAsSent (t : CursorText) (many : Bool) (template : NotificationTemplate)
    (actor : Option UserSummary) (broadcastTitle : Option String) : Prop :=
  ∀ (run : NotifyRun) (store : NotificationsStore) (recipients : Recipients) (typeCode : String)
    (broadcastId : Option Uuid), recipients.isMany = many →
    (NotificationService.getTemplate store run.fails typeCode).map Prod.fst = .ok template →
    ∀ n ∈ (NotificationService.send t run store recipients typeCode actor broadcastId
      broadcastTitle).created,
    ∀ m ∈ (NotificationService.send t run store recipients typeCode actor broadcastId
      broadcastTitle).sent,
    ∀ later, Unchanged template actor n later → ∀ ownerId query page,
      NotificationService.list t later ownerId query = .ok page →
        ∀ item ∈ page.data, item.id = n.id → item.title = m.title ∧ item.body = m.body

/-- Neither text of the template has, with the actor filled in, a placeholder of the title of the
broadcast, unless that title is the placeholder itself. -/
def SameTexts (template : NotificationTemplate) (actor : Option UserSummary)
    (broadcastTitle : Option String) : Prop :=
  ∀ text ∈ [template.title, template.body], ∀ title ∈ broadcastTitle,
    ∀ name ∈ ["title", "broadcast"],
      TemplateVars.occurrences name
          ((NotificationService.buildVars actor none).substitute text) = 0 ∨
        title = "\x7b" ++ name ++ "\x7d"

/-! ## The list -/

/-- What a statement finds are rows. -/
theorem mem_of_fetchAll {ρ : Type} {qb : Select ρ SqlValue} {keywords : Option String}
    {rows found : List ρ} {r : ρ} (h : fetchAll qb keywords rows = .ok found) (hr : r ∈ found) :
    r ∈ rows := by
  unfold fetchAll Select.run at h
  cases hkeys : qb.orderBy.mapM SortItem.key with
  | error e =>
    rw [hkeys] at h
    cases h
  | ok keys =>
    rw [hkeys] at h
    dsimp only at h
    split at h
    · cases h
    · rename_i found' hrun
      split at h
      · cases h
        split at hrun
        · cases hrun
        · obtain rfl := Except.ok.inj hrun
          have hcut : (qb.cut (sort keys (rows.filter fun r => qb.matching r && qb.beyond r))).Sublist
              (sort keys (rows.filter fun r => qb.matching r && qb.beyond r)) := by
            unfold Select.cut
            split
            · exact List.Sublist.refl _
            · exact List.take_sublist _ _
          exact (List.mem_filter.1 (mem_sort.1 (hcut.subset hr))).1
      · cases h

theorem mem_of_fromRows {α : Type} {rows : List α} {limit : Int} {encodeCursor : α → Cursor} {a : α}
    (h : a ∈ (CursorPage.fromRows rows limit encodeCursor).data) : a ∈ rows := by
  unfold CursorPage.fromRows at h
  dsimp only at h
  split at h
  · exact List.mem_of_mem_take h
  · exact h

section Items

variable {t : CursorText} {db : NotificationsDb} {ownerId : Uuid} {query : NotificationQuery}
  {page : CursorPage NotificationListItem} {item : NotificationListItem}

/-- Every item is a notification of the table, with what is joined to it. -/
theorem row_of_item (h : NotificationService.list t db ownerId query = .ok page)
    (hitem : item ∈ page.data) : ∃ n ∈ db.notifications.rows, ∃ template,
      db.templates.get n.templateId = some template ∧
        item = NotificationService.render t (NotificationRepository.listItem {
          notification := n
          template
          actor := (n.actorId.bind db.users.get).filter fun u => u.deletedAt.isNone }) := by
  obtain ⟨items, hitems, hpage⟩ := bind_eq_ok.1 h
  obtain ⟨cursor, -, hrows⟩ := bind_eq_ok.1 hitems
  obtain ⟨rows, hfetch, hmap⟩ := bind_eq_ok.1 hrows
  obtain rfl := Except.ok.inj hmap
  obtain rfl := Except.ok.inj hpage
  obtain ⟨shown, hshown, rfl⟩ := List.mem_map.1 (mem_of_fromRows hitem)
  obtain ⟨row, hrow, rfl⟩ := List.mem_map.1 hshown
  obtain ⟨n, hn, hview⟩ := List.mem_filterMap.1 (mem_of_fetchAll hfetch hrow)
  obtain ⟨template, htemplate, rfl⟩ := Option.map_eq_some_iff.1 hview
  exact ⟨n, hn, template, (Option.filter_eq_some_iff.1 htemplate).1, rfl⟩

end Items

/-! ## The texts -/

section Texts

open NotificationService (buildVars buildItemVars interpolateIn interpolate)

theorem isName_variables : ∀ name ∈ ["actor", "title", "broadcast"], IsName name.toList := by decide

/-- The texts of an item are filled in with the name of its actor. -/
theorem interpolate_eq (item : NotificationListItem) {order : List (String × String)}
    (h : order.Perm (buildItemVars item).entries) (text : String) :
    interpolateIn order text = interpolate text item.actor := by
  unfold buildItemVars buildVars at h
  cases hactor : item.actor with
  | none =>
    rw [hactor] at h
    obtain rfl : order = [] := h.eq_nil
    rfl
  | some a =>
    rw [hactor] at h
    obtain rfl : order = [("actor", a.fullName)] := h.eq_singleton
    rfl

/-- An item's texts are the texts of the template with the actor filled in. -/
theorem interpolateIn_actor (actor : Option UserSummary) (text : String) :
    interpolateIn (buildVars actor none).entries text = (buildVars actor none).substitute text := by
  rw [← String.toList_inj, toList_interpolateIn, TemplateVars.substitute, TemplateVars.filled,
    String.toList_ofList]
  cases actor with
  | none => exact (fill_none (fun n hn => absurd hn List.not_mem_nil) text.toList).symm
  | some a =>
    have hname : IsName "actor".toList := isName_variables "actor" (by simp)
    exact (filled_singleton (e := ("actor".toList, a.fullName.toList)) hname text.toList).symm

/-- In every order, the title of the broadcast changes nothing more once the actor is filled in,
exactly if there is no placeholder left that it would change. -/
theorem replaceAll_actor_iff {actor : List (List Char × List Char)}
    (hactor : actor = [] ∨ ∃ v, actor = [("actor".toList, v)]) (v text : List Char) :
    (∀ order, order.Perm (actor ++ [("title".toList, v), ("broadcast".toList, v)]) →
        replaceAll order text = replaceAll actor text) ↔
      ∀ name ∈ ["title", "broadcast"],
        occurrences (placeholder name.toList) (replaceAll actor text) = 0 ∨
          v = placeholder name.toList := by
  have htitle : IsName "title".toList := isName_variables "title" (by simp)
  have hbroadcast : IsName "broadcast".toList := isName_variables "broadcast" (by simp)
  constructor
  · intro h
    have hfirst := h (actor ++ [("title".toList, v), ("broadcast".toList, v)]) (List.Perm.refl _)
    have hsecond := h (actor ++ [("broadcast".toList, v), ("title".toList, v)])
      ((List.Perm.swap _ _ _).append_left actor)
    rw [replaceAll_append] at hfirst hsecond
    -- An `l` is in the one placeholder only, and a `b` in the other.
    have hl := first_unchanged (a := 'l') htitle hbroadcast (by decide) (by decide) hfirst
    have hb := first_unchanged (a := 'b') hbroadcast htitle (by decide) (by decide) hsecond
    intro name hname
    rcases List.mem_cons.1 hname with rfl | hname
    · exact hl
    · rw [List.mem_singleton.1 hname]
      exact hb
  · intro h order hperm
    have hidle : ∀ s, (∀ name ∈ ["title", "broadcast"], occurrences (placeholder name.toList) s ≤
        occurrences (placeholder name.toList) (replaceAll actor text)) →
          ∀ e ∈ [("title".toList, v), ("broadcast".toList, v)],
            replace (placeholder e.1) e.2 s = s := by
      intro s hle e he
      obtain ⟨name, hname, rfl⟩ : ∃ name ∈ ["title", "broadcast"], e = (name.toList, v) := by
        simpa using he
      rcases h name hname with habsent | rfl
      · have hnone := hle name hname
        rw [habsent] at hnone
        exact replace_of_absent (Nat.le_zero.1 hnone)
      · exact replace_self (isName_variables name (List.mem_cons_of_mem _ hname)) s
    rcases hactor with rfl | ⟨a, rfl⟩
    · exact replaceAll_of_idle fun e he => hidle text (fun _ _ => Nat.le_refl _) e (hperm.subset he)
    · have hname : IsName "actor".toList := isName_variables "actor" (by simp)
      refine replaceAll_among_idle hperm (hidle text fun name hmem => ?_)
        (hidle _ fun _ _ => Nat.le_refl _)
      have hne : name.toList ≠ "actor".toList := by
        rintro heq
        rw [String.toList_inj.1 heq] at hmem
        exact absurd hmem (by decide)
      exact occurrences_replace_le hname (isName_variables name (List.mem_cons_of_mem _ hmem)) hne a text

/-- The texts of the messages are those of the item, whatever the order of the map. -/
theorem interpolateIn_buildVars_iff (actor : Option UserSummary) (broadcastTitle : Option String)
    (text : String) :
    (∀ order, order.Perm (buildVars actor broadcastTitle).entries →
        interpolateIn order text = (buildVars actor none).substitute text) ↔
      ∀ title ∈ broadcastTitle, ∀ name ∈ ["title", "broadcast"],
        TemplateVars.occurrences name ((buildVars actor none).substitute text) = 0 ∨
          title = "\x7b" ++ name ++ "\x7d" := by
  rw [← interpolateIn_actor]
  have hactor : (buildVars actor none).entries = [] ∨
      ∃ a, (buildVars actor none).entries = [("actor", a)] := by
    cases actor with
    | none => exact .inl rfl
    | some a => exact .inr ⟨a.fullName, rfl⟩
  cases broadcastTitle with
  | none =>
    refine iff_of_true (fun order hperm => ?_) fun title htitle => absurd htitle (by simp)
    rcases hactor with hentries | ⟨a, hentries⟩
    · rw [hentries] at hperm ⊢
      rw [hperm.eq_nil]
    · rw [hentries] at hperm ⊢
      rw [hperm.eq_singleton]
  | some title =>
    have hentries : (buildVars actor (some title)).entries =
        (buildVars actor none).entries ++ [("title", title), ("broadcast", title)] := by
      cases actor <;> rfl
    have hchars : (buildVars actor none).entries.map TemplateVars.chars = [] ∨
        ∃ v, (buildVars actor none).entries.map TemplateVars.chars = [("actor".toList, v)] := by
      rcases hactor with h | ⟨a, h⟩
      · exact .inl (by rw [h]; rfl)
      · exact .inr ⟨a.toList, by rw [h]; rfl⟩
    have hiff := replaceAll_actor_iff hchars title.toList text.toList
    have hplaceholder : ∀ name : String, title.toList = placeholder name.toList ↔
        title = "\x7b" ++ name ++ "\x7d" := by
      intro name
      rw [← String.toList_inj]
      simp [placeholder]
    simp only [TemplateVars.occurrences, toList_interpolateIn, Option.mem_some_iff, forall_eq',
      ← hplaceholder]
    rw [← hiff, hentries]
    constructor
    · intro h order hperm
      have hstrings : (order.map ofChars).Perm
          ((buildVars actor none).entries ++ [("title", title), ("broadcast", title)]) := by
        rw [perm_ofChars, List.map_append]
        exact hperm
      have htext := congrArg String.toList (h _ hstrings)
      rwa [toList_interpolateIn, toList_interpolateIn, map_chars] at htext
    · intro h order hperm
      rw [← String.toList_inj, toList_interpolateIn, toList_interpolateIn]
      have hchars := hperm.map TemplateVars.chars
      rw [List.map_append] at hchars
      exact h _ hchars

end Texts

/-! ## Sending and showing -/

/-- The rows that a call has created are of the template and the actor, and its messages have the
texts of the template filled in. -/
structure Notified.Uses (out : Notified) (template : NotificationTemplate)
    (actor : Option UserSummary) (order : List (String × String)) : Prop where
  created : ∀ n ∈ out.created, n.templateId = template.id ∧ n.actorId = actor.map UserSummary.id
  sent : ∀ m ∈ out.sent, m.title = NotificationService.interpolateIn order template.title ∧
    m.body = NotificationService.interpolateIn order template.body

section Showing

open NotificationService

variable {t : CursorText} {run : NotifyRun} {store : NotificationsStore} {typeCode : String}
  {actor : Option UserSummary} {broadcastId : Option Uuid} {broadcastTitle : Option String}
  {template : NotificationTemplate} {later : NotificationsDb} {n : Notification}

theorem mem_createBulk {db : NotificationsDb} {ns : List NewNotification}
    (h : n ∈ (NotificationRepository.createBulk db ns).2) : ∃ m ∈ ns, n = m.row := by
  induction ns generalizing db with
  | nil => exact absurd h List.not_mem_nil
  | cons m ns ih =>
    rw [NotificationRepository.createBulk] at h
    split at h
    · rcases List.mem_cons.1 h with rfl | h
      · exact ⟨m, List.mem_cons_self, rfl⟩
      · obtain ⟨m', hm', rfl⟩ := ih h
        exact ⟨m', List.mem_cons_of_mem _ hm', rfl⟩
    · obtain ⟨m', hm', rfl⟩ := ih h
      exact ⟨m', List.mem_cons_of_mem _ hm', rfl⟩

/-- A call that has nothing to show for itself. -/
theorem uses_of_nothing {out : Notified} (hcreated : out.created = []) (hsent : out.sent = [])
    (template : NotificationTemplate) (actor : Option UserSummary)
    (order : List (String × String)) : out.Uses template actor order where
  created n hn := by
    rw [hcreated] at hn
    exact absurd hn List.not_mem_nil
  sent m hm := by
    rw [hsent] at hm
    exact absurd hm List.not_mem_nil

theorem notify_uses (ownerId : Uuid) {store' : NotificationsStore}
    (h : getTemplate store run.fails typeCode = .ok (template, store')) :
    (notify t run store ownerId typeCode actor broadcastId broadcastTitle).Uses template actor
      (run.order.iter (buildVars actor broadcastTitle)) := by
  simp only [notify, h, resolveTemplate]
  split
  · exact uses_of_nothing rfl rfl _ _ _
  · split
    · exact uses_of_nothing rfl rfl _ _ _
    · refine ⟨fun n hn => ?_, fun m hm => ?_⟩
      · rw [List.mem_singleton.1 hn]
        exact ⟨rfl, rfl⟩
      · rcases List.mem_append.1 hm with hm | hm
        · split at hm
          · rw [List.mem_singleton.1 hm]
            exact ⟨rfl, rfl⟩
          · exact absurd hm List.not_mem_nil
        · obtain ⟨token, -, rfl⟩ := Option.map_eq_some_iff.1 (Option.mem_toList.1 hm)
          exact ⟨rfl, rfl⟩

theorem notifyMany_uses (ownerIds : List Uuid) {store' : NotificationsStore}
    (h : getTemplate store run.fails typeCode = .ok (template, store')) :
    (notifyMany t run store ownerIds typeCode actor broadcastId broadcastTitle).Uses template actor
      (run.order.iter (buildVars actor broadcastTitle)) := by
  simp only [notifyMany, h, resolveTemplate]
  split
  · exact uses_of_nothing rfl rfl _ _ _
  · split
    · exact uses_of_nothing rfl rfl _ _ _
    · refine ⟨fun n hn => ?_, fun m hm => ?_⟩
      · obtain ⟨m, hm, rfl⟩ := mem_createBulk hn
        obtain ⟨i, hi, rfl⟩ := List.mem_mapIdx.1 hm
        exact ⟨rfl, rfl⟩
      · obtain ⟨p, -, rfl⟩ := List.mem_map.1 hm
        exact ⟨rfl, rfl⟩

theorem send_uses (t : CursorText) (recipients : Recipients) (actor : Option UserSummary)
    (broadcastId : Option Uuid) (broadcastTitle : Option String)
    (h : (getTemplate store run.fails typeCode).map Prod.fst = .ok template) :
    (send t run store recipients typeCode actor broadcastId broadcastTitle).Uses template actor
      (run.order.iter (buildVars actor broadcastTitle)) := by
  cases hget : getTemplate store run.fails typeCode with
  | error e =>
    rw [hget] at h
    cases h
  | ok found =>
    obtain ⟨template', store'⟩ := found
    rw [hget] at h
    obtain rfl : template' = template := Except.ok.inj h
    cases recipients with
    | one ownerId => exact notify_uses ownerId hget
    | many ownerIds => exact notifyMany_uses ownerIds hget

/-- An item for a notification of the template and the actor, both unchanged. -/
theorem item_texts (hn : n.templateId = template.id) (hactor : n.actorId = actor.map UserSummary.id)
    (hlater : Unchanged template actor n later) {ownerId : Uuid} {query : NotificationQuery}
    {page : CursorPage NotificationListItem} {item : NotificationListItem}
    (hpage : list t later ownerId query = .ok page) (hitem : item ∈ page.data)
    (hid : item.id = n.id) :
    item.title = (buildVars actor none).substitute template.title ∧
      item.body = (buildVars actor none).substitute template.body := by
  obtain ⟨n', hn', template', htemplate, rfl⟩ := row_of_item hpage hitem
  have hget : later.notifications.get n.id = some n' := hid ▸ Table.mem_rows_iff.1 hn'
  obtain ⟨htemplateId, hactorId⟩ := hlater.notification n' hget
  rw [htemplateId, hn, hlater.template] at htemplate
  obtain rfl := Option.some.inj htemplate
  rw [hactor] at hactorId
  have hname : ∀ text, interpolate text (NotificationRepository.listItem {
      notification := n'
      template
      actor := (n'.actorId.bind later.users.get).filter fun u => u.deletedAt.isNone }).actor =
        (buildVars actor none).substitute text := by
    intro text
    rw [← interpolateIn_actor, NotificationRepository.listItem, hactorId]
    cases actor with
    | none => rfl
    | some a =>
      obtain ⟨u, hu, hfullName, hdeleted⟩ := hlater.actor a rfl
      have hjoined : (some u).filter (fun u => u.deletedAt.isNone) = some u :=
        Option.filter_eq_some_iff.2 ⟨rfl, by rw [hdeleted]; rfl⟩
      simp [hu, hjoined, hfullName, interpolate, interpolateIn, buildVars]
  exact ⟨hname template.title, hname template.body⟩

/-- A notification of the user that is asked for is on one of the pages. -/
theorem exists_page_of_row {db : NotificationsDb} (query : NotificationQuery) {ownerId : Uuid}
    (htimes : ∀ n ∈ db.notifications.rows, representable n.createdAt = true)
    {row : NotificationViewRow} (hrow : row ∈ NotificationRepository.notificationRows db)
    (hwants : query.wants ownerId row = true) :
    ∃ query page, list t db ownerId query = .ok page ∧
      ∃ item ∈ page.data, item.id = row.notification.id := by
  obtain ⟨items, hwalk, hperm, -⟩ := notifications_walk (t := t) query htimes ownerId
  have hitem : render t (NotificationRepository.listItem row) ∈ items :=
    hperm.mem_iff.2 (List.mem_map.2 ⟨row, List.mem_filter.2 ⟨hrow, hwants⟩, rfl⟩)
  obtain ⟨m, c, page, hpage, hmem⟩ := hwalk.exists_page hitem
  exact ⟨_, page, hpage, _, hmem, rfl⟩

end Showing

/-! ## A first notification -/

/-- The id of the only user with settings, and of the first notification. -/
def firstId : Uuid := ⟨1⟩

/-- There is only the template, the actor, and the settings of one user. -/
def NotificationsStore.first (template : NotificationTemplate) (actor : Option UserSummary) :
    NotificationsStore where
  db := {
    notifications := .empty
    templates := Table.empty.put template
    types := [template.type]
    users := (actor.map fun a => (Table.empty : Table User User.id).put {
      id := a.id, fullName := a.fullName, bio := a.bio, avatarId := a.avatarId
      avatarUrl := a.avatarUrl, deletedAt := none }).getD .empty }
  inUse := fun _ => true
  settings := Table.empty.put { Settings.new firstId with pushNotificationToken := some "" }
  templates := fun _ => none

def NotifyRun.first (order : MapOrder) : NotifyRun where
  order := order
  fails := []
  ids := fun _ => firstId
  now := 0

def Recipients.first : Bool → Recipients
  | false => .one firstId
  | true => .many [firstId]

def Notification.first (template : NotificationTemplate) (actor : Option UserSummary) :
    Notification where
  id := firstId
  ownerId := firstId
  templateId := template.id
  actorId := actor.map UserSummary.id
  broadcastId := none
  read := false
  readAt := none
  archivedAt := none
  createdAt := 0

section First

open NotificationService

variable (t : CursorText) (many : Bool) (template : NotificationTemplate)
  (actor : Option UserSummary) (broadcastTitle : Option String) (order : MapOrder)

def Notified.first : Notified :=
  send t (.first order) (.first template actor) (.first many) template.type actor none
    broadcastTitle

theorem getTemplate_first : getTemplate (.first template actor) [] template.type =
    .ok (template, { NotificationsStore.first template actor with
      templates := Function.update (fun _ => none) template.type (some template) }) := by
  simp [getTemplate, NotificationsStore.first, NotificationRepository.findTemplateByCode, Table.put,
    Table.empty]

/-- The call creates the notification, and sends something. -/
theorem created_first : (Notified.first t many template actor broadcastTitle order).created =
      [.first template actor] ∧
    (Notified.first t many template actor broadcastTitle order).sent ≠ [] ∧
    (Notified.first t many template actor broadcastTitle order).store.db =
      { (NotificationsStore.first template actor).db with
        notifications := Table.empty.put (.first template actor) } := by
  have hget := getTemplate_first template actor
  cases many with
  | false =>
    simp only [Notified.first, Recipients.first, send, notify, NotifyRun.first, hget]
    exact ⟨rfl, List.cons_ne_nil _ _, rfl⟩
  | true =>
    simp only [Notified.first, Recipients.first, send, notifyMany, NotifyRun.first, hget]
    exact ⟨rfl, List.cons_ne_nil _ _, rfl⟩

theorem get_first (a : UserSummary) (h : actor = some a) :
    (NotificationsStore.first template actor).db.users.get a.id = some {
      id := a.id, fullName := a.fullName, bio := a.bio, avatarId := a.avatarId
      avatarUrl := a.avatarUrl, deletedAt := none } := by
  subst h
  exact Table.get_put_self _ _

theorem unchanged_first : Unchanged template actor (.first template actor)
    (Notified.first t many template actor broadcastTitle order).store.db := by
  rw [(created_first t many template actor broadcastTitle order).2.2]
  refine ⟨Table.get_put_self _ _, fun a ha => ?_, fun n hn => ?_⟩
  · exact ⟨_, get_first template actor a ha, rfl, rfl⟩
  · obtain rfl := Option.some.inj ((Table.get_put_self _ _).symm.trans hn)
    exact ⟨rfl, rfl⟩

/-- The notification as the list joins it. -/
def NotificationViewRow.first : NotificationViewRow where
  notification := .first template actor
  template := template
  actor := ((Notification.first template actor).actorId.bind
    (NotificationsStore.first template actor).db.users.get).filter fun u => u.deletedAt.isNone

/-- The notification is on a page of its owner's. -/
theorem shown_first : ∃ query page,
    list t (Notified.first t many template actor broadcastTitle order).store.db firstId query =
        .ok page ∧
      ∃ item ∈ page.data, item.id = firstId := by
  rw [(created_first t many template actor broadcastTitle order).2.2]
  have hmem : Notification.first template actor ∈
      ((Table.empty : Table Notification Notification.id).put (.first template actor)).rows :=
    List.mem_cons_self
  have htemplate : (NotificationsStore.first template actor).db.templates.get template.id =
      some template := Table.get_put_self _ _
  have htypes : template.type ∈ (NotificationsStore.first template actor).db.types :=
    List.mem_cons_self
  have hrow : NotificationViewRow.first template actor ∈ NotificationRepository.notificationRows {
      (NotificationsStore.first template actor).db with
      notifications := Table.empty.put (.first template actor) } := by
    refine List.mem_filterMap.2 ⟨_, hmem, ?_⟩
    simp [Notification.first, htemplate, Option.filter, htypes, NotificationViewRow.first]
  refine exists_page_of_row ⟨false, none, none⟩ (fun n hn => ?_) hrow rfl
  rw [List.mem_singleton.1 hn]
  exact (by decide : representable 0 = true)

end First

/-! ## What is shown is what was sent -/

/-- Some order of the variables of one map. -/
def MapOrder.ofPerm (vars : TemplateVars) (order : List (String × String))
    (h : order.Perm vars.entries) : MapOrder where
  iter v := if v.entries = vars.entries then order else v.entries
  perm v := by
    split
    · rename_i heq
      rw [heq]
      exact h
    · exact List.Perm.refl _

theorem sameTexts_iff (template : NotificationTemplate) (actor : Option UserSummary)
    (broadcastTitle : Option String) : SameTexts template actor broadcastTitle ↔
      ∀ text ∈ [template.title, template.body], ∀ order,
        order.Perm (NotificationService.buildVars actor broadcastTitle).entries →
          NotificationService.interpolateIn order text =
            (NotificationService.buildVars actor none).substitute text :=
  forall_congr' fun text => forall_congr' fun _ =>
    (interpolateIn_buildVars_iff actor broadcastTitle text).symm

/-- What is shown of the first notification says what a title of the broadcast must not change. -/
theorem sameTexts_of_shown {t : CursorText} {many : Bool} {template : NotificationTemplate}
    {actor : Option UserSummary} {broadcastTitle : Option String}
    (h : ShownAsSent t many template actor broadcastTitle) :
    SameTexts template actor broadcastTitle := by
  rw [sameTexts_iff]
  intro text htext order hperm
  have hget := congrArg (Except.map Prod.fst) (getTemplate_first template actor)
  obtain ⟨hcreated, hsent, -⟩ := created_first t many template actor broadcastTitle
    (.ofPerm _ order hperm)
  obtain ⟨m, hm⟩ := List.exists_mem_of_ne_nil _ hsent
  have hn : .first template actor ∈
      (Notified.first t many template actor broadcastTitle (.ofPerm _ order hperm)).created := by
    rw [hcreated]
    exact List.mem_cons_self
  have hlater := unchanged_first t many template actor broadcastTitle (.ofPerm _ order hperm)
  obtain ⟨query, page, hpage, item, hitem, hid⟩ :=
    shown_first t many template actor broadcastTitle (.ofPerm _ order hperm)
  have hmany : (Recipients.first many).isMany = many := by cases many <;> rfl
  obtain ⟨htitle, hbody⟩ := h (.first (.ofPerm _ order hperm)) (.first template actor) (.first many)
    template.type none hmany hget _ hn m hm _ hlater _ query page hpage item hitem hid
  have hshown := item_texts rfl rfl hlater hpage hitem hid
  have hsent := (send_uses t (.first many) actor none broadcastTitle hget).sent m hm
  have horder : (MapOrder.ofPerm _ order hperm).iter
      (NotificationService.buildVars actor broadcastTitle) = order := if_pos rfl
  rw [NotifyRun.first, horder] at hsent
  rw [List.mem_pair] at htext
  rcases htext with rfl | rfl
  · rw [← hsent.1, ← htitle, hshown.1]
  · rw [← hsent.2, ← hbody, hshown.2]

/-- **The list shows what was sent**, exactly if the title of the broadcast changes neither text of
the template once the actor is filled in. -/
theorem shown_as_sent_iff (t : CursorText) (many : Bool) (template : NotificationTemplate)
    (actor : Option UserSummary) (broadcastTitle : Option String) :
    ShownAsSent t many template actor broadcastTitle ↔ SameTexts template actor broadcastTitle := by
  refine ⟨sameTexts_of_shown, fun h => ?_⟩
  rw [sameTexts_iff] at h
  intro run store recipients typeCode broadcastId _ hget n hn m hm later hlater ownerId query page
    hpage item hitem hid
  have huses := send_uses t recipients actor broadcastId broadcastTitle hget
  obtain ⟨htemplate, hactor⟩ := huses.created n hn
  obtain ⟨htitle, hbody⟩ := huses.sent m hm
  have hshown := item_texts htemplate hactor hlater hpage hitem hid
  have hperm := run.order.perm (NotificationService.buildVars actor broadcastTitle)
  rw [htitle, hbody, h _ (by simp) _ hperm, h _ (by simp) _ hperm]
  exact hshown

/-- The list still has the placeholder where the message had the title. -/
theorem ended_broadcast_unnamed :
    ¬ ∀ (t : CursorText) (many : Bool) (template : NotificationTemplate)
      (actor : Option UserSummary) (broadcastTitle : Option String),
      ShownAsSent t many template actor broadcastTitle := by
  intro h
  let template : NotificationTemplate := {
    id := ⟨1⟩, type := "broadcast_ended", title := "Broadcast Ended"
    body := "\x7btitle\x7d has ended", imageUrl := none }
  have hsame := sameTexts_of_shown (h .urlSafe true template none (some "News"))
  rcases hsame template.body (by simp) "News" rfl "title" (by simp) with habsent | hself
  · exact absurd habsent (by decide)
  · exact absurd hself (by decide)

/-! ## Later calls -/

/-- The templates and the users are as they were, and a notification that is still there is of the
same template and actor. -/
structure NotificationsDb.Keeps (db db' : NotificationsDb) (id : Uuid) : Prop where
  templates : db'.templates = db.templates
  users : db'.users = db.users
  notification : ∀ n ∈ db.notifications.get id, ∀ n' ∈ db'.notifications.get id,
    n'.templateId = n.templateId ∧ n'.actorId = n.actorId

namespace NotificationsDb

variable {db db' : NotificationsDb} {id ownerId : Uuid} {n : Notification}

theorem Keeps.of_get (htemplates : db'.templates = db.templates) (husers : db'.users = db.users)
    (hget : ∀ n ∈ db.notifications.get id, db'.notifications.get id = some n) : db.Keeps db' id where
  templates := htemplates
  users := husers
  notification n hn n' hn' := by
    obtain rfl := Option.some.inj ((hget n hn).symm.trans hn')
    exact ⟨rfl, rfl⟩

theorem Keeps.refl (db : NotificationsDb) (id : Uuid) : db.Keeps db id :=
  .of_get rfl rfl fun _ hn => hn

theorem Keeps.unchanged {template : NotificationTemplate} {actor : Option UserSummary}
    (h : db.Keeps db' n.id) (hthere : (db.notifications.get n.id).isSome)
    (hdb : Unchanged template actor n db) : Unchanged template actor n db' where
  template := h.templates ▸ hdb.template
  actor := h.users ▸ hdb.actor
  notification n' hn' := by
    obtain ⟨m, hm⟩ := Option.isSome_iff_exists.1 hthere
    obtain ⟨htemplate, hactor⟩ := h.notification m hm n' hn'
    obtain ⟨htemplate', hactor'⟩ := hdb.notification m hm
    exact ⟨htemplate.trans htemplate', hactor.trans hactor'⟩

/-- No other row comes in the place of one that is there. -/
theorem insertOrIgnore_keeps (db : NotificationsDb) (n : Notification) (id : Uuid) :
    (db.insertOrIgnore n).templates = db.templates ∧ (db.insertOrIgnore n).users = db.users ∧
      ∀ m ∈ db.notifications.get id, (db.insertOrIgnore n).notifications.get id = some m := by
  unfold insertOrIgnore insert
  cases hget : db.notifications.get n.id with
  | some m => exact ⟨rfl, rfl, fun m hm => hm⟩
  | none =>
    refine ⟨rfl, rfl, fun m hm => ?_⟩
    have hne : id ≠ n.id := by
      rintro rfl
      rw [hget] at hm
      cases hm
    exact (Table.get_put _ _ _).trans ((if_neg hne).trans hm)

theorem insertAll_keeps (db : NotificationsDb) (ns : List NewNotification) (id : Uuid) :
    db.Keeps (ns.foldl (fun db n => db.insertOrIgnore n.row) db) id := by
  have hall : (ns.foldl (fun db n => db.insertOrIgnore n.row) db).templates = db.templates ∧
      (ns.foldl (fun db n => db.insertOrIgnore n.row) db).users = db.users ∧
        ∀ m ∈ db.notifications.get id,
          (ns.foldl (fun db n => db.insertOrIgnore n.row) db).notifications.get id = some m := by
    induction ns generalizing db with
    | nil => exact ⟨rfl, rfl, fun m hm => hm⟩
    | cons n ns ih =>
      obtain ⟨htemplates, husers, hget⟩ := insertOrIgnore_keeps db n.row id
      obtain ⟨htemplates', husers', hget'⟩ := ih (db.insertOrIgnore n.row)
      exact ⟨htemplates'.trans htemplates, husers'.trans husers, fun m hm => hget' m (hget m hm)⟩
  exact .of_get hall.1 hall.2.1 hall.2.2

theorem insert_keeps (h : db.insert n = .ok db') (id : Uuid) : db.Keeps db' id := by
  have heq : db.insertOrIgnore n = db' := by rw [insertOrIgnore, h]
  obtain ⟨htemplates, husers, hget⟩ := insertOrIgnore_keeps db n id
  rw [heq] at htemplates husers hget
  exact .of_get htemplates husers hget

theorem markRead_keeps {readId : Uuid} {now : OffsetDateTime}
    (h : db.markRead readId ownerId now = some db') (id : Uuid) : db.Keeps db' id := by
  obtain ⟨r, hr, rfl⟩ := Option.map_eq_some_iff.1 h
  refine ⟨rfl, rfl, fun m hm m' hm' => ?_⟩
  have hput : (if id = r.id then some (r.asRead now) else db.notifications.get id) = some m' :=
    (Table.get_put db.notifications (r.asRead now) id).symm.trans hm'
  have hget := (Option.filter_eq_some_iff.1 hr).1
  split at hput
  · rename_i hid
    have hkey : r.id = readId := Table.key_of_get hget
    obtain rfl := Option.some.inj hput
    rw [hid, hkey, hget] at hm
    obtain rfl := Option.some.inj hm
    exact ⟨rfl, rfl⟩
  · obtain rfl := Option.some.inj (hm.symm.trans hput)
    exact ⟨rfl, rfl⟩

theorem markAllRead_keeps (db : NotificationsDb) (ownerId id : Uuid) (now : OffsetDateTime) :
    db.Keeps (db.markAllRead ownerId now) id := by
  refine ⟨rfl, rfl, fun m hm m' hm' => ?_⟩
  obtain ⟨hmem, hid⟩ := Table.get_eq_some_iff.1 hm'
  obtain ⟨r, hr, rfl⟩ := List.mem_map.1 hmem
  have hsame : r.id = id ∧ (if r.unread ownerId then r.asRead now else r).templateId =
      r.templateId ∧ (if r.unread ownerId then r.asRead now else r).actorId = r.actorId := by
    split at hid <;> rename_i hunread
    · rw [if_pos hunread]
      exact ⟨hid, rfl, rfl⟩
    · rw [if_neg hunread]
      exact ⟨hid, rfl, rfl⟩
  obtain rfl := Option.some.inj (hm.symm.trans (Table.get_eq_some_iff.2 ⟨hr, hsame.1⟩))
  exact hsame.2

theorem delete_keeps (db : NotificationsDb) (deleted ownerId id : Uuid) :
    db.Keeps (db.delete deleted ownerId) id := by
  refine ⟨rfl, rfl, fun m hm m' hm' => ?_⟩
  have hfilter : (db.notifications.get id).filter
      (fun n => !(n.id == deleted && n.ownerId == ownerId)) = some m' :=
    (Table.get_filter db.notifications _ id).symm.trans hm'
  obtain rfl := Option.some.inj (hm.symm.trans (Option.filter_eq_some_iff.1 hfilter).1)
  exact ⟨rfl, rfl⟩

end NotificationsDb

namespace UnreadState

variable {st : UnreadState} {fails : Bool}

theorem call_keeps (st : UnreadState) (fails : Bool) (c : NotificationCall) (id : Uuid) :
    st.db.Keeps (st.call fails c).db id := by
  cases c with
  | notify n =>
    rw [call]
    split
    · rename_i db hinsert
      split
      · exact .refl _ _
      · exact NotificationsDb.insert_keeps hinsert id
    · exact .refl _ _
  | notifyMany ns =>
    rw [call]
    split
    · exact .refl _ _
    · exact NotificationsDb.insertAll_keeps st.db ns id
  | markRead readId ownerId now =>
    rw [call]
    split
    · rename_i db hread
      split
      · exact .refl _ _
      · exact NotificationsDb.markRead_keeps hread id
    · exact .refl _ _
  | markAllRead ownerId now =>
    rw [call]
    split
    · exact .refl _ _
    · exact NotificationsDb.markAllRead_keeps st.db ownerId id now
  | delete deleted ownerId =>
    rw [call]
    split
    · exact .refl _ _
    · exact .refl _ _

theorem task_keeps (st : UnreadState) (fails : Bool) (task : UnreadTask) (id : Uuid) :
    st.db.Keeps (st.task fails task).db id := by
  cases task with
  | incr ownerId =>
    rw [UnreadState.task]
    split <;> exact .refl _ _
  | decrementUnread ownerId =>
    simp only [UnreadState.task]
    split <;> exact .refl _ _
  | reset ownerId =>
    rw [UnreadState.task]
    split <;> exact .refl _ _
  | delete deleted ownerId wasUnread =>
    rw [UnreadState.task]
    split
    · exact .refl _ _
    · exact NotificationsDb.delete_keeps st.db deleted ownerId id

theorem step_keeps (st : UnreadState) (e : UnreadEvent) (id : Uuid) :
    st.db.Keeps (st.step e).db id := by
  cases e with
  | call c fails => exact call_keeps st fails c id
  | task i fails =>
    rw [step]
    split
    · exact task_keeps { st with tasks := st.tasks.eraseIdx i } fails _ id
    · exact .refl _ _
  | expire ownerId => exact .refl _ _

/-- Whatever calls come later, the notification remains what it was as long as it is there. -/
theorem unchanged_run {template : NotificationTemplate} {actor : Option UserSummary}
    {n : Notification} {es : List UnreadEvent} (h : Unchanged template actor n st.db)
    (hthere : ∀ done, done <+: es → ((done.foldl step st).db.notifications.get n.id).isSome) :
    Unchanged template actor n (es.foldl step st).db := by
  induction es using List.reverseRecOn with
  | nil => exact h
  | append_singleton es e ih =>
    have hprefix : es <+: es ++ [e] := List.prefix_append es [e]
    have hdone := ih fun done hdone => hthere done (hdone.trans hprefix)
    rw [List.foldl_append]
    exact (step_keeps _ e n.id).unchanged (hthere es hprefix) hdone

end UnreadState

end Meno
