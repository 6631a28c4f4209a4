import Meno.Auth.Validators
import Meno.Lib.Chain
import Meno.Profile.Dto
import Meno.Push.Tasks

/-!
# Meno.Settings.Service

The settings of a user, of which the push token is the one that others act on: notifications are
posted to it, and who is told that FCM does not know it clears it. What FCM answers is part of the
operation; whose token was looked up last and what has been posted are part of the store.
-/

namespace Meno

open Lib Lib.Grammar RegularExpression

open Auth (FieldError checkField validateBetween smallLetters capitals)
open Profiles (Display Settings SettingsResponse)

/-! ## Requests -/

structure UpdateSettingsRequest where
  pushNotifications : Option Bool
  appNotifications : Option Bool
  emailNotifications : Option Bool
  pushNotificationToken : Option String
  display : Option Display
  language : Option String
  notificationPreferences : Option Value

def UpdateSettingsRequest.validate (req : UpdateSettingsRequest) : List FieldError :=
  (req.pushNotificationToken.elim [] fun s =>
    checkField "push_notification_token" (validateBetween 0 (some 4096) "Push token too long" s)) ++
  (req.language.elim [] fun s =>
    checkField "language" (validateBetween 2 (some 10) "Invalid language code" s))

/-- `LANG_RE`: `^[a-zA-Z]{2}(-[a-zA-Z]{2,4})?$` -/
def langRe : RegularExpression Char :=
  let letter := oneOf (smallLetters ++ capitals)
  letter * letter * optional (char '-' * (letter * letter * upTo 2 letter))

def isLang (s : String) : Bool := langRe.rmatch s.toList

inductive SettingsError where
  | notFound
  | invalidLanguage
  | database (e : DbError)
  | validationError (errors : List FieldError)

/-- What goes into the `UPDATE`. -/
structure SettingsInput where
  userId : Uuid
  pushNotifications : Option Bool
  appNotifications : Option Bool
  emailNotifications : Option Bool
  pushNotificationToken : Option String
  notificationPreferences : Option Value
  display : Option Display
  language : Option String

def UpdateSettingsRequest.input (req : UpdateSettingsRequest) (userId : Uuid) : SettingsInput where
  userId := userId
  pushNotifications := req.pushNotifications
  appNotifications := req.appNotifications
  emailNotifications := req.emailNotifications
  pushNotificationToken := req.pushNotificationToken
  notificationPreferences := req.notificationPreferences
  display := req.display
  language := req.language

/-! ## Messages -/

/-- What a message says, whoever gets it. -/
structure PushContent where
  title : String
  body : String
  image : Option String
  deepLink : String
deriving DecidableEq

structure PushMessage where
  token : String
  title : String
  body : String
  image : Option String
  data : List (String × String)
deriving DecidableEq

/-- A message that FCM was asked to deliver, and the user for whom it was. -/
structure Post where
  userId : Uuid
  message : PushMessage
deriving DecidableEq

/-- `send_to_user_if_enabled` names the user in the data. -/
def PushContent.toUser (content : PushContent) (userId : Uuid) (token : String) : Post where
  userId := userId
  message := {
    token
    title := content.title
    body := content.body
    image := content.image
    data := [("deep_link", content.deepLink), ("user_id", userId.text)] }

def PushContent.toDevice (content : PushContent) (userId : Uuid) (token : String) : Post where
  userId := userId
  message := {
    token
    title := content.title
    body := content.body
    image := content.image
    data := [("deep_link", content.deepLink)] }

/-! ## Rows -/

structure SettingsDb where
  settings : Table Settings Settings.userId
  /-- The users of the last look-up of tokens. -/
  lookUp : Option (List Uuid)
  /-- The last message that was posted for a user. -/
  posts : Table Post Post.userId

inductive SettingsWrite where
  | settings (row : Settings)
  | lookUp (userIds : List Uuid)
  | post (p : Post)

def SettingsDb.apply (db : SettingsDb) : SettingsWrite → SettingsDb
  | .settings row => { db with settings := db.settings.put row }
  | .lookUp us => { db with lookUp := some us }
  | .post p => { db with posts := db.posts.put p }

/-- The defaults of the columns. -/
def Profiles.Settings.inserted (userId : Uuid) : Settings where
  userId := userId
  pushNotifications := false
  appNotifications := false
  emailNotifications := false
  pushNotificationToken := none
  notificationPreferences := .object []
  display := .system
  language := "en"

def Profiles.Settings.withoutToken (s : Settings) : Settings :=
  { s with pushNotificationToken := none }

/-- `COALESCE` keeps what is not given. -/
def SettingsInput.set (input : SettingsInput) (preferences : Option Value) (s : Settings) :
    Settings where
  userId := s.userId
  pushNotifications := input.pushNotifications.getD s.pushNotifications
  appNotifications := input.appNotifications.getD s.appNotifications
  emailNotifications := input.emailNotifications.getD s.emailNotifications
  pushNotificationToken := input.pushNotificationToken.or s.pushNotificationToken
  notificationPreferences := preferences.getD s.notificationPreferences
  display := input.display.getD s.display
  language := input.language.getD s.language

/-! ## Statements -/

-- What a `JSONB` column keeps of a value.
variable (jsonb : Value → Except DbError Value)

namespace SettingsRepository

def update (db : SettingsDb) (input : SettingsInput) :
    Except DbError (Settings × List SettingsWrite) := do
  bindTextOpt input.pushNotificationToken
  let preferences ← input.notificationPreferences.mapM jsonb
  bindTextOpt input.language
  match db.settings.get input.userId with
  | none => throw .rowNotFound
  | some s => return (input.set preferences s, [.settings (input.set preferences s)])

/-- The same in both repositories. -/
def clearPushToken (db : SettingsDb) (userId : Uuid) : List SettingsWrite :=
  ((db.settings.get userId).map fun s => .settings s.withoutToken).toList

/-- Of `create_user`; the user is new. -/
def insertSettings (db : SettingsDb) (userId : Uuid) : Except DbError (Unit × List SettingsWrite) :=
  if (db.settings.get userId).isSome then .error .uniqueViolation
  else .ok ((), [.settings (Settings.inserted userId)])

def getPushToken (db : SettingsDb) (userId : Uuid) : Option String :=
  ((db.settings.get userId).filter Settings.pushNotifications).bind
    Settings.pushNotificationToken

def getPushTokensBatch (db : SettingsDb) (userIds : List Uuid) : List (Uuid × String) :=
  (db.settings.rows.filter fun s => userIds.contains s.userId && s.pushNotifications).filterMap
    fun s => s.pushNotificationToken.map fun token => (s.userId, token)

end SettingsRepository

inductive SettingsStmt : Type → Type where
  | findByUserId (userId : Uuid) : SettingsStmt (Option Settings)
  | update (input : SettingsInput) : SettingsStmt Settings
  | clearPushToken (userId : Uuid) : SettingsStmt Unit
  | insertSettings (userId : Uuid) : SettingsStmt Unit
  | getPushToken (userId : Uuid) : SettingsStmt (Option String)
  | getPushTokensBatch (userIds : List Uuid) : SettingsStmt (List (Uuid × String))
  | invalidateCachedProfile (userId : Uuid) : SettingsStmt Unit
  /-- `send`, and what comes of it. -/
  | send (p : Post) (result : Except PushError Unit) : SettingsStmt (Except PushError Unit)

def SettingsStmt.exec : {β : Type} → SettingsStmt β → OffsetDateTime → SettingsDb →
    Except DbError (β × List SettingsWrite)
  | _, .findByUserId u, _, db => .ok (db.settings.get u, [])
  | _, .update input, _, db => SettingsRepository.update jsonb db input
  | _, .clearPushToken u, _, db => .ok ((), SettingsRepository.clearPushToken db u)
  | _, .insertSettings u, _, db => SettingsRepository.insertSettings db u
  | _, .getPushToken u, _, db => .ok (SettingsRepository.getPushToken db u, [.lookUp [u]])
  | _, .getPushTokensBatch us, _, db =>
    .ok (SettingsRepository.getPushTokensBatch db us, [.lookUp us])
  | _, .invalidateCachedProfile _, _, _ => .ok ((), [])
  | _, .send p result, _, _ => .ok (result, if SendTask.reached result then [.post p] else [])

def settingsEngine : Engine SettingsStmt SettingsDb SettingsWrite OffsetDateTime DbError where
  exec := SettingsStmt.exec jsonb
  apply := SettingsDb.apply
  fault := .infrastructure

/-! ## Operations -/

abbrev SettingsSvc (α : Type) := Txn SettingsStmt DbError SettingsError α

namespace SettingsService

def query {β : Type} (s : SettingsStmt β) : SettingsSvc β :=
  Act.ask SettingsError.database (.exec .pool s)

/-- `let _ = ..`. -/
def ignore {β : Type} (s : SettingsStmt β) : SettingsSvc Unit := do
  let _ ← Act.attempt (query s)

def get (userId : Uuid) : SettingsSvc SettingsResponse := do
  match ← query (.findByUserId userId) with
  | none => throw .notFound
  | some s => return s.response

def update (userId : Uuid) (req : UpdateSettingsRequest) : SettingsSvc SettingsResponse := do
  if req.language.any fun lang => !isLang lang then throw .invalidLanguage
  else
    let updated ← query (.update (req.input userId))
    ignore (.invalidateCachedProfile userId)
    return updated.response

def clearPushToken (userId : Uuid) : SettingsSvc Unit := do
  query (.clearPushToken userId)
  ignore (.invalidateCachedProfile userId)

/-- The handler. -/
def updateSettings (userId : Uuid) (body : UpdateSettingsRequest) : SettingsSvc SettingsResponse :=
  match body.validate with
  | [] => update userId body
  | errors => throw (.validationError errors)

/-- Of `create_user`, what is done to the settings. -/
def insertSettings (userId : Uuid) : SettingsSvc Unit := do
  Act.ask SettingsError.database .begin
  Act.ask SettingsError.database (.exec .tx (.insertSettings userId))
  Act.ask SettingsError.database .commit

end SettingsService

namespace PushNotificationService

/-- A token that FCM does not know is cleared by a task of its own. -/
def sendToUserIfEnabled (userId : Uuid) (content : PushContent) (result : Except PushError Unit) :
    SettingsSvc Unit := do
  match ← Act.attempt (SettingsService.query (.getPushToken userId)) with
  | .ok (some token) =>
    match ← Act.attempt (SettingsService.query (.send (content.toUser userId token) result)) with
    | .ok (.error .tokenInvalid) => SettingsService.ignore (.clearPushToken userId)
    | _ => return ()
  | _ => return ()

/-- One after the other, as they come to FCM. -/
def sendMulticast (content : PushContent) (results : Uuid → Except PushError Unit) :
    List (Uuid × String) → SettingsSvc Unit
  | [] => return ()
  | (userId, token) :: tokens => do
    SettingsService.ignore (.send (content.toDevice userId token) (results userId))
    sendMulticast content results tokens

end PushNotificationService

/-- The order of the map of tokens, and of the fifty calls at a time. -/
structure SendOrder where
  order : List (Uuid × String) → List (Uuid × String)
  perm : ∀ tokens, (order tokens).Perm tokens

/-- The task that `notify_many` spawns. -/
def NotificationService.pushMany (userIds : List Uuid) (content : PushContent) (sends : SendOrder)
    (results : Uuid → Except PushError Unit) : SettingsSvc Unit := do
  match ← Act.attempt (SettingsService.query (.getPushTokensBatch userIds)) with
  | .ok tokens => PushNotificationService.sendMulticast content results (sends.order tokens)
  | .error _ => return ()

inductive SettingsOp where
  | get (userId : Uuid)
  | update (userId : Uuid) (body : UpdateSettingsRequest)
  | clearPushToken (userId : Uuid)
  | insertSettings (userId : Uuid)
  | pushTo (userId : Uuid) (content : PushContent) (result : Except PushError Unit)
  | pushMany (userIds : List Uuid) (content : PushContent) (sends : SendOrder)
      (results : Uuid → Except PushError Unit)

inductive SettingsAnswer where
  | settings (r : SettingsResponse)
  | done

def SettingsOp.prog : SettingsOp → SettingsSvc SettingsAnswer
  | .get u => do return .settings (← SettingsService.get u)
  | .update u body => do return .settings (← SettingsService.updateSettings u body)
  | .clearPushToken u => do
    SettingsService.clearPushToken u
    return .done
  | .insertSettings u => do
    SettingsService.insertSettings u
    return .done
  | .pushTo u content result => do
    PushNotificationService.sendToUserIfEnabled u content result
    return .done
  | .pushMany us content sends results => do
    NotificationService.pushMany us content sends results
    return .done

end Meno
