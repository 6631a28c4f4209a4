import Meno.Auth.Model
import Meno.Shared.Json

/-!
# Meno.Profile.Dto

The responses of the profile module, and how Redis keeps them: as JSON, with the fields in the order
of the struct.
-/

namespace Meno

open Auth (AuthProvider)

namespace Profiles

/-! ## Settings -/

inductive Display where
  | system
  | light
  | dark
deriving DecidableEq

structure Settings where
  userId : Uuid
  pushNotifications : Bool
  appNotifications : Bool
  emailNotifications : Bool
  pushNotificationToken : Option String
  notificationPreferences : Value
  display : Display
  language : String

def Settings.new (userId : Uuid) : Settings where
  userId := userId
  pushNotifications := true
  appNotifications := true
  emailNotifications := true
  pushNotificationToken := none
  notificationPreferences := .object []
  display := .system
  language := "en"

structure SettingsResponse where
  pushNotifications : Bool
  appNotifications : Bool
  emailNotifications : Bool
  display : Display
  language : String
  notificationPreferences : Value
  hasPushToken : Bool

def Settings.response (s : Settings) : SettingsResponse where
  pushNotifications := s.pushNotifications
  appNotifications := s.appNotifications
  emailNotifications := s.emailNotifications
  display := s.display
  language := s.language
  notificationPreferences := s.notificationPreferences
  hasPushToken := s.pushNotificationToken.isSome

/-! ## Responses -/

structure MeResponse where
  id : Uuid
  fullName : String
  bio : Option String
  email : String
  verified : Bool
  avatarId : Option String
  avatarUrl : Option String
  createdAt : OffsetDateTime
  providers : List AuthProvider
  settings : SettingsResponse

/-- Redis gives it back: two structs are around the preferences. -/
def MeResponse.Readable (r : MeResponse) : Prop :=
  r.settings.notificationPreferences.nestsWithin (recursionLimit - 1 - 1) = true

instance (r : MeResponse) : Decidable r.Readable := inferInstanceAs (Decidable (_ = _))

structure PublicProfileResponse where
  id : Uuid
  fullName : String
  bio : Option String
  avatarUrl : Option String
  isFollowing : Bool
  followers : Int64
  following : Int64
  broadcasts : Int64
  createdAt : OffsetDateTime
deriving DecidableEq

structure ProfileSearchResult where
  id : Uuid
  fullName : String
  bio : Option String
  avatarUrl : Option String
  isFollowing : Bool
  followers : Int64
  following : Int64
  broadcasts : Int64
  createdAt : OffsetDateTime
deriving DecidableEq

/-! ## JSON -/

def Display.variants : List (String × Display) :=
  [("system", .system), ("light", .light), ("dark", .dark)]

def Display.name : Display → String
  | .system => "system"
  | .light => "light"
  | .dark => "dark"

def providerVariants : List (String × AuthProvider) :=
  [("email", .email), ("google", .google), ("apple", .apple), ("facebook", .facebook)]

def providerName : AuthProvider → String
  | .email => "email"
  | .google => "google"
  | .apple => "apple"
  | .facebook => "facebook"

def providersValue (ps : List AuthProvider) : Value :=
  .array (ps.map fun p => .string (providerName p))

def readProviders : Value → Except DeError (List AuthProvider) :=
  Value.readList (Value.readVariant providerVariants)

namespace SettingsResponse

def toValue (s : SettingsResponse) : Value :=
  .object
    [("push_notifications", .bool s.pushNotifications),
     ("app_notifications", .bool s.appNotifications),
     ("email_notifications", .bool s.emailNotifications),
     ("display", .string s.display.name),
     ("language", .string s.language),
     ("notification_preferences", s.notificationPreferences),
     ("has_push_token", .bool s.hasPushToken)]

/-- The preferences may be nested, and the struct takes one of what remains. -/
def fromValue (remaining : Nat) (v : Value) : Except DeError SettingsResponse := do
  let field := Value.field "struct SettingsResponse" 7
  v.visit
    [("push_notifications", Value.skim Value.readBool),
     ("app_notifications", Value.skim Value.readBool),
     ("email_notifications", Value.skim Value.readBool),
     ("display", Value.skim (Value.readVariant Display.variants)),
     ("language", Value.skim Value.readText),
     ("notification_preferences", Value.skim (Value.readAny (remaining - 1))),
     ("has_push_token", Value.skim Value.readBool)]
  let pushNotifications ← (← field 0 "push_notifications" v).readBool
  let appNotifications ← (← field 1 "app_notifications" v).readBool
  let emailNotifications ← (← field 2 "email_notifications" v).readBool
  let display ← (← field 3 "display" v).readVariant Display.variants
  let language ← (← field 4 "language" v).readText
  let notificationPreferences ←
    (← field 5 "notification_preferences" v).readAny (remaining - 1)
  let hasPushToken ← (← field 6 "has_push_token" v).readBool
  v.finish 7
  return { pushNotifications, appNotifications, emailNotifications, display, language,
           notificationPreferences, hasPushToken }

end SettingsResponse

namespace MeResponse

def toValue (t : Rfc3339) (r : MeResponse) : Value :=
  .object
    [("id", .string r.id.text),
     ("full_name", .string r.fullName),
     ("bio", Value.ofOption .string r.bio),
     ("email", .string r.email),
     ("verified", .bool r.verified),
     ("avatar_id", Value.ofOption .string r.avatarId),
     ("avatar_url", Value.ofOption .string r.avatarUrl),
     ("created_at", .string (t.format r.createdAt)),
     ("providers", providersValue r.providers),
     ("settings", r.settings.toValue)]

def fromValue (t : Rfc3339) (v : Value) : Except DeError MeResponse := do
  let field := Value.field "struct MeResponse" 10
  let optional := Value.optionalField "struct MeResponse" 10
  v.visit
    [("id", Value.skim Value.readUuid),
     ("full_name", Value.skim Value.readText),
     ("bio", Value.skim (Value.readOption Value.readText)),
     ("email", Value.skim Value.readText),
     ("verified", Value.skim Value.readBool),
     ("avatar_id", Value.skim (Value.readOption Value.readText)),
     ("avatar_url", Value.skim (Value.readOption Value.readText)),
     ("created_at", Value.skim (Value.readTime t)),
     ("providers", Value.skim readProviders),
     ("settings", Value.skim (SettingsResponse.fromValue (recursionLimit - 1)))]
  let id ← (← field 0 "id" v).readUuid
  let fullName ← (← field 1 "full_name" v).readText
  let bio ← (← optional 2 "bio" v).readOption Value.readText
  let email ← (← field 3 "email" v).readText
  let verified ← (← field 4 "verified" v).readBool
  let avatarId ← (← optional 5 "avatar_id" v).readOption Value.readText
  let avatarUrl ← (← optional 6 "avatar_url" v).readOption Value.readText
  let createdAt ← (← field 7 "created_at" v).readTime t
  let providers ← readProviders (← field 8 "providers" v)
  let settings ← SettingsResponse.fromValue (recursionLimit - 1) (← field 9 "settings" v)
  v.finish 10
  return { id, fullName, bio, email, verified, avatarId, avatarUrl, createdAt, providers, settings }

end MeResponse

namespace PublicProfileResponse

def toValue (t : Rfc3339) (r : PublicProfileResponse) : Value :=
  .object
    [("id", .string r.id.text),
     ("full_name", .string r.fullName),
     ("bio", Value.ofOption .string r.bio),
     ("avatar_url", Value.ofOption .string r.avatarUrl),
     ("is_following", .bool r.isFollowing),
     ("followers", .ofInt64 r.followers),
     ("following", .ofInt64 r.following),
     ("broadcasts", .ofInt64 r.broadcasts),
     ("created_at", .string (t.format r.createdAt))]

/-- What is read of `struct`, which has the same fields. -/
def readAs (struct : String) (t : Rfc3339) (v : Value) : Except DeError PublicProfileResponse := do
  let field := Value.field struct 9
  let optional := Value.optionalField struct 9
  v.visit
    [("id", Value.skim Value.readUuid),
     ("full_name", Value.skim Value.readText),
     ("bio", Value.skim (Value.readOption Value.readText)),
     ("avatar_url", Value.skim (Value.readOption Value.readText)),
     ("is_following", Value.skim Value.readBool),
     ("followers", Value.skim Value.readInt64),
     ("following", Value.skim Value.readInt64),
     ("broadcasts", Value.skim Value.readInt64),
     ("created_at", Value.skim (Value.readTime t))]
  let id ← (← field 0 "id" v).readUuid
  let fullName ← (← field 1 "full_name" v).readText
  let bio ← (← optional 2 "bio" v).readOption Value.readText
  let avatarUrl ← (← optional 3 "avatar_url" v).readOption Value.readText
  let isFollowing ← (← field 4 "is_following" v).readBool
  let followers ← (← field 5 "followers" v).readInt64
  let following ← (← field 6 "following" v).readInt64
  let broadcasts ← (← field 7 "broadcasts" v).readInt64
  let createdAt ← (← field 8 "created_at" v).readTime t
  v.finish 9
  return { id, fullName, bio, avatarUrl, isFollowing, followers, following, broadcasts, createdAt }

def fromValue (t : Rfc3339) (v : Value) : Except DeError PublicProfileResponse :=
  readAs "struct PublicProfileResponse" t v

end PublicProfileResponse

namespace ProfileSearchResult

/-- The same fields, in the same order. -/
def asPublic (r : ProfileSearchResult) : PublicProfileResponse :=
  { r with }

def ofPublic (r : PublicProfileResponse) : ProfileSearchResult :=
  { r with }

def toValue (t : Rfc3339) (r : ProfileSearchResult) : Value := r.asPublic.toValue t

def fromValue (t : Rfc3339) (v : Value) : Except DeError ProfileSearchResult :=
  (PublicProfileResponse.readAs "struct ProfileSearchResult" t v).map ofPublic

end ProfileSearchResult

/-! ## What was written is read back, as what it was written -/

open Value

theorem readVariant_name (d : Display) :
    readVariant Display.variants (.string d.name) = .ok d := by
  cases d <;> rfl

theorem readVariant_providerName (p : AuthProvider) :
    readVariant providerVariants (.string (providerName p)) = .ok p := by
  cases p <;> rfl

theorem readProviders_value (ps : List AuthProvider) : readProviders (providersValue ps) = .ok ps :=
  readList_map readVariant_providerName ps

section

variable {s : SettingsResponse} {remaining : Nat}

theorem SettingsResponse.fromValue_toValue
    (h : s.notificationPreferences.nestsWithin (remaining - 1) = true) :
    fromValue remaining s.toValue = .ok s := by
  simp [fromValue, toValue, visit_object, field_object, finish_object, skim, List.lookup_cons,
    readVariant_name, readAny_of_nests h, ok_bind, pure_ok, Except.map]

theorem SettingsResponse.fromValue_nested
    (h : s.notificationPreferences.nestsWithin (remaining - 1) = false) :
    fromValue remaining s.toValue = .error .recursionLimitExceeded := by
  simp [fromValue, toValue, visit_object, skim, List.lookup_cons, readVariant_name,
    readAny_of_not_nests h, ok_bind, error_bind, pure_ok, Except.map]

end

section

variable (t : Rfc3339)

theorem MeResponse.fromValue_toValue {r : MeResponse} (h : Rfc3339.Fits r.createdAt)
    (hr : r.Readable) : fromValue t (r.toValue t) = .ok r := by
  have hsettings := SettingsResponse.fromValue_toValue hr
  simp [fromValue, toValue, visit_object, field_object, optionalField_object, finish_object, skim,
    List.lookup_cons, readProviders_value, readTime_format t h, hsettings, ok_bind, pure_ok,
    Except.map]

theorem MeResponse.fromValue_nested {r : MeResponse} (h : Rfc3339.Fits r.createdAt)
    (hr : ¬ r.Readable) : fromValue t (r.toValue t) = .error .recursionLimitExceeded := by
  have hsettings := SettingsResponse.fromValue_nested (Bool.eq_false_of_not_eq_true hr)
  simp [fromValue, toValue, visit_object, skim, List.lookup_cons, readProviders_value,
    readTime_format t h, hsettings, ok_bind, error_bind, pure_ok, Except.map]

theorem PublicProfileResponse.fromValue_toValue {r : PublicProfileResponse}
    (h : Rfc3339.Fits r.createdAt) : fromValue t (r.toValue t) = .ok r := by
  simp [fromValue, readAs, toValue, visit_object, field_object, optionalField_object,
    finish_object, skim, List.lookup_cons, readTime_format t h, ok_bind, pure_ok, Except.map]

/-- A public profile has no e-mail address. -/
theorem MeResponse.fromValue_public {r : PublicProfileResponse} (h : Rfc3339.Fits r.createdAt) :
    fromValue t (r.toValue t) = .error (.missingField "email") := by
  simp [fromValue, PublicProfileResponse.toValue, visit_object, field_object, optionalField_object,
    skim, List.lookup_cons, readTime_format t h, ok_bind, error_bind, pure_ok, Except.map]

/-- Nobody follows in one's own profile. -/
theorem PublicProfileResponse.fromValue_me {r : MeResponse} (h : Rfc3339.Fits r.createdAt) :
    fromValue t (r.toValue t) = .error (.missingField "is_following") := by
  simp [fromValue, readAs, MeResponse.toValue, visit_object, field_object, optionalField_object,
    skim, List.lookup_cons, readTime_format t h, ok_bind, error_bind, pure_ok, Except.map]

end

end Profiles

end Meno
