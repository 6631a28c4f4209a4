import Meno.Auth.Services
import Meno.Lib.Grammar
import Meno.Lib.Text

/-!
# Meno.Auth.Validators

What the requests of the auth module accept. `RegisterRequest` has the e-mail rule of the `validator`
crate, all the others have the pattern of `validate_email`, which knows small letters only, no empty
piece between the dots of the local part, and no domain without a dot. So the addresses that can log
in are those without these (`registered_portable_iff`).
-/

namespace Meno

namespace Auth

open Lib Lib.Grammar RegularExpression

/-! ## Patterns -/

/-- A range such as `a-z`. -/
def charRange (a b : Char) : List Char := (List.range' a.toNat (b.toNat + 1 - a.toNat)).map Char.ofNat

def smallLetters : List Char := charRange 'a' 'z'

def capitals : List Char := charRange 'A' 'Z'

def digits : List Char := charRange '0' '9'

/-- The signs that an address may have besides letters, digits and dots. -/
def signs : List Char :=
  ['!', '#', '$', '%', '&', '\x27', '*', '+', '/', '=', '?', '^', '_', '\x60', '\x7b', '|', '\x7d',
    '~', '-']

/-- `[cs](?:inner[cs])?` -/
def label (cs : List Char) (inner : RegularExpression Char) : RegularExpression Char :=
  oneOf cs * optional (inner * oneOf cs)

/-- `[a-z0-9](?:[a-z0-9-]*[a-z0-9])?` -/
def smallLabel : RegularExpression Char :=
  label (smallLetters ++ digits) (star (oneOf (smallLetters ++ digits ++ ['-'])))

/-- The pattern that `validate_email` matches with the whole text. -/
def emailRegex : RegularExpression Char :=
  pieces '.' (many (oneOf (smallLetters ++ digits ++ signs))) * (char '@' * piecesTwo '.' smallLabel)

/-- `[a-zA-Z0-9](?:[a-zA-Z0-9-]{0,61}[a-zA-Z0-9])?` -/
def htmlLabel : RegularExpression Char :=
  label (smallLetters ++ capitals ++ digits)
    (upTo 61 (oneOf (smallLetters ++ capitals ++ digits ++ ['-'])))

/-- The rule of HTML5, which the `validator` crate has for `email`. -/
def htmlEmail : RegularExpression Char :=
  many (oneOf (smallLetters ++ capitals ++ digits ++ signs ++ ['.'])) *
    (char '@' * pieces '.' htmlLabel)

/-! ## Checks -/

/-- The code and the message of a failed check. -/
structure Refusal where
  code : String
  message : String
deriving DecidableEq

/-- A refusal with the field that it is about. -/
structure FieldError where
  field : String
  refusal : Refusal
deriving DecidableEq

/-- `char::is_lowercase` and `char::is_uppercase`. -/
structure LetterCase where
  isLowercase : Char → Bool
  isUppercase : Char → Bool

def validateEmail (s : String) : Except Refusal Unit :=
  if emailRegex.rmatch s.toList then .ok ()
  else .error { code := "email", message := "Invalid email format" }

/-- The length is that of the bytes. -/
def validatePassword (u : LetterCase) (password : String) : Except Refusal Unit :=
  let errors : List String :=
    (if password.utf8ByteSize < 8 then ["Password must be at least 8 characters"] else []) ++
    (if password.utf8ByteSize > 128 then ["Password is too long"] else []) ++
    (if password.toList.any u.isLowercase then []
      else ["Password must contain at least one lowercase letter"]) ++
    (if password.toList.any u.isUppercase then []
      else ["Password must contain at least one uppercase letter"])
  if errors.isEmpty then .ok ()
  else .error { code := "strong_password", message := ", ".intercalate errors }

/-- `#[validate(email(message = ..))]` -/
def validateHtmlEmail (message s : String) : Except Refusal Unit :=
  if htmlEmail.rmatch s.toList then .ok () else .error { code := "email", message }

/-- `#[validate(length(min = .., max = .., message = ..))]`, in characters. -/
def validateBetween (min : Nat) (max : Option Nat) (message s : String) : Except Refusal Unit :=
  if min ≤ s.length ∧ (∀ m ∈ max, s.length ≤ m) then .ok () else .error { code := "length", message }

/-- The error of one field, if its check fails. -/
def checkField (field : String) : Except Refusal Unit → List FieldError
  | .ok _ => []
  | .error refusal => [{ field, refusal }]

/-! ## Requests -/

structure LoginRequest where
  email : String
  password : String

structure ForgotPasswordRequest where
  email : String

structure ResendOtpRequest where
  email : String
  otpType : OtpType

structure VerifyEmailRequest where
  email : String
  code : String

def RegisterRequest.validate (u : LetterCase) (req : RegisterRequest) : List FieldError :=
  checkField "full_name"
      (validateBetween 3 (some 100) "Full name must be between 3 and 100 characters" req.fullName) ++
    checkField "email" (validateHtmlEmail "Invalid email format" req.email) ++
    checkField "password" (validatePassword u req.password)

def LoginRequest.validate (req : LoginRequest) : List FieldError :=
  checkField "email" (validateEmail req.email) ++
    checkField "password" (validateBetween 1 none "Password is required" req.password)

def ForgotPasswordRequest.validate (req : ForgotPasswordRequest) : List FieldError :=
  checkField "email" (validateEmail req.email)

def ResendOtpRequest.validate (req : ResendOtpRequest) : List FieldError :=
  checkField "email" (validateEmail req.email)

def ResetPasswordRequest.validate (u : LetterCase) (req : ResetPasswordRequest) : List FieldError :=
  checkField "email" (validateEmail req.email) ++
    checkField "code" (validateBetween 1 none "Code is required" req.code) ++
    checkField "new_password" (validatePassword u req.newPassword)

def VerifyEmailRequest.validate (req : VerifyEmailRequest) : List FieldError :=
  checkField "email" (validateEmail req.email) ++
    checkField "code" (validateBetween 1 none "Code is required" req.code)

/-! ## Classes -/

theorem isUpper_of_capitals {c : Char} (h : c ∈ capitals) : c.isUpper = true :=
  List.all_eq_true.1 (by decide : capitals.all Char.isUpper = true) c h

theorem small_of_alnum {c : Char} (h : c ∈ smallLetters ++ capitals ++ digits)
    (hc : c.isUpper = false) : c ∈ smallLetters ++ digits := by
  rw [List.mem_append, List.mem_append] at h
  rcases h with (h | h) | h
  · exact List.mem_append_left _ h
  · rw [isUpper_of_capitals h] at hc
    cases hc
  · exact List.mem_append_right _ h

/-- No capital, dot or separator of the address. -/
theorem of_small {c : Char} (h : c ∈ smallLetters ++ digits ++ signs) :
    c.isUpper = false ∧ c ≠ '.' ∧ c ≠ '@' := by
  have hall : ((smallLetters ++ digits ++ signs).all fun c =>
      !c.isUpper && c != '.' && c != '@') = true := by decide
  have hc := List.all_eq_true.1 hall c h
  simpa [and_assoc] using hc

/-! ## Labels -/

theorem mem_label {cs : List Char} {inner : RegularExpression Char} {w : List Char} :
    w ∈ (label cs inner).matches' ↔ (∃ a ∈ cs, w = [a]) ∨
      ∃ a ∈ cs, ∃ m ∈ inner.matches', ∃ b ∈ cs, w = a :: (m ++ [b]) := by
  rw [label, matches'_mul, Language.mem_mul]
  constructor
  · rintro ⟨p, hp, q, hq, rfl⟩
    obtain ⟨a, ha, rfl⟩ := mem_oneOf.1 hp
    rcases mem_optional.1 hq with rfl | hq
    · exact .inl ⟨a, ha, rfl⟩
    · rw [matches'_mul, Language.mem_mul] at hq
      obtain ⟨m, hm, x, hx, rfl⟩ := hq
      obtain ⟨b, hb, rfl⟩ := mem_oneOf.1 hx
      exact .inr ⟨a, ha, m, hm, b, hb, rfl⟩
  · rintro (⟨a, ha, rfl⟩ | ⟨a, ha, m, hm, b, hb, rfl⟩)
    · exact ⟨[a], mem_oneOf.2 ⟨a, ha, rfl⟩, [], mem_optional.2 (.inl rfl), rfl⟩
    · have hend : m ++ [b] ∈ (inner * oneOf cs).matches' := by
        rw [matches'_mul, Language.mem_mul]
        exact ⟨m, hm, [b], mem_oneOf.2 ⟨b, hb, rfl⟩, rfl⟩
      exact ⟨[a], mem_oneOf.2 ⟨a, ha, rfl⟩, m ++ [b], mem_optional.2 (.inr hend), rfl⟩

/-- The characters of a label. -/
theorem label_chars {cs ds : List Char} {inner : RegularExpression Char} (hcs : ∀ c ∈ cs, c ∈ ds)
    (hinner : ∀ m ∈ inner.matches', ∀ c ∈ m, c ∈ ds) {w : List Char}
    (h : w ∈ (label cs inner).matches') : ∀ c ∈ w, c ∈ ds := by
  rcases mem_label.1 h with ⟨a, ha, rfl⟩ | ⟨a, ha, m, hm, b, hb, rfl⟩
  · exact List.forall_mem_cons.2 ⟨hcs a ha, List.forall_mem_nil _⟩
  · refine List.forall_mem_cons.2 ⟨hcs a ha, fun c hc => ?_⟩
    rcases List.mem_append.1 hc with hc | hc
    · exact hinner m hm c hc
    · rw [List.mem_singleton.1 hc]
      exact hcs b hb

theorem smallLabel_chars {w : List Char} (h : w ∈ smallLabel.matches') :
    ∀ c ∈ w, c ∈ smallLetters ++ digits ++ ['-'] :=
  label_chars (fun _ => List.mem_append_left _) (fun _ hm => mem_star_oneOf.1 hm) h

theorem htmlLabel_chars {w : List Char} (h : w ∈ htmlLabel.matches') :
    ∀ c ∈ w, c ∈ smallLetters ++ capitals ++ digits ++ ['-'] :=
  label_chars (fun _ => List.mem_append_left _) (fun _ hm => (mem_upTo_oneOf.1 hm).2) h

/-- A label of HTML5 without capitals is one of `validate_email`. -/
theorem smallLabel_of_html {w : List Char} (h : w ∈ htmlLabel.matches')
    (hw : ∀ c ∈ w, c.isUpper = false) : w ∈ smallLabel.matches' := by
  refine mem_label.2 ?_
  rcases mem_label.1 h with ⟨a, ha, rfl⟩ | ⟨a, ha, m, hm, b, hb, rfl⟩
  · exact .inl ⟨a, small_of_alnum ha (hw a List.mem_cons_self), rfl⟩
  · have hm' : ∀ c ∈ m, c ∈ smallLetters ++ digits ++ ['-'] := by
      intro c hc
      rcases List.mem_append.1 ((mem_upTo_oneOf.1 hm).2 c hc) with halnum | hdash
      · exact List.mem_append_left _ (small_of_alnum halnum (hw c (by simp [hc])))
      · exact List.mem_append_right _ hdash
    exact .inr ⟨a, small_of_alnum ha (hw a List.mem_cons_self), m, mem_star_oneOf.2 hm', b,
      small_of_alnum hb (hw b (by simp)), rfl⟩

/-! ## Addresses -/

theorem mem_address {l d : RegularExpression Char} {w : List Char} :
    w ∈ (l * (char '@' * d)).matches' ↔
      ∃ user ∈ l.matches', ∃ domain ∈ d.matches', w = user ++ '@' :: domain := by
  rw [matches'_mul, Language.mem_mul, matches'_mul]
  constructor
  · rintro ⟨user, huser, _, ⟨_, rfl, domain, hdomain, rfl⟩, rfl⟩
    exact ⟨user, huser, domain, hdomain, rfl⟩
  · rintro ⟨user, huser, domain, hdomain, rfl⟩
    exact ⟨user, huser, '@' :: domain, ⟨['@'], rfl, domain, hdomain, rfl⟩, rfl⟩

theorem mem_htmlEmail {w : List Char} :
    w ∈ htmlEmail.matches' ↔ ∃ user domain, w = user ++ '@' :: domain ∧
      (user ≠ [] ∧ ∀ c ∈ user, c ∈ smallLetters ++ capitals ++ digits ++ signs ++ ['.']) ∧
      ∀ p ∈ domain.splitOn '.', p ∈ htmlLabel.matches' := by
  have hdot : ∀ p ∈ htmlLabel.matches', '.' ∉ p := fun p hp hmem =>
    absurd (htmlLabel_chars hp '.' hmem) (by decide)
  rw [htmlEmail, mem_address]
  constructor
  · rintro ⟨user, huser, domain, hdomain, rfl⟩
    exact ⟨user, domain, rfl, mem_many_oneOf.1 huser, (mem_pieces hdot).1 hdomain⟩
  · rintro ⟨user, domain, rfl, huser, hdomain⟩
    exact ⟨user, mem_many_oneOf.2 huser, domain, (mem_pieces hdot).2 hdomain, rfl⟩

theorem mem_emailRegex {w : List Char} :
    w ∈ emailRegex.matches' ↔ ∃ user domain, w = user ++ '@' :: domain ∧
      (∀ p ∈ user.splitOn '.', p ≠ [] ∧ ∀ c ∈ p, c ∈ smallLetters ++ digits ++ signs) ∧
      '.' ∈ domain ∧ ∀ p ∈ domain.splitOn '.', p ∈ smallLabel.matches' := by
  have hdot : ∀ p ∈ (many (oneOf (smallLetters ++ digits ++ signs))).matches', '.' ∉ p :=
    fun p hp hmem => (of_small ((mem_many_oneOf.1 hp).2 '.' hmem)).2.1 rfl
  have hdot' : ∀ p ∈ smallLabel.matches', '.' ∉ p := fun p hp hmem =>
    absurd (smallLabel_chars hp '.' hmem) (by decide)
  rw [emailRegex, mem_address]
  constructor
  · rintro ⟨user, huser, domain, hdomain, rfl⟩
    exact ⟨user, domain, rfl, fun p hp => mem_many_oneOf.1 ((mem_pieces hdot).1 huser p hp),
      (mem_piecesTwo hdot').1 hdomain⟩
  · rintro ⟨user, domain, rfl, huser, hdomain⟩
    refine ⟨user, (mem_pieces hdot).2 fun p hp => mem_many_oneOf.2 (huser p hp), domain, ?_, rfl⟩
    exact (mem_piecesTwo hdot').2 hdomain

/-- No capital, no empty piece between the dots of the local part, and a dot in the domain. -/
def Portable (email : String) : Prop :=
  (∀ c ∈ email.toList, c.isUpper = false) ∧
    ∃ parts ∈ Text.splitOnce '@' email.toList, [] ∉ parts.1.splitOn '.' ∧ '.' ∈ parts.2

instance (email : String) : Decidable (Portable email) :=
  decidable_of_iff ((email.toList.all fun c => !c.isUpper) = true ∧
      (Text.splitOnce '@' email.toList).any (fun parts =>
        !(parts.1.splitOn '.').contains [] && parts.2.contains '.') = true) <| by
    rw [Portable, List.all_eq_true]
    simp [Option.any_eq_true]

theorem portable_iff {email : String} {user domain : List Char} (hat : '@' ∉ user)
    (h : email.toList = user ++ '@' :: domain) :
    Portable email ↔ (∀ c ∈ email.toList, c.isUpper = false) ∧ [] ∉ user.splitOn '.' ∧
      '.' ∈ domain := by
  have hsplit : Text.splitOnce '@' email.toList = some (user, domain) := by
    rw [h, Text.splitOnce_append hat]
  rw [Portable, hsplit]
  simp

/-- What `validate_email` accepts is portable. -/
theorem portable_of_emailRegex {email : String} (h : email.toList ∈ emailRegex.matches') :
    Portable email := by
  obtain ⟨user, domain, heq, huser, hdot, hdomain⟩ := mem_emailRegex.1 h
  have hchars : ∀ c ∈ user, c = '.' ∨ c ∈ smallLetters ++ digits ++ signs := by
    intro c hc
    by_cases hcdot : c = '.'
    · exact .inl hcdot
    · obtain ⟨p, hp, hcp⟩ := mem_splitOn.2 ⟨hc, hcdot⟩
      exact .inr ((huser p hp).2 c hcp)
  have hat : '@' ∉ user := by
    intro hmem
    rcases hchars '@' hmem with hc | hc
    · exact absurd hc (by decide)
    · exact (of_small hc).2.2 rfl
  refine (portable_iff hat heq).2 ⟨?_, fun hnil => (huser [] hnil).1 rfl, hdot⟩
  intro c hc
  rw [heq] at hc
  rcases List.mem_append.1 hc with hc | hc
  · rcases hchars c hc with rfl | hc
    · decide
    · exact (of_small hc).1
  · rcases List.mem_cons.1 hc with rfl | hc
    · decide
    · by_cases hcdot : c = '.'
      · rw [hcdot]
        decide
      · obtain ⟨p, hp, hcp⟩ := mem_splitOn.2 ⟨hc, hcdot⟩
        have hsmall := smallLabel_chars (hdomain p hp) c hcp
        have hall : ((smallLetters ++ digits ++ ['-']).all fun c => !c.isUpper) = true := by decide
        simpa using List.all_eq_true.1 hall c hsmall

/-- Of the addresses that the rule of HTML5 accepts, `validate_email` accepts the portable ones. -/
theorem emailRegex_of_html {email : String} (h : email.toList ∈ htmlEmail.matches')
    (hport : Portable email) : email.toList ∈ emailRegex.matches' := by
  obtain ⟨user, domain, heq, ⟨-, huser⟩, hdomain⟩ := mem_htmlEmail.1 h
  have hat : '@' ∉ user := fun hmem => absurd (huser '@' hmem) (by decide)
  obtain ⟨hsmall, hpieces, hdot⟩ := (portable_iff hat heq).1 hport
  rw [heq] at hsmall
  refine mem_emailRegex.2 ⟨user, domain, heq, ?_, hdot, ?_⟩
  · intro p hp
    refine ⟨?_, fun c hcp => ?_⟩
    · rintro rfl
      exact hpieces hp
    · obtain ⟨hc, hcdot⟩ := mem_splitOn.1 ⟨p, hp, hcp⟩
      have hupper := hsmall c (List.mem_append_left _ hc)
      rcases List.mem_append.1 (huser c hc) with hclass | hclass
      · rcases List.mem_append.1 hclass with hclass | hclass
        · exact List.mem_append_left _ (small_of_alnum hclass hupper)
        · exact List.mem_append_right _ hclass
      · exact absurd (List.mem_singleton.1 hclass) hcdot
  · intro p hp
    refine smallLabel_of_html (hdomain p hp) fun c hcp => ?_
    have hc := (mem_splitOn.1 ⟨p, hp, hcp⟩).1
    exact hsmall c (List.mem_append_right _ (List.mem_cons_of_mem _ hc))

/-! ## Requests that accept an address -/

/-- No request with this address has an error of its field `email`. -/
def Accepts {R : Type} (validate : R → List FieldError) (email : R → String) (s : String) : Prop :=
  ∀ req, email req = s → ∀ e ∈ validate req, e.field ≠ "email"

theorem checkField_other {field : String} (h : field ≠ "email") (r : Except Refusal Unit) :
    ∀ e ∈ checkField field r, e.field ≠ "email" := by
  cases r with
  | ok v => exact List.forall_mem_nil _
  | error refusal => exact List.forall_mem_cons.2 ⟨h, List.forall_mem_nil _⟩

theorem checkField_email {r : Except Refusal Unit} :
    (∀ e ∈ checkField "email" r, e.field ≠ "email") ↔ r = .ok () := by
  cases r with
  | ok v => simp [checkField]
  | error refusal => simp [checkField]

theorem validateEmail_ok {s : String} :
    validateEmail s = .ok () ↔ s.toList ∈ emailRegex.matches' := by
  rw [validateEmail, ← rmatch_iff_matches']
  split <;> simp_all

theorem validateHtmlEmail_ok {message s : String} :
    validateHtmlEmail message s = .ok () ↔ s.toList ∈ htmlEmail.matches' := by
  rw [validateHtmlEmail, ← rmatch_iff_matches']
  split <;> simp_all

theorem accepts_iff {R : Type} {validate : R → List FieldError} {email : R → String} {s : String}
    {r : String → Except Refusal Unit} {before after : R → List FieldError}
    (hsplit : ∀ req, validate req = before req ++ checkField "email" (r (email req)) ++ after req)
    (hbefore : ∀ req, ∀ e ∈ before req, e.field ≠ "email")
    (hafter : ∀ req, ∀ e ∈ after req, e.field ≠ "email") (hsome : ∃ req, email req = s) :
    Accepts validate email s ↔ r s = .ok () := by
  obtain ⟨req₀, hreq₀⟩ := hsome
  have hone : ∀ req, (∀ e ∈ validate req, e.field ≠ "email") ↔ r (email req) = .ok () := by
    intro req
    rw [hsplit, List.forall_mem_append, List.forall_mem_append, checkField_email]
    exact ⟨fun h => h.1.2, fun h => ⟨⟨hbefore req, h⟩, hafter req⟩⟩
  constructor
  · intro h
    rw [← hreq₀]
    exact (hone req₀).1 (h req₀ hreq₀)
  · intro h req hreq
    refine (hone req).2 ?_
    rw [hreq]
    exact h

theorem register_accepts {u : LetterCase} {email : String} :
    Accepts (RegisterRequest.validate u) RegisterRequest.email email ↔
      email.toList ∈ htmlEmail.matches' := by
  have hregister : Accepts (RegisterRequest.validate u) RegisterRequest.email email ↔
      validateHtmlEmail "Invalid email format" email = .ok () :=
    accepts_iff (fun _ => rfl) (fun _ => checkField_other (by decide) _)
      (fun _ => checkField_other (by decide) _) ⟨⟨"", email, ""⟩, rfl⟩
  rw [hregister, validateHtmlEmail_ok]

/-- The five requests check the address in the same way. -/
theorem others_accept {u : LetterCase} {email : String} :
    (Accepts LoginRequest.validate LoginRequest.email email ∧
      Accepts VerifyEmailRequest.validate VerifyEmailRequest.email email ∧
      Accepts ResendOtpRequest.validate ResendOtpRequest.email email ∧
      Accepts ForgotPasswordRequest.validate ForgotPasswordRequest.email email ∧
      Accepts (ResetPasswordRequest.validate u) ResetPasswordRequest.email email) ↔
      email.toList ∈ emailRegex.matches' := by
  have hnone : ∀ {R : Type} (req : R), ∀ e ∈ (fun _ : R => ([] : List FieldError)) req,
      e.field ≠ "email" := fun _ => List.forall_mem_nil _
  have hlogin : Accepts LoginRequest.validate LoginRequest.email email ↔
      validateEmail email = .ok () :=
    accepts_iff (fun _ => rfl) hnone (fun _ => checkField_other (by decide) _)
      ⟨⟨email, ""⟩, rfl⟩
  have hverify : Accepts VerifyEmailRequest.validate VerifyEmailRequest.email email ↔
      validateEmail email = .ok () :=
    accepts_iff (fun _ => rfl) hnone (fun _ => checkField_other (by decide) _)
      ⟨⟨email, ""⟩, rfl⟩
  have hresend : Accepts ResendOtpRequest.validate ResendOtpRequest.email email ↔
      validateEmail email = .ok () :=
    accepts_iff (fun _ => (List.append_nil _).symm) hnone hnone ⟨⟨email, .verifyEmail⟩, rfl⟩
  have hforgot : Accepts ForgotPasswordRequest.validate ForgotPasswordRequest.email email ↔
      validateEmail email = .ok () :=
    accepts_iff (fun _ => (List.append_nil _).symm) hnone hnone ⟨⟨email⟩, rfl⟩
  have hreset : Accepts (ResetPasswordRequest.validate u) ResetPasswordRequest.email email ↔
      validateEmail email = .ok () := by
    refine accepts_iff (fun req => List.append_assoc (checkField "email" _) _ _) hnone
      (fun req => ?_) ⟨⟨email, "", ""⟩, rfl⟩
    exact List.forall_mem_append.2
      ⟨checkField_other (by decide) _, checkField_other (by decide) _⟩
  rw [hlogin, hverify, hresend, hforgot, hreset, validateEmail_ok]
  simp only [and_self]

/-! ## Who registers can log in -/

/-- **The addresses that can log in.** An address that `RegisterRequest` accepts is accepted by all
other requests exactly if it is portable. -/
theorem registered_portable_iff (u : LetterCase) (email : String)
    (h : Accepts (RegisterRequest.validate u) RegisterRequest.email email) :
    (Accepts LoginRequest.validate LoginRequest.email email ∧
      Accepts VerifyEmailRequest.validate VerifyEmailRequest.email email ∧
      Accepts ResendOtpRequest.validate ResendOtpRequest.email email ∧
      Accepts ForgotPasswordRequest.validate ForgotPasswordRequest.email email ∧
      Accepts (ResetPasswordRequest.validate u) ResetPasswordRequest.email email) ↔
      Portable email := by
  rw [others_accept]
  exact ⟨portable_of_emailRegex, emailRegex_of_html (register_accepts.1 h)⟩

/-- Every local part that HTML5 knows can be registered at one domain. -/
theorem register_accepts_example {u : LetterCase} {email : String} (user : List Char)
    (heq : email.toList = user ++ '@' :: ['m', 'e', 'n', 'o', '.', 'o', 'r', 'g'])
    (hne : user ≠ [])
    (hchars : user.all (smallLetters ++ capitals ++ digits ++ signs ++ ['.']).contains = true) :
    Accepts (RegisterRequest.validate u) RegisterRequest.email email := by
  have huser : ∀ c ∈ user, c ∈ smallLetters ++ capitals ++ digits ++ signs ++ ['.'] := fun c hc =>
    List.contains_iff_mem.1 (List.all_eq_true.1 hchars c hc)
  have hlabel : ∀ (a b : Char) (m : List Char), a ∈ smallLetters → b ∈ smallLetters →
      m.length ≤ 61 → m.all smallLetters.contains = true → a :: (m ++ [b]) ∈ htmlLabel.matches' := by
    intro a b m ha hb hlength hm
    have hsmall : ∀ c ∈ smallLetters, c ∈ smallLetters ++ capitals ++ digits :=
      fun c hc => List.mem_append_left _ (List.mem_append_left _ hc)
    have hinner := mem_upTo_oneOf.2 ⟨hlength, fun c hc => List.mem_append_left ['-']
      (hsmall c (List.contains_iff_mem.1 (List.all_eq_true.1 hm c hc)))⟩
    exact mem_label.2 (.inr ⟨a, hsmall a ha, m, hinner, b, hsmall b hb, rfl⟩)
  have hpieces : ['m', 'e', 'n', 'o', '.', 'o', 'r', 'g'].splitOn '.' =
      [['m', 'e', 'n', 'o'], ['o', 'r', 'g']] := by decide
  refine register_accepts.2 (mem_htmlEmail.2 ⟨user, _, heq, ⟨hne, huser⟩, ?_⟩)
  rw [hpieces]
  refine List.forall_mem_cons.2 ⟨?_, List.forall_mem_cons.2 ⟨?_, List.forall_mem_nil _⟩⟩
  · exact hlabel 'm' 'o' ['e', 'n'] (by decide) (by decide) (by decide) (by decide)
  · exact hlabel 'o' 'g' ['r'] (by decide) (by decide) (by decide) (by decide)

def asciiCase : LetterCase where
  isLowercase := Char.isLower
  isUppercase := Char.isUpper

theorem ann_portable :
    Accepts (RegisterRequest.validate asciiCase) RegisterRequest.email "ann@meno.org" ∧
      Accepts LoginRequest.validate LoginRequest.email "ann@meno.org" := by
  have hregister : Accepts (RegisterRequest.validate asciiCase) RegisterRequest.email
      "ann@meno.org" :=
    register_accepts_example ['a', 'n', 'n'] rfl (List.cons_ne_nil _ _) (by decide)
  exact ⟨hregister, ((registered_portable_iff asciiCase "ann@meno.org" hregister).2 (by decide)).1⟩

/-- With a capital in the address the account is closed to its owner. -/
theorem capital_locked_out :
    ¬ ∀ (u : LetterCase) (email : String),
      Accepts (RegisterRequest.validate u) RegisterRequest.email email →
        Accepts LoginRequest.validate LoginRequest.email email ∧
          Accepts VerifyEmailRequest.validate VerifyEmailRequest.email email ∧
          Accepts ResendOtpRequest.validate ResendOtpRequest.email email ∧
          Accepts ForgotPasswordRequest.validate ForgotPasswordRequest.email email ∧
          Accepts (ResetPasswordRequest.validate u) ResetPasswordRequest.email email := by
  intro h
  have hregister : Accepts (RegisterRequest.validate asciiCase) RegisterRequest.email
      "Ann@meno.org" :=
    register_accepts_example ['A', 'n', 'n'] rfl (List.cons_ne_nil _ _) (by decide)
  have hport := portable_of_emailRegex (others_accept.1 (h asciiCase "Ann@meno.org" hregister))
  exact absurd hport (by decide)

end Auth

end Meno
