import Meno.Auth.Model
import Meno.Lib.Markup

/-!
# Meno.Auth.Emails

The e-mails with a one-time password. The name of the user is put into them after `escape_html`, so
it is text and nothing else, whatever it is (`html_escaping`).
-/

namespace Meno

open Lib Lib.Markup

/-- `escape_html` -/
def escapeHtml (input : String) : String :=
  input
    |>.replace '&' "&amp;"
    |>.replace '<' "&lt;"
    |>.replace '>' "&gt;"
    |>.replace '"' "&quot;"
    |>.replace '\'' "&#39;"

namespace Auth

/-! ## The e-mails -/

/-- The text of an e-mail, with places for a name and for a code. Both are outside of the tags. -/
structure EmailTemplate where
  before : String
  between : String
  after : String
  settled : Settled before.toList ∧ Settled between.toList

/-- `format!` -/
def EmailTemplate.format (t : EmailTemplate) (fullName otp : String) : String :=
  t.before ++ fullName ++ t.between ++ otp ++ t.after

set_option maxRecDepth 20000 in
def verifyEmailTemplate : EmailTemplate where
  before := r#"
            <!DOCTYPE html>
            <html>
            <body style="margin:0;padding:0;background:#0f0f1a;font-family:sans-serif;">
              <div style="max-width:480px;margin:40px auto;background:#1a1a2e;border-radius:16px;padding:40px;text-align:center;">
                <h1 style="color:#ffffff;font-size:24px;margin-bottom:8px;">Verify your email</h1>
                <p style="color:#a0a0b8;margin-bottom:32px;">Hi "#
  between := r#", enter this code in the app to verify your account.</p>
                <div style="background:#2a2a3e;border-radius:12px;padding:24px;margin-bottom:32px;">
                  <span style="color:#7c3aed;font-size:48px;font-weight:700;letter-spacing:12px;">"#
  after := r#"</span>
                </div>
                <p style="color:#606080;font-size:14px;">This code expires in 15 minutes.<br/>If you didn't create a Meno account, ignore this email.</p>
              </div>
            </body>
            </html>
            "#
  settled := ⟨settled_of_eq rfl (by decide +kernel), settled_of_eq rfl (by decide +kernel)⟩

set_option maxRecDepth 20000 in
def resetPwdTemplate : EmailTemplate where
  before := r#"
        <!DOCTYPE html>
            <html>
            <body style="margin:0;padding:0;background:#0f0f1a;font-family:sans-serif;">
              <div style="max-width:480px;margin:40px auto;background:#1a1a2e;border-radius:16px;padding:40px;text-align:center;">
                <h1 style="color:#ffffff;font-size:24px;margin-bottom:8px;">Reset your password</h1>

                <p style="color:#a0a0b8;margin-bottom:32px;">
                    Hi "#
  between := r#",<br>
                    You requested to reset your Meno account password.
                </p>

                <div style="background:#2a2a3e;border-radius:12px;padding:24px;margin-bottom:32px;">
                  <span style="color:#7c3aed;font-size:48px;font-weight:700;letter-spacing:12px;">"#
  after := r#"</span>
                </div>

                <p style="color:#606080;font-size:14px;">
                    This code expires in 15 minutes.<br>
                    If you didn't request a password reset, please ignore this email.
                </p>

                <p style="color:#606080;font-size:13px;margin-top:32px;">
                    For security reasons, never share this code with anyone.
                </p>
              </div>
            </body>
            </html>
            "#
  settled := ⟨settled_of_eq rfl (by decide +kernel), settled_of_eq rfl (by decide +kernel)⟩

/-- The subject and the text. -/
def verifyEmailHtml (fullName otp : String) : String × String :=
  let fullName := escapeHtml fullName
  let html := verifyEmailTemplate.format fullName otp
  ("Verify your Meno account", html)

def resetPwdEmailHtml (fullName otp : String) : String × String :=
  let fullName := escapeHtml fullName
  let html := resetPwdTemplate.format fullName otp
  ("Reset your password", html)

structure SendEmailJob where
  «to» : String
  subject : String
  html : String

/-- The job that `push_email` queues. -/
def emailJob («to» name otp : String) (otpType : OtpType) : SendEmailJob :=
  let (subject, html) :=
    match otpType with
    | .verifyEmail => verifyEmailHtml name otp
    | .resetPassword => resetPwdEmailHtml name otp
  { «to», subject, html }

/-- The code for the number that is drawn. -/
def generateOtp (drawn : {n : Nat // 100000 ≤ n ∧ n ≤ 999999}) : String :=
  String.ofList ((Nat.toDigits 10 drawn).leftpad 6 '0')

/-! ## What escaping is for -/

end Auth

/-- What is to become of a character. -/
def htmlEntity : Char → String
  | '&' => "&amp;"
  | '<' => "&lt;"
  | '>' => "&gt;"
  | '"' => "&quot;"
  | '\'' => "&#39;"
  | c => String.singleton c

/-- Text in which nothing opens or closes a tag or a value, and in which every `&` begins an
entity. -/
structure HtmlSafe (text : String) : Prop where
  plain : ∀ c ∈ ['<', '>', '"', '\''], c ∉ text.toList
  begins : ∀ before after, text.toList = before ++ '&' :: after →
    ∃ entity ∈ ["&amp;", "&lt;", "&gt;", "&quot;", "&#39;"], entity.toList <+: '&' :: after

/-- The characters with their entities, in the order of the code. -/
def htmlEscaping : Escaping where
  entries := ['&', '<', '>', '"', '\''].map fun c => (c, (htmlEntity c).toList)
  mark := '&'
  nodup := by simp
  mark_mem := by simp
  marked := by simp [htmlEntity]
  long := by simp [htmlEntity]
  prefixFree := by simp [htmlEntity]

/-- A reader of e-mails: whatever references he knows, the five entities are among them. -/
structure HtmlReader extends References where
  knows : ∀ e ∈ htmlEscaping.entries, toReferences.Reads e

/-- One who knows no others. -/
def HtmlReader.basic : HtmlReader where
  toReferences := .ofEntries htmlEscaping.entries fun e he => (htmlEscaping.marked e he).1
  knows _ he := ofEntries_reads _ htmlEscaping.prefixFree he

/-- Whoever reads the text finds the characters of the name at one place of it. All else, the tags
and what stands in them, does not depend on the name. -/
def ShowsName (html : String → String) : Prop :=
  ∀ reader : HtmlReader, ∃ before after, ∀ fullName,
    tokens reader.toReferences (html fullName).toList =
      before ++ fullName.toList.map .character ++ after

/-! ## Escaping -/

theorem toList_escapeHtml (input : String) :
    (escapeHtml input).toList = htmlEscaping.escape input.toList := by
  have hall := (htmlEscaping.successively_eq_iff (List.Perm.refl _)).2 rfl input.toList
  rw [← hall, escapeHtml]
  simp only [Substitute.toList_replaceChar]
  rfl

theorem write_htmlEscaping (c : Char) :
    Escape.write htmlEscaping.entries c = (htmlEntity c).toList := by
  rcases Escape.write_cases htmlEscaping.entries c with hc | ⟨hno, hc⟩
  · obtain ⟨d, -, hd⟩ := List.mem_map.1 hc
    obtain ⟨rfl, hd⟩ := Prod.mk.inj hd
    exact hd.symm
  · have hplain : c ≠ '&' ∧ c ≠ '<' ∧ c ≠ '>' ∧ c ≠ '"' ∧ c ≠ '\'' := by
      simpa [htmlEscaping] using hno
    rw [hc]
    simp [htmlEntity, hplain]

theorem escapeHtml_injective : Function.Injective escapeHtml := by
  intro input input' h
  have hchars := congrArg String.toList h
  rw [toList_escapeHtml, toList_escapeHtml] at hchars
  exact String.toList_inj.1 (htmlEscaping.escape_injective hchars)

theorem htmlSafe_iff_escaped (text : String) :
    HtmlSafe text ↔ htmlEscaping.Escaped text.toList := by
  have hkeys : htmlEscaping.entries.map Prod.fst = '&' :: ['<', '>', '"', '\''] := rfl
  have htexts : ∀ w : List Char, (∃ f ∈ htmlEscaping.entries, f.2 <+: w) ↔
      ∃ entity ∈ ["&amp;", "&lt;", "&gt;", "&quot;", "&#39;"], entity.toList <+: w := by
    intro w
    simp [htmlEscaping, htmlEntity]
  constructor
  · rintro ⟨hplain, hbegins⟩
    refine ⟨fun c hc hmark hkey => ?_, fun before after h => (htexts _).2 (hbegins _ _ h)⟩
    rw [hkeys] at hkey
    exact hplain c ((List.mem_cons.1 hkey).resolve_left hmark) hc
  · rintro ⟨hplain, hbegins⟩
    refine ⟨fun c hc hmem => ?_, fun before after h => (htexts _).1 (hbegins _ _ h)⟩
    have hmark : c ≠ htmlEscaping.mark := by
      rintro rfl
      exact absurd hc (by decide)
    refine hplain c hmem hmark ?_
    rw [hkeys]
    exact List.mem_cons_of_mem _ hc

/-- The texts that can come of escaping are the safe ones. -/
theorem htmlSafe_iff (text : String) : HtmlSafe text ↔ ∃ input, escapeHtml input = text := by
  rw [htmlSafe_iff_escaped, Escaping.escaped_iff]
  constructor
  · rintro ⟨cs, hcs⟩
    refine ⟨String.ofList cs, ?_⟩
    rw [← String.toList_inj, toList_escapeHtml, String.toList_ofList, hcs]
  · rintro ⟨input, rfl⟩
    exact ⟨input.toList, (toList_escapeHtml input).symm⟩

theorem htmlSafe_escapeHtml (input : String) : HtmlSafe (escapeHtml input) :=
  (htmlSafe_iff _).2 ⟨input, rfl⟩

/-- The replacements in another order write the same just if `&` is replaced first. -/
theorem order_of_replacements_iff {order : Escape.Entries}
    (h : order.Perm htmlEscaping.entries) :
    (∀ input : String, Escape.successively order input.toList = (escapeHtml input).toList) ↔
      (order.map Prod.fst).head? = some '&' := by
  refine Iff.trans ?_ (htmlEscaping.successively_eq_iff h)
  constructor
  · intro hall cs
    have hcs := hall (String.ofList cs)
    rwa [toList_escapeHtml, String.toList_ofList] at hcs
  · intro hall input
    rw [hall, toList_escapeHtml]

/-- In a quoted value, whichever the quote is, the value goes on. -/
theorem escapeHtml_in_value (source : List Char) {quote : Char} (h : quote ∈ ['"', '\''])
    (input : String) :
    (Mode.value source quote).after (escapeHtml input).toList =
      .value (source ++ (escapeHtml input).toList) quote := by
  have hspecial : quote ∈ ['<', '>', '"', '\''] := by
    simp only [List.mem_cons] at h ⊢
    tauto
  exact Mode.after_value ((htmlSafe_escapeHtml input).plain quote hspecial)

/-! ## Reading the e-mails -/

theorem tokens_escapeHtml (reader : HtmlReader) (input : String) (cs : List Char) :
    tokens reader.toReferences ((escapeHtml input).toList ++ cs) =
      input.toList.map .character ++ tokens reader.toReferences cs := by
  rw [toList_escapeHtml]
  exact tokens_escape reader.knows (by decide) (by decide) input.toList cs

namespace Auth

theorem EmailTemplate.tokens_format (t : EmailTemplate) (reader : HtmlReader)
    (fullName otp : String) :
    tokens reader.toReferences (t.format (escapeHtml fullName) otp).toList =
      tokens reader.toReferences t.before.toList ++ fullName.toList.map .character ++
        tokens reader.toReferences (t.between ++ otp ++ t.after).toList := by
  simp only [EmailTemplate.format, String.toList_append, List.append_assoc]
  rw [tokens_append t.settled.1, tokens_escapeHtml]

theorem EmailTemplate.showsName (t : EmailTemplate) (otp : String) :
    ShowsName fun fullName => t.format (escapeHtml fullName) otp :=
  fun reader => ⟨_, _, fun fullName => t.tokens_format reader fullName otp⟩

/-- The number that is drawn has six digits already, so nothing is padded. -/
theorem toList_generateOtp (drawn : {n : Nat // 100000 ≤ n ∧ n ≤ 999999}) :
    (generateOtp drawn).toList = Nat.toDigits 10 drawn ∧ (generateOtp drawn).length = 6 := by
  obtain ⟨n, hlow, hhigh⟩ := drawn
  have hatMost : (Nat.toDigits 10 n).length ≤ 6 :=
    (Nat.length_toDigits_le_iff (by decide) (by decide)).2 (by omega)
  have hmore : ¬ (Nat.toDigits 10 n).length ≤ 5 := by
    rw [Nat.length_toDigits_le_iff (by decide) (by decide)]
    omega
  have hsix : (Nat.toDigits 10 n).length = 6 := by omega
  simp [generateOtp, List.leftpad, hsix]

/-- No character of a code needs escaping. -/
theorem plain_generateOtp (drawn : {n : Nat // 100000 ≤ n ∧ n ≤ 999999}) {c : Char}
    (hc : c.isDigit = false) : c ∉ (generateOtp drawn).toList := by
  intro hmem
  rw [(toList_generateOtp drawn).1] at hmem
  have hdigit := Nat.isDigit_of_mem_toDigits (by decide) (by decide) hmem
  rw [hc] at hdigit
  cases hdigit

/-- Which text is sent with a code. -/
def emailTemplate : OtpType → EmailTemplate
  | .verifyEmail => verifyEmailTemplate
  | .resetPassword => resetPwdTemplate

theorem emailJob_html («to» name otp : String) (otpType : OtpType) :
    (emailJob «to» name otp otpType).html =
      (emailTemplate otpType).format (escapeHtml name) otp := by
  cases otpType <;> rfl

/-- What is read in an e-mail that is queued: the name and the code, character by character, between
parts that are always the same. -/
theorem tokens_emailJob (reader : HtmlReader) («to» name : String)
    (drawn : {n : Nat // 100000 ≤ n ∧ n ≤ 999999}) (otpType : OtpType) :
    tokens reader.toReferences (emailJob «to» name (generateOtp drawn) otpType).html.toList =
      tokens reader.toReferences (emailTemplate otpType).before.toList ++
        name.toList.map .character ++
        tokens reader.toReferences (emailTemplate otpType).between.toList ++
        (Nat.toDigits 10 drawn).map .character ++
        tokens reader.toReferences (emailTemplate otpType).after.toList := by
  have hlt : '<' ∉ (generateOtp drawn).toList := plain_generateOtp drawn rfl
  have hamp : '&' ∉ (generateOtp drawn).toList := plain_generateOtp drawn rfl
  rw [emailJob_html, EmailTemplate.tokens_format]
  simp only [String.toList_append, List.append_assoc]
  rw [tokens_append (emailTemplate otpType).settled.2, tokens_plain_append hlt hamp,
    (toList_generateOtp drawn).1]

/-- **HTML escaping.** The five replacements write every character as its entity, once; different
texts stay different, and what comes of them is safe. In both e-mails the name is read as the
characters that it has, and it changes nothing else: it opens no tag and no attribute. -/
theorem html_escaping :
    (∀ input, (escapeHtml input).toList = input.toList.flatMap fun c => (htmlEntity c).toList) ∧
    Function.Injective escapeHtml ∧
    (∀ input, HtmlSafe (escapeHtml input)) ∧
    ∀ otp, ShowsName (fun fullName => (verifyEmailHtml fullName otp).2) ∧
      ShowsName (fun fullName => (resetPwdEmailHtml fullName otp).2) := by
  refine ⟨fun input => ?_, escapeHtml_injective, htmlSafe_escapeHtml, fun otp => ?_⟩
  · rw [toList_escapeHtml]
    exact List.flatMap_congr fun c _ => write_htmlEscaping c
  · exact ⟨verifyEmailTemplate.showsName otp, resetPwdTemplate.showsName otp⟩

end Auth

end Meno
