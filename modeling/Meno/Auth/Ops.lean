import Meno.Auth.Middleware
import Meno.Auth.Services

/-!
# Meno.Auth.Ops

The operations of the auth module as one type, with what they answer. A request to any other
endpoint is one of them as far as its access token goes.
-/

namespace Meno

namespace Auth

open Lib

inductive AuthOp (τ : Type) where
  | register (req : RegisterRequest) (salt otp : String) (ids : FreshIds)
  | verifyEmail (email code : String) (ids : FreshIds)
  | resendOtp (email otp : String) (otpType : OtpType)
  | login (email password dummyHash : String) (ids : FreshIds)
  | logout (refreshToken : τ) (accessToken : Option τ)
  | refresh (refreshToken : τ) (ids : FreshIds)
  | forgotPassword (email otp : String)
  | resetPassword (req : ResetPasswordRequest) (salt : String)
  | googleAuthorize (csrfToken pkceVerifier : String)
  | googleWebAuth (state : String) (answer : Option GoogleAssertion) (ids : FreshIds)
  | googleMobileAuth (answer : Option GoogleAssertion) (ids : FreshIds)
  /-- A request that `auth_middleware` lets through or not. -/
  | visit (accessToken : Option τ)

inductive AuthAnswer (τ : Type) where
  | session (r : AuthResponse τ)
  | letIn (user : AuthUser)
  | done

namespace AuthOp

variable {τ : Type} (ts : TokenService τ)

def prog : AuthOp τ → AuthSvc (AuthAnswer τ)
  | .register req salt otp ids => do
    return .session (← AuthService.register ts req salt otp ids)
  | .verifyEmail email code ids => do
    return .session (← AuthService.verifyEmail ts email code ids)
  | .resendOtp email otp otpType => do
    AuthService.resendOtp email otp otpType
    return .done
  | .login email password dummyHash ids => do
    return .session (← AuthService.login ts email password dummyHash ids)
  | .logout refreshToken accessToken => do
    AuthService.logout ts refreshToken accessToken
    return .done
  | .refresh refreshToken ids => do
    return .session (← AuthService.refresh ts refreshToken ids)
  | .forgotPassword email otp => do
    AuthService.forgotPassword email otp
    return .done
  | .resetPassword req salt => do
    AuthService.resetPassword ts req salt
    return .done
  | .googleAuthorize csrfToken pkceVerifier => do
    AuthService.googleAuthorize csrfToken pkceVerifier
    return .done
  | .googleWebAuth state answer ids => do
    return .session (← AuthService.googleWebAuth ts state answer ids)
  | .googleMobileAuth answer ids => do
    return .session (← AuthService.googleMobileAuth ts answer ids)
  | .visit accessToken => do return .letIn (← authMiddleware ts accessToken)

/-- The id of the refresh token that the operation stores, if it issues one. -/
def refreshJti : AuthOp τ → Option Uuid
  | .register _ _ _ ids => some ids.refreshJti
  | .verifyEmail _ _ ids => some ids.refreshJti
  | .login _ _ _ ids => some ids.refreshJti
  | .refresh _ ids => some ids.refreshJti
  | .googleWebAuth _ _ ids => some ids.refreshJti
  | .googleMobileAuth _ ids => some ids.refreshJti
  | _ => none

/-- The operation run alone: its result and the store it leaves. -/
def run (op : AuthOp τ) (now : OffsetDateTime) (faults : List Bool) (db : AuthDb) :
    Except AuthError (AuthAnswer τ) × AuthDb :=
  Txn.run authEngine (op.prog ts) db now faults

end AuthOp

/-- The stores that runs of whole operations reach. -/
inductive AuthReached {τ : Type} (ts : TokenService τ) : AuthDb → Prop where
  | init : AuthReached ts .empty
  | step {db : AuthDb} (op : AuthOp τ) (now : OffsetDateTime) (faults : List Bool) :
      AuthReached ts db → AuthReached ts (op.run ts now faults db).2

end Auth

end Meno
