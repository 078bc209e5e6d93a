import NestGateway.Auth.Outcomes

/-! # Blocked accounts

The statuses a login refuses. A login gives no tokens to an account with one of
them; the two operations that take a token do not look at the status.
-/

namespace NestGateway.Auth

open Runs

variable {Token : Type} (env : Env Token)

/-- The status is `LOCKED`, `PENDING`, `IN_ACTIVE` or `DELETE`. -/
def Account.Blocked (a : Account) : Prop :=
  a.status = some AccountStatus.locked.value ∨ a.status = some AccountStatus.pending.value ∨
    a.status = some AccountStatus.inActive.value ∨ a.status = some AccountStatus.delete.value

/-- If the step is a call, it returned no tokens for an account it read as blocked. -/
def RefusesBlocked (w w' : World Token) : Prop :=
  ∀ call, w'.calls = w.calls ++ [call] → ∀ a, call.TokensFor env a → ¬ a.Blocked

/-- A token whose account is blocked is not used with success: `verifyTwoFactor` and
`refreshTokens` requests that pass the checks of their operation read another status. -/
def PresentsUnblocked (w : World Token) : Event Token → Prop
  | .requested (.verifyTwoFactor twoFactorToken totpCode m) =>
      ∀ a, (Request.verifyTwoFactor twoFactorToken totpCode m).Passes env w.server a → ¬ a.Blocked
  | .requested (.refreshTokens refreshToken) =>
      ∀ a, (Request.refreshTokens refreshToken).Passes env w.server a → ¬ a.Blocked
  | _ => True

variable {env}

theorem not_blocked_of_statusError {a : Account} (h : statusError a.status = none) :
    ¬ a.Blocked := by
  rintro (hs | hs | hs | hs)
  all_goals
    rw [hs] at h
    exact absurd h (by decide)

/-- One call refuses a blocked account exactly if the request is not one that overlooks it. -/
theorem refusesBlocked_serve_iff {w : World Token} {request : Request Token} :
    RefusesBlocked env w (w.serve env request) ↔ PresentsUnblocked env w (.requested request) := by
  have hcall : RefusesBlocked env w (w.serve env request) ↔
      ∀ a, request.Passes env w.server a → ¬ a.Blocked := by
    refine ⟨fun h a hpasses => h _ rfl a (tokensFor_iff_passes.mpr hpasses), ?_⟩
    intro h call hcalls a htokens
    obtain rfl := (List.cons.inj (List.append_cancel_left hcalls)).1
    exact h a (tokensFor_iff_passes.mp htokens)
  rw [hcall]
  cases request with
  | login loginId password userType m =>
      exact iff_of_true (fun a h => not_blocked_of_statusError h.2.2.1) trivial
  | verifyTwoFactor twoFactorToken totpCode m => exact Iff.rfl
  | refreshTokens refreshToken => exact Iff.rfl
  | changePassword credential currentPassword newPassword =>
      exact iff_of_true (fun a h => h.elim) trivial

theorem refusesBlocked_step_iff {w w' : World Token} {e : Event Token}
    (h : World.step env w e = some w') : RefusesBlocked env w w' ↔ PresentsUnblocked env w e := by
  cases e with
  | requested request =>
      obtain rfl := Option.some.inj h
      exact refusesBlocked_serve_iff
  | statusWritten id status =>
      obtain rfl := Option.some.inj h
      exact iff_of_true (fun call hcalls => absurd hcalls (by simp)) trivial
  | clockMoved now =>
      obtain rfl := Option.some.inj h
      exact iff_of_true (fun call hcalls => absurd hcalls (by simp)) trivial

/-- In a run no call gives tokens to an account it read as blocked, exactly if no token of a
blocked account is used with success. -/
theorem blocked_get_none_iff (w : World Token) (events : List (Event Token)) :
    EachStep (World.step env) (fun w _ w' => RefusesBlocked env w w') w events ↔
      EachStep (World.step env) (fun w e _ => PresentsUnblocked env w e) w events := by
  refine eachStep_iff (I := fun _ => True) ?_ ?_ trivial
  · exact fun w e w' _ h hstep => ⟨trivial, (refusesBlocked_step_iff hstep).mpr h⟩
  · exact fun w e w' _ h hstep => (refusesBlocked_step_iff hstep).mp h

def member : Account where
  id := 3
  loginId := "kiosk-3"
  name := some "Kiosk"
  userType := "KIOSK"
  password := some "pw"
  status := some "ACTIVE"
  otpSecretKey := none
  customerNo := none
  lastPasswordChangedAt := none
  roleType := some "MEMBER"
  failCount := some 0
  lastLoginAt := none

/-- The refresh token of a first login at time zero. -/
def memberRefresh : SignedClaims :=
  signedAt 0 (refreshPayload "3" "KIOSK" "1") REFRESH_TOKEN_EXPIRY_SECONDS

/-- An account logs in, is deleted by an administrator, and refreshes its tokens. -/
theorem deleted_refreshes : ¬ EachStep (World.step Env.plain)
    (fun w _ w' => RefusesBlocked Env.plain w w')
    (World.start ⟨[member], by decide⟩ 0)
    [.requested (.login "kiosk-3" "pw" "KIOSK" ⟨"10.0.0.1", none⟩),
      .statusWritten 3 (some "DELETE"), .requested (.refreshTokens memberRefresh)] := by
  rintro ⟨_, _, h, _⟩
  have hpasses := refusesBlocked_serve_iff.mp h
  refine hpasses
    { member with
      status := some "DELETE"
      failCount := some 0
      lastLoginAt := some 0 }
    ⟨memberRefresh, by decide, by decide, ?_⟩ (Or.inr (Or.inr (Or.inr rfl)))
  exact ⟨by decide, ⟨"Kiosk", rfl, by decide⟩, by decide⟩

end NestGateway.Auth
