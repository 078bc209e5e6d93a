import NestGateway.Auth.Asks

/-! # The row of an account

What every effect makes of the row of an account, and which rows the parts of
the service can come to write: a login writes the row it found and no other.
-/

namespace NestGateway.Auth

open Prog

variable {Token : Type}

def Server.row (s : Server) (id : Nat) : Option Account := s.accounts.findById (some id)

/-- What an effect makes of the row of an account. -/
def Effect.applied (now : Nat) (a : Account) : Effect Token → Account
  | .incrementFailCount id =>
      if id = a.id then { a with failCount := a.failCount.map (· + 1) } else a
  | .lockAccount id => if id = a.id then { a with status := some AccountStatus.locked.value } else a
  | .resetFailCount id => if id = a.id then { a with failCount := some 0 } else a
  | .updateOtpSecretKey id otpSecretKey =>
      if id = a.id then { a with otpSecretKey := some otpSecretKey } else a
  | .updatePassword id hashedPassword =>
      if id = a.id then
        { a with password := some hashedPassword, lastPasswordChangedAt := some now }
      else a
  | .recordSuccess id loginAt _ =>
      if id = a.id then { a with failCount := some 0, lastLoginAt := some loginAt } else a
  | _ => a

theorem id_of_row {s : Server} {id : Nat} {a : Account} (h : s.row id = some a) : a.id = id :=
  (Option.some.inj (AccountTable.id_of_findById h)).symm

theorem row_of_mem {s : Server} {a : Account} (h : a ∈ s.accounts.rows) : s.row a.id = some a :=
  AccountTable.findById_of_mem h

theorem row_updateAccount (s : Server) (id id' : Nat) (set : Account → Account) :
    (s.updateAccount id' set).row id =
      (s.row id).map fun a => if id' = a.id then { set a with id := a.id } else a := by
  simp only [Server.row, Server.updateAccount, AccountTable.findById_update, eq_comm]

theorem row_answer (env : Env Token) (e : Effect Token) (s : Server) (id : Nat) :
    (answer env e s).2.row id = (s.row id).map fun a => e.applied s.now a := by
  have hkeep : s.row id = (s.row id).map fun a => a := Option.map_id'.symm
  cases e with
  | incrementFailCount id' => exact row_updateAccount s id id' _
  | lockAccount id' => exact row_updateAccount s id id' _
  | resetFailCount id' => exact row_updateAccount s id id' _
  | updateOtpSecretKey id' otpSecretKey => exact row_updateAccount s id id' _
  | updatePassword id' hashedPassword => exact row_updateAccount s id id' _
  | recordSuccess id' loginAt row => exact row_updateAccount s id id' _
  | _ => exact hkeep

def Effect.target : Effect Token → Option Nat
  | .incrementFailCount id => some id
  | .lockAccount id => some id
  | .resetFailCount id => some id
  | .updateOtpSecretKey id _ => some id
  | .updatePassword id _ => some id
  | .recordSuccess id .. => some id
  | _ => none

def Effect.Reads (e : Effect Token) : Prop := e.target = none

/-- The row an effect adds to the login history. -/
def Effect.inserted : Effect Token → Option HistoryRow
  | .recordSuccess _ _ row => some row
  | .recordFailure row => some row
  | _ => none

def Effect.Silent (e : Effect Token) : Prop := e.target = none ∧ e.inserted = none

def Effect.WritesOnly (id : Nat) (e : Effect Token) : Prop := e.target = none ∨ e.target = some id

theorem applied_of_target {e : Effect Token} {a : Account} (h : e.target ≠ some a.id) (now : Nat) :
    e.applied now a = a := by
  cases e with
  | incrementFailCount id => exact if_neg fun hid => h (congrArg some hid)
  | lockAccount id => exact if_neg fun hid => h (congrArg some hid)
  | resetFailCount id => exact if_neg fun hid => h (congrArg some hid)
  | updateOtpSecretKey id otpSecretKey => exact if_neg fun hid => h (congrArg some hid)
  | updatePassword id hashedPassword => exact if_neg fun hid => h (congrArg some hid)
  | recordSuccess id loginAt row => exact if_neg fun hid => h (congrArg some hid)
  | _ => rfl

variable {env : Env Token}

/-- A row that no effect of a program writes stays as it is. -/
theorem wp_row_of_target {ε α : Type} {P : Effect Token → Prop}
    {x : Prog (Effect Token) Effect.Reply ε α} {s : Server} {id : Nat} (hx : x.Only P)
    (htarget : ∀ e, P e → e.target ≠ some id) :
    wp (answer env) x (fun _ s' => s'.row id = s.row id) s := by
  refine hx.wp_invariant (I := fun s' : Server => s'.row id = s.row id) ?_ rfl
  intro e s' he hrow
  rw [row_answer, hrow]
  cases ha : s.row id with
  | none => rfl
  | some a => exact congrArg some (applied_of_target (id_of_row ha ▸ htarget e he) _)

section Parts

theorem reads_writesOnly {α : Type} {x : Service Token α} (h : x.Only Effect.Reads) (id : Nat) :
    x.Only (Effect.WritesOnly id) := h.mono fun _ => Or.inl

theorem silent_reads {α : Type} {x : Service Token α} (h : x.Only Effect.Silent) :
    x.Only Effect.Reads := h.mono fun _ => And.left

theorem silent_writesOnly {α : Type} {x : Service Token α} (h : x.Only Effect.Silent) (id : Nat) :
    x.Only (Effect.WritesOnly id) := reads_writesOnly (silent_reads h) id

theorem recordFailure_reads (a : Account) (m : LoginRequestMeta) (failCount : Int)
    (status : Option String) :
    (recordFailure a m failCount status : Service Token _).Only Effect.Reads :=
  Only.bind (Only.call rfl) fun _ => Only.call rfl

theorem verifyPassword_silent (plain : String) (stored : Option String) :
    (verifyPassword plain stored : Service Token _).Only Effect.Silent := by
  cases stored with
  | none => exact .ret _
  | some stored =>
      rw [verifyPassword]
      split
      · exact .ret _
      · exact Only.call ⟨rfl, rfl⟩

theorem validatePasswordExpiry_silent (a : Account) :
    (validatePasswordExpiry a : Service Token _).Only Effect.Silent := by
  rw [validatePasswordExpiry]
  split
  · exact .ret _
  · refine Only.bind (Only.call ⟨rfl, rfl⟩) fun now => ?_
    split
    · exact Only.bind (Only.call ⟨rfl, rfl⟩) fun _ => only_throwAuthError _ _
    · exact .ret _

theorem signAccessToken_silent (payload : AccessTokenPayload) :
    (signAccessToken payload : Service Token _).Only Effect.Silent :=
  Only.bind (Only.call ⟨rfl, rfl⟩) fun _ => Only.bind (Only.call ⟨rfl, rfl⟩) fun _ => .ret _

theorem signRefreshToken_silent (sub userType : String) :
    (signRefreshToken sub userType : Service Token _).Only Effect.Silent :=
  Only.bind (Only.call ⟨rfl, rfl⟩) fun _ => Only.bind (Only.call ⟨rfl, rfl⟩) fun _ => .ret _

theorem issueTokens_silent (a : Account) :
    (issueTokens a : Service Token _).Only Effect.Silent := by
  rw [issueTokens]
  refine Only.bind (Only.ofExcept _) fun payload => ?_
  refine Only.bind (signAccessToken_silent payload) fun access => ?_
  refine Only.bind (signRefreshToken_silent _ _) fun refresh => ?_
  split
  · exact only_throwAuthError _ _
  · exact .ret _

theorem handleFailedLogin_writes (a : Account) (m : LoginRequestMeta) (newFailCount : Int) :
    (handleFailedLogin a m newFailCount : Service Token _).Only (Effect.WritesOnly a.id) := by
  rw [handleFailedLogin]
  refine Only.bind (Only.call (Or.inr rfl)) fun _ => ?_
  split
  · exact Only.bind (Only.call (Or.inr rfl)) fun _ =>
      reads_writesOnly (recordFailure_reads ..) a.id
  · exact reads_writesOnly (recordFailure_reads ..) a.id

theorem handleLockedLogin_writes (a : Account) (m : LoginRequestMeta) :
    (handleLockedLogin a m : Service Token _).Only (Effect.WritesOnly a.id) := by
  rw [handleLockedLogin]
  split
  · exact Only.bind (Only.call (Or.inr rfl)) fun _ =>
      reads_writesOnly (recordFailure_reads ..) a.id
  · exact reads_writesOnly (recordFailure_reads ..) a.id

theorem createTotpRegistrationUrlIfRequired_writes (a : Account) :
    (createTotpRegistrationUrlIfRequired a : Service Token _).Only (Effect.WritesOnly a.id) := by
  rw [createTotpRegistrationUrlIfRequired]
  split
  · exact .ret _
  · refine Only.bind (Only.call (Or.inl rfl)) fun otpSecretKey => ?_
    refine Only.bind (Only.call (Or.inr rfl)) fun _ => ?_
    refine Only.bind (Only.ofExcept _) fun accountName => ?_
    exact Only.bind (Only.call (Or.inl rfl)) fun _ => .ret _

end Parts

/-- What follows an accepted password. -/
def acceptedLogin (a : Account) (userType : String) (m : LoginRequestMeta) :
    Service Token (AuthResponse Token) := do
  validatePasswordExpiry a
  if userType ∈ twoFactorRequiredTypes then
    ask (.resetFailCount a.id)
    let twoFactorToken ← signTwoFactorToken (Nat.repr a.id) userType
    let tOtpUrl ← createTotpRegistrationUrlIfRequired a
    return .requiresTwoFactor twoFactorToken tOtpUrl
  else
    let tokens ← issueTokens a
    recordSuccess a m
    return .authenticated tokens

/-- What follows a wrong password. -/
def rejectedLogin (a : Account) (m : LoginRequestMeta) : Service Token (AuthResponse Token) := do
  handleFailedLogin a m (a.failCount.getD 0 + 1)
  throwAuthError .invalidCredentials

/-- What follows when the account was found. -/
def foundLogin (a : Account) (password userType : String) (m : LoginRequestMeta) :
    Service Token (AuthResponse Token) :=
  if a.status = some AccountStatus.locked.value ∨ MAX_FAIL_COUNT ≤ a.failCount.getD 0 then do
    handleLockedLogin a m
    throwAuthError .accountLocked
  else do
    validateAccountStatus a.status
    let isPasswordValid ← verifyPassword password a.password
    if isPasswordValid then acceptedLogin a userType m else rejectedLogin a m

theorem login_eq (loginId password userType : String) (m : LoginRequestMeta) :
    (login loginId password userType m : Service Token _) =
      .ask (.findByLoginIdAndUserType loginId userType) fun row =>
        match row with
        | none => throwAuthError .invalidCredentials
        | some a => foundLogin a password userType m := rfl

theorem foundLogin_locked {a : Account} (h : a.LockedOut) (password userType : String)
    (m : LoginRequestMeta) :
    (foundLogin a password userType m : Service Token _) =
      (do
        handleLockedLogin a m
        throwAuthError .accountLocked) := if_pos h

theorem foundLogin_refused {a : Account} (h : ¬ a.LockedOut) {key : AuthErrorKey}
    (hstatus : statusError a.status = some key) (password userType : String)
    (m : LoginRequestMeta) :
    (foundLogin a password userType m : Service Token _) = throwAuthError key := by
  rw [foundLogin]
  refine (if_neg h).trans ?_
  rw [validateAccountStatus, hstatus]
  rfl

theorem foundLogin_open {a : Account} (h : ¬ a.LockedOut) (hstatus : statusError a.status = none)
    (password userType : String) (m : LoginRequestMeta) :
    (foundLogin a password userType m : Service Token _) =
      (do
        let isPasswordValid ← verifyPassword password a.password
        if isPasswordValid then acceptedLogin a userType m else rejectedLogin a m) := by
  rw [foundLogin]
  refine (if_neg h).trans ?_
  rw [validateAccountStatus, hstatus]
  rfl

theorem acceptedLogin_writes (a : Account) (userType : String) (m : LoginRequestMeta) :
    (acceptedLogin a userType m : Service Token _).Only (Effect.WritesOnly a.id) := by
  rw [acceptedLogin]
  refine Only.bind (silent_writesOnly (validatePasswordExpiry_silent a) a.id) fun _ => ?_
  split
  · refine Only.bind (Only.call (Or.inr rfl)) fun _ => ?_
    refine Only.bind (Only.call (Or.inl rfl)) fun twoFactorToken => ?_
    exact Only.bind (createTotpRegistrationUrlIfRequired_writes a) fun _ => .ret _
  · refine Only.bind (silent_writesOnly (issueTokens_silent a) a.id) fun tokens => ?_
    refine Only.bind ?_ fun _ => .ret _
    exact Only.bind (Only.call (Or.inl rfl)) fun _ => Only.call (Or.inr rfl)

theorem foundLogin_writes (a : Account) (password userType : String) (m : LoginRequestMeta) :
    (foundLogin a password userType m : Service Token _).Only (Effect.WritesOnly a.id) := by
  by_cases hlocked : a.LockedOut
  · rw [foundLogin_locked hlocked]
    exact Only.bind (handleLockedLogin_writes a m) fun _ => only_throwAuthError _ _
  cases hstatus : statusError a.status with
  | some key =>
      rw [foundLogin_refused hlocked hstatus]
      exact only_throwAuthError _ _
  | none =>
      rw [foundLogin_open hlocked hstatus]
      refine Only.bind (silent_writesOnly (verifyPassword_silent _ _) a.id) fun ok => ?_
      split
      · exact acceptedLogin_writes a userType m
      · exact Only.bind (handleFailedLogin_writes ..) fun _ => only_throwAuthError _ _

end NestGateway.Auth
