import NestGateway.Auth.WrongPasswords
import NestGateway.Auth.Enrolment

/-! # What a failed login leaves behind

A login whose awaited steps can fail: the database, the packages, the clock. The
steps are not in one transaction, so a step that throws leaves what the steps
before it wrote. Before a second factor the failure count is reset and a new
secret is written ahead of steps that can still throw.
-/

namespace NestGateway.Auth

open Prog

variable {Token : Type}

/-! ## Half-made changes -/

section Definitions

variable (env : Env Token) (fails : Effect Token → Bool) (s : Server) (c : LoginCall) (a : Account)

/-- The rows that a login that throws may leave behind. -/
inductive LeftBehind : Account → Prop
  | unchanged : LeftBehind a
  | counted (wrong : env.passwordMatches c.password a.password = false) :
      LeftBehind { a with failCount := a.failCount.map (· + 1) }
  | countedAndLocked (wrong : env.passwordMatches c.password a.password = false) :
      LeftBehind { a with
        failCount := a.failCount.map (· + 1)
        status := some AccountStatus.locked.value }
  | locked (lockedOut : a.LockedOut) :
      LeftBehind { a with status := some AccountStatus.locked.value }

/-- If the call throws, it leaves nothing else behind. -/
def LeavesNoHalfMadeChange : Prop :=
  ∀ error s',
    ((c.program : Service Token _).faulty fails).exec (answer env) s = (.error error, s') →
    ∃ b, s'.row a.id = some b ∧ LeftBehind env c a b

/-- The password of the account did not expire, and the clock says so. -/
def PassesExpiry : Prop :=
  ∀ lastChanged ∈ a.lastPasswordChangedAt, fails .dateNow = false ∧
    daysSince s.now lastChanged < PASSWORD_EXPIRY_DAYS

def ComparesPassword (plain : String) (stored : Option String) : Prop :=
  ∀ t ∈ stored, fails (.compare plain (bcryptHash t)) = false

/-- The call passes its checks and resets the failure count ahead of a second factor. -/
structure ResetsCount : Prop where
  finds : c.finds env s.accounts a.id = true
  found : fails (.findByLoginIdAndUserType c.loginId c.userType) = false
  notLocked : ¬ a.LockedOut
  status : statusError a.status = none
  compared : ComparesPassword fails c.password a.password
  password : env.passwordMatches c.password a.password = true
  expiry : PassesExpiry fails s a
  twoFactor : c.userType ∈ twoFactorRequiredTypes
  reset : fails (.resetFailCount a.id) = false

/-- The token of the second factor is signed with this. -/
def twoFactorSigning : Effect Token :=
  .sign { sub := Nat.repr a.id, userType := c.userType, type := some "2fa" }
    TWO_FACTOR_TOKEN_EXPIRY_SECONDS

/-- The secret that the call would register. -/
def newSecret : String := env.generateSecret s.drawn

/-- A step after the reset throws, and the row is left so. -/
inductive ThrowsLate : Account → Prop
  | signing (h : fails (twoFactorSigning c a) = true) :
      ThrowsLate { a with failCount := some 0 }
  | registering (signed : fails (twoFactorSigning c a) = false) (required : a.RegistrationRequired)
      (h : fails .generateSecret = true ∨
        fails (.updateOtpSecretKey a.id (newSecret env s)) = true) :
      ThrowsLate { a with failCount := some 0 }
  | naming (signed : fails (twoFactorSigning c a) = false) (required : a.RegistrationRequired)
      (drawn : fails .generateSecret = false)
      (written : fails (.updateOtpSecretKey a.id (newSecret env s)) = false)
      (h : ∀ name, (normalizeTotpAccountName a : Except (AuthError Token) String) = .ok name →
        fails (.keyuri name "MX_ADMIN" (newSecret env s)) = true) :
      ThrowsLate { a with failCount := some 0, otpSecretKey := some (newSecret env s) }

/-- The call throws after it changed the row for a login that was to succeed. -/
def HalfMade : Prop :=
  ResetsCount env fails s c a ∧ ∃ b, ThrowsLate env fails s c a b ∧ b ≠ a

end Definitions

variable {env : Env Token} {fails : Effect Token → Bool} {s : Server} {c : LoginCall} {a : Account}

theorem leftBehind_accepted (hlocked : ¬ a.LockedOut)
    (hmatch : env.passwordMatches c.password a.password = true) {b : Account} :
    LeftBehind env c a b ↔ b = a := by
  constructor
  · intro h
    cases h with
    | unchanged => rfl
    | counted wrong => cases hmatch.symm.trans wrong
    | countedAndLocked wrong => cases hmatch.symm.trans wrong
    | locked lockedOut => exact absurd lockedOut hlocked
  · rintro rfl
    exact .unchanged

/-! ## Throwing without a half-made change -/

/-- The postcondition of a call: when it throws, the row is one that may be left behind. -/
def Left (env : Env Token) (c : LoginCall) (a : Account) {ε α : Type} (r : Except ε α)
    (s' : Server) : Prop :=
  (∃ error, r = .error error) → ∃ b, s'.row a.id = some b ∧ LeftBehind env c a b

theorem leavesNoHalfMadeChange_iff :
    LeavesNoHalfMadeChange env fails s c a ↔
      wp (answer env) ((c.program : Service Token _).faulty fails) (Left env c a) s := by
  rw [LeavesNoHalfMadeChange, wp]
  generalize ((c.program : Service Token _).faulty fails).exec (answer env) s = result
  obtain ⟨r, s'⟩ := result
  constructor
  · rintro h ⟨error, rfl⟩
    exact h error s' rfl
  · intro h error s'' heq
    obtain ⟨rfl, rfl⟩ := Prod.mk.inj heq
    exact h ⟨error, rfl⟩

section Parts

variable (hrow : s.row a.id = some a)
include hrow

theorem left_unchanged {ε α : Type} (r : Except ε α) : Left env c a r s :=
  fun _ => ⟨a, hrow, .unchanged⟩

theorem wp_left_of_silent {α : Type} {x : Service Token α} (hx : x.Only Effect.Silent) :
    wp (answer env) (x.faulty fails) (fun _ s' => s'.row a.id = some a) s := by
  refine hx.faulty.wp_invariant (I := fun s' : Server => s'.row a.id = some a) ?_ hrow
  intro e s' he hrow'
  rw [row_answer, hrow', Option.map_some,
    applied_of_target (fun h => by cases he.1.symm.trans h) s'.now]

end Parts

def Effect.AtMostLocks (id : Nat) (e : Effect Token) : Prop :=
  e.target = none ∨ e = .lockAccount id

theorem wp_of_atMostLocks {α : Type} {x : Service Token α} {b : Account}
    (hx : x.Only (Effect.AtMostLocks b.id)) {s : Server} (hrow : s.row b.id = some b) :
    wp (answer env) (x.faulty fails) (fun _ s' => s'.row b.id = some b ∨
      s'.row b.id = some { b with status := some AccountStatus.locked.value }) s := by
  refine hx.faulty.wp_invariant (I := fun s' : Server => s'.row b.id = some b ∨
    s'.row b.id = some { b with status := some AccountStatus.locked.value }) ?_ (Or.inl hrow)
  intro e s' he hrow'
  rw [row_answer]
  rcases he with htarget | rfl
  · have hkeep : ∀ d : Account, e.applied s'.now d = d := fun d =>
      applied_of_target (fun h => by cases htarget.symm.trans h) s'.now
    simp only [hkeep, Option.map_id']
    exact hrow'
  · right
    rcases hrow' with h | h
    · rw [h]
      exact congrArg some (if_pos rfl)
    · rw [h]
      exact congrArg some (if_pos rfl)

theorem recordFailure_atMostLocks (id : Nat) (a : Account) (m : LoginRequestMeta)
    (failCount : Int) (status : Option String) :
    (recordFailure a m failCount status : Service Token _).Only (Effect.AtMostLocks id) :=
  (recordFailure_reads ..).mono fun _ => Or.inl

section Parts

variable (hrow : s.row a.id = some a)
include hrow

theorem left_locked (hlocked : a.LockedOut) :
    wp (answer env) ((foundLogin a c.password c.userType c.m : Service Token _).faulty fails)
      (Left env c a) s := by
  have honly : (foundLogin a c.password c.userType c.m : Service Token _).Only
      (Effect.AtMostLocks a.id) := by
    rw [foundLogin_locked hlocked, handleLockedLogin]
    refine Only.bind ?_ fun _ => only_throwAuthError _ _
    split
    · exact Only.bind (Only.call (Or.inr rfl)) fun _ => recordFailure_atMostLocks ..
    · exact recordFailure_atMostLocks ..
  refine wp_mono (wp_of_atMostLocks honly hrow) ?_
  rintro r s' (h | h) _
  · exact ⟨_, h, .unchanged⟩
  · exact ⟨_, h, .locked hlocked⟩

theorem left_rejected (wrong : env.passwordMatches c.password a.password = false) :
    wp (answer env) ((rejectedLogin a c.m : Service Token _).faulty fails) (Left env c a) s := by
  rw [rejectedLogin, handleFailedLogin, faulty_bind, wp_bind, wp_faulty_call_bind]
  split
  · exact left_unchanged hrow _
  have hcounted : (answer env (.incrementFailCount a.id) s).2.row a.id =
      some { a with failCount := a.failCount.map (· + 1) } := by
    rw [row_answer, hrow]
    exact congrArg some (if_pos rfl)
  refine (wp_bind _ fun u => ((throwAuthError .invalidCredentials : Service Token _).faulty
    fails)).mp ?_
  rw [← faulty_bind]
  refine wp_mono (wp_of_atMostLocks (b := { a with failCount := a.failCount.map (· + 1) }) ?_
    hcounted) ?_
  · refine Only.bind ?_ fun _ => only_throwAuthError _ _
    split
    · exact Only.bind (Only.call (Or.inr rfl)) fun _ => recordFailure_atMostLocks ..
    · exact recordFailure_atMostLocks ..
  · rintro r s' (h | h) _
    · exact ⟨_, h, .counted wrong⟩
    · exact ⟨_, h, .countedAndLocked wrong⟩

/-- A success is recorded in one transaction. -/
theorem recordSuccess_atomic (m : LoginRequestMeta) :
    wp (answer env) ((recordSuccess a m : Service Token _).faulty fails)
      (fun r s' => r = .ok () ∨ s'.row a.id = some a) s := by
  rw [recordSuccess, wp_faulty_call_bind]
  split
  · exact Or.inr hrow
  · rw [ask, call, faulty]
    split
    · exact Or.inr hrow
    · exact Or.inl rfl

theorem left_issued :
    wp (answer env) ((do
        let tokens ← issueTokens a
        recordSuccess a c.m
        return .authenticated tokens : Service Token (AuthResponse Token)).faulty fails)
      (Left env c a) s := by
  rw [faulty_bind]
  refine wp_bind_of (wp_left_of_silent hrow (issueTokens_silent a)) ?_ ?_
  · intro tokens s' hrow'
    rw [faulty_bind]
    refine wp_bind_of (recordSuccess_atomic hrow' c.m) ?_ ?_
    · rintro u s'' _ ⟨error, h⟩
      cases h
    · rintro error s'' (h | hrow'')
      · cases h
      · exact left_unchanged hrow'' _
  · exact fun error s' hrow' => left_unchanged hrow' _

end Parts

theorem verifyPassword_faulty (plain : String) (stored : Option String) (s : Server) :
    wp (answer env) ((verifyPassword plain stored : Service Token _).faulty fails)
      (fun r s' => s' = s ∧
        ((¬ ComparesPassword fails plain stored ∧ ∃ error, r = .error error) ∨
          ∃ ok, r = .ok ok ∧ ok = env.passwordMatches plain stored ∧
            (ok = true → ComparesPassword fails plain stored))) s := by
  cases stored with
  | none => exact ⟨rfl, Or.inr ⟨false, rfl, rfl, fun h => absurd h Bool.false_ne_true⟩⟩
  | some stored =>
      rw [verifyPassword, Env.passwordMatches]
      split
      · exact ⟨rfl, Or.inr ⟨false, rfl, rfl, fun h => absurd h Bool.false_ne_true⟩⟩
      · rw [ask, call, faulty]
        split
        next hfails =>
          refine ⟨rfl, Or.inl ⟨fun compares => ?_, _, rfl⟩⟩
          cases (compares stored rfl).symm.trans hfails
        next hfails =>
          refine ⟨rfl, Or.inr ⟨_, rfl, rfl, fun _ t ht => ?_⟩⟩
          obtain rfl := Option.some.inj ht
          exact Bool.eq_false_iff.mpr hfails

variable (env fails) in
theorem validatePasswordExpiry_faulty (hrow : s.row a.id = some a) :
    wp (answer env) ((validatePasswordExpiry a : Service Token _).faulty fails)
      (fun r s' => (PassesExpiry fails s a ∧ r = .ok () ∧ s' = s) ∨
        (¬ PassesExpiry fails s a ∧ s'.row a.id = some a ∧ ∃ error, r = .error error)) s := by
  rw [validatePasswordExpiry]
  cases hchanged : a.lastPasswordChangedAt with
  | none =>
      refine Or.inl ⟨fun t ht => ?_, rfl, rfl⟩
      cases hchanged.symm.trans ht
  | some lastChanged =>
      rw [wp_faulty_call_bind]
      split
      next hclock =>
        refine Or.inr ⟨fun passes => ?_, hrow, _, rfl⟩
        cases (passes lastChanged hchanged).1.symm.trans hclock
      next hclock =>
        change wp (answer env) ((if PASSWORD_EXPIRY_DAYS ≤ daysSince s.now lastChanged then
          signPasswordChangeToken (Nat.repr a.id) a.userType >>= fun passwordChangeToken =>
            throwAuthError .passwordExpired (some passwordChangeToken)
          else return () : Service Token Unit).faulty fails) _ s
        split
        next hdays =>
          rw [signPasswordChangeToken, wp_faulty_call_bind]
          have hexpired : ¬ PassesExpiry fails s a := fun passes =>
            absurd (passes lastChanged hchanged).2 (not_lt.mpr hdays)
          split
          · exact Or.inr ⟨hexpired, hrow, _, rfl⟩
          · exact Or.inr ⟨hexpired, hrow, _, rfl⟩
        next hdays =>
          refine Or.inl ⟨fun t ht => ?_, rfl, rfl⟩
          obtain rfl := Option.some.inj (hchanged.symm.trans ht)
          exact ⟨Bool.eq_false_iff.mpr hclock, not_le.mp hdays⟩

/-! ## Ahead of a second factor -/

/-- What follows the reset. -/
def secondFactor (a : Account) (userType : String) : Service Token (AuthResponse Token) := do
  let twoFactorToken ← signTwoFactorToken (Nat.repr a.id) userType
  let tOtpUrl ← createTotpRegistrationUrlIfRequired a
  return .requiresTwoFactor twoFactorToken tOtpUrl

theorem acceptedLogin_twoFactor (h : c.userType ∈ twoFactorRequiredTypes) :
    (acceptedLogin a c.userType c.m : Service Token _) = (do
      validatePasswordExpiry a
      ask (.resetFailCount a.id)
      secondFactor a c.userType) := by
  rw [acceptedLogin]
  refine congrArg (validatePasswordExpiry a >>= ·) (funext fun _ => if_pos h)

theorem acceptedLogin_issued (h : c.userType ∉ twoFactorRequiredTypes) :
    (acceptedLogin a c.userType c.m : Service Token _) = (do
      validatePasswordExpiry a
      let tokens ← issueTokens a
      recordSuccess a c.m
      return .authenticated tokens) := by
  rw [acceptedLogin]
  refine congrArg (validatePasswordExpiry a >>= ·) (funext fun _ => if_neg h)

/-- Only one of the late steps throws. -/
theorem ThrowsLate.unique {b b' : Account} (h : ThrowsLate env fails s c a b)
    (h' : ThrowsLate env fails s c a b') : b = b' := by
  cases h with
  | signing h =>
      cases h' with
      | signing => rfl
      | registering signed => cases signed.symm.trans h
      | naming signed => cases signed.symm.trans h
  | registering signed required h =>
      cases h' with
      | signing h' => cases signed.symm.trans h'
      | registering => rfl
      | naming _ _ drawn written _ =>
          rcases h with h | h
          · cases drawn.symm.trans h
          · cases written.symm.trans h
  | naming signed required drawn written h =>
      cases h' with
      | signing h' => cases signed.symm.trans h'
      | registering _ _ h' =>
          rcases h' with h' | h'
          · cases drawn.symm.trans h'
          · cases written.symm.trans h'
      | naming => rfl

/-- A late step throws and leaves the row as it says, or none throws. -/
def Late (env : Env Token) (fails : Effect Token → Bool) (s : Server) (c : LoginCall)
    (a : Account) {ε α : Type} (r : Except ε α) (s' : Server) : Prop :=
  (∃ error b, r = .error error ∧ s'.row a.id = some b ∧ ThrowsLate env fails s c a b) ∨
    (∃ v, r = .ok v) ∧ ∀ b, ¬ ThrowsLate env fails s c a b

theorem createTotpRegistrationUrlIfRequired_late {s₁ : Server}
    (signed : fails (twoFactorSigning c a) = false)
    (hrow : s₁.row a.id = some { a with failCount := some 0 }) (hdrawn : s₁.drawn = s.drawn) :
    wp (answer env) ((createTotpRegistrationUrlIfRequired a : Service Token _).faulty fails)
      (Late env fails s c a) s₁ := by
  rw [createTotpRegistrationUrlIfRequired]
  split
  next hdone =>
    refine Or.inr ⟨⟨none, rfl⟩, fun b late => ?_⟩
    cases late with
    | signing h => cases signed.symm.trans h
    | registering _ required => exact required hdone
    | naming _ required => exact required hdone
  next required =>
    rw [generateSecret, wp_faulty_call_bind]
    split
    next h => exact Or.inl ⟨_, _, rfl, hrow, .registering signed required (Or.inl h)⟩
    next hdraws =>
      have drawn := Bool.eq_false_iff.mpr hdraws
      have hsecret : (answer env .generateSecret s₁).1 = newSecret env s :=
        congrArg env.generateSecret hdrawn
      rw [hsecret, wp_faulty_call_bind]
      split
      next h => exact Or.inl ⟨_, _, rfl, hrow, .registering signed required (Or.inr h)⟩
      next hwrites =>
        have written := Bool.eq_false_iff.mpr hwrites
        generalize hs : (answer env (.updateOtpSecretKey a.id (newSecret env s))
          (answer env .generateSecret s₁).2).2 = s₂
        have hrow₂ : s₂.row a.id =
            some { a with failCount := some 0, otpSecretKey := some (newSecret env s) } := by
          rw [← hs, row_answer, row_answer, hrow]
          exact congrArg some (if_pos rfl)
        rw [faulty_bind, wp_bind, wp_faulty_ofExcept]
        cases hname : (normalizeTotpAccountName a : Except (AuthError Token) String) with
        | error error =>
            refine Or.inl ⟨_, _, rfl, hrow₂, .naming signed required drawn written ?_⟩
            intro name h
            cases hname.symm.trans h
        | ok name =>
            change wp (answer env) ((generateKeyUri name (newSecret env s) >>= fun url =>
              return some url : Service Token _).faulty fails) _ s₂
            rw [generateKeyUri, wp_faulty_call_bind]
            split
            next h =>
              refine Or.inl ⟨_, _, rfl, hrow₂, .naming signed required drawn written ?_⟩
              intro name' h'
              obtain rfl := Except.ok.inj (hname.symm.trans h')
              exact h
            next hnames =>
              refine Or.inr ⟨⟨_, rfl⟩, fun b late => ?_⟩
              cases late with
              | signing h => cases signed.symm.trans h
              | registering _ _ h =>
                  rcases h with h | h
                  · cases drawn.symm.trans h
                  · cases written.symm.trans h
              | naming _ _ _ _ h => exact hnames (h name hname)

theorem secondFactor_late {s₁ : Server}
    (hrow : s₁.row a.id = some { a with failCount := some 0 }) (hdrawn : s₁.drawn = s.drawn) :
    wp (answer env) ((secondFactor a c.userType : Service Token _).faulty fails)
      (Late env fails s c a) s₁ := by
  rw [secondFactor, signTwoFactorToken, wp_faulty_call_bind]
  split
  next h => exact Or.inl ⟨_, _, rfl, hrow, .signing h⟩
  next hsigns =>
    rw [faulty_bind]
    refine wp_bind_of (createTotpRegistrationUrlIfRequired_late (s := s) (c := c)
      (Bool.eq_false_iff.mpr hsigns) ?_ ?_) ?_ ?_
    · exact hrow
    · exact hdrawn
    · rintro tOtpUrl s' (⟨error, b, h, _⟩ | ⟨_, hnone⟩)
      · cases h
      · exact Or.inr ⟨⟨_, rfl⟩, hnone⟩
    · rintro error s' (⟨error', b, h, hrow, late⟩ | ⟨⟨v, h⟩, _⟩)
      · exact Or.inl ⟨_, b, rfl, hrow, late⟩
      · cases h

/-- What is left behind is a half-made change exactly if a late step changed the row. -/
theorem left_iff_of_late (hlocked : ¬ a.LockedOut)
    (hmatch : env.passwordMatches c.password a.password = true) {ε α : Type} {r : Except ε α}
    {s' : Server} (late : Late env fails s c a r s') :
    Left env c a r s' ↔ ¬ ∃ b, ThrowsLate env fails s c a b ∧ b ≠ a := by
  rcases late with ⟨error, b, rfl, hrow, late⟩ | ⟨⟨v, rfl⟩, hnone⟩
  · constructor
    · rintro left ⟨b', late', hne⟩
      obtain ⟨b'', hrow', hleft⟩ := left ⟨error, rfl⟩
      obtain rfl := Option.some.inj (hrow.symm.trans hrow')
      obtain rfl := late.unique late'
      exact hne ((leftBehind_accepted hlocked hmatch).mp hleft)
    · intro hsame _
      have heq : b = a := not_not.mp fun hne => hsame ⟨b, late, hne⟩
      exact ⟨b, hrow, (leftBehind_accepted hlocked hmatch).mpr heq⟩
  · exact ⟨fun _ ⟨b, late, _⟩ => hnone b late, fun _ ⟨error, h⟩ => by cases h⟩

/-! ## Every login -/

theorem left_accepted (hrow : s.row a.id = some a)
    (hresets : PassesExpiry fails s a → c.userType ∈ twoFactorRequiredTypes →
      fails (.resetFailCount a.id) = true) :
    wp (answer env) ((acceptedLogin a c.userType c.m : Service Token _).faulty fails)
      (Left env c a) s := by
  have hexpiry := validatePasswordExpiry_faulty env fails hrow
  by_cases htwo : c.userType ∈ twoFactorRequiredTypes
  · rw [acceptedLogin_twoFactor htwo, faulty_bind]
    refine wp_bind_of hexpiry ?_ ?_
    · rintro u s' (⟨passes, _, rfl⟩ | ⟨_, _, error, h⟩)
      · rw [wp_faulty_call_bind, if_pos (hresets passes htwo)]
        exact left_unchanged hrow _
      · cases h
    · rintro error s' (⟨_, h, _⟩ | ⟨_, hrow', _⟩)
      · cases h
      · exact left_unchanged hrow' _
  · rw [acceptedLogin_issued htwo, faulty_bind]
    refine wp_bind_of hexpiry ?_ ?_
    · rintro u s' (⟨_, _, rfl⟩ | ⟨_, _, error, h⟩)
      · exact left_issued hrow
      · cases h
    · rintro error s' (⟨_, h, _⟩ | ⟨_, hrow', _⟩)
      · cases h
      · exact left_unchanged hrow' _

/-- A call that does not get as far as resetting the count leaves no half-made change. -/
theorem left_of_not_resets (hrow : s.row a.id = some a)
    (hfinds : c.finds env s.accounts a.id = true)
    (hfound : fails (.findByLoginIdAndUserType c.loginId c.userType) = false)
    (hresets : ¬ ResetsCount env fails s c a) :
    wp (answer env) ((foundLogin a c.password c.userType c.m : Service Token _).faulty fails)
      (Left env c a) s := by
  by_cases hlocked : a.LockedOut
  · exact left_locked hrow hlocked
  cases hstatus : statusError a.status with
  | some key =>
      rw [foundLogin_refused hlocked hstatus]
      exact left_unchanged hrow _
  | none =>
      rw [foundLogin_open hlocked hstatus, faulty_bind]
      refine wp_bind_of (verifyPassword_faulty c.password a.password s) ?_ ?_
      · rintro isPasswordValid s' ⟨rfl, ⟨_, error, h⟩ | ⟨ok, h, hmatch, compares⟩⟩
        · cases h
        obtain rfl : isPasswordValid = ok := Except.ok.inj h
        cases isPasswordValid with
        | false => exact left_rejected hrow hmatch.symm
        | true =>
            refine left_accepted hrow fun passes htwo => ?_
            by_contra hfails
            exact hresets ⟨hfinds, hfound, hlocked, hstatus, compares rfl, hmatch.symm, passes,
              htwo, Bool.eq_false_iff.mpr hfails⟩
      · rintro error s' ⟨rfl, _⟩
        exact left_unchanged hrow _

/-- A call that resets the count goes on to the second factor. -/
theorem left_of_resets (hrow : s.row a.id = some a) (resets : ResetsCount env fails s c a) :
    wp (answer env) ((foundLogin a c.password c.userType c.m : Service Token _).faulty fails)
      (Left env c a) s ↔ ¬ ∃ b, ThrowsLate env fails s c a b ∧ b ≠ a := by
  have hverify : wp (answer env) ((verifyPassword c.password a.password : Service Token _).faulty
      fails) (fun r t => r = .ok true ∧ t = s) s := by
    refine wp_mono (verifyPassword_faulty c.password a.password s) ?_
    rintro r t ⟨rfl, ⟨h, _⟩ | ⟨ok, rfl, hok, _⟩⟩
    · exact absurd resets.compared h
    · rw [hok, resets.password]
      exact ⟨rfl, rfl⟩
  have hexpiry : wp (answer env) ((validatePasswordExpiry a : Service Token _).faulty fails)
      (fun r t => r = .ok () ∧ t = s) s := by
    refine wp_mono (validatePasswordExpiry_faulty env fails hrow) ?_
    rintro r t (⟨_, h⟩ | ⟨h, _⟩)
    · exact h
    · exact absurd resets.expiry h
  rw [foundLogin_open resets.notLocked resets.status, faulty_bind, wp_bind_ok hverify, if_pos rfl,
    acceptedLogin_twoFactor resets.twoFactor, faulty_bind, wp_bind_ok hexpiry,
    wp_faulty_call_bind, resets.reset, if_neg Bool.false_ne_true]
  have hreset : (answer env (.resetFailCount a.id) s).2.row a.id =
      some { a with failCount := some 0 } := by
    rw [row_answer, hrow]
    exact congrArg some (if_pos rfl)
  exact left_iff_of_late resets.notLocked resets.password (secondFactor_late hreset rfl)

theorem left_other (hrow : s.row a.id = some a) (hother : c.finds env s.accounts a.id = false) :
    wp (answer env) ((c.program : Service Token _).faulty fails) (Left env c a) s := by
  rw [LoginCall.program, login_eq, faulty]
  split
  · exact left_unchanged hrow _
  rw [wp, exec]
  cases hfind : s.accounts.findByLoginIdAndUserType env.sameUserType c.loginId c.userType with
  | none =>
      simp only [answer, hfind]
      exact left_unchanged hrow _
  | some b =>
      simp only [answer, hfind]
      rw [LoginCall.finds, hfind] at hother
      have hne : b.id ≠ a.id := beq_eq_false_iff_ne.mp hother
      have honly : ((foundLogin b c.password c.userType c.m : Service Token _).faulty fails).Only
          (Effect.WritesOnly b.id) := (foundLogin_writes b c.password c.userType c.m).faulty
      have hother (e : Effect Token) (he : e.WritesOnly b.id) : e.target ≠ some a.id := by
        intro h
        rcases he with htarget | htarget
        · cases htarget.symm.trans h
        · exact hne (Option.some.inj (htarget.symm.trans h))
      have hsame : wp (answer env) _ (fun _ s' => s'.row a.id = s.row a.id) s :=
        wp_row_of_target honly hother
      exact left_unchanged (Eq.trans hsame hrow) _

/-- A login leaves no half-made change unless a step after the reset throws and the row is not as it
was. -/
theorem failed_login_leaves_row_iff (ha : a ∈ s.accounts.rows) :
    LeavesNoHalfMadeChange env fails s c a ↔ ¬ HalfMade env fails s c a := by
  have hrow := row_of_mem ha
  rw [leavesNoHalfMadeChange_iff]
  cases hfinds : c.finds env s.accounts a.id with
  | false =>
      refine iff_of_true (left_other hrow hfinds) fun half => ?_
      cases half.1.finds.symm.trans hfinds
  | true =>
      obtain ⟨b, hfind, hid⟩ := find_of_finds hfinds
      obtain rfl : b = a := Option.some.inj ((row_of_find hfind).symm.trans (hid ▸ hrow))
      rw [LoginCall.program, login_eq, faulty]
      split
      next hfails =>
        refine iff_of_true (left_unchanged hrow _) fun half => ?_
        cases half.1.found.symm.trans hfails
      next hanswers =>
        have hfound := Bool.eq_false_iff.mpr hanswers
        rw [wp, exec]
        simp only [answer, hfind]
        change wp (answer env) ((foundLogin b c.password c.userType c.m : Service Token _).faulty
          fails) (Left env c b) s ↔ _
        by_cases resets : ResetsCount env fails s c b
        · exact (left_of_resets hrow resets).trans
            ⟨fun h half => h half.2, fun h late => h ⟨resets, late⟩⟩
        · exact iff_of_true (left_of_not_resets hrow hfinds hfound resets)
            fun half => resets half.1

/-- A row whose name and login id are blank. -/
def nameless : Account := { administrator with
  loginId := " "
  name := none
  otpSecretKey := none
  failCount := some 2
  lastLoginAt := none }

def namelessServer : Server where
  accounts := ⟨[nameless], by decide⟩
  history := []
  now := 0
  drawn := 0
  minted := []

def namelessLogin : LoginCall := ⟨" ", "pw", "ADMIN_BO", ⟨"10.0.0.1", none⟩⟩

/-- With the right password the call throws `INVALID_TOKEN_CLAIMS` behind both writes. -/
theorem failed_login_nameless :
    ¬ LeavesNoHalfMadeChange Env.plain (fun _ => false) namelessServer namelessLogin nameless := by
  intro leaves
  have hthrows : (((namelessLogin.program : Service SignedClaims _).faulty fun _ => false).exec
      (answer Env.plain) namelessServer).1 =
        .error (.inr AuthErrorKey.invalidTokenClaims.error) := rfl
  obtain ⟨b, hrow, hleft⟩ := leaves _ _ (Prod.ext hthrows rfl)
  have hopen : ¬ nameless.LockedOut := not_or.mpr ⟨by decide, by decide⟩
  obtain rfl := (leftBehind_accepted hopen (by decide)).mp hleft
  exact absurd hrow (by decide)

/-- A wrong password, with nothing failing besides. -/
theorem failed_login_leaves_row_iff_sample :
    LeavesNoHalfMadeChange Env.plain (fun _ => false) namelessServer
      { namelessLogin with password := "guess" } nameless := by
  refine (failed_login_leaves_row_iff (List.mem_singleton.mpr rfl)).mpr fun half => ?_
  exact absurd half.1.password (by decide)

end NestGateway.Auth
