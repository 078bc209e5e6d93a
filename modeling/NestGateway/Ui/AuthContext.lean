import NestGateway.Core.JsString
import NestGateway.Core.Runs

/-! # The session of the user interface

`AuthProvider` keeps the tokens in the storage of the browser and refreshes them
on a timer. A refresh reads the stored token, waits for the gateway and saves
what it gets; a logout or another login in between does not stop it.
-/

namespace NestGateway.Ui

open Runs
open JsString (truthy)

structure AuthTokenResponse where
  accessToken : String
  refreshToken : String
  /-- In seconds. -/
  expiresIn : Int
  deriving Repr, DecidableEq

/-- The three keys of the local storage. -/
structure TokenStorage where
  accessToken : Option String := none
  refreshToken : Option String := none
  tokenExpiry : Option Int := none
  deriving Repr, DecidableEq

structure User where
  loginId : String
  name : String
  userType : String
  roleType : String
  deriving Repr, DecidableEq

/-- A callback of `setTimeout` that has not run. -/
structure Timeout where
  handle : Nat
  delay : Int
  deriving Repr, DecidableEq

/-! ## The provider -/

/-- What awaits a refresh mutation. -/
inductive Caller where
  | init
  | doRefresh
  deriving Repr, DecidableEq

structure Mutation where
  caller : Caller
  refreshToken : String
  /-- The session the refresh token is of. -/
  origin : Nat
  deriving Repr, DecidableEq

inductive Call where
  | login
  | logout
  deriving Repr, DecidableEq

structure AuthState where
  storage : TokenStorage
  refreshTimer : Option Nat := none
  timeouts : List Timeout := []
  nextHandle : Nat := 1
  isAuthenticated : Bool := false
  isLoading : Bool := true
  user : Option User := none
  mutations : List Mutation := []
  /-- How often `handleLogin` and `handleLogout` were called; each call begins a session. -/
  session : Nat := 0
  /-- The latest of these calls. -/
  latest : Option Call := none
  /-- The session whose tokens the stored ones are, or were refreshed from. -/
  storedOrigin : Nat := 0
  deriving Repr, DecidableEq

namespace AuthState

def saveTokens (s : AuthState) (now : Int) (tokens : AuthTokenResponse) (origin : Nat) :
    AuthState :=
  { s with
    storage :=
      ⟨some tokens.accessToken, some tokens.refreshToken, some (now + tokens.expiresIn * 1000)⟩
    storedOrigin := origin }

def stopRefreshTimer (s : AuthState) : AuthState :=
  match s.refreshTimer with
  | none => s
  | some handle =>
      { s with timeouts := s.timeouts.filter (·.handle ≠ handle), refreshTimer := none }

def clearTokens (s : AuthState) : AuthState := { s with storage := {} }.stopRefreshTimer

def isAccessTokenExpired (s : AuthState) (now : Int) : Bool :=
  match s.storage.tokenExpiry with
  | none => true
  | some expiry => expiry ≤ now

def getTimeUntilExpiry (s : AuthState) (now : Int) : Int :=
  match s.storage.tokenExpiry with
  | none => 0
  | some expiry => max 0 (expiry - now)

def startRefreshTimer (s : AuthState) (now : Int) : AuthState :=
  let s' := s.stopRefreshTimer
  let refreshIn := max 0 (s'.getTimeUntilExpiry now - 10 * 60 * 1000)
  { s' with
    refreshTimer := some s'.nextHandle
    timeouts := s'.timeouts ++ [⟨s'.nextHandle, refreshIn⟩]
    nextHandle := s'.nextHandle + 1 }

def handleLogout (s : AuthState) : AuthState :=
  { s.clearTokens.stopRefreshTimer with
    isAuthenticated := false
    user := none
    session := s.session + 1
    latest := some .logout }

/-- `doRefresh` up to its mutation. -/
def doRefresh (s : AuthState) : AuthState :=
  match truthy s.storage.refreshToken with
  | none => s.handleLogout
  | some refreshToken =>
      { s with mutations := s.mutations ++ [⟨.doRefresh, refreshToken, s.storedOrigin⟩] }

section

variable (parseJwtPayload : String → Option User)

def handleLogin (s : AuthState) (now : Int) (tokens : AuthTokenResponse) : AuthState :=
  { s.saveTokens now tokens (s.session + 1) with
    user := parseJwtPayload tokens.accessToken
    isAuthenticated := true
    session := s.session + 1
    latest := some .login }.startRefreshTimer now

/-- The effect of the mount, up to its mutation. -/
def init (s : AuthState) (now : Int) : AuthState :=
  match truthy s.storage.accessToken with
  | none => { s with isLoading := false }
  | some accessToken =>
      if s.isAccessTokenExpired now then
        match truthy s.storage.refreshToken with
        | none => { s.clearTokens with isLoading := false }
        | some refreshToken =>
            { s with mutations := s.mutations ++ [⟨.init, refreshToken, s.storedOrigin⟩] }
      else
        { { s with
            user := parseJwtPayload accessToken
            isAuthenticated := true }.startRefreshTimer now with isLoading := false }

/-- The rest of `init` or `doRefresh`; there are no tokens when the answer is empty or the
mutation fails. -/
def complete (s : AuthState) (now : Int) (mutation : Mutation) :
    Option AuthTokenResponse → AuthState
  | some tokens =>
      match mutation.caller with
      | .doRefresh => (s.saveTokens now tokens mutation.origin).startRefreshTimer now
      | .init =>
          { { s.saveTokens now tokens mutation.origin with
              user := parseJwtPayload tokens.accessToken
              isAuthenticated := true }.startRefreshTimer now with isLoading := false }
  | none =>
      match mutation.caller with
      | .doRefresh => s.handleLogout
      | .init => { s.clearTokens with isLoading := false }

inductive Event where
  /-- The provider is mounted, before any of its callbacks is called. -/
  | mounted (now : Int)
  | unmounted
  | login (tokens : AuthTokenResponse) (now : Int)
  | logout
  | fired (timeout : Timeout)
  | completed (i : Nat) (tokens : Option AuthTokenResponse) (now : Int)
  deriving Repr, DecidableEq

def step (s : AuthState) : Event → Option AuthState
  | .mounted now =>
      match s.latest with
      | none => some (s.init parseJwtPayload now)
      | some _ => none
  | .unmounted => some s.stopRefreshTimer
  | .login tokens now => some (s.handleLogin parseJwtPayload now tokens)
  | .logout => some s.handleLogout
  | .fired timeout =>
      if timeout ∈ s.timeouts then
        some { s with timeouts := s.timeouts.filter (· ≠ timeout) }.doRefresh
      else none
  | .completed i tokens now =>
      match s.mutations[i]? with
      | none => none
      | some mutation =>
          some ({ s with mutations := s.mutations.eraseIdx i }.complete parseJwtPayload now
            mutation tokens)

end

/-- After a logout nothing is left of the session, after a login the stored tokens are its own
or refreshed from them. -/
def Final (s : AuthState) : Prop :=
  match s.latest with
  | none => True
  | some .logout =>
      s.storage = {} ∧ (s.mutations = [] → s.timeouts = []) ∧ s.isAuthenticated = false
  | some .login =>
      s.storage.accessToken ≠ none ∧ s.storage.refreshToken ≠ none ∧ s.storedOrigin = s.session

/-- A mutation that completes was started in the session that lasts, or it fails: then
`doRefresh` logs out, and `init` clears what a logout has left empty. -/
def InSession (s : AuthState) : Event → Prop
  | .completed i tokens _ => ∀ mutation, s.mutations[i]? = some mutation →
      mutation.origin = s.session ∨
        (tokens = none ∧ (mutation.caller = .doRefresh ∨ s.latest ≠ some .login))
  | _ => True

/-- At most one timeout is pending, the one `refreshTimer` refers to. -/
def OneTimer (s : AuthState) : Prop := ∀ timeout ∈ s.timeouts, s.refreshTimer = some timeout.handle

theorem stopRefreshTimer_eq {s : AuthState} (one : s.OneTimer) :
    s.stopRefreshTimer = { s with timeouts := [], refreshTimer := none } := by
  obtain ⟨storage, refreshTimer, timeouts⟩ := s
  rw [stopRefreshTimer]
  cases refreshTimer with
  | none =>
      have hnil : timeouts = [] :=
        List.eq_nil_iff_forall_not_mem.mpr fun timeout hmem => by cases one timeout hmem
      rw [hnil]
  | some handle =>
      have hnil : timeouts.filter (·.handle ≠ handle) = [] := by
        refine List.filter_eq_nil_iff.mpr fun timeout hmem => ?_
        simpa using (Option.some.inj (one timeout hmem)).symm
      dsimp only
      rw [hnil]

theorem oneTimer_nil (s : AuthState) (h : s.timeouts = []) : s.OneTimer := by
  intro timeout hmem
  rw [h] at hmem
  cases hmem

theorem startRefreshTimer_eq {s : AuthState} (one : s.OneTimer) (now : Int) : ∃ delay,
    s.startRefreshTimer now =
      { s with
        refreshTimer := some s.nextHandle
        timeouts := [⟨s.nextHandle, delay⟩]
        nextHandle := s.nextHandle + 1 } := by
  refine ⟨max 0 (s.getTimeUntilExpiry now - 10 * 60 * 1000), ?_⟩
  rw [startRefreshTimer, stopRefreshTimer_eq one]
  rfl

theorem oneTimer_startRefreshTimer {s : AuthState} (one : s.OneTimer) (now : Int) :
    (s.startRefreshTimer now).OneTimer := by
  obtain ⟨delay, heq⟩ := startRefreshTimer_eq one now
  rw [heq]
  intro timeout hmem
  rw [List.mem_singleton.mp hmem]

theorem clearTokens_eq {s : AuthState} (one : s.OneTimer) :
    s.clearTokens = { s with storage := {}, timeouts := [], refreshTimer := none } :=
  stopRefreshTimer_eq (s := { s with storage := {} }) one

theorem handleLogout_eq {s : AuthState} (one : s.OneTimer) :
    s.handleLogout =
      { s with
        storage := {}
        timeouts := []
        refreshTimer := none
        isAuthenticated := false
        user := none
        session := s.session + 1
        latest := some .logout } := by
  rw [handleLogout, clearTokens_eq one, stopRefreshTimer_eq (oneTimer_nil _ rfl)]

structure Kept (s : AuthState) : Prop where
  timer : s.OneTimer
  origin : ∀ mutation ∈ s.mutations, mutation.origin ≤ s.session
  /-- The mutation of the mount comes before all sessions. -/
  mount : ∀ mutation ∈ s.mutations, mutation.caller = .init → mutation.origin = 0
  latest :
    match s.latest with
    | none => s.session = 0 ∧ s.storedOrigin = 0
    | some .logout =>
        s.storage = {} ∧ s.timeouts = [] ∧ s.isAuthenticated = false ∧
          ∀ mutation ∈ s.mutations, mutation.origin < s.session
    | some .login =>
        0 < s.session ∧ s.storage.accessToken ≠ none ∧ s.storage.refreshToken ≠ none ∧
          s.storedOrigin = s.session

theorem Kept.final {s : AuthState} (kept : Kept s) : s.Final := by
  have hlatest := kept.latest
  rw [Final]
  split
  next => trivial
  next h =>
    rw [h] at hlatest
    obtain ⟨hempty, htimeouts, hauth, _⟩ := hlatest
    exact ⟨hempty, fun _ => htimeouts, hauth⟩
  next h =>
    rw [h] at hlatest
    exact hlatest.2

/-! ## Steps keep the session -/

theorem Kept.running {s s' : AuthState} (kept : Kept s) (hrunning : s.latest ≠ some .logout)
    (one : s'.OneTimer) (hstorage : s'.storage = s.storage)
    (hmutations : s'.mutations = s.mutations) (hsession : s'.session = s.session)
    (hlatest : s'.latest = s.latest) (hstored : s'.storedOrigin = s.storedOrigin) : Kept s' := by
  have hkept := kept.latest
  refine ⟨one, ?_, ?_, ?_⟩
  · rw [hmutations, hsession]
    exact kept.origin
  · rw [hmutations]
    exact kept.mount
  · rw [hlatest, hsession, hstorage, hstored]
    split
    next h =>
      rw [h] at hkept
      exact hkept
    next h => exact absurd h hrunning
    next h =>
      rw [h] at hkept
      exact hkept

theorem Kept.stopRefreshTimer {s : AuthState} (kept : Kept s) : Kept s.stopRefreshTimer := by
  have hlatest := kept.latest
  rw [stopRefreshTimer_eq kept.timer]
  refine ⟨oneTimer_nil _ rfl, kept.origin, kept.mount, ?_⟩
  dsimp only
  split
  next h =>
    rw [h] at hlatest
    exact hlatest
  next h =>
    rw [h] at hlatest
    obtain ⟨hempty, _, hauth, hold⟩ := hlatest
    exact ⟨hempty, rfl, hauth, hold⟩
  next h =>
    rw [h] at hlatest
    exact hlatest

theorem Kept.handleLogout {s : AuthState} (kept : Kept s) : Kept s.handleLogout := by
  rw [handleLogout_eq kept.timer]
  exact ⟨oneTimer_nil _ rfl, fun m hmem => Nat.le_succ_of_le (kept.origin m hmem), kept.mount,
    rfl, rfl, rfl, fun m hmem => Nat.lt_succ_of_le (kept.origin m hmem)⟩

theorem Kept.startRefreshTimer {s : AuthState} (kept : Kept s) (hlatest : s.latest ≠ some .logout)
    (now : Int) : Kept (s.startRefreshTimer now) := by
  have one := oneTimer_startRefreshTimer kept.timer now
  obtain ⟨delay, heq⟩ := startRefreshTimer_eq kept.timer now
  rw [heq] at one ⊢
  exact kept.running hlatest one rfl rfl rfl rfl rfl

theorem Kept.handleLogin {s : AuthState} (kept : Kept s)
    (parseJwtPayload : String → Option User) (now : Int) (tokens : AuthTokenResponse) :
    Kept (s.handleLogin parseJwtPayload now tokens) := by
  have hset : Kept
      { s.saveTokens now tokens (s.session + 1) with
        user := parseJwtPayload tokens.accessToken
        isAuthenticated := true
        session := s.session + 1
        latest := some .login } :=
    ⟨kept.timer, fun m hmem => Nat.le_succ_of_le (kept.origin m hmem), kept.mount,
      Nat.succ_pos _, Option.some_ne_none _, Option.some_ne_none _, rfl⟩
  exact hset.startRefreshTimer (fun h => by cases h) now

theorem Kept.started {s : AuthState} (kept : Kept s) (hlatest : s.latest ≠ some .logout)
    (caller : Caller) (hcaller : caller = .init → s.storedOrigin = 0) (refreshToken : String) :
    Kept { s with mutations := s.mutations ++ [⟨caller, refreshToken, s.storedOrigin⟩] } := by
  have hkept := kept.latest
  have horigin : s.storedOrigin ≤ s.session := by
    split at hkept
    · exact Nat.le_of_eq (hkept.2.trans hkept.1.symm)
    · exact absurd ‹_› hlatest
    · exact Nat.le_of_eq hkept.2.2.2
  refine ⟨kept.timer, fun m hmem => ?_, fun m hmem => ?_, ?_⟩
  · rcases List.mem_append.mp hmem with hmem | hmem
    · exact kept.origin m hmem
    · rw [List.mem_singleton.mp hmem]
      exact horigin
  · rcases List.mem_append.mp hmem with hmem | hmem
    · exact kept.mount m hmem
    · rw [List.mem_singleton.mp hmem]
      exact hcaller
  · dsimp only
    split
    next h =>
      rw [h] at hkept
      exact hkept
    next h => exact absurd h hlatest
    next h =>
      rw [h] at hkept
      exact hkept

theorem Kept.doRefresh {s : AuthState} (kept : Kept s) (hlatest : s.latest ≠ some .logout) :
    Kept s.doRefresh := by
  rw [AuthState.doRefresh]
  split
  · exact kept.handleLogout
  next refreshToken _ => exact kept.started hlatest .doRefresh (fun h => by cases h) refreshToken

theorem Kept.erased {s : AuthState} (kept : Kept s) (i : Nat) :
    Kept { s with mutations := s.mutations.eraseIdx i } := by
  have hkept := kept.latest
  refine ⟨kept.timer, fun m hmem => kept.origin m (List.mem_of_mem_eraseIdx hmem),
    fun m hmem => kept.mount m (List.mem_of_mem_eraseIdx hmem), ?_⟩
  dsimp only
  split
  next h =>
    rw [h] at hkept
    exact hkept
  next h =>
    rw [h] at hkept
    obtain ⟨hempty, htimeouts, hauth, hold⟩ := hkept
    exact ⟨hempty, htimeouts, hauth, fun m hmem => hold m (List.mem_of_mem_eraseIdx hmem)⟩
  next h =>
    rw [h] at hkept
    exact hkept

/-- The tokens of a mutation of the session that lasts are saved. -/
theorem Kept.saveTokens {s : AuthState} (kept : Kept s) (hlatest : s.latest ≠ some .logout)
    (now : Int) (tokens : AuthTokenResponse) : Kept (s.saveTokens now tokens s.session) := by
  have hkept := kept.latest
  refine ⟨kept.timer, kept.origin, kept.mount, ?_⟩
  rw [AuthState.saveTokens]
  dsimp only
  split
  next h =>
    rw [h] at hkept
    exact ⟨hkept.1, hkept.1⟩
  next h => exact absurd h hlatest
  next h =>
    rw [h] at hkept
    exact ⟨hkept.1, Option.some_ne_none _, Option.some_ne_none _, rfl⟩

theorem Kept.setIsLoading {s : AuthState} (kept : Kept s) (isLoading : Bool) :
    Kept { s with isLoading := isLoading } := ⟨kept.timer, kept.origin, kept.mount, kept.latest⟩

theorem Kept.clearTokens {s : AuthState} (kept : Kept s) (hlatest : s.latest ≠ some .login) :
    Kept s.clearTokens := by
  have hkept := kept.latest
  rw [clearTokens_eq kept.timer]
  refine ⟨oneTimer_nil _ rfl, kept.origin, kept.mount, ?_⟩
  dsimp only
  split
  next h =>
    rw [h] at hkept
    exact hkept
  next h =>
    rw [h] at hkept
    exact ⟨rfl, rfl, hkept.2.2⟩
  next h => exact absurd h hlatest

theorem Kept.init {s : AuthState} (kept : Kept s) (hlatest : s.latest = none)
    (parseJwtPayload : String → Option User) (now : Int) : Kept (s.init parseJwtPayload now) := by
  have hrunning : s.latest ≠ some .logout := by simp [hlatest]
  rw [AuthState.init]
  split
  · exact kept.setIsLoading false
  next accessToken _ =>
    split
    · split
      · exact (kept.clearTokens (by simp [hlatest])).setIsLoading false
      next refreshToken _ =>
        refine kept.started hrunning .init (fun _ => ?_) refreshToken
        have hkept := kept.latest
        rw [hlatest] at hkept
        exact hkept.2
    · have hset : Kept
          { s with user := parseJwtPayload accessToken, isAuthenticated := true } :=
        kept.running hrunning kept.timer rfl rfl rfl rfl rfl
      exact (hset.startRefreshTimer hrunning now).setIsLoading false

theorem Kept.not_logout {s : AuthState} (kept : Kept s) {mutation : Mutation}
    (hmem : mutation ∈ s.mutations) (horigin : mutation.origin = s.session) :
    s.latest ≠ some .logout := by
  intro h
  have hkept := kept.latest
  rw [h] at hkept
  have := hkept.2.2.2 mutation hmem
  omega

theorem Kept.completed {s : AuthState} (kept : Kept s) (parseJwtPayload : String → Option User)
    {i : Nat} {mutation : Mutation} (hget : s.mutations[i]? = some mutation)
    {tokens : Option AuthTokenResponse} (now : Int)
    (hin : mutation.origin = s.session ∨
      (tokens = none ∧ (mutation.caller = .doRefresh ∨ s.latest ≠ some .login))) :
    Kept ({ s with mutations := s.mutations.eraseIdx i }.complete parseJwtPayload now mutation
      tokens) := by
  have hmem : mutation ∈ s.mutations := List.mem_of_getElem? hget
  have herased := kept.erased i
  cases tokens with
  | some tokens =>
      have horigin : mutation.origin = s.session := by
        rcases hin with h | ⟨h, _⟩
        · exact h
        · cases h
      have hrunning := kept.not_logout hmem horigin
      have hsaved := herased.saveTokens hrunning now tokens
      rw [complete, horigin]
      cases mutation.caller with
      | doRefresh => exact hsaved.startRefreshTimer hrunning now
      | init =>
          have hset : Kept
              { ({ s with mutations := s.mutations.eraseIdx i } : AuthState).saveTokens now tokens
                  s.session with
                user := parseJwtPayload tokens.accessToken
                isAuthenticated := true } :=
            hsaved.running hrunning hsaved.timer rfl rfl rfl rfl rfl
          exact (hset.startRefreshTimer hrunning now).setIsLoading false
  | none =>
      rw [complete]
      cases hcaller : mutation.caller with
      | doRefresh => exact herased.handleLogout
      | init =>
          have hlatest : s.latest ≠ some .login := by
            rcases hin with horigin | ⟨_, h | h⟩
            · intro h
              have hkept := kept.latest
              rw [h] at hkept
              have := kept.mount mutation hmem hcaller
              omega
            · rw [hcaller] at h
              cases h
            · exact h
          exact (herased.clearTokens hlatest).setIsLoading false

/-! ## Runs -/

theorem Kept.step {s s' : AuthState} (kept : Kept s) (parseJwtPayload : String → Option User)
    {e : Event} (hin : s.InSession e) (h : step parseJwtPayload s e = some s') : Kept s' := by
  cases e with
  | mounted now =>
      rw [AuthState.step] at h
      split at h
      next hlatest => exact Option.some.inj h ▸ kept.init hlatest parseJwtPayload now
      next => cases h
  | unmounted => exact Option.some.inj h ▸ kept.stopRefreshTimer
  | login tokens now => exact Option.some.inj h ▸ kept.handleLogin parseJwtPayload now tokens
  | logout => exact Option.some.inj h ▸ kept.handleLogout
  | fired timeout =>
      rw [AuthState.step] at h
      split at h
      next hpending =>
        obtain rfl := Option.some.inj h
        have hrunning : s.latest ≠ some .logout := by
          intro hlogout
          have hkept := kept.latest
          rw [hlogout] at hkept
          rw [hkept.2.1] at hpending
          cases hpending
        have hfired : Kept { s with timeouts := s.timeouts.filter (· ≠ timeout) } :=
          kept.running hrunning (fun t hmem => kept.timer t (List.mem_filter.mp hmem).1) rfl rfl
            rfl rfl rfl
        exact hfired.doRefresh hrunning
      next => cases h
  | completed i tokens now =>
      rw [AuthState.step] at h
      split at h
      · cases h
      next mutation hget =>
        exact Option.some.inj h ▸ kept.completed parseJwtPayload hget now (hin mutation hget)

theorem complete_saved {s : AuthState} (one : s.OneTimer) (parseJwtPayload : String → Option User)
    (now : Int) (mutation : Mutation) (tokens : AuthTokenResponse) :
    ∃ s', s.complete parseJwtPayload now mutation (some tokens) = s' ∧ s'.latest = s.latest ∧
      s'.session = s.session ∧ s'.storedOrigin = mutation.origin ∧
        s'.storage.accessToken = some tokens.accessToken := by
  refine ⟨_, rfl, ?_⟩
  rw [complete]
  cases mutation.caller with
  | doRefresh =>
      obtain ⟨delay, heq⟩ := startRefreshTimer_eq
        (s := s.saveTokens now tokens mutation.origin) one now
      rw [heq]
      exact ⟨rfl, rfl, rfl, rfl⟩
  | init =>
      obtain ⟨delay, heq⟩ := startRefreshTimer_eq
        (s :=
          { s.saveTokens now tokens mutation.origin with
            user := parseJwtPayload tokens.accessToken
            isAuthenticated := true }) one now
      rw [heq]
      exact ⟨rfl, rfl, rfl, rfl⟩

theorem complete_cleared {s : AuthState} (one : s.OneTimer)
    (parseJwtPayload : String → Option User) (now : Int) {mutation : Mutation}
    (hcaller : mutation.caller = .init) :
    s.complete parseJwtPayload now mutation none =
      { s with storage := {}, timeouts := [], refreshTimer := none, isLoading := false } := by
  rw [complete, hcaller]
  dsimp only
  rw [clearTokens_eq one]

/-- Tokens that are saved for a session that has passed break what a logout or a login means,
and so does clearing the tokens after a login. -/
theorem inSession_of_final {s s' : AuthState} (kept : Kept s)
    (parseJwtPayload : String → Option User) {e : Event}
    (h : step parseJwtPayload s e = some s') (final : s'.Final) : s.InSession e := by
  cases e with
  | completed i tokens now =>
      intro mutation hget
      have hkept := kept.latest
      have herased := (kept.erased i).timer
      simp only [AuthState.step, hget] at h
      obtain rfl := Option.some.inj h
      rw [Final] at final
      cases tokens with
      | some tokens =>
          refine Or.inl ?_
          obtain ⟨s', heq, hlatest', hsession', horigin', htoken'⟩ :=
            complete_saved herased parseJwtPayload now mutation tokens
          rw [heq, hlatest'] at final
          dsimp only at final
          split at hkept
          next =>
            have := kept.origin mutation (List.mem_of_getElem? hget)
            omega
          next hlatest =>
            rw [hlatest] at final
            rw [final.1] at htoken'
            cases htoken'
          next hlatest =>
            rw [hlatest] at final
            rw [← horigin', final.2.2, hsession']
      | none =>
          refine Or.inr ⟨rfl, ?_⟩
          cases hcaller : mutation.caller with
          | doRefresh => exact Or.inl rfl
          | init =>
              refine Or.inr fun hlatest => ?_
              rw [complete_cleared herased parseJwtPayload now hcaller] at final
              dsimp only at final
              rw [hlatest] at final
              exact final.1 rfl
  | mounted now => trivial
  | unmounted => trivial
  | login tokens now => trivial
  | logout => trivial
  | fired timeout => trivial

theorem kept_mount (storage : TokenStorage) : Kept { storage := storage } :=
  ⟨oneTimer_nil _ rfl, fun _ hmem => absurd hmem List.not_mem_nil,
    fun _ hmem => absurd hmem List.not_mem_nil, rfl, rfl⟩

/-- In a run from any storage, every state is final exactly if no mutation brings tokens for a
session that has passed, and that of the mount does not fail after a login. -/
theorem final_iff (parseJwtPayload : String → Option User) (storage : TokenStorage)
    (es : List Event) :
    EachStep (step parseJwtPayload) (fun _ _ s' => s'.Final) { storage := storage } es ↔
      EachStep (step parseJwtPayload) (fun s e _ => s.InSession e) { storage := storage } es := by
  refine eachStep_iff (I := Kept) ?_ ?_ (kept_mount storage)
  · intro s e s' kept hin h
    have kept' := kept.step parseJwtPayload hin h
    exact ⟨kept', kept'.final⟩
  · intro s e s' kept final h
    exact inSession_of_final kept parseJwtPayload h final

/-- A refresh is in flight when the user logs out, and its tokens are saved: the session is back
in the storage, and the timer goes on refreshing it. -/
theorem logout_undone : ∃ s, run (step fun _ => none) { storage := {} }
    [.mounted 0, .login ⟨"a", "r", 900⟩ 0, .fired ⟨1, 300000⟩, .logout,
      .completed 0 (some ⟨"a'", "r'", 900⟩) 300000] = some s ∧
    s.latest = some .logout ∧ s.mutations = [] ∧ s.storage.refreshToken = some "r'" ∧
    s.timeouts = [⟨2, 300000⟩] ∧ ¬ s.Final := by
  refine ⟨_, rfl, rfl, rfl, rfl, rfl, fun final => ?_⟩
  cases final.1

end AuthState

end NestGateway.Ui
