import NestGateway.Auth.Rows

/-! # Wrong passwords in turn

Login calls one after the other. The new count of a wrong password is computed
from the row that was read, and the stored count advances by one in SQL: both
agree as long as the stored count is not NULL, which stays NULL.
-/

namespace NestGateway.Auth

open Prog Runs

variable {Token : Type}

structure LoginCall where
  loginId : String
  password : String
  userType : String
  m : LoginRequestMeta

def LoginCall.program (c : LoginCall) : Service Token (AuthResponse Token) :=
  login c.loginId c.password c.userType c.m

inductive Turn where
  | called (c : LoginCall)
  | clockMoved (now : Nat)

variable (env : Env Token)

def Server.login (s : Server) (c : LoginCall) : Server := (c.program.exec (answer env) s).2

def Turn.step (s : Server) : Turn → Option Server
  | .called c => some (s.login env c)
  | .clockMoved now => some { s with now }

def LoginCall.finds (accounts : AccountTable) (id : Nat) (c : LoginCall) : Bool :=
  (accounts.findByLoginIdAndUserType env.sameUserType c.loginId c.userType).any (·.id == id)

/-- The turn tries a wrong password for the account. -/
def Turn.wrong (accounts : AccountTable) (a : Account) : Turn → Bool
  | .called c => c.finds env accounts a.id && !env.passwordMatches c.password a.password
  | .clockMoved _ => false

/-- The turn tries the right password for the account. -/
def Turn.right (accounts : AccountTable) (a : Account) : Turn → Bool
  | .called c => c.finds env accounts a.id && env.passwordMatches c.password a.password
  | .clockMoved _ => false

/-- The call is refused with `ACCOUNT_LOCKED`, compares no password and leaves the account
locked. -/
def LoginCall.Refused (id : Nat) (c : LoginCall) (s s' : Server) : Prop :=
  ((c.program : Service Token _).exec (answer env) s).1 = .error AuthErrorKey.accountLocked.error ∧
    (∀ plain hash, .compare plain hash ∉ (c.program : Service Token _).asked (answer env) s) ∧
    (s'.row id).map Account.status = some (some AccountStatus.locked.value)

/-- The account is locked, and every later login for it is refused. -/
def Server.LockedForGood (s : Server) (id : Nat) : Prop :=
  (s.row id).map Account.status = some (some AccountStatus.locked.value) ∧
    ∀ later : List Turn, EachStep (Turn.step env) (fun s t s' => ∀ c, t = .called c →
      c.finds env s.accounts id = true → c.Refused env id s s') s later

/-- The id, the login id and the user type of each row. -/
def AccountTable.keys (t : AccountTable) : List (Nat × String × String) :=
  t.rows.map fun a => (a.id, a.loginId, a.userType)

theorem keys_update {t : AccountTable} {id : Nat} {set : Account → Account}
    (hlogin : ∀ a, (set a).loginId = a.loginId) (htype : ∀ a, (set a).userType = a.userType) :
    (t.update id set).keys = t.keys := by
  rw [AccountTable.keys, AccountTable.update, List.map_map]
  refine List.map_congr_left fun a _ => ?_
  by_cases ha : a.id = id
  · simp only [Function.comp_apply, if_pos ha, hlogin, htype]
  · simp only [Function.comp_apply, if_neg ha]

theorem keys_answer (e : Effect Token) (s : Server) :
    (answer env e s).2.accounts.keys = s.accounts.keys := by
  cases e with
  | incrementFailCount id => exact keys_update (fun _ => rfl) fun _ => rfl
  | lockAccount id => exact keys_update (fun _ => rfl) fun _ => rfl
  | resetFailCount id => exact keys_update (fun _ => rfl) fun _ => rfl
  | updateOtpSecretKey id otpSecretKey => exact keys_update (fun _ => rfl) fun _ => rfl
  | updatePassword id hashedPassword => exact keys_update (fun _ => rfl) fun _ => rfl
  | recordSuccess id loginAt row => exact keys_update (fun _ => rfl) fun _ => rfl
  | _ => rfl

theorem finds_of_keys {accounts accounts' : AccountTable} (h : accounts'.keys = accounts.keys)
    (id : Nat) (c : LoginCall) : c.finds env accounts' id = c.finds env accounts id := by
  have hkeys (t : AccountTable) : c.finds env t id =
      (t.keys.find? fun k => k.2.1 = c.loginId && env.sameUserType k.2.2 c.userType).any
        (·.1 == id) := by
    rw [AccountTable.keys, List.find?_map, LoginCall.finds, AccountTable.findByLoginIdAndUserType,
      Option.any_map]
    rfl
  rw [hkeys, hkeys, h]

variable {env}

theorem keys_step {s s' : Server} {t : Turn} (h : t.step env s = some s') :
    s'.accounts.keys = s.accounts.keys := by
  cases t with
  | called c =>
      obtain rfl := Option.some.inj h
      exact wp_invariant (I := fun s' : Server => s'.accounts.keys = s.accounts.keys)
        (fun e s' hkeys => (keys_answer env e s').trans hkeys) c.program rfl
  | clockMoved now =>
      obtain rfl := Option.some.inj h
      rfl

/-! ## One login -/

section OneLogin

variable {s : Server} {b : Account} {c : LoginCall}
  (hfind : s.accounts.findByLoginIdAndUserType env.sameUserType c.loginId c.userType = some b)
include hfind

theorem row_of_find : s.row b.id = some b :=
  row_of_mem (AccountTable.mem_of_findByLoginIdAndUserType hfind)

theorem wp_found (Q : Except (AuthError Token) (AuthResponse Token) → Server → Prop) :
    wp (answer env) c.program Q s ↔
      wp (answer env) (foundLogin b c.password c.userType c.m) Q s := by
  rw [LoginCall.program, login_eq]
  rw [wp, wp, exec]
  simp only [answer, hfind]

theorem login_locked (hlocked : b.LockedOut) :
    wp (answer env) c.program (fun r s' => r = .error AuthErrorKey.accountLocked.error ∧
      s'.row b.id = some { b with status := some AccountStatus.locked.value }) s := by
  have hrow := row_of_find hfind
  rw [wp_found hfind, foundLogin_locked hlocked, handleLockedLogin]
  split
  next hstatus =>
    refine ⟨rfl, (row_updateAccount s b.id b.id _).trans ?_⟩
    rw [hrow, Option.map_some, if_pos rfl]
  next hstatus =>
    have hsame : b = { b with status := some AccountStatus.locked.value } := by
      rw [← not_not.mp hstatus]
    exact ⟨rfl, hrow.trans (congrArg some hsame)⟩

theorem login_locked_asks (hlocked : b.LockedOut) (plain hash : String) :
    .compare plain hash ∉ (c.program : Service Token _).asked (answer env) s := by
  intro hmem
  rw [LoginCall.program, login_eq, Prog.asked] at hmem
  rcases List.mem_cons.mp hmem with heq | hmem
  · cases heq
  · simp only [answer, hfind, foundLogin_locked hlocked] at hmem
    exact Only.asked (Only.bind (handleLockedLogin_routine b c.m)
      fun _ => only_throwAuthError .accountLocked none) s _ hmem

theorem login_wrong (hlocked : ¬ b.LockedOut) (hstatus : statusError b.status = none)
    (hwrong : env.passwordMatches c.password b.password = false) :
    wp (answer env) c.program (fun _ s' => s'.row b.id = some { b with
      failCount := b.failCount.map (· + 1)
      status := if MAX_FAIL_COUNT ≤ b.failCount.getD 0 + 1 then
        some AccountStatus.locked.value else b.status }) s := by
  have hrow := row_of_find hfind
  rw [wp_found hfind, foundLogin_open hlocked hstatus, wp_bind, wp_verifyPassword, hwrong]
  change wp (answer env) (rejectedLogin b c.m) _ s
  rw [rejectedLogin, wp_bind, handleFailedLogin, wp_call_bind]
  have hcounted : (answer env (.incrementFailCount b.id) s).2.row b.id =
      some { b with failCount := b.failCount.map (· + 1) } := by
    rw [row_answer, hrow]
    exact congrArg some (if_pos rfl)
  split
  · rw [wp_call_bind]
    refine (row_answer env (.lockAccount b.id) _ b.id).trans ?_
    rw [hcounted]
    exact congrArg some (if_pos rfl)
  · exact hcounted

end OneLogin

theorem find_of_finds {s : Server} {id : Nat} {c : LoginCall}
    (h : c.finds env s.accounts id = true) : ∃ b,
      s.accounts.findByLoginIdAndUserType env.sameUserType c.loginId c.userType = some b ∧
        b.id = id := by
  rw [LoginCall.finds] at h
  cases hfind : s.accounts.findByLoginIdAndUserType env.sameUserType c.loginId c.userType with
  | none =>
      rw [hfind] at h
      cases h
  | some b =>
      rw [hfind] at h
      exact ⟨b, rfl, beq_iff_eq.mp h⟩

theorem login_other {s : Server} {id : Nat} {c : LoginCall}
    (h : c.finds env s.accounts id = false) : (s.login env c).row id = s.row id := by
  cases hfind : s.accounts.findByLoginIdAndUserType env.sameUserType c.loginId c.userType with
  | none =>
      rw [Server.login, LoginCall.program, login_eq, exec]
      simp only [answer, hfind]
      rfl
  | some b =>
      rw [LoginCall.finds, hfind] at h
      have hne : b.id ≠ id := beq_eq_false_iff_ne.mp h
      refine (wp_found hfind fun _ s' => s'.row id = s.row id).mpr ?_
      refine wp_row_of_target (foundLogin_writes b c.password c.userType c.m) fun e he => ?_
      rcases he with htarget | htarget
      · rw [htarget]
        exact fun h => by cases h
      · rw [htarget]
        exact fun h => hne (Option.some.inj h)

/-! ## Runs -/

/-- What `k` wrong passwords make of the row: the account is locked, or the stored count is
advanced by `k` and still below the limit. -/
inductive Tried (a : Account) (k : Nat) (b : Account) : Prop
  | locked (hstatus : b.status = some AccountStatus.locked.value) (hcount : a.failCount ≠ none)
  | counted (hstatus : b.status = a.status) (hpassword : b.password = a.password)
      (hcount : b.failCount = a.failCount.map (· + (k : Int)))
      (hbelow : k = 0 ∨ b.failCount.getD 0 < MAX_FAIL_COUNT)

section Run

variable {a : Account} (hstatus : a.status = none ∨ a.status = some AccountStatus.active.value)
include hstatus

theorem status_open : a.status ≠ some AccountStatus.locked.value ∧ statusError a.status = none := by
  rcases hstatus with h | h
  · rw [h]
    exact ⟨by decide, rfl⟩
  · rw [h]
    exact ⟨by decide, by decide⟩

theorem tried_wrong {s : Server} {b : Account} {k : Nat} (tried : Tried a k b) {c : LoginCall}
    (hfind : s.accounts.findByLoginIdAndUserType env.sameUserType c.loginId c.userType = some b)
    (hwrong : env.passwordMatches c.password a.password = false) :
    ∃ b', (s.login env c).row b.id = some b' ∧ Tried a (k + 1) b' := by
  obtain ⟨hopen, herror⟩ := status_open hstatus
  have hsome : ∀ n : Int, MAX_FAIL_COUNT ≤ b.failCount.getD 0 + n → n < 5 →
      b.failCount = a.failCount.map (· + (k : Int)) → a.failCount ≠ none := by
    intro n hle hn hcount hnone
    rw [hcount, hnone, MAX_FAIL_COUNT] at hle
    change (5 : Int) ≤ 0 + n at hle
    omega
  by_cases hlocked : b.LockedOut
  · refine ⟨_, (login_locked hfind hlocked).2, .locked rfl ?_⟩
    cases tried with
    | locked _ hcount => exact hcount
    | counted hsame _ hcount _ =>
        rcases hlocked with h | h
        · exact absurd (hsame.symm.trans h) hopen
        · exact hsome 0 (by omega) (by decide) hcount
  cases tried with
  | locked hstatus _ => exact absurd (Or.inl hstatus) hlocked
  | counted hsame hpassword hcount _ =>
      have hrow := login_wrong hfind hlocked (hsame ▸ herror) (hpassword ▸ hwrong)
      refine ⟨_, hrow, ?_⟩
      by_cases hlimit : MAX_FAIL_COUNT ≤ b.failCount.getD 0 + 1
      · exact .locked (if_pos hlimit) (hsome 1 hlimit (by decide) hcount)
      · have hnext : b.failCount.map (· + 1) = a.failCount.map (· + ((k + 1 : Nat) : Int)) := by
          rw [hcount, Option.map_map]
          refine congrFun (congrArg Option.map (funext fun f => ?_)) _
          rw [Function.comp_apply, Int.natCast_succ, Int.add_assoc]
        have hbelow : (b.failCount.map (· + 1)).getD 0 < MAX_FAIL_COUNT := by
          cases hb : b.failCount with
          | none => exact (by decide : (0 : Int) < MAX_FAIL_COUNT)
          | some f =>
              rw [hb] at hlimit
              exact not_le.mp hlimit
        exact .counted ((if_neg hlimit).trans hsame) hpassword hnext (Or.inr hbelow)

/-- A turn without the right password counts if it is a wrong one. -/
theorem tried_step {s₀ s s' : Server} {t : Turn} {k : Nat} {b : Account}
    (hrow : s.row a.id = some b) (tried : Tried a k b) (hkeys : s.accounts.keys = s₀.accounts.keys)
    (hright : t.right env s₀.accounts a = false) (hstep : t.step env s = some s') :
    ∃ b', s'.row a.id = some b' ∧
      Tried a (k + if t.wrong env s₀.accounts a then 1 else 0) b' := by
  cases t with
  | clockMoved now =>
      obtain rfl := Option.some.inj hstep
      exact ⟨b, hrow, tried⟩
  | called c =>
      obtain rfl := Option.some.inj hstep
      have hfound := finds_of_keys env hkeys a.id c
      cases hfinds : c.finds env s.accounts a.id with
      | false =>
          have hwrong : (Turn.called c).wrong env s₀.accounts a = false := by
            rw [Turn.wrong, ← hfound, hfinds, Bool.false_and]
          rw [hwrong]
          exact ⟨b, (login_other hfinds).trans hrow, tried⟩
      | true =>
          have hpassword : env.passwordMatches c.password a.password = false := by
            rwa [Turn.right, ← hfound, hfinds, Bool.true_and] at hright
          have hwrong : (Turn.called c).wrong env s₀.accounts a = true := by
            rw [Turn.wrong, ← hfound, hfinds, hpassword]
            rfl
          obtain ⟨d, hfind, hid⟩ := find_of_finds hfinds
          obtain rfl : d = b := Option.some.inj ((row_of_find hfind).symm.trans (hid ▸ hrow))
          obtain ⟨b', hrow', tried'⟩ := tried_wrong hstatus tried hfind hpassword
          rw [hwrong]
          exact ⟨b', hid ▸ hrow', tried'⟩

theorem tried_run {s₀ : Server} (turns : List Turn) {s s' : Server} {k : Nat} {b : Account}
    (hrow : s.row a.id = some b) (tried : Tried a k b) (hkeys : s.accounts.keys = s₀.accounts.keys)
    (hright : ∀ t ∈ turns, t.right env s₀.accounts a = false)
    (hrun : run (Turn.step env) s turns = some s') :
    ∃ b', s'.row a.id = some b' ∧
      Tried a (k + turns.countP (·.wrong env s₀.accounts a)) b' := by
  induction turns generalizing s k b with
  | nil =>
      obtain rfl := Option.some.inj hrun
      exact ⟨b, hrow, tried⟩
  | cons t turns ih =>
      obtain ⟨s₁, hstep, hrest⟩ := exists_of_run_cons hrun
      obtain ⟨b₁, hrow₁, tried₁⟩ :=
        tried_step hstatus hrow tried hkeys (hright t List.mem_cons_self) hstep
      rw [List.countP_cons, Nat.add_comm (turns.countP _), ← Nat.add_assoc]
      exact ih hrow₁ tried₁ ((keys_step hstep).trans hkeys)
        (fun t ht => hright t (List.mem_cons_of_mem _ ht)) hrest

end Run

/-- Once locked, every call for the account is refused and leaves it locked. -/
theorem lockedForGood {s : Server} {id : Nat}
    (h : (s.row id).map Account.status = some (some AccountStatus.locked.value)) :
    s.LockedForGood env id := by
  refine ⟨h, fun later => ?_⟩
  refine eachStep_of_invariant (I := fun s : Server =>
    (s.row id).map Account.status = some (some AccountStatus.locked.value)) ?_ h (eachStep_true s _)
  intro s t s' hlocked _ hstep
  cases t with
  | clockMoved now =>
      obtain rfl := Option.some.inj hstep
      exact ⟨hlocked, fun c hc => by cases hc⟩
  | called c =>
      obtain rfl := Option.some.inj hstep
      cases hfinds : c.finds env s.accounts id with
      | false =>
          refine ⟨(congrArg _ (login_other hfinds)).trans hlocked, fun c' hc hfinds' => ?_⟩
          cases hc
          cases hfinds.symm.trans hfinds'
      | true =>
          obtain ⟨b, hfind, rfl⟩ := find_of_finds hfinds
          rw [row_of_find hfind] at hlocked
          have hout : b.LockedOut := Or.inl (Option.some.inj hlocked)
          obtain ⟨hresult, hrow⟩ := login_locked hfind hout
          have hstays : ((s.login env c).row b.id).map Account.status =
              some (some AccountStatus.locked.value) := by
            rw [Server.login, hrow]
            rfl
          refine ⟨hstays, fun c' hc _ => ?_⟩
          cases hc
          exact ⟨hresult, login_locked_asks hfind hout, hstays⟩

/-- A run with enough wrong passwords and not the right one locks an account for good exactly if
its stored count is not NULL. -/
theorem wrong_passwords_lock_iff {s s' : Server} {a : Account} (ha : a ∈ s.accounts.rows)
    (hstatus : a.status = none ∨ a.status = some AccountStatus.active.value)
    (hcount : ∀ f ∈ a.failCount, 0 ≤ f) {turns : List Turn}
    (hwrong : MAX_FAIL_COUNT ≤ (turns.countP (·.wrong env s.accounts a) : Nat))
    (hright : ∀ t ∈ turns, t.right env s.accounts a = false)
    (hrun : run (Turn.step env) s turns = some s') :
    s'.LockedForGood env a.id ↔ a.failCount ≠ none := by
  have hstart : Tried a 0 a := by
    refine .counted rfl rfl ?_ (Or.inl rfl)
    cases a.failCount with
    | none => rfl
    | some f => exact congrArg some (Int.add_zero f).symm
  obtain ⟨b, hrow, tried⟩ := tried_run hstatus turns (row_of_mem ha) hstart rfl hright hrun
  rw [Nat.zero_add] at tried
  constructor
  · intro hgood hnull
    have hlocked := hgood.1
    rw [hrow] at hlocked
    cases tried with
    | locked _ hsome => exact hsome hnull
    | counted hsame =>
        exact (status_open hstatus).1 (hsame.symm.trans (Option.some.inj hlocked))
  · intro hsome
    refine lockedForGood ?_
    rw [hrow]
    cases tried with
    | locked hlocked => exact congrArg some hlocked
    | counted _ _ hfails hbelow =>
        -- the stored count is at least the number of wrong passwords
        obtain ⟨f, hf⟩ := Option.ne_none_iff_exists'.mp hsome
        have hnonneg := hcount f hf
        rw [hf, Option.map_some] at hfails
        rw [hfails, Option.getD_some] at hbelow
        rw [MAX_FAIL_COUNT] at hwrong hbelow
        omega

/-- An account of a type without a second factor. -/
def kioskAccount (failCount : Option Int) : Account where
  id := 7
  loginId := "kiosk"
  name := some "Kiosk"
  userType := "KIOSK"
  password := some "secret"
  status := some "ACTIVE"
  otpSecretKey := none
  customerNo := none
  lastPasswordChangedAt := none
  roleType := none
  failCount
  lastLoginAt := none

def kioskServer (failCount : Option Int) : Server where
  accounts := ⟨[kioskAccount failCount], by simp⟩
  history := []
  now := 0
  drawn := 0
  minted := []

def fiveGuesses : List Turn :=
  List.replicate 5 (.called ⟨"kiosk", "guess", "KIOSK", ⟨"10.0.0.1", none⟩⟩)

/-- With NULL as the stored count five wrong passwords leave the account open. -/
theorem wrong_passwords_null :
    fiveGuesses.countP (·.wrong Env.plain (kioskServer none).accounts (kioskAccount none)) = 5 ∧
      (∀ t ∈ fiveGuesses,
        t.right Env.plain (kioskServer none).accounts (kioskAccount none) = false) ∧
      (run (Turn.step Env.plain) (kioskServer none) fiveGuesses).map
        (fun s => (s.row 7).map Account.status) = some (some (some "ACTIVE")) := by
  decide

theorem wrong_passwords_lock_iff_sample :
    ∃ s, run (Turn.step Env.plain) (kioskServer (some 0)) fiveGuesses = some s ∧
      s.LockedForGood Env.plain 7 := by
  cases hrun : run (Turn.step Env.plain) (kioskServer (some 0)) fiveGuesses with
  | none => cases hrun
  | some s =>
      exact ⟨s, rfl, (wrong_passwords_lock_iff (List.mem_singleton.mpr rfl) (Or.inr rfl)
        (by decide) (by decide) (by decide) hrun).mpr (by decide)⟩

end NestGateway.Auth
