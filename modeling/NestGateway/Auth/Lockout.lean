import NestGateway.Auth.Asks
import NestGateway.Auth.TwoFactor

/-! # Concurrent logins

Login requests in progress, each advancing by one effect at a time in any order.
The guard and the new count of a login come from the row it read before the slow
comparison, so the failures of an account stay bounded only if few logins of it
are between the two.
-/

namespace NestGateway.Auth

open Prog Runs

variable {Token : Type}

/-- A login in progress: the id of the row it read, and what is left of its program. -/
structure Attempt (Token : Type) where
  read : Option Nat
  rest : Service Token (AuthResponse Token)

namespace Attempt

/-- The password did not match: the login goes on to count a failure of the account. -/
def failing (id : Nat) (t : Attempt Token) : Bool :=
  match t.rest with
  | .ask (.incrementFailCount id') _ => id' == id
  | _ => false

def comparing (id : Nat) (t : Attempt Token) : Bool :=
  match t.rest with
  | .ask (.compare ..) _ => t.read == some id
  | _ => false

/-- The login read the account and passed the guard, and its failure is not counted yet. -/
def undecided (id : Nat) (t : Attempt Token) : Bool := t.comparing id || t.failing id

end Attempt

/-- The row read last, after an effect and its reply. -/
def Effect.rowRead : (e : Effect Token) → e.Reply → Option Nat → Option Nat
  | .findByLoginIdAndUserType .., row, _ => row.map Account.id
  | _, _, read => read

/-- The effect sets the failure count of the account to zero. -/
def Effect.resets (id : Nat) : Effect Token → Bool
  | .resetFailCount id' => id' == id
  | .recordSuccess id' .. => id' == id
  | _ => false

structure Logins (Token : Type) where
  server : Server
  attempts : List (Attempt Token)
  /-- The comparisons for the account that failed since its count was last reset. -/
  failed : Nat

def Logins.start (accounts : AccountTable) (now : Nat) : Logins Token :=
  ⟨⟨accounts, [], now, 0, []⟩, [], 0⟩

inductive LoginEvent where
  | arrived (loginId password userType : String) (m : LoginRequestMeta)
  | advanced (i : Nat)
  | clockMoved (now : Nat)

variable (env : Env Token) (id : Nat)

/-- One effect of a login, if it is not over. -/
def Attempt.advance (t : Attempt Token) (s : Server) :
    Option (Effect Token × Attempt Token × Server) :=
  match t.rest with
  | .ret _ => none
  | .throw _ => none
  | .ask e next =>
      let (reply, s') := answer env e s
      some (e, ⟨e.rowRead reply t.read, next reply⟩, s')

def Logins.advance (w : Logins Token) (i : Nat) (t : Attempt Token) : Option (Logins Token) :=
  match t.advance env w.server with
  | none => none
  | some (e, t', s') =>
      some {
        server := s'
        attempts := w.attempts.set i t'
        failed :=
          if e.resets id then 0 else if t'.failing id then w.failed + 1 else w.failed }

/-- The steps of all logins, with the failures of one account counted. -/
def Logins.step (w : Logins Token) : LoginEvent → Option (Logins Token)
  | .arrived loginId password userType m =>
      some { w with attempts := w.attempts ++ [⟨none, login loginId password userType m⟩] }
  | .advanced i =>
      match w.attempts[i]? with
      | none => none
      | some t => w.advance env id i t
  | .clockMoved now => some { w with server := { w.server with now := now } }

/-- A login that reads the account and passes the guard finds room: its failure count and the
logins still undecided about it are fewer than the allowed failures. -/
def Headroom (w : Logins Token) : LoginEvent → Prop
  | .advanced i =>
      ∀ t loginId userType next a, w.attempts[i]? = some t →
        t.rest = .ask (.findByLoginIdAndUserType loginId userType) next →
        w.server.accounts.findByLoginIdAndUserType env.sameUserType loginId userType = some a →
        a.id = id → ¬ a.LockedOut →
        a.failCount.getD 0 + (w.attempts.countP (·.undecided id) : Nat) < MAX_FAIL_COUNT
  | _ => True

/-- The program counts a failure of the account and writes what it decided. -/
def Counts (p : Service Token (AuthResponse Token)) : Prop :=
  ∃ next, p = .ask (.incrementFailCount id) next ∧ (next ()).Only Effect.Routine

/-- The program compares, and counts a failure exactly if the password does not match. -/
def Compares (p : Service Token (AuthResponse Token)) : Prop :=
  ∃ plain hash next, p = .ask (.compare plain hash) next ∧ Counts id (next false) ∧
    (next true).Only Effect.Routine

/-- The four stages of a login. -/
inductive Attempt.Stage : Attempt Token → Prop
  | arrived (read : Option Nat) (loginId password userType : String) (m : LoginRequestMeta) :
      Stage ⟨read, login loginId password userType m⟩
  | comparing {id : Nat} {p : Service Token (AuthResponse Token)} (h : Compares id p) :
      Stage ⟨some id, p⟩
  | counting {id : Nat} {read : Option Nat} {p : Service Token (AuthResponse Token)}
      (h : Counts id p) : Stage ⟨read, p⟩
  | settled {read : Option Nat} {p : Service Token (AuthResponse Token)}
      (h : p.Only Effect.Routine) : Stage ⟨read, p⟩

variable {env id}

theorem handleFailedLogin_counts (a : Account) (m : LoginRequestMeta) (newFailCount : Int)
    (key : AuthErrorKey) :
    Counts a.id (do
      handleFailedLogin a m newFailCount
      throwAuthError key : Service Token (AuthResponse Token)) := by
  refine ⟨_, rfl, Only.bind ?_ fun _ => only_throwAuthError _ _⟩
  change Only Effect.Routine (ite _ _ _)
  split
  · exact Only.bind (Only.call trivial) fun _ => recordFailure_routine ..
  · exact recordFailure_routine ..

theorem verifyPassword_decides {accepted rejected : Service Token (AuthResponse Token)}
    (password : String) (stored : Option String) (haccepted : accepted.Only Effect.Routine)
    (hrejected : Counts id rejected) :
    Compares id (verifyPassword password stored >>= fun ok => if ok then accepted else rejected) ∨
      Counts id
        (verifyPassword password stored >>= fun ok => if ok then accepted else rejected) := by
  cases stored with
  | none => exact Or.inr hrejected
  | some stored =>
      by_cases hempty : stored = ""
      · rw [verifyPassword, if_pos hempty]
        exact Or.inr hrejected
      · rw [verifyPassword, if_neg hempty]
        exact Or.inl ⟨password, bcryptHash stored, _, rfl, hrejected, haccepted⟩

/-- Behind the read a login is settled, compares or counts a failure of an account it may try. -/
theorem login_reads (loginId password userType : String) (m : LoginRequestMeta) :
    ∃ next, (login loginId password userType m : Service Token _) =
        .ask (.findByLoginIdAndUserType loginId userType) next ∧
      ∀ row, (next row).Only Effect.Routine ∨
        ∃ a, row = some a ∧ ¬ a.LockedOut ∧
          (Compares a.id (next row) ∨ Counts a.id (next row)) := by
  refine ⟨_, rfl, fun row => ?_⟩
  cases row with
  | none => exact Or.inl (.throw _)
  | some a =>
      simp only [Prog.call, Prog.bind]
      by_cases hlocked : a.status = some AccountStatus.locked.value ∨
          MAX_FAIL_COUNT ≤ a.failCount.getD 0
      · simp only [if_pos hlocked]
        exact Or.inl (Only.bind (handleLockedLogin_routine a m) fun _ => only_throwAuthError _ _)
      · simp only [if_neg hlocked, validateAccountStatus]
        cases statusError a.status with
        | some key => exact Or.inl (.throw _)
        | none =>
            refine Or.inr ⟨a, rfl, hlocked, ?_⟩
            exact verifyPassword_decides password a.password (acceptedLogin_routine a userType m)
              (handleFailedLogin_counts a m _ _)

def Server.failCountOf (s : Server) (id : Nat) : Option (Option Int) :=
  (s.accounts.findById (some id)).map Account.failCount

theorem failCountOf_updateAccount (s : Server) (id id' : Nat) (set : Account → Account) :
    (s.updateAccount id' set).failCountOf id =
      if id' = id then (s.accounts.findById (some id)).map fun a => (set a).failCount
      else s.failCountOf id := by
  rw [Server.failCountOf, Server.updateAccount, AccountTable.findById_update, Option.map_map]
  by_cases hid : id' = id
  · rw [if_pos hid]
    cases hfind : s.accounts.findById (some id) with
    | none => rfl
    | some a =>
        have ha : a.id = id' := by
          rw [hid, Option.some.inj (AccountTable.id_of_findById hfind)]
        simp only [Option.map_some, Function.comp_apply, if_pos ha]
  · rw [if_neg hid, Server.failCountOf]
    cases hfind : s.accounts.findById (some id) with
    | none => rfl
    | some a =>
        have ha : a.id ≠ id' := by
          rw [← Option.some.inj (AccountTable.id_of_findById hfind)]
          exact Ne.symm hid
        simp only [Option.map_some, Function.comp_apply, if_neg ha]

theorem failCountOf_answer (env : Env Token) (id : Nat) (e : Effect Token) (s : Server) {f : Int}
    (h : s.failCountOf id = some (some f)) :
    (answer env e s).2.failCountOf id =
      if e.resets id then some (some 0)
      else match e with
        | .incrementFailCount id' => if id' = id then some (some (f + 1)) else some (some f)
        | _ => some (some f) := by
  obtain ⟨a, hfind, hcount⟩ := Option.map_eq_some_iff.mp h
  cases e with
  | incrementFailCount id' =>
      simp only [answer, failCountOf_updateAccount, hfind, Option.map_some, hcount, h]
      rfl
  | lockAccount id' =>
      simp only [answer, failCountOf_updateAccount, hfind, Option.map_some, hcount, h, ite_self]
      rfl
  | updateOtpSecretKey id' otpSecretKey =>
      simp only [answer, failCountOf_updateAccount, hfind, Option.map_some, hcount, h, ite_self]
      rfl
  | updatePassword id' hashedPassword =>
      simp only [answer, failCountOf_updateAccount, hfind, Option.map_some, hcount, h, ite_self]
      rfl
  | resetFailCount id' =>
      simp only [answer, failCountOf_updateAccount, hfind, Option.map_some, h, Effect.resets,
        beq_iff_eq]
  | recordSuccess id' loginAt row =>
      have hupdate := failCountOf_updateAccount s id id' fun a =>
        { a with failCount := some 0, lastLoginAt := some loginAt }
      simp only [hfind, Option.map_some, h] at hupdate
      simp only [Effect.resets, beq_iff_eq]
      exact hupdate
  | _ => exact h

/-! ## One step of one login -/

theorem Attempt.advance_spec {t t' : Attempt Token} {e : Effect Token} {s s' : Server}
    (h : t.advance env s = some (e, t', s')) :
    ∃ next, t.rest = .ask e next ∧ s' = (answer env e s).2 ∧
      t' = ⟨e.rowRead (answer env e s).1 t.read, next (answer env e s).1⟩ := by
  rw [Attempt.advance] at h
  cases hrest : t.rest with
  | ret a =>
      rw [hrest] at h
      cases h
  | throw error =>
      rw [hrest] at h
      cases h
  | ask e' next =>
      rw [hrest] at h
      obtain ⟨rfl, hpair⟩ := Prod.mk.inj (Option.some.inj h)
      obtain ⟨ht, hs⟩ := Prod.mk.inj hpair
      exact ⟨next, rfl, hs.symm, ht.symm⟩

section Stages

variable (id) (read : Option Nat) {id' : Nat} {p : Service Token (AuthResponse Token)}

theorem undecided_settled (h : p.Only Effect.Routine) :
    (⟨read, p⟩ : Attempt Token).undecided id = false := by
  cases h with
  | ret a => rfl
  | throw error => rfl
  | @ask e next allowed rest =>
      cases e with
      | incrementFailCount id' => exact allowed.elim
      | compare plain hash => exact allowed.elim
      | _ => rfl

theorem undecided_counts (h : Counts id' p) :
    (⟨read, p⟩ : Attempt Token).undecided id = (id' == id) ∧
      (⟨read, p⟩ : Attempt Token).failing id = (id' == id) := by
  obtain ⟨next, rfl, _⟩ := h
  exact ⟨rfl, rfl⟩

theorem undecided_compares (h : Compares id' p) :
    (⟨some id', p⟩ : Attempt Token).undecided id = (id' == id) ∧
      (⟨some id', p⟩ : Attempt Token).failing id = false := by
  obtain ⟨plain, hash, next, rfl, _⟩ := h
  exact ⟨Bool.or_false _, rfl⟩

end Stages

theorem failing_of_undecided {t : Attempt Token} (h : t.undecided id = false) :
    t.failing id = false := (Bool.or_eq_false_iff.mp h).2

/-- How one effect of a login changes whether it is undecided about the account. -/
inductive Attempt.Change (env : Env Token) (id : Nat) (s : Server) :
    Attempt Token → Effect Token → Attempt Token → Prop
  | read {t t' : Attempt Token} {loginId userType : String}
      {next : Option Account → Service Token (AuthResponse Token)}
      (rest : t.rest = .ask (.findByLoginIdAndUserType loginId userType) next)
      (before : t.undecided id = false)
      (opened : t'.undecided id = true → ∃ a,
        s.accounts.findByLoginIdAndUserType env.sameUserType loginId userType = some a ∧
          a.id = id ∧ ¬ a.LockedOut) :
      Change env id s t (.findByLoginIdAndUserType loginId userType) t'
  | compared {t t' : Attempt Token} {plain hash : String} (before : t.failing id = false)
      (kept : t'.undecided id = true → t.undecided id = true) :
      Change env id s t (.compare plain hash) t'
  | counted {t t' : Attempt Token} {id' : Nat} (before : t.failing id = (id' == id))
      (undecided : t.undecided id = (id' == id)) (after : t'.undecided id = false) :
      Change env id s t (.incrementFailCount id') t'
  | routine {t t' : Attempt Token} {e : Effect Token} (he : e.Routine)
      (before : t.undecided id = false) (after : t'.undecided id = false) :
      Change env id s t e t'

variable (id) in
theorem Attempt.Stage.advance {t t' : Attempt Token} {e : Effect Token} {s s' : Server}
    (stage : t.Stage) (h : t.advance env s = some (e, t', s')) :
    t'.Stage ∧ t.Change env id s e t' := by
  obtain ⟨next, hrest, rfl, rfl⟩ := Attempt.advance_spec h
  cases stage with
  | arrived read loginId password userType m =>
      obtain ⟨next', hlogin, hnext⟩ := @login_reads Token loginId password userType m
      obtain ⟨rfl, hsame⟩ := Prog.ask.inj (hlogin.symm.trans hrest)
      obtain rfl := eq_of_heq hsame
      change Attempt.Stage ⟨(s.accounts.findByLoginIdAndUserType env.sameUserType loginId
        userType).map Account.id, next' (s.accounts.findByLoginIdAndUserType env.sameUserType
        loginId userType)⟩ ∧ Attempt.Change env id s _ _ ⟨(s.accounts.findByLoginIdAndUserType
        env.sameUserType loginId userType).map Account.id, next'
        (s.accounts.findByLoginIdAndUserType env.sameUserType loginId userType)⟩
      generalize hrow : s.accounts.findByLoginIdAndUserType env.sameUserType loginId userType = row
      rcases hnext row with hsettled | ⟨a, rfl, hlocked, hcompares | hcounts⟩
      · refine ⟨.settled hsettled, .read hrest rfl fun h => ?_⟩
        cases (undecided_settled id _ hsettled).symm.trans h
      · refine ⟨.comparing hcompares, .read hrest rfl fun h => ⟨a, hrow, ?_, hlocked⟩⟩
        exact beq_iff_eq.mp ((undecided_compares id hcompares).1.symm.trans h)
      · refine ⟨.counting hcounts, .read hrest rfl fun h => ⟨a, hrow, ?_, hlocked⟩⟩
        exact beq_iff_eq.mp ((undecided_counts id _ hcounts).1.symm.trans h)
  | @comparing id' p hcompares =>
      obtain ⟨hundecided, hfailing⟩ := undecided_compares id hcompares
      obtain ⟨plain, hash, next', rfl, hcounts, haccepted⟩ := hcompares
      obtain ⟨rfl, hsame⟩ := Prog.ask.inj hrest
      obtain rfl := eq_of_heq hsame
      change Attempt.Stage ⟨some id', next' (env.compare plain hash)⟩ ∧
        Attempt.Change env id s _ _ ⟨some id', next' (env.compare plain hash)⟩
      cases env.compare plain hash with
      | true =>
          refine ⟨.settled haccepted, .compared hfailing fun h => ?_⟩
          cases (undecided_settled id _ haccepted).symm.trans h
      | false =>
          refine ⟨.counting hcounts, .compared hfailing fun h => ?_⟩
          rw [(undecided_counts id _ hcounts).1] at h
          exact hundecided.trans h
  | @counting id' read p hcounts =>
      obtain ⟨hundecided, hfailing⟩ := undecided_counts id read hcounts
      obtain ⟨next', rfl, hafter⟩ := hcounts
      obtain ⟨rfl, hsame⟩ := Prog.ask.inj hrest
      obtain rfl := eq_of_heq hsame
      exact ⟨.settled hafter, .counted hfailing hundecided (undecided_settled id _ hafter)⟩
  | @settled read p hsettled =>
      have hbefore := undecided_settled id read hsettled
      obtain rfl : p = .ask e next := hrest
      cases hsettled with
      | ask allowed rest =>
          exact ⟨.settled (rest _), .routine allowed hbefore (undecided_settled id _ (rest _))⟩

/-! ## The invariant -/

theorem countP_set_add {α : Type} {p : α → Bool} {l : List α} {i : Nat} {t : α}
    (h : l[i]? = some t) (t' : α) :
    (l.set i t').countP p + (p t).toNat = l.countP p + (p t').toNat := by
  obtain ⟨hlt, rfl⟩ := List.getElem?_eq_some_iff.mp h
  have hle := List.boole_getElem_le_countP (p := p) hlt
  rw [List.countP_set hlt]
  cases hp : p l[i] <;> cases p t' <;> simp only [hp, Bool.toNat_true, Bool.toNat_false, if_true,
    if_false, Bool.false_eq_true] at hle ⊢ <;> omega

variable (id) in
/-- No more failures than the row counts and failing logins will still count, and the row and the
undecided logins together stay within the allowed failures. -/
structure Bounded (w : Logins Token) : Prop where
  stages : ∀ t ∈ w.attempts, t.Stage
  count : ∃ f : Nat, w.server.failCountOf id = some (some (f : Int)) ∧
    w.failed ≤ f + w.attempts.countP (·.failing id) ∧
    f + w.attempts.countP (·.undecided id) ≤ 5

theorem Bounded.failed_le {w : Logins Token} (ok : Bounded id w) :
    (w.failed : Int) ≤ MAX_FAIL_COUNT := by
  obtain ⟨f, _, hfailed, hundecided⟩ := ok.count
  have hle : w.attempts.countP (·.failing id) ≤ w.attempts.countP (·.undecided id) :=
    List.countP_mono_left fun t _ h => Bool.or_eq_true_iff.mpr (Or.inr h)
  rw [MAX_FAIL_COUNT]
  omega

theorem toNat_failing_le (id : Nat) (t : Attempt Token) :
    (t.failing id).toNat ≤ (t.undecided id).toNat := by
  rw [Attempt.undecided]
  cases t.failing id with
  | false => exact Nat.zero_le _
  | true => rw [Bool.or_true]

theorem ite_succ_eq_add (b : Bool) (n : Nat) : (if b then n + 1 else n) = n + b.toNat := by
  cases b with
  | false => rfl
  | true => rfl

theorem room_of_opened {w : Logins Token} {i f : Nat} {t t' : Attempt Token}
    {loginId userType : String} {next : Option Account → Service Token (AuthResponse Token)}
    (headroom : Headroom env id w (.advanced i)) (ht : w.attempts[i]? = some t)
    (hrest : t.rest = .ask (.findByLoginIdAndUserType loginId userType) next)
    (hcount : w.server.failCountOf id = some (some (f : Int)))
    (hundecided : f + w.attempts.countP (·.undecided id) ≤ 5)
    (opened : t'.undecided id = true → ∃ a,
      w.server.accounts.findByLoginIdAndUserType env.sameUserType loginId userType = some a ∧
        a.id = id ∧ ¬ a.LockedOut) :
    f + w.attempts.countP (·.undecided id) + (t'.undecided id).toNat ≤ 5 := by
  cases hu : t'.undecided id with
  | false => exact hundecided
  | true =>
      obtain ⟨a, hfind, hid, hlocked⟩ := opened hu
      have hroom := headroom t loginId userType next a ht hrest hfind hid hlocked
      have hrow : w.server.accounts.findById (some id) = some a := hid ▸
        AccountTable.findById_of_mem (AccountTable.mem_of_findByLoginIdAndUserType hfind)
      rw [Server.failCountOf, hrow, Option.map_some, Option.some.injEq] at hcount
      rw [hcount, Option.getD_some, MAX_FAIL_COUNT] at hroom
      rw [Bool.toNat_true]
      omega

/-- The row's count, the failures and the undecided logins move together. -/
theorem Bounded.count_of_change {w : Logins Token} {i : Nat} {t t' : Attempt Token}
    {e : Effect Token} (ok : Bounded id w) (headroom : Headroom env id w (.advanced i))
    (ht : w.attempts[i]? = some t) (change : t.Change env id w.server e t') :
    ∃ f : Nat, (answer env e w.server).2.failCountOf id = some (some (f : Int)) ∧
      (if e.resets id then 0 else if t'.failing id then w.failed + 1 else w.failed) ≤
        f + (w.attempts.set i t').countP (·.failing id) ∧
      f + (w.attempts.set i t').countP (·.undecided id) ≤ 5 := by
  obtain ⟨f, hcount, hfailed, hundecided⟩ := ok.count
  have hafter := failCountOf_answer env id e w.server hcount
  have hfailing := countP_set_add (p := (·.failing id)) ht t'
  have hopen := countP_set_add (p := (·.undecided id)) ht t'
  have hle := toNat_failing_le id t'
  rw [ite_succ_eq_add]
  cases change with
  | read rest before opened =>
      have hroom := room_of_opened headroom ht rest hcount hundecided opened
      rw [before] at hopen
      rw [failing_of_undecided before] at hfailing
      simp only [Effect.resets, Bool.false_eq_true, if_false, Bool.toNat_false] at *
      exact ⟨f, hafter, by omega, by omega⟩
  | compared before kept =>
      have hkeep : (t'.undecided id).toNat ≤ (t.undecided id).toNat := by
        cases hu : t'.undecided id with
        | false => exact Nat.zero_le _
        | true => rw [kept hu]
      rw [before] at hfailing
      simp only [Effect.resets, Bool.false_eq_true, if_false, Bool.toNat_false] at *
      exact ⟨f, hafter, by omega, by omega⟩
  | @counted _ id' before undecided after =>
      rw [undecided, after] at hopen
      rw [before, failing_of_undecided after] at hfailing
      rw [failing_of_undecided after]
      by_cases hid : id' = id
      · simp only [Effect.resets, Bool.false_eq_true, if_false, hid, if_true,
          beq_self_eq_true, Bool.toNat_true, Bool.toNat_false] at *
        exact ⟨f + 1, hafter, by omega, by omega⟩
      · simp only [Effect.resets, Bool.false_eq_true, if_false, if_neg hid,
          beq_eq_false_iff_ne.mpr hid, Bool.toNat_false] at *
        exact ⟨f, hafter, by omega, by omega⟩
  | routine he before after =>
      rw [before, after] at hopen
      rw [failing_of_undecided before, failing_of_undecided after] at hfailing
      rw [failing_of_undecided after]
      cases hreset : e.resets id with
      | true =>
          rw [hreset, if_pos rfl] at hafter
          simp only [if_true, Bool.toNat_false] at *
          exact ⟨0, hafter, by omega, by omega⟩
      | false =>
          have hkept : (answer env e w.server).2.failCountOf id = some (some (f : Int)) := by
            rw [hafter, hreset]
            cases e with
            | incrementFailCount id' => exact he.elim
            | _ => rfl
          simp only [Bool.false_eq_true, if_false, Bool.toNat_false] at *
          exact ⟨f, hkept, by omega, by omega⟩

theorem Bounded.advance {w w' : Logins Token} {i : Nat} {t : Attempt Token} (ok : Bounded id w)
    (headroom : Headroom env id w (.advanced i)) (ht : w.attempts[i]? = some t)
    (h : w.advance env id i t = some w') : Bounded id w' := by
  rw [Logins.advance] at h
  cases hadvance : t.advance env w.server with
  | none =>
      rw [hadvance] at h
      cases h
  | some result =>
      obtain ⟨e, t', s'⟩ := result
      rw [hadvance] at h
      obtain rfl := Option.some.inj h
      obtain ⟨stage, change⟩ :=
        (ok.stages t (List.mem_of_getElem? ht)).advance id hadvance
      obtain ⟨_, _, rfl, _⟩ := Attempt.advance_spec hadvance
      refine ⟨fun u hu => ?_, ok.count_of_change headroom ht change⟩
      rcases List.mem_or_eq_of_mem_set hu with hold | rfl
      · exact ok.stages u hold
      · exact stage

theorem Bounded.step {w w' : Logins Token} {e : LoginEvent} (ok : Bounded id w)
    (headroom : Headroom env id w e) (h : Logins.step env id w e = some w') : Bounded id w' := by
  cases e with
  | arrived loginId password userType m =>
      obtain rfl := Option.some.inj h
      obtain ⟨f, hcount, hfailed, hundecided⟩ := ok.count
      refine ⟨fun t ht => ?_, f, hcount, ?_, ?_⟩
      · rcases List.mem_append.mp ht with hold | hnew
        · exact ok.stages t hold
        · exact List.mem_singleton.mp hnew ▸ .arrived none loginId password userType m
      · rw [List.countP_append, List.countP_singleton]
        exact hfailed
      · rw [List.countP_append, List.countP_singleton]
        exact hundecided
  | advanced i =>
      rw [Logins.step] at h
      cases ht : w.attempts[i]? with
      | none =>
          rw [ht] at h
          cases h
      | some t =>
          rw [ht] at h
          exact ok.advance headroom ht h
  | clockMoved now =>
      obtain rfl := Option.some.inj h
      exact ⟨ok.stages, ok.count⟩

theorem headroom_of_room {w : Logins Token} {e : LoginEvent} {f : Int}
    (hcount : w.server.failCountOf id = some (some f))
    (hroom : f + (w.attempts.countP (·.undecided id) : Nat) < MAX_FAIL_COUNT) :
    Headroom env id w e := by
  cases e with
  | advanced i =>
      intro t loginId userType next a _ _ hfind hid _
      have hrow : w.server.accounts.findById (some id) = some a := hid ▸
        AccountTable.findById_of_mem (AccountTable.mem_of_findByLoginIdAndUserType hfind)
      rw [Server.failCountOf, hrow, Option.map_some, Option.some.injEq] at hcount
      rw [hcount]
      exact hroom
  | arrived loginId password userType m => trivial
  | clockMoved now => trivial

/-- In every interleaving in which each login finds room, an account without failures has at
most the allowed failures until its count is reset. -/
theorem failures_bounded {accounts : AccountTable} {a : Account} (ha : a ∈ accounts.rows)
    (hzero : a.failCount = some 0) (now : Nat) (events : List LoginEvent)
    (headroom : EachStep (Logins.step env a.id) (fun w e _ => Headroom env a.id w e)
      (Logins.start accounts now) events) :
    EachStep (Logins.step env a.id) (fun _ _ w' => (w'.failed : Int) ≤ MAX_FAIL_COUNT)
      (Logins.start accounts now) events := by
  refine eachStep_of_invariant (I := Bounded a.id) ?_ ⟨?_, 0, ?_, ?_, ?_⟩ headroom
  · exact fun w e w' ok hroom h => ⟨ok.step hroom h, (ok.step hroom h).failed_le⟩
  · exact fun t ht => (List.not_mem_nil ht).elim
  · rw [Server.failCountOf, Logins.start, AccountTable.findById_of_mem ha, Option.map_some, hzero]
    rfl
  · exact Nat.zero_le _
  · exact Nat.zero_le _

def guess : LoginEvent := .arrived "admin" "guess" "ADMIN_BO" ⟨"10.0.0.1", none⟩

/-- The second guess reads the row after the first one counted its failure. -/
theorem failures_bounded_in_turn :
    EachStep (Logins.step Env.plain 7) (fun _ _ w' => (w'.failed : Int) ≤ MAX_FAIL_COUNT)
      (Logins.start administrators 0)
      [guess, .advanced 0, .advanced 0, .advanced 0, guess, .advanced 1, .advanced 1] := by
  refine failures_bounded (a := administrator) (List.mem_singleton.mpr rfl) rfl 0 _ ?_
  refine ⟨trivial, headroom_of_room (f := 0) (by decide) (by decide),
    headroom_of_room (f := 0) (by decide) (by decide),
    headroom_of_room (f := 0) (by decide) (by decide), trivial,
    headroom_of_room (f := 1) (by decide) (by decide),
    headroom_of_room (f := 1) (by decide) (by decide), trivial⟩

/-- Six guesses that all read the row before one of them counts its failure. -/
def sixAtOnce : List LoginEvent :=
  List.replicate 6 guess ++ (List.range 6).map .advanced ++ (List.range 6).map .advanced

theorem sixAtOnce_failed :
    ((run (Logins.step Env.plain 7) (Logins.start administrators 0) sixAtOnce).map Logins.failed) =
      some 6 := by decide

theorem six_guesses_compared :
    ¬ EachStep (Logins.step Env.plain 7) (fun _ _ w' => (w'.failed : Int) ≤ MAX_FAIL_COUNT)
      (Logins.start administrators 0) sixAtOnce := by
  intro h
  obtain ⟨w, hrun, hfailed⟩ := Option.map_eq_some_iff.mp sixAtOnce_failed
  have hbound :=
    holds_of_eachStep (P := fun w => (w.failed : Int) ≤ MAX_FAIL_COUNT) (by decide) h hrun
  rw [hfailed] at hbound
  exact absurd hbound (by decide)

end NestGateway.Auth
