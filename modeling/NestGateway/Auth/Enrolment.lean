import NestGateway.Auth.Rows
import NestGateway.Auth.TwoFactor

/-! # Enrolment of the second factor

Logins and verifications in progress on one database, each advancing by one
effect at a time in any order. A login decides from the row it read whether to
write a new secret; a verification may record its success between the two.
-/

namespace NestGateway.Auth

open Prog Runs

variable {Token : Type}

inductive Session (Token : Type) where
  | login (rest : Service Token (AuthResponse Token))
  | verifyTwoFactor (rest : Service Token (AuthTokens Token))

structure Sessions (Token : Type) where
  server : Server
  sessions : List (Session Token)
  /-- A verification recorded a success for the account. -/
  confirmed : Bool

def Sessions.start (server : Server) : Sessions Token := ⟨server, [], false⟩

inductive SessionEvent (Token : Type) where
  | loginArrived (loginId password userType : String) (m : LoginRequestMeta)
  | verifyTwoFactorArrived (twoFactorToken : Token) (totpCode : String) (m : LoginRequestMeta)
  | advanced (i : Nat)
  | clockMoved (now : Nat)

def nextEffect {α : Type} : Service Token α → Option (Effect Token)
  | .ask e _ => some e
  | _ => none

def Effect.records (id : Nat) : Effect Token → Bool
  | .recordSuccess id' .. => id' == id
  | _ => false

/-- The effect writes the secret of the account. -/
def Effect.rotates (id : Nat) : Effect Token → Bool
  | .updateOtpSecretKey id' _ => id' == id
  | _ => false

namespace Session

def nextEffect : Session Token → Option (Effect Token)
  | .login rest => Auth.nextEffect rest
  | .verifyTwoFactor rest => Auth.nextEffect rest

def isVerification : Session Token → Bool
  | .login _ => false
  | .verifyTwoFactor _ => true

/-- The session once its next effect is answered. -/
def advance (env : Env Token) (s : Server) : Session Token → Session Token
  | .login (.ask e next) => .login (next (answer env e s).1)
  | .verifyTwoFactor (.ask e next) => .verifyTwoFactor (next (answer env e s).1)
  | t => t

end Session

variable (env : Env Token) (id : Nat)

/-- The steps of all sessions, with the confirmations of one account kept. -/
def Sessions.step (w : Sessions Token) : SessionEvent Token → Option (Sessions Token)
  | .loginArrived loginId password userType m =>
      some { w with sessions := w.sessions ++ [.login (login loginId password userType m)] }
  | .verifyTwoFactorArrived twoFactorToken totpCode m =>
      some { w with
        sessions := w.sessions ++ [.verifyTwoFactor (verifyTwoFactor twoFactorToken totpCode m)] }
  | .advanced i =>
      match w.sessions[i]? with
      | none => none
      | some t =>
          match t.nextEffect with
          | none => none
          | some e =>
              some {
                server := (answer env e w.server).2
                sessions := w.sessions.set i (t.advance env w.server)
                confirmed := w.confirmed || (t.isVerification && e.records id) }
  | .clockMoved now => some { w with server := { w.server with now := now } }

def Server.otpSecretKeyOf (s : Server) (id : Nat) : Option (Option String) :=
  (s.row id).map Account.otpSecretKey

/-- The check of the login: there is no secret yet, or none that a login confirmed. -/
def Account.RegistrationRequired (a : Account) : Prop :=
  ¬ (a.otpSecretKey.isSome ∧ a.lastLoginAt.isSome)

/-- The check still holds of the row when a session writes the secret. -/
def ChecksCurrentRow (w : Sessions Token) : SessionEvent Token → Prop
  | .advanced i => ∀ t ∈ w.sessions[i]?, ∀ e ∈ t.nextEffect, e.rotates id = true →
      ∀ a ∈ w.server.row id, a.RegistrationRequired
  | _ => True

/-! ## The secret and the last login of a row -/

variable {env id}

theorem otpSecretKey_applied {e : Effect Token} {a : Account} (now : Nat)
    (h : e.rotates a.id = false) : (e.applied now a).otpSecretKey = a.otpSecretKey := by
  cases e with
  | updateOtpSecretKey id' otpSecretKey => rw [Effect.applied, if_neg (beq_eq_false_iff_ne.mp h)]
  | incrementFailCount id' =>
      rw [Effect.applied]
      split <;> rfl
  | lockAccount id' =>
      rw [Effect.applied]
      split <;> rfl
  | resetFailCount id' =>
      rw [Effect.applied]
      split <;> rfl
  | updatePassword id' hashedPassword =>
      rw [Effect.applied]
      split <;> rfl
  | recordSuccess id' loginAt row =>
      rw [Effect.applied]
      split <;> rfl
  | _ => rfl

theorem isSome_applied (e : Effect Token) (now : Nat) (a : Account) :
    (a.otpSecretKey.isSome → (e.applied now a).otpSecretKey.isSome) ∧
      (a.lastLoginAt.isSome → (e.applied now a).lastLoginAt.isSome) := by
  cases e with
  | updateOtpSecretKey id' otpSecretKey =>
      rw [Effect.applied]
      split
      · exact ⟨fun _ => rfl, id⟩
      · exact ⟨id, id⟩
  | recordSuccess id' loginAt row =>
      rw [Effect.applied]
      split
      · exact ⟨id, fun _ => rfl⟩
      · exact ⟨id, id⟩
  | incrementFailCount id' =>
      rw [Effect.applied]
      split <;> exact ⟨id, id⟩
  | lockAccount id' =>
      rw [Effect.applied]
      split <;> exact ⟨id, id⟩
  | resetFailCount id' =>
      rw [Effect.applied]
      split <;> exact ⟨id, id⟩
  | updatePassword id' hashedPassword =>
      rw [Effect.applied]
      split <;> exact ⟨id, id⟩
  | _ => exact ⟨id, id⟩

def Server.HasSecret (s : Server) (id : Nat) : Prop :=
  ∃ a, s.row id = some a ∧ a.otpSecretKey.isSome

/-- The account has a secret and the time of a login. -/
def Server.Enrolled (s : Server) (id : Nat) : Prop :=
  ∃ a, s.row id = some a ∧ a.otpSecretKey.isSome ∧ a.lastLoginAt.isSome

theorem Server.HasSecret.answer {s : Server} (h : s.HasSecret id) (e : Effect Token) :
    (Auth.answer env e s).2.HasSecret id := by
  obtain ⟨a, hrow, hsecret⟩ := h
  refine ⟨e.applied s.now a, ?_, (isSome_applied e s.now a).1 hsecret⟩
  rw [row_answer, hrow, Option.map_some]

theorem Server.Enrolled.answer {s : Server} (h : s.Enrolled id) (e : Effect Token) :
    (Auth.answer env e s).2.Enrolled id := by
  obtain ⟨a, hrow, hsecret, hlogin⟩ := h
  obtain ⟨hkeeps, hkeeps'⟩ := isSome_applied e s.now a
  refine ⟨e.applied s.now a, ?_, hkeeps hsecret, hkeeps' hlogin⟩
  rw [row_answer, hrow, Option.map_some]

theorem enrolled_of_records {s : Server} (h : s.HasSecret id) {e : Effect Token}
    (he : e.records id = true) : (Auth.answer env e s).2.Enrolled id := by
  obtain ⟨a, hrow, hsecret⟩ := h
  cases e with
  | recordSuccess id' loginAt row =>
      have hid : id' = a.id := (beq_iff_eq.mp he).trans (id_of_row hrow).symm
      refine ⟨{ a with failCount := some 0, lastLoginAt := some loginAt }, ?_, hsecret, rfl⟩
      rw [row_answer, hrow]
      exact congrArg some (if_pos hid)
  | _ => cases he

/-! ## What a verification can come to record -/

/-- The program records no success for the account. -/
def RecordsNot {α : Type} (id : Nat) (p : Service Token α) : Prop :=
  p.Only fun e => e.records id = false

theorem recordsNot_of_silent {α : Type} {p : Service Token α} (h : p.Only Effect.Silent) :
    RecordsNot id p := by
  refine h.mono fun e he => ?_
  cases e with
  | recordSuccess id' loginAt row => cases he.1
  | _ => rfl

/-- The stages of a verification: it reads the row, and then records a success for an account
only if the row it read has a secret. -/
inductive VerifyStage (s : Server) (id : Nat) : Service Token (AuthTokens Token) → Prop
  | arrived (twoFactorToken : Token) (totpCode : String) (m : LoginRequestMeta) :
      VerifyStage s id (verifyTwoFactor twoFactorToken totpCode m)
  | reading (key : Option Nat) {next : Option Account → Service Token (AuthTokens Token)}
      (reads : ∀ row, RecordsNot id (next row) ∨
        ∃ a, row = some a ∧ a.id = id ∧ a.otpSecretKey.isSome) :
      VerifyStage s id (.ask (.findById key) next)
  | settled {p : Service Token (AuthTokens Token)} (h : RecordsNot id p ∨ s.HasSecret id) :
      VerifyStage s id p

theorem acceptsCode_silent (code secret : String) :
    (acceptsCode code secret : Service Token _).Only Effect.Silent := by
  rw [acceptsCode]
  refine Only.bind (Only.call ⟨rfl, rfl⟩) fun production => ?_
  split
  · exact Only.call ⟨rfl, rfl⟩
  · exact .ret _

def verifyRow (row : Option Account) (totpCode : String) (m : LoginRequestMeta) :
    Service Token (AuthTokens Token) :=
  match row with
  | none => throwAuthError .invalidCredentials
  | some account =>
      match account.otpSecretKey with
      | none => throwAuthError .invalidCredentials
      | some otpSecretKey =>
          if otpSecretKey = "" then throwAuthError .invalidCredentials
          else do
            let accepted ← acceptsCode totpCode otpSecretKey
            if accepted then
              let tokens ← issueTokens account
              recordSuccess account m
              return tokens
            else
              throwAuthError .invalidOtp

theorem verifyTwoFactor_eq (twoFactorToken : Token) (totpCode : String) (m : LoginRequestMeta) :
    verifyTwoFactor twoFactorToken totpCode m = .ask (.jwtVerify twoFactorToken) fun reply =>
      match reply.filter (·.type = some "2fa") with
      | none => throwAuthError .tokenExpired
      | some claims =>
          .ask (.findById (JsString.number claims.sub)) fun row => verifyRow row totpCode m := by
  refine congrArg (Prog.ask (Effect.jwtVerify twoFactorToken)) (funext fun reply => ?_)
  change Prog.bind (.ret _) _ = _
  rw [Prog.bind]
  cases reply.filter (·.type = some "2fa") with
  | none => rfl
  | some claims =>
      refine congrArg (Prog.ask (Effect.findById (JsString.number claims.sub)))
        (funext fun row => ?_)
      cases row with
      | none => rfl
      | some account => rfl

theorem verifyRow_records (id : Nat) (row : Option Account) (totpCode : String)
    (m : LoginRequestMeta) :
    RecordsNot id (verifyRow row totpCode m : Service Token _) ∨
      ∃ a, row = some a ∧ a.id = id ∧ a.otpSecretKey.isSome := by
  cases row with
  | none => exact Or.inl (only_throwAuthError _ _)
  | some a =>
      cases hsecret : a.otpSecretKey with
      | none =>
          rw [verifyRow, hsecret]
          exact Or.inl (only_throwAuthError _ _)
      | some otpSecretKey =>
          by_cases hid : a.id = id
          · exact Or.inr ⟨a, rfl, hid, Option.isSome_iff_exists.mpr ⟨otpSecretKey, hsecret⟩⟩
          left
          rw [verifyRow, hsecret]
          dsimp only
          split
          · exact only_throwAuthError _ _
          refine Only.bind (recordsNot_of_silent (acceptsCode_silent _ _)) fun accepted => ?_
          split
          · refine Only.bind (recordsNot_of_silent (issueTokens_silent a)) fun tokens => ?_
            refine Only.bind ?_ fun _ => .ret _
            exact Only.bind (Only.call rfl) fun _ => Only.call (beq_eq_false_iff_ne.mpr hid)
          · exact only_throwAuthError _ _

/-- The stage of a verification after an effect. -/
theorem VerifyStage.advance {s : Server} {e : Effect Token}
    {next : e.Reply → Service Token (AuthTokens Token)} (stage : VerifyStage s id (.ask e next)) :
    VerifyStage (answer env e s).2 id (next (answer env e s).1) := by
  generalize hp : Prog.ask e next = p at stage
  cases stage with
  | arrived twoFactorToken totpCode m =>
      rw [verifyTwoFactor_eq] at hp
      obtain ⟨rfl, hnext⟩ := Prog.ask.inj hp
      obtain rfl := eq_of_heq hnext
      generalize (answer env (.jwtVerify twoFactorToken) s).1 = reply
      dsimp only
      cases reply.filter (·.type = some "2fa") with
      | none => exact .settled (Or.inl (only_throwAuthError _ _))
      | some claims => exact .reading _ fun row => verifyRow_records id row totpCode m
  | reading key reads =>
      obtain ⟨rfl, hnext⟩ := Prog.ask.inj hp
      obtain rfl := eq_of_heq hnext
      change VerifyStage s id (next (s.accounts.findById key))
      rcases reads (s.accounts.findById key) with hnot | ⟨a, hfind, hid, hsecret⟩
      · exact .settled (Or.inl hnot)
      · refine .settled (Or.inr ⟨a, ?_, hsecret⟩)
        rw [← hid]
        exact row_of_mem (AccountTable.mem_of_findById hfind)
  | settled h =>
      subst hp
      rcases h with hnot | hsecret
      · cases hnot with
        | ask allowed rest => exact .settled (Or.inl (rest _))
      · exact .settled (Or.inr (hsecret.answer e))

/-- Effects of the other sessions keep the stage. -/
theorem VerifyStage.keep {s s' : Server} {p : Service Token (AuthTokens Token)}
    (stage : VerifyStage s id p) (hkeep : s.HasSecret id → s'.HasSecret id) :
    VerifyStage s' id p := by
  cases stage with
  | arrived twoFactorToken totpCode m => exact .arrived twoFactorToken totpCode m
  | reading key reads => exact .reading key reads
  | settled h => exact .settled (h.imp_right hkeep)

theorem VerifyStage.hasSecret {s : Server} {e : Effect Token}
    {next : e.Reply → Service Token (AuthTokens Token)} (stage : VerifyStage s id (.ask e next))
    (he : e.records id = true) : s.HasSecret id := by
  generalize hp : Prog.ask e next = p at stage
  cases stage with
  | arrived twoFactorToken totpCode m =>
      rw [verifyTwoFactor_eq] at hp
      obtain ⟨rfl, _⟩ := Prog.ask.inj hp
      cases he
  | reading key reads =>
      obtain ⟨rfl, _⟩ := Prog.ask.inj hp
      cases he
  | settled h =>
      subst hp
      rcases h with hnot | hsecret
      · cases hnot with
        | ask allowed rest => cases allowed.symm.trans he
      · exact hsecret

/-! ## Runs -/

variable (id) in
/-- A confirmed account is enrolled, and the verifications are in one of their stages. -/
structure Stable (w : Sessions Token) : Prop where
  enrolled : w.confirmed = true → w.server.Enrolled id
  stages : ∀ t ∈ w.sessions, ∀ p, t = .verifyTwoFactor p → VerifyStage w.server id p

variable (env) in
/-- The next effect of a session and the session after it. -/
theorem Session.advance_spec {t : Session Token} {e : Effect Token} (s : Server)
    (h : t.nextEffect = some e) :
    (∃ next, t = .login (.ask e next) ∧ t.advance env s = .login (next (answer env e s).1)) ∨
      ∃ next, t = .verifyTwoFactor (.ask e next) ∧
        t.advance env s = .verifyTwoFactor (next (answer env e s).1) := by
  cases t with
  | login rest =>
      cases rest with
      | ask e' next =>
          cases h
          exact Or.inl ⟨next, rfl, rfl⟩
      | ret a => cases h
      | throw error => cases h
  | verifyTwoFactor rest =>
      cases rest with
      | ask e' next =>
          cases h
          exact Or.inr ⟨next, rfl, rfl⟩
      | ret a => cases h
      | throw error => cases h

theorem Sessions.step_advanced {w w' : Sessions Token} {i : Nat}
    (h : w.step env id (.advanced i) = some w') :
    ∃ t e, w.sessions[i]? = some t ∧ t.nextEffect = some e ∧ w' = {
      server := (answer env e w.server).2
      sessions := w.sessions.set i (t.advance env w.server)
      confirmed := w.confirmed || (t.isVerification && e.records id) } := by
  rw [Sessions.step] at h
  cases ht : w.sessions[i]? with
  | none =>
      rw [ht] at h
      cases h
  | some t =>
      rw [ht] at h
      dsimp only at h
      cases he : t.nextEffect with
      | none =>
          rw [he] at h
          cases h
      | some e =>
          rw [he] at h
          exact ⟨t, e, rfl, he, (Option.some.inj h).symm⟩

/-- Every step keeps the invariant. -/
theorem Stable.step {w w' : Sessions Token} {e : SessionEvent Token} (ok : Stable id w)
    (h : w.step env id e = some w') : Stable id w' := by
  cases e with
  | loginArrived loginId password userType m =>
      obtain rfl := Option.some.inj h
      refine ⟨ok.enrolled, fun t ht p hp => ?_⟩
      rcases List.mem_append.mp ht with hold | hnew
      · exact ok.stages t hold p hp
      · cases List.mem_singleton.mp hnew
        cases hp
  | verifyTwoFactorArrived twoFactorToken totpCode m =>
      obtain rfl := Option.some.inj h
      refine ⟨ok.enrolled, fun t ht p hp => ?_⟩
      rcases List.mem_append.mp ht with hold | hnew
      · exact ok.stages t hold p hp
      · cases List.mem_singleton.mp hnew
        cases hp
        exact .arrived twoFactorToken totpCode m
  | clockMoved now =>
      obtain rfl := Option.some.inj h
      exact ⟨ok.enrolled, fun t ht p hp => (ok.stages t ht p hp).keep fun hsecret => hsecret⟩
  | advanced i =>
      obtain ⟨t, e, ht, he, rfl⟩ := Sessions.step_advanced h
      have hmem := List.mem_of_getElem? ht
      refine ⟨fun hconfirmed => ?_, fun u hu p hp => ?_⟩
      · rcases Bool.or_eq_true_iff.mp hconfirmed with hbefore | hnow
        · exact (ok.enrolled hbefore).answer e
        · obtain ⟨hverify, hrecords⟩ := Bool.and_eq_true_iff.mp hnow
          rcases Session.advance_spec env w.server he with ⟨next, rfl, _⟩ | ⟨next, rfl, _⟩
          · cases hverify
          · exact enrolled_of_records ((ok.stages _ hmem _ rfl).hasSecret hrecords) hrecords
      · rcases List.mem_or_eq_of_mem_set hu with hold | rfl
        · exact (ok.stages u hold p hp).keep fun hsecret => hsecret.answer e
        · rcases Session.advance_spec env w.server he with
            ⟨next, rfl, hnext⟩ | ⟨next, rfl, hnext⟩
          · rw [hnext] at hp
            cases hp
          · rw [hnext] at hp
            cases hp
            exact (ok.stages _ hmem _ rfl).advance

theorem otpSecretKeyOf_step {w w' : Sessions Token} {e : SessionEvent Token}
    (enrolled : w.server.Enrolled id) (checks : ChecksCurrentRow id w e)
    (h : w.step env id e = some w') :
    w'.server.otpSecretKeyOf id = w.server.otpSecretKeyOf id := by
  cases e with
  | loginArrived loginId password userType m =>
      obtain rfl := Option.some.inj h
      rfl
  | verifyTwoFactorArrived twoFactorToken totpCode m =>
      obtain rfl := Option.some.inj h
      rfl
  | clockMoved now =>
      obtain rfl := Option.some.inj h
      rfl
  | advanced i =>
      obtain ⟨t, e, ht, he, rfl⟩ := Sessions.step_advanced h
      obtain ⟨a, hrow, hsecret, hlogin⟩ := enrolled
      have hkeeps : e.rotates a.id = false := by
        cases hrotates : e.rotates a.id with
        | false => rfl
        | true =>
            rw [id_of_row hrow] at hrotates
            exact absurd ⟨hsecret, hlogin⟩ (checks t ht e he hrotates a hrow)
      rw [Server.otpSecretKeyOf, Server.otpSecretKeyOf, row_answer, hrow, Option.map_some,
        Option.map_some, Option.map_some, otpSecretKey_applied _ hkeeps]

/-- In every interleaving in which each new secret is written to a row that still requires the
registration, the secret of an account stays once a verification recorded its success. -/
theorem enrolment_stable {server : Server} {events : List (SessionEvent Token)}
    (checks : EachStep (Sessions.step env id) (fun w e _ => ChecksCurrentRow id w e)
      (Sessions.start server) events) :
    EachStep (Sessions.step env id)
      (fun w _ w' => w.confirmed = true →
        w'.server.otpSecretKeyOf id = w.server.otpSecretKeyOf id)
      (Sessions.start server) events := by
  refine eachStep_of_invariant (I := Stable id) ?_ ⟨nofun, ?_⟩ checks
  · exact fun w e w' ok hchecks h =>
      ⟨ok.step h, fun hconfirmed => otpSecretKeyOf_step (ok.enrolled hconfirmed) hchecks h⟩
  · exact fun t ht => (List.not_mem_nil ht).elim

instance instDecidableRegistrationRequired (a : Account) : Decidable a.RegistrationRequired :=
  inferInstanceAs (Decidable (¬ (a.otpSecretKey.isSome ∧ a.lastLoginAt.isSome)))

instance instDecidableChecksCurrentRow (id : Nat) (w : Sessions Token) :
    (e : SessionEvent Token) → Decidable (ChecksCurrentRow id w e)
  | .advanced i => inferInstanceAs (Decidable (∀ t ∈ w.sessions[i]?, ∀ e ∈ t.nextEffect,
      e.rotates id = true → ∀ a ∈ w.server.row id, a.RegistrationRequired))
  | .loginArrived .. => isTrue trivial
  | .verifyTwoFactorArrived .. => isTrue trivial
  | .clockMoved _ => isTrue trivial

def newcomer : Account := { administrator with lastLoginAt := none }

def newcomerServer : Server where
  accounts := ⟨[newcomer], by decide⟩
  history := []
  now := 0
  drawn := 0
  minted := []

def passwordLogin : SessionEvent SignedClaims :=
  .loginArrived "admin" "pw" "ADMIN_BO" ⟨"10.0.0.1", none⟩

def codeEntered : SessionEvent SignedClaims :=
  .verifyTwoFactorArrived challenge "123456" ⟨"10.0.0.1", none⟩

/-- A login reads the row, a verification runs to its end, and the login goes on to its write. -/
def staleLogin : List (SessionEvent SignedClaims) :=
  [passwordLogin, .advanced 0, codeEntered] ++ List.replicate 10 (.advanced 1) ++
    List.replicate 4 (.advanced 0)

theorem staleLogin_rotates :
    ¬ EachStep (Sessions.step Env.plain 7)
      (fun w _ w' => w.confirmed = true →
        w'.server.otpSecretKeyOf 7 = w.server.otpSecretKeyOf 7)
      (Sessions.start newcomerServer) (staleLogin ++ [.advanced 0]) := by
  decide

/-- A second login after the verification finds the account enrolled. -/
theorem enrolment_stable_in_turn :
    EachStep (Sessions.step Env.plain 7)
      (fun w _ w' => w.confirmed = true →
        w'.server.otpSecretKeyOf 7 = w.server.otpSecretKeyOf 7)
      (Sessions.start newcomerServer)
      ([codeEntered] ++ List.replicate 10 (.advanced 0) ++ [passwordLogin] ++
        List.replicate 5 (.advanced 1)) :=
  enrolment_stable (by decide)

end NestGateway.Auth
