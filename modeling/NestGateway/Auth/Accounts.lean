import Mathlib.Data.List.Nodup

/-! # The account and login-history tables of the auth service

The columns the auth service reads or writes. A `login_id` is the text its bytes
spell, times are milliseconds, and an `id` is a key the table hands out.
-/

namespace NestGateway.Auth

inductive AccountStatus where
  | active
  | locked
  | pending
  | inActive
  | delete

def AccountStatus.value : AccountStatus → String
  | active => "ACTIVE"
  | locked => "LOCKED"
  | pending => "PENDING"
  | inActive => "IN_ACTIVE"
  | delete => "DELETE"

inductive UserType where
  | adminBo
  | customerBo
  | kiosk
  | dashboard
  | partnerBo
  | lotteCardBo

def UserType.value : UserType → String
  | adminBo => "ADMIN_BO"
  | customerBo => "CUSTOMER_BO"
  | kiosk => "KIOSK"
  | dashboard => "DASHBOARD"
  | partnerBo => "PARTNER_BO"
  | lotteCardBo => "LOTTE_CARD_BO"

def twoFactorRequiredTypes : List String :=
  [UserType.adminBo.value, UserType.customerBo.value, UserType.partnerBo.value,
    UserType.lotteCardBo.value]

/-- A row of `tb_account`. -/
structure Account where
  id : Nat
  loginId : String
  name : Option String
  userType : String
  password : Option String
  status : Option String
  otpSecretKey : Option String
  customerNo : Option String
  lastPasswordChangedAt : Option Int
  roleType : Option String
  failCount : Option Int
  lastLoginAt : Option Int
  deriving Repr, DecidableEq

/-- A row of `tb_login_history`. -/
structure HistoryRow where
  loginId : String
  accountId : Nat
  addrIp : String
  failCount : Int
  status : Option String
  accessChannel : Option String
  loginAt : Option Int
  failedAt : Option Int
  deriving Repr, DecidableEq

/-- `tb_account`: the ids are its primary key. -/
structure AccountTable where
  rows : List Account
  nodup : (rows.map Account.id).Nodup

namespace AccountTable

/-- The first row with the id; `NaN` matches none. -/
def findById (t : AccountTable) (id : Option Nat) : Option Account :=
  t.rows.find? fun a => id = some a.id

/-- The first row with the login id and, in the collation of the column, the user type. -/
def findByLoginIdAndUserType (sameUserType : String → String → Bool) (t : AccountTable)
    (loginId userType : String) : Option Account :=
  t.rows.find? fun a => a.loginId = loginId && sameUserType a.userType userType

/-- `UPDATE .. SET .. WHERE id = ..`; no statement of the service sets the id. -/
def update (t : AccountTable) (id : Nat) (set : Account → Account) : AccountTable where
  rows := t.rows.map fun a => if a.id = id then { set a with id := a.id } else a
  nodup := by
    have hids : (t.rows.map fun a => if a.id = id then { set a with id := a.id } else a).map
        Account.id = t.rows.map Account.id := by
      rw [List.map_map]
      refine List.map_congr_left fun a _ => ?_
      simp only [Function.comp_apply, apply_ite Account.id, ite_self]
    exact hids ▸ t.nodup

theorem id_of_findById {t : AccountTable} {id : Option Nat} {a : Account}
    (h : t.findById id = some a) : id = some a.id := by
  simpa using List.find?_some h

theorem mem_of_findById {t : AccountTable} {id : Option Nat} {a : Account}
    (h : t.findById id = some a) : a ∈ t.rows := List.mem_of_find?_eq_some h

theorem findById_of_mem {t : AccountTable} {a : Account} (h : a ∈ t.rows) :
    t.findById (some a.id) = some a := by
  cases hfind : t.findById (some a.id) with
  | none => exact absurd (List.find?_eq_none.mp hfind a h) (by simp)
  | some b =>
      have hid : a.id = b.id := Option.some.inj (id_of_findById hfind)
      rw [List.inj_on_of_nodup_map t.nodup h (mem_of_findById hfind) hid]

theorem findById_update (t : AccountTable) (id id' : Nat) (set : Account → Account) :
    (t.update id' set).findById (some id) = (t.findById (some id)).map fun a =>
      if a.id = id' then { set a with id := a.id } else a := by
  rw [findById, findById, update, List.find?_map]
  congr 2
  funext a
  simp only [Function.comp_apply, apply_ite Account.id, ite_self]

theorem mem_of_findByLoginIdAndUserType {t : AccountTable} {same : String → String → Bool}
    {loginId userType : String} {a : Account}
    (h : t.findByLoginIdAndUserType same loginId userType = some a) : a ∈ t.rows :=
  List.mem_of_find?_eq_some h

/-- The id and the stored user type of each row. -/
def kinds (t : AccountTable) : List (Nat × String) := t.rows.map fun a => (a.id, a.userType)

theorem kinds_update {t : AccountTable} {id : Nat} {set : Account → Account}
    (hkind : ∀ a, (set a).userType = a.userType) : (t.update id set).kinds = t.kinds := by
  rw [kinds, update, List.map_map]
  refine List.map_congr_left fun a _ => ?_
  by_cases ha : a.id = id
  · simp only [Function.comp_apply, if_pos ha, hkind]
  · simp only [Function.comp_apply, if_neg ha]

end AccountTable

end NestGateway.Auth
