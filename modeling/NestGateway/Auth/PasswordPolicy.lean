import NestGateway.Core.JsRegExp
import NestGateway.Gateway.AuthProxy

/-! # The password policy

`PASSWORD_POLICY_REGEX` as it is written, two anchored alternatives with nine
lookaheads, matched against the code units of a text, and the checks that
`ChangePasswordSchema` makes of its fields. On a text of one line they come down
to the documented rule. On every text they are the checks that the calls of the
auth server were modelled with.
-/

namespace NestGateway.Auth.PasswordPolicy

open JsRegExp

/-- `\n`, `\r` and the separators U+2028 and U+2029. -/
def isLineTerminator (u : UInt16) : Bool := u == 0x0A || u == 0x0D || u == 0x2028 || u == 0x2029

/-- `[A-Za-z]` -/
def isLetter (u : UInt16) : Bool := (65 ≤ u && u ≤ 90) || (97 ≤ u && u ≤ 122)

/-- `\d` -/
def isDigit (u : UInt16) : Bool := 48 ≤ u && u ≤ 57

/-- `\w` -/
def isWord (u : UInt16) : Bool := isLetter u || isDigit u || u == 95

/-- `[\W_]` -/
def isSpecial (u : UInt16) : Bool := !isWord u || u == 95

/-- `[A-Za-z\d\W_]` -/
def isAllowed (u : UInt16) : Bool := isLetter u || isDigit u || !isWord u || u == 95

/-- `.*p` -/
def scan (p : UInt16 → Bool) : Re UInt16 :=
  .seq (.star (.cls fun u => !isLineTerminator u)) (.cls p)

/-- `(?=.*p)` -/
def lookahead (p : UInt16 → Bool) : Re UInt16 := .ahead (scan p)

def PASSWORD_POLICY_REGEX : Re UInt16 :=
  .alt
    (.all [.bol, lookahead isLetter, lookahead isDigit, lookahead isSpecial,
      .atLeast 8 (.cls isAllowed), .eol])
    (.all [.bol,
      .alt (.seq (lookahead isLetter) (lookahead isDigit))
        (.alt (.seq (lookahead isDigit) (lookahead isSpecial))
          (.seq (lookahead isSpecial) (lookahead isLetter))),
      .atLeast 10 (.cls isAllowed), .eol])

/-- The checks of `z.string()` that the fields have. -/
inductive Check where
  | min (n : Nat)
  | max (n : Nat)
  | regex (re : Re UInt16) (message : String)

def Check.passes (value : List UInt16) : Check → Bool
  | min n => n ≤ value.length
  | max n => value.length ≤ n
  | regex re _ => test re value

/-- The checks of a field accept a text. -/
def accepts (field : List Check) (value : List UInt16) : Bool := field.all (·.passes value)

namespace ChangePasswordSchema

def currentPassword : List Check := [.min 1]

def newPassword : List Check :=
  [.min 8, .max 255, .regex PASSWORD_POLICY_REGEX "올바른 패스워드 형식이 아닙니다."]

end ChangePasswordSchema

/-- A character that is neither a letter nor a digit. -/
def isOther (u : UInt16) : Bool := !isLetter u && !isDigit u

/-- Which of the three kinds of characters a text has. -/
def kinds (value : List UInt16) : List Bool :=
  [value.any isLetter, value.any isDigit, value.any isOther]

/-- At most 255 characters: 8 or more with all three kinds, or 10 or more with two of them. -/
def Policy (value : List UInt16) : Prop :=
  value.length ≤ 255 ∧
    ((8 ≤ value.length ∧ (kinds value).count true = 3) ∨
      (10 ≤ value.length ∧ 2 ≤ (kinds value).count true))

theorem isSpecial_eq (u : UInt16) : isSpecial u = isOther u := by
  unfold isSpecial isOther isWord
  by_cases h : u = 95
  · subst h
    decide
  · simp [beq_false_of_ne h]

theorem isAllowed_eq (u : UInt16) : isAllowed u = true := by
  unfold isAllowed isWord
  cases isLetter u <;> cases isDigit u <;> cases u == 95 <;> rfl

theorem test_iff (value : List UInt16) :
    test PASSWORD_POLICY_REGEX value = true ↔
      (((scan isLetter).MatchesAt ⟨true, value⟩ ∧ (scan isDigit).MatchesAt ⟨true, value⟩ ∧
        (scan isSpecial).MatchesAt ⟨true, value⟩) ∧ 8 ≤ value.length) ∨
      (((scan isLetter).MatchesAt ⟨true, value⟩ ∧ (scan isDigit).MatchesAt ⟨true, value⟩ ∨
        (scan isDigit).MatchesAt ⟨true, value⟩ ∧ (scan isSpecial).MatchesAt ⟨true, value⟩ ∨
        (scan isSpecial).MatchesAt ⟨true, value⟩ ∧ (scan isLetter).MatchesAt ⟨true, value⟩) ∧
        10 ≤ value.length) := by
  unfold PASSWORD_POLICY_REGEX
  simp only [Re.all]
  rw [test_anchored (Re.Anchored.alt (anchored_bol _) (anchored_bol _)), matchesAt_alt]
  have hsize : ∀ n, (Re.seq (Re.atLeast n (Re.cls isAllowed)) Re.eol).MatchesAt ⟨true, value⟩ ↔
      n ≤ value.length := by
    intro n
    rw [matchesAt_atLeast_eol]
    simp [isAllowed_eq]
  have hpair : ∀ (p q : UInt16 → Bool) (n : Nat),
      (Re.seq (Re.seq (lookahead p) (lookahead q))
        (Re.seq (Re.atLeast n (Re.cls isAllowed)) Re.eol)).MatchesAt ⟨true, value⟩ ↔
      ((scan p).MatchesAt ⟨true, value⟩ ∧ (scan q).MatchesAt ⟨true, value⟩) ∧
        n ≤ value.length := by
    intro p q n
    unfold lookahead
    rw [matchesAt_seq_assoc, matchesAt_ahead, matchesAt_ahead, hsize, and_assoc]
  refine or_congr ?_ ?_
  · unfold lookahead
    rw [matchesAt_bol, matchesAt_ahead, matchesAt_ahead, matchesAt_ahead, hsize, and_assoc,
      and_assoc]
  · rw [matchesAt_bol, matchesAt_seq_alt, matchesAt_seq_alt, hpair, hpair, hpair, ← or_and_right,
      ← or_and_right]

/-- On one line, a lookahead is about all of the text. -/
theorem scan_line {value : List UInt16} (hline : ∀ u ∈ value, isLineTerminator u = false)
    (p : UInt16 → Bool) : (scan p).MatchesAt ⟨true, value⟩ ↔ value.any p = true := by
  unfold scan
  rw [matchesAt_scan_line (fun u hu => by simp [hline u hu]), List.any_eq_true]

/-- The pattern and the two lengths make up the rule. -/
theorem policy_iff {value : List UInt16} (hline : ∀ u ∈ value, isLineTerminator u = false) :
    Policy value ↔
      8 ≤ value.length ∧ value.length ≤ 255 ∧ test PASSWORD_POLICY_REGEX value = true := by
  have hspecial : value.any isSpecial = value.any isOther := by
    rw [funext isSpecial_eq]
  rw [test_iff, scan_line hline, scan_line hline, scan_line hline, hspecial]
  unfold Policy kinds
  cases value.any isLetter <;> cases value.any isDigit <;> cases value.any isOther <;>
    simp <;> omega

/-- The new password of a request is accepted exactly when it keeps to the rule. -/
theorem newPassword_accepts_iff {value : List UInt16}
    (hline : ∀ u ∈ value, isLineTerminator u = false) :
    accepts ChangePasswordSchema.newPassword value = true ↔ Policy value := by
  rw [policy_iff hline]
  unfold accepts ChangePasswordSchema.newPassword
  simp [Check.passes]

/-- Eight characters of all three kinds. -/
theorem newPassword_accepts_short :
    accepts ChangePasswordSchema.newPassword (JsString.units "abc123!?") = true := by
  have hline : (JsString.units "abc123!?").all (! isLineTerminator ·) = true := by decide
  refine (newPassword_accepts_iff fun u hu => ?_).mpr (by unfold Policy; decide)
  simpa using List.all_eq_true.mp hline u hu

theorem isLetter_unit {c : Char} {u : UInt16} (h : u ∈ JsString.charUnits c) :
    isLetter u = Gateway.isLetter c := by
  have hletter : Gateway.isLetter c =
      (decide (65 ≤ c.val ∧ c.val ≤ 90) || decide (97 ≤ c.val) && decide (c.val ≤ 122)) := rfl
  rw [Bool.eq_iff_iff, hletter]
  unfold isLetter
  simp only [Bool.or_eq_true, Bool.and_eq_true, decide_eq_true_eq, UInt16.le_iff_toNat_le,
    UInt32.le_iff_toNat_le]
  have hcode := JsString.unit_class (fun n => (65 ≤ n ∧ n ≤ 90) ∨ (97 ≤ n ∧ n ≤ 122))
    (by omega) h
  exact hcode

theorem isDigit_unit {c : Char} {u : UInt16} (h : u ∈ JsString.charUnits c) :
    isDigit u = Text.isDigit c := by
  rw [Bool.eq_iff_iff]
  unfold isDigit Text.isDigit
  simp only [Bool.and_eq_true, decide_eq_true_eq, UInt16.le_iff_toNat_le, Char.le_def,
    UInt32.le_iff_toNat_le]
  exact JsString.unit_class (fun n => 48 ≤ n ∧ n ≤ 57) (by omega) h

theorem isSpecial_unit {c : Char} {u : UInt16} (h : u ∈ JsString.charUnits c) :
    isSpecial u = Gateway.isSpecial c := by
  have hdigit : c.isDigit = Text.isDigit c := rfl
  rw [isSpecial_eq, isOther, isLetter_unit h, isDigit_unit h, ← hdigit, Gateway.isSpecial,
    Char.isAlphanum, Bool.not_or]
  rfl

theorem isLineTerminator_unit {c : Char} {u : UInt16} (h : u ∈ JsString.charUnits c) :
    isLineTerminator u = Gateway.isLineTerminator c := by
  rw [Bool.eq_iff_iff]
  unfold isLineTerminator Gateway.isLineTerminator
  have hcode := JsString.unit_class (fun n => n = 10 ∨ n = 13 ∨ n = 0x2028 ∨ n = 0x2029)
    (by omega) h
  simp only [Bool.or_eq_true, beq_iff_eq, ← UInt16.toNat_inj, decide_eq_true_eq, List.mem_cons,
    List.not_mem_nil, or_false, ← Char.toNat_inj, or_assoc]
  exact hcode

/-- Whether `.*q` matches from here on, where `p` is the class of the dot. -/
def scans {α : Type} (p q : α → Bool) : List α → Bool
  | [] => false
  | c :: cs => q c || (p c && scans p q cs)

theorem matchesAt_iff_scans (q : UInt16 → Bool) (value : List UInt16) :
    (scan q).MatchesAt ⟨true, value⟩ ↔ scans (!isLineTerminator ·) q value = true := by
  unfold scan
  rw [matchesAt_scan]
  induction value with
  | nil => simp [scans]
  | cons c cs ih =>
      rw [scans, Bool.or_eq_true, Bool.and_eq_true, ← ih]
      constructor
      · rintro ⟨xs, d, rest, hrest, hall, hq⟩
        cases xs with
        | nil =>
            obtain ⟨rfl, rfl⟩ := List.cons.inj hrest
            exact Or.inl hq
        | cons x xs =>
            obtain ⟨rfl, hcs⟩ := List.cons.inj hrest
            obtain ⟨hx, hxs⟩ := List.forall_mem_cons.mp hall
            exact Or.inr ⟨hx, xs, d, rest, hcs, hxs, hq⟩
      · rintro (hq | ⟨hc, xs, d, rest, hrest, hall, hq⟩)
        · exact ⟨[], c, cs, rfl, fun d hd => absurd hd List.not_mem_nil, hq⟩
        · refine ⟨c :: xs, d, rest, ?_, List.forall_mem_cons.mpr ⟨hc, hall⟩, hq⟩
          rw [List.cons_append]
          exact congrArg (List.cons c) hrest

theorem ahead_eq_scans (q : Char → Bool) (value : String) :
    Gateway.ahead q value = scans (!Gateway.isLineTerminator ·) q value.toList := by
  unfold Gateway.ahead
  generalize value.toList = cs
  induction cs with
  | nil => rfl
  | cons c cs ih =>
      rw [scans, ← ih]
      cases hc : Gateway.isLineTerminator c <;> simp [hc]

theorem scans_units {p q : UInt16 → Bool} {p' q' : Char → Bool}
    (hp : ∀ c, ∀ u ∈ JsString.charUnits c, p u = p' c)
    (hq : ∀ c, ∀ u ∈ JsString.charUnits c, q u = q' c) (value : String) :
    scans p q (JsString.units value) = scans p' q' value.toList := by
  unfold JsString.units
  generalize value.toList = cs
  induction cs with
  | nil => rfl
  | cons c cs ih =>
      rw [List.flatMap_cons, scans, ← ih]
      have hunits : ∀ us : List UInt16, us ≠ [] → (∀ u ∈ us, p u = p' c ∧ q u = q' c) →
          ∀ rest, scans p q (us ++ rest) = (q' c || (p' c && scans p q rest)) := by
        intro us hne hus rest
        induction us with
        | nil => exact absurd rfl hne
        | cons u us ihus =>
            obtain ⟨⟨hpu, hqu⟩, hmore⟩ := List.forall_mem_cons.mp hus
            rw [List.cons_append, scans, hpu, hqu]
            cases us with
            | nil => rfl
            | cons v vs =>
                rw [ihus (List.cons_ne_nil _ _) hmore]
                cases q' c <;> cases p' c <;> simp
      exact hunits _ (JsString.charUnits_ne_nil c) (fun u hu => ⟨hp c u hu, hq c u hu⟩) _

theorem ahead_iff {q : UInt16 → Bool} {q' : Char → Bool}
    (hq : ∀ c, ∀ u ∈ JsString.charUnits c, q u = q' c) (value : String) :
    (scan q).MatchesAt ⟨true, JsString.units value⟩ ↔ Gateway.ahead q' value = true := by
  rw [matchesAt_iff_scans, ahead_eq_scans,
    scans_units (fun c u hu => congrArg not (isLineTerminator_unit hu)) hq]

theorem gateway_test (value : String) :
    Gateway.PASSWORD_POLICY_REGEX value = test PASSWORD_POLICY_REGEX (JsString.units value) := by
  rw [Bool.eq_iff_iff, test_iff, ahead_iff fun c u => isLetter_unit,
    ahead_iff fun c u => isDigit_unit, ahead_iff fun c u => isSpecial_unit,
    JsString.length_units]
  unfold Gateway.PASSWORD_POLICY_REGEX
  simp only [Bool.or_eq_true, Bool.and_eq_true, decide_eq_true_eq, and_assoc, or_assoc]

/-- A request that the schema accepts: a current password, and a new one that keeps to the rule. -/
theorem schema_accepts_iff {currentPassword newPassword : String}
    (hline : ∀ u ∈ JsString.units newPassword, isLineTerminator u = false) :
    Gateway.ChangePasswordSchema.Accepts
        [("currentPassword", currentPassword), ("newPassword", newPassword)] ↔
      1 ≤ (JsString.units currentPassword).length ∧ Policy (JsString.units newPassword) := by
  rw [policy_iff hline]
  unfold Gateway.Schema.Accepts Gateway.ChangePasswordSchema
  simp [List.lookup_cons, Gateway.StringCheck.passes, gateway_test, JsString.length_units]

end NestGateway.Auth.PasswordPolicy
