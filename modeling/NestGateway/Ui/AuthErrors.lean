import NestGateway.Core.JsRegExp
import NestGateway.Core.JsString
import NestGateway.Gateway.AuthBreaker

/-! # What a user is told when a login fails

The exception filter of the gateway turns what was thrown into a `GraphQLError`,
and the login page picks a message out of the answer and replaces those that
are technical. A refusal of the auth service reaches the user word for word; an
error without a text of its own becomes a text of the page.
-/

namespace NestGateway.Ui

open JsRegExp JsString Gateway Auth

/-- The response of an `HttpException`: a text, or an object with perhaps a message. -/
inductive HttpResponse where
  | text (response : String)
  | object (message : Option String)

/-- What a resolver throws. -/
inductive Exception where
  | axios (error : AxiosError) (cause : Thrown)
  | graphQL (error : GraphQLError)
  | http (status : Nat) (response : HttpResponse) (message : String)
  /-- Any other `Error`, or a value that is none. -/
  | other (message : Option String)

def HttpExceptionFilter.catch (p : JsonParser) : Exception → GraphQLError
  | .axios exception cause => toAxiosGraphQLError p exception cause
  | .graphQL error => error
  | .http status response message =>
      { message :=
          match response with
          | .text response => response
          | .object inner => inner.getD message
        extensions :=
          { code := (HTTP_STATUS_TO_ERROR_CODE status).getD "INTERNAL_SERVER_ERROR"
            statusCode := status } }
  | .other _ =>
      { message := "Internal server error"
        extensions := { code := "INTERNAL_SERVER_ERROR", statusCode := 500 } }

/-! ## The messages of the page -/

def letter (c : Char) : Re Char := .cls fun d => d.toLower == c.toLower

def literal (pattern : String) : Re Char := .all (pattern.toList.map letter)

/-- `.` -/
def isLineTerminator (c : Char) : Bool :=
  c == '\n' || c == '\r' || c == '\u2028' || c == '\u2029'

def unreachablePattern : Re Char :=
  .alt (literal "backend service unavailable")
    (.alt (literal "failed to fetch") (literal "networkerror"))

def timeoutPattern : Re Char := .alt (literal "backend service timeout") (literal "timeout")

def TECHNICAL_ERROR_PATTERNS : List (Re Char) :=
  [.all [literal "data", .star (.cls fun c => !isLineTerminator c), literal "undefined"],
    literal "cannot read properties", literal "backend service error"]

def unreachableText : String := "인증 서버에 연결할 수 없습니다."

def timeoutText : String := "인증 서버 응답이 지연되고 있습니다. 잠시 후 다시 시도해주세요."

def sanitizeMessage (message : Option String) (fallback : String) : String :=
  let trimmed := trim (message.getD "")
  if trimmed = "" then fallback
  else if test unreachablePattern trimmed.toList then unreachableText
  else if test timeoutPattern trimmed.toList then timeoutText
  else if TECHNICAL_ERROR_PATTERNS.any (test · trimmed.toList) then fallback
  else trimmed

/-- A value that is caught, as data: nothing in it is a function. -/
inductive JsValue where
  | undefined
  | null
  | bool (b : Bool)
  | number (text : String)
  | string (s : String)
  | array (elems : List JsValue)
  | object (fields : List (String × JsValue))

namespace JsValue

/-- `value?.key` -/
def field (key : String) : JsValue → JsValue
  | .object fields => (fields.lookup key).getD .undefined
  | _ => .undefined

def isRecord : JsValue → Bool
  | .array _ | .object _ => true
  | _ => false

def isNullish : JsValue → Bool
  | .undefined | .null => true
  | _ => false

/-- `typeof value === 'string'` -/
def isString : JsValue → Bool
  | .string _ => true
  | _ => false

/-- Neither missing nor a text. -/
def IsOdd (value : JsValue) : Prop := value.isNullish = false ∧ value.isString = false

/-- `value ?? other` -/
def coalesce (value other : JsValue) : JsValue := if value.isNullish then other else value

end JsValue

def firstMessage : JsValue → JsValue
  | .array errors =>
      ((errors.find? fun error => error.isRecord && (error.field "message").isString).map
        (JsValue.field "message")).getD .undefined
  | _ => .undefined

def pickedMessage (apolloError : JsValue) : JsValue :=
  let networkError := apolloError.field "networkError"
  (firstMessage (apolloError.field "errors")).coalesce <|
    (firstMessage (apolloError.field "graphQLErrors")).coalesce <|
      (firstMessage ((networkError.field "result").field "errors")).coalesce <|
        (apolloError.field "message").coalesce (networkError.field "message")

/-- `sanitizeMessage` of what was picked. None when it throws: `message?.trim()` finds no function
unless the message is a text. -/
def sanitizePicked (fallback : String) : JsValue → Option String
  | .undefined | .null => some (sanitizeMessage none fallback)
  | .string message => some (sanitizeMessage (some message) fallback)
  | _ => none

def getAuthErrorMessage (error : JsValue) (fallback : String) : Option String :=
  if !error.isRecord then some fallback else sanitizePicked fallback (pickedMessage error)

def answeredError (error : GraphQLError) : JsValue :=
  .object [("message", .string error.message),
    ("errors", .array [.object [("message", .string error.message)]])]

def told (error : GraphQLError) (fallback : String) : Option String :=
  getAuthErrorMessage (answeredError error) fallback

theorem told_eq (error : GraphQLError) (fallback : String) :
    told error fallback = some (sanitizeMessage (some error.message) fallback) := by
  unfold told getAuthErrorMessage pickedMessage answeredError
  rfl

/-! ## Literals -/

theorem exists_matchesAt {re : Re Char} {first : Bool} {text : List Char}
    (h : testFrom re first text = true) : ∃ s : Pos Char, s.rest <:+ text ∧ re.MatchesAt s := by
  induction text generalizing first with
  | nil =>
      rw [testFrom] at h
      exact ⟨⟨first, []⟩, List.suffix_rfl, run_true_iff.mp h⟩
  | cons c cs ih =>
      rw [testFrom, Bool.or_eq_true] at h
      rcases h with h | h
      · exact ⟨⟨first, c :: cs⟩, List.suffix_rfl, run_true_iff.mp h⟩
      · obtain ⟨s, hs, hmatch⟩ := ih h
        exact ⟨s, hs.trans (List.suffix_cons c cs), hmatch⟩

theorem test_of_matchesAt {re : Re Char} {text : List Char} (h : re.MatchesAt ⟨true, text⟩) :
    test re text = true := by
  have hrun := run_true_iff.mpr h
  unfold test
  cases text with
  | nil => exact hrun
  | cons c cs => rw [testFrom, hrun, Bool.true_or]

theorem matches_letters_cons {c : Char} {cs : List Char} {s : Pos Char} :
    (Re.all ((c :: cs).map letter)).MatchesAt s ↔
      ∃ d rest, s.rest = d :: rest ∧ d.toLower = c.toLower ∧
        (Re.all (cs.map letter)).MatchesAt ⟨false, rest⟩ := by
  have hletter : ∀ t : Pos Char, (letter c).Matches s t ↔
      ∃ d, s.rest = d :: t.rest ∧ d.toLower = c.toLower ∧ t.first = false := by
    intro t
    simp [letter, Re.Matches]
  cases cs with
  | nil =>
      simp only [List.map_cons, List.map_nil, Re.all, Re.MatchesAt, hletter]
      constructor
      · rintro ⟨t, d, hrest, hd, _⟩
        exact ⟨d, t.rest, hrest, hd, ⟨false, t.rest⟩, rfl⟩
      · rintro ⟨d, rest, hrest, hd, _⟩
        exact ⟨⟨false, rest⟩, d, hrest, hd, rfl⟩
  | cons c' cs =>
      simp only [List.map_cons, Re.all, Re.MatchesAt, Re.Matches]
      constructor
      · rintro ⟨t, u, hu, ht⟩
        obtain ⟨d, hrest, hd, hfirst⟩ := (hletter u).mp hu
        refine ⟨d, u.rest, hrest, hd, t, ?_⟩
        rw [← hfirst]
        exact ht
      · rintro ⟨d, rest, hrest, hd, t, ht⟩
        exact ⟨t, ⟨false, rest⟩, (hletter _).mpr ⟨d, hrest, hd, rfl⟩, ht⟩

/-- A text with the letters of a literal in front matches it. -/
theorem matchesAt_letters {cs ds : List Char} (rest : List Char) (first : Bool)
    (h : ds.map Char.toLower = cs.map Char.toLower) :
    (Re.all (cs.map letter)).MatchesAt ⟨first, ds ++ rest⟩ := by
  induction cs generalizing ds first with
  | nil => exact ⟨_, rfl⟩
  | cons c cs ih =>
      cases ds with
      | nil => cases h
      | cons d ds =>
          obtain ⟨hd, hds⟩ := List.cons.inj h
          exact matches_letters_cons.mpr ⟨d, ds ++ rest, rfl, hd, ih false hds⟩

theorem mem_of_matchesAt_letters {cs : List Char} {s : Pos Char}
    (h : (Re.all (cs.map letter)).MatchesAt s) {c : Char} (hc : c ∈ cs) :
    ∃ d ∈ s.rest, d.toLower = c.toLower := by
  induction cs generalizing s with
  | nil => cases hc
  | cons c' cs ih =>
      obtain ⟨d, rest, hrest, hd, hmore⟩ := matches_letters_cons.mp h
      rcases List.mem_cons.mp hc with rfl | hc
      · exact ⟨d, hrest ▸ List.mem_cons_self, hd⟩
      · obtain ⟨e, he, hsame⟩ := ih hmore hc
        exact ⟨e, hrest ▸ List.mem_cons_of_mem d he, hsame⟩

/-- A text that lacks a letter of a literal does not match it. -/
theorem literal_of_lacks {pattern : String} {text : List Char} {c : Char}
    (hc : c ∈ pattern.toList) (h : ∀ d ∈ text, d.toLower ≠ c.toLower) (first : Bool) :
    testFrom (literal pattern) first text = false := by
  rw [← Bool.not_eq_true]
  intro hmatch
  obtain ⟨s, hs, hmatch⟩ := exists_matchesAt hmatch
  obtain ⟨d, hd, hsame⟩ := mem_of_matchesAt_letters hmatch hc
  exact h d (hs.subset hd) hsame

theorem testFrom_alt (a b : Re Char) (first : Bool) (text : List Char) :
    testFrom (.alt a b) first text = (testFrom a first text || testFrom b first text) := by
  induction text generalizing first with
  | nil => rfl
  | cons c cs ih =>
      simp only [testFrom, Re.run, ih]
      ac_rfl

/-! ## What is shown -/

/-- No pattern that the page looks for has a match in the text. -/
def Plain (text : String) : Prop :=
  ∀ pattern ∈ unreachablePattern :: timeoutPattern :: TECHNICAL_ERROR_PATTERNS,
    test pattern text.toList = false

instance (text : String) : Decidable (Plain text) :=
  inferInstanceAs (Decidable (∀ pattern ∈ _ :: _ :: TECHNICAL_ERROR_PATTERNS, _))

theorem plain_iff {text : String} :
    Plain text ↔ test unreachablePattern text.toList = false ∧
      test timeoutPattern text.toList = false ∧
        TECHNICAL_ERROR_PATTERNS.any (test · text.toList) = false := by
  unfold Plain
  rw [List.forall_mem_cons, List.forall_mem_cons, List.any_eq_false]
  simp only [Bool.not_eq_true]

theorem sanitizeMessage_cases (message : Option String) (fallback : String) :
    sanitizeMessage message fallback = fallback ∨
      sanitizeMessage message fallback = unreachableText ∨
      sanitizeMessage message fallback = timeoutText ∨
      (sanitizeMessage message fallback = trim (message.getD "") ∧
        trim (message.getD "") ≠ "" ∧ Plain (trim (message.getD ""))) := by
  unfold sanitizeMessage
  dsimp only
  split
  · exact Or.inl rfl
  next hempty =>
    split
    · exact Or.inr (Or.inl rfl)
    next hunreachable =>
      split
      · exact Or.inr (Or.inr (Or.inl rfl))
      next htimeout =>
        split
        · exact Or.inl rfl
        next htechnical =>
          rw [Bool.not_eq_true] at hunreachable htimeout htechnical
          exact Or.inr (Or.inr (Or.inr
            ⟨rfl, hempty, plain_iff.mpr ⟨hunreachable, htimeout, htechnical⟩⟩))

theorem sanitizeMessage_plain (message : Option String) {fallback : String}
    (hfallback : fallback ≠ "") (hplain : Plain fallback) :
    sanitizeMessage message fallback ≠ "" ∧ Plain (sanitizeMessage message fallback) := by
  rcases sanitizeMessage_cases message fallback with h | h | h | ⟨h, hne, htext⟩
  all_goals rw [h]
  · exact ⟨hfallback, hplain⟩
  · exact ⟨by decide, by decide⟩
  · exact ⟨by decide, by decide⟩
  · exact ⟨hne, htext⟩

def backendError (status : Nat) : String := "Backend service error (" ++ Nat.repr status ++ ")"

theorem toList_backendError (status : Nat) :
    (backendError status).toList =
      "Backend service error".toList ++ (" (".toList ++ Nat.toDigits 10 status ++ [')']) := by
  unfold backendError
  rw [String.toList_append, String.toList_append, Nat.toList_repr]
  rfl

theorem toLower_of_isDigit {c : Char} (h : c.isDigit = true) : c.toLower = c := by
  unfold Char.toLower
  unfold Char.isDigit at h
  simp only [Bool.and_eq_true, decide_eq_true_eq, ge_iff_le] at h
  rw [dif_neg]
  intro hupper
  have hlow : (65 : UInt32) ≤ c.val := hupper.1
  have hhigh : c.val ≤ (57 : UInt32) := h.2
  exact absurd (UInt32.le_trans hlow hhigh) (by decide)

theorem backendError_lacks (status : Nat) {c : Char} (hc : c ∈ ['u', 'f', 'w', 't']) :
    ∀ d ∈ (backendError status).toList, d.toLower ≠ c.toLower := by
  have hfixed : (['u', 'f', 'w', 't'].all fun c =>
      ("Backend service error (".toList ++ [')']).all fun d => d.toLower != c.toLower) = true := by
    decide
  have hletters : (['u', 'f', 'w', 't'].all fun c => !c.toLower.isDigit) = true := by
    decide
  have hletter : c.toLower.isDigit = false := by
    simpa using List.all_eq_true.mp hletters c hc
  intro d hd
  have hd : d ∈ "Backend service error (".toList ++ [')'] ∨ d ∈ Nat.toDigits 10 status := by
    have hopening : "Backend service error (".toList =
        "Backend service error".toList ++ " (".toList := by rfl
    rw [toList_backendError] at hd
    rw [hopening]
    simp only [List.mem_append] at hd ⊢
    rcases hd with hd | (hd | hd) | hd
    · exact Or.inl (Or.inl (Or.inl hd))
    · exact Or.inl (Or.inl (Or.inr hd))
    · exact Or.inr hd
    · exact Or.inl (Or.inr hd)
  rcases hd with hd | hd
  · simpa using List.all_eq_true.mp (List.all_eq_true.mp hfixed c hc) d hd
  · have hdigit := Nat.isDigit_of_mem_toDigits (by decide) (by decide) hd
    intro hsame
    rw [toLower_of_isDigit hdigit] at hsame
    rw [hsame, hletter] at hdigit
    cases hdigit

theorem trim_backendError (status : Nat) : trim (backendError status) = backendError status := by
  have hlist := toList_backendError status
  rw [← String.ofList_toList (s := backendError status)]
  refine trim_eq_self ?_ ?_
  · rw [hlist]
    intro c hc
    have hc : c = 'B' := by simpa using hc.symm
    rw [hc]
    decide
  · rw [hlist, ← List.append_assoc, ← List.append_assoc, List.getLast?_concat]
    intro c hc
    have hc : c = ')' := by simpa using hc.symm
    rw [hc]
    decide

theorem sanitizeMessage_backendError (status : Nat) (fallback : String) :
    sanitizeMessage (some (backendError status)) fallback = fallback := by
  have hlacks := fun (c : Char) => @backendError_lacks status c
  have hunreachable : test unreachablePattern (backendError status).toList = false := by
    unfold test unreachablePattern
    rw [testFrom_alt, testFrom_alt, literal_of_lacks (by decide) (hlacks 'u' (by decide)),
      literal_of_lacks (by decide) (hlacks 'f' (by decide)),
      literal_of_lacks (by decide) (hlacks 'w' (by decide))]
    rfl
  have htimeout : test timeoutPattern (backendError status).toList = false := by
    unfold test timeoutPattern
    rw [testFrom_alt, literal_of_lacks (by decide) (hlacks 't' (by decide)),
      literal_of_lacks (by decide) (hlacks 't' (by decide))]
    rfl
  have htechnical : test (literal "backend service error") (backendError status).toList = true := by
    rw [toList_backendError]
    exact test_of_matchesAt (matchesAt_letters _ true (by decide))
  have hany : TECHNICAL_ERROR_PATTERNS.any (test · (backendError status).toList) = true :=
    List.any_eq_true.mpr ⟨_, List.mem_of_getLast? rfl, htechnical⟩
  unfold sanitizeMessage
  simp only [Option.getD_some, trim_backendError, hunreachable, htimeout, hany]
  simp

/-! ## From the auth service to the user -/

section Told

variable (p : JsonParser) (fallback : String)

/-- A text for users: the page shows it as it is. -/
def Passes (message : String) : Prop := trim message = message ∧ message ≠ "" ∧ Plain message

instance (message : String) : Decidable (Passes message) :=
  inferInstanceAs (Decidable (_ ∧ _))

theorem Passes.shown {message : String} (h : Passes message) :
    sanitizeMessage (some message) fallback = message := by
  obtain ⟨htrim, hempty, hplain⟩ := h
  obtain ⟨hunreachable, htimeout, hany⟩ := plain_iff.mp hplain
  unfold sanitizeMessage
  simp only [Option.getD_some, htrim, hempty, hunreachable, htimeout, hany]
  simp

theorem passes_authError (key : AuthErrorKey) :
    Passes (key.error : AuthError String).message := by
  cases key <;> decide +kernel

section Failures

variable {exception : AxiosError} {cause : Thrown}

/-- What the page shows when a call of the auth service fails: a text for users when it was late or
not reached, else the message of the answer, and its own text when there is none. -/
theorem auth_failure_told
    (hauth : inferDownstreamService (errorUrl exception cause) = some "auth") :
    let shown := told (HttpExceptionFilter.catch p (.axios exception cause)) fallback
    let data := parseDownstreamErrorData p
      ((responseError exception cause).response.bind Response.data)
    (timedOut exception cause → shown = some "인증 서버 응답이 지연되고 있습니다.") ∧
      (¬ timedOut exception cause → errorStatus exception cause = none →
        shown = some "인증 서버에 연결할 수 없습니다.") ∧
      (¬ timedOut exception cause → (errorStatus exception cause).isSome →
        shown = match data.message.or data.rawMessage with
          | none => some fallback
          | some message => some (sanitizeMessage (some message) fallback)) := by
  intro shown data
  have hshown : shown = some
      (sanitizeMessage (some (toAxiosGraphQLError p exception cause).message) fallback) :=
    told_eq _ _
  rw [hshown]
  unfold toAxiosGraphQLError
  refine ⟨fun htimed => ?_, fun htimed hstatus => ?_, fun htimed hstatus => ?_⟩
  · rw [if_pos htimed, hauth]
    exact congrArg some (Passes.shown fallback (by decide))
  · rw [if_neg htimed, hauth, hstatus]
    have hpasses : Passes "인증 서버에 연결할 수 없습니다." := by decide
    exact congrArg some (hpasses.shown fallback)
  · obtain ⟨status, hstatus⟩ := Option.isSome_iff_exists.mp hstatus
    rw [if_neg htimed, hstatus]
    dsimp only
    show some (sanitizeMessage
      (some ((data.message.or data.rawMessage).getD (backendError status))) fallback) = _
    cases data.message.or data.rawMessage with
    | none => exact congrArg some (sanitizeMessage_backendError status fallback)
    | some message => rfl

theorem findAxiosErrorFrom_carries {response : Response} {error : Thrown}
    (h : Carries response error) (found : AxiosError) :
    (findAxiosErrorFrom error found).response = some response := by
  induction h generalizing found with
  | here has => rw [findAxiosErrorFrom, if_pos (by rw [has]; rfl), has]
  | cause has rest ih =>
      rw [findAxiosErrorFrom, if_neg (by rw [has]; decide)]
      exact ih _

theorem parse_refusal (key : AuthErrorKey) (passwordChangeToken : Option String)
    (timestamp : String) :
    parseDownstreamErrorData p (AuthErrorFilter.catch
      { (key.error : AuthError String) with passwordChangeToken } timestamp).data =
      { message := some (key.error : AuthError String).message
        errorCode := some (key.error : AuthError String).code
        timestamp := some timestamp
        passwordChangeToken := passwordChangeToken } := by
  unfold AuthErrorFilter.catch parseDownstreamErrorData
  cases passwordChangeToken <;> simp [textField, codeField, List.lookup_cons]

/-- A refusal of the auth service reaches the user word for word, and the page with its code, its
status and the token to change the password with. -/
theorem refusal_told (zod : Zod) (nest : BadRequestBody) (axios : Axios) (authBaseUrl : String)
    {call : AuthCall} (hform : call.WellFormed) (key : AuthErrorKey)
    (passwordChangeToken : Option String) (timestamp : String)
    (hresult : AuthBreaker.result zod nest axios authBaseUrl call
      (.refused key passwordChangeToken timestamp) = .error (.axios exception cause))
    (hcode : ¬ timedOut exception cause) :
    let error := HttpExceptionFilter.catch p (.axios exception cause)
    told error fallback = some (key.error : AuthError String).message ∧
      error.extensions.errorCode = some (key.error : AuthError String).code ∧
      error.extensions.statusCode = (key.error : AuthError String).status ∧
      error.extensions.timestamp = truthy (some timestamp) ∧
      error.extensions.passwordChangeToken = truthy passwordChangeToken := by
  intro error
  obtain ⟨body, hbody⟩ := transform_accepted zod hform
  have hcarries : Carries (AuthErrorFilter.catch
      { (key.error : AuthError String) with passwordChangeToken } timestamp)
      (.axios exception cause) := by
    rw [AuthBreaker.result, AuthController.handle.eq_def, hbody] at hresult
    have hthrown := Except.error.inj hresult
    rw [← hthrown]
    exact axios.carries _ _
  have hresponse := findAxiosErrorFrom_carries hcarries exception
  have hstatus : errorStatus exception cause = some (key.error : AuthError String).status := by
    show ((Option.map Response.status (findAxiosErrorFrom (.axios exception cause)
      exception).response).or _).filter (· ≠ 0) = _
    rw [hresponse]
    cases key <;> rfl
  have hdata : parseDownstreamErrorData p
      ((responseError exception cause).response.bind Response.data) =
        { message := some (key.error : AuthError String).message
          errorCode := some (key.error : AuthError String).code
          timestamp := some timestamp
          passwordChangeToken := passwordChangeToken } := by
    show parseDownstreamErrorData p ((findAxiosErrorFrom (.axios exception cause)
      exception).response.bind Response.data) = _
    rw [hresponse]
    exact parse_refusal p key passwordChangeToken timestamp
  have herror : error = toAxiosGraphQLError p exception cause := rfl
  obtain ⟨hcodeText, _⟩ := authError_texts key
  rw [herror, told_eq]
  unfold toAxiosGraphQLError
  rw [if_neg hcode, hstatus]
  dsimp only
  rw [hdata]
  refine ⟨congrArg some ((passes_authError key).shown fallback), ?_, rfl, rfl, rfl⟩
  simp [truthy, Option.filter, hcodeText]

end Failures

/-- A text that `firstMessage` finds. -/
def HasMessage (errors : JsValue) : Prop :=
  ∃ elems, errors = .array elems ∧ ∃ error ∈ elems, ∃ text, error.field "message" = .string text

/-- What is picked as the message is there, and is no text. -/
def Misread (error : JsValue) : Prop :=
  let network := error.field "networkError"
  (¬ HasMessage (error.field "errors") ∧ ¬ HasMessage (error.field "graphQLErrors") ∧
      ¬ HasMessage ((network.field "result").field "errors")) ∧
    ((error.field "message").IsOdd ∨
      (error.field "message").isNullish = true ∧ (network.field "message").IsOdd)

theorem isRecord_of_field {value : JsValue} {key text : String}
    (h : value.field key = .string text) : value.isRecord = true := by
  cases value with
  | object fields => rfl
  | _ => cases h

theorem firstMessage_cases (errors : JsValue) :
    (HasMessage errors ∧ ∃ text, firstMessage errors = .string text) ∨
      (¬ HasMessage errors ∧ firstMessage errors = .undefined) := by
  cases errors with
  | array elems =>
      rw [firstMessage]
      cases hfind : elems.find? fun error =>
          error.isRecord && (error.field "message").isString with
      | some error =>
          have hkept := List.find?_some hfind
          rw [Bool.and_eq_true] at hkept
          cases htext : error.field "message" with
          | string text =>
              exact Or.inl ⟨⟨elems, rfl, error, List.mem_of_find?_eq_some hfind, text, htext⟩, text,
                htext⟩
          | _ =>
              rw [htext] at hkept
              cases hkept.2
      | none =>
          refine Or.inr ⟨?_, rfl⟩
          rintro ⟨_, helems, error, hmem, text, htext⟩
          rw [← JsValue.array.inj helems] at hmem
          refine List.find?_eq_none.mp hfind error hmem ?_
          rw [isRecord_of_field htext, htext]
          rfl
  | _ =>
      refine Or.inr ⟨?_, rfl⟩
      rintro ⟨_, h, _⟩
      cases h

/-- A message that is found is picked, and is no odd one; else the rest is read. -/
theorem isOdd_coalesce_firstMessage (errors rest : JsValue) :
    ((firstMessage errors).coalesce rest).IsOdd ↔ ¬ HasMessage errors ∧ rest.IsOdd := by
  rcases firstMessage_cases errors with ⟨hmessage, text, h⟩ | ⟨hmessage, h⟩
  · rw [h]
    refine iff_of_false ?_ fun hodd => hodd.1 hmessage
    rintro ⟨_, hstring⟩
    cases hstring
  · rw [h]
    exact (and_iff_right hmessage).symm

theorem isOdd_coalesce (value rest : JsValue) :
    (value.coalesce rest).IsOdd ↔ value.IsOdd ∨ value.isNullish = true ∧ rest.IsOdd := by
  unfold JsValue.coalesce
  cases h : value.isNullish with
  | true => simp [JsValue.IsOdd, h]
  | false => simp

theorem isOdd_pickedMessage (error : JsValue) : (pickedMessage error).IsOdd ↔ Misread error := by
  unfold pickedMessage Misread
  rw [isOdd_coalesce_firstMessage, isOdd_coalesce_firstMessage, isOdd_coalesce_firstMessage,
    isOdd_coalesce]
  simp only [and_assoc]

theorem sanitizePicked_cases (message : JsValue) :
    (message.IsOdd ∧ sanitizePicked fallback message = none) ∨
      (¬ message.IsOdd ∧ ∃ text, sanitizePicked fallback message =
        some (sanitizeMessage text fallback)) := by
  cases message with
  | undefined => exact Or.inr ⟨by simp [JsValue.IsOdd, JsValue.isNullish], none, rfl⟩
  | null => exact Or.inr ⟨by simp [JsValue.IsOdd, JsValue.isNullish], none, rfl⟩
  | string text => exact Or.inr ⟨by simp [JsValue.IsOdd, JsValue.isString], some text, rfl⟩
  | _ => exact Or.inl ⟨⟨rfl, rfl⟩, rfl⟩

theorem not_misread {error : JsValue} (h : error.isRecord = false) : ¬ Misread error := by
  have hfield : ∀ key, error.field key = .undefined := by
    cases error <;> first | (intro key; rfl) | cases h
  rintro ⟨_, hodd | ⟨_, hodd⟩⟩
  · rw [hfield] at hodd
    cases hodd.1
  · rw [hfield] at hodd
    cases hodd.1

/-- Nothing that the page looks for is shown, and something is, if the text that it falls back to
is neither empty nor technical. -/
theorem told_plainly (error : JsValue) (hfallback : fallback ≠ "") (hplain : Plain fallback) :
    (getAuthErrorMessage error fallback = none ↔ Misread error) ∧
      ∀ shown, getAuthErrorMessage error fallback = some shown → shown ≠ "" ∧ Plain shown := by
  unfold getAuthErrorMessage
  cases hrecord : error.isRecord with
  | false =>
      refine ⟨iff_of_false (by simp) (not_misread hrecord), fun shown hshown => ?_⟩
      rw [← Option.some.inj hshown]
      exact ⟨hfallback, hplain⟩
  | true =>
      rw [← isOdd_pickedMessage]
      simp only [Bool.not_true, Bool.false_eq_true, if_false]
      rcases sanitizePicked_cases fallback (pickedMessage error) with ⟨hodd, h⟩ | ⟨hodd, text, h⟩
      · rw [h]
        exact ⟨iff_of_true rfl hodd, fun shown hshown => by cases hshown⟩
      · rw [h]
        refine ⟨iff_of_false (by simp) hodd, fun shown hshown => ?_⟩
        rw [← Option.some.inj hshown]
        exact sanitizeMessage_plain text hfallback hplain

end Told

def loginFailed : String := "로그인에 실패했습니다."

def brokenCall : JsValue := .object [("message", .string "Cannot read properties of null")]

example : getAuthErrorMessage (.object [("message", .number "42")]) loginFailed = none := rfl

theorem told_plainly_login :
    (getAuthErrorMessage brokenCall loginFailed = none ↔ Misread brokenCall) ∧
      ∀ shown, getAuthErrorMessage brokenCall loginFailed = some shown →
        shown ≠ "" ∧ Plain shown :=
  told_plainly loginFailed brokenCall (by decide) (by decide)

def unreached : AxiosError where
  response := none
  code := some "ECONNREFUSED"
  url := some "http://auth:4001/auth/login"

theorem auth_failure_told_unreached :
    told (HttpExceptionFilter.catch AuthBreaker.plainParser (.axios unreached .other)) loginFailed =
      some "인증 서버에 연결할 수 없습니다." :=
  (@auth_failure_told AuthBreaker.plainParser loginFailed unreached .other
    (by decide)).2.1 (by decide) rfl

def sampleLogin : AuthCall := .login "kim" "Secret12!" "USER" .empty

theorem wellFormed_sampleLogin : sampleLogin.WellFormed :=
  (issues_eq_nil AuthBreaker.sampleZod).mp (by decide)

def lockedError : AxiosError where
  response := some (AuthErrorFilter.catch AuthErrorKey.accountLocked.error "2026-03-02 09:00:00")
  status := some 403
  code := some "ERR_BAD_REQUEST"
  url := some "http://auth:4001/auth/login"

theorem result_locked :
    AuthBreaker.result AuthBreaker.sampleZod AuthBreaker.sampleBody AuthBreaker.sampleAxios
      "http://auth:4001" sampleLogin (.refused .accountLocked none "2026-03-02 09:00:00") =
        .error (.axios lockedError .other) := by
  obtain ⟨body, hbody⟩ := transform_accepted AuthBreaker.sampleZod wellFormed_sampleLogin
  rw [AuthBreaker.result, AuthController.handle.eq_def, hbody]
  rfl

theorem refusal_told_locked :
    told (HttpExceptionFilter.catch AuthBreaker.plainParser (.axios lockedError .other))
        loginFailed = some "5회 이상 로그인이 실패하여 계정이 잠겼습니다. 관리자에게 문의하세요." :=
  (@refusal_told AuthBreaker.plainParser loginFailed lockedError .other AuthBreaker.sampleZod
    AuthBreaker.sampleBody AuthBreaker.sampleAxios "http://auth:4001" sampleLogin
    wellFormed_sampleLogin .accountLocked none "2026-03-02 09:00:00" result_locked
    (by decide)).1

end NestGateway.Ui
