import NestGateway.Auth.Identity
import NestGateway.Core.Base64
import NestGateway.Core.JsMap
import NestGateway.Core.JsonText
import NestGateway.Core.Utf8
import NestGateway.Gateway.DownstreamError

/-! # The text of a token

A signed token is three parts in base64url, the second of which is the JSON text
of its claims. Who holds a token reads its claims without the key.
-/

namespace NestGateway.Auth

open GoJson Text
open Gateway (textField)

/-- The members of an object of texts; `JSON.stringify` leaves out one that is undefined. -/
def textMembers (texts : List (String × Option String)) : List (String × Json) :=
  texts.flatMap fun (key, value) => value.toList.map fun text => (key, .str text)

theorem textMembers_cons (key : String) (value : Option String)
    (texts : List (String × Option String)) :
    textMembers ((key, value) :: texts) =
      value.toList.map (fun text => (key, Json.str text)) ++ textMembers texts :=
  List.flatMap_cons

theorem keys_textMembers (texts : List (String × Option String)) :
    ((textMembers texts).map Prod.fst).Sublist (texts.map Prod.fst) := by
  induction texts with
  | nil => exact List.nil_sublist _
  | cons entry texts ih =>
      obtain ⟨key, value⟩ := entry
      rw [textMembers_cons]
      cases value with
      | none => exact ih.cons key
      | some text => exact ih.cons_cons key

theorem str_of_mem_textMembers {texts : List (String × Option String)} {m : String × Json}
    (h : m ∈ textMembers texts) : ∃ text, m.2 = .str text := by
  obtain ⟨⟨key, value⟩, _, hmem⟩ := List.mem_flatMap.mp h
  obtain ⟨text, _, rfl⟩ := List.mem_map.mp hmem
  exact ⟨text, rfl⟩

theorem textField_textMembers {texts : List (String × Option String)}
    (nodup : (texts.map Prod.fst).Nodup) {key : String} {value : Option String}
    (h : (key, value) ∈ texts) : textField (textMembers texts) key = value := by
  have hlookup : (textMembers texts).lookup key = value.map Json.str := by
    induction texts with
    | nil => cases h
    | cons entry texts ih =>
        obtain ⟨key', value'⟩ := entry
        obtain ⟨hnot, hrest⟩ := List.nodup_cons.mp nodup
        rw [textMembers_cons, List.lookup_append]
        rcases List.mem_cons.mp h with heq | hmem
        · obtain ⟨rfl, rfl⟩ := Prod.mk.inj heq
          have hnone : (textMembers texts).lookup key = none :=
            JsMap.lookup_of_not_mem fun hkey => hnot ((keys_textMembers texts).subset hkey)
          rw [hnone, Option.or_none]
          cases value with
          | none => rfl
          | some text => exact List.lookup_cons_self
        · have hne : key ≠ key' := by
            rintro rfl
            exact hnot (List.mem_map.mpr ⟨(key, value), hmem, rfl⟩)
          have hnone : (value'.toList.map fun text => (key', Json.str text)).lookup key = none := by
            refine JsMap.lookup_of_not_mem fun hkey => ?_
            obtain ⟨entry, hentry, rfl⟩ := List.mem_map.mp hkey
            obtain ⟨text, _, rfl⟩ := List.mem_map.mp hentry
            exact hne rfl
          rw [hnone, Option.none_or, ih hrest hmem]
  unfold textField
  rw [hlookup]
  cases value with
  | none => rfl
  | some text => rfl

def SignedClaims.texts (claims : SignedClaims) : List (String × Option String) :=
  [("sub", some claims.sub), ("userType", some claims.userType), ("type", claims.type),
    ("loginId", claims.loginId), ("name", claims.name), ("customerNo", claims.customerNo),
    ("roleType", claims.roleType), ("jti", claims.jti), ("iss", some claims.iss)]

def SignedClaims.members (claims : SignedClaims) : List (String × Json) :=
  ("iat", .num (Nat.repr claims.iat)) :: ("exp", .num (Nat.repr claims.exp)) ::
    textMembers claims.texts

theorem nodup_members (claims : SignedClaims) : (claims.members.map Prod.fst).Nodup := by
  have hkeys : (claims.members.map Prod.fst).Sublist
      ("iat" :: "exp" :: claims.texts.map Prod.fst) :=
    ((keys_textMembers claims.texts).cons_cons "exp").cons_cons "iat"
  refine hkeys.nodup ?_
  show ["iat", "exp", "sub", "userType", "type", "loginId", "name", "customerNo", "roleType", "jti",
    "iss"].Nodup
  decide

theorem exchangeable_members (claims : SignedClaims) :
    Exchangeable Runtime.ascii 0 (.obj claims.members) := by
  refine .obj (by decide) (nodup_members claims) fun m hmem => ?_
  rcases List.mem_cons.mp hmem with rfl | hmem
  · exact .num (isNumber_repr _) rfl
  rcases List.mem_cons.mp hmem with rfl | hmem
  · exact .num (isNumber_repr _) rfl
  obtain ⟨text, htext⟩ := str_of_mem_textMembers hmem
  rw [htext]
  exact .str text

theorem textField_members {claims : SignedClaims} {members : List (String × Json)}
    (h : members.Perm claims.members) {key : String} {value : Option String}
    (hmem : (key, value) ∈ claims.texts) : textField members key = value := by
  have hkeys : (claims.texts.map Prod.fst).Nodup := by
    show ["sub", "userType", "type", "loginId", "name", "customerNo", "roleType", "jti",
      "iss"].Nodup
    decide
  have hfield := textField_textMembers hkeys hmem
  unfold textField at hfield ⊢
  rw [← JsMap.lookup_perm h.symm (nodup_members claims)]
  have hkey : key ≠ "iat" ∧ key ≠ "exp" := by
    have hkey : key ∈ ["sub", "userType", "type", "loginId", "name", "customerNo", "roleType",
      "jti", "iss"] := List.mem_map_of_mem (f := Prod.fst) hmem
    constructor
    · rintro rfl
      exact absurd hkey (by decide)
    · rintro rfl
      exact absurd hkey (by decide)
  unfold SignedClaims.members
  rw [JsMap.lookup_cons, if_neg hkey.1, JsMap.lookup_cons, if_neg hkey.2]
  exact hfield

/-- The JWS compact serialization. -/
def compact (header signature : List UInt8) (members : List (String × Json)) : List Char :=
  Base64.encodeUrl header ++ '.' ::
    (Base64.encodeUrl (Utf8.encode (jsonText (.obj members))) ++ '.' ::
      Base64.encodeUrl signature)

/-- A signed token is the compact text of its claims, written in any order. -/
def Env.Compact (env : Env String) : Prop :=
  ∀ claims, ∃ header signature members, members.Perm (SignedClaims.members claims) ∧
    (env.sign claims).toList = compact header signature members

theorem splitOn_compact (header signature : List UInt8) (members : List (String × Json)) :
    (compact header signature members).splitOn '.' =
      [Base64.encodeUrl header, Base64.encodeUrl (Utf8.encode (jsonText (.obj members))),
        Base64.encodeUrl signature] := by
  unfold compact
  rw [List.splitOn_append_cons_self, List.splitOn_append_cons_self,
    List.splitOn_eq_singleton (Base64.dot_not_mem_encodeUrl _),
    List.splitOn_eq_singleton (Base64.dot_not_mem_encodeUrl _),
    List.splitOn_eq_singleton (Base64.dot_not_mem_encodeUrl _)]
  rfl

/-- The JSON text of an object is read back from its bytes. -/
theorem decode_encode_obj (members : List (String × Json)) :
    Utf8.decode (Utf8.encode (jsonText (.obj members))) = jsonText (.obj members) := by
  refine Utf8.decode_encode ?_
  have hhead : (jsonText (.obj members)).head? = some '{' := by
    cases members with
    | nil => rfl
    | cons m members => rfl
  rw [hhead]
  decide

end NestGateway.Auth
