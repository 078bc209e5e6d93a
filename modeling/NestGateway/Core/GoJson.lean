import Mathlib.Data.List.Sort
import NestGateway.Core.Regex

/-! # JSON values

`json.Unmarshal` into a map of `any` values and `json.Marshal` of such a map,
as `encoding/json` does both. Numbers pass through a float64 and are kept as
the text that the encoder writes for it.
-/

namespace NestGateway.GoJson

open Text

inductive Json where
  | null
  | bool (b : Bool)
  /-- A number, as the encoder writes it. -/
  | num (text : String)
  | str (s : String)
  | arr (elems : List Json)
  | obj (members : List (String × Json))
  deriving Repr

/-- The nesting that the decoder accepts. -/
def maxNestingDepth : Nat := 10000

def skipSpace (cs : List Char) : List Char := cs.dropWhile (· ∈ [' ', '\t', '\r', '\n'])

def hexValue (c : Char) : Option Nat :=
  if isDigit c then some (digitValue c)
  else if 'a' ≤ c && c ≤ 'f' then some (c.toNat - 'a'.toNat + 10)
  else if 'A' ≤ c && c ≤ 'F' then some (c.toNat - 'A'.toNat + 10)
  else none

/-- The code unit of `\uXXXX`, the backslash and the letter already read. -/
def codeUnit (cs : List Char) : Option (Nat × List Char) :=
  match cs with
  | a :: b :: c :: d :: rest => do
      let a ← hexValue a
      let b ← hexValue b
      let c ← hexValue c
      let d ← hexValue d
      some (((a * 16 + b) * 16 + c) * 16 + d, rest)
  | _ => none

/-- A code unit as a character; a surrogate only counts with its other half. -/
def decodeUnit (u : Nat) (rest : List Char) : Char × List Char :=
  if u < 0xD800 || 0xDFFF < u then (Char.ofNat u, rest)
  else
    match rest with
    | '\\' :: 'u' :: more =>
        match codeUnit more with
        | some (v, after) =>
            if u < 0xDC00 && 0xDC00 ≤ v && v ≤ 0xDFFF then
              (Char.ofNat (0x10000 + (u - 0xD800) * 0x400 + (v - 0xDC00)), after)
            else (replacementChar, rest)
        | none => (replacementChar, rest)
    | _ => (replacementChar, rest)

/-- The character of an escape, the backslash already read. -/
def unescape (cs : List Char) : Option (Char × List Char) :=
  match cs with
  | '"' :: rest => some ('"', rest)
  | '\\' :: rest => some ('\\', rest)
  | '/' :: rest => some ('/', rest)
  | 'b' :: rest => some (Char.ofNat 8, rest)
  | 'f' :: rest => some (Char.ofNat 12, rest)
  | 'n' :: rest => some ('\n', rest)
  | 'r' :: rest => some ('\r', rest)
  | 't' :: rest => some ('\t', rest)
  | 'u' :: rest => (codeUnit rest).map fun (u, rest) => decodeUnit u rest
  | _ => none

/-- The characters of a string up to its closing quote. -/
def stringBody : Nat → List Char → Option (List Char × List Char)
  | 0, _ => none
  | _, [] => none
  | fuel + 1, c :: rest =>
      if c == '"' then some ([], rest)
      else if c == '\\' then do
        let (d, rest) ← unescape rest
        let (ds, rest) ← stringBody fuel rest
        some (d :: ds, rest)
      else if c.toNat < 0x20 then none
      else do
        let (ds, rest) ← stringBody fuel rest
        some (c :: ds, rest)

def stringToken (cs : List Char) : Option (String × List Char) :=
  match cs with
  | '"' :: rest =>
      (stringBody (rest.length + 1) rest).map fun (ds, rest) => (String.ofList ds, rest)
  | _ => none

open Regex Re in
/-- `-?(0|[1-9][0-9]*)(\.[0-9]+)?([eE][+-]?[0-9]+)?` -/
def numberRe : Re :=
  all [bol, group 1 (all [
    opt (char '-'),
    alt (char '0') (seq (cls fun c => isDigit c && c != '0') (star digit)),
    opt (seq (char '.') (plus digit)),
    opt (all [cls fun c => c == 'e' || c == 'E', opt (cls fun c => c == '+' || c == '-'),
      plus digit])])]

/-- Set a key of a map kept as a list. -/
def setKey {β : Type} (k : String) (v : β) : List (String × β) → List (String × β)
  | [] => [(k, v)]
  | (k', v') :: rest => if k' == k then (k, v) :: rest else (k', v') :: setKey k v rest

section Runtime

variable (rt : Runtime)

mutual

/-- A value inside `depth` arrays and objects, with the text after it. -/
def value : Nat → Nat → List Char → Option (Json × List Char)
  | 0, _, _ => none
  | fuel + 1, depth, cs =>
      match skipSpace cs with
      | 'n' :: 'u' :: 'l' :: 'l' :: rest => some (.null, rest)
      | 't' :: 'r' :: 'u' :: 'e' :: rest => some (.bool true, rest)
      | 'f' :: 'a' :: 'l' :: 's' :: 'e' :: rest => some (.bool false, rest)
      | '[' :: rest =>
          if maxNestingDepth ≤ depth then none
          else
            match skipSpace rest with
            | ']' :: rest => some (.arr [], rest)
            | rest => (elements fuel (depth + 1) rest).map fun (vs, rest) => (.arr vs, rest)
      | '{' :: rest =>
          if maxNestingDepth ≤ depth then none
          else
            match skipSpace rest with
            | '}' :: rest => some (.obj [], rest)
            | rest => (members fuel (depth + 1) rest []).map fun (ms, rest) => (.obj ms, rest)
      | '"' :: rest => (stringToken ('"' :: rest)).map fun (s, rest) => (.str s, rest)
      | rest =>
          match Regex.findFrom numberRe true rest with
          | none => none
          | some m => (rt.float64Text (m.group 1)).map fun text => (.num text, m.rest)

/-- The elements of an array up to its closing bracket. -/
def elements : Nat → Nat → List Char → Option (List Json × List Char)
  | 0, _, _ => none
  | fuel + 1, depth, cs => do
      let (v, rest) ← value fuel depth cs
      match skipSpace rest with
      | ',' :: rest =>
          let (vs, rest) ← elements fuel depth rest
          some (v :: vs, rest)
      | ']' :: rest => some ([v], rest)
      | _ => none

/-- The members of an object up to its closing brace; a repeated key is set again. -/
def members : Nat → Nat → List Char → List (String × Json) →
    Option (List (String × Json) × List Char)
  | 0, _, _, _ => none
  | fuel + 1, depth, cs, acc => do
      let (k, rest) ← stringToken (skipSpace cs)
      match skipSpace rest with
      | ':' :: rest =>
          let (v, rest) ← value fuel depth rest
          match skipSpace rest with
          | ',' :: rest => members fuel depth rest (setKey k v acc)
          | '}' :: rest => some (setKey k v acc, rest)
          | _ => none
      | _ => none

end

/-- Decode a whole text. -/
def decode (text : String) : Option Json :=
  match value rt (2 * text.toList.length + 2) 0 text.toList with
  | none => none
  | some (v, rest) => if (skipSpace rest).isEmpty then some v else none

/-- `json.Unmarshal` into a nil map: an object, or `null`, which leaves the map nil. -/
def unmarshalMap (text : String) : Option (List (String × Json)) :=
  match decode rt text with
  | some (.obj ms) => some ms
  | some .null => some []
  | _ => none

end Runtime

def hexDigit (n : Nat) : Char := (Nat.digitChar n)

/-- A character of an encoded string; the HTML characters are escaped too. -/
def escapeChar (c : Char) : List Char :=
  if c == '"' || c == '\\' then ['\\', c]
  else if c == Char.ofNat 8 then ['\\', 'b']
  else if c == Char.ofNat 12 then ['\\', 'f']
  else if c == '\n' then ['\\', 'n']
  else if c == '\r' then ['\\', 'r']
  else if c == '\t' then ['\\', 't']
  else if c.toNat < 0x20 || c == '<' || c == '>' || c == '&' then
    ['\\', 'u', '0', '0', hexDigit (c.toNat / 16), hexDigit (c.toNat % 16)]
  else if c == Char.ofNat 0x2028 then ['\\', 'u', '2', '0', '2', '8']
  else if c == Char.ofNat 0x2029 then ['\\', 'u', '2', '0', '2', '9']
  else [c]

def quote (s : String) : String :=
  "\"" ++ String.ofList (s.toList.flatMap escapeChar) ++ "\""

def commaJoin (parts : List String) : String := String.intercalate "," parts

/-- An object text; the encoder writes the keys of a map in sorted order. -/
def objectText (members : List (String × String)) : String :=
  let sorted := members.insertionSort fun a b => a.1 ≤ b.1
  String.ofList ['{'] ++ commaJoin (sorted.map fun (k, text) => quote k ++ ":" ++ text) ++
    String.ofList ['}']

mutual

/-- `json.Marshal`. -/
def marshal : Json → String
  | .null => "null"
  | .bool b => if b then "true" else "false"
  | .num text => text
  | .str s => quote s
  | .arr vs => "[" ++ commaJoin (marshalAll vs) ++ "]"
  | .obj ms => objectText (marshalMembers ms)

def marshalAll : List Json → List String
  | [] => []
  | v :: vs => marshal v :: marshalAll vs

def marshalMembers : List (String × Json) → List (String × String)
  | [] => []
  | m :: ms => marshalMember m :: marshalMembers ms

def marshalMember : String × Json → String × String
  | (k, v) => (k, marshal v)

end

theorem infix_commaJoin {parts : List String} {part : String} (h : part ∈ parts) :
    part.toList <:+: (commaJoin parts).toList := by
  unfold commaJoin
  rw [String.toList_intercalate, List.intercalate]
  refine List.infix_of_mem_flatten ?_
  induction parts with
  | nil => cases h
  | cons first rest ih =>
      cases rest with
      | nil =>
          rw [List.mem_singleton.mp h]
          exact List.mem_cons_self
      | cons second rest =>
          rw [List.map_cons, List.map_cons, List.intersperse_cons_cons]
          rcases List.mem_cons.mp h with rfl | h
          · exact List.mem_cons_self
          · exact List.mem_cons_of_mem _ (List.mem_cons_of_mem _ (ih h))

theorem mem_marshalMembers {ms : List (String × Json)} {m : String × Json} (h : m ∈ ms) :
    (m.1, marshal m.2) ∈ marshalMembers ms := by
  induction ms with
  | nil => cases h
  | cons first rest ih =>
      rw [marshalMembers]
      rcases List.mem_cons.mp h with rfl | h
      · rw [marshalMember.eq_def]
        exact List.mem_cons_self
      · exact List.mem_cons_of_mem _ (ih h)

theorem infix_objectText {members : List (String × String)} {key text : String}
    (h : (key, text) ∈ members) : text.toList <:+: (objectText members).toList := by
  have hsorted : (key, text) ∈ members.insertionSort fun a b => a.1 ≤ b.1 :=
    (List.mem_insertionSort _).mpr h
  have htext : text.toList <:+: (quote key ++ ":" ++ text).toList := by
    rw [String.toList_append]
    exact (List.suffix_append _ _).isInfix
  rw [objectText, String.toList_append, String.toList_append]
  refine List.IsInfix.trans ?_ (List.infix_append _ _ _)
  exact htext.trans (infix_commaJoin (List.mem_map.mpr ⟨_, hsorted, rfl⟩))

theorem infix_marshal {ms : List (String × Json)} {m : String × Json} (h : m ∈ ms) :
    (marshal m.2).toList <:+: (marshal (.obj ms)).toList := by
  rw [marshal]
  exact infix_objectText (mem_marshalMembers h)

end NestGateway.GoJson
