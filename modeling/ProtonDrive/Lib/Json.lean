import Mathlib.Data.List.Basic

/-!
# JSON documents

* `Json`                       the documents, an object being the list of its members as written;
* `Json.render`                the compact text of a document;
* `required`, `optional`, `defaulted`
                               one member of an object, read the way a derived record decoder
                               reads it: a member given twice is an error, an optional one may be
                               missing or `null`, a defaulted one may be missing;
* `Json.record`                a record, given by its members or by their values in order;
* `Json.index`                 a member of a loosely typed document: the last one given, `null` if
                               there is none.
-/

set_option linter.unusedVariables false

inductive Json where
  | null
  | bool (b : Bool)
  | num (n : Int)
  | float (text : String)
  | str (s : String)
  | arr (items : List Json)
  | obj (members : List (String × Json))

namespace Json

/-! ## text -/

def hexDigit (n : Nat) : Char := if n < 10 then Char.ofNat (48 + n) else Char.ofNat (87 + n)

/-- one character inside a string literal -/
def escape (c : Char) : String :=
  if c = '"' then "\\\""
  else if c = '\\' then "\\\\"
  else if c = '\x08' then "\\b"
  else if c = '\x0c' then "\\f"
  else if c = '\n' then "\\n"
  else if c = '\r' then "\\r"
  else if c = '\t' then "\\t"
  else if c.toNat < 32 then
    "\\u00" ++ String.ofList [hexDigit (c.toNat / 16), hexDigit (c.toNat % 16)]
  else String.singleton c

def quote (s : String) : String := "\"" ++ String.join (s.toList.map escape) ++ "\""

mutual

def render : Json → String
  | .null => "null"
  | .bool true => "true"
  | .bool false => "false"
  | .num n => toString n
  | .float text => text
  | .str s => quote s
  | .arr items => "[" ++ renderItems items ++ "]"
  | .obj members => "\x7b" ++ renderMembers members ++ "\x7d"

def renderItems : List Json → String
  | [] => ""
  | [j] => render j
  | j :: j' :: rest => render j ++ "," ++ renderItems (j' :: rest)

def renderMembers : List (String × Json) → String
  | [] => ""
  | [(k, j)] => quote k ++ ":" ++ render j
  | (k, j) :: m :: rest => quote k ++ ":" ++ render j ++ "," ++ renderMembers (m :: rest)

end

/-! ## scalars -/

def asStr : Json → Option String
  | .str s => some s
  | _ => none

/-- an integer between the given bounds -/
def asIntIn (lo hi : Int) : Json → Option Int
  | .num n => if lo ≤ n ∧ n ≤ hi then some n else none
  | _ => none

def asU8 (j : Json) : Option Nat := (j.asIntIn 0 255).map Int.toNat
def asU32 (j : Json) : Option Nat := (j.asIntIn 0 4294967295).map Int.toNat
def asU64 (j : Json) : Option Nat := (j.asIntIn 0 18446744073709551615).map Int.toNat
def asI64 (j : Json) : Option Int := j.asIntIn (-9223372036854775808) 9223372036854775807

/-- a list, every item of which is read by `dec` -/
def asList {α : Type} (dec : Json → Option α) : Json → Option (List α)
  | .arr items => items.mapM dec
  | _ => none

/-! ## members -/

/-- the member `key`: `none` if it is given twice -/
def lookup (key : String) (members : List (String × Json)) : Option (Option Json) :=
  match members.filter (fun m => m.1 = key) with
  | [] => some none
  | [m] => some (some m.2)
  | _ => none

def member (key : String) : Json → Option (Option Json)
  | .obj members => lookup key members
  | _ => none

def required {α : Type} (dec : Json → Option α) (key : String) (j : Json) : Option α :=
  match j.member key with
  | some (some v) => dec v
  | _ => none

def optional {α : Type} (dec : Json → Option α) (key : String) (j : Json) : Option (Option α) :=
  match j.member key with
  | some none => some none
  | some (some .null) => some none
  | some (some v) => (dec v).map some
  | none => none

def defaulted {α : Type} (dec : Json → Option α) (dflt : α) (key : String) (j : Json) : Option α :=
  match j.member key with
  | some none => some dflt
  | some (some v) => dec v
  | none => none

/-- a member that is there is read alike whether it has to be there or not -/
theorem defaulted_of_required {α : Type} {dec : Json → Option α} {dflt a : α} {key : String} {j : Json}
    (h : j.required dec key = some a) : j.defaulted dec dflt key = some a := by
  unfold required at h
  unfold defaulted
  split at h
  · next v hv =>
    rw [hv]
    exact h
  · cases h

/-! ## records -/

/-- A record may be given by its members, or as the list of their values in the order of its
fields.  The fields past the first `needed` may be left out at the end of the list. -/
def record {α : Type} (keys : List String) (needed : Nat) (dec : Json → Option α) :
    Json → Option α
  | .arr items =>
    if needed ≤ items.length ∧ items.length ≤ keys.length then dec (.obj (keys.zip items)) else none
  | j => dec j

@[simp] theorem record_obj {α : Type} (keys : List String) (needed : Nat) (dec : Json → Option α)
    (members : List (String × Json)) :
    record keys needed dec (.obj members) = dec (.obj members) := rfl

/-- what is read of a list is read of the members that it stands for -/
theorem record_arr_some {α : Type} {keys : List String} {needed : Nat} {dec : Json → Option α}
    {items : List Json} {a : α} (h : record keys needed dec (.arr items) = some a) :
    needed ≤ items.length ∧ items.length ≤ keys.length ∧ dec (.obj (keys.zip items)) = some a := by
  by_cases hlength : needed ≤ items.length ∧ items.length ≤ keys.length
  · rw [record, if_pos hlength] at h
    exact ⟨hlength.1, hlength.2, h⟩
  · rw [record, if_neg hlength] at h
    cases h

/-- a list has no members -/
theorem required_arr {α : Type} (dec : Json → Option α) (key : String) (items : List Json) :
    (Json.arr items).required dec key = none := rfl

/-- a document with a member is read by its members -/
theorem record_of_required {α β : Type} {keys : List String} {needed : Nat} {dec : Json → Option α}
    {read : Json → Option β} {key : String} {b : β} {j : Json} (h : j.required read key = some b) :
    record keys needed dec j = dec j := by
  cases j with
  | arr items =>
    rw [required_arr] at h
    cases h
  | _ => rfl

/-- a document that is no list is read by its members -/
theorem record_of_not_arr {α : Type} {keys : List String} {needed : Nat} {dec : Json → Option α}
    {j : Json} (h : ∀ items, j ≠ .arr items) : record keys needed dec j = dec j := by
  cases j with
  | arr items => exact absurd rfl (h items)
  | _ => rfl

/-- a member of a document that has no fixed shape -/
def index (key : String) : Json → Json
  | .obj members =>
    match members.reverse.find? (fun m => m.1 = key) with
    | some m => m.2
    | none => .null
  | _ => .null

/-- a member under another key is not looked at -/
theorem member_cons_ne {key key' : String} (h : key' ≠ key) (v : Json)
    (members : List (String × Json)) :
    (Json.obj ((key', v) :: members)).member key = (Json.obj members).member key := by
  show lookup key ((key', v) :: members) = lookup key members
  unfold lookup
  rw [List.filter_cons_of_neg (by simpa using h)]

end Json
