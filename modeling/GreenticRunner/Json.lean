import Mathlib

/-! # JSON values

    The values that cross the effect and ledger boundary (`serde_json::Value`).
    A number is kept as the text `serde_json` prints for it, an object as its
    fields in key order (the map is a `BTreeMap`). -/

namespace Greentic

/-- `serde_json::Value`. -/
inductive Json where
  | null
  | bool (b : Bool)
  | num (text : String)
  | str (s : String)
  | arr (items : List Json)
  | obj (fields : List (String × Json))
  deriving Inhabited

namespace Json

/-- `Value::get` with a string key. -/
def get? (name : String) : Json → Option Json
  | .obj fields => (fields.find? fun f => f.1 == name).map (·.2)
  | _ => none

/-- `Value::as_str`. -/
def asStr? : Json → Option String
  | .str s => some s
  | _ => none

theorem eq_str_of_asStr? {v : Json} {s : String} (h : v.asStr? = some s) : v = .str s := by
  cases v with
  | str t => exact congrArg str (Option.some.inj h)
  | null => exact nomatch h
  | bool b => exact nomatch h
  | num t => exact nomatch h
  | arr items => exact nomatch h
  | obj fields => exact nomatch h

/-- `Value::as_bool`. -/
def asBool? : Json → Option Bool
  | .bool b => some b
  | _ => none

/-- `Value::is_null`. -/
def isNull : Json → Bool
  | .null => true
  | _ => false

/-- `Value::is_object`. -/
def isObject : Json → Bool
  | .obj _ => true
  | _ => false

/-- `Map::insert`: the map is ordered by key. -/
def setField : List (String × Json) → String → Json → List (String × Json)
  | [], name, v => [(name, v)]
  | (k, w) :: rest, name, v =>
      if name = k then (name, v) :: rest
      else if name < k then (name, v) :: (k, w) :: rest
      else (k, w) :: setField rest name v

/-- A field that was inserted. -/
theorem get?_setField_self (fields : List (String × Json)) (name : String) (v : Json) :
    (obj (setField fields name v)).get? name = some v := by
  induction fields with
  | nil => simp [setField, get?]
  | cons f rest ih =>
      obtain ⟨k, w⟩ := f
      unfold setField
      split
      · simp [get?]
      · split
        · simp [get?]
        · rename_i hne _
          rw [get?, List.find?_cons_of_neg (by simpa using Ne.symm hne)]
          exact ih

/-- The other fields stay. -/
theorem get?_setField_of_ne {name key : String} (h : key ≠ name) (fields : List (String × Json))
    (v : Json) : (obj (setField fields name v)).get? key = (obj fields).get? key := by
  induction fields with
  | nil => simp [setField, get?, h.symm]
  | cons f rest ih =>
      obtain ⟨k, w⟩ := f
      unfold setField
      split
      · rename_i heq
        subst heq
        simp [get?, List.find?_cons_of_neg, h.symm]
      · split
        · rw [get?, List.find?_cons_of_neg (by simpa using h.symm)]
          rfl
        · by_cases hk : k = key
          · simp [get?, hk]
          · rw [get?, List.find?_cons_of_neg (by simpa using hk), get?,
              List.find?_cons_of_neg (by simpa using hk)]
            exact ih

/-- One lowercase hexadecimal digit. -/
def hexDigit (n : Nat) : Char :=
  if n < 10 then Char.ofNat (48 + n) else Char.ofNat (87 + n)

/-- The escape `serde_json` writes for one character of a string. -/
def escapeChar (c : Char) : String :=
  if c = '"' then "\\\""
  else if c = '\\' then "\\\\"
  else if c = '\n' then "\\n"
  else if c = '\r' then "\\r"
  else if c = '\t' then "\\t"
  else if c.toNat = 8 then "\\b"
  else if c.toNat = 12 then "\\f"
  else if c.toNat < 32 then
    "\\u00" ++ String.singleton (hexDigit (c.toNat / 16)) ++
      String.singleton (hexDigit (c.toNat % 16))
  else String.singleton c

/-- A quoted JSON string. -/
def quote (s : String) : String :=
  "\"" ++ String.join (s.toList.map escapeChar) ++ "\""

mutual

/-- `Value::to_string`: compact JSON. -/
def render : Json → String
  | .null => "null"
  | .bool true => "true"
  | .bool false => "false"
  | .num text => text
  | .str s => quote s
  | .arr items => "[" ++ renderItems items ++ "]"
  | .obj fields => "\x7b" ++ renderFields fields ++ "\x7d"

/-- The items of an array, separated by commas. -/
def renderItems : List Json → String
  | [] => ""
  | [v] => render v
  | v :: w :: rest => render v ++ "," ++ renderItems (w :: rest)

/-- The fields of an object, separated by commas. -/
def renderFields : List (String × Json) → String
  | [] => ""
  | [(k, v)] => quote k ++ ":" ++ render v
  | (k, v) :: f :: rest => quote k ++ ":" ++ render v ++ "," ++ renderFields (f :: rest)

end

end Json

end Greentic
