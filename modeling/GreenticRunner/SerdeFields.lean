import GreenticRunner.AssocMap
import GreenticRunner.Json

/-! # Records as JSON objects

    How derived `Serialize` and `Deserialize` write and read the fields of a record: a field that is
    always written, one that is left out when empty, one that has a DEFAULT when it is missing, and the
    `Option` that is null when absent.

    * `Json.mapNumbers` — a value whose numbers were read back;
    * `Json.depth` — how deep a value nests. -/

namespace Greentic

open AssocMaps

/-! ## Numbers and nesting -/

mutual

/-- The value with `f` of every number. -/
def Json.mapNumbers (f : String → String) : Json → Json
  | .null => .null
  | .bool b => .bool b
  | .num text => .num (f text)
  | .str s => .str s
  | .arr items => .arr (mapNumbersItems f items)
  | .obj fields => .obj (mapNumbersFields f fields)

/-- The same for the items of an array. -/
def Json.mapNumbersItems (f : String → String) : List Json → List Json
  | [] => []
  | v :: rest => Json.mapNumbers f v :: mapNumbersItems f rest

/-- The same for the fields of an object. -/
def Json.mapNumbersFields (f : String → String) : List (String × Json) → List (String × Json)
  | [] => []
  | (k, v) :: rest => (k, Json.mapNumbers f v) :: mapNumbersFields f rest

end

mutual

/-- How many arrays and objects are nested. -/
def Json.depth : Json → Nat
  | .arr items => depthItems items + 1
  | .obj fields => depthFields fields + 1
  | _ => 0

/-- The deepest item. -/
def Json.depthItems : List Json → Nat
  | [] => 0
  | v :: rest => max (Json.depth v) (depthItems rest)

/-- The deepest field. -/
def Json.depthFields : List (String × Json) → Nat
  | [] => 0
  | (_, v) :: rest => max (Json.depth v) (depthFields rest)

end

namespace Json

variable {f : String → String}

/-- The items, one by one. -/
theorem mapNumbersItems_eq (items : List Json) : mapNumbersItems f items = items.map (mapNumbers f) := by
  induction items with
  | nil => rfl
  | cons v rest ih => rw [mapNumbersItems, ih, List.map_cons]

/-- The fields, one by one. -/
theorem mapNumbersFields_eq (fields : List (String × Json)) :
    mapNumbersFields f fields = fields.map fun p => (p.1, p.2.mapNumbers f) := by
  induction fields with
  | nil => rfl
  | cons p rest ih => rw [mapNumbersFields, ih, List.map_cons]

@[simp] theorem mapNumbers_null : mapNumbers f null = null := rfl
@[simp] theorem mapNumbers_bool (b : Bool) : mapNumbers f (bool b) = bool b := rfl
@[simp] theorem mapNumbers_str (s : String) : mapNumbers f (str s) = str s := rfl

@[simp] theorem mapNumbers_arr (items : List Json) :
    mapNumbers f (arr items) = arr (items.map (mapNumbers f)) :=
  congrArg arr (mapNumbersItems_eq items)

@[simp] theorem mapNumbers_obj (fields : List (String × Json)) :
    mapNumbers f (obj fields) = obj (fields.map fun p => (p.1, p.2.mapNumbers f)) :=
  congrArg obj (mapNumbersFields_eq fields)

/-- Only null becomes null. -/
theorem mapNumbers_eq_null {v : Json} : mapNumbers f v = null ↔ v = null := by
  cases v with
  | null => exact ⟨fun _ => rfl, fun _ => rfl⟩
  | bool b => exact ⟨fun h => (nomatch h), fun h => (nomatch h)⟩
  | num t => exact ⟨fun h => (nomatch h), fun h => (nomatch h)⟩
  | str t => exact ⟨fun h => (nomatch h), fun h => (nomatch h)⟩
  | arr items => exact ⟨fun h => (nomatch h), fun h => (nomatch h)⟩
  | obj fields => exact ⟨fun h => (nomatch h), fun h => (nomatch h)⟩

end Json

/-! ## Fields -/

namespace Serde

variable {α β : Type}

/-- A field that is left out when there is nothing in it. -/
def optional (name : String) (v : Option Json) : List (String × Json) := v.toList.map fun w => (name, w)

/-- `#[serde(default)]`. -/
def withDefault (fields : List (String × Json)) (name : String) (decode : Json → Option α)
    (default : α) : Option α :=
  match (Json.obj fields).get? name with
  | none => some default
  | some v => decode v

/-- A field that has to be there. -/
def required (fields : List (String × Json)) (name : String) (decode : Json → Option α) : Option α :=
  (Json.obj fields).get? name |>.bind decode

/-- The first field is found under its name. -/
theorem get?_cons_self (name : String) (v : Json) (rest : List (String × Json)) :
    (Json.obj ((name, v) :: rest)).get? name = some v := by
  simp [Json.get?]

/-- A field of another name is passed over. -/
theorem get?_cons_of_ne {k name : String} (h : k ≠ name) (v : Json) (rest : List (String × Json)) :
    (Json.obj ((k, v) :: rest)).get? name = (Json.obj rest).get? name := by
  simp [Json.get?, h]

/-- So is one that may have been left out. -/
theorem get?_optional_of_ne {k name : String} (h : k ≠ name) (v : Option Json)
    (rest : List (String × Json)) :
    (Json.obj (optional k v ++ rest)).get? name = (Json.obj rest).get? name := by
  cases v with
  | none => rfl
  | some w => exact get?_cons_of_ne h w rest

section Fields

variable {decode : Json → Option α} {d : α} {k name : String} {v : Json} {rest : List (String × Json)}

theorem required_cons_self : required ((name, v) :: rest) name decode = decode v := by
  rw [required, get?_cons_self, Option.bind_some]

/-- A field of another name in front does not matter. -/
theorem required_cons_of_ne (h : k ≠ name) :
    required ((k, v) :: rest) name decode = required rest name decode := by
  rw [required, get?_cons_of_ne h, required]

theorem required_optional_of_ne {w : Option Json} (h : k ≠ name) :
    required (optional k w ++ rest) name decode = required rest name decode := by
  rw [required, get?_optional_of_ne h, required]

theorem withDefault_nil : withDefault [] name decode d = some d := rfl

/-- A field with a default that is there is read. -/
theorem withDefault_cons_self : withDefault ((name, v) :: rest) name decode d = decode v := by
  rw [withDefault, get?_cons_self]

/-- A field of another name in front does not matter. -/
theorem withDefault_cons_of_ne (h : k ≠ name) :
    withDefault ((k, v) :: rest) name decode d = withDefault rest name decode d := by
  rw [withDefault, get?_cons_of_ne h, withDefault]

theorem withDefault_optional_of_ne {w : Option Json} (h : k ≠ name) :
    withDefault (optional k w ++ rest) name decode d = withDefault rest name decode d := by
  rw [withDefault, get?_optional_of_ne h, withDefault]

/-- A field that is there, or else is looked for further on. -/
theorem withDefault_optional_self {w : Option Json} :
    withDefault (optional name w ++ rest) name decode d =
      (w.map decode).getD (withDefault rest name decode d) := by
  cases w with
  | none => rfl
  | some v => exact withDefault_cons_self

end Fields

/-- The numbers of a field that may have been left out. -/
theorem mapNumbers_optional (f : String → String) (name : String) (v : Option Json) :
    (optional name v).map (fun p => (p.1, p.2.mapNumbers f)) = optional name (v.map (Json.mapNumbers f)) := by
  cases v <;> rfl

/-! ## Types -/

/-- `Option<T>`: null is nothing. -/
def decodeOption (decode : Json → Option α) : Json → Option (Option α)
  | .null => some none
  | v => (decode v).map some

/-- `Option<T>` as it is written where it is not left out. -/
def encodeOption (encode : α → Json) (v : Option α) : Json := (v.map encode).getD .null

/-- An option whose values are never null comes back. -/
theorem decodeOption_encode {encode : α → Json} {decode : Json → Option α}
    (hnull : ∀ a, encode a ≠ .null) (h : ∀ a, decode (encode a) = some a) (v : Option α) :
    decodeOption decode (encodeOption encode v) = some v := by
  cases v with
  | none => rfl
  | some a =>
      show decodeOption decode (encode a) = _
      unfold decodeOption
      split
      · rename_i heq
        exact absurd heq (hnull a)
      · rw [h]
        rfl

def decodeStr : Json → Option String := Json.asStr?

def decodeBool : Json → Option Bool := Json.asBool?

/-- `()`. -/
def decodeUnit : Json → Option Unit
  | .null => some ()
  | _ => none

/-- An unsigned number of some bits. -/
def decodeNat (bits : Nat) : Json → Option (Fin (2 ^ bits))
  | .num text => text.toNat?.bind fun n => if h : n < 2 ^ bits then some ⟨n, h⟩ else none
  | _ => none

def encodeNat (n : Nat) : Json := .num n.repr

/-- A counter that fits comes back. -/
theorem decodeNat_encode {bits : Nat} (n : Fin (2 ^ bits)) : decodeNat bits (encodeNat n.val) = some n := by
  rw [encodeNat, decodeNat, Nat.toNat?_repr, Option.bind_some, dif_pos n.isLt]

/-- `Vec<T>`. -/
def decodeList (decode : Json → Option α) : Json → Option (List α)
  | .arr items => items.mapM decode
  | _ => none

/-- Each item is read as what was written. -/
theorem mapM_decode {encode : β → Json} {decode : Json → Option α} {g : β → α}
    (h : ∀ b, decode (encode b) = some (g b)) (bs : List β) :
    (bs.map encode).mapM decode = some (bs.map g) := by
  induction bs with
  | nil => rfl
  | cons b bs ih => simp [List.mapM_cons, h, ih]

/-- A list comes back, item by item. -/
theorem decodeList_encode {encode : β → Json} {decode : Json → Option α} {g : β → α}
    (h : ∀ b, decode (encode b) = some (g b)) (bs : List β) :
    decodeList decode (.arr (bs.map encode)) = some (bs.map g) := mapM_decode h bs

/-- A map of fields; of two with one name the later one counts. -/
def ofFields : List (String × α) → AssocMap String α
  | [] => .empty
  | p :: rest =>
      let m := ofFields rest
      if h : p.1 ∈ m.entries.map (·.1) then m
      else ⟨p :: m.entries, List.nodup_cons.mpr ⟨h, m.nodup⟩⟩

/-- Fields without a repeated name are kept as they are. -/
theorem ofFields_of_nodup {fields : List (String × α)} (h : (fields.map (·.1)).Nodup) :
    ofFields fields = ⟨fields, h⟩ := by
  induction fields with
  | nil => rfl
  | cons p rest ih =>
      obtain ⟨hnot, hrest⟩ := List.nodup_cons.mp h
      simp only [ofFields, ih hrest]
      exact dif_neg hnot

/-- `HashMap<String, T>`. -/
def decodeMap (decode : Json → Option α) : Json → Option (AssocMap String α)
  | .obj fields => (fields.mapM fun p => (decode p.2).map (Prod.mk p.1)).map ofFields
  | _ => none

def encodeMap (encode : α → Json) (m : AssocMap String α) : Json :=
  .obj (m.entries.map fun p => (p.1, encode p.2))

/-- The map with `g` of every value. -/
def mapValues (g : α → β) (m : AssocMap String α) : AssocMap String β where
  entries := m.entries.map fun p => (p.1, g p.2)
  nodup := by
    rw [List.map_map]
    exact m.nodup

/-- A map comes back, value by value. -/
theorem decodeMap_encode {encode : β → Json} {decode : Json → Option α} {g : β → α}
    (h : ∀ b, decode (encode b) = some (g b)) (m : AssocMap String β) :
    decodeMap decode (encodeMap encode m) = some (mapValues g m) := by
  have hfields : (m.entries.map fun p => (p.1, encode p.2)).mapM
      (fun p => (decode p.2).map (Prod.mk p.1)) = some (mapValues g m).entries := by
    show _ = some (m.entries.map _)
    induction m.entries with
    | nil => rfl
    | cons p rest ih => simp [List.mapM_cons, h, ih]
  rw [encodeMap, decodeMap, hfields, Option.map_some, ofFields_of_nodup (mapValues g m).nodup]

/-- Nothing is done to any value. -/
theorem mapValues_id (m : AssocMap String α) : mapValues id m = m := by
  obtain ⟨entries, nodup⟩ := m
  simp [mapValues]

end Serde

end Greentic
