import CEar.CString
import Mathlib.Data.List.Nodup

namespace CEar.JsonValue

open CString

/-- A JSON value. An object is a finite map: its keys are distinct, and listed
in the order in which an iteration visits them. -/
inductive Json
  | object (keys : List CStr) (nodup : keys.Nodup) (vals : Fin keys.length → Json)
  | array (size : Nat) (elems : Fin size → Json)
  | string (s : CStr)
  | integer (n : Int)
  | real (mantissa exponent : Int)
  | boolean (b : Bool)
  | null

/-- `json_object_get`: NULL for a missing key, and for anything but an object. -/
def jsonObjectGet : Option Json → CStr → Option Json
  | some (.object keys _ vals), key =>
      if h : keys.idxOf key < keys.length then some (vals ⟨keys.idxOf key, h⟩) else none
  | _, _ => none

/-- `json_string_value`: NULL unless `json_is_string`. -/
def jsonStringValue : Option Json → Option CStr
  | some (.string s) => some s
  | _ => none

/-- The keys `json_object_foreach` visits; none of a value that is no object. -/
def jsonObjectKeys : Option Json → List CStr
  | some (.object keys _ _) => keys
  | _ => []

def Json.isObject : Json → Bool
  | .object .. => true
  | _ => false

/-- `v` is an object, and `w` is its member of the name `key`. -/
def Json.HasMember (v : Json) (key : CStr) (w : Json) : Prop :=
  ∃ keys nodup vals i, v = .object keys nodup vals ∧ keys.get i = key ∧ vals i = w

/-- What `json_loads` accepts at the top level with no flags. -/
def Json.isContainer : Json → Bool
  | .object .. => true
  | .array .. => true
  | _ => false

/-- Equality of values. Objects are equal as maps, in whatever order their keys
are visited. -/
inductive JsonEqual : Json → Json → Prop
  | object {keys keys' nodup nodup' vals vals'} (hkeys : ∀ key, key ∈ keys ↔ key ∈ keys')
      (hvals : ∀ i j, keys.get i = keys'.get j → JsonEqual (vals i) (vals' j)) :
      JsonEqual (.object keys nodup vals) (.object keys' nodup' vals')
  | array {size elems elems'} (helems : ∀ i, JsonEqual (elems i) (elems' i)) :
      JsonEqual (.array size elems) (.array size elems')
  | string (s) : JsonEqual (.string s) (.string s)
  | integer (n) : JsonEqual (.integer n) (.integer n)
  | real (mantissa exponent) : JsonEqual (.real mantissa exponent) (.real mantissa exponent)
  | boolean (b) : JsonEqual (.boolean b) (.boolean b)
  | null : JsonEqual .null .null

theorem JsonEqual.refl (v : Json) : JsonEqual v v := by
  induction v with
  | object keys nodup vals ih =>
      refine .object (fun key => Iff.rfl) fun i j hij => ?_
      obtain rfl : i = j := List.nodup_iff_injective_get.mp nodup hij
      exact ih i
  | array size elems ih => exact .array ih
  | string s => exact .string s
  | integer n => exact .integer n
  | real mantissa exponent => exact .real mantissa exponent
  | boolean b => exact .boolean b
  | null => exact .null

theorem JsonEqual.isContainer_eq {v w : Json} (h : JsonEqual v w) :
    v.isContainer = w.isContainer := by
  cases h <;> rfl

@[simp] theorem jsonObjectGet_none (key : CStr) : jsonObjectGet none key = none := rfl

theorem jsonObjectGet_isSome_iff (v : Option Json) (key : CStr) :
    (jsonObjectGet v key).isSome = true ↔ key ∈ jsonObjectKeys v := by
  match v with
  | some (.object keys _ vals) =>
      simp only [jsonObjectGet, jsonObjectKeys]
      split
      next h => simpa using List.idxOf_lt_length_iff.mp h
      next h => simpa using fun hmem => h (List.idxOf_lt_length_iff.mpr hmem)
  | none | some (.array ..) | some (.string _) | some (.integer _) | some (.real ..)
  | some (.boolean _) | some .null => simp [jsonObjectGet, jsonObjectKeys]

theorem jsonObjectGet_eq_some_iff {v : Json} {key : CStr} {w : Json} :
    jsonObjectGet (some v) key = some w ↔ v.HasMember key w := by
  constructor
  · intro h
    cases v with
    | object keys nodup vals =>
        simp only [jsonObjectGet] at h
        split at h
        next hlt => exact ⟨keys, nodup, vals, ⟨_, hlt⟩, rfl, List.idxOf_get hlt, Option.some.inj h⟩
        next => cases h
    | _ => cases h
  · rintro ⟨keys, nodup, vals, i, rfl, rfl, rfl⟩
    have hlt : keys.idxOf (keys.get i) < keys.length := List.idxOf_lt_length_iff.mpr (List.get_mem keys i)
    have hi : (⟨keys.idxOf (keys.get i), hlt⟩ : Fin keys.length) = i :=
      List.nodup_iff_injective_get.mp nodup (List.idxOf_get hlt)
    rw [jsonObjectGet, dif_pos hlt, hi]

theorem jsonStringValue_eq_some_iff {v : Option Json} {s : CStr} :
    jsonStringValue v = some s ↔ v = some (.string s) := by
  match v with
  | none => simp [jsonStringValue]
  | some v => cases v <;> simp [jsonStringValue]

theorem jsonObjectGet_rel {v w : Option Json} (h : Option.Rel JsonEqual v w) (key : CStr) :
    Option.Rel JsonEqual (jsonObjectGet v key) (jsonObjectGet w key) := by
  cases h with
  | none => exact .none
  | some h =>
      cases h with
      | @object keys keys' nodup nodup' vals vals' hkeys hvals =>
          by_cases hkey : key ∈ keys
          · have hlt : keys.idxOf key < keys.length := List.idxOf_lt_length_iff.mpr hkey
            have hlt' : keys'.idxOf key < keys'.length :=
              List.idxOf_lt_length_iff.mpr ((hkeys key).mp hkey)
            rw [jsonObjectGet, dif_pos hlt, jsonObjectGet, dif_pos hlt']
            apply Option.Rel.some
            apply hvals
            exact (List.idxOf_get hlt).trans (List.idxOf_get hlt').symm
          · rw [jsonObjectGet, dif_neg fun h => hkey (List.idxOf_lt_length_iff.mp h), jsonObjectGet,
              dif_neg fun h => hkey ((hkeys key).mpr (List.idxOf_lt_length_iff.mp h))]
            exact .none
      | array | string | integer | real | boolean | null => exact .none

theorem jsonStringValue_congr {v w : Option Json} (h : Option.Rel JsonEqual v w) :
    jsonStringValue v = jsonStringValue w := by
  cases h with
  | none => rfl
  | some h => cases h <;> rfl

theorem jsonObjectKeys_perm {v w : Option Json} (h : Option.Rel JsonEqual v w) :
    (jsonObjectKeys v).Perm (jsonObjectKeys w) := by
  cases h with
  | none => exact .rfl
  | some h =>
      cases h with
      | @object keys keys' nodup nodup' vals vals' hkeys hvals =>
          exact (List.perm_ext_iff_of_nodup nodup nodup').mpr hkeys
      | array | string | integer | real | boolean | null => exact .rfl

end CEar.JsonValue
