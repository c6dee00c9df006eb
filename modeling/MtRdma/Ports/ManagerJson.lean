import Mathlib.Data.List.Induction
import MtRdma.Verified.FlatJson

/-!
# json-c as the tenant manager uses it

The client and the daemon of the tenant manager exchange JSON texts through
json-c, which is not part of the repository.  Its calls are parameters here
(`JsonC`), and what is assumed of them is named: that a number or a string that
is put into an object comes out again (`JsonC.Lawful`), and, for one object at a
time, that its fields read the same after it was printed and parsed
(`JsonC.Arrives`).

A reader and printer of flat objects meets both (`flatJson_lawful`,
`flatJson_arrives`).  It prints an object as `json_object_to_json_string` does,
with a blank behind each mark.
-/

namespace MtRdma.Ports.TenantManager

open Verified.CText
open Verified

/-- The values that the client puts into an object. -/
inductive FieldValue where
  | int (n : Int32)
  | int64 (n : Int64)
  | string (text : List Char)
  deriving Repr, DecidableEq

/-- The calls of json-c.  `Obj` is `json_object *`, with `NULL`, which stands for
the JSON value `null`; `getString` answers `none` for a `NULL` pointer. -/
structure JsonC where
  Obj : Type
  /-- `json_object_new_object` -/
  newObject : Obj
  /-- `json_object_new_int` -/
  newInt : Int32 → Obj
  /-- `json_object_new_int64` -/
  newInt64 : Int64 → Obj
  /-- `json_object_new_string` -/
  newString : List Char → Obj
  /-- `json_object_object_add` -/
  objectAdd : Obj → String → Obj → Obj
  /-- `json_object_object_get_ex` -/
  objectGetEx : Obj → String → Option Obj
  /-- `json_object_get_int` -/
  getInt : Obj → Int32
  /-- `json_object_get_int64` -/
  getInt64 : Obj → Int64
  /-- `json_object_get_string` -/
  getString : Obj → Option (List Char)
  /-- `json_object_to_json_string` -/
  toJsonString : Obj → List Char
  /-- `json_tokener_parse` -/
  tokenerParse : List Char → Option Obj

namespace JsonC

variable (json : JsonC)

def value : FieldValue → json.Obj
  | .int n => json.newInt n
  | .int64 n => json.newInt64 n
  | .string text => json.newString text

@[simp] theorem value_int (n : Int32) : json.value (.int n) = json.newInt n := rfl

@[simp] theorem value_int64 (n : Int64) : json.value (.int64 n) = json.newInt64 n := rfl

@[simp] theorem value_string (text : List Char) :
    json.value (.string text) = json.newString text := rfl

/-- A new object, to which one field after the other is added. -/
def object (fields : List (String × FieldValue)) : json.Obj :=
  fields.foldl (fun o field => json.objectAdd o field.1 (json.value field.2)) json.newObject

/-- A field as `json_object_get_int` reads it. -/
def intField (o : json.Obj) (key : String) : Option Int32 :=
  (json.objectGetEx o key).map json.getInt

/-- A field as `json_object_get_int64` reads it. -/
def int64Field (o : json.Obj) (key : String) : Option Int64 :=
  (json.objectGetEx o key).map json.getInt64

/-- A field as `json_object_get_string` reads it; the inner `none` is a `NULL`
pointer. -/
def stringField (o : json.Obj) (key : String) : Option (Option (List Char)) :=
  (json.objectGetEx o key).map json.getString

/-- What is put into an object comes out again.  A field that is added twice has
the later value. -/
structure Lawful : Prop where
  getInt_newInt : ∀ n, json.getInt (json.newInt n) = n
  getInt64_newInt64 : ∀ n, json.getInt64 (json.newInt64 n) = n
  getString_newString : ∀ text, json.getString (json.newString text) = some text
  objectGetEx_object : ∀ fields key,
    json.objectGetEx (json.object fields) key = (fields.reverse.lookup key).map json.value

/-- Printed and parsed, the object is one whose fields read the same. -/
def Arrives (o : json.Obj) : Prop :=
  ∃ o', json.tokenerParse (json.toJsonString o) = some o' ∧
    ∀ key, json.intField o' key = json.intField o key ∧
      json.int64Field o' key = json.int64Field o key ∧
      json.stringField o' key = json.stringField o key

end JsonC

/-! ## Fields that have arrived -/

theorem lookup_cons_eq_ite {α : Type} (key : String) (field : String × α)
    (fields : List (String × α)) :
    (field :: fields).lookup key = if key = field.1 then some field.2 else fields.lookup key := by
  rw [List.lookup_cons]
  by_cases h : key = field.1
  · rw [if_pos h, beq_iff_eq.mpr h]
  · rw [if_neg h, beq_eq_false_iff_ne.mpr h]

/-- The fields of an object that the client built, as the daemon reads them from
the message. -/
structure Received (json : JsonC) (message : List Char) (fields : List (String × FieldValue))
    (o : json.Obj) : Prop where
  parsed : json.tokenerParse message = some o
  int : ∀ key, json.intField o key =
    (fields.reverse.lookup key).map fun v => json.getInt (json.value v)
  int64 : ∀ key, json.int64Field o key =
    (fields.reverse.lookup key).map fun v => json.getInt64 (json.value v)
  string : ∀ key, json.stringField o key =
    (fields.reverse.lookup key).map fun v => json.getString (json.value v)

theorem received_of_arrives {json : JsonC} (hjson : json.Lawful)
    {fields : List (String × FieldValue)} (harrives : json.Arrives (json.object fields)) :
    ∃ o, Received json (json.toJsonString (json.object fields)) fields o := by
  obtain ⟨o, hparse, hsame⟩ := harrives
  have hget := hjson.objectGetEx_object fields
  refine ⟨o, hparse, fun key => ?_, fun key => ?_, fun key => ?_⟩
  · rw [(hsame key).1, JsonC.intField, hget, Option.map_map]
    rfl
  · rw [(hsame key).2.1, JsonC.int64Field, hget, Option.map_map]
    rfl
  · rw [(hsame key).2.2, JsonC.stringField, hget, Option.map_map]
    rfl

theorem Received.string_eq {json : JsonC} (hjson : json.Lawful) {message text : List Char}
    {fields : List (String × FieldValue)} {o : json.Obj} {key : String}
    (h : Received json message fields o)
    (hfield : fields.reverse.lookup key = some (.string text)) :
    json.stringField o key = some (some text) := by
  rw [h.string, hfield, Option.map_some, JsonC.value_string, hjson.getString_newString]

/-! ## Flat objects -/

/-- A value, or an object of values. -/
inductive FlatValue where
  | scalar (v : FlatJson.Scalar)
  | object (fields : FlatJson.Fields)
  deriving Repr, DecidableEq

namespace FlatValue

/-- The number that a value stands for: of a string, what `strtol` makes of it. -/
def number : FlatValue → Int
  | .scalar (.int n) => n
  | .scalar (.string text) => strtol text
  | .object _ => 0

def add (o : FlatValue) (key : String) (v : FlatValue) : FlatValue :=
  match o, v with
  | .object fields, .scalar v => .object (fields.filter (·.1 ≠ key) ++ [(key, v)])
  | o, _ => o

def get (o : FlatValue) (key : String) : Option FlatValue :=
  match o with
  | .object fields => (fields.lookup key).map .scalar
  | .scalar _ => none

def text : FlatValue → List Char
  | .scalar (.int n) => signedDecimal n
  | .scalar (.string text) => text
  | .object fields => FlatJson.print fields

end FlatValue

/-- A json-c for objects of numbers and strings.  Numbers stay within the type
that is asked for. -/
def flatJson : JsonC where
  Obj := FlatValue
  newObject := .object []
  newInt n := .scalar (.int n.toInt)
  newInt64 n := .scalar (.int n.toInt)
  newString text := .scalar (.string text)
  objectAdd := FlatValue.add
  objectGetEx := FlatValue.get
  getInt v := Int32.ofInt (max (min v.number (2 ^ 31 - 1)) (-2 ^ 31))
  getInt64 v := Int64.ofInt (max (min v.number (2 ^ 63 - 1)) (-2 ^ 63))
  getString v := some v.text
  toJsonString := FlatValue.text
  tokenerParse text := (FlatJson.parse text).map .object

theorem flatJson_getInt_newInt (n : Int32) : flatJson.getInt (flatJson.newInt n) = n := by
  have hlo : -2 ^ 31 ≤ n.toInt := Int32.le_toInt n
  have hhi : n.toInt < 2 ^ 31 := Int32.toInt_lt n
  have hclamp : max (min n.toInt (2 ^ 31 - 1)) (-2 ^ 31) = n.toInt := by omega
  show Int32.ofInt (max (min n.toInt (2 ^ 31 - 1)) (-2 ^ 31)) = n
  rw [hclamp, Int32.ofInt_toInt]

theorem flatJson_getInt64_newInt64 (n : Int64) :
    flatJson.getInt64 (flatJson.newInt64 n) = n := by
  have hlo : -2 ^ 63 ≤ n.toInt := Int64.le_toInt n
  have hhi : n.toInt < 2 ^ 63 := Int64.toInt_lt n
  have hclamp : max (min n.toInt (2 ^ 63 - 1)) (-2 ^ 63) = n.toInt := by omega
  show Int64.ofInt (max (min n.toInt (2 ^ 63 - 1)) (-2 ^ 63)) = n
  rw [hclamp, Int64.ofInt_toInt]

theorem flatJson_value (v : FieldValue) : ∃ scalar, flatJson.value v = .scalar scalar := by
  cases v with
  | int | int64 | string => exact ⟨_, rfl⟩

/-- The field that was added is found, and every other one as before. -/
theorem lookup_add (fields : FlatJson.Fields) (key key' : String) (v : FlatJson.Scalar) :
    (fields.filter (·.1 ≠ key) ++ [(key, v)]).lookup key' =
      if key' = key then some v else fields.lookup key' := by
  induction fields with
  | nil => exact lookup_cons_eq_ite key' (key, v) []
  | cons field fields ih =>
      rw [lookup_cons_eq_ite]
      by_cases hkey : field.1 = key
      · rw [List.filter_cons_of_neg (by simp [hkey]), ih, hkey]
        split <;> rfl
      · rw [List.filter_cons_of_pos (by simp [hkey]), List.cons_append, lookup_cons_eq_ite, ih]
        by_cases h : key' = field.1
        · rw [if_pos h, if_pos h, if_neg (fun heq => hkey (h.symm.trans heq))]
        · rw [if_neg h, if_neg h]

theorem flatJson_object (fields : List (String × FieldValue)) :
    ∃ flat, flatJson.object fields = .object flat ∧
      ∀ key, (flat.lookup key).map FlatValue.scalar =
        (fields.reverse.lookup key).map flatJson.value := by
  induction fields using List.reverseRecOn with
  | nil => exact ⟨[], rfl, fun key => rfl⟩
  | append_singleton fields field ih =>
      obtain ⟨flat, hflat, hlookup⟩ := ih
      obtain ⟨v, hv⟩ := flatJson_value field.2
      refine ⟨flat.filter (·.1 ≠ field.1) ++ [(field.1, v)], ?_, fun key => ?_⟩
      · have hadd : flatJson.object (fields ++ [field]) =
            FlatValue.add (flatJson.object fields) field.1 (flatJson.value field.2) :=
          List.foldl_append
        rw [hadd, hflat, hv]
        rfl
      · rw [lookup_add, List.reverse_append, List.reverse_singleton, List.singleton_append,
          lookup_cons_eq_ite]
        by_cases h : key = field.1
        · rw [if_pos h, if_pos h]
          exact congrArg some hv.symm
        · rw [if_neg h, if_neg h, hlookup]

theorem flatJson_lawful : flatJson.Lawful where
  getInt_newInt := flatJson_getInt_newInt
  getInt64_newInt64 := flatJson_getInt64_newInt64
  getString_newString := fun _ => rfl
  objectGetEx_object := by
    intro fields key
    obtain ⟨flat, hflat, hlookup⟩ := flatJson_object fields
    rw [hflat]
    exact hlookup key

/-- Every object that is built arrives as it is. -/
theorem flatJson_arrives (fields : List (String × FieldValue)) :
    flatJson.Arrives (flatJson.object fields) := by
  obtain ⟨flat, hflat, -⟩ := flatJson_object fields
  refine ⟨flatJson.object fields, ?_, fun key => ⟨rfl, rfl, rfl⟩⟩
  rw [hflat]
  exact congrArg (Option.map FlatValue.object) (FlatJson.parse_print flat)

/-- The text of an object with a number and a string. -/
example : flatJson.toJsonString (flatJson.object [("tenant", .int (-1)), ("name", .string ['a'])]) =
    "\x7b \"tenant\": -1, \"name\": \"a\" \x7d".toList := by
  decide +kernel

end MtRdma.Ports.TenantManager
