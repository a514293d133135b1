import Mathlib.Data.Rat.Encodable
import Mathlib.Data.String.Basic
import TrustRouter.Audit
import TrustRouter.Prelude.Collections
import TrustRouter.Prelude.JsonReading

/-!
# JSON libraries

`serde_json` writes the lines of the audit file and the bodies of responses, and whoever reads them
has a JSON library of his own.  Neither is part of the repository.  `SerdeJson` and `JsonReader` are
what is relied on: that a text is compact, that what has been written is read back, and that what is
no text is not read.

A reader is to read numbers exactly.  The text of an `f64` is nearer to it than to any other, so it
is enough that a text with a fraction or an exponent is read as an `f64`, and an integer as it is.

The writer and the reader of `JsonText` are one such pair (`SerdeJson.compact`,
`JsonReader.compact`).
-/

namespace TrustRouter

open JsonText

namespace Json

/-- A number that is not finite is `null`. -/
def numberValue : F64 → Value ℚ
  | .finite value => .number value
  | .nan | .negInf | .posInf => .null

mutual

/-- What a value says.  An object is a map from names, listed in their order. -/
def value : Json → Value ℚ
  | .null => .null
  | .bool value => .bool value
  | .unsigned value => .number value
  | .number value => numberValue value
  | .string value => .string value
  | .array items => .array (values items)
  | .object fields => .object (BTreeMap.ofList (fieldValues fields)).entries

def values : List Json → List (Value ℚ)
  | [] => []
  | item :: items => item.value :: values items

def fieldValues : List (String × Json) → List (String × Value ℚ)
  | [] => []
  | (key, item) :: fields => (key, item.value) :: fieldValues fields

end

theorem values_map_string (items : List String) :
    values (items.map string) = items.map Value.string := by
  induction items with
  | nil => rfl
  | cons item items ih => simp [values, value, ih]

theorem fieldValues_eq_map (fields : List (String × Json)) :
    fieldValues fields = fields.map fun field => (field.1, field.2.value) := by
  induction fields with
  | nil => rfl
  | cons field fields ih => simp [fieldValues, ih]

end Json

/-- `serde_json::to_string`, as far as it is documented. -/
class SerdeJson where
  toText : Json → String
  /-- A character in a string. -/
  escape : Char → List Char
  /-- The quotation mark, the backslash and the control characters are escaped, and no others. -/
  escape_of_plain : ∀ c, 32 ≤ c.toNat → c ≠ '"' → c ≠ '\\' → escape c = [c]
  toText_string : ∀ s, (toText (.string s)).toList = '"' :: (s.toList.flatMap escape ++ ['"'])
  /-- The fields of an object are written in some order, and nothing is put between them but a
  comma. -/
  toText_object : ∀ fields : List (String × Json), (fields.map Prod.fst).Nodup →
    ∃ ordered : List (List Char),
      ordered.Perm (fields.map fun field =>
        (toText (.string field.1)).toList ++ ':' :: (toText field.2).toList) ∧
      (toText (.object fields)).toList = '{' :: ([','].intercalate ordered ++ ['}'])
  /-- There are no line breaks between the parts of a text, and none in its strings. -/
  notControl_of_mem : ∀ json, ∀ c ∈ (toText json).toList, NotControl c

open SerdeJson (toText)

/-- A string that is written as it is. -/
def Plain (s : String) : Prop := ∀ c ∈ s.toList, 32 ≤ c.toNat ∧ c ≠ '"' ∧ c ≠ '\\'

instance (s : String) : Decidable (Plain s) := List.decidableBAll _ _

def quoted (s : String) : List Char := '"' :: (s.toList ++ ['"'])

/-- A reader of JSON texts. -/
class JsonReader [SerdeJson] where
  read : List Char → Option (Value ℚ)
  /-- What has been written is read back. -/
  read_toText : ∀ json, read (toText json).toList = some json.value
  /-- What is read is a JSON text, at least in its shape. -/
  shaped_of_read : ∀ {text value}, read text = some value → Shaped text

namespace SerdeJson

variable [SerdeJson]

theorem toText_of_plain {s : String} (plain : Plain s) :
    (toText (.string s)).toList = quoted s := by
  have same : s.toList.flatMap escape = s.toList.flatMap fun c => [c] :=
    List.flatMap_congr fun c mem => by
      obtain ⟨printable, quotation, backslash⟩ := plain c mem
      exact escape_of_plain c printable quotation backslash
  rw [toText_string, same, List.flatMap_singleton', quoted]

/-- A field of an object. -/
def fieldText (field : String × Json) : List Char :=
  (toText (.string field.1)).toList ++ ':' :: (toText field.2).toList

section Object

variable {fields : List (String × Json)} (nodup : (fields.map Prod.fst).Nodup)

include nodup

theorem isInfix_toText_object {field : String × Json} (mem : field ∈ fields) :
    fieldText field <:+: (toText (.object fields)).toList := by
  obtain ⟨ordered, perm, text⟩ := toText_object fields nodup
  rw [text]
  have listed : fieldText field ∈ ordered :=
    perm.mem_iff.mpr (List.mem_map_of_mem (f := fieldText) mem)
  obtain ⟨before, behind, eq⟩ := isInfix_intercalate ',' listed
  exact ⟨'{' :: before, behind ++ ['}'], by simp [← eq]⟩

theorem ends_toText_object :
    (toText (.object fields)).toList.head? = some '{' ∧
      (toText (.object fields)).toList.getLast? = some '}' := by
  obtain ⟨ordered, -, text⟩ := toText_object fields nodup
  rw [text, ← List.cons_append, List.getLast?_concat]
  exact ⟨rfl, rfl⟩

/-- An object begins with one of its names, if it has any. -/
theorem exists_first (some_ : fields ≠ []) :
    ∃ field ∈ fields, ∃ rest,
      (toText (.object fields)).toList = '{' :: (toText (.string field.1)).toList ++ rest := by
  obtain ⟨ordered, perm, text⟩ := toText_object fields nodup
  cases ordered with
  | nil => exact absurd (List.map_eq_nil_iff.mp perm.nil_eq.symm) some_
  | cons first others =>
      obtain ⟨field, mem, rfl⟩ := List.mem_map.mp (perm.mem_iff.mp (.head _))
      refine ⟨field, mem,
        ':' :: (toText field.2).toList ++ (others.flatMap (',' :: ·) ++ ['}']), ?_⟩
      rw [text, intercalate_cons]
      simp

end Object

theorem shaped_toText [JsonReader] (json : Json) : Shaped (toText json).toList :=
  JsonReader.shaped_of_read (JsonReader.read_toText json)

end SerdeJson

/-! ## One such pair -/

/-- The writer of `JsonText`. -/
@[reducible] def SerdeJson.compact [NumberText ℚ] : SerdeJson where
  toText json := String.ofList (write json.value)
  escape := JsonText.escape
  escape_of_plain c printable quotation backslash := by
    rcases escape_cases c with ⟨short, mem, -⟩ | ⟨control, -⟩ | ⟨-, -, -, eq⟩
    · have special : ∀ form ∈ shortForms, form.1.toNat < 32 ∨ form.1 = '"' ∨ form.1 = '\\' := by
        decide
      rcases special _ mem with control | same | same
      · exact absurd control (not_lt.mpr printable)
      · exact absurd same quotation
      · exact absurd same backslash
    · exact absurd control (not_lt.mpr printable)
    · exact eq
  toText_string s := by
    rw [String.toList_ofList, Json.value, write, quote]
    rfl
  toText_object fields nodup := by
    refine ⟨_, ?_, by rw [String.toList_ofList, Json.value, write_object]⟩
    simp only [String.toList_ofList, Json.value, write]
    have keys : ((Json.fieldValues fields).map Prod.fst).Nodup := by
      rw [Json.fieldValues_eq_map, List.map_map]
      exact nodup
    refine ((BTreeMap.entries_ofList_perm keys).map _).trans (List.Perm.of_eq ?_)
    rw [Json.fieldValues_eq_map, List.map_map]
    rfl
  notControl_of_mem json c mem := by
    rw [String.toList_ofList] at mem
    exact JsonText.notControl_of_mem_write _ c mem

/-- The reader of `JsonText`. -/
@[reducible] def JsonReader.compact [NumberText ℚ] :
    let _ := SerdeJson.compact
    JsonReader :=
  let _ := SerdeJson.compact
  { read := JsonText.read
    read_toText := fun json => by
      show JsonText.read (String.ofList (write json.value)).toList = _
      rw [String.toList_ofList, read_write]
    shaped_of_read := JsonText.shaped_of_read }

/-- The writer that has a table of the texts of numbers. -/
@[reducible] def SerdeJson.ofTable (table : NumberTable ℚ) : SerdeJson :=
  let _ := table.numberText
  .compact

@[reducible] def JsonReader.ofTable (table : NumberTable ℚ) :
    let _ := SerdeJson.ofTable table
    JsonReader :=
  let _ := table.numberText
  .compact

/-- The texts of the version of a plan and of the cost of an edge of which nothing is known. -/
def sampleNumbers : NumberTable ℚ where
  entries := [(1, "1"), (1 / 100, "0.01")]
  distinct := by decide
  isNumber := by decide

end TrustRouter
