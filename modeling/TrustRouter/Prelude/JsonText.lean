import Mathlib.Data.List.Basic
import Mathlib.Data.List.Infix
import Mathlib.Data.List.Nodup
import Mathlib.Logic.Encodable.Basic
import Mathlib.Tactic.Common

/-!
# JSON texts

The compact text of a JSON value (no blanks, one line), and a reader of such texts.  What is
written is read back, whatever follows it (`readValue_write`), so that a text has at most one
value.  How numbers are written is a parameter, `NumberText`.

Strings are escaped the way a compact writer does it: the quotation mark, the backslash and the
control characters, five of which have a short form.  So a text has no control character in it
(`notControl_of_mem_write`), and no line break in particular, and a scan that tells what is
inside a string from what is outside comes out of a text as it went in (`after_write`).
-/

namespace TrustRouter

namespace JsonText

/-- The characters of a number. -/
def isNumberChar (c : Char) : Bool :=
  c.isDigit || c = '-' || c = '+' || c = '.' || c = 'e' || c = 'E'

/-- How numbers are written, and read. -/
class NumberText (ν : Type) where
  text : ν → List Char
  value : List Char → Option ν
  value_text : ∀ number, value (text number) = some number
  text_ne_nil : ∀ number, text number ≠ []
  isNumberChar_of_mem : ∀ number, ∀ c ∈ text number, isNumberChar c = true

/-- A table of numbers and the texts they have. -/
structure NumberTable (ν : Type) where
  entries : List (ν × String)
  distinct : (entries.map Prod.snd).Nodup
  isNumber : ∀ entry ∈ entries, entry.2.toList ≠ [] ∧
    entry.2.toList.all isNumberChar = true ∧ entry.2.toList.head? ≠ some 'e'

/-- Whatever can be counted can be written: by a table, and as `e` and a number otherwise. -/
@[reducible] def NumberTable.numberText {ν : Type} [Encodable ν] [DecidableEq ν]
    (table : NumberTable ν) : NumberText ν where
  text number := ((table.entries.lookup number).map String.toList).getD
    ('e' :: Nat.toDigits 10 (Encodable.encode number))
  value text :=
    match table.entries.find? (·.2.toList = text) with
    | some entry => some entry.1
    | none => Encodable.decode (Nat.ofDigitChars 10 text.tail 0)
  value_text number := by
    cases found : table.entries.lookup number with
    | none =>
        have absent : table.entries.find? (·.2.toList =
            'e' :: Nat.toDigits 10 (Encodable.encode number)) = none := by
          refine List.find?_eq_none.mpr fun entry mem same => ?_
          rw [decide_eq_true_eq] at same
          exact (table.isNumber entry mem).2.2 (by rw [same]; rfl)
        simp [absent, Nat.ofDigitChars_ten_toDigits]
    | some text =>
        have listed : (number, text) ∈ table.entries := by
          obtain ⟨before, after, eq, -⟩ := List.lookup_eq_some_iff.mp found
          simp [eq]
        have isText : (table.entries.find? (·.2.toList = text.toList)).isSome = true :=
          List.find?_isSome.mpr ⟨_, listed, decide_eq_true rfl⟩
        obtain ⟨entry, isEntry⟩ := Option.isSome_iff_exists.mp isText
        have same := List.find?_some isEntry
        rw [decide_eq_true_eq, String.toList_inj] at same
        obtain rfl := List.inj_on_of_nodup_map table.distinct (List.mem_of_find?_eq_some isEntry)
          listed same
        simp [isEntry]
  text_ne_nil number := by
    cases found : table.entries.lookup number with
    | none => exact List.cons_ne_nil _ _
    | some text =>
        obtain ⟨before, after, eq, -⟩ := List.lookup_eq_some_iff.mp found
        exact (table.isNumber (number, text) (by simp [eq])).1
  isNumberChar_of_mem number c mem := by
    cases found : table.entries.lookup number with
    | none =>
        rw [found] at mem
        rcases List.mem_cons.mp mem with rfl | digit
        · rfl
        · have digit := Nat.isDigit_of_mem_toDigits (by decide) (by decide) digit
          simp [isNumberChar, digit]
    | some text =>
        rw [found] at mem
        obtain ⟨before, after, eq, -⟩ := List.lookup_eq_some_iff.mp found
        exact List.all_eq_true.mp (table.isNumber (number, text) (by simp [eq])).2.1 c mem

inductive Value (ν : Type) where
  | null
  | bool (value : Bool)
  | number (value : ν)
  | string (value : String)
  | array (items : List (Value ν))
  | object (fields : List (String × Value ν))

/-! ## Strings -/

def hexDigit (n : ℕ) : Char := "0123456789abcdef".toList.getD n '0'

def readHexDigit (c : Char) : Option ℕ :=
  let place := "0123456789abcdef".toList.idxOf c
  if place < 16 then some place else none

theorem readHexDigit_hexDigit : ∀ n < 16, readHexDigit (hexDigit n) = some n := by decide

/-- The short forms: what is escaped, and what it is written as. -/
def shortForms : List (Char × Char) :=
  [('"', '"'), ('\\', '\\'), ('\x08', 'b'), ('\t', 't'), ('\n', 'n'), ('\x0c', 'f'), ('\r', 'r')]

/-- A character inside a string. -/
def escape (c : Char) : List Char :=
  match shortForms.lookup c with
  | some short => ['\\', short]
  | none =>
      if c.toNat < 32 then
        ['\\', 'u', '0', '0', hexDigit (c.toNat / 16), hexDigit (c.toNat % 16)]
      else [c]

def quote (s : String) : List Char := '"' :: s.toList.flatMap escape ++ ['"']

/-- The character behind `\u`, of which only those below `U+0100` are read. -/
def readUnicode : List Char → Option Char
  | ['0', '0', high, low] => do
      let high ← readHexDigit high
      let low ← readHexDigit low
      return Char.ofNat (16 * high + low)
  | _ => none

/-- The characters up to the closing quotation mark, and what follows it. -/
def readString : List Char → Option (List Char × List Char)
  | [] => none
  | c :: rest =>
      if c = '"' then some ([], rest)
      else if c = '\\' then
        match rest with
        | [] => none
        | 'u' :: a :: b :: c :: d :: rest => do
            let character ← readUnicode [a, b, c, d]
            let (characters, rest) ← readString rest
            return (character :: characters, rest)
        | short :: rest => do
            let (character, _) ← shortForms.find? (·.2 = short)
            let (characters, rest) ← readString rest
            return (character :: characters, rest)
      else do
        let (characters, rest) ← readString rest
        return (c :: characters, rest)

/-- An escaped character is short, or a control character, or itself. -/
theorem escape_cases (c : Char) :
    (∃ short, (c, short) ∈ shortForms ∧ escape c = ['\\', short]) ∨
      (c.toNat < 32 ∧ escape c =
        ['\\', 'u', '0', '0', hexDigit (c.toNat / 16), hexDigit (c.toNat % 16)]) ∨
      (32 ≤ c.toNat ∧ c ≠ '"' ∧ c ≠ '\\' ∧ escape c = [c]) := by
  unfold escape
  cases found : shortForms.lookup c with
  | some short =>
      refine Or.inl ⟨short, ?_, rfl⟩
      obtain ⟨before, after, eq, -⟩ := List.lookup_eq_some_iff.mp found
      rw [eq]
      simp
  | none =>
      have absent := List.lookup_eq_none_iff.mp found
      split_ifs with control
      · exact Or.inr (Or.inl ⟨control, rfl⟩)
      · refine Or.inr (Or.inr ⟨not_lt.mp control, ?_, ?_, rfl⟩)
        · rintro rfl
          exact absurd (absent ('"', '"') (by decide)) (by decide)
        · rintro rfl
          exact absurd (absent ('\\', '\\') (by decide)) (by decide)

/-- One escaped character is read back. -/
theorem readString_escape (c : Char) (text : List Char) :
    readString (escape c ++ text) =
      (readString text).map fun read => (c :: read.1, read.2) := by
  rcases escape_cases c with ⟨short, mem, eq⟩ | ⟨control, eq⟩ | ⟨-, quotation, backslash, eq⟩
  · have found : shortForms.find? (·.2 = short) = some (c, short) ∧ short ≠ 'u' := by
      revert mem
      simp only [shortForms, List.mem_cons, List.not_mem_nil, or_false, Prod.mk.injEq]
      rintro (⟨rfl, rfl⟩ | ⟨rfl, rfl⟩ | ⟨rfl, rfl⟩ | ⟨rfl, rfl⟩ | ⟨rfl, rfl⟩ | ⟨rfl, rfl⟩ |
        ⟨rfl, rfl⟩) <;> decide
    rw [eq, List.cons_append, List.cons_append, List.nil_append, readString.eq_def]
    simp only [Char.reduceEq, if_false, if_true]
    split
    · next same => cases same
    · next same => exact absurd (List.cons.inj same).1 found.2
    · next same =>
        obtain ⟨rfl, rfl⟩ := List.cons.inj same
        rw [found.1]
        cases readString text <;> rfl
  · have high := readHexDigit_hexDigit (c.toNat / 16) (by omega)
    have low := readHexDigit_hexDigit (c.toNat % 16) (by omega)
    have sum : Char.ofNat (16 * (c.toNat / 16) + c.toNat % 16) = c := by
      rw [Nat.div_add_mod, Char.ofNat_toNat]
    rw [eq]
    simp only [List.cons_append, List.nil_append, readString, Char.reduceEq, if_false, if_true,
      readUnicode, high, low, sum, Option.bind_eq_bind, Option.bind_some, Option.pure_def]
    cases readString text <;> rfl
  · rw [eq, List.cons_append, List.nil_append, readString.eq_def]
    simp only [quotation, backslash, if_false]
    cases readString text <;> rfl

/-- A quoted string is read back. -/
theorem readString_quote (characters : List Char) (rest : List Char) :
    readString (characters.flatMap escape ++ '"' :: rest) = some (characters, rest) := by
  induction characters with
  | nil => rw [List.flatMap_nil, List.nil_append, readString.eq_def]; rfl
  | cons c characters ih =>
      rw [List.flatMap_cons, List.append_assoc, readString_escape, ih]
      rfl

/-! ## Values -/

section Values

variable {ν : Type} [NumberText ν]

mutual

/-- The text of a value. -/
def write : Value ν → List Char
  | .null => "null".toList
  | .bool true => "true".toList
  | .bool false => "false".toList
  | .number value => NumberText.text value
  | .string value => quote value
  | .array [] => ['[', ']']
  | .array (item :: items) => '[' :: write item ++ writeItems items
  | .object [] => ['{', '}']
  | .object ((key, value) :: fields) =>
      '{' :: quote key ++ ':' :: write value ++ writeFields fields

/-- The items of an array after the first. -/
def writeItems : List (Value ν) → List Char
  | [] => [']']
  | item :: items => ',' :: write item ++ writeItems items

/-- The fields of an object after the first. -/
def writeFields : List (String × Value ν) → List Char
  | [] => ['}']
  | (key, value) :: fields => ',' :: quote key ++ ':' :: write value ++ writeFields fields

end

/-- What is left of a text after a word it starts with. -/
def readWord (word text : List Char) : Option (List Char) :=
  if word <+: text then some (text.drop word.length) else none

@[simp] theorem readWord_append (word rest : List Char) :
    readWord word (word ++ rest) = some rest := by
  simp [readWord]

@[simp] theorem readWord_cons (c : Char) (rest : List Char) :
    readWord [c] (c :: rest) = some rest := readWord_append [c] rest

def readNumber (text : List Char) : Option (Value ν × List Char) := do
  let number ← NumberText.value (text.takeWhile isNumberChar)
  return (.number number, text.dropWhile isNumberChar)

/-- A string at the beginning of a text, with its quotation marks. -/
def readQuoted (text : List Char) : Option (String × List Char) := do
  let (characters, rest) ← readString (← readWord ['"'] text)
  return (String.ofList characters, rest)

mutual

/-- The value at the beginning of a text, and what follows it.  The fuel bounds the depth. -/
def readValue : ℕ → List Char → Option (Value ν × List Char)
  | 0, _ => none
  | _, [] => none
  | fuel + 1, c :: rest =>
      if c = 'n' then do return (.null, ← readWord "ull".toList rest)
      else if c = 't' then do return (.bool true, ← readWord "rue".toList rest)
      else if c = 'f' then do return (.bool false, ← readWord "alse".toList rest)
      else if c = '"' then do
        let (characters, rest) ← readString rest
        return (.string (String.ofList characters), rest)
      else if c = '[' then
        if rest.head? = some ']' then some (.array [], rest.tail)
        else do
          let (item, rest) ← readValue fuel rest
          let (items, rest) ← readItems fuel rest
          return (.array (item :: items), rest)
      else if c = '{' then
        if rest.head? = some '}' then some (.object [], rest.tail)
        else do
          let (key, rest) ← readQuoted rest
          let (value, rest) ← readValue fuel (← readWord [':'] rest)
          let (fields, rest) ← readFields fuel rest
          return (.object ((key, value) :: fields), rest)
      else readNumber (c :: rest)

/-- The items of an array after the first. -/
def readItems : ℕ → List Char → Option (List (Value ν) × List Char)
  | 0, _ => none
  | fuel + 1, text =>
      if text.head? = some ']' then some ([], text.tail)
      else do
        let (item, rest) ← readValue fuel (← readWord [','] text)
        let (items, rest) ← readItems fuel rest
        return (item :: items, rest)

/-- The fields of an object after the first. -/
def readFields : ℕ → List Char → Option (List (String × Value ν) × List Char)
  | 0, _ => none
  | fuel + 1, text =>
      if text.head? = some '}' then some ([], text.tail)
      else do
        let (key, rest) ← readQuoted (← readWord [','] text)
        let (value, rest) ← readValue fuel (← readWord [':'] rest)
        let (fields, rest) ← readFields fuel rest
        return ((key, value) :: fields, rest)

end

/-- The value of a whole text. -/
def read (text : List Char) : Option (Value ν) :=
  (readValue text.length text).bind fun read => if read.2 = [] then some read.1 else none

/-! ### Round trip -/

/-- A text that does not go on with a number. -/
def NoNumber (text : List Char) : Prop := ∀ c ∈ text.head?, isNumberChar c = false

theorem noNumber_nil : NoNumber [] := by simp [NoNumber]

theorem noNumber_cons {c : Char} {text : List Char} (other : isNumberChar c = false) :
    NoNumber (c :: text) := by simpa [NoNumber] using other

variable (ν) in
theorem readNumber_text (number : ν) {rest : List Char} (ends : NoNumber rest) :
    readNumber (NumberText.text number ++ rest) = some (.number number, rest) := by
  have all := NumberText.isNumberChar_of_mem number
  have stops : rest.takeWhile isNumberChar = [] ∧ rest.dropWhile isNumberChar = rest := by
    cases rest with
    | nil => simp
    | cons c rest =>
        have other : isNumberChar c = false := ends c rfl
        simp [other]
  rw [readNumber, List.takeWhile_append_of_pos all, List.dropWhile_append_of_pos all, stops.1,
    stops.2, List.append_nil, NumberText.value_text]
  rfl

theorem readQuoted_quote (s : String) (rest : List Char) :
    readQuoted (quote s ++ rest) = some (s, rest) := by
  have read := readString_quote s.toList rest
  have word := readWord_append ['"'] (s.toList.flatMap escape ++ '"' :: rest)
  simp only [List.singleton_append] at word
  simp [readQuoted, quote, word, read]

/-- A value does not begin with a closing bracket. -/
theorem head_write_ne (value : Value ν) (rest : List Char) :
    (write value ++ rest).head? ≠ some ']' := by
  cases value with
  | number number =>
      have allowed := NumberText.isNumberChar_of_mem number
      have nonempty := NumberText.text_ne_nil number
      cases text : NumberText.text number with
      | nil => exact absurd text nonempty
      | cons c cs =>
          rw [write, text, List.cons_append, List.head?_cons]
          rintro ⟨⟩
          exact absurd (allowed ']' (by simp [text])) (by decide)
  | bool value => cases value <;> simp [write]
  | array items => cases items <;> simp [write]
  | object fields => cases fields <;> simp [write]
  | _ => simp [write, quote]

theorem noNumber_writeItems (items : List (Value ν)) (rest : List Char) :
    NoNumber (writeItems items ++ rest) := by
  cases items <;> exact noNumber_cons (by decide)

theorem noNumber_writeFields (fields : List (String × Value ν)) (rest : List Char) :
    NoNumber (writeFields fields ++ rest) := by
  cases fields <;> exact noNumber_cons (by decide)

theorem readValue_number {fuel : ℕ} (number : ν) {rest : List Char} (ends : NoNumber rest) :
    readValue (fuel + 1) (NumberText.text number ++ rest) = some (.number number, rest) := by
  have allowed := NumberText.isNumberChar_of_mem number
  have read := readNumber_text ν number ends
  cases text : NumberText.text number with
  | nil => exact absurd text (NumberText.text_ne_nil number)
  | cons c cs =>
      rw [text] at read
      have other : ∀ d, isNumberChar d = false → c ≠ d := by
        rintro d notNumber rfl
        exact absurd (allowed c (by simp [text])) (by simp [notNumber])
      rw [List.cons_append, readValue, if_neg (other 'n' (by decide)),
        if_neg (other 't' (by decide)), if_neg (other 'f' (by decide)),
        if_neg (other '"' (by decide)), if_neg (other '[' (by decide)),
        if_neg (other '{' (by decide))]
      exact read

mutual

/-- **What is written is read back**, whatever follows it. -/
theorem readValue_write : ∀ (value : Value ν) (fuel : ℕ) (rest : List Char),
    (write value).length ≤ fuel → NoNumber rest →
      readValue fuel (write value ++ rest) = some (value, rest)
  | .null, fuel + 1, rest, _, _ => by
      show readValue (fuel + 1) ('n' :: ("ull".toList ++ rest)) = _
      simp only [readValue, readWord_append, Char.reduceEq, if_true, if_false]
      rfl
  | .bool true, fuel + 1, rest, _, _ => by
      show readValue (fuel + 1) ('t' :: ("rue".toList ++ rest)) = _
      simp only [readValue, readWord_append, Char.reduceEq, if_true, if_false]
      rfl
  | .bool false, fuel + 1, rest, _, _ => by
      show readValue (fuel + 1) ('f' :: ("alse".toList ++ rest)) = _
      simp only [readValue, readWord_append, Char.reduceEq, if_true, if_false]
      rfl
  | .number number, fuel + 1, rest, _, ends => readValue_number number ends
  | .string value, fuel + 1, rest, _, _ => by
      simp [write, quote, readValue, readString_quote]
  | .array [], fuel + 1, rest, _, _ => by simp [write, readValue]
  | .array (item :: items), fuel + 1, rest, enough, _ => by
      simp only [write, List.length_cons, List.length_append] at enough
      have first := readValue_write item fuel (writeItems items ++ rest) (by omega)
        (noNumber_writeItems items rest)
      have others := readItems_writeItems items fuel rest (by omega)
      simp [write, readValue, head_write_ne, first, others, -List.head?_append]
  | .object [], fuel + 1, rest, _, _ => by simp [write, readValue]
  | .object ((key, value) :: fields), fuel + 1, rest, enough, _ => by
      simp only [write, List.length_cons, List.length_append] at enough
      have first := readValue_write value fuel (writeFields fields ++ rest) (by omega)
        (noNumber_writeFields fields rest)
      have others := readFields_writeFields fields fuel rest (by omega)
      have named := readQuoted_quote key (':' :: (write value ++ (writeFields fields ++ rest)))
      have opens : (quote key).head? = some '"' := by simp [quote]
      simp [write, readValue, opens, named, first, others]
  | .null, 0, _, enough, _ | .bool true, 0, _, enough, _ | .bool false, 0, _, enough, _
  | .string _, 0, _, enough, _ | .array [], 0, _, enough, _ | .array (_ :: _), 0, _, enough, _
  | .object [], 0, _, enough, _ | .object (_ :: _), 0, _, enough, _ => by
      simp [write, quote] at enough
  | .number number, 0, _, enough, _ =>
      absurd (List.length_eq_zero_iff.mp (Nat.le_zero.mp enough)) (NumberText.text_ne_nil number)

theorem readItems_writeItems : ∀ (items : List (Value ν)) (fuel : ℕ) (rest : List Char),
    (writeItems items).length ≤ fuel →
      readItems fuel (writeItems items ++ rest) = some (items, rest)
  | [], fuel + 1, rest, _ => by simp [writeItems, readItems]
  | item :: items, fuel + 1, rest, enough => by
      simp only [writeItems, List.length_cons, List.length_append] at enough
      have first := readValue_write item fuel (writeItems items ++ rest) (by omega)
        (noNumber_writeItems items rest)
      have others := readItems_writeItems items fuel rest (by omega)
      simp [writeItems, readItems, first, others]
  | [], 0, _, enough | _ :: _, 0, _, enough => by simp [writeItems] at enough

theorem readFields_writeFields : ∀ (fields : List (String × Value ν)) (fuel : ℕ)
    (rest : List Char), (writeFields fields).length ≤ fuel →
      readFields fuel (writeFields fields ++ rest) = some (fields, rest)
  | [], fuel + 1, rest, _ => by simp [writeFields, readFields]
  | (key, value) :: fields, fuel + 1, rest, enough => by
      simp only [writeFields, List.length_cons, List.length_append] at enough
      have first := readValue_write value fuel (writeFields fields ++ rest) (by omega)
        (noNumber_writeFields fields rest)
      have others := readFields_writeFields fields fuel rest (by omega)
      have named := readQuoted_quote key (':' :: (write value ++ (writeFields fields ++ rest)))
      simp [writeFields, readFields, named, first, others]
  | [], 0, _, enough | (_, _) :: _, 0, _, enough => by simp [writeFields] at enough

end

/-- A text is read as the value it is of. -/
@[simp] theorem read_write (value : Value ν) : read (write value) = some value := by
  have whole := readValue_write value (write value).length [] le_rfl noNumber_nil
  rw [List.append_nil] at whole
  simp [read, whole]

/-! ### Token by token

A text is a sequence of punctuation marks, words, numbers and quoted strings. -/

/-- What holds of every token, and of two texts put together if it holds of both. -/
structure Tokenwise (ν : Type) [NumberText ν] (P : List Char → Prop) : Prop where
  append : ∀ {first second}, P first → P second → P (first ++ second)
  mark : ∀ c ∈ ['[', ']', '{', '}', ',', ':'], P [c]
  word : ∀ word ∈ ["null", "true", "false"], P word.toList
  number : ∀ number : ν, P (NumberText.text number)
  quote : ∀ s, P (quote s)

section Tokenwise

variable {P : List Char → Prop} (tokenwise : Tokenwise ν P)

include tokenwise

theorem Tokenwise.cons {c : Char} {text : List Char}
    (isMark : c ∈ ['[', ']', '{', '}', ',', ':']) (holds : P text) : P (c :: text) :=
  tokenwise.append (tokenwise.mark c isMark) holds

mutual

/-- **Tokens make a text.** -/
theorem Tokenwise.write : ∀ value : Value ν, P (write value)
  | .null => tokenwise.word "null" (by simp)
  | .bool true => tokenwise.word "true" (by simp)
  | .bool false => tokenwise.word "false" (by simp)
  | .number number => tokenwise.number number
  | .string value => tokenwise.quote value
  | .array [] => tokenwise.cons (by simp) (tokenwise.mark ']' (by simp))
  | .array (item :: items) => by
      rw [JsonText.write]
      exact tokenwise.append (tokenwise.cons (by simp) (Tokenwise.write item))
        (Tokenwise.writeItems items)
  | .object [] => tokenwise.cons (by simp) (tokenwise.mark '}' (by simp))
  | .object ((key, value) :: fields) => by
      rw [JsonText.write]
      exact tokenwise.append (tokenwise.append (tokenwise.cons (by simp) (tokenwise.quote key))
        (tokenwise.cons (by simp) (Tokenwise.write value))) (Tokenwise.writeFields fields)

theorem Tokenwise.writeItems : ∀ items : List (Value ν), P (writeItems items)
  | [] => tokenwise.mark ']' (by simp)
  | item :: items => by
      rw [JsonText.writeItems]
      exact tokenwise.append (tokenwise.cons (by simp) (Tokenwise.write item))
        (Tokenwise.writeItems items)

theorem Tokenwise.writeFields : ∀ fields : List (String × Value ν), P (writeFields fields)
  | [] => tokenwise.mark '}' (by simp)
  | (key, value) :: fields => by
      rw [JsonText.writeFields]
      exact tokenwise.append (tokenwise.append (tokenwise.cons (by simp) (tokenwise.quote key))
        (tokenwise.cons (by simp) (Tokenwise.write value))) (Tokenwise.writeFields fields)

end

end Tokenwise

/-! ### One line -/

/-- A character that a line of text may have. -/
def NotControl (c : Char) : Prop := 32 ≤ c.toNat

instance (c : Char) : Decidable (NotControl c) := inferInstanceAs (Decidable (32 ≤ c.toNat))

theorem notControl_of_isNumberChar {c : Char} (number : isNumberChar c = true) : NotControl c := by
  simp only [isNumberChar, Bool.or_eq_true, decide_eq_true_eq] at number
  rcases number with ((((digit | rfl) | rfl) | rfl) | rfl) | rfl
  · have lower := Char.isDigit_iff_toNat.mp digit
    exact le_trans (by decide) lower.1
  all_goals decide

theorem notControl_of_isMark (c : Char) (mem : c ∈ ['[', ']', '{', '}', ',', ':']) :
    NotControl c := by
  have all : ['[', ']', '{', '}', ',', ':'].all (fun c => decide (NotControl c)) = true := by decide
  exact of_decide_eq_true (List.all_eq_true.mp all c mem)

theorem notControl_of_mem_word (word : String) (mem : word ∈ ["null", "true", "false"])
    (c : Char) (mem' : c ∈ word.toList) : NotControl c := by
  have all : (["null", "true", "false"].all fun word =>
      word.toList.all fun c => decide (NotControl c)) = true := by decide
  exact of_decide_eq_true (List.all_eq_true.mp (List.all_eq_true.mp all word mem) c mem')

theorem notControl_hexDigit : ∀ n < 16, NotControl (hexDigit n) := by decide

theorem notControl_of_mem_escape (c : Char) : ∀ d ∈ escape c, NotControl d := by
  rcases escape_cases c with ⟨short, mem, eq⟩ | ⟨control, eq⟩ | ⟨printable, -, -, eq⟩ <;> rw [eq]
  · have all : ∀ form ∈ shortForms, NotControl form.2 := by decide
    exact List.forall_mem_cons.mpr ⟨by decide, List.forall_mem_singleton.mpr (all _ mem)⟩
  · have high := notControl_hexDigit (c.toNat / 16) (by omega)
    have low := notControl_hexDigit (c.toNat % 16) (by omega)
    simp only [List.forall_mem_cons, high, low, List.not_mem_nil, false_imp_iff, implies_true,
      and_true]
    decide
  · exact List.forall_mem_singleton.mpr printable

theorem notControl_of_mem_quote (s : String) : ∀ c ∈ quote s, NotControl c := by
  simp only [quote, List.cons_append, List.forall_mem_cons, List.forall_mem_append,
    List.mem_flatMap]
  refine ⟨by decide, ?_, by decide, by simp⟩
  rintro c ⟨source, -, mem⟩
  exact notControl_of_mem_escape source c mem

/-- **A text is one line**: it has no control character. -/
theorem notControl_of_mem_write (value : Value ν) : ∀ c ∈ write value, NotControl c :=
  Tokenwise.write (P := fun text => ∀ c ∈ text, NotControl c)
    { append := fun first second => List.forall_mem_append.mpr ⟨first, second⟩
      mark := fun c mem => List.forall_mem_singleton.mpr (notControl_of_isMark c mem)
      word := fun word mem c => notControl_of_mem_word word mem c
      number := fun number c mem =>
        notControl_of_isNumberChar (NumberText.isNumberChar_of_mem number c mem)
      quote := notControl_of_mem_quote } value

/-! ### Objects -/

omit [NumberText ν] in
theorem intercalate_cons {α : Type*} (comma : α) (first : List α) (others : List (List α)) :
    [comma].intercalate (first :: others) = first ++ others.flatMap (comma :: ·) := by
  induction others generalizing first with
  | nil => simp
  | cons next others ih =>
      rw [List.intercalate_cons_cons, ih, List.flatMap_cons]
      simp

omit [NumberText ν] in
theorem isInfix_intercalate {α : Type*} (comma : α) {part : List α} {parts : List (List α)}
    (mem : part ∈ parts) : part <:+: [comma].intercalate parts := by
  obtain ⟨first, others, rfl⟩ := List.exists_cons_of_ne_nil (List.ne_nil_of_mem mem)
  rw [intercalate_cons]
  rcases List.mem_cons.mp mem with rfl | mem
  · exact (List.prefix_append _ _).isInfix
  · obtain ⟨before, behind, rfl⟩ := List.append_of_mem mem
    exact ⟨first ++ before.flatMap (comma :: ·) ++ [comma], behind.flatMap (comma :: ·), by simp⟩

theorem writeFields_eq (fields : List (String × Value ν)) :
    writeFields fields =
      fields.flatMap (fun field => ',' :: (quote field.1 ++ ':' :: write field.2)) ++ ['}'] := by
  induction fields with
  | nil => rfl
  | cons field fields ih =>
      obtain ⟨key, value⟩ := field
      rw [writeFields, ih]
      simp

/-- The fields of an object with commas between them. -/
theorem write_object (fields : List (String × Value ν)) :
    write (.object fields) = '{' ::
      ([','].intercalate (fields.map fun field => quote field.1 ++ ':' :: write field.2) ++
        ['}']) := by
  cases fields with
  | nil => rfl
  | cons field fields =>
      obtain ⟨key, value⟩ := field
      rw [write, writeFields_eq, List.map_cons, intercalate_cons, List.flatMap_map]
      simp

end Values

end JsonText

end TrustRouter
