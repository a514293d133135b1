import Mathlib.Data.List.TakeWhile
import TrustRouter.Prelude.JsonNesting
import TrustRouter.Prelude.JsonText

/-!
# What a reader accepts

The reader of JSON texts accepts only what is shaped like one (`shaped_of_read`).  Each of its parts
takes a shaped beginning of a text, and leaves the rest.
-/

namespace TrustRouter

namespace JsonText

theorem readHexDigit_cases {c : Char} {n : ℕ} (read : readHexDigit c = some n) :
    c ≠ '"' ∧ c ≠ '\\' := by
  constructor <;> rintro rfl <;> cases read

theorem readUnicode_cases {a b c d character : Char}
    (read : readUnicode [a, b, c, d] = some character) :
    ∀ e ∈ [a, b, c, d], e ≠ '"' ∧ e ≠ '\\' := by
  unfold readUnicode at read
  split at read
  · next high low same =>
      obtain ⟨rfl, rfl, rfl, rfl⟩ : a = '0' ∧ b = '0' ∧ c = high ∧ d = low := by simpa using same
      obtain ⟨_, isHigh, read⟩ := Option.bind_eq_some_iff.mp read
      obtain ⟨_, isLow, -⟩ := Option.bind_eq_some_iff.mp read
      simp only [List.forall_mem_cons]
      exact ⟨by decide, by decide, readHexDigit_cases isHigh, readHexDigit_cases isLow,
        List.forall_mem_nil _⟩
  · cases read

/-- A string is read up to the quotation mark that closes it. -/
theorem closing_of_readString {text characters rest : List Char}
    (read : readString text = some (characters, rest)) :
    ∃ used, text = used ++ rest ∧ Closing used := by
  fun_induction readString text generalizing characters with
  | case1 => cases read
  | case2 =>
      obtain ⟨-, rfl⟩ := Prod.mk.inj (Option.some.inj read)
      exact ⟨['"'], rfl, .quote⟩
  | case3 => cases read
  | case4 a b c d text other ih =>
      obtain ⟨_, unicode, read⟩ := Option.bind_eq_some_iff.mp read
      obtain ⟨⟨characters', rest'⟩, read', eq⟩ := Option.bind_eq_some_iff.mp read
      obtain ⟨-, rfl⟩ := Prod.mk.inj (Option.some.inj eq)
      obtain ⟨used, rfl, closing⟩ := ih read'
      have digits := readUnicode_cases unicode
      simp only [List.forall_mem_cons] at digits
      obtain ⟨hA, hB, hC, hD, -⟩ := digits
      exact ⟨'\\' :: 'u' :: a :: b :: c :: d :: used, rfl, .escaped (.plain hA.1 hA.2
        (.plain hB.1 hB.2 (.plain hC.1 hC.2 (.plain hD.1 hD.2 closing))))⟩
  | case5 short text notUnicode other ih =>
      obtain ⟨_, -, read⟩ := Option.bind_eq_some_iff.mp read
      obtain ⟨⟨characters', rest'⟩, read', eq⟩ := Option.bind_eq_some_iff.mp read
      obtain ⟨-, rfl⟩ := Prod.mk.inj (Option.some.inj eq)
      obtain ⟨used, rfl, closing⟩ := ih read'
      exact ⟨'\\' :: short :: used, rfl, closing.escaped⟩
  | case6 c text quotation backslash ih =>
      obtain ⟨⟨characters', rest'⟩, read', eq⟩ := Option.bind_eq_some_iff.mp read
      obtain ⟨-, rfl⟩ := Prod.mk.inj (Option.some.inj eq)
      obtain ⟨used, rfl, closing⟩ := ih read'
      exact ⟨c :: used, rfl, .plain quotation backslash closing⟩

theorem eq_of_readWord {word text rest : List Char} (read : readWord word text = some rest) :
    text = word ++ rest := by
  unfold readWord at read
  split_ifs at read with isPrefix
  obtain rfl := Option.some.inj read
  exact (List.prefix_iff_eq_append.mp isPrefix).symm

theorem eq_of_head? {text : List Char} {c : Char} (head : text.head? = some c) :
    text = c :: text.tail := by
  cases text with
  | nil => cases head
  | cons d text => rw [Option.some.inj head]; rfl

section Reading

variable (ν : Type) [NumberText ν]

/-- What is read of a text as a value is shaped. -/
def ReadsValues (fuel : ℕ) : Prop :=
  ∀ {text rest : List Char} {value : Value ν}, readValue fuel text = some (value, rest) →
    ∃ used, text = used ++ rest ∧ Shaped used

/-- What is read as more items are shaped texts behind commas, up to the bracket. -/
def ReadsItems (fuel : ℕ) : Prop :=
  ∀ {text rest : List Char} {items : List (Value ν)}, readItems fuel text = some (items, rest) →
    ∃ more : List (List Char), text = more.flatMap (',' :: ·) ++ ']' :: rest ∧
      ∀ item ∈ more, Shaped item

def ReadsFields (fuel : ℕ) : Prop :=
  ∀ {text rest : List Char} {fields : List (String × Value ν)},
    readFields fuel text = some (fields, rest) →
      ∃ more : List (List Char × List Char),
        text = more.flatMap (fun field => ',' :: (field.1 ++ ':' :: field.2)) ++ '}' :: rest ∧
        ∀ field ∈ more, Shaped field.1 ∧ Shaped field.2

variable {ν} {fuel : ℕ}

theorem shaped_of_readNumber {text rest : List Char} {value : Value ν}
    (read : readNumber text = some (value, rest)) :
    text = text.takeWhile isNumberChar ++ rest ∧ Shaped (text.takeWhile isNumberChar) := by
  obtain ⟨_, -, eq⟩ := Option.bind_eq_some_iff.mp read
  obtain ⟨-, rfl⟩ := Prod.mk.inj (Option.some.inj eq)
  refine ⟨(List.takeWhile_append_dropWhile).symm, .word fun c mem mark => ?_⟩
  have none : marks.all (fun c => !isNumberChar c) = true := by decide
  have other := List.all_eq_true.mp none c mark
  rw [List.mem_takeWhile_imp mem] at other
  cases other

/-- A name and its value. -/
theorem shaped_of_readPair (values : ReadsValues ν fuel) {text between rest : List Char}
    {key : String} {value : Value ν} (readKey : readQuoted text = some (key, between))
    {between' : List Char} (colon : readWord [':'] between = some between')
    (read : readValue fuel between' = some (value, rest)) :
    ∃ field : List Char × List Char, text = field.1 ++ ':' :: field.2 ++ rest ∧
      Shaped field.1 ∧ Shaped field.2 := by
  obtain ⟨quoted, quotation, readName⟩ := Option.bind_eq_some_iff.mp readKey
  obtain ⟨⟨characters, _⟩, string, eq⟩ := Option.bind_eq_some_iff.mp readName
  obtain ⟨-, rfl⟩ := Prod.mk.inj (Option.some.inj eq)
  obtain rfl := eq_of_readWord quotation
  obtain ⟨name, rfl, closing⟩ := closing_of_readString string
  obtain rfl := eq_of_readWord colon
  obtain ⟨used, rfl, shaped⟩ := values read
  exact ⟨('"' :: name, used), by simp, .string closing, shaped⟩

theorem readsItems_succ (values : ReadsValues ν fuel) (items : ReadsItems ν fuel) :
    ReadsItems ν (fuel + 1) := by
  intro text rest _ read
  rw [readItems] at read
  split_ifs at read with done
  · obtain ⟨-, rfl⟩ := Prod.mk.inj (Option.some.inj read)
    exact ⟨[], eq_of_head? done, List.forall_mem_nil _⟩
  · obtain ⟨_, comma, read⟩ := Option.bind_eq_some_iff.mp read
    obtain ⟨⟨_, _⟩, first, read⟩ := Option.bind_eq_some_iff.mp read
    obtain ⟨⟨_, _⟩, others, eq⟩ := Option.bind_eq_some_iff.mp read
    obtain ⟨-, rfl⟩ := Prod.mk.inj (Option.some.inj eq)
    obtain rfl := eq_of_readWord comma
    obtain ⟨used, rfl, shaped⟩ := values first
    obtain ⟨more, rfl, all⟩ := items others
    exact ⟨used :: more, by simp, List.forall_mem_cons.mpr ⟨shaped, all⟩⟩

theorem readsFields_succ (values : ReadsValues ν fuel) (fields : ReadsFields ν fuel) :
    ReadsFields ν (fuel + 1) := by
  intro text rest _ read
  rw [readFields] at read
  split_ifs at read with done
  · obtain ⟨-, rfl⟩ := Prod.mk.inj (Option.some.inj read)
    exact ⟨[], eq_of_head? done, List.forall_mem_nil _⟩
  · obtain ⟨_, comma, read⟩ := Option.bind_eq_some_iff.mp read
    obtain ⟨⟨_, _⟩, key, read⟩ := Option.bind_eq_some_iff.mp read
    obtain ⟨_, colon, read⟩ := Option.bind_eq_some_iff.mp read
    obtain ⟨⟨_, _⟩, first, read⟩ := Option.bind_eq_some_iff.mp read
    obtain ⟨⟨_, _⟩, others, eq⟩ := Option.bind_eq_some_iff.mp read
    obtain ⟨-, rfl⟩ := Prod.mk.inj (Option.some.inj eq)
    obtain rfl := eq_of_readWord comma
    obtain ⟨field, rfl, shaped⟩ := shaped_of_readPair values key colon first
    obtain ⟨more, rfl, all⟩ := fields others
    exact ⟨field :: more, by simp, List.forall_mem_cons.mpr ⟨shaped, all⟩⟩

theorem readsValues_succ (values : ReadsValues ν fuel) (items : ReadsItems ν fuel)
    (fields : ReadsFields ν fuel) : ReadsValues ν (fuel + 1) := by
  have word : ∀ {c : Char} {others text rest : List Char},
      (c :: others).all (fun d => decide (d ∉ marks)) = true →
      readWord others text = some rest → ∃ used, c :: text = used ++ rest ∧ Shaped used := by
    intro c others text rest plain read
    obtain rfl := eq_of_readWord read
    exact ⟨c :: others, rfl, .word fun d mem => of_decide_eq_true (List.all_eq_true.mp plain d mem)⟩
  intro text rest value read
  cases text with
  | nil => simp [readValue] at read
  | cons c text =>
      rw [readValue] at read
      split_ifs at read with isNull isTrue isFalse isString isArray noItems isObject noFields
      · obtain ⟨_, others, eq⟩ := Option.bind_eq_some_iff.mp read
        obtain ⟨-, rfl⟩ := Prod.mk.inj (Option.some.inj eq)
        subst isNull
        exact word (by decide) others
      · obtain ⟨_, others, eq⟩ := Option.bind_eq_some_iff.mp read
        obtain ⟨-, rfl⟩ := Prod.mk.inj (Option.some.inj eq)
        subst isTrue
        exact word (by decide) others
      · obtain ⟨_, others, eq⟩ := Option.bind_eq_some_iff.mp read
        obtain ⟨-, rfl⟩ := Prod.mk.inj (Option.some.inj eq)
        subst isFalse
        exact word (by decide) others
      · obtain ⟨⟨_, _⟩, string, eq⟩ := Option.bind_eq_some_iff.mp read
        obtain ⟨-, rfl⟩ := Prod.mk.inj (Option.some.inj eq)
        obtain ⟨used, rfl, closing⟩ := closing_of_readString string
        subst isString
        exact ⟨'"' :: used, rfl, .string closing⟩
      · obtain ⟨-, rfl⟩ := Prod.mk.inj (Option.some.inj read)
        rw [isArray, eq_of_head? noItems]
        exact ⟨['[', ']'], rfl, .array (List.forall_mem_nil _)⟩
      · obtain ⟨⟨_, _⟩, first, read⟩ := Option.bind_eq_some_iff.mp read
        obtain ⟨⟨_, _⟩, others, eq⟩ := Option.bind_eq_some_iff.mp read
        obtain ⟨-, rfl⟩ := Prod.mk.inj (Option.some.inj eq)
        obtain ⟨used, rfl, shaped⟩ := values first
        obtain ⟨more, rfl, all⟩ := items others
        have both : ∀ entry ∈ used :: more, Shaped entry := List.forall_mem_cons.mpr ⟨shaped, all⟩
        refine ⟨_, ?_, .array both⟩
        rw [isArray, intercalate_cons]
        simp
      · obtain ⟨-, rfl⟩ := Prod.mk.inj (Option.some.inj read)
        rw [isObject, eq_of_head? noFields]
        exact ⟨['{', '}'], rfl, .hollow (List.forall_mem_nil _)⟩
      · obtain ⟨⟨_, _⟩, key, read⟩ := Option.bind_eq_some_iff.mp read
        obtain ⟨_, colon, read⟩ := Option.bind_eq_some_iff.mp read
        obtain ⟨⟨_, _⟩, first, read⟩ := Option.bind_eq_some_iff.mp read
        obtain ⟨⟨_, _⟩, others, eq⟩ := Option.bind_eq_some_iff.mp read
        obtain ⟨-, rfl⟩ := Prod.mk.inj (Option.some.inj eq)
        obtain ⟨field, rfl, shaped⟩ := shaped_of_readPair values key colon first
        obtain ⟨more, rfl, all⟩ := fields others
        have both : ∀ entry ∈ field :: more, Shaped entry.1 ∧ Shaped entry.2 :=
          List.forall_mem_cons.mpr ⟨shaped, all⟩
        have names : ∀ entry ∈ field :: more, Shaped entry.1 := fun entry mem => (both entry mem).1
        refine ⟨_, ?_, .object names fun entry mem => (both entry mem).2⟩
        rw [isObject, List.map_cons, intercalate_cons, List.flatMap_map]
        simp
      · obtain ⟨eq, shaped⟩ := shaped_of_readNumber read
        exact ⟨_, eq, shaped⟩

/-- **What is read is shaped**, at every fuel. -/
theorem reads (fuel : ℕ) : ReadsValues ν fuel ∧ ReadsItems ν fuel ∧ ReadsFields ν fuel := by
  induction fuel with
  | zero =>
      refine ⟨?_, ?_, ?_⟩
      · intro text rest value read
        cases text <;> simp [readValue] at read
      · intro text rest items read
        simp [readItems] at read
      · intro text rest fields read
        simp [readFields] at read
  | succ fuel ih =>
      obtain ⟨values, items, fields⟩ := ih
      exact ⟨readsValues_succ values items fields, readsItems_succ values items,
        readsFields_succ values fields⟩

theorem shaped_of_read {text : List Char} {value : Value ν} (read' : read text = some value) :
    Shaped text := by
  obtain ⟨⟨_, rest⟩, first, whole⟩ := Option.bind_eq_some_iff.mp read'
  split_ifs at whole with ends
  obtain rfl : rest = [] := ends
  obtain ⟨used, eq, shaped⟩ := (reads _).1 first
  rw [List.append_nil] at eq
  exact eq ▸ shaped

end Reading

end JsonText

end TrustRouter
