import Mathlib.Algebra.Order.Ring.Int
import Mathlib.Data.List.Basic
import Mathlib.Data.List.Infix

/-!
# Nesting of JSON texts

What a JSON text is, as far as brackets, strings and separators go (`Shaped`), and what the text of
an object that has been torn makes of the text behind it.  A scan keeps the depth of the brackets
that are outside of strings, and knows when a string has just been closed.  Over a shaped text it
comes back to the depth it started from and is never below (`Shaped.level`).  So a torn object
leaves the scan deeper than it was, or inside a string; in the first case the text of another
object does not bring it back, and in the second the first quotation mark of the other closes the
string, behind which no name can stand.

Either way the two together are not shaped (`not_shaped_shards_append`), and no reader takes them
for one value.
-/

namespace TrustRouter

namespace JsonText

/-! ## The shape of a text -/

/-- White space between the parts of a text. -/
def blanks : List Char := [' ', '\t', '\n', '\r']

/-- What can follow a string. -/
def separators : List Char := [',', ':', ']', '}']

/-- The characters with a meaning of their own outside of strings. -/
def marks : List Char := ['"', '[', ']', '{', '}', ',', ':']

/-- The rest of a string behind its opening quotation mark. -/
inductive Closing : List Char → Prop
  | quote : Closing ['"']
  | plain {c : Char} {text : List Char} :
      c ≠ '"' → c ≠ '\\' → Closing text → Closing (c :: text)
  | escaped {c : Char} {text : List Char} : Closing text → Closing ('\\' :: c :: text)

/-- What the grammar of JSON says of brackets, strings and separators.  Of words and numbers only
this is asked, that they have none of them. -/
inductive Shaped : List Char → Prop
  | word {text : List Char} : (∀ c ∈ text, c ∉ marks) → Shaped text
  | string {text : List Char} : Closing text → Shaped ('"' :: text)
  | array {items : List (List Char)} : (∀ item ∈ items, Shaped item) →
      Shaped ('[' :: ([','].intercalate items ++ [']']))
  | object {fields : List (List Char × List Char)} : (∀ field ∈ fields, Shaped field.1) →
      (∀ field ∈ fields, Shaped field.2) →
        Shaped ('{' :: ([','].intercalate (fields.map fun field => field.1 ++ ':' :: field.2) ++
          ['}']))
  | hollow {blank : List Char} : (∀ c ∈ blank, c ∈ blanks) → Shaped ('{' :: (blank ++ ['}']))
  | padded {left text right : List Char} : (∀ c ∈ left, c ∈ blanks) → (∀ c ∈ right, c ∈ blanks) →
      Shaped text → Shaped (left ++ text ++ right)

theorem notMem_marks_of_blank {text : List Char} (blank : ∀ c ∈ text, c ∈ blanks) :
    ∀ c ∈ text, c ∉ marks := by
  have apart : ∀ c ∈ blanks, c ∉ marks := by simp [blanks, marks]
  exact fun c mem => apart c (blank c mem)

/-! ## Scanning a text -/

/-- Where a scan is: outside of strings, inside one, behind a backslash in it, behind the
quotation mark that has closed it, or where no text goes on. -/
inductive Mode where
  | outside
  | inside
  | escaped
  | closed
  | broken
  deriving DecidableEq

/-- Some brackets are open. -/
structure Nest where
  mode : Mode
  depth : ℤ

/-- What a character does to the depth. -/
def bracket (c : Char) : ℤ :=
  if c ∈ ['[', '{'] then 1 else if c ∈ [']', '}'] then -1 else 0

namespace Nest

def step : Nest → Char → Nest
  | ⟨.outside, depth⟩, c => if c = '"' then ⟨.inside, depth⟩ else ⟨.outside, depth + bracket c⟩
  | ⟨.closed, depth⟩, c =>
      if c ∈ separators then ⟨.outside, depth + bracket c⟩
      else if c ∈ blanks then ⟨.closed, depth⟩
      else ⟨.broken, depth⟩
  | ⟨.inside, depth⟩, c =>
      if c = '"' then ⟨.closed, depth⟩
      else if c = '\\' then ⟨.escaped, depth⟩
      else ⟨.inside, depth⟩
  | ⟨.escaped, depth⟩, _ => ⟨.inside, depth⟩
  | ⟨.broken, depth⟩, _ => ⟨.broken, depth⟩

def after (nest : Nest) (text : List Char) : Nest := text.foldl step nest

@[simp] theorem after_nil (nest : Nest) : nest.after [] = nest := rfl

@[simp] theorem after_cons (nest : Nest) (c : Char) (text : List Char) :
    nest.after (c :: text) = (nest.step c).after text := rfl

@[simp] theorem after_append (nest : Nest) (first second : List Char) :
    nest.after (first ++ second) = (nest.after first).after second := List.foldl_append

theorem after_broken (depth : ℤ) (text : List Char) :
    after ⟨.broken, depth⟩ text = ⟨.broken, depth⟩ := by
  induction text with
  | nil => rfl
  | cons c text ih => exact ih

/-- A scan over a text leads from one place to another and is never below some depth. -/
structure Passes (least : ℤ) (before later : Nest) (text : List Char) : Prop where
  after : before.after text = later
  le : ∀ part rest, part ++ rest = text → least ≤ (before.after part).depth

variable {least : ℤ} {before between later : Nest} {first second text : List Char}

theorem Passes.le_before (passes : Passes least before later text) : least ≤ before.depth :=
  passes.le [] text rfl

theorem Passes.nil (le : least ≤ before.depth) : Passes least before before [] where
  after := rfl
  le part rest split := by
    rw [(List.append_eq_nil_iff.mp split).1]
    exact le

theorem Passes.append (one : Passes least before between first)
    (two : Passes least between later second) : Passes least before later (first ++ second) where
  after := by rw [after_append, one.after, two.after]
  le part rest split := by
    rcases List.append_eq_append_iff.mp split with ⟨middle, eq, -⟩ | ⟨middle, rfl, eq⟩
    · exact one.le part middle eq.symm
    · rw [after_append, one.after]
      exact two.le middle rest eq.symm

theorem Passes.char {c : Char} (step : before.step c = later) (le : least ≤ before.depth)
    (le' : least ≤ later.depth) : Passes least before later [c] where
  after := step
  le part rest split := by
    rcases List.append_eq_cons_iff.mp split with ⟨rfl, -⟩ | ⟨middle, rfl, eq⟩
    · exact le
    · rw [(List.append_eq_nil_iff.mp eq.symm).1, after_cons, step]
      exact le'

theorem Passes.cons {c : Char} (step : before.step c = between) (le : least ≤ before.depth)
    (rest : Passes least between later text) : Passes least before later (c :: text) :=
  Passes.append (.char step le rest.le_before) rest

theorem Passes.mono {least' : ℤ} (le : least' ≤ least)
    (passes : Passes least before later text) : Passes least' before later text where
  after := passes.after
  le part rest split := le.trans (passes.le part rest split)

/-- A scan that stays at a place is never below it. -/
theorem Passes.of_stays (stays : ∀ c ∈ text, before.step c = before) (le : least ≤ before.depth) :
    Passes least before before text := by
  induction text with
  | nil => exact .nil le
  | cons c text ih =>
      obtain ⟨here, stays⟩ := List.forall_mem_cons.mp stays
      exact .cons here le (ih stays)

end Nest

open Nest

/-! ## Levels -/

/-- Where a text can end, or go on with a separator. -/
def Mode.Settled (mode : Mode) : Prop := mode = .outside ∨ mode = .closed

/-- A scan over the text comes back to where it was and is never below. -/
def Level (text : List Char) : Prop :=
  ∀ depth, ∃ mode, mode.Settled ∧ Passes depth ⟨.outside, depth⟩ ⟨mode, depth⟩ text

/-- The same of a text that goes on behind a value. -/
def Continues (text : List Char) : Prop :=
  ∀ depth mode, mode.Settled →
    ∃ mode', mode'.Settled ∧ Passes depth ⟨mode, depth⟩ ⟨mode', depth⟩ text

theorem step_separator {c : Char} (separator : c ∈ separators) {mode : Mode}
    (settled : mode.Settled) (depth : ℤ) :
    step ⟨mode, depth⟩ c = ⟨.outside, depth + bracket c⟩ := by
  rcases settled with rfl | rfl
  · have other : c ≠ '"' := by
      rintro rfl
      exact absurd separator (by decide)
    exact if_neg other
  · exact if_pos separator

theorem step_blank {c : Char} (blank : c ∈ blanks) {mode : Mode} (settled : mode.Settled)
    (depth : ℤ) : step ⟨mode, depth⟩ c = ⟨mode, depth⟩ := by
  have blankOnly : c ≠ '"' ∧ bracket c = 0 ∧ c ∉ separators := by
    simp only [blanks, List.mem_cons, List.not_mem_nil, or_false] at blank
    rcases blank with rfl | rfl | rfl | rfl <;> decide
  obtain ⟨other, none, apart⟩ := blankOnly
  rcases settled with rfl | rfl
  · simp [step, other, none]
  · simp [step, apart, blank]

/-- Characters without a meaning outside of strings. -/
theorem level_of_word {text : List Char} (plain : ∀ c ∈ text, c ∉ marks) : Level text := by
  refine fun depth => ⟨.outside, Or.inl rfl, .of_stays (fun c mem => ?_) le_rfl⟩
  have other := plain c mem
  simp only [marks, List.mem_cons, List.not_mem_nil, or_false, not_or] at other
  simp [step, bracket, other]

theorem level_nil : Level [] := level_of_word (List.forall_mem_nil _)

theorem Level.append {first second : List Char} (level : Level first)
    (continues : Continues second) : Level (first ++ second) := by
  intro depth
  obtain ⟨mode, settled, one⟩ := level depth
  obtain ⟨mode', settled', two⟩ := continues depth mode settled
  exact ⟨mode', settled', one.append two⟩

theorem continues_of_blank {text : List Char} (blank : ∀ c ∈ text, c ∈ blanks) :
    Continues text :=
  fun depth mode settled => ⟨mode, settled,
    .of_stays (fun c mem => step_blank (blank c mem) settled depth) le_rfl⟩

/-- A value behind a comma or a colon. -/
theorem Level.continues {text : List Char} (level : Level text) {c : Char} (mark : c ∈ [',', ':']) :
    Continues (c :: text) := by
  intro depth mode settled
  obtain ⟨mode', settled', passes⟩ := level depth
  have separates : c ∈ separators ∧ bracket c = 0 := by
    simp only [List.mem_cons, List.not_mem_nil, or_false] at mark
    rcases mark with rfl | rfl <;> decide
  refine ⟨mode', settled', .cons ?_ le_rfl passes⟩
  rw [step_separator separates.1 settled, separates.2, add_zero]

/-- Items with commas between them. -/
theorem level_intercalate {items : List (List Char)} (level : ∀ item ∈ items, Level item) :
    Level ([','].intercalate items) := by
  induction items with
  | nil => exact level_nil
  | cons item items ih =>
      obtain ⟨first, others⟩ := List.forall_mem_cons.mp level
      cases items with
      | nil => exact List.intercalate_singleton ▸ first
      | cons next items =>
          rw [List.intercalate_cons_cons, List.append_assoc]
          exact first.append ((ih others).continues (by simp))

/-- Brackets around a text. -/
theorem Level.bracketed {text : List Char} (level : Level text) {opening closing : Char}
    (pair : (opening, closing) ∈ [('[', ']'), ('{', '}')]) :
    Level (opening :: (text ++ [closing])) := by
  intro depth
  obtain ⟨mode, settled, passes⟩ := level (depth + 1)
  have brackets : opening ≠ '"' ∧ bracket opening = 1 ∧ closing ∈ separators ∧
      bracket closing = -1 := by
    rcases List.mem_cons.mp pair with eq | mem
    · obtain ⟨rfl, rfl⟩ := Prod.mk.inj eq
      decide
    · obtain ⟨rfl, rfl⟩ := Prod.mk.inj (List.mem_singleton.mp mem)
      decide
  obtain ⟨other, up, separator, down⟩ := brackets
  have opens : Nest.step ⟨.outside, depth⟩ opening = ⟨.outside, depth + 1⟩ := by
    simp [step, other, up]
  refine ⟨.outside, Or.inl rfl,
    .cons opens le_rfl ((passes.mono (by omega)).append (.char ?_ (by simp) le_rfl))⟩
  rw [step_separator separator settled, down]
  simp

/-- A scan comes out of the string it is in. -/
theorem Closing.passes {text : List Char} (closing : Closing text) (depth : ℤ) :
    Passes depth ⟨.inside, depth⟩ ⟨.closed, depth⟩ text := by
  induction closing with
  | quote => exact .char rfl le_rfl le_rfl
  | plain quotation backslash _ ih => exact .cons (by simp [step, quotation, backslash]) le_rfl ih
  | @escaped c _ _ ih => exact .cons rfl (le_refl depth) (.cons (c := c) rfl (le_refl depth) ih)

/-- **A shaped text is level.** -/
theorem Shaped.level {text : List Char} (shaped : Shaped text) : Level text := by
  induction shaped with
  | word plain => exact level_of_word plain
  | string closing =>
      exact fun depth => ⟨.closed, Or.inr rfl, .cons rfl le_rfl (closing.passes depth)⟩
  | array _ items => exact (level_intercalate items).bracketed (by simp)
  | object _ _ names values =>
      refine (level_intercalate ?_).bracketed (by simp)
      intro text mem
      obtain ⟨field, listed, rfl⟩ := List.mem_map.mp mem
      exact (names field listed).append ((values field listed).continues (by simp))
  | hollow blank => exact (level_of_word (notMem_marks_of_blank blank)).bracketed (by simp)
  | @padded left text right before after _ ih =>
      intro depth
      obtain ⟨mode, settled, passes⟩ := ih depth
      obtain ⟨mode', settled', behind⟩ := continues_of_blank after depth mode settled
      have waits : Passes depth ⟨.outside, depth⟩ ⟨.outside, depth⟩ left :=
        .of_stays (fun c mem => step_blank (before c mem) (Or.inl rfl) depth) le_rfl
      exact ⟨mode', settled', (waits.append passes).append behind⟩

/-! ## Objects -/

theorem Level.le_of_prefix {text : List Char} (level : Level text) (depth : ℤ)
    {part rest : List Char} (split : part ++ rest = text) :
    depth ≤ (Nest.after ⟨.outside, depth⟩ part).depth := by
  obtain ⟨_, -, passes⟩ := level depth
  exact passes.le part rest split

/-- A level text does not go on behind a brace that would close the one before it. -/
theorem Level.not_closing {text part rest : List Char} (level : Level text) (whole : Level part) :
    part ++ '}' :: rest ≠ text := by
  intro split
  obtain ⟨mode, settled, passes⟩ := whole 1
  have inside := level.le_of_prefix 1
    (show (part ++ ['}']) ++ rest = text by rw [List.append_assoc]; exact split)
  rw [after_append, passes.after, after_cons, after_nil,
    step_separator (by decide) settled] at inside
  exact absurd inside (by decide)

/-- What is inside of two braces can be told from what is behind them. -/
theorem Level.append_brace_inj {first second rest rest' : List Char} (level : Level first)
    (level' : Level second) (same : first ++ '}' :: rest = second ++ '}' :: rest') :
    first = second ∧ rest = rest' := by
  rcases List.append_eq_append_iff.mp same with ⟨between, eq, behind⟩ | ⟨between, eq, behind⟩
  · cases between with
    | nil => exact ⟨by simpa using eq.symm, (List.cons.inj behind).2⟩
    | cons c between =>
        obtain ⟨rfl, -⟩ := List.cons.inj behind
        exact absurd eq.symm (level'.not_closing level)
  · cases between with
    | nil => exact ⟨by simpa using eq, (List.cons.inj behind).2.symm⟩
    | cons c between =>
        obtain ⟨rfl, -⟩ := List.cons.inj behind
        exact absurd eq.symm (level.not_closing level')

/-- What begins with a brace is an object, and blanks behind it. -/
theorem Shaped.exists_inner {text : List Char} (shaped : Shaped text) {tail : List Char}
    (opens : text = '{' :: tail) :
    ∃ inner right, tail = inner ++ '}' :: right ∧ Level inner ∧ ∀ c ∈ right, c ∈ blanks := by
  induction shaped generalizing tail with
  | word plain => exact absurd (plain '{' (by simp [opens])) (by decide)
  | string => cases opens
  | array => cases opens
  | object names values =>
      obtain ⟨-, rfl⟩ := List.cons.inj opens
      refine ⟨_, [], rfl, level_intercalate fun text mem => ?_, List.forall_mem_nil _⟩
      obtain ⟨field, listed, rfl⟩ := List.mem_map.mp mem
      exact (names field listed).level.append ((values field listed).level.continues (by simp))
  | @hollow blank within =>
      obtain ⟨-, rfl⟩ := List.cons.inj opens
      exact ⟨blank, [], rfl, level_of_word (notMem_marks_of_blank within), List.forall_mem_nil _⟩
  | @padded left text right before after shaped ih =>
      have notBlank : '{' ∉ blanks := by decide
      cases left with
      | cons c left =>
          obtain ⟨rfl, -⟩ := List.cons.inj opens
          exact absurd (before '{' (.head _)) notBlank
      | nil =>
          cases text with
          | nil => exact absurd (after '{' (by simp_all)) notBlank
          | cons c text =>
              obtain ⟨rfl, rfl⟩ := List.cons.inj opens
              obtain ⟨inner, right', rfl, level, blank⟩ := ih rfl
              exact ⟨inner, right' ++ right, by simp, level,
                List.forall_mem_append.mpr ⟨blank, after⟩⟩

/-- The text of an object, without blanks around it, of which the first name does not begin like
something that can follow a string. -/
structure Entry (text : List Char) : Prop where
  shaped : Shaped text
  opens : ∃ c rest, c ∉ separators ∧ c ∉ blanks ∧ text = '{' :: '"' :: c :: rest
  closes : text.getLast? = some '}'

theorem Entry.exists_inner {text : List Char} (entry : Entry text) :
    ∃ inner, text = '{' :: (inner ++ ['}']) ∧ Level inner := by
  obtain ⟨c, rest, -, -, opens⟩ := entry.opens
  obtain ⟨inner, right, eq, level, blank⟩ := entry.shaped.exists_inner opens
  rw [eq] at opens
  rcases List.eq_nil_or_concat' right with rfl | ⟨right, last, rfl⟩
  · exact ⟨inner, opens, level⟩
  · have ends := entry.closes
    rw [opens, ← List.cons_append, ← List.cons_append, ← List.append_assoc,
      List.getLast?_concat] at ends
    obtain rfl := Option.some.inj ends
    exact absurd (blank '}' (by simp)) (by decide)

/-! ## Torn objects -/

/-- Such a text does not bring a scan out of a string. -/
theorem Entry.mode_ne_outside {text : List Char} (entry : Entry text) {shard : List Char}
    (isPrefix : shard <+: text) {nest : Nest} (other : nest.mode ≠ .outside) :
    (nest.after shard).mode ≠ .outside := by
  obtain ⟨c, others, name, notBlank, rfl⟩ := entry.opens
  obtain ⟨mode, depth⟩ := nest
  have behind : step ⟨.closed, depth⟩ c = ⟨.broken, depth⟩ := (if_neg name).trans (if_neg notBlank)
  rcases List.prefix_cons_iff.mp isPrefix with rfl | ⟨_, rfl, inBrace⟩
  · exact other
  cases mode with
  | outside => exact absurd rfl other
  | closed | broken =>
      show (after ⟨.broken, depth⟩ _).mode ≠ .outside
      rw [after_broken]
      exact Mode.noConfusion
  | inside | escaped =>
      -- the quotation mark closes the string, and no name can stand behind it
      rcases List.prefix_cons_iff.mp inBrace with rfl | ⟨_, rfl, inName⟩
      · exact Mode.noConfusion
      rcases List.prefix_cons_iff.mp inName with rfl | ⟨shard, rfl, -⟩
      · exact Mode.noConfusion
      show (after (step ⟨.closed, depth⟩ c) shard).mode ≠ .outside
      rw [behind, after_broken]
      exact Mode.noConfusion

/-- The whole of it breaks a scan that is not outside. -/
theorem Entry.mode_eq_broken {text : List Char} (entry : Entry text) {nest : Nest}
    (other : nest.mode ≠ .outside) : (nest.after text).mode = .broken := by
  obtain ⟨c, others, name, notBlank, rfl⟩ := entry.opens
  obtain ⟨mode, depth⟩ := nest
  have behind : step ⟨.closed, depth⟩ c = ⟨.broken, depth⟩ := (if_neg name).trans (if_neg notBlank)
  cases mode with
  | outside => exact absurd rfl other
  | closed | broken => exact congrArg mode (after_broken depth _)
  | inside | escaped =>
      show (after (step ⟨.closed, depth⟩ c) others).mode = _
      rw [behind, after_broken]

/-- A scan that has been left in the middle of an object. -/
def Nest.Stuck (nest : Nest) : Prop := nest.mode = .outside → 1 ≤ nest.depth

/-- **What comes behind does not finish the object.** -/
theorem Nest.Stuck.after {nest : Nest} (stuck : nest.Stuck) {text shard : List Char}
    (entry : Entry text) (isPrefix : shard <+: text) : (nest.after shard).Stuck := by
  by_cases outside : nest.mode = .outside
  · obtain ⟨mode, depth⟩ := nest
    obtain rfl : mode = .outside := outside
    obtain ⟨rest, split⟩ := isPrefix
    exact fun _ => (stuck rfl).trans (entry.shaped.level.le_of_prefix depth split)
  · exact fun outside' => absurd outside' (entry.mode_ne_outside isPrefix outside)

/-- A torn object leaves a scan in its middle. -/
theorem Entry.stuck_of_torn {text torn rest : List Char} (entry : Entry text)
    (split : torn ++ rest = text) (begun : torn ≠ []) (broken : rest ≠ []) :
    (Nest.after ⟨.outside, 0⟩ torn).Stuck := by
  obtain ⟨c, part, rfl⟩ := List.exists_cons_of_ne_nil begun
  obtain ⟨inner, opens, level⟩ := entry.exists_inner
  rw [opens] at split
  obtain ⟨rfl, tails⟩ := List.cons.inj split
  intro _
  rcases List.append_eq_append_iff.mp tails with ⟨middle, within, -⟩ | ⟨middle, rfl, ends⟩
  · exact level.le_of_prefix 1 within.symm
  · -- only the last brace is missing
    obtain ⟨rfl, -⟩ : middle = [] ∧ rest = ['}'] := by
      rcases List.append_eq_singleton_iff.mp ends.symm with both | ⟨-, none⟩
      · exact both
      · exact absurd none broken
    exact level.le_of_prefix 1 (show (inner ++ []) ++ [] = inner by simp)

/-- An object that follows finishes no object that a scan has been left in. -/
theorem Nest.Stuck.not_settled {nest : Nest} (stuck : nest.Stuck) {text : List Char}
    (entry : Entry text) {mode : Mode} (settled : mode.Settled) :
    nest.after text ≠ ⟨mode, 0⟩ := by
  intro ends
  by_cases outside : nest.mode = .outside
  · obtain ⟨mode', depth⟩ := nest
    obtain rfl : mode' = .outside := outside
    obtain ⟨_, -, passes⟩ := entry.shaped.level depth
    rw [passes.after] at ends
    obtain rfl : depth = 0 := congrArg Nest.depth ends
    exact absurd (stuck rfl) (by decide)
  · have broken := entry.mode_eq_broken outside
    rw [ends] at broken
    rcases settled with rfl | rfl <;> cases broken

/-- Some shards of objects. -/
def Shards (shards : List (List Char)) : Prop :=
  ∀ shard ∈ shards, shard ≠ [] ∧ ∃ text, Entry text ∧ shard <+: text

theorem head?_flatten_append {shards : List (List Char)} (torn : Shards shards)
    {next : List Char} (entry : Entry next) : (shards.flatten ++ next).head? = some '{' := by
  have brace : ∀ {text : List Char}, Entry text → text.head? = some '{' := by
    intro text entry
    obtain ⟨_, rfl, -⟩ := entry.exists_inner
    rfl
  cases shards with
  | nil => exact brace entry
  | cons shard shards =>
      obtain ⟨begun, text, entry', rest, split⟩ := torn shard (.head _)
      obtain ⟨c, shard, rfl⟩ := List.exists_cons_of_ne_nil begun
      have head := brace entry'
      rw [← split] at head
      exact head

theorem Nest.Stuck.after_flatten {nest : Nest} (stuck : nest.Stuck) {shards : List (List Char)}
    (torn : Shards shards) : (nest.after shards.flatten).Stuck := by
  induction shards generalizing nest with
  | nil => exact stuck
  | cons shard shards ih =>
      obtain ⟨⟨-, text, entry, isPrefix⟩, torn⟩ := List.forall_mem_cons.mp torn
      rw [List.flatten_cons, after_append]
      exact ih (stuck.after entry isPrefix) torn

/-- **Torn objects and what is behind them are no text.** -/
theorem not_shaped_shards_append {shards : List (List Char)} (torn : Shards shards)
    (some_ : shards ≠ []) {next : List Char} (entry : Entry next) :
    ¬ Shaped (shards.flatten ++ next) := by
  intro shaped
  obtain ⟨first, others, rfl⟩ := List.exists_cons_of_ne_nil some_
  obtain ⟨⟨begun, text, entry', rest, split⟩, torn⟩ := List.forall_mem_cons.mp torn
  rw [List.flatten_cons, List.append_assoc] at shaped
  by_cases broken : rest = []
  · -- the first object is whole, and only blanks could stand behind it
    obtain ⟨inner, opens, level⟩ := entry'.exists_inner
    rw [broken, List.append_nil] at split
    obtain ⟨inner', right, eq, level', blank⟩ := shaped.exists_inner
      (show first ++ (others.flatten ++ next) = '{' :: (inner ++ '}' :: (others.flatten ++ next))
        by rw [split, opens]; simp)
    obtain ⟨-, rfl⟩ := level.append_brace_inj level' eq
    have mem := List.mem_of_mem_head? (head?_flatten_append torn entry)
    exact absurd (blank '{' mem) (by decide)
  · obtain ⟨mode, settled, passes⟩ := shaped.level 0
    have stuck := (entry'.stuck_of_torn split begun broken).after_flatten torn
    have ends := passes.after
    rw [after_append, after_append] at ends
    exact stuck.not_settled entry settled ends

/-! ## Quotation marks -/

/-- Where a scan is that only looks at quotation marks: inside a string or not, and behind a
backslash in it or not. -/
structure Scan where
  inString : Bool
  escaped : Bool
  deriving DecidableEq

namespace Scan

def outside : Scan := ⟨false, false⟩

def inside : Scan := ⟨true, false⟩

def step (scan : Scan) (c : Char) : Scan :=
  if scan.escaped then { scan with escaped := false }
  else if c = '\\' ∧ scan.inString then { scan with escaped := true }
  else if c = '"' then { scan with inString := !scan.inString }
  else scan

def after (scan : Scan) (text : List Char) : Scan := text.foldl step scan

end Scan

/-- What it makes of where the other scan is. -/
def Mode.scan : Mode → Scan
  | .inside => .inside
  | .escaped => ⟨true, true⟩
  | .outside | .closed | .broken => .outside

theorem Nest.scan_step {nest : Nest} {c : Char} (goesOn : (nest.step c).mode ≠ .broken) :
    nest.mode.scan.step c = (nest.step c).mode.scan := by
  obtain ⟨mode, depth⟩ := nest
  cases mode with
  | broken => exact absurd rfl goesOn
  | escaped => rfl
  | outside =>
      rw [Nest.step]
      split_ifs with quotation <;>
        simp [quotation, Mode.scan, Scan.step, Scan.outside, Scan.inside]
  | inside =>
      rw [Nest.step]
      split_ifs with quotation backslash
      · subst quotation
        rfl
      · subst backslash
        rfl
      · simp [quotation, backslash, Mode.scan, Scan.step, Scan.inside]
  | closed =>
      have other : c ≠ '"' := by
        rintro rfl
        exact goesOn rfl
      rw [Nest.step]
      split_ifs <;> simp [other, Mode.scan, Scan.step, Scan.outside]

theorem Nest.scan_after {nest : Nest} {text : List Char}
    (goesOn : (nest.after text).mode ≠ .broken) :
    nest.mode.scan.after text = (nest.after text).mode.scan := by
  induction text generalizing nest with
  | nil => rfl
  | cons c text ih =>
      have next : (nest.step c).mode ≠ .broken := by
        intro broken
        refine goesOn ?_
        rw [after_cons, show nest.step c = ⟨.broken, (nest.step c).depth⟩ by rw [← broken],
          after_broken]
      show (nest.mode.scan.step c).after text = _
      rw [Nest.scan_step next]
      exact ih goesOn

/-- **The quotation marks of a shaped text are balanced.** -/
theorem Shaped.scan_after {text : List Char} (shaped : Shaped text) :
    Scan.outside.after text = .outside := by
  obtain ⟨mode, settled, passes⟩ := shaped.level 0
  have ends : (Nest.after ⟨.outside, 0⟩ text).mode ≠ .broken := by
    rw [passes.after]
    rcases settled with rfl | rfl <;> exact Mode.noConfusion
  have same := Nest.scan_after ends
  rw [passes.after] at same
  rcases settled with rfl | rfl <;> exact same

end JsonText

end TrustRouter
