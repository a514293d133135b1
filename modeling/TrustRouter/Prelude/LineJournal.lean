import Mathlib.Algebra.GroupWithZero.Nat
import Mathlib.Data.List.Basic
import Mathlib.Data.List.Infix
import Mathlib.Tactic.Common

/-!
# Journals of lines

A journal is a file to which batches of records are appended, each record as a line of its own.
`splitLines` is how it is read: the lines that have been terminated, and what stands behind the
last line break.

A batch can be cut: of its text only the beginning reaches the file, and the next batch goes on
where it broke off.  If that is not at a line break, the first record of the next batch ends up on
a damaged line.  `lines_file` says what the lines of a journal are after any number of batches:
those of the records that survive, in order, and for every cut at most one damaged line
(`length_damaged_le`).  Of a batch that is not cut at most the first record is lost, and only if
the journal has been left without a line break (`survivors_of_complete`).

A reader that refuses the damaged lines finds the survivors (`filterMap_parse_lines`).
-/

namespace TrustRouter

namespace LineJournal

/-- The terminated lines of a text, and what stands behind the last line break. -/
def splitLines : List Char → List (List Char) × List Char
  | [] => ([], [])
  | c :: text =>
      if c = '\n' then ([] :: (splitLines text).1, (splitLines text).2)
      else
        match (splitLines text).1 with
        | [] => ([], c :: (splitLines text).2)
        | line :: lines => ((c :: line) :: lines, (splitLines text).2)

def lines (text : List Char) : List (List Char) := (splitLines text).1

/-- What has been left without a line break. -/
def unterminated (text : List Char) : List Char := (splitLines text).2

/-- Some text that is one line, or a part of one. -/
def Unbroken (text : List Char) : Prop := '\n' ∉ text

@[simp] theorem unbroken_nil : Unbroken [] := List.not_mem_nil

@[simp] theorem unbroken_cons_iff {c : Char} {text : List Char} :
    Unbroken (c :: text) ↔ c ≠ '\n' ∧ Unbroken text := by
  simp [Unbroken, eq_comm]

theorem splitLines_of_unbroken {text : List Char} (unbroken : Unbroken text) :
    splitLines text = ([], text) := by
  induction text with
  | nil => rfl
  | cons c text ih =>
      obtain ⟨other, unbroken⟩ := unbroken_cons_iff.mp unbroken
      rw [splitLines, if_neg other, ih unbroken]

/-- A first line. -/
theorem splitLines_line {line : List Char} (unbroken : Unbroken line) (text : List Char) :
    splitLines (line ++ '\n' :: text) = (line :: lines text, unterminated text) := by
  induction line with
  | nil => simp [splitLines, lines, unterminated]
  | cons c line ih =>
      obtain ⟨other, unbroken⟩ := unbroken_cons_iff.mp unbroken
      rw [List.cons_append, splitLines, if_neg other, ih unbroken]

/-- A text is its lines and what is left unterminated. -/
theorem eq_lines_append (text : List Char) :
    text = (lines text).flatMap (· ++ ['\n']) ++ unterminated text ∧
      (∀ line ∈ lines text, Unbroken line) ∧ Unbroken (unterminated text) := by
  induction text with
  | nil => simp [lines, unterminated, splitLines]
  | cons c text ih =>
      obtain ⟨eq, unbroken, rest⟩ := ih
      unfold lines unterminated at *
      rw [splitLines]
      split_ifs with isBreak
      · subst isBreak
        refine ⟨by simpa using eq, ?_, rest⟩
        exact List.forall_mem_cons.mpr ⟨unbroken_nil, unbroken⟩
      · split
        · next none =>
            rw [none] at eq
            exact ⟨by simpa using eq, by simp, unbroken_cons_iff.mpr ⟨isBreak, rest⟩⟩
        · next line others some =>
            rw [some] at eq unbroken
            obtain ⟨first, unbroken⟩ := List.forall_mem_cons.mp unbroken
            refine ⟨by simpa using eq, ?_, rest⟩
            exact List.forall_mem_cons.mpr ⟨unbroken_cons_iff.mpr ⟨isBreak, first⟩, unbroken⟩

/-- More text goes on where the last line has been left. -/
theorem splitLines_append (text more : List Char) :
    splitLines (text ++ more) =
      (lines text ++ lines (unterminated text ++ more),
        unterminated (unterminated text ++ more)) := by
  obtain ⟨eq, unbroken, -⟩ := eq_lines_append text
  conv_lhs => rw [eq, List.append_assoc]
  generalize lines text = all at unbroken
  clear eq
  induction all with
  | nil => rfl
  | cons line others ih =>
      obtain ⟨first, unbroken⟩ := List.forall_mem_cons.mp unbroken
      rw [List.flatMap_cons, List.append_assoc, List.append_assoc, List.singleton_append,
        splitLines_line first]
      have rest := ih unbroken
      simp only [lines, unterminated] at rest ⊢
      rw [rest]
      rfl

/-- A text that ends in a line break is all lines. -/
theorem unterminated_concat (text : List Char) : unterminated (text ++ ['\n']) = [] := by
  obtain ⟨-, -, unbroken⟩ := eq_lines_append text
  have last := splitLines_line unbroken []
  rw [unterminated, splitLines_append]
  exact congrArg Prod.snd last

/-- What is behind a line break is read by itself. -/
theorem lines_append {text : List Char} (terminated : unterminated text = []) (more : List Char) :
    lines (text ++ more) = lines text ++ lines more := by
  rw [lines, splitLines_append, terminated, List.nil_append]

/-! ## Records -/

section Records

variable {α : Type*} (write : α → List Char)

/-- The text of some records, each on a line of its own. -/
def text (records : List α) : List Char := records.flatMap fun record => write record ++ ['\n']

/-- A batch of some records.  Where it is `cut`, only so many characters of their text reach the
file. -/
structure Batch (α : Type*) where
  records : List α
  cut : Option ℕ

/-- Of some records, those whose lines fit into so many characters, and how far the next one
gets. -/
def fit : ℕ → List α → List α × List Char
  | _, [] => ([], [])
  | room, record :: records =>
      if (write record).length + 1 ≤ room then
        let rest := fit (room - ((write record).length + 1)) records
        (record :: rest.1, rest.2)
      else ([], (write record).take room)

namespace Batch

/-- What reaches the file. -/
def written (batch : Batch α) : List Char :=
  match batch.cut with
  | none => text write batch.records
  | some room => (text write batch.records).take room

/-- The records that reach the file with their line breaks. -/
def kept (batch : Batch α) : List α :=
  match batch.cut with
  | none => batch.records
  | some room => (fit write room batch.records).1

/-- What reaches the file of the record after these. -/
def torn (batch : Batch α) : List Char :=
  match batch.cut with
  | none => []
  | some room => (fit write room batch.records).2

end Batch

/-- The file after some batches. -/
def file (batches : List (Batch α)) : List Char := batches.flatMap (·.written write)

/-- What a line of a journal is: that of a record, or a damaged one. -/
abbrev Mark (α : Type*) := α ⊕ List Char

/-- The lines a batch finishes, where `rest` has been left unterminated. -/
def finished (rest : List Char) : List α → List (Mark α)
  | [] => []
  | record :: records =>
      (if rest = [] then .inl record else .inr (rest ++ write record)) :: records.map .inl

/-- The lines some batches finish. -/
def marks : List Char → List (Batch α) → List (Mark α)
  | _, [] => []
  | rest, batch :: batches =>
      finished write rest (batch.kept write) ++
        marks (unterminated (rest ++ batch.written write)) batches

/-- The records that stand on a line of their own. -/
def survivors (batches : List (Batch α)) : List α :=
  (marks write [] batches).filterMap Sum.getLeft?

/-- The lines that are none of a record. -/
def damaged (batches : List (Batch α)) : List (List Char) :=
  (marks write [] batches).filterMap Sum.getRight?

variable {write}

@[simp] theorem text_nil : text write [] = [] := rfl

@[simp] theorem text_cons (record : α) (records : List α) :
    text write (record :: records) = write record ++ '\n' :: text write records := by
  simp [text]

/-- What fits into so many characters is what they are. -/
theorem text_append (records later : List α) :
    text write (records ++ later) = text write records ++ text write later :=
  List.flatMap_append

/-- Some text is left behind no record. -/
theorem unterminated_text (records : List α) : unterminated (text write records) = [] := by
  rcases List.eq_nil_or_concat' records with rfl | ⟨others, record, rfl⟩
  · rfl
  · rw [text_append, text_cons, text_nil, ← List.append_assoc, unterminated_concat]

theorem take_text (room : ℕ) (records : List α) :
    (text write records).take room =
      text write (fit write room records).1 ++ (fit write room records).2 := by
  induction records generalizing room with
  | nil => simp [fit]
  | cons record records ih =>
      rw [fit]
      split_ifs with whole
      · have line : (text write (record :: records)).take room =
            write record ++
              '\n' :: (text write records).take (room - ((write record).length + 1)) := by
          rw [text_cons, List.take_append, List.take_of_length_le (by omega)]
          obtain ⟨more, rfl⟩ := Nat.exists_eq_add_of_le whole
          have here : (write record).length + 1 + more - (write record).length = more + 1 := by
            omega
          have beyond : (write record).length + 1 + more - ((write record).length + 1) = more := by
            omega
          rw [here, beyond, List.take_succ_cons]
        rw [line, ih]
        simp
      · rw [text_cons, List.take_append_of_le_length (by omega)]
        rfl

/-- The records that fit are the first ones. -/
theorem fit_isPrefix (room : ℕ) (records : List α) : (fit write room records).1 <+: records := by
  induction records generalizing room with
  | nil => exact List.nil_prefix
  | cons record records ih =>
      rw [fit]
      split_ifs
      · exact List.cons_prefix_cons.mpr ⟨rfl, ih _⟩
      · exact List.nil_prefix

variable (write) in
/-- Room for some of the records. -/
theorem fit_text_take (records : List α) (k : ℕ) :
    fit write (text write (records.take k)).length records = (records.take k, []) := by
  induction records generalizing k with
  | nil => simp [fit]
  | cons record records ih =>
      cases k with
      | zero => simp [fit]
      | succ k =>
          have room : (text write ((record :: records).take (k + 1))).length =
              (write record).length + 1 + (text write (records.take k)).length := by
            simp only [List.take_succ_cons, text_cons, List.length_append, List.length_cons]
            omega
          rw [room, fit, if_pos (Nat.le_add_right _ _), Nat.add_sub_cancel_left, ih]
          rfl

/-- What is torn is the beginning of a record. -/
theorem unbroken_fit (whole : ∀ record, Unbroken (write record)) (room : ℕ) (records : List α) :
    Unbroken (fit write room records).2 := by
  induction records generalizing room with
  | nil => exact unbroken_nil
  | cons record records ih =>
      rw [fit]
      split_ifs
      · exact ih _
      · exact fun mem => whole record (List.mem_of_mem_take mem)

namespace Batch

theorem written_eq (batch : Batch α) :
    batch.written write = text write (batch.kept write) ++ batch.torn write := by
  unfold written kept torn
  cases batch.cut with
  | none => simp
  | some room => exact take_text room _

theorem kept_isPrefix (batch : Batch α) : batch.kept write <+: batch.records := by
  unfold kept
  cases batch.cut with
  | none => exact List.prefix_rfl
  | some room => exact fit_isPrefix room _

theorem unbroken_torn (whole : ∀ record, Unbroken (write record)) (batch : Batch α) :
    Unbroken (batch.torn write) := by
  unfold torn
  cases batch.cut with
  | none => exact unbroken_nil
  | some room => exact unbroken_fit whole room _

end Batch

/-- Records are read back, and what is left behind them. -/
theorem splitLines_text (whole : ∀ record, Unbroken (write record)) (records : List α)
    {torn : List Char} (unbroken : Unbroken torn) :
    splitLines (text write records ++ torn) = (records.map write, torn) := by
  induction records with
  | nil => exact splitLines_of_unbroken unbroken
  | cons record records ih =>
      rw [text_cons, List.append_assoc, List.cons_append, splitLines_line (whole record), lines,
        unterminated, ih]
      rfl

/-- **One batch** finishes the line that has been left, unless nothing is kept of it. -/
theorem splitLines_written (whole : ∀ record, Unbroken (write record)) {rest : List Char}
    (unbroken : Unbroken rest) (batch : Batch α) :
    splitLines (rest ++ batch.written write) =
      ((finished write rest (batch.kept write)).map (Sum.elim write id),
        if batch.kept write = [] then rest ++ batch.torn write else batch.torn write) := by
  rw [batch.written_eq]
  have torn := batch.unbroken_torn whole
  cases batch.kept write with
  | nil =>
      have both : Unbroken (rest ++ batch.torn write) := fun mem =>
        (List.mem_append.mp mem).elim unbroken torn
      simpa [finished] using splitLines_of_unbroken both
  | cons record records =>
      have first : Unbroken (rest ++ write record) := fun mem =>
        (List.mem_append.mp mem).elim unbroken (whole record)
      have line : rest ++ (text write (record :: records) ++ batch.torn write) =
          rest ++ write record ++ '\n' :: (text write records ++ batch.torn write) := by simp
      rw [line, splitLines_line first, lines, unterminated, splitLines_text whole records torn,
        finished, if_neg (List.cons_ne_nil _ _)]
      split_ifs with none <;> simp [none]

/-- **Every line is accounted for**, after any number of batches. -/
theorem lines_file (whole : ∀ record, Unbroken (write record)) (batches : List (Batch α))
    {rest : List Char} (unbroken : Unbroken rest) :
    lines (rest ++ file write batches) = (marks write rest batches).map (Sum.elim write id) := by
  induction batches generalizing rest with
  | nil => simp [file, marks, lines, splitLines_of_unbroken unbroken]
  | cons batch batches ih =>
      obtain ⟨-, -, later⟩ := eq_lines_append (rest ++ batch.written write)
      have next := ih later
      have here := splitLines_written whole unbroken batch
      rw [file, List.flatMap_cons, ← List.append_assoc, lines, splitLines_append, marks,
        List.map_append, ← file, next, lines, here]

/-- How many lines have been left for the next batch to damage. -/
def debt (rest : List Char) : ℕ := if rest = [] then 0 else 1

/-- How many lines a batch can leave damaged. -/
def Batch.cuts (batch : Batch α) : ℕ := if batch.cut = none then 0 else 1

/-- **One batch** damages a line that has been left, or leaves one itself if it is cut. -/
theorem count_finished_le (whole : ∀ record, Unbroken (write record)) {rest : List Char}
    (unbroken : Unbroken rest) (batch : Batch α) :
    ((finished write rest (batch.kept write)).filterMap Sum.getRight?).length +
        debt (unterminated (rest ++ batch.written write)) ≤ debt rest + batch.cuts := by
  have complete : batch.cut = none → batch.torn write = [] := fun cut => by
    simp [Batch.torn, cut]
  rw [unterminated, splitLines_written whole unbroken batch]
  cases batch.kept write with
  | nil =>
      simp only [finished, List.filterMap_nil, List.length_nil, Nat.zero_add, if_true, debt,
        Batch.cuts]
      split_ifs <;> simp_all
  | cons record records =>
      have first : ((finished write rest (record :: records)).filterMap Sum.getRight?).length =
          debt rest := by
        rw [finished, List.filterMap_cons]
        split_ifs with clean <;> simp [debt, clean, List.filterMap_map, Function.comp_def]
      rw [first, if_neg (List.cons_ne_nil _ _)]
      simp only [debt, Batch.cuts]
      split_ifs <;> simp_all

theorem length_marks (batches : List (Batch α)) :
    (marks write [] batches).length =
      (survivors write batches).length + (damaged write batches).length := by
  rw [survivors, damaged]
  induction marks write [] batches with
  | nil => rfl
  | cons mark marks ih =>
      cases mark with
      | inl record =>
          show marks.length + 1 = (marks.filterMap Sum.getLeft?).length + 1 +
            (marks.filterMap Sum.getRight?).length
          omega
      | inr line =>
          show marks.length + 1 = (marks.filterMap Sum.getLeft?).length +
            ((marks.filterMap Sum.getRight?).length + 1)
          omega

/-- **At most one damaged line for every cut.** -/
theorem length_damaged_le (whole : ∀ record, Unbroken (write record)) (batches : List (Batch α)) :
    (damaged write batches).length ≤ (batches.map Batch.cuts).sum := by
  suffices bound : ∀ {rest : List Char}, Unbroken rest →
      ((marks write rest batches).filterMap Sum.getRight?).length ≤
        debt rest + (batches.map Batch.cuts).sum by
    simpa [damaged, debt] using bound unbroken_nil
  induction batches with
  | nil => simp [marks]
  | cons batch batches ih =>
      intro rest unbroken
      obtain ⟨-, -, later⟩ := eq_lines_append (rest ++ batch.written write)
      have here := count_finished_le whole unbroken batch
      have next := ih later
      simp only [marks, List.filterMap_append, List.length_append, List.map_cons, List.sum_cons]
      omega

/-! ### Survivors -/

theorem getLeft?_finished (rest : List Char) (records : List α) :
    (finished write rest records).filterMap Sum.getLeft? =
      if rest = [] then records else records.tail := by
  cases records with
  | nil => simp [finished]
  | cons record records =>
      rw [finished, List.filterMap_cons]
      split_ifs <;> simp [List.filterMap_map, Function.comp_def]

theorem unterminated_append (text more : List Char) :
    unterminated (text ++ more) = unterminated (unterminated text ++ more) := by
  rw [unterminated, splitLines_append]

variable (write) in
theorem marks_append (rest : List Char) (batches later : List (Batch α)) :
    marks write (unterminated rest) (batches ++ later) =
      marks write (unterminated rest) batches ++
        marks write (unterminated (rest ++ file write batches)) later := by
  induction batches generalizing rest with
  | nil => simp [marks, file]
  | cons batch batches ih =>
      rw [List.cons_append, marks, marks, ← unterminated_append, ih, List.append_assoc, file,
        file, List.flatMap_cons, List.append_assoc]

/-- **Records survive in order**, each at most as often as it is appended. -/
theorem survivors_sublist (batches : List (Batch α)) :
    (survivors write batches).Sublist (batches.flatMap Batch.records) := by
  suffices sublist : ∀ rest, ((marks write rest batches).filterMap Sum.getLeft?).Sublist
      (batches.flatMap Batch.records) from sublist []
  induction batches with
  | nil => exact fun rest => .slnil
  | cons batch batches ih =>
      intro rest
      rw [marks, List.filterMap_append, List.flatMap_cons, getLeft?_finished]
      refine List.Sublist.append ?_ (ih _)
      split_ifs
      · exact batch.kept_isPrefix.sublist
      · exact (List.tail_sublist _).trans batch.kept_isPrefix.sublist

variable (write) in
/-- **Of a batch that is not cut** everything survives if the journal ends in a line break, and
else everything but the first record. -/
theorem survivors_of_complete (before : List (Batch α)) {batch : Batch α}
    (complete : batch.cut = none) (later : List (Batch α)) :
    ∃ others, survivors write (before ++ batch :: later) =
      survivors write before ++
        (if unterminated (file write before) = [] then batch.records else batch.records.tail) ++
          others := by
  have kept : batch.kept write = batch.records := by simp [Batch.kept, complete]
  have split := marks_append write [] before (batch :: later)
  rw [show unterminated [] = [] from rfl, List.nil_append] at split
  let rest := unterminated (unterminated (file write before) ++ batch.written write)
  refine ⟨(marks write rest later).filterMap Sum.getLeft?, ?_⟩
  rw [survivors, split, marks, List.filterMap_append, List.filterMap_append, getLeft?_finished,
    kept, ← List.append_assoc]
  rfl

/-! ### Reading a journal -/

/-- Some beginnings of records, one behind the other. -/
def IsShards (write : α → List Char) (shards : List (List Char)) : Prop :=
  ∀ shard ∈ shards, shard ≠ [] ∧ ∃ record, shard <+: write record

/-- A reader of lines tells the line of a record from a damaged one. -/
structure Tells {β : Type*} (write : α → List Char) (value : α → β)
    (parse : List Char → Option β) : Prop where
  reads : ∀ record, parse (write record) = some (value record)
  refuses : ∀ {shards}, IsShards write shards → shards ≠ [] →
    ∀ record, parse (shards.flatten ++ write record) = none

variable (write) in
theorem exists_torn (batch : Batch α) :
    batch.torn write = [] ∨ ∃ record, batch.torn write <+: write record := by
  have fits : ∀ (room : ℕ) (records : List α),
      (fit write room records).2 = [] ∨ ∃ record, (fit write room records).2 <+: write record := by
    intro room records
    induction records generalizing room with
    | nil => exact Or.inl rfl
    | cons record records ih =>
        rw [fit]
        split_ifs
        · exact ih _
        · exact Or.inr ⟨record, List.take_prefix _ _⟩
  unfold Batch.torn
  cases batch.cut with
  | none => exact Or.inl rfl
  | some room => exact fits room _

theorem IsShards.append {shards : List (List Char)} (isShards : IsShards write shards)
    {torn : List Char} (part : torn = [] ∨ ∃ record, torn <+: write record) :
    ∃ shards', IsShards write shards' ∧ shards.flatten ++ torn = shards'.flatten := by
  by_cases none : torn = []
  · exact ⟨shards, isShards, by simp [none]⟩
  · obtain ⟨record, isPrefix⟩ := part.resolve_left none
    refine ⟨shards ++ [torn], ?_, by simp⟩
    exact List.forall_mem_append.mpr
      ⟨isShards, List.forall_mem_singleton.mpr ⟨none, record, isPrefix⟩⟩

/-- **A reader that passes over what it cannot read finds the survivors**, and nothing else. -/
theorem filterMap_parse_lines {β : Type*} {value : α → β} {parse : List Char → Option β}
    (tells : Tells write value parse) (whole : ∀ record, Unbroken (write record))
    (batches : List (Batch α)) :
    (lines (file write batches)).filterMap parse = (survivors write batches).map value := by
  suffices reads : ∀ shards, IsShards write shards →
      ((marks write shards.flatten batches).map (Sum.elim write id)).filterMap parse =
        ((marks write shards.flatten batches).filterMap Sum.getLeft?).map value by
    have start := reads [] (List.forall_mem_nil _)
    have all := lines_file whole batches unbroken_nil
    rw [List.nil_append] at all
    rw [all]
    exact start
  induction batches with
  | nil => exact fun _ _ => rfl
  | cons batch batches ih =>
      intro shards isShards
      have unbroken : Unbroken shards.flatten := by
        intro mem
        obtain ⟨shard, inShards, mem⟩ := List.mem_flatten.mp mem
        obtain ⟨-, record, isPrefix⟩ := isShards shard inShards
        exact whole record (isPrefix.subset mem)
      have first : ((finished write shards.flatten (batch.kept write)).map
          (Sum.elim write id)).filterMap parse =
            ((finished write shards.flatten (batch.kept write)).filterMap
              Sum.getLeft?).map value := by
        have others : ∀ records : List α,
            ((records.map (Sum.inl : α → Mark α)).map (Sum.elim write id)).filterMap parse =
              ((records.map (Sum.inl : α → Mark α)).filterMap Sum.getLeft?).map value := by
          intro records
          simp [List.filterMap_map, Function.comp_def, tells.reads]
        cases batch.kept write with
        | nil => rfl
        | cons record records =>
            rw [finished]
            split_ifs with clean
            · exact others (record :: records)
            · have refused : parse (Sum.elim write id (.inr (shards.flatten ++ write record))) =
                  none := tells.refuses isShards (fun none => clean (by simp [none])) record
              rw [List.map_cons, List.filterMap_cons_none refused, List.filterMap_cons_none rfl]
              exact others records
      obtain ⟨shards', isShards', rest⟩ : ∃ shards', IsShards write shards' ∧
          unterminated (shards.flatten ++ batch.written write) = shards'.flatten := by
        rw [unterminated, splitLines_written whole unbroken batch]
        have part := exists_torn write batch
        dsimp only
        split_ifs
        · exact isShards.append part
        · have nothing : IsShards write [] := List.forall_mem_nil _
          simpa using nothing.append part
      rw [marks, rest, List.map_append, List.filterMap_append, List.filterMap_append,
        List.map_append, first, ih shards' isShards']

end Records

end LineJournal

end TrustRouter
