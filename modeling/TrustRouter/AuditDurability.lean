import TrustRouter.AuditLines

/-!
# Durability of the audit file

`append_events_jsonl` opens the file to append, writes a line for each event and syncs.  A
process that is killed in it, or a disk that is full, leaves only the beginning of what it was
to write, and the next append, of the same process or of a new one, goes on behind it.

Any number of appends is considered, each of which may be cut at any character.  A reader that
passes over the lines it cannot read finds exactly the events whose lines were not torn and did
not come behind a torn one, in the order they were appended (`recovered`): a torn line is not
read with the line behind it as some event that has never been.  An append that is not cut, which
is one whose caller is told `Ok`, loses at most its first event, and none unless it comes behind a
torn line (`acknowledged`).

The lines that `appendEventsJsonl` counts are those of this file, for a call that fails between
two lines (`lines_of_calls`).  Of the texts it is only asked that there are no line breaks in
them.
-/

namespace TrustRouter

open JsonText LineJournal SerdeJson

/-! ## The file -/

section File

variable (render : Json → String)

/-- The file after some batches. -/
def auditFile (batches : List (Batch AuditEvent)) : List Char :=
  file (AuditEvent.line render) batches

/-- The events whose lines are whole. -/
def wholeEvents (batches : List (Batch AuditEvent)) : List AuditEvent :=
  survivors (AuditEvent.line render) batches

end File

namespace AuditEvent

/-! ## Lines as entries -/

/-- A name that begins with a character that cannot stand behind a string. -/
def Named (key : String) : Prop :=
  (key.toList.head?.any fun c => decide (c ∉ separators ∧ c ∉ blanks)) = true

instance (key : String) : Decidable (Named key) := inferInstanceAs (Decidable (_ = true))

theorem named_of_mem_fields (event : AuditEvent) :
    ∀ entry ∈ event.fields, Plain entry.1 ∧ Named entry.1 := by
  cases event <;>
    simp only [fields, toJson, List.forall_mem_cons, List.not_mem_nil, false_imp_iff,
      implies_true, and_true] <;>
    decide

variable [SerdeJson] [JsonReader]

/-- The line of an event is an entry. -/
theorem entry_line (event : AuditEvent) : Entry (event.line toText) where
  shaped := shaped_toText _
  closes := by
    rw [line_eq, toJson_eq]
    exact (ends_toText_object event.nodup_fields).2
  opens := by
    obtain ⟨kind, mem, -, -⟩ := event.exists_tag
    obtain ⟨field, listed, rest, text⟩ :=
      exists_first event.nodup_fields (List.ne_nil_of_mem mem)
    obtain ⟨plain, named⟩ := event.named_of_mem_fields field listed
    rw [toText_of_plain plain, quoted] at text
    unfold Named at named
    cases name : field.1.toList with
    | nil => simp [name] at named
    | cons c others =>
        obtain ⟨separates, notBlank⟩ : c ∉ separators ∧ c ∉ blanks := by simpa [name] using named
        refine ⟨c, others ++ '"' :: rest, separates, notBlank, ?_⟩
        rw [line_eq, toJson_eq, text, name]
        simp

/-- A reader tells the line of an event from what is left of others with a line behind it. -/
theorem tells : Tells (line toText) readable ofLine where
  reads := ofLine_line
  refuses := by
    intro shards isShards some_ event
    have torn : Shards shards := fun shard mem => by
      obtain ⟨begun, other, isPrefix⟩ := isShards shard mem
      exact ⟨begun, other.line toText, other.entry_line, isPrefix⟩
    cases read : JsonReader.read (shards.flatten ++ event.line toText) with
    | none => rw [ofLine, read, Option.bind_none]
    | some value =>
        exact absurd (JsonReader.shaped_of_read read)
          (not_shaped_shards_append torn some_ event.entry_line)

end AuditEvent

/-! ## Appends -/

section Appends

variable [SerdeJson] [JsonReader]

/-- A reader finds the events whose lines are whole. -/
theorem readFile_auditFile (batches : List (Batch AuditEvent)) :
    readFile (auditFile toText batches) =
      (wholeEvents toText batches).map AuditEvent.readable :=
  filterMap_parse_lines AuditEvent.tells AuditEvent.unbroken_line batches

/-- What is left of some events. -/
structure Recovered (batches : List (Batch AuditEvent)) : Prop where
  /-- A reader finds the events whose lines are whole. -/
  reads : readFile (auditFile toText batches) =
    (wholeEvents toText batches).map AuditEvent.readable
  /-- They are events that were appended, in the order in which they were. -/
  inOrder : (wholeEvents toText batches).Sublist (batches.flatMap Batch.records)
  /-- Each cut damages at most one line. -/
  damaged : (lines (auditFile toText batches)).length ≤
    (wholeEvents toText batches).length + (batches.filter (·.cut ≠ none)).length

omit [SerdeJson] [JsonReader] in
theorem sum_cuts (batches : List (Batch AuditEvent)) :
    (batches.map Batch.cuts).sum = (batches.filter (·.cut ≠ none)).length := by
  induction batches with
  | nil => rfl
  | cons append appends ih =>
      rw [List.map_cons, List.sum_cons, ih, Batch.cuts, List.filter_cons]
      split_ifs <;> simp_all [Nat.add_comm]

/-- **A file is recovered after any appends**, however they are cut. -/
theorem recovered (batches : List (Batch AuditEvent)) : Recovered batches where
  reads := readFile_auditFile batches
  inOrder := survivors_sublist batches
  damaged := by
    have all := lines_file AuditEvent.unbroken_line batches unbroken_nil
    have cuts := length_damaged_le AuditEvent.unbroken_line batches
    rw [sum_cuts] at cuts
    rw [auditFile, ← List.nil_append (file _ _), all, List.length_map, length_marks]
    exact Nat.add_le_add_left cuts _

omit [SerdeJson] [JsonReader] in
/-- Of three appends the first and the last are cut, and the first line of the second is lost. -/
theorem recovered_of_cuts :
    let _ := SerdeJson.ofTable sampleNumbers
    let _ := JsonReader.ofTable sampleNumbers
    let opened := AuditEvent.healthChanged "acme" "a" .open true
    let probed := AuditEvent.recoveryProbeOpened "acme" "a"
    let batches : List (Batch AuditEvent) :=
      [⟨[opened], some 7⟩, ⟨[opened, probed], none⟩, ⟨[probed, opened], some 90⟩]
    wholeEvents toText batches = [probed, probed] ∧ Recovered batches := by
  intro _ _ opened probed batches
  exact ⟨by decide +kernel, recovered batches⟩

/-- **What has been acknowledged is kept.**  Of an append that is not cut, all but the first
event are found in the file ever after, one behind the other; the first is found too unless there
is a torn line before it. -/
theorem acknowledged (before : List (Batch AuditEvent)) (batch : Batch AuditEvent)
    (complete : batch.cut = none) (later : List (Batch AuditEvent)) :
    (batch.records.tail.map AuditEvent.readable <:+:
        readFile (auditFile toText (before ++ batch :: later))) ∧
      (unterminated (auditFile toText before) = [] →
        batch.records.map AuditEvent.readable <:+:
          readFile (auditFile toText (before ++ batch :: later))) := by
  obtain ⟨others, kept⟩ := survivors_of_complete (AuditEvent.line toText) before complete later
  have read := readFile_auditFile (before ++ batch :: later)
  rw [wholeEvents, kept] at read
  rw [read]
  constructor
  · refine List.IsInfix.map _
      (List.IsInfix.trans ?_ ⟨survivors (AuditEvent.line toText) before, others, rfl⟩)
    split_ifs
    · exact (List.tail_suffix _).isInfix
    · exact List.infix_rfl
  · intro last
    rw [show unterminated (file (AuditEvent.line toText) before) = [] from last, if_pos rfl]
    exact List.IsInfix.map _ ⟨_, _, rfl⟩

omit [SerdeJson] [JsonReader] in
/-- Two reports behind a torn line, and behind an append that has been cut at once. -/
theorem acknowledged_behind_cuts :
    let _ := SerdeJson.ofTable sampleNumbers
    let _ := JsonReader.ofTable sampleNumbers
    let opened := AuditEvent.healthChanged "acme" "a" .open true
    let probed := AuditEvent.recoveryProbeOpened "acme" "a"
    [probed] <:+: readFile
        (auditFile toText [⟨[opened], some 7⟩, ⟨[opened, probed], none⟩, ⟨[opened], some 9⟩]) ∧
      [opened, probed] <:+: readFile
        (auditFile toText [⟨[probed], none⟩, ⟨[opened], some 0⟩, ⟨[opened, probed], none⟩,
          ⟨[opened], some 9⟩]) := by
  intro _ _ opened probed
  have terminated :
      unterminated (auditFile toText [⟨[probed], none⟩, ⟨[opened], some 0⟩]) = [] := by
    decide +kernel
  exact ⟨(acknowledged [⟨[opened], some 7⟩] ⟨[opened, probed], none⟩ rfl [⟨[opened], some 9⟩]).1,
    (acknowledged [⟨[probed], none⟩, ⟨[opened], some 0⟩] ⟨[opened, probed], none⟩ rfl
      [⟨[opened], some 9⟩]).2 terminated⟩

end Appends

/-! ## Calls -/

section Calls

variable (render : Json → String)

/-- A call that fails once it has written some lines. -/
def Batch.ofCall (call : Option (ℕ × String) × List AuditEvent) : Batch AuditEvent where
  records := call.2
  cut := call.1.map fun fault => (text (AuditEvent.line render) (call.2.take fault.1)).length

/-- The events whose lines a call writes. -/
def writtenEvents (call : Option (ℕ × String) × List AuditEvent) : List AuditEvent :=
  match call.1 with
  | none => call.2
  | some (k, _) => call.2.take k

theorem kept_ofCall (call : Option (ℕ × String) × List AuditEvent) :
    (Batch.ofCall render call).kept (AuditEvent.line render) = writtenEvents call ∧
      (Batch.ofCall render call).torn (AuditEvent.line render) = [] := by
  obtain ⟨fault, events⟩ := call
  cases fault with
  | none => exact ⟨rfl, rfl⟩
  | some fault =>
      have fits := fit_text_take (AuditEvent.line render) events fault.1
      exact ⟨congrArg Prod.fst fits, congrArg Prod.snd fits⟩

theorem map_appendEventsJsonl (call : Option (ℕ × String) × List AuditEvent)
    (file : List String) :
    ((appendEventsJsonl render call.1 file call.2).1).map String.toList =
      file.map String.toList ++ (writtenEvents call).map (AuditEvent.line render) := by
  obtain ⟨fault, events⟩ := call
  have lines : ∀ events : List AuditEvent,
      (events.map (AuditEvent.toJsonLine render)).map String.toList =
        events.map (AuditEvent.line render) := fun events => List.map_map
  cases fault with
  | none => exact List.map_append.trans (congrArg _ (lines events))
  | some fault => exact List.map_append.trans (congrArg _ (lines (events.take fault.1)))

/-- **The lines that are counted are those of the file**, if no text has a line break in it. -/
theorem lines_of_calls (oneLine : ∀ json, '\n' ∉ (render json).toList)
    (calls : List (Option (ℕ × String) × List AuditEvent)) :
    (calls.foldl (fun file call => (appendEventsJsonl render call.1 file call.2).1) []).map
        String.toList = lines (auditFile render (calls.map (Batch.ofCall render))) := by
  have whole : ∀ event : AuditEvent, Unbroken (event.line render) := fun event =>
    oneLine event.toJson
  suffices both : splitLines (auditFile render (calls.map (Batch.ofCall render))) =
      ((calls.foldl (fun file call => (appendEventsJsonl render call.1 file call.2).1) []).map
        String.toList, []) from (congrArg Prod.fst both).symm
  induction calls using List.reverseRecOn with
  | nil => rfl
  | append_singleton calls call ih =>
      obtain ⟨kept, torn⟩ := kept_ofCall render call
      have last := splitLines_written whole unbroken_nil (Batch.ofCall render call)
      rw [kept, torn, List.nil_append] at last
      rw [List.foldl_concat, map_appendEventsJsonl, List.map_append, auditFile, file,
        List.flatMap_append, ← file, ← auditFile, splitLines_append, lines, unterminated, ih,
        lines, unterminated, List.map_singleton, List.flatMap_singleton, List.nil_append, last]
      cases writtenEvents call <;> simp [finished]

/-- The second of three calls fails once it has written a line. -/
theorem lines_of_calls_of_three :
    let _ := SerdeJson.ofTable sampleNumbers
    let opened := AuditEvent.healthChanged "acme" "a" .open true
    let probed := AuditEvent.recoveryProbeOpened "acme" "a"
    let calls : List (Option (ℕ × String) × List AuditEvent) :=
      [(none, [opened]), (some (1, "disk full"), [probed, opened]), (none, [opened, probed])]
    (calls.foldl (fun file call => (appendEventsJsonl toText call.1 file call.2).1) []).map
        String.toList = lines (auditFile toText (calls.map (Batch.ofCall toText))) := by
  intro _ opened probed calls
  exact lines_of_calls toText (fun json breaks => absurd (notControl_of_mem json _ breaks)
    (by decide)) calls

end Calls

end TrustRouter
