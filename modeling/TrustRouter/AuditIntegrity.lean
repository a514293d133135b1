import TrustRouter.Fabric
import TrustRouter.Prelude.Run

/-!
# The audit chain

Each record of the chain carries the hash of the record before it and a hash of its own, and
`verify_integrity` computes the hashes again.  The oldest records are dropped once there are
too many, and the first record that is left keeps the hash of one that is gone.

What the chain holds is a suffix of the history of all records ever appended, linked the
same way (`records_after`).  So it verifies (`verifyIntegrity_after`).

What it would notice is another question (`verifyIntegrity_replace_iff`).  A record's hash is
taken of three of its fields, joined by hyphens; a record can be replaced by any other with
the same joined text, and the last one by any record that carries its own hash.
-/

namespace TrustRouter

namespace AuditRecord

variable [Md5]

/-- The record carries the hash of its own fields. -/
def IsSealed (record : AuditRecord) : Prop :=
  record.currentHash = computeHash record.eventId record.previousHash record.actor

/-- The next record carries the hash of this one. -/
def Links (record next : AuditRecord) : Prop := next.previousHash = record.currentHash

instance (record : AuditRecord) : Decidable record.IsSealed :=
  inferInstanceAs (Decidable (record.currentHash = _))

omit [Md5] in
/-- The text that is hashed. -/
def hashedText (record : AuditRecord) : String :=
  record.eventId ++ "-" ++ record.previousHash ++ "-" ++ record.actor

theorem computeHash_eq (record : AuditRecord) :
    computeHash record.eventId record.previousHash record.actor = Md5.hex record.hashedText :=
  rfl

end AuditRecord

namespace AuditChain

variable [Md5]

/-- The loop of `verify_integrity`. -/
def verifyRecords : List AuditRecord → Except String Unit
  | [] => .ok ()
  | record :: rest =>
      if record.currentHash ≠
          AuditRecord.computeHash record.eventId record.previousHash record.actor then
        .error "TAMPERED_RECORD"
      else if rest.head?.any fun next => next.previousHash != record.currentHash then
        .error "BROKEN_CHAIN"
      else verifyRecords rest

def verifyIntegrity (chain : AuditChain) : Except String Unit := verifyRecords chain.records

omit [Md5] in
theorem unbroken_iff {record : AuditRecord} {rest : List AuditRecord} :
    (rest.head?.any fun next => next.previousHash != record.currentHash) = false ↔
      ∀ next ∈ rest.head?, record.Links next := by
  cases rest with
  | nil => simp
  | cons next rest => simp [AuditRecord.Links]

/-- What is verified: every record by itself, and every two neighbours. -/
theorem verifyRecords_eq_ok_iff {records : List AuditRecord} :
    verifyRecords records = .ok () ↔
      (∀ record ∈ records, record.IsSealed) ∧ records.IsChain AuditRecord.Links := by
  induction records with
  | nil => simp [verifyRecords]
  | cons record rest ih =>
      rw [verifyRecords, List.forall_mem_cons, List.isChain_cons]
      split_ifs with unsealed broken
      · refine iff_of_false (by simp) fun passes => unsealed passes.1.1
      · refine iff_of_false (by simp) fun passes => ?_
        rw [unbroken_iff.mpr passes.2.1] at broken
        cases broken
      · have unbroken := unbroken_iff.mp (Bool.not_eq_true _ ▸ broken)
        rw [ih]
        exact ⟨fun ⟨seals, links⟩ => ⟨⟨not_not.mp unsealed, seals⟩, unbroken, links⟩,
          fun passes => ⟨passes.1.2, passes.2.2⟩⟩

/-! ## Honest chains -/

end AuditChain

/-- A call of `append`, with the reading of the clock in it. -/
structure AuditAppend where
  eventId : String
  actor : String
  worldRevision : ℕ
  now : SystemTime
  deriving DecidableEq

/-- What was appended for a record. -/
def AuditRecord.appended (record : AuditRecord) : AuditAppend :=
  ⟨record.eventId, record.actor, record.worldRevision, record.timestamp⟩

namespace AuditChain

variable [Md5]

def step (chain : AuditChain) (call : AuditAppend) : AuditChain :=
  chain.append call.eventId call.actor call.worldRevision call.now

/-- The chain after some calls of `append`. -/
def after (maxRecords : ℕ) (appends : List AuditAppend) : AuditChain :=
  run step (new maxRecords) appends

/-- The record that is appended to some records. -/
def recordOf (records : List AuditRecord) (call : AuditAppend) : AuditRecord :=
  let previousHash := (records.getLast?.map (·.currentHash)).getD "genesis"
  { schemaVersion := 1
    eventId := call.eventId
    previousHash := previousHash
    currentHash := AuditRecord.computeHash call.eventId previousHash call.actor
    timestamp := call.now
    actor := call.actor
    worldRevision := call.worldRevision }

/-- All records ever appended. -/
def history (appends : List AuditAppend) : List AuditRecord :=
  appends.foldl (fun records call => records ++ [recordOf records call]) []

theorem history_concat (appends : List AuditAppend) (call : AuditAppend) :
    history (appends ++ [call]) = history appends ++ [recordOf (history appends) call] := by
  simp [history]

/-- How many records a chain keeps. -/
theorem maxRecords_after (maxRecords : ℕ) (appends : List AuditAppend) :
    (after maxRecords appends).maxRecords = min (max maxRecords 1) 100000 := by
  unfold after
  refine run_induction (P := fun chain : AuditChain =>
    chain.maxRecords = min (max maxRecords 1) 100000) ?_ ?_ appends
  · rfl
  · intro chain call kept
    exact kept

/-- **The chain holds the end of the history.**  The record that is dropped before a push is
not the one that the new record links to, or else nothing is left to link. -/
theorem records_after (maxRecords : ℕ) (appends : List AuditAppend) :
    (after maxRecords appends).records =
      Ring.latest (min (max maxRecords 1) 100000) (history appends) := by
  have pos : 0 < min (max maxRecords 1) 100000 := by omega
  induction appends using List.reverseRecOn with
  | nil => simp [after, new, history, Ring.latest]
  | append_singleton appends call ih =>
      have grown : (after maxRecords (appends ++ [call])).records =
          Ring.pushBounded (after maxRecords appends).maxRecords
            (after maxRecords appends).records
            (recordOf (after maxRecords appends).records call) := by
        unfold after
        rw [run_concat]
        rfl
      have same : recordOf (Ring.latest (min (max maxRecords 1) 100000) (history appends)) call =
          recordOf (history appends) call := by
        unfold recordOf
        rw [Ring.getLast?_latest pos]
      rw [grown, maxRecords_after, ih, same, history_concat, Ring.pushBounded_latest pos]

theorem appended_history (appends : List AuditAppend) :
    (history appends).map AuditRecord.appended = appends := by
  induction appends using List.reverseRecOn with
  | nil => rfl
  | append_singleton appends call ih =>
      rw [history_concat, List.map_append, ih]
      rfl

theorem isSealed_history (appends : List AuditAppend) :
    ∀ record ∈ history appends, record.IsSealed := by
  induction appends using List.reverseRecOn with
  | nil => simp [history]
  | append_singleton appends call ih =>
      rw [history_concat]
      intro record mem
      rcases List.mem_append.mp mem with mem | mem
      · exact ih record mem
      · rw [List.mem_singleton.mp mem]
        rfl

theorem isChain_history (appends : List AuditAppend) :
    (history appends).IsChain AuditRecord.Links := by
  induction appends using List.reverseRecOn with
  | nil => exact List.IsChain.nil
  | append_singleton appends call ih =>
      rw [history_concat, List.isChain_append]
      refine ⟨ih, List.isChain_singleton _, fun last isLast next isNext => ?_⟩
      obtain rfl := Option.some.inj isNext
      show (recordOf (history appends) call).previousHash = last.currentHash
      simp [recordOf, Option.mem_def.mp isLast]

theorem isSealed_after {maxRecords : ℕ} {appends : List AuditAppend} :
    ∀ record ∈ (after maxRecords appends).records, record.IsSealed := by
  intro record mem
  rw [records_after] at mem
  exact isSealed_history appends record (List.mem_of_mem_drop mem)

theorem isChain_after (maxRecords : ℕ) (appends : List AuditAppend) :
    (after maxRecords appends).records.IsChain AuditRecord.Links := by
  rw [records_after]
  exact (isChain_history appends).drop _

theorem verifyRecords_after (maxRecords : ℕ) (appends : List AuditAppend) :
    verifyRecords (after maxRecords appends).records = .ok () :=
  verifyRecords_eq_ok_iff.mpr ⟨isSealed_after, isChain_after maxRecords appends⟩

/-- **An honest chain verifies.**  It holds the latest events in order, and each of its
records links to the one before it. -/
theorem verifyIntegrity_after (maxRecords : ℕ) (appends : List AuditAppend) :
    (after maxRecords appends).verifyIntegrity = .ok () ∧
      (after maxRecords appends).records.map AuditRecord.appended =
        Ring.latest (min (max maxRecords 1) 100000) appends ∧
      (after maxRecords appends).records.IsChain fun record next =>
        next.previousHash = record.currentHash := by
  refine ⟨verifyRecords_after maxRecords appends, ?_, isChain_after maxRecords appends⟩
  have length : (history appends).length = appends.length := by
    simpa using congrArg List.length (appended_history appends)
  rw [records_after, Ring.latest, List.map_drop, appended_history, length]
  rfl

/-! ## Replaced records -/

/-- The replacement carries its own hash, and its neighbours cannot tell it from the record:
the previous one, if there is one, is still what it links to, and the next one, if there is
one, still links to the text it has hashed. -/
structure PassesFor (before : List AuditRecord) (record : AuditRecord)
    (rest : List AuditRecord) (replacement : AuditRecord) : Prop where
  isSealed : replacement.IsSealed
  previous : before ≠ [] → replacement.previousHash = record.previousHash
  next : rest ≠ [] → replacement.hashedText = record.hashedText

/-- Replacing a record of a chain that verifies. -/
theorem verifyRecords_replace (injective : Function.Injective Md5.hex)
    {before rest : List AuditRecord} {record : AuditRecord}
    (verifies : verifyRecords (before ++ record :: rest) = .ok ()) (replacement : AuditRecord) :
    verifyRecords (before ++ replacement :: rest) = .ok () ↔
      PassesFor before record rest replacement := by
  rw [verifyRecords_eq_ok_iff] at verifies ⊢
  rw [List.isChain_append, List.isChain_cons] at verifies ⊢
  obtain ⟨seals, front, ⟨next, back⟩, previous⟩ := verifies
  have sealed : record.IsSealed := seals record (by simp)
  constructor
  · rintro ⟨seals', -, ⟨next', -⟩, previous'⟩
    have sealed' : replacement.IsSealed := seals' replacement (by simp)
    refine ⟨sealed', fun nonempty => ?_, fun nonempty => ?_⟩
    · have last := List.getLast?_eq_some_getLast nonempty
      exact (previous' _ last replacement rfl).trans (previous _ last record rfl).symm
    · have head := List.head?_eq_some_head nonempty
      have hash : replacement.currentHash = record.currentHash :=
        (next' _ head).symm.trans (next _ head)
      rw [sealed, sealed', AuditRecord.computeHash_eq, AuditRecord.computeHash_eq] at hash
      exact injective hash
  · rintro ⟨sealed', previous', next'⟩
    refine ⟨fun other mem => ?_, front, ⟨fun other isNext => ?_, back⟩, fun last isLast => ?_⟩
    · rcases List.mem_append.mp mem with mem | mem
      · exact seals other (List.mem_append_left _ mem)
      · rcases List.mem_cons.mp mem with rfl | mem
        · exact sealed'
        · exact seals other (List.mem_append_right _ (List.mem_cons_of_mem _ mem))
    · have nonempty : rest ≠ [] := fun empty => by simp [empty] at isNext
      have hash : replacement.currentHash = record.currentHash := by
        rw [sealed, sealed', AuditRecord.computeHash_eq, AuditRecord.computeHash_eq,
          next' nonempty]
      exact (next other isNext).trans hash.symm
    · have nonempty : before ≠ [] := fun empty => by simp [empty] at isLast
      intro other same
      obtain rfl := Option.some.inj same
      exact (previous' nonempty).trans (previous last isLast record rfl)

omit [Md5] in
theorem ne_ok_iff {result : Except String Unit} :
    result ≠ .ok () ↔ ∃ error, result = .error error := by
  cases result with
  | error error => simp
  | ok value => simp

/-- **When a replaced record is noticed.** -/
theorem verifyIntegrity_replace_iff (injective : Function.Injective Md5.hex) (maxRecords : ℕ)
    (appends : List AuditAppend) {before rest : List AuditRecord} {record : AuditRecord}
    (retained : (after maxRecords appends).records = before ++ record :: rest)
    (replacement : AuditRecord) :
    (∃ error, ({ after maxRecords appends with
        records := before ++ replacement :: rest }).verifyIntegrity = .error error) ↔
      ¬ PassesFor before record rest replacement := by
  have verifies := verifyRecords_after maxRecords appends
  rw [retained] at verifies
  rw [← ne_ok_iff, ← verifyRecords_replace injective verifies]
  rfl

/-- A function that gives some texts the digests that are known of them. -/
def hexOfKnown (known : List (String × String)) (text : String) : String :=
  (known.lookup text).getD ("-" ++ text)

omit [Md5] in
/-- It is injective if they have different digests, of which none begins with a hyphen. -/
theorem injective_hexOfKnown {known : List (String × String)}
    (distinct : (known.map Prod.snd).Nodup)
    (digests : ∀ entry ∈ known, entry.2.toList.head? ≠ some '-') :
    Function.Injective (hexOfKnown known) := by
  have isKnown : ∀ {text digest}, known.lookup text = some digest → (text, digest) ∈ known := by
    intro text digest found
    obtain ⟨before, after, eq, -⟩ := List.lookup_eq_some_iff.mp found
    rw [eq]
    simp
  have apart : ∀ {text digest} other, known.lookup text = some digest → digest ≠ "-" ++ other := by
    rintro text _ other found rfl
    exact digests _ (isKnown found) (by simp)
  intro first second same
  unfold hexOfKnown at same
  cases found : known.lookup first with
  | some digest =>
      cases found' : known.lookup second with
      | some digest' =>
          rw [found, found'] at same
          obtain rfl : digest = digest' := same
          have entries := List.inj_on_of_nodup_map distinct (isKnown found) (isKnown found') rfl
          exact congrArg Prod.fst entries
      | none =>
          rw [found, found'] at same
          exact absurd same (apart second found)
  | none =>
      cases found' : known.lookup second with
      | some digest =>
          rw [found, found'] at same
          exact absurd same.symm (apart first found')
      | none =>
          rw [found, found'] at same
          exact (String.append_right_inj "-").mp same

/-- MD5, as far as the events below go. -/
abbrev knownMd5 : Md5 :=
  ⟨hexOfKnown
    [("evt-1-genesis-operator", "494efbb20f2a4493b86187627ae98901"),
      ("evt-2-494efbb20f2a4493b86187627ae98901-operator", "6d899dee32a5179a2d37a0be93a178cd"),
      ("evt-3-6d899dee32a5179a2d37a0be93a178cd-operator", "8ec7412c0e064bc1285b95b19f62ed47"),
      ("evt-7-494efbb20f2a4493b86187627ae98901-operator", "9370a8769f9147eb4858342aef2ffc23")]⟩

omit [Md5] in
theorem injective_knownMd5 : Function.Injective knownMd5.hex :=
  injective_hexOfKnown (by decide) (by decide)

omit [Md5] in
/-- The record in the middle names another event, and carries the hash that goes with it. -/
theorem verifyIntegrity_replace_iff_renamed :
    letI := knownMd5
    let chain := after 100
      [⟨"evt-1", "operator", 1, 0⟩, ⟨"evt-2", "operator", 2, 0⟩, ⟨"evt-3", "operator", 3, 0⟩]
    ∃ first second third, chain.records = [first, second, third] ∧
      let renamed : AuditRecord := { second with
        eventId := "evt-7"
        currentHash := "9370a8769f9147eb4858342aef2ffc23" }
      renamed.IsSealed ∧
        ∃ error, ({ chain with records := [first, renamed, third] }).verifyIntegrity =
          .error error := by
  let _ := knownMd5
  intro chain
  let first := recordOf [] ⟨"evt-1", "operator", 1, 0⟩
  let second := recordOf [first] ⟨"evt-2", "operator", 2, 0⟩
  let third := recordOf [first, second] ⟨"evt-3", "operator", 3, 0⟩
  have retained : chain.records = [first] ++ second :: [third] := by decide
  refine ⟨first, second, third, retained, ?_⟩
  intro renamed
  have isSealed : renamed.IsSealed := by decide
  refine ⟨isSealed, (verifyIntegrity_replace_iff injective_knownMd5 100 _ retained renamed).mpr ?_⟩
  -- the next record does not link to it
  intro passes
  exact absurd (passes.next (List.cons_ne_nil _ _)) (by decide)

/-- A replacement that differs from the record in what the chain is to protect. -/
def Altered (record replacement : AuditRecord) : Prop :=
  replacement.eventId ≠ record.eventId ∨ replacement.actor ≠ record.actor ∨
    replacement.previousHash ≠ record.previousHash ∨
    replacement.currentHash ≠ record.currentHash ∨
    replacement.worldRevision ≠ record.worldRevision ∨ replacement.timestamp ≠ record.timestamp

omit [Md5] in
/-- The world revision of a record is not hashed: whatever the digest is, the first of two
records can be given another. -/
theorem altered_unnoticed :
    ¬ ∃ _ : Md5, Function.Injective Md5.hex ∧
      ∀ (maxRecords : ℕ) (appends : List AuditAppend) (before rest : List AuditRecord)
        (record replacement : AuditRecord),
        (after maxRecords appends).records = before ++ record :: rest →
          Altered record replacement →
            ∃ error, ({ after maxRecords appends with
              records := before ++ replacement :: rest }).verifyIntegrity = .error error := by
  rintro ⟨md5, injective, noticed⟩
  let first : AuditRecord := recordOf [] ⟨"evt-1", "operator", 1, 0⟩
  let second : AuditRecord := recordOf [first] ⟨"evt-2", "operator", 2, 0⟩
  have retained : (after 100 [⟨"evt-1", "operator", 1, 0⟩, ⟨"evt-2", "operator", 2, 0⟩]).records =
      first :: [second] := rfl
  obtain ⟨error, refused⟩ := noticed 100 _ [] [second] first { first with worldRevision := 7 }
    retained (by simp [Altered, first, recordOf])
  have verifies : verifyRecords ([] ++ first :: [second]) = .ok () :=
    retained ▸ verifyRecords_after 100
      [⟨"evt-1", "operator", 1, 0⟩, ⟨"evt-2", "operator", 2, 0⟩]
  have unnoticed := (verifyRecords_replace injective verifies
    { first with worldRevision := 7 }).mpr ⟨rfl, fun _ => rfl, fun _ => rfl⟩
  exact absurd (unnoticed.symm.trans refused) (by simp)

end AuditChain

/-! ## What a hash pins down -/

namespace AuditRecord

/-- The text that is hashed, spelled out. -/
theorem toList_joined (eventId previousHash actor : String) :
    (eventId ++ "-" ++ previousHash ++ "-" ++ actor).toList =
      eventId.toList ++ '-' :: (previousHash.toList ++ '-' :: actor.toList) := by
  simp [List.append_assoc]

/-- A text with a hyphen in it is joined from two. -/
theorem exists_joined_of_mem {text : String} (mem : '-' ∈ text.toList) :
    ∃ first second, text = first ++ "-" ++ second := by
  obtain ⟨first, second, split⟩ := List.append_of_mem mem
  refine ⟨.ofList first, .ofList second, String.toList_inj.mp ?_⟩
  simpa [List.append_assoc] using split

theorem joined_ne (first second : String) :
    first ++ "-" ++ second ≠ first ∧ first ++ "-" ++ second ≠ second := by
  constructor <;>
  · intro same
    have lengths := congrArg String.length same
    simp only [String.length_append] at lengths
    have hyphen : "-".length = 1 := rfl
    omega

variable [Md5]

/-- No other fields have this hash. -/
def PinsDown (eventId previousHash actor : String) : Prop :=
  ∀ eventId' previousHash' actor',
    computeHash eventId' previousHash' actor' = computeHash eventId previousHash actor →
      eventId' = eventId ∧ previousHash' = previousHash ∧ actor' = actor

/-- **A hash pins its fields down** if and only if there is no hyphen in them. -/
theorem pinsDown_iff (injective : Function.Injective Md5.hex)
    (eventId previousHash actor : String) :
    PinsDown eventId previousHash actor ↔
      '-' ∉ eventId.toList ∧ '-' ∉ previousHash.toList ∧ '-' ∉ actor.toList := by
  constructor
  · intro pinsDown
    -- a hyphen in a field can as well be the one that ends it
    refine ⟨fun mem => ?_, fun mem => ?_, fun mem => ?_⟩
    · obtain ⟨first, second, rfl⟩ := exists_joined_of_mem mem
      have same := pinsDown first (second ++ "-" ++ previousHash) actor
        (congrArg Md5.hex (by simp only [String.append_assoc]))
      exact (joined_ne first second).1 same.1.symm
    · obtain ⟨first, second, rfl⟩ := exists_joined_of_mem mem
      have same := pinsDown eventId first (second ++ "-" ++ actor)
        (congrArg Md5.hex (by simp only [String.append_assoc]))
      exact (joined_ne first second).1 same.2.1.symm
    · obtain ⟨first, second, rfl⟩ := exists_joined_of_mem mem
      have same := pinsDown (eventId ++ "-" ++ previousHash) first second
        (congrArg Md5.hex (by simp only [String.append_assoc]))
      exact (joined_ne first second).2 same.2.2.symm
  · rintro ⟨noHyphen, noHyphen', noHyphen''⟩ eventId' previousHash' actor' sameHash
    have same := congrArg String.toList (injective sameHash)
    rw [toList_joined, toList_joined] at same
    -- the text has two hyphens, and they are those that join it
    have hyphens := congrArg (List.count '-') same
    simp only [List.count_append, List.count_cons_self, List.count_eq_zero.mpr noHyphen,
      List.count_eq_zero.mpr noHyphen', List.count_eq_zero.mpr noHyphen''] at hyphens
    have none : '-' ∉ eventId'.toList := List.count_eq_zero.mp (by omega)
    have none' : '-' ∉ previousHash'.toList := List.count_eq_zero.mp (by omega)
    obtain ⟨eventIds, rest⟩ := append_separator_inj none noHyphen same
    obtain ⟨previousHashes, actors⟩ := append_separator_inj none' noHyphen' rest
    exact ⟨String.toList_inj.mp eventIds, String.toList_inj.mp previousHashes,
      String.toList_inj.mp actors⟩

omit [Md5] in
/-- The first event of an operator. -/
theorem pinsDown_iff_firstEvent :
    letI := AuditChain.knownMd5
    ¬ PinsDown "evt-1" "genesis" "operator" := by
  let _ := AuditChain.knownMd5
  intro pinsDown
  have noHyphen := ((pinsDown_iff AuditChain.injective_knownMd5 _ _ _).mp pinsDown).1
  exact absurd noHyphen (by decide)

omit [Md5] in
/-- Two triples of fields with one hash. -/
theorem not_pinsDown :
    ¬ ∀ _ : Md5, Function.Injective Md5.hex → ∀ eventId previousHash actor : String,
      PinsDown eventId previousHash actor := by
  intro all
  have same := all AuditChain.knownMd5 AuditChain.injective_knownMd5
    "evt-1" "genesis" "operator" "evt" "1-genesis" "operator" rfl
  exact absurd same.1 (by decide)

end AuditRecord

end TrustRouter
