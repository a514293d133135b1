import TrustRouter.Prelude.Run
import TrustRouter.WorldState

/-!
# Leases and fencing

`InMemoryLeaseStore` of the fabric.  It grants a lease under a new epoch, unless another
owner's lease has yet to expire, and knows the last lease it has granted.

Two readings of "the lease of an owner" are kept apart here.  A server asks the store
whether an epoch is the current one; that is fencing, and it holds whatever the clock does
(`fencing`).  A holder looks at its own lease, and that is still valid until it expires even
if the store has replaced it.  The two differ once an owner renews its lease to an earlier
expiry: the store lets the next owner in at the new expiry, and the old lease is still valid
(`exclusive_iff`).

An epoch is a natural number.  It grows by one with every lease (`epochs_grants`), so it is what
the `u64` of the source is until the `2 ^ 64`-th lease.  An expiry past what a `SystemTime` can
express panics, and ends the run of the store.
-/

namespace TrustRouter

structure Lease where
  epoch : ℕ
  owner : String
  expiresAt : SystemTime
  deriving DecidableEq

def Lease.isValid (lease : Lease) (currentTime : SystemTime) : Bool :=
  currentTime < lease.expiresAt

@[simp] theorem Lease.isValid_eq_true_iff {lease : Lease} {currentTime : SystemTime} :
    lease.isValid currentTime = true ↔ currentTime < lease.expiresAt := by
  simp [isValid]

structure InMemoryLeaseStore where
  currentLease : Option Lease
  epoch : ℕ
  deriving DecidableEq

namespace InMemoryLeaseStore

def new : InMemoryLeaseStore := ⟨none, 0⟩

/-- The lease that is granted, if there is one, and the store afterwards. -/
def acquire (store : InMemoryLeaseStore) (owner : String) (ttl : Duration)
    (now : SystemTime) : Option Lease × InMemoryLeaseStore :=
  if store.currentLease.any fun lease => lease.isValid now && lease.owner != owner then
    (none, store)
  else
    let newLease := { epoch := store.epoch + 1, owner := owner, expiresAt := now + ttl }
    (some newLease, { currentLease := some newLease, epoch := store.epoch + 1 })

def verify (store : InMemoryLeaseStore) (epoch : ℕ) (now : SystemTime) : Bool :=
  store.currentLease.any fun lease => lease.epoch == epoch && lease.isValid now

def currentEpoch (store : InMemoryLeaseStore) : ℕ := store.epoch

variable {store : InMemoryLeaseStore} {owner : String} {ttl : Duration} {now : SystemTime}

theorem verify_eq_true_iff {epoch : ℕ} :
    store.verify epoch now = true ↔
      ∃ lease, store.currentLease = some lease ∧ lease.epoch = epoch ∧
        now < lease.expiresAt := by
  simp [verify, Option.any_eq_true]

/-- Another owner's lease that has yet to expire. -/
def Taken (store : InMemoryLeaseStore) (owner : String) (now : SystemTime) : Prop :=
  ∃ lease, store.currentLease = some lease ∧ now < lease.expiresAt ∧ lease.owner ≠ owner

theorem acquire_of_taken (taken : store.Taken owner now) :
    store.acquire owner ttl now = (none, store) := by
  obtain ⟨lease, current, valid, other⟩ := taken
  simp [acquire, current, valid, other]

theorem acquire_of_not_taken (free : ¬ store.Taken owner now) :
    store.acquire owner ttl now =
      (some ⟨store.epoch + 1, owner, now + ttl⟩,
        ⟨some ⟨store.epoch + 1, owner, now + ttl⟩, store.epoch + 1⟩) := by
  refine if_neg fun refused => free ?_
  simpa [Taken, Option.any_eq_true] using refused

end InMemoryLeaseStore

/-! ## Runs -/

/-- A call of `acquire`, with the reading of the clock in it. -/
structure AcquireCall where
  owner : String
  ttl : Duration
  now : SystemTime

/-- A lease, and when it was granted. -/
structure Grant where
  grantedAt : SystemTime
  lease : Lease
  deriving DecidableEq

namespace InMemoryLeaseStore

/-- What a call is granted. -/
def grantOf (store : InMemoryLeaseStore) (call : AcquireCall) : Option Grant :=
  (store.acquire call.owner call.ttl call.now).1.map (Grant.mk call.now)

def step (store : InMemoryLeaseStore) (call : AcquireCall) : InMemoryLeaseStore :=
  (store.acquire call.owner call.ttl call.now).2

/-- The store after some calls. -/
def after (calls : List AcquireCall) : InMemoryLeaseStore := run step new calls

/-- The leases granted in a run, in order. -/
def grants (calls : List AcquireCall) : List Grant :=
  (outputs step grantOf new calls).reduceOption

theorem after_concat (calls : List AcquireCall) (call : AcquireCall) :
    after (calls ++ [call]) = (after calls).step call :=
  run_concat calls call

theorem grants_concat (calls : List AcquireCall) (call : AcquireCall) :
    grants (calls ++ [call]) = grants calls ++ ((after calls).grantOf call).toList := by
  unfold grants
  rw [outputs_concat, List.reduceOption_append]
  rfl

/-- One more call: it is refused and nothing changes, or it is granted the next epoch. -/
theorem concat_cases (calls : List AcquireCall) (call : AcquireCall) :
    ((after calls).Taken call.owner call.now ∧ after (calls ++ [call]) = after calls ∧
        grants (calls ++ [call]) = grants calls) ∨
      (¬ (after calls).Taken call.owner call.now ∧
        ∃ lease : Lease, lease = ⟨(after calls).epoch + 1, call.owner, call.now + call.ttl⟩ ∧
          after (calls ++ [call]) = ⟨some lease, lease.epoch⟩ ∧
          grants (calls ++ [call]) = grants calls ++ [⟨call.now, lease⟩]) := by
  rw [after_concat, grants_concat, step, grantOf]
  by_cases taken : (after calls).Taken call.owner call.now
  · rw [acquire_of_taken taken]
    exact .inl ⟨taken, rfl, List.append_nil _⟩
  · rw [acquire_of_not_taken taken]
    exact .inr ⟨taken, _, rfl, rfl, rfl⟩

/-- The store knows the last lease it has granted, and has counted them. -/
theorem currentLease_after (calls : List AcquireCall) :
    (after calls).currentLease = (grants calls).getLast?.map (·.lease) ∧
      (after calls).epoch = (grants calls).length := by
  induction calls using List.reverseRecOn with
  | nil => exact ⟨rfl, rfl⟩
  | append_singleton calls call ih =>
      rcases concat_cases calls call with ⟨-, same, more⟩ | ⟨-, lease, value, next, more⟩
      · rw [same, more]
        exact ih
      · rw [next, more, value, ih.2]
        simp

/-- **Epochs are handed out one by one.** -/
theorem epochs_grants (calls : List AcquireCall) :
    (grants calls).map (·.lease.epoch) = List.range' 1 (grants calls).length := by
  induction calls using List.reverseRecOn with
  | nil => rfl
  | append_singleton calls call ih =>
      rcases concat_cases calls call with ⟨-, -, more⟩ | ⟨-, lease, value, -, more⟩
      · rw [more]
        exact ih
      · rw [more, List.map_append, ih, value, (currentLease_after calls).2, List.length_append,
          List.length_singleton, List.range'_1_concat, Nat.add_comm _ 1]
        rfl

theorem length_grants_append (calls more : List AcquireCall) :
    (grants calls).length ≤ (grants (calls ++ more)).length := by
  induction more using List.reverseRecOn with
  | nil => rw [List.append_nil]
  | append_singleton more call ih =>
      rw [← List.append_assoc, grants_concat, List.length_append]
      exact ih.trans (Nat.le_add_right _ _)

/-- What the store verifies is the last lease it has granted. -/
theorem verify_after {calls : List AcquireCall} {epoch : ℕ} :
    (after calls).verify epoch now = true ↔
      ∃ grant, (grants calls).getLast? = some grant ∧ epoch = grant.lease.epoch ∧
        now < grant.lease.expiresAt := by
  rw [verify_eq_true_iff, (currentLease_after calls).1]
  constructor
  · rintro ⟨_, current, rfl, valid⟩
    obtain ⟨grant, last, rfl⟩ := Option.map_eq_some_iff.mp current
    exact ⟨grant, last, rfl, valid⟩
  · rintro ⟨grant, last, rfl, valid⟩
    exact ⟨grant.lease, by rw [last]; rfl, rfl, valid⟩

/-- An epoch that is not the latest is fenced off for good. -/
theorem verify_eq_false_of_lt {calls : List AcquireCall} {epoch : ℕ}
    (old : epoch < (after calls).currentEpoch) (more : List AcquireCall) :
    (after (calls ++ more)).verify epoch now = false := by
  rw [← Bool.not_eq_true, verify_after]
  rintro ⟨grant, last, rfl, -⟩
  have epochs := congrArg List.getLast? (epochs_grants (calls ++ more))
  rw [List.getLast?_map, last, List.getLast?_range', Option.map_some] at epochs
  split_ifs at epochs with none
  have value := Option.some.inj epochs
  have counted : (after calls).currentEpoch = (grants calls).length :=
    (currentLease_after calls).2
  have longer := length_grants_append calls more
  omega

/-- **Fencing by epoch is exclusive.**  Whatever the clock does, epochs are handed out one by
one, the store verifies the latest of them until its lease expires, an epoch that is not the
latest is never verified again, and nobody takes the place of an owner whose lease has yet to
expire. -/
theorem fencing (calls : List AcquireCall) :
    (grants calls).map (·.lease.epoch) = List.range' 1 (grants calls).length ∧
      (∀ epoch now, (after calls).verify epoch now = true ↔
        ∃ grant, (grants calls).getLast? = some grant ∧ epoch = grant.lease.epoch ∧
          now < grant.lease.expiresAt) ∧
      (∀ epoch < (grants calls).length, ∀ more now,
        (after (calls ++ more)).verify epoch now = false) ∧
      ∀ lease owner ttl now, (after calls).currentLease = some lease → owner ≠ lease.owner →
        lease.isValid now = true →
          (after calls).acquire owner ttl now = (none, after calls) := by
  refine ⟨epochs_grants calls, fun _ _ => verify_after, fun epoch old more now => ?_,
    fun lease owner ttl now current other valid => ?_⟩
  · have counted : (after calls).currentEpoch = (grants calls).length :=
      (currentLease_after calls).2
    exact verify_eq_false_of_lt (by rwa [counted]) more
  · exact acquire_of_taken ⟨lease, current, Lease.isValid_eq_true_iff.mp valid, other.symm⟩

/-! ## Holders

A holder looks at its own lease.  It cannot see that the store has replaced it. -/

/-- The clock does not go back from one call to the next. -/
def InOrder (calls : List AcquireCall) : Prop := (calls.map (·.now)).Pairwise (· ≤ ·)

instance : DecidablePred InOrder := fun calls =>
  inferInstanceAs (Decidable ((calls.map (·.now)).Pairwise (· ≤ ·)))

/-- No two owners hold valid leases at once, from the later grant on. -/
def Exclusive (grants : List Grant) : Prop :=
  grants.Pairwise fun earlier later => earlier.lease.owner ≠ later.lease.owner →
    ∀ now, later.grantedAt ≤ now →
      ¬ (earlier.lease.isValid now = true ∧ later.lease.isValid now = true)

/-- A call by the owner of the current lease does not ask for an earlier expiry. -/
def KeepsExpiry (store : InMemoryLeaseStore) (call : AcquireCall) : Prop :=
  ∀ lease ∈ store.currentLease, lease.owner = call.owner →
    lease.expiresAt ≤ call.now + call.ttl

instance : DecidableRel KeepsExpiry := fun store call =>
  inferInstanceAs (Decidable (∀ lease ∈ store.currentLease, lease.owner = call.owner →
    lease.expiresAt ≤ call.now + call.ttl))

theorem inOrder_concat {calls : List AcquireCall} {call : AcquireCall} :
    InOrder (calls ++ [call]) ↔ InOrder calls ∧ ∀ earlier ∈ calls, earlier.now ≤ call.now := by
  simp [InOrder, List.pairwise_append]

/-- What has become of the leases of a run: those of the current owner do not outlast the
current lease, and those of everybody else have expired. -/
def Settled (calls : List AcquireCall) : Prop :=
  ∀ grant ∈ grants calls, ∃ current, (after calls).currentLease = some current ∧
    (grant.lease.owner = current.owner → grant.lease.expiresAt ≤ current.expiresAt) ∧
    (grant.lease.owner ≠ current.owner → ∃ call ∈ calls, grant.lease.expiresAt ≤ call.now)

section

variable {calls : List AcquireCall} {call : AcquireCall}

/-- Whoever is granted a lease finds the leases of everybody else expired. -/
theorem Settled.expiresAt_le (settled : Settled calls)
    (later : ∀ earlier ∈ calls, earlier.now ≤ call.now)
    (free : ¬ (after calls).Taken call.owner call.now) {grant : Grant}
    (granted : grant ∈ grants calls) (other : grant.lease.owner ≠ call.owner) :
    grant.lease.expiresAt ≤ call.now := by
  obtain ⟨current, isCurrent, own, foreign⟩ := settled grant granted
  by_cases same : grant.lease.owner = current.owner
  · have expired : current.expiresAt ≤ call.now := by
      by_contra valid
      exact free ⟨current, isCurrent, not_le.mp valid, same ▸ other⟩
    exact (own same).trans expired
  · obtain ⟨earlier, mem, expired⟩ := foreign same
    exact expired.trans (later earlier mem)

theorem Settled.concat (settled : Settled calls)
    (later : ∀ earlier ∈ calls, earlier.now ≤ call.now)
    (keeps : (after calls).KeepsExpiry call) : Settled (calls ++ [call]) := by
  rcases concat_cases calls call with ⟨-, same, more⟩ | ⟨free, lease, value, next, more⟩
  · intro grant granted
    rw [more] at granted
    obtain ⟨current, isCurrent, own, foreign⟩ := settled grant granted
    refine ⟨current, by rw [same, isCurrent], own, fun other => ?_⟩
    obtain ⟨earlier, mem, expired⟩ := foreign other
    exact ⟨earlier, List.mem_append_left _ mem, expired⟩
  · intro grant granted
    rw [more, List.mem_append, List.mem_singleton] at granted
    refine ⟨lease, by rw [next], ?_⟩
    rcases granted with old | rfl
    · rw [value]
      refine ⟨fun own => ?_, fun other => ?_⟩
      · -- an older lease of the new holder: renewed, or expired long ago
        show grant.lease.expiresAt ≤ call.now + call.ttl
        obtain ⟨current, isCurrent, renewed, foreign⟩ := settled grant old
        by_cases same : grant.lease.owner = current.owner
        · exact (renewed same).trans (keeps current isCurrent (same.symm.trans own))
        · obtain ⟨earlier, mem, expired⟩ := foreign same
          exact (expired.trans (later earlier mem)).trans (Nat.le_add_right _ _)
      · exact ⟨call, by simp, settled.expiresAt_le later free old other⟩
    · exact ⟨fun _ => le_rfl, fun other => absurd rfl other⟩

theorem settled_of_keepsExpiry (ordered : InOrder calls)
    (all : AllSteps step KeepsExpiry new calls) : Settled calls := by
  induction calls using List.reverseRecOn with
  | nil =>
      intro grant granted
      cases granted
  | append_singleton calls call ih =>
      obtain ⟨before, later⟩ := inOrder_concat.mp ordered
      obtain ⟨first, last⟩ := allSteps_append.mp all
      exact (ih before first).concat later last.1

/-- Owners exclude one another as long as none renews its lease to an earlier expiry. -/
theorem exclusive_of_keepsExpiry (ordered : InOrder calls)
    (all : AllSteps step KeepsExpiry new calls) : Exclusive (grants calls) := by
  induction calls using List.reverseRecOn with
  | nil => exact List.Pairwise.nil
  | append_singleton calls call ih =>
      obtain ⟨before, later⟩ := inOrder_concat.mp ordered
      obtain ⟨first, -⟩ := allSteps_append.mp all
      rcases concat_cases calls call with ⟨-, -, more⟩ | ⟨free, lease, value, -, more⟩
      · rw [more]
        exact ih before first
      · rw [more, Exclusive, List.pairwise_append]
        refine ⟨ih before first, List.pairwise_singleton _ _, fun grant granted last mem => ?_⟩
        obtain rfl := List.mem_singleton.mp mem
        intro other now past valid
        -- the grant finds the other lease expired
        have expired := (settled_of_keepsExpiry before first).expiresAt_le later free granted
          (by simpa [value] using other)
        have valid := Lease.isValid_eq_true_iff.mp valid.1
        exact absurd (expired.trans past) (not_le.mpr valid)

/-- A lease that is renewed to an earlier expiry lets the next owner in too early. -/
theorem not_exclusive_of_not_keepsExpiry (ordered : InOrder (calls ++ [call]))
    (shortened : ¬ (after calls).KeepsExpiry call) {owner : String} (other : owner ≠ call.owner) :
    InOrder (calls ++ [call] ++ [⟨owner, 1, call.now + call.ttl⟩]) ∧
      ¬ Exclusive (grants (calls ++ [call] ++ [⟨owner, 1, call.now + call.ttl⟩])) := by
  refine ⟨inOrder_concat.mpr ⟨ordered, fun earlier mem => ?_⟩, fun exclusive => ?_⟩
  · rcases List.mem_append.mp mem with mem | mem
    · exact ((inOrder_concat.mp ordered).2 earlier mem).trans (Nat.le_add_right _ _)
    · obtain rfl := List.mem_singleton.mp mem
      exact Nat.le_add_right _ _
  obtain ⟨old, current, own, longer⟩ : ∃ lease, (after calls).currentLease = some lease ∧
      lease.owner = call.owner ∧ call.now + call.ttl < lease.expiresAt := by
    simpa [KeepsExpiry, and_assoc] using shortened
  have granted : ∃ grant ∈ grants calls, grant.lease = old := by
    rw [(currentLease_after calls).1, Option.map_eq_some_iff] at current
    obtain ⟨grant, last, value⟩ := current
    exact ⟨grant, List.mem_of_getLast? last, value⟩
  obtain ⟨grant, granted, rfl⟩ := granted
  rcases concat_cases calls call with ⟨taken, -⟩ | ⟨-, lease, value, next, more⟩
  · -- the holder itself is not kept out
    obtain ⟨held, isHeld, -, foreign⟩ := taken
    rw [current] at isHeld
    exact foreign (Option.some.inj isHeld ▸ own)
  have free : ¬ (after (calls ++ [call])).Taken owner (call.now + call.ttl) := by
    rintro ⟨held, isHeld, valid, -⟩
    rw [next] at isHeld
    obtain rfl := Option.some.inj isHeld
    rw [value] at valid
    exact lt_irrefl _ valid
  rcases concat_cases (calls ++ [call]) ⟨owner, 1, call.now + call.ttl⟩ with
    ⟨taken, -⟩ | ⟨-, lease', value', -, more'⟩
  · exact free taken
  rw [more', more, Exclusive, List.pairwise_append] at exclusive
  have pair := exclusive.2.2 grant (List.mem_append_left _ granted) _ (List.mem_singleton_self _)
  refine pair ?_ (call.now + call.ttl) le_rfl ⟨?_, ?_⟩
  · rw [value', own]
    exact other.symm
  · exact Lease.isValid_eq_true_iff.mpr longer
  · rw [value']
    exact Lease.isValid_eq_true_iff.mpr (Nat.lt_succ_self _)

end

/-- **When the leases of a run exclude one another.**  They do as long as no owner renews
its lease to an earlier expiry.  Once one has, the next owner to call at the new expiry
holds a valid lease beside its old one. -/
theorem exclusive_grants (calls : List AcquireCall) (ordered : InOrder calls) :
    (AllSteps step KeepsExpiry new calls → Exclusive (grants calls)) ∧
      ∀ call owner, InOrder (calls ++ [call]) → ¬ (after calls).KeepsExpiry call →
        owner ≠ call.owner →
          InOrder (calls ++ [call] ++ [⟨owner, 1, call.now + call.ttl⟩]) ∧
            ¬ Exclusive (grants (calls ++ [call] ++ [⟨owner, 1, call.now + call.ttl⟩])) :=
  ⟨exclusive_of_keepsExpiry ordered,
    fun _ _ ordered shortened => not_exclusive_of_not_keepsExpiry ordered shortened⟩

/-- Two owners, one after the other, the first of whom renews its lease in between. -/
theorem exclusive_grants_renewed :
    Exclusive (grants [⟨"a", 100, 0⟩, ⟨"a", 100, 50⟩, ⟨"b", 100, 80⟩, ⟨"b", 100, 150⟩]) :=
  (exclusive_grants _ (by decide)).1 (by decide)

/-- The leader asks for a hundred, then for one, and another becomes leader after three. -/
theorem grants_not_exclusive : ¬ ∀ calls, InOrder calls → Exclusive (grants calls) := by
  intro all
  have pairs := all [⟨"a", 100, 0⟩, ⟨"a", 1, 1⟩, ⟨"b", 100, 3⟩] (by decide)
  have first : grants [⟨"a", 100, 0⟩, ⟨"a", 1, 1⟩, ⟨"b", 100, 3⟩] =
      [⟨0, ⟨1, "a", 100⟩⟩, ⟨1, ⟨2, "a", 2⟩⟩, ⟨3, ⟨3, "b", 103⟩⟩] := by decide
  rw [first, Exclusive, List.pairwise_cons] at pairs
  exact pairs.1 ⟨3, ⟨3, "b", 103⟩⟩ (by simp) (by decide) 3 le_rfl (by decide)

end InMemoryLeaseStore

end TrustRouter
