import Mathlib.Data.List.Count
import TrustRouter.Identifier
import TrustRouter.Prelude.Collections
import TrustRouter.Prelude.Run

/-!
# Admission control

The controller counts the requests in flight, all of them and those of each tenant, and
refuses one that would exceed a limit.  An admitted request holds a permit, and gives its
slot back when the permit is dropped.

`admit` and `drop` run under one lock, so any interleaving of the calls of any number of
clients is a list of them.  `Admissions.step` is one of them, and keeps beside the controller
the permits that are live.  The counts and the permits say the same (`Admissions.Balanced`),
and the limits and the rest follow from that (`admission_bounds`).

A count is a natural number.  Its decrement is a subtraction of `usize` in the source, and
is never made at zero.
-/

namespace TrustRouter

inductive AdmissionError where
  | invalidPolicy (message : String)
  | invalidTenant
  | globalLimit (limit : ℕ)
  | tenantLimit (tenant : String) (limit : ℕ)
  deriving DecidableEq

/-- The derived `Debug`.  A tenant it shows is an identifier, and has nothing to escape. -/
def AdmissionError.debug : AdmissionError → String
  | invalidPolicy message => s!"InvalidPolicy(\"{message}\")"
  | invalidTenant => "InvalidTenant"
  | globalLimit limit => "GlobalLimit \x7b limit: " ++ toString limit ++ " \x7d"
  | tenantLimit tenant limit =>
      "TenantLimit \x7b tenant: \"" ++ tenant ++ "\", limit: " ++ toString limit ++ " \x7d"

structure AdmissionPolicy where
  globalInFlight : ℕ
  perTenantInFlight : ℕ
  deriving DecidableEq

namespace AdmissionPolicy

instance : Inhabited AdmissionPolicy where
  default := { globalInFlight := 1024, perTenantInFlight := 64 }

def validate (policy : AdmissionPolicy) : Except AdmissionError Unit :=
  if policy.globalInFlight = 0 then
    .error (.invalidPolicy "global_in_flight must be greater than zero")
  else if policy.perTenantInFlight = 0 then
    .error (.invalidPolicy "per_tenant_in_flight must be greater than zero")
  else if policy.globalInFlight < policy.perTenantInFlight then
    .error (.invalidPolicy "per_tenant_in_flight cannot exceed global_in_flight")
  else .ok ()

end AdmissionPolicy

structure AdmissionState where
  totalInFlight : ℕ
  tenantInFlight : BTreeMap String ℕ
  /-- A tenant without requests in flight has no entry. -/
  positive : ∀ tenant count, tenantInFlight.get tenant = some count → 0 < count

namespace AdmissionState

instance : Inhabited AdmissionState :=
  ⟨{ totalInFlight := 0, tenantInFlight := ∅, positive := fun _ _ found => by cases found }⟩

@[ext] theorem ext {state state' : AdmissionState}
    (total : state.totalInFlight = state'.totalInFlight)
    (tenants : state.tenantInFlight = state'.tenantInFlight) : state = state' := by
  cases state
  cases state'
  congr

/-- The requests of a tenant in flight. -/
def count (state : AdmissionState) (tenant : String) : ℕ :=
  (state.tenantInFlight.get tenant).getD 0

/-- One more request of the tenant is in flight. -/
def occupy (state : AdmissionState) (tenant : String) : AdmissionState where
  totalInFlight := state.totalInFlight + 1
  tenantInFlight := state.tenantInFlight.insert tenant (state.count tenant + 1)
  positive := by
    intro tenant' count found
    rw [BTreeMap.get_insert] at found
    split_ifs at found
    · rw [← Option.some.inj found]
      exact Nat.succ_pos _
    · exact state.positive tenant' count found

@[simp] theorem totalInFlight_occupy (state : AdmissionState) (tenant : String) :
    (state.occupy tenant).totalInFlight = state.totalInFlight + 1 := rfl

theorem count_occupy (state : AdmissionState) (tenant tenant' : String) :
    (state.occupy tenant).count tenant' =
      state.count tenant' + if tenant' = tenant then 1 else 0 := by
  by_cases same : tenant' = tenant
  · subst same
    simp [count, occupy, BTreeMap.get_insert]
  · simp [count, occupy, BTreeMap.get_insert, same]

theorem sum_occupy (state : AdmissionState) (tenant : String) :
    (state.occupy tenant).tenantInFlight.values.sum = state.tenantInFlight.values.sum + 1 := by
  have sum := state.tenantInFlight.sum_values_insert tenant (state.count tenant + 1)
  rw [← count] at sum
  simp only [occupy]
  omega

end AdmissionState

/-- An active slot. -/
structure AdmissionPermit where
  tenant : String
  deriving DecidableEq

namespace AdmissionPermit

/-- `AdmissionPermit::drop`. -/
def drop (permit : AdmissionPermit) (state : AdmissionState) : AdmissionState :=
  match state.tenantInFlight.get permit.tenant with
  | none => state
  | some count =>
      if zero : count - 1 = 0 then
        { totalInFlight := state.totalInFlight - 1
          tenantInFlight := state.tenantInFlight.remove permit.tenant
          positive := by
            intro tenant count found
            rw [BTreeMap.get_remove] at found
            split_ifs at found
            exact state.positive tenant count found }
      else
        { totalInFlight := state.totalInFlight - 1
          tenantInFlight := state.tenantInFlight.insert permit.tenant (count - 1)
          positive := by
            intro tenant count' found
            rw [BTreeMap.get_insert] at found
            split_ifs at found
            · rw [← Option.some.inj found]
              exact Nat.pos_of_ne_zero zero
            · exact state.positive tenant count' found }

/-- The decrements of `drop` are not made at zero. -/
def Fits (permit : AdmissionPermit) (state : AdmissionState) : Prop :=
  ∀ count, state.tenantInFlight.get permit.tenant = some count →
    1 ≤ count ∧ 1 ≤ state.totalInFlight

variable {permit : AdmissionPermit} {state : AdmissionState}

/-- What a drop does to the total. -/
theorem totalInFlight_drop (held : 0 < state.count permit.tenant) :
    (permit.drop state).totalInFlight = state.totalInFlight - 1 := by
  unfold drop
  cases found : state.tenantInFlight.get permit.tenant with
  | none => simp [AdmissionState.count, found] at held
  | some count =>
      simp only
      split_ifs <;> rfl

/-- What a drop does to the counts. -/
theorem count_drop (tenant : String) :
    (permit.drop state).count tenant =
      state.count tenant - if tenant = permit.tenant then 1 else 0 := by
  unfold drop AdmissionState.count
  by_cases same : tenant = permit.tenant
  · subst same
    cases found : state.tenantInFlight.get permit.tenant with
    | none => simp [found]
    | some count =>
        simp only
        split_ifs with zero
        · simp [BTreeMap.get_remove, zero]
        · simp [BTreeMap.get_insert]
  · cases found : state.tenantInFlight.get permit.tenant with
    | none => simp [same]
    | some count =>
        simp only
        split_ifs
        · simp [BTreeMap.get_remove, same]
        · simp [BTreeMap.get_insert, same]

/-- What a drop does to the sum of the counts. -/
theorem sum_drop (held : 0 < state.count permit.tenant) :
    (permit.drop state).tenantInFlight.values.sum = state.tenantInFlight.values.sum - 1 := by
  unfold drop
  cases found : state.tenantInFlight.get permit.tenant with
  | none => simp [AdmissionState.count, found] at held
  | some count =>
      have pos := state.positive _ _ found
      simp only
      split_ifs with zero
      · have sum := state.tenantInFlight.sum_values_remove permit.tenant
        rw [found, Option.getD_some] at sum
        show (state.tenantInFlight.remove permit.tenant).values.sum = _
        omega
      · have sum := state.tenantInFlight.sum_values_insert permit.tenant (count - 1)
        rw [found, Option.getD_some] at sum
        show (state.tenantInFlight.insert permit.tenant (count - 1)).values.sum = _
        omega

/-- **A slot that is given back leaves no trace.** -/
theorem drop_occupy (state : AdmissionState) (tenant : String) :
    drop ⟨tenant⟩ (state.occupy tenant) = state := by
  have found : (state.occupy tenant).tenantInFlight.get tenant = some (state.count tenant + 1) := by
    rw [AdmissionState.occupy, BTreeMap.get_insert, if_pos rfl]
  unfold drop
  rw [found]
  simp only [Nat.add_sub_cancel]
  split_ifs with zero
  · refine AdmissionState.ext rfl (BTreeMap.ext_get fun k => ?_)
    simp only [AdmissionState.occupy, BTreeMap.get_remove, BTreeMap.get_insert]
    split_ifs with same
    · -- the tenant had no entry, because an entry is not zero
      subst same
      cases entry : state.tenantInFlight.get k with
      | none => rfl
      | some count =>
          rw [AdmissionState.count, entry] at zero
          exact absurd zero (state.positive k count entry).ne'
    · rfl
  · refine AdmissionState.ext rfl (BTreeMap.ext_get fun k => ?_)
    simp only [AdmissionState.occupy, BTreeMap.get_insert]
    split_ifs with same
    · subst same
      rw [AdmissionState.count] at zero ⊢
      cases entry : state.tenantInFlight.get k with
      | none => simp [entry] at zero
      | some count => rfl
    · rfl

end AdmissionPermit

structure AdmissionController where
  policy : AdmissionPolicy
  state : AdmissionState

/-- The `valid_identifier` of the admission module. -/
def AdmissionController.validIdentifier : String → Bool := isIdentifier

namespace AdmissionController

def new (policy : AdmissionPolicy) : Except AdmissionError AdmissionController := do
  policy.validate
  return { policy := policy, state := default }

/-- `AdmissionController::admit`. -/
def admitTenant (controller : AdmissionController) (tenant : String) :
    Except AdmissionError (AdmissionPermit × AdmissionController) :=
  if !validIdentifier tenant then .error .invalidTenant
  else if controller.policy.globalInFlight ≤ controller.state.totalInFlight then
    .error (.globalLimit controller.policy.globalInFlight)
  else if controller.policy.perTenantInFlight ≤ controller.state.count tenant then
    .error (.tenantLimit tenant controller.policy.perTenantInFlight)
  else
    .ok (⟨tenant⟩, { controller with state := controller.state.occupy tenant })

/-- A permit is dropped. -/
def release (controller : AdmissionController) (permit : AdmissionPermit) : AdmissionController :=
  { controller with state := permit.drop controller.state }

variable {controller controller' : AdmissionController} {permit : AdmissionPermit}
variable {tenant : String}

/-- What an admission does. -/
theorem admitTenant_eq_ok (admitted : controller.admitTenant tenant = .ok (permit, controller')) :
    isIdentifier tenant = true ∧
      controller.state.totalInFlight < controller.policy.globalInFlight ∧
      controller.state.count tenant < controller.policy.perTenantInFlight ∧
      permit = ⟨tenant⟩ ∧
      controller' = { controller with state := controller.state.occupy tenant } := by
  unfold admitTenant validIdentifier at admitted
  split_ifs at admitted with named full tenantFull
  obtain ⟨rfl, rfl⟩ := Prod.mk.inj (Except.ok.inj admitted)
  exact ⟨by simpa using named, not_le.mp full, not_le.mp tenantFull, rfl, rfl⟩

/-- Where there is room, a request is admitted. -/
theorem exists_admitTenant (named : isIdentifier tenant = true)
    (room : controller.state.totalInFlight < controller.policy.globalInFlight)
    (tenantRoom : controller.state.count tenant < controller.policy.perTenantInFlight) :
    ∃ granted, controller.admitTenant tenant = .ok granted := by
  unfold admitTenant validIdentifier
  rw [if_neg (by simp [named]), if_neg room.not_ge, if_neg tenantRoom.not_ge]
  exact ⟨_, rfl⟩

/-- Why a request is refused. -/
theorem admitTenant_eq_error {error : AdmissionError}
    (refused : controller.admitTenant tenant = .error error) :
    error = .invalidTenant ∧ isIdentifier tenant = false ∨
      error = .globalLimit controller.policy.globalInFlight ∧
        controller.policy.globalInFlight ≤ controller.state.totalInFlight ∨
      error = .tenantLimit tenant controller.policy.perTenantInFlight ∧
        controller.policy.perTenantInFlight ≤ controller.state.count tenant := by
  unfold admitTenant validIdentifier at refused
  split_ifs at refused with named full tenantFull
  · exact .inl ⟨(Except.error.inj refused).symm, by simpa using named⟩
  · exact .inr (.inl ⟨(Except.error.inj refused).symm, full⟩)
  · exact .inr (.inr ⟨(Except.error.inj refused).symm, tenantFull⟩)

/-- A request that has been admitted and is over leaves the controller as it was. -/
theorem release_of_admitted (admitted : controller.admitTenant tenant = .ok (permit, controller')) :
    controller'.release permit = controller := by
  obtain ⟨-, -, -, rfl, rfl⟩ := admitTenant_eq_ok admitted
  simp [release, AdmissionPermit.drop_occupy]

end AdmissionController

/-! ## Interleaved calls -/

/-- The identity of a permit: how many had been given before it. -/
abbrev PermitId := ℕ

/-- The controller, the permits that are live, and how many have been given. -/
structure Admissions where
  controller : AdmissionController
  live : List (PermitId × AdmissionPermit)
  given : ℕ

/-- A call by one of the clients.  A permit is moved into `drop`, so that only a live one
can be dropped. -/
inductive AdmissionCall where
  | admitTenant (tenant : String)
  | drop (id : PermitId)

namespace Admissions

/-- No permit has been given yet. -/
def start (controller : AdmissionController) : Admissions := ⟨controller, [], 0⟩

def step (admissions : Admissions) : AdmissionCall → Admissions
  | .admitTenant tenant =>
      match admissions.controller.admitTenant tenant with
      | .error _ => admissions
      | .ok (permit, controller) =>
          { controller := controller
            live := admissions.live ++ [(admissions.given, permit)]
            given := admissions.given + 1 }
  | .drop id =>
      match admissions.live.find? fun entry => entry.1 = id with
      | none => admissions
      | some entry =>
          { admissions with
            controller := admissions.controller.release entry.2
            live := admissions.live.erase entry }

/-- The live permits of a tenant. -/
def held (admissions : Admissions) (tenant : String) : ℕ :=
  admissions.live.countP fun entry => entry.2.tenant = tenant

/-- The counts are those of the live permits, and within the limits. -/
structure Balanced (policy : AdmissionPolicy) (admissions : Admissions) : Prop where
  samePolicy : admissions.controller.policy = policy
  total : admissions.controller.state.totalInFlight = admissions.live.length
  sum : admissions.controller.state.tenantInFlight.values.sum = admissions.live.length
  count : ∀ tenant, admissions.controller.state.count tenant = admissions.held tenant
  totalBound : admissions.live.length ≤ policy.globalInFlight
  tenantBound : ∀ tenant, admissions.held tenant ≤ policy.perTenantInFlight

variable {policy : AdmissionPolicy} {controller : AdmissionController} {admissions : Admissions}

theorem balanced_start (made : AdmissionController.new policy = .ok controller) :
    Balanced policy (start controller) := by
  unfold AdmissionController.new at made
  cases valid : policy.validate with
  | error error => simp [valid] at made
  | ok _ =>
      rw [valid] at made
      obtain rfl := Except.ok.inj made
      exact ⟨rfl, rfl, rfl, fun _ => rfl, Nat.zero_le _, fun _ => Nat.zero_le _⟩

/-- A request is admitted. -/
theorem Balanced.admitTenant (balanced : Balanced policy admissions) {tenant : String}
    {permit : AdmissionPermit} {controller : AdmissionController}
    (admitted : admissions.controller.admitTenant tenant = .ok (permit, controller)) (given : ℕ) :
    Balanced policy ⟨controller, admissions.live ++ [(admissions.given, permit)], given⟩ := by
  obtain ⟨-, room, tenantRoom, rfl, rfl⟩ := AdmissionController.admitTenant_eq_ok admitted
  rw [balanced.samePolicy] at room tenantRoom
  have held : ∀ tenant', (⟨admissions.controller, admissions.live ++ [(admissions.given, ⟨tenant⟩)],
      given⟩ : Admissions).held tenant' =
        admissions.held tenant' + if tenant' = tenant then 1 else 0 := by
    intro tenant'
    simp [Admissions.held, List.countP_append, List.countP_cons, eq_comm]
  refine ⟨balanced.samePolicy, ?_, ?_, fun tenant' => ?_, ?_, fun tenant' => ?_⟩
  · simpa using balanced.total
  · simpa [AdmissionState.sum_occupy] using balanced.sum
  · exact (AdmissionState.count_occupy _ _ _).trans (by rw [balanced.count]; exact (held _).symm)
  · rw [balanced.total] at room
    simpa [Nat.succ_le_iff] using room
  · rw [balanced.count] at tenantRoom
    refine (held tenant').trans_le ?_
    split_ifs with same
    · exact same ▸ tenantRoom
    · exact balanced.tenantBound tenant'

/-- A permit is dropped. -/
theorem Balanced.drop (balanced : Balanced policy admissions) {entry : PermitId × AdmissionPermit}
    (live : entry ∈ admissions.live) :
    Balanced policy
      { admissions with
        controller := admissions.controller.release entry.2
        live := admissions.live.erase entry } := by
  have perm := List.perm_cons_erase live
  have length : admissions.live.length = (admissions.live.erase entry).length + 1 := perm.length_eq
  have held : ∀ tenant, admissions.held tenant =
      (admissions.live.erase entry).countP (fun entry => entry.2.tenant = tenant) +
        if tenant = entry.2.tenant then 1 else 0 := by
    intro tenant
    rw [Admissions.held, perm.countP_eq]
    simp [List.countP_cons, eq_comm]
  have own : 0 < admissions.controller.state.count entry.2.tenant := by
    rw [balanced.count, held, if_pos rfl]
    exact Nat.succ_pos _
  refine ⟨balanced.samePolicy, ?_, ?_, fun tenant => ?_, ?_, fun tenant => ?_⟩
  · simp only [AdmissionController.release, AdmissionPermit.totalInFlight_drop own, balanced.total]
    omega
  · simp only [AdmissionController.release, AdmissionPermit.sum_drop own, balanced.sum]
    omega
  · simp only [AdmissionController.release, AdmissionPermit.count_drop, balanced.count, held,
      Nat.add_sub_cancel]
    rfl
  · have bound := balanced.totalBound
    simp only
    omega
  · have bound := balanced.tenantBound tenant
    rw [held] at bound
    exact (Nat.le_add_right _ _).trans bound

theorem Balanced.step (balanced : Balanced policy admissions) (call : AdmissionCall) :
    Balanced policy (admissions.step call) := by
  cases call with
  | admitTenant tenant =>
      cases admitted : admissions.controller.admitTenant tenant with
      | error error =>
          simp only [Admissions.step, admitted]
          exact balanced
      | ok given =>
          simp only [Admissions.step, admitted]
          exact balanced.admitTenant admitted _
  | drop id =>
      cases found : admissions.live.find? fun entry => entry.1 = id with
      | none =>
          simp only [Admissions.step, found]
          exact balanced
      | some entry =>
          simp only [Admissions.step, found]
          exact balanced.drop (List.mem_of_find?_eq_some found)

theorem balanced_run (made : AdmissionController.new policy = .ok controller)
    (calls : List AdmissionCall) : Balanced policy (run step (start controller) calls) :=
  run_induction (balanced_start made) (fun _ call balanced => balanced.step call) calls

/-- Why a request of the tenant is refused, in terms of the live permits. -/
inductive Refused (policy : AdmissionPolicy) (admissions : Admissions) (tenant : String) :
    AdmissionError → Prop
  | invalidTenant : isIdentifier tenant = false → Refused policy admissions tenant .invalidTenant
  | globalLimit : admissions.live.length = policy.globalInFlight →
      Refused policy admissions tenant (.globalLimit policy.globalInFlight)
  | tenantLimit : admissions.held tenant = policy.perTenantInFlight →
      Refused policy admissions tenant (.tenantLimit tenant policy.perTenantInFlight)

theorem Balanced.refused (balanced : Balanced policy admissions) {tenant : String}
    {error : AdmissionError} (refused : admissions.controller.admitTenant tenant = .error error) :
    Refused policy admissions tenant error := by
  rcases AdmissionController.admitTenant_eq_error refused with
    ⟨rfl, invalid⟩ | ⟨rfl, full⟩ | ⟨rfl, full⟩
  · exact .invalidTenant invalid
  · rw [balanced.samePolicy] at full ⊢
    rw [balanced.total] at full
    exact .globalLimit (le_antisymm balanced.totalBound full)
  · rw [balanced.samePolicy] at full ⊢
    rw [balanced.count] at full
    exact .tenantLimit (le_antisymm (balanced.tenantBound tenant) full)

/-- **Admission bounds.**  After every interleaving of admissions and drops, the counts are
those of the live permits, none of them is stored as zero, the limits hold, no live permit's
drop subtracts from zero, and a refusal changes nothing and tells the truth. -/
theorem admission_bounds (made : AdmissionController.new policy = .ok controller)
    (calls : List AdmissionCall) :
    let admissions := run step (start controller) calls
    let state := admissions.controller.state
    state.totalInFlight = state.tenantInFlight.values.sum ∧
      state.totalInFlight = admissions.live.length ∧
      (∀ tenant, state.count tenant = admissions.held tenant) ∧
      (∀ tenant, state.tenantInFlight.get tenant ≠ some 0) ∧
      state.totalInFlight ≤ policy.globalInFlight ∧
      (∀ tenant, state.count tenant ≤ policy.perTenantInFlight) ∧
      (∀ entry ∈ admissions.live, 1 ≤ state.count entry.2.tenant ∧ entry.2.Fits state) ∧
      ∀ tenant error, admissions.controller.admitTenant tenant = .error error →
        admissions.step (.admitTenant tenant) = admissions ∧
          Refused policy admissions tenant error := by
  intro admissions state
  have balanced : Balanced policy admissions := balanced_run made calls
  have total := balanced.total
  refine ⟨total.trans balanced.sum.symm, total, balanced.count, ?_, ?_, ?_, ?_, ?_⟩
  · exact fun tenant zero => (state.positive tenant 0 zero).false
  · exact total.trans_le balanced.totalBound
  · exact fun tenant => (balanced.count tenant).trans_le (balanced.tenantBound tenant)
  · intro entry live
    have held : 1 ≤ admissions.held entry.2.tenant :=
      List.countP_pos_iff.mpr ⟨entry, live, by simp⟩
    refine ⟨(balanced.count _).symm ▸ held, fun count found => ⟨state.positive _ _ found, ?_⟩⟩
    exact total.symm ▸ List.length_pos_of_mem live
  · intro tenant error refused
    refine ⟨?_, balanced.refused refused⟩
    simp only [Admissions.step, refused]

/-- Three requests, the second of which is one too many for its tenant. -/
def threeAdmissions : List AdmissionCall :=
  [.admitTenant "acme", .admitTenant "acme", .admitTenant "beta"]

/-- Where two requests may be in flight, and one of each tenant, the first and the third are,
and a fourth is refused because they are. -/
theorem admission_bounds_threeAdmissions :
    ∃ controller, AdmissionController.new ⟨2, 1⟩ = .ok controller ∧
      let admissions := run step (start controller) threeAdmissions
      admissions.controller.state.totalInFlight = 2 ∧ admissions.live.length = 2 ∧
        admissions.controller.admitTenant "gamma" = .error (.globalLimit 2) ∧
        Refused ⟨2, 1⟩ admissions "gamma" (.globalLimit 2) := by
  have made : AdmissionController.new ⟨2, 1⟩ = .ok ⟨⟨2, 1⟩, default⟩ := rfl
  have bounds := admission_bounds made threeAdmissions
  let controller := (run step (start ⟨⟨2, 1⟩, default⟩) threeAdmissions).controller
  have total : controller.state.totalInFlight = 2 := by decide +kernel
  have refused : controller.admitTenant "gamma" = .error (.globalLimit 2) := by rfl
  exact ⟨_, made, total, bounds.2.1 ▸ total, refused, (bounds.2.2.2.2.2.2.2 _ _ refused).2⟩

end Admissions

end TrustRouter
