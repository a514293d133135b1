import Mathlib.Data.List.GetD
import Mathlib.Data.Nat.Bitwise
import TrustRouter.Endpoints

/-!
# Refused requests

A request with a wrong API key, a tenant that is not allowed, a malformed identifier or a
size out of bounds is refused, and leaves everything but the counter of request identifiers
as it was (`handle_of_improper`).  The checks come before the first token is taken, so it is
enough that one of them fails (`Refuses`); which one is another matter, and depends on the
endpoint.
-/

namespace TrustRouter

/-! ## The key -/

/-- Differences are collected by a disjunction, which forgets none. -/
theorem foldl_or_eq_zero {items : List ℕ} {f : ℕ → ℕ} {init : ℕ} :
    items.foldl (fun diff item => diff ||| f item) init = 0 ↔
      init = 0 ∧ ∀ item ∈ items, f item = 0 := by
  induction items generalizing init with
  | nil => simp
  | cons item items ih =>
      rw [List.foldl_cons, ih, Nat.or_eq_zero_iff, List.forall_mem_cons, and_assoc]

theorem constantTimeEq_iff {left right : List UInt8} :
    constantTimeEq left right = true ↔ left = right := by
  unfold constantTimeEq
  simp only [beq_iff_eq]
  rw [foldl_or_eq_zero (f := fun index => (left.getD index 0 ^^^ right.getD index 0).toNat)]
  constructor
  · rintro ⟨lengths, bytes⟩
    have lengths : left.length = right.length := Nat.xor_eq_zero_iff.mp lengths
    refine List.ext_getElem lengths fun index inLeft inRight => ?_
    have byte := bytes index (List.mem_range.mpr (lt_max_of_lt_left inLeft))
    rw [List.getD_eq_getElem _ _ inLeft, List.getD_eq_getElem _ _ inRight] at byte
    exact UInt8.xor_eq_zero_iff.mp (UInt8.toNat_inj.mp byte)
  · rintro rfl
    simp

/-- **The key comparison is equality**, for byte strings of any lengths: no trailing zeros are
taken for the padding, and no differences cancel. -/
theorem constantTimeEq_eq_decide (left right : List UInt8) :
    constantTimeEq left right = decide (left = right) := by
  rw [Bool.eq_iff_iff, constantTimeEq_iff, decide_eq_true_iff]

theorem requireApiKey_of_ne [HeaderText] {headers : HeaderMap} {expected : String}
    (other : headers.lookup "x-api-key" ≠ some (asBytes expected)) :
    requireApiKey headers expected = .error .unauthorized := by
  unfold requireApiKey
  cases given : headers.lookup "x-api-key" with
  | none => rfl
  | some value =>
      cases text : HeaderText.toStr value with
      | none => simp [text]
      | some actual =>
          -- `to_str` has not changed the bytes that are compared
          have bytes := HeaderText.asBytes_of_toStr value actual text
          have differs : constantTimeEq (asBytes actual) (asBytes expected) = false := by
            rw [← Bool.not_eq_true, constantTimeEq_iff, bytes]
            exact fun same => other (given.trans (congrArg some same))
          simp [text, differs]

/-! ## Programs that refuse -/

namespace App

variable {α β : Type} {first : App α} {next : α → App β} {state : AppState}

/-- The program ends in an error and leaves the state as it is. -/
def Refuses (program : App α) (state : AppState) : Prop :=
  ∃ error, program state = (.error error, state)

/-- The program leaves the state as it is. -/
def Keeps (program : App α) (state : AppState) : Prop := (program state).2 = state

theorem Refuses.bind (refuses : first.Refuses state) (next : α → App β) :
    (first >>= next).Refuses state := by
  obtain ⟨error, fails⟩ := refuses
  exact ⟨error, bind_of_error fails⟩

/-- What comes later refuses, unless what comes first has. -/
theorem Keeps.bind_refuses (keeps : first.Keeps state) (refuses : ∀ a, (next a).Refuses state) :
    (first >>= next).Refuses state := by
  cases answer : (first state).1 with
  | error error => exact ⟨error, bind_of_error (Prod.ext answer keeps)⟩
  | ok a =>
      obtain ⟨error, fails⟩ := refuses a
      exact ⟨error, (bind_of_ok (Prod.ext answer keeps)).trans fails⟩

theorem keeps_check (result : Except SidecarError α) : (check result).Keeps state := rfl

theorem refuses_check {result : Except SidecarError Unit} (notOk : result ≠ .ok ()) :
    (check result).Refuses state := by
  cases result with
  | ok _ => exact absurd rfl notOk
  | error error => exact ⟨error, rfl⟩

end App

/-! ## What is refused -/

theorem RouteQuery.isIdentifier_of_validate (query : RouteQuery)
    (valid : query.validate = .ok ()) :
    ∀ value ∈ [query.tenant, query.start, query.goal], isIdentifier value = true := by
  obtain ⟨_, tenant, valid⟩ := exceptBind_eq_ok.mp valid
  obtain ⟨_, start, goal⟩ := exceptBind_eq_ok.mp valid
  simpa using ⟨checkIdentifier_eq_ok_iff.mp tenant, checkIdentifier_eq_ok_iff.mp start,
    checkIdentifier_eq_ok_iff.mp goal⟩

theorem BatchRouteItem.isIdentifier_of_validate (item : BatchRouteItem)
    (valid : item.validate = .ok ()) :
    ∀ value ∈ [item.tenant, item.start, item.goal], isIdentifier value = true := by
  let query : RouteQuery := ⟨item.tenant, item.start, item.goal⟩
  exact query.isIdentifier_of_validate valid

theorem ResultQuery.isIdentifier_of_validate (query : ResultQuery)
    (valid : query.validate = .ok ()) :
    (∀ value ∈ [query.tenant, query.node], isIdentifier value = true) ∧
      query.latencyMs ≤ 600000 := by
  obtain ⟨_, tenant, valid⟩ := exceptBind_eq_ok.mp valid
  obtain ⟨_, node, short⟩ := exceptBind_eq_ok.mp valid
  refine ⟨by simpa using ⟨checkIdentifier_eq_ok_iff.mp tenant, checkIdentifier_eq_ok_iff.mp node⟩,
    ?_⟩
  by_contra long
  rw [if_pos (not_le.mp long)] at short
  cases short

theorem ForceHalfOpenQuery.isIdentifier_of_validate (query : ForceHalfOpenQuery)
    (valid : query.validate = .ok ()) :
    ∀ value ∈ [query.tenant, query.node], isIdentifier value = true := by
  obtain ⟨_, tenant, node⟩ := exceptBind_eq_ok.mp valid
  simpa using ⟨checkIdentifier_eq_ok_iff.mp tenant, checkIdentifier_eq_ok_iff.mp node⟩

namespace ApiCall

/-- The identifiers of a request, in any item. -/
def identifiers : ApiCall → List String
  | metrics => []
  | route query => [query.tenant, query.start, query.goal]
  | batch requests => requests.flatMap fun item => [item.tenant, item.start, item.goal]
  | plan query => [query.tenant, query.start, query.goal]
  | result query => [query.tenant, query.node]
  | forceHalfOpen query => [query.tenant, query.node]

/-- The tenants of a request, in any item. -/
def tenants : ApiCall → List TenantId
  | metrics => []
  | route query => [query.tenant]
  | batch requests => requests.map BatchRouteItem.tenant
  | plan query => [query.tenant]
  | result query => [query.tenant]
  | forceHalfOpen query => [query.tenant]

/-- A request that is unauthorized or malformed. -/
inductive Improper (headers : HeaderMap) (apiKey : String) (allowedTenants : Finset TenantId) :
    ApiCall → Prop
  | key {call : ApiCall} :
      headers.lookup "x-api-key" ≠ some (asBytes apiKey) →
        Improper headers apiKey allowedTenants call
  | tenant {call : ApiCall} {tenant : TenantId} :
      tenant ∈ call.tenants → tenant ∉ allowedTenants →
        Improper headers apiKey allowedTenants call
  | identifier {call : ApiCall} {value : String} :
      value ∈ call.identifiers → ¬ isIdentifier value = true →
        Improper headers apiKey allowedTenants call
  | empty : Improper headers apiKey allowedTenants (batch [])
  | tooMany {requests : List BatchRouteItem} :
      1024 < requests.length → Improper headers apiKey allowedTenants (batch requests)
  | tooLong {query : ResultQuery} :
      600000 < query.latencyMs → Improper headers apiKey allowedTenants (result query)

end ApiCall

namespace AppState

open App

variable [HeaderText] {headers : HeaderMap} {state : AppState}

theorem refuses_checkApiKey (key : requireApiKey headers state.apiKey ≠ .ok ()) :
    (checkApiKey headers).Refuses state := by
  have refuses : Refuses (check (requireApiKey headers state.apiKey)) state := refuses_check key
  exact refuses

omit [HeaderText] in
theorem refuses_checkTenant {tenant : TenantId} (other : tenant ∉ state.allowedTenants) :
    (checkTenant tenant).Refuses state :=
  ⟨.forbidden, congrArg (·, state) (if_neg other)⟩

/-- The checks of a request about one tenant fail if one of them does. -/
theorem refuses_checks_of_tenant {valid : Except SidecarError Unit} {tenant : TenantId}
    (fails : valid ≠ .ok () ∨ requireApiKey headers state.apiKey ≠ .ok () ∨
      tenant ∉ state.allowedTenants) :
    Refuses (do check valid; checkApiKey headers; checkTenant tenant) state := by
  rcases fails with invalid | key | other
  · exact (refuses_check invalid).bind _
  · exact (keeps_check valid).bind_refuses fun _ => (refuses_checkApiKey key).bind _
  · exact (keeps_check valid).bind_refuses fun _ =>
      Keeps.bind_refuses rfl fun _ => refuses_checkTenant other

omit [HeaderText] in
theorem refuses_checkItems {requests : List BatchRouteItem}
    (fails : ∃ item ∈ requests, item.validate ≠ .ok () ∨ item.tenant ∉ state.allowedTenants) :
    (checkItems requests).Refuses state := by
  induction requests with
  | nil => simp at fails
  | cons first rest ih =>
      obtain ⟨item, mem, reason⟩ := fails
      rcases List.mem_cons.mp mem with rfl | later
      · rcases reason with invalid | other
        · exact (refuses_check invalid).bind _
        · exact (keeps_check item.validate).bind_refuses fun _ => (refuses_checkTenant other).bind _
      · exact (keeps_check first.validate).bind_refuses fun _ =>
          Keeps.bind_refuses rfl fun _ => ih ⟨item, later, reason⟩

/-- The checks of a batch fail if an item fails one of them. -/
theorem refuses_checks_of_item {requests : List BatchRouteItem}
    (fails : ∃ item ∈ requests, item.validate ≠ .ok () ∨ item.tenant ∉ state.allowedTenants) :
    (checks headers (.batch requests)).Refuses state :=
  (keeps_check _).bind_refuses fun _ => Keeps.bind_refuses rfl fun _ => refuses_checkItems fails

/-- **A request that is improper fails its checks.** -/
theorem refuses_checks {call : ApiCall}
    (improper : call.Improper headers state.apiKey state.allowedTenants) :
    (checks headers call).Refuses state := by
  cases improper with
  | key other =>
      have key : requireApiKey headers state.apiKey ≠ .ok () := by
        rw [requireApiKey_of_ne other]
        exact nofun
      cases call with
      -- every endpoint checks the key, most of them after the identifiers
      | metrics => exact refuses_checkApiKey key
      | batch requests =>
          exact (keeps_check _).bind_refuses fun _ => (refuses_checkApiKey key).bind _
      | route | plan | result | forceHalfOpen =>
          exact refuses_checks_of_tenant (.inr (.inl key))
  | tenant mem other =>
      cases call with
      | metrics => cases mem
      | batch requests =>
          obtain ⟨item, inBatch, rfl⟩ := List.mem_map.mp mem
          exact refuses_checks_of_item ⟨item, inBatch, .inr other⟩
      | route | plan | result | forceHalfOpen =>
          cases List.mem_singleton.mp mem
          exact refuses_checks_of_tenant (.inr (.inr other))
  | identifier mem malformed =>
      cases call with
      | metrics => cases mem
      | batch requests =>
          obtain ⟨item, inBatch, mem⟩ := List.mem_flatMap.mp mem
          refine refuses_checks_of_item ⟨item, inBatch, .inl fun valid => malformed ?_⟩
          exact item.isIdentifier_of_validate valid _ mem
      | route query | plan query =>
          exact refuses_checks_of_tenant
            (.inl fun valid => malformed (query.isIdentifier_of_validate valid _ mem))
      | result query =>
          exact refuses_checks_of_tenant
            (.inl fun valid => malformed ((query.isIdentifier_of_validate valid).1 _ mem))
      | forceHalfOpen query =>
          exact refuses_checks_of_tenant
            (.inl fun valid => malformed (query.isIdentifier_of_validate valid _ mem))
  | empty =>
      have tooFew : checkSize [] ≠ .ok () := by simp [checkSize]
      exact (refuses_check tooFew).bind _
  | @tooMany requests long =>
      have tooMany : checkSize requests ≠ .ok () := by
        unfold checkSize
        split_ifs <;> simp
      exact (refuses_check tooMany).bind _
  | tooLong long =>
      exact refuses_checks_of_tenant
        (.inl fun valid =>
          absurd long (not_lt.mpr (ResultQuery.isIdentifier_of_validate _ valid).2))

variable [Rounding] (render : Json → String)

/-- **Unauthorised and malformed requests have no effect**: the answer is an error, and all
that has changed is the number of requests that have been given an identifier. -/
theorem handle_of_improper (env : RequestEnvironment) {call : ApiCall}
    (improper : call.Improper headers state.apiKey state.allowedTenants) :
    400 ≤ (handle render env headers call state).1.status ∧
      (handle render env headers call state).2 =
        { state with nextRequestId := state.nextRequestId + 1 } := by
  let counted : AppState := { state with nextRequestId := state.nextRequestId + 1 }
  -- the checks come first, so no token is taken and nothing is performed
  obtain ⟨error, fails⟩ : (checks headers call).Refuses counted := refuses_checks improper
  unfold handle
  rw [serve_eq, bind_of_error fails]
  refine ⟨?_, rfl⟩
  cases error <;> simp [SidecarError.intoResponse]

omit [HeaderText] [Rounding] in
/-- A batch of which only the second item names a foreign tenant.  The first would have been a hit
in the cache. -/
theorem handle_of_improper_batch :
    let _ := Rounding.nearestEven
    let _ := HeaderText.visibleAscii
    let ops : List Op := [.addEdge "acme" (.new "a" "b"), .route "acme" "a" "b"]
    let state : AppState := { AppState.sample with router := run Router.step .new ops }
    let handled := handle (fun _ => "") default [("x-api-key", asBytes "key")]
      (.batch [⟨"acme", "a", "b"⟩, ⟨"zeta", "a", "b"⟩]) state
    400 ≤ handled.1.status ∧ handled.2 = { state with nextRequestId := 2 } := by
  intro _ _ ops state handled
  have second : "zeta" ∈ ApiCall.tenants (.batch [⟨"acme", "a", "b"⟩, ⟨"zeta", "a", "b"⟩]) :=
    .tail _ (.head _)
  have foreign : "zeta" ∉ state.allowedTenants := by
    show "zeta" ∉ ({"acme"} : Finset TenantId)
    decide
  exact handle_of_improper (fun _ => "") default (.tenant second foreign)

end AppState

end TrustRouter
