import TrustRouter.HandlersAlone
import TrustRouter.Refusals

/-!
# A batch is its items in sequence

`/route/batch` takes all its tokens, then routes its items, and writes their events at the
end.  Sent one after another to `/route`, the items would take a token each, and have their
event written before the next one is routed.  Nobody else being served, both come to the
same.

The invariant of the two runs side by side is `Abreast`: what the batch has still to write is
all that its audit file lacks.  Tokens are of no concern to it, because neither the router
nor the files nor the metrics know of them.
-/

namespace TrustRouter

/-- Every call is answered `Ok`. -/
def TokenBucket.Grants [Rounding] (bucket : TokenBucket) (calls : List Instant) : Prop :=
  AllSteps acquire (fun bucket now => (bucket.tryAcquireAt now).2 = .ok ()) bucket calls

namespace AppState

variable [Rounding] [HeaderText] (render : Json → String) (headers : HeaderMap)

/-- The state after a request. -/
def receive (state : AppState) (request : RequestEnvironment × ApiCall) : AppState :=
  (handle render request.1 headers request.2 state).2

/-- The responses to requests that are sent one after another. -/
def responses (state : AppState) (requests : List (RequestEnvironment × ApiCall)) :
    List HttpResponse :=
  outputs (receive render headers)
    (fun state request => (handle render request.1 headers request.2 state).1) state requests

/-! ## Requests that pass -/

variable {headers} {state : AppState}

omit [Rounding] in
theorem checkApiKey_of_ok (key : requireApiKey headers state.apiKey = .ok ()) :
    checkApiKey headers state = (.ok (), state) :=
  congrArg (·, state) key

omit [Rounding] [HeaderText] in
theorem checkTenant_of_mem {tenant : TenantId} (allowed : tenant ∈ state.allowedTenants) :
    checkTenant tenant state = (.ok (), state) :=
  congrArg (·, state) (if_pos allowed)

omit [HeaderText] in
theorem tryAcquire_of_ok {now : Instant}
    (granted : (state.rateLimiter.tryAcquireAt now).2 = .ok ()) :
    tryAcquire now state =
      (.ok (), { state with rateLimiter := state.rateLimiter.acquire now }) := by
  unfold tryAcquire
  simp only [granted]
  rfl

omit [HeaderText] in
theorem acquireTokens_of_grants {calls : List Instant} (grants : state.rateLimiter.Grants calls) :
    acquireTokens calls state = (.ok (),
      { state with rateLimiter := run TokenBucket.acquire state.rateLimiter calls }) := by
  induction calls generalizing state with
  | nil => rfl
  | cons now rest ih =>
      obtain ⟨granted, rest⟩ := grants
      rw [acquireTokens, App.bind_of_ok (tryAcquire_of_ok granted)]
      exact ih rest

omit [Rounding] [HeaderText] in
theorem checkItems_of_forall {requests : List BatchRouteItem}
    (fine : ∀ item ∈ requests, item.validate = .ok () ∧ item.tenant ∈ state.allowedTenants) :
    checkItems requests state = (.ok (), state) := by
  induction requests with
  | nil => rfl
  | cons item rest ih =>
      obtain ⟨⟨valid, allowed⟩, fine⟩ := List.forall_mem_cons.mp fine
      rw [checkItems, App.bind_of_ok (App.check_of_ok valid state),
        App.bind_of_ok (checkTenant_of_mem allowed)]
      exact ih fine

/-- A batch that passes its checks. -/
structure Admits (headers : HeaderMap) (state : AppState) (requests : List BatchRouteItem) :
    Prop where
  key : requireApiKey headers state.apiKey = .ok ()
  size : checkSize requests = .ok ()
  items : ∀ item ∈ requests, item.validate = .ok () ∧ item.tenant ∈ state.allowedTenants

omit [Rounding] in
theorem Admits.checks {requests : List BatchRouteItem} (admits : state.Admits headers requests) :
    checks headers (.batch requests) state = (.ok (), state) := by
  rw [AppState.checks, App.bind_of_ok (App.check_of_ok admits.size state),
    App.bind_of_ok (checkApiKey_of_ok admits.key)]
  exact checkItems_of_forall admits.items

/-! ## Side by side -/

variable {render}

/-- A batch under way, in `state`, and the items it has routed, sent one by one, in `state'`. -/
structure Abreast (render : Json → String) (progress : BatchProgress AuditEvent)
    (state state' : AppState) : Prop where
  router : state.router = state'.router
  auditFile : state'.auditFile =
    state.auditFile ++ progress.newAuditEvents.map (AuditEvent.toJsonLine render)
  metrics : state.metrics.withoutLatencies = state'.metrics.withoutLatencies
  apiKey : state.apiKey = state'.apiKey
  allowedTenants : state.allowedTenants = state'.allowedTenants

variable {env : RequestEnvironment} {item : BatchRouteItem}

/-- A query that passes, has its token and can be written is answered with its decision. -/
theorem handle_route (valid : item.validate = .ok ())
    (key : requireApiKey headers state.apiKey = .ok ())
    (allowed : item.tenant ∈ state.allowedTenants)
    (granted : (state.rateLimiter.tryAcquireAt (env.acquireAt 0)).2 = .ok ())
    (noFault : env.fault = none) :
    let decided := state.decide item.query
    handle render env headers (.route item.query) state =
      ({ status := 200
         body := .route (.fromDecision decided.decision)
         requestId := state.requestId },
        { state with
          router := decided.state.router
          auditFile := state.auditFile ++ [decided.event.toJsonLine render]
          rateLimiter := state.rateLimiter.acquire (env.acquireAt 0)
          nextRequestId := state.nextRequestId + 1
          metrics := (state.metrics.recordRoute item.tenant decided.decision (env.elapsed 0)
            decided.state.router).1 }) := by
  intro decided
  let counted : AppState := { state with nextRequestId := state.nextRequestId + 1 }
  let paid : AppState :=
    { counted with rateLimiter := state.rateLimiter.acquire (env.acquireAt 0) }
  have passed : checks headers (.route item.query) counted = (.ok (), counted) := by
    have isValid : item.query.validate = .ok () := valid
    have keyed : checkApiKey headers counted = (.ok (), counted) := checkApiKey_of_ok key
    rw [checks, App.bind_of_ok (App.check_of_ok isValid counted), App.bind_of_ok keyed]
    exact checkTenant_of_mem allowed
  have acquired : acquireTokens ((List.range (ApiCall.tokens (.route item.query))).map
      env.acquireAt) counted = (.ok (), paid) :=
    acquireTokens_of_grants ⟨granted, trivial⟩
  -- the event is written before the decision is counted, and the write succeeds
  let written : AppState := { (paid.decide item.query).state with
    auditFile := state.auditFile ++ [decided.event.toJsonLine render] }
  have appended : callAppendEventsJsonl render env.fault [(paid.decide item.query).event]
      (paid.decide item.query).state = (.ok 1, written) := by
    rw [noFault]
    rfl
  have routed : handleRoute render env item.query paid = (.ok (.fromDecision decided.decision),
      (recordRoute item.tenant decided.decision (env.elapsed 0) written).2) := by
    rw [handleRoute_apply, App.bind_of_ok (persistBeforeResponse_of_ok render appended)]
    rfl
  rw [handle, serve_eq, App.bind_of_ok passed, App.bind_of_ok acquired, perform,
    App.map_of_ok routed]
  rfl

/-- **One more item keeps the two runs abreast.** -/
theorem Abreast.step {progress : BatchProgress AuditEvent} {state state' : AppState}
    (abreast : Abreast render progress state state') (elapsed : Duration)
    (valid : item.validate = .ok ()) (key : requireApiKey headers state'.apiKey = .ok ())
    (allowed : item.tenant ∈ state'.allowedTenants)
    (granted : (state'.rateLimiter.tryAcquireAt (env.acquireAt 0)).2 = .ok ())
    (noFault : env.fault = none) :
    let decided := state.decide item.query
    let single := handle render env headers (.route item.query) state'
    single.1.status = 200 ∧ single.1.body = .route (.fromDecision decided.decision) ∧
      single.2.rateLimiter = state'.rateLimiter.acquire (env.acquireAt 0) ∧
      Abreast render (progress.record decided.decision (some decided.event))
        (recordRoute item.tenant decided.decision elapsed decided.state).2 single.2 := by
  intro decided single
  have one : single = _ := handle_route valid key allowed granted noFault
  -- the routers are the same, so the decision, its event and the router it leaves are too
  have same : decided.decision = (state'.decide item.query).decision := by
    simp only [decided, AppState.decide, abreast.router]
  have sameEvent : decided.event = (state'.decide item.query).event := by
    simp only [decided, AppState.decide, abreast.router]
  have sameRouter : decided.state.router = (state'.decide item.query).state.router := by
    simp only [decided, AppState.decide, abreast.router]
  rw [one]
  refine ⟨rfl, by rw [same], rfl, sameRouter, ?_, ?_, abreast.apiKey, abreast.allowedTenants⟩
  · show state'.auditFile ++ [(state'.decide item.query).event.toJsonLine render] =
      state.auditFile ++ (progress.newAuditEvents ++ [decided.event]).map
        (AuditEvent.toJsonLine render)
    rw [abreast.auditFile, sameEvent]
    simp
  · show _ = (state'.metrics.recordRoute item.tenant (state'.decide item.query).decision
      (env.elapsed 0) (state'.decide item.query).state.router).1.withoutLatencies
    rw [← same, ← sameRouter]
    exact Metrics.withoutLatencies_recordRoute abreast.metrics _ _ _ _ _

/-- Items of a batch, each with the time its decision takes in the batch and with what it
finds around it when it is sent alone. -/
abbrev Entry := BatchRouteItem × Duration × RequestEnvironment

/-- **The two runs come to the same.** -/
theorem Abreast.run {progress : BatchProgress AuditEvent} {state state' : AppState}
    (abreast : Abreast render progress state state') (entries : List Entry)
    (key : requireApiKey headers state'.apiKey = .ok ())
    (fine : ∀ entry ∈ entries, entry.1.validate = .ok () ∧ entry.1.tenant ∈ state'.allowedTenants)
    (grants : state'.rateLimiter.Grants (entries.map fun entry => entry.2.2.acquireAt 0))
    (noFault : ∀ entry ∈ entries, entry.2.2.fault = none) :
    let routed := routeBatchItems (entries.map fun entry => (entry.1, entry.2.1)) progress state
    let requests := entries.map fun entry => (entry.2.2, ApiCall.route entry.1.query)
    let state'' := TrustRouter.run (receive render headers) state' requests
    (∃ results, routed.1.results = progress.results ++ results ∧
      (responses render headers state' requests).map (fun answer => (answer.status, answer.body)) =
        results.map fun result => (200, .route result)) ∧
      state''.rateLimiter = TrustRouter.run TokenBucket.acquire state'.rateLimiter
        (entries.map fun entry => entry.2.2.acquireAt 0) ∧
      Abreast render routed.1 routed.2 state'' := by
  induction entries generalizing progress state state' with
  | nil => exact ⟨⟨[], (List.append_nil _).symm, rfl⟩, rfl, abreast⟩
  | cons entry rest ih =>
      obtain ⟨item, elapsed, env⟩ := entry
      obtain ⟨⟨valid, allowed⟩, fine⟩ := List.forall_mem_cons.mp fine
      obtain ⟨noFault, noFaults⟩ := List.forall_mem_cons.mp noFault
      obtain ⟨granted, grants⟩ := grants
      obtain ⟨status, body, paid, next⟩ := abreast.step elapsed valid key allowed granted noFault
      have apiKey : (handle render env headers (.route item.query) state').2.apiKey =
        state'.apiKey := next.apiKey.symm.trans abreast.apiKey
      have tenants : (handle render env headers (.route item.query) state').2.allowedTenants =
        state'.allowedTenants := next.allowedTenants.symm.trans abreast.allowedTenants
      -- a request leaves the key and the tenants alone, so the rest passes its checks as well
      have rest' := ih next (apiKey ▸ key) (fun entry mem => tenants ▸ fine entry mem)
        (paid ▸ grants) noFaults
      rw [List.map_cons, routeBatchItems_cons]
      obtain ⟨⟨results, all, answers⟩, tokens, ends⟩ := rest'
      refine ⟨⟨.fromDecision (state.decide item.query).decision :: results, ?_, ?_⟩, ?_, ends⟩
      · rw [all]
        simp [BatchProgress.record]
      · exact congrArg₂ List.cons (Prod.ext status body) answers
      · exact tokens.trans
          (congrArg (fun bucket => TrustRouter.run TokenBucket.acquire bucket _) paid)

omit [HeaderText] in
/-- The loop over a batch takes no tokens. -/
theorem rateLimiter_routeBatchItems (items : List (BatchRouteItem × Duration))
    (progress : BatchProgress AuditEvent) (state : AppState) :
    (routeBatchItems items progress state).2.rateLimiter = state.rateLimiter := by
  induction items generalizing progress state with
  | nil => rfl
  | cons entry rest ih =>
      obtain ⟨item, elapsed⟩ := entry
      rw [routeBatchItems_cons]
      exact ih _ _

/-- A batch that passes, has its tokens and can be written is answered with what its loop has
collected. -/
theorem handle_batch {requests : List BatchRouteItem} (admits : state.Admits headers requests)
    (grants : state.rateLimiter.Grants ((List.range requests.length).map env.acquireAt))
    (noFault : env.fault = none) :
    let paid := { state with
      nextRequestId := state.nextRequestId + 1
      rateLimiter := run TokenBucket.acquire state.rateLimiter
        ((List.range requests.length).map env.acquireAt) }
    let routed := routeBatchItems (requests.mapIdx fun k item => (item, env.elapsed k)) {} paid
    handle render env headers (.batch requests) state =
      ({ status := 200
         body := .batch ⟨routed.1.results, routed.1.totalRouted, routed.1.totalEscalated⟩
         requestId := state.requestId },
        { routed.2 with
          auditFile := routed.2.auditFile ++
            routed.1.newAuditEvents.map (AuditEvent.toJsonLine render) }) := by
  intro paid routed
  let counted : AppState := { state with nextRequestId := state.nextRequestId + 1 }
  have passed : checks headers (.batch requests) counted = (.ok (), counted) :=
    Admits.checks ⟨admits.key, admits.size, admits.items⟩
  have acquired : acquireTokens ((List.range (ApiCall.tokens (.batch requests))).map
      env.acquireAt) counted = (.ok (), paid) := acquireTokens_of_grants grants
  let written : AppState := { routed.2 with
    auditFile := routed.2.auditFile ++
      routed.1.newAuditEvents.map (AuditEvent.toJsonLine render) }
  have appended : callAppendEventsJsonl render env.fault routed.1.newAuditEvents routed.2 =
      (.ok routed.1.newAuditEvents.length, written) := by
    rw [noFault]
    rfl
  have ran : routeBatch render env requests paid =
      (.ok ⟨routed.1.results, routed.1.totalRouted, routed.1.totalEscalated⟩, written) := by
    have loop : routeBatchItems (requests.mapIdx fun k item => (item, env.elapsed k)) {} paid =
      (routed.1, routed.2) := rfl
    rw [routeBatch, App.bind_of_ok (App.lift_apply loop), App.bind_of_ok (App.lift_apply appended)]
    rfl
  rw [handle, serve_eq, App.bind_of_ok passed, App.bind_of_ok acquired, perform,
    App.map_of_ok ran]

/-- **A batch is its items in sequence.**  Where all its items pass and have their tokens and
nothing fails to be written, a batch is answered with the responses the items would have been
given one after another at the same instants, and leaves the router, the audit file, the
bucket and, latencies aside, the metrics as they would have. -/
theorem batch_eq_sequence (requests : List BatchRouteItem) (env : RequestEnvironment)
    (envs : ℕ → RequestEnvironment) (admits : state.Admits headers requests)
    (grants : state.rateLimiter.Grants ((List.range requests.length).map env.acquireAt))
    (sameInstants : ∀ k, (envs k).acquireAt 0 = env.acquireAt k)
    (noFault : env.fault = none ∧ ∀ k, (envs k).fault = none) :
    let batch := handle render env headers (.batch requests) state
    let singles := requests.mapIdx fun k item => (envs k, ApiCall.route item.query)
    let final := run (receive render headers) state singles
    ∃ response : BatchRouteResponse, batch.1.status = 200 ∧ batch.1.body = .batch response ∧
      (responses render headers state singles).map (fun answer => (answer.status, answer.body)) =
        response.results.map (fun result => (200, .route result)) ∧
      batch.2.router = final.router ∧ batch.2.auditFile = final.auditFile ∧
      batch.2.metrics.withoutLatencies = final.metrics.withoutLatencies ∧
      batch.2.rateLimiter = final.rateLimiter := by
  intro batch singles final
  let entries : List Entry := requests.mapIdx fun k item => (item, env.elapsed k, envs k)
  have items : entries.map (fun entry => (entry.1, entry.2.1)) =
      requests.mapIdx fun k item => (item, env.elapsed k) := map_mapIdx _ _ _
  have sent : entries.map (fun entry => (entry.2.2, ApiCall.route entry.1.query)) = singles :=
    map_mapIdx _ _ _
  have instants : entries.map (fun entry => entry.2.2.acquireAt 0) =
      (List.range requests.length).map env.acquireAt := by
    refine List.ext_getElem (by simp [entries]) fun k _ _ => ?_
    simp [entries, sameInstants]
  have fine : ∀ entry ∈ entries,
      entry.1.validate = .ok () ∧ entry.1.tenant ∈ state.allowedTenants := by
    intro entry mem
    obtain ⟨k, inRequests, rfl⟩ := List.mem_mapIdx.mp mem
    exact admits.items _ (List.getElem_mem inRequests)
  have noFaults : ∀ entry ∈ entries, entry.2.2.fault = none := by
    intro entry mem
    obtain ⟨k, -, rfl⟩ := List.mem_mapIdx.mp mem
    exact noFault.2 k
  let paid := { state with
    nextRequestId := state.nextRequestId + 1
    rateLimiter := run TokenBucket.acquire state.rateLimiter
      ((List.range requests.length).map env.acquireAt) }
  -- the batch pays for all its items first, which `Abreast` does not look at
  have abreast : Abreast render {} paid state :=
    ⟨rfl, (List.append_nil _).symm, rfl, rfl, rfl⟩
  obtain ⟨⟨results, all, answers⟩, tokens, ends⟩ :=
    abreast.run entries admits.key fine (instants ▸ grants) noFaults
  -- what holds of the entries, read for the batch and for the single requests
  rw [items] at all ends
  rw [sent] at answers tokens ends
  rw [instants] at tokens
  have served : batch = _ := handle_batch admits grants noFault.1
  rw [served]
  refine ⟨_, rfl, rfl, ?_, ends.router, ends.auditFile.symm, ends.metrics, ?_⟩
  · rw [answers, all]
    rfl
  · exact (rateLimiter_routeBatchItems _ _ _).trans tokens.symm

omit [HeaderText] [Rounding] in
/-- The same route twice, of which the second is a hit, and one that there is not. -/
theorem batch_eq_sequence_of_three :
    let _ := Rounding.nearestEven
    let _ := HeaderText.visibleAscii
    let state : AppState :=
      { AppState.sample with router := Router.step .new (.addEdge "acme" (.new "a" "b")) }
    let headers := [("x-api-key", asBytes "key")]
    let requests : List BatchRouteItem :=
      [⟨"acme", "a", "b"⟩, ⟨"acme", "a", "b"⟩, ⟨"acme", "b", "a"⟩]
    let batch := handle (fun _ => "") default headers (.batch requests) state
    let singles := requests.map fun item =>
      ((default : RequestEnvironment), ApiCall.route item.query)
    let final := run (receive (fun _ => "") headers) state singles
    ∃ response : BatchRouteResponse, batch.1.status = 200 ∧ batch.1.body = .batch response ∧
      (responses (fun _ => "") headers state singles).map
        (fun answer => (answer.status, answer.body)) =
          response.results.map (fun result => (200, .route result)) ∧
      batch.2.router = final.router ∧ batch.2.auditFile = final.auditFile ∧
      batch.2.metrics.withoutLatencies = final.metrics.withoutLatencies ∧
      batch.2.rateLimiter = final.rateLimiter ∧
      batch.2.metrics.cacheHits = 1 ∧ batch.2.metrics.totalEscalations = 1 := by
  intro _ _ state headers requests batch singles final
  have admits : state.Admits headers requests := ⟨by decide, by decide, by decide⟩
  have grants : state.rateLimiter.Grants ((List.range requests.length).map fun _ => 0) :=
    ⟨by decide +kernel, by decide +kernel, by decide +kernel, trivial⟩
  obtain ⟨response, ok, body, answers, router, auditFile, metrics, tokens⟩ :=
    batch_eq_sequence requests default (fun _ => default) admits grants (fun _ => rfl)
      ⟨rfl, fun _ => rfl⟩
  exact ⟨response, ok, body, answers, router, auditFile, metrics, tokens, by decide +kernel,
    by decide +kernel⟩

end AppState

end TrustRouter
