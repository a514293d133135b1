import TrustRouter.Audit

/-!
# Request handlers

A request handler runs on its own thread, next to others.  What it does to what they
share, it does by calls: `Router::route`, `Router::last_audit_event` and
`append_events_jsonl`.  `Handler` is a program made of these calls; what a call answers
is decided by whoever runs the program, and between two calls anything may happen.

A handler only passes on the events it is given.  Their type is a parameter, so that it
cannot look at them, and so that an event can be followed through it.

`Persists` is about one handler by itself.  If it is always answered with the event of
its own latest decision when it asks for the last event, it writes the events of all its
decisions, once, before it succeeds.
-/

namespace TrustRouter

/-- A program that serves a request. -/
inductive Handler (ε α : Type) where
  | done (answer : α)
  | route (tenantId : TenantId) (start goal : NodeId) (next : RouteDecision → Handler ε α)
  | lastAuditEvent (next : Option ε → Handler ε α)
  | appendEventsJsonl (events : List ε) (next : Except String ℕ → Handler ε α)

namespace Handler

variable {ε α β : Type}

def bind : Handler ε α → (α → Handler ε β) → Handler ε β
  | done answer, f => f answer
  | route tenantId start goal next, f =>
      route tenantId start goal fun decision => (next decision).bind f
  | lastAuditEvent next, f => lastAuditEvent fun event => (next event).bind f
  | appendEventsJsonl events next, f =>
      appendEventsJsonl events fun result => (next result).bind f

instance : Monad (Handler ε) where
  pure := done
  bind := bind

/-- `state.router.route(..)`. -/
def callRoute (tenantId : TenantId) (start goal : NodeId) : Handler ε RouteDecision :=
  route tenantId start goal done

/-- `state.router.last_audit_event()`. -/
def callLastAuditEvent : Handler ε (Option ε) := lastAuditEvent done

/-- `append_events_jsonl(&state.audit_path, ..)`. -/
def callAppendEventsJsonl (events : List ε) : Handler ε (Except String ℕ) :=
  appendEventsJsonl events done

theorem bind_assoc {γ : Type} (handler : Handler ε α) (f : α → Handler ε β)
    (g : β → Handler ε γ) :
    (handler.bind f).bind g = handler.bind fun answer => (f answer).bind g := by
  induction handler with
  | done => rfl
  | route tenantId start goal next ih => exact congrArg (route tenantId start goal) (funext ih)
  | lastAuditEvent next ih => exact congrArg lastAuditEvent (funext ih)
  | appendEventsJsonl events next ih => exact congrArg (appendEventsJsonl events) (funext ih)

variable {κ : Type}

/-- The program writes the events of its decisions before it succeeds.  `owed` are the
events of the decisions it has been given so far and `fetched` the events it has been
given. -/
def Persists : Handler ε (Except κ α) → List ε → List ε → Prop
  | done (.ok _), owed, _ => owed = []
  | done (.error _), _, _ => True
  | route _ _ _ next, owed, fetched =>
      fetched = owed ∧ ∀ decision event, (next decision).Persists (owed ++ [event]) owed
  | lastAuditEvent next, owed, fetched =>
      ∃ event, owed = fetched ++ [event] ∧ (next (some event)).Persists owed owed
  | appendEventsJsonl events next, owed, _ =>
      events = owed ∧ (∀ written, ∃ answer, next (.ok written) = done answer) ∧
        ∀ failure, ∃ error, next (.error failure) = done (.error error)

end Handler

end TrustRouter
