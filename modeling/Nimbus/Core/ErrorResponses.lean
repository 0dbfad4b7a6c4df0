/-
  Nimbus.Core.ErrorResponses
  ──────────────────────────
  **WHAT A CLIENT IS SHOWN OF AN ERROR.**

  `get_session` turns driver exceptions into `NimbusError`s, and the exception
  handlers turn those into HTTP responses.  The response has the class's safe
  message in place of the exception's text, but all of its details.  Handlers
  for Starlette's and FastAPI's own exceptions are left out: no driver raises
  them.

    • `translate`    — the `except` clauses of `get_session`;
    • `respond`      — the exception handlers;
    • `shown_driver_error` — **the text of a driver exception is in the response**;
    • `response_iff` — **two texts give one response exactly when the exception
                       is not of a driver class.**
-/
import Nimbus.Core.Exceptions

namespace Nimbus

/-! ## §1. The exception handlers. -/

namespace ExnClass

/-- `status_code`, the class's own or inherited. -/
def statusCode : ExnClass → Nat
  | .domainError => 422
  | .resourceNotFoundError | .stockNotFoundError | .orderNotFoundError | .paymentNotFoundError => 404
  | .conflictError | .idempotencyConflictError | .outOfStockError | .concurrentUpdateError
  | .userAlreadyExistsError => 409
  | .validationFailedError => 400
  | .authenticationError | .tokenError => 401
  | .permissionDeniedError => 403
  | .rateLimitedError => 429
  | .infrastructureError | .databaseLockError | .databaseConnectionError | .cacheUnavailableError
  | .brokerUnavailableError => 503
  | .timeoutError => 504
  | _ => 500

/-- `code`. -/
def code : ExnClass → String
  | .domainError => "nimbus.domain_error"
  | .resourceNotFoundError => "nimbus.not_found"
  | .conflictError => "nimbus.conflict"
  | .idempotencyConflictError => "nimbus.idempotency_conflict"
  | .validationFailedError => "nimbus.validation_failed"
  | .authenticationError | .tokenError => "nimbus.unauthenticated"
  | .permissionDeniedError => "nimbus.forbidden"
  | .rateLimitedError => "nimbus.rate_limited"
  | .infrastructureError => "nimbus.infrastructure_error"
  | .databaseLockError => "nimbus.db_lock"
  | .databaseConnectionError => "nimbus.db_connection"
  | .cacheUnavailableError => "nimbus.cache_unavailable"
  | .brokerUnavailableError => "nimbus.broker_unavailable"
  | .timeoutError => "nimbus.timeout"
  | .outOfStockError => "inventory.out_of_stock"
  | .concurrentUpdateError => "inventory.concurrent_update"
  | .stockNotFoundError => "inventory.not_found"
  | .orderNotFoundError => "orders.not_found"
  | .paymentNotFoundError => "payments.not_found"
  | .userAlreadyExistsError => "users.email_taken"
  | _ => "nimbus.internal_error"

/-- `safe_message`. -/
def safeMessage : ExnClass → String
  | .domainError => "A business rule was violated."
  | .resourceNotFoundError => "The requested resource was not found."
  | .conflictError => "The request conflicts with the current state."
  | .idempotencyConflictError => "A request with this idempotency key is already in progress."
  | .validationFailedError => "Input validation failed."
  | .authenticationError | .tokenError => "Authentication required."
  | .permissionDeniedError => "You do not have permission to perform this action."
  | .rateLimitedError => "Too many requests. Please retry later."
  | .infrastructureError => "A downstream dependency is unavailable."
  | .databaseLockError => "The database is busy. Please retry."
  | .databaseConnectionError => "Cannot reach the database."
  | .cacheUnavailableError => "The cache layer is unavailable."
  | .brokerUnavailableError => "The message broker is unavailable."
  | .timeoutError => "The operation timed out."
  | .outOfStockError => "Insufficient stock for the requested quantity."
  | .concurrentUpdateError => "The stock was modified concurrently. Please retry."
  | .stockNotFoundError => "Stock not found."
  | .orderNotFoundError => "Order not found."
  | .paymentNotFoundError => "Payment not found."
  | .userAlreadyExistsError => "An account with that email already exists."
  | _ => "An internal error occurred."

end ExnClass

/-- A `JSONResponse`: the value its body is the JSON text of, and the headers
it is given. -/
structure Response where
  status_code : Nat
  content : PyVal
  headers : List (String × String)

/-- `_error_payload`. -/
def errorPayload (code message : String) (details : List (String × PyVal)) : PyVal :=
  .dict [(.str "error", .dict [(.str "code", .str code), (.str "message", .str message),
    (.str "details", .dict (details.map fun kv => (.str kv.1, kv.2)))])]

/-- `_nimbus_error_handler`. -/
def nimbusErrorHandler (exc : Exn) : Response where
  status_code := exc.cls.statusCode
  content := errorPayload exc.cls.code exc.cls.safeMessage exc.details
  headers := [("X-Error-Code", exc.cls.code)]

/-- `_unhandled_exception_handler`. -/
def unhandledExceptionHandler : Response where
  status_code := 500
  content := errorPayload "nimbus.internal_error" "An internal error occurred." []
  headers := []

/-- The handler that takes the exception. -/
def respond (exc : Exn) : Response :=
  if exc.isA .nimbusError then nimbusErrorHandler exc else unhandledExceptionHandler

/-- What a response shows under a key of its details. -/
def Response.detail (r : Response) (k : String) : Option PyVal :=
  (r.content.get? "error").bind fun error => (error.get? "details").bind fun details => details.get? k

/-! ## §2. The session dependency. -/

/-- `str.lower`, as far as letters that become ASCII letters of their own go. -/
def lowerChar (c : Char) : Char := if c = '\u212a' then 'k' else c.toLower

/-- `pat in text.lower()`. -/
def inLower (pat text : String) : Bool :=
  (text.toList.map lowerChar).tails.any fun rest => pat.toList.isPrefixOf rest

/-- The details of a translated driver exception. -/
def driverDetails (target_schema : String) (exc : Exn) : List (String × PyVal) :=
  [("schema", .str target_schema), ("driver_error", .str exc.msg)]

/-- What `get_session` raises for an exception of its body, once the session is
rolled back. -/
def translated (target_schema : String) (exc : Exn) : Exn :=
  if exc.isA .operationalError then
    if inLower "lock" exc.msg || inLower "timeout" exc.msg then
      ⟨.databaseLockError, "Database was busy. Please retry.", driverDetails target_schema exc⟩
    else ⟨.databaseConnectionError, "Database is unreachable.", driverDetails target_schema exc⟩
  else if exc.isA .disconnectionError || exc.isA .interfaceError || exc.isA .dbapiError then
    ⟨.databaseConnectionError, "Database connection failed.", driverDetails target_schema exc⟩
  else if exc.isA .builtinTimeoutError then
    ⟨.timeoutError, "Database operation timed out.", [("schema", .str target_schema)]⟩
  else exc

/-- `get_session`'s `except` clauses; `rollback` is what the rollback raises, if
it does. -/
def translate (target_schema : String) (rollback : Option Exn) (exc : Exn) : Exn :=
  match rollback with
  | some exc' => exc'
  | none => translated target_schema exc

/-! ## §3. Driver texts. -/

/-- The classes whose text `get_session` puts into the details. -/
def ExnClass.isDriver (c : ExnClass) : Bool :=
  c.isSubclass .operationalError
    || (c.isSubclass .disconnectionError || c.isSubclass .interfaceError || c.isSubclass .dbapiError)

/-- An exception with another text. -/
def Exn.withText (exc : Exn) (text : String) : Exn := { exc with msg := text }

/-- A driver exception becomes a `NimbusError` with the driver's text. -/
theorem translated_driver {exc : Exn} (h : exc.cls.isDriver = true) (target_schema : String) :
    (translated target_schema exc).isA .nimbusError = true
      ∧ (translated target_schema exc).details = driverDetails target_schema exc := by
  unfold translated
  by_cases hop : exc.isA .operationalError = true
  · rw [if_pos hop]
    split
    next => exact ⟨rfl, rfl⟩
    next => exact ⟨rfl, rfl⟩
  · have hother : (exc.isA .disconnectionError || exc.isA .interfaceError || exc.isA .dbapiError)
        = true := by
      unfold ExnClass.isDriver at h
      rcases Bool.or_eq_true_iff.mp h with hc | hc
      · exact absurd hc hop
      · exact hc
    rw [if_neg hop, if_pos hother]
    exact ⟨rfl, rfl⟩

/-- **The client is shown the text of a driver exception.** -/
theorem shown_driver_error (exc : Exn) (h : exc.cls.isDriver = true) (target_schema : String) :
    (respond (translated target_schema exc)).detail "driver_error" = some (.str exc.msg) := by
  obtain ⟨hnimbus, hdetails⟩ := translated_driver h target_schema
  unfold respond
  rw [if_pos hnimbus]
  unfold nimbusErrorHandler
  rw [hdetails]
  rfl

/-- Of any other exception the response does not depend on the text. -/
theorem respond_withText {exc : Exn} (h : exc.cls.isDriver = false) (target_schema text : String) :
    respond (translated target_schema (exc.withText text))
      = respond (translated target_schema exc) := by
  unfold ExnClass.isDriver at h
  obtain ⟨hop, hother⟩ := Bool.or_eq_false_iff.mp h
  -- the clauses look at the class alone
  have hclauses : ∀ exc' : Exn, exc'.cls = exc.cls →
      translated target_schema exc' = if exc'.isA .builtinTimeoutError then
        ⟨.timeoutError, "Database operation timed out.", [("schema", .str target_schema)]⟩
      else exc' := by
    intro exc' hcls
    have h₁ : ¬ exc'.isA .operationalError = true := by
      rw [Exn.isA_of_cls hcls, hop]
      exact Bool.false_ne_true
    have h₂ : ¬ (exc'.isA .disconnectionError || exc'.isA .interfaceError || exc'.isA .dbapiError)
        = true := by
      rw [Exn.isA_of_cls hcls, Exn.isA_of_cls hcls, Exn.isA_of_cls hcls, hother]
      exact Bool.false_ne_true
    unfold translated
    rw [if_neg h₁, if_neg h₂]
  rw [hclauses (exc.withText text) rfl, hclauses exc rfl]
  show respond (if exc.isA .builtinTimeoutError then _ else exc.withText text) = _
  by_cases ht : exc.isA .builtinTimeoutError = true
  · rw [if_pos ht, if_pos ht]
  · rw [if_neg ht, if_neg ht]
    rfl

/-- **Two texts of an exception give one response** exactly when it is not of a
driver class, or its text never gets that far. -/
theorem response_iff (target_schema : String) (rollback : Option Exn) (exc : Exn)
    (text text' : String) :
    respond (translate target_schema rollback (exc.withText text))
        = respond (translate target_schema rollback (exc.withText text'))
      ↔ (rollback = none → exc.cls.isDriver = true → text = text') := by
  cases rollback with
  | some exc' => exact iff_of_true rfl fun hc => (nomatch hc)
  | none =>
      show respond (translated target_schema (exc.withText text))
        = respond (translated target_schema (exc.withText text')) ↔ _
      cases hdriver : exc.cls.isDriver with
      | false =>
          refine iff_of_true ?_ fun _ hc => (nomatch hc)
          rw [respond_withText hdriver, respond_withText hdriver]
      | true =>
          constructor
          · intro h _ _
            have hshown := congrArg (fun r => r.detail "driver_error") h
            have h₁ := shown_driver_error (exc.withText text) hdriver target_schema
            have h₂ := shown_driver_error (exc.withText text') hdriver target_schema
            exact PyVal.str.inj (Option.some.inj (h₁.symm.trans (hshown.trans h₂)))
          · intro h
            rw [h rfl rfl]

/-- A lost connection while the user with this address is looked up. -/
def lookupError (email : String) : Exn :=
  ⟨.operationalError, "server closed the connection "
    ++ "[SQL: SELECT users.id FROM users WHERE email = $1] [parameters: ('" ++ email ++ "',)]", []⟩

/-- The client learns whose row the statement was about. -/
theorem response_fails :
    respond (translate "users" none (lookupError "alice@example.com"))
      ≠ respond (translate "users" none (lookupError "bob@example.com")) := by
  intro h
  have h₁ := shown_driver_error (lookupError "alice@example.com") rfl "users"
  have h₂ := shown_driver_error (lookupError "bob@example.com") rfl "users"
  have hshown := congrArg (fun r => r.detail "driver_error") h
  have htext := PyVal.str.inj (Option.some.inj (h₁.symm.trans (hshown.trans h₂)))
  exact absurd htext (by decide)

end Nimbus
