/-
  Nimbus.Core.Exceptions
  ──────────────────────
  **EXCEPTION CLASSES AND `except` CLAUSES.**

  The classes that the modelled code raises or names in an `except` clause,
  with their base classes; `foreign` stands for any other class derived from
  `Exception`.

    • `ExnClass.isSubclass` — decides which `except` clause takes an exception;
    • `Exn`                 — an exception: class, message, details;
    • `Raised`              — an exception, or what is no `Exception`.
-/
import Nimbus.Core.PyVal

namespace Nimbus

/-- Exception classes. -/
inductive ExnClass where
  -- Python
  | exception | valueError | typeError | attributeError | runtimeError | assertionError
  | builtinTimeoutError
  -- src/core/exceptions.py
  | nimbusError | domainError | resourceNotFoundError | conflictError | idempotencyConflictError
  | validationFailedError | authenticationError | permissionDeniedError | rateLimitedError
  | infrastructureError | databaseLockError | databaseConnectionError
  | cacheUnavailableError | brokerUnavailableError | timeoutError
  -- the modules
  | outOfStockError | concurrentUpdateError | stockNotFoundError
  | orderNotFoundError | paymentNotFoundError | paymentAlreadyProcessedError | tokenError
  | passwordError | userAlreadyExistsError
  -- third parties
  | validationError | serializationError
  | dbapiError | databaseError | operationalError | integrityError | dataError | interfaceError
  | disconnectionError | staleDataError | kafkaError
  | foreign (name : String)
deriving DecidableEq

namespace ExnClass

/-- The base class, up to `Exception`. -/
def parent : ExnClass → Option ExnClass
  | .exception => none
  | .valueError | .typeError | .attributeError | .runtimeError | .assertionError
  | .builtinTimeoutError => some .exception
  | .nimbusError => some .exception
  | .domainError | .resourceNotFoundError | .conflictError | .validationFailedError
  | .authenticationError | .permissionDeniedError | .rateLimitedError | .infrastructureError
  | .timeoutError => some .nimbusError
  | .idempotencyConflictError => some .conflictError
  | .databaseLockError | .databaseConnectionError | .cacheUnavailableError
  | .brokerUnavailableError => some .infrastructureError
  | .outOfStockError | .concurrentUpdateError | .userAlreadyExistsError => some .conflictError
  | .stockNotFoundError | .orderNotFoundError | .paymentNotFoundError =>
      some .resourceNotFoundError
  | .paymentAlreadyProcessedError | .passwordError => some .exception
  | .tokenError => some .authenticationError
  | .validationError | .serializationError => some .valueError
  | .operationalError | .integrityError | .dataError => some .databaseError
  | .databaseError | .interfaceError => some .dbapiError
  | .dbapiError | .disconnectionError | .staleDataError | .kafkaError => some .exception
  | .foreign _ => some .exception

/-- `issubclass(c, d)`, looking at most `n` base classes up. -/
def isSubclassWithin : Nat → ExnClass → ExnClass → Bool
  | 0, c, d => decide (c = d)
  | n + 1, c, d => decide (c = d) || match c.parent with
      | none => false
      | some p => isSubclassWithin n p d

/-- `issubclass(c, d)`: no class here is more than three below `Exception`. -/
def isSubclass (c d : ExnClass) : Bool := isSubclassWithin 3 c d

/-- `except Exception` catches every class. -/
example (c : ExnClass) : c.isSubclass .exception = true := by cases c <;> rfl

/-- `type(exc).__name__`. -/
def name : ExnClass → String
  | .exception => "Exception"
  | .valueError => "ValueError"
  | .typeError => "TypeError"
  | .attributeError => "AttributeError"
  | .runtimeError => "RuntimeError"
  | .assertionError => "AssertionError"
  | .builtinTimeoutError => "TimeoutError"
  | .nimbusError => "NimbusError"
  | .domainError => "DomainError"
  | .resourceNotFoundError => "ResourceNotFoundError"
  | .conflictError => "ConflictError"
  | .idempotencyConflictError => "IdempotencyConflictError"
  | .validationFailedError => "ValidationFailedError"
  | .authenticationError => "AuthenticationError"
  | .permissionDeniedError => "PermissionDeniedError"
  | .rateLimitedError => "RateLimitedError"
  | .infrastructureError => "InfrastructureError"
  | .databaseLockError => "DatabaseLockError"
  | .databaseConnectionError => "DatabaseConnectionError"
  | .cacheUnavailableError => "CacheUnavailableError"
  | .brokerUnavailableError => "BrokerUnavailableError"
  | .timeoutError => "TimeoutError"
  | .outOfStockError => "OutOfStockError"
  | .concurrentUpdateError => "ConcurrentUpdateError"
  | .stockNotFoundError => "StockNotFoundError"
  | .orderNotFoundError => "OrderNotFoundError"
  | .paymentNotFoundError => "PaymentNotFoundError"
  | .paymentAlreadyProcessedError => "PaymentAlreadyProcessedError"
  | .tokenError => "TokenError"
  | .passwordError => "PasswordError"
  | .userAlreadyExistsError => "UserAlreadyExistsError"
  | .validationError => "ValidationError"
  | .serializationError => "PydanticSerializationError"
  | .dbapiError => "DBAPIError"
  | .databaseError => "DatabaseError"
  | .operationalError => "OperationalError"
  | .integrityError => "IntegrityError"
  | .dataError => "DataError"
  | .interfaceError => "InterfaceError"
  | .disconnectionError => "DisconnectionError"
  | .staleDataError => "StaleDataError"
  | .kafkaError => "KafkaError"
  | .foreign name => name

end ExnClass

/-- A raised exception: `str(exc)` is `msg`. -/
structure Exn where
  cls : ExnClass
  msg : String
  details : List (String × PyVal) := []

/-- `except cls` takes the exception. -/
def Exn.isA (e : Exn) (cls : ExnClass) : Bool := e.cls.isSubclass cls

theorem Exn.isA_of_cls {e : Exn} {c : ExnClass} (h : e.cls = c) (cls : ExnClass) :
    e.isA cls = c.isSubclass cls := by
  rw [← h]
  rfl

/-- Where two computations return, the first has. -/
theorem bind_ok {α β : Type} {x : Except Exn α} {f : α → Except Exn β} {b : β}
    (h : x >>= f = .ok b) : ∃ a, x = .ok a ∧ f a = .ok b := by
  cases x with
  | ok a => exact ⟨a, rfl, h⟩
  | error e => cases h

/-- Anything that can be raised: an exception, or one of the two that no
`except Exception` takes. -/
inductive Raised where
  | exception (exc : Exn)
  | cancelledError
  | generatorExit

end Nimbus
