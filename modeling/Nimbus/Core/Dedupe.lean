/-
  Nimbus.Core.Dedupe
  ──────────────────
  **WHICH RECORDS REACH A HANDLER.**

  `check_and_record` sets a Redis key, made from the dedupe id alone, if it is
  absent; `_handle_message` decodes a record, records its content hash, and
  only then looks for a handler and runs it in a transaction.

    • `checkAndRecord`, `triage`, `handleMessage`
    • `dedupeId`     — the content hash a record is deduplicated by;
    • `triage_seen`, `triage_new` — **with Redis up, a record is skipped exactly
                       when the key of its content hash is set, whoever set it.**
-/
import Nimbus.Core.Cache
import Nimbus.Core.Messaging

namespace Nimbus.Consumer

/-! ## §1. `RedisDedupe`. -/

/-- The key of a dedupe id. -/
def dedupeKey (dedupe_id : String) : String := "dedupe:" ++ dedupe_id

theorem dedupeKey_inj {h h' : String} (heq : dedupeKey h = dedupeKey h') : h = h' := by
  unfold dedupeKey at heq
  have hl := congrArg String.toList heq
  rw [String.toList_append, String.toList_append] at hl
  exact String.toList_inj.mp (List.append_cancel_left hl)

/-- `check_and_record`: `call key ttl` is how `SET key "1" NX EX ttl` ends when
it is called through the breaker. -/
def checkAndRecord (dedupe_id : String) (ttl_seconds : Option Int)
    (call : String → Int → Except Exn Bool) : Except Exn Bool :=
  let ttl := ttl_seconds.getD (7 * 24 * 60 * 60)
  if dedupe_id = "" then .error ⟨.valueError, "dedupe_id must be a non-empty string", []⟩
  else if ttl ≤ 0 then .error ⟨.valueError, "ttl_seconds must be > 0", []⟩
  -- with Redis down a message is taken to be new
  else Cache.whenUnavailable true (call (dedupeKey dedupe_id) ttl)

theorem checkAndRecord_eq {dedupe_id : String} (hid : dedupe_id ≠ "") {ttl_seconds : Option Int}
    (httl : 0 < ttl_seconds.getD (7 * 24 * 60 * 60)) (call : String → Int → Except Exn Bool) :
    checkAndRecord dedupe_id ttl_seconds call
      = Cache.whenUnavailable true (call (dedupeKey dedupe_id) (ttl_seconds.getD (7 * 24 * 60 * 60))) := by
  unfold checkAndRecord
  rw [if_neg hid, if_neg (not_le.mpr httl)]

/-! ## §2. `_handle_message`. -/

/-- A record as the consumer reads it.  No value is a tombstone; a value that
is no JSON text cannot be decoded. -/
structure ConsumerRecord where
  topic : String
  value : Option (Option Json)

/-- `EventEnvelope.from_bytes(record.value)`. -/
def decode (fresh : Uuid) (value : Option Json) : Except Exn EventEnvelope :=
  match value with
  | some j => EventEnvelope.fromBytes fresh j
  | none => .error ⟨.valueError, "Expecting value", []⟩

/-- What becomes of a record before a handler runs. -/
inductive Verdict (H : Type) where
  | tombstone
  | malformed (exc : Exn)
  | duplicate (dedupe_id event_type : String)
  | noHandler (dedupe_id event_type : String)
  | dispatch (dedupe_id : String) (handler : H) (envelope : EventEnvelope)

section Triage

variable {H : Type} (fresh : Uuid) (uuid5 : Uuid5) (handlers : List ((String × String) × H))

/-- `_handle_message` after decoding and up to the handler. -/
def triageEnvelope (check : String → Except Exn Bool) (topic : String) (envelope : EventEnvelope) :
    Except Exn (Verdict H) :=
  match envelope.contentHash uuid5 with
  | .error exc => .error exc
  | .ok dedupe_id =>
      match check dedupe_id with
      | .error exc => .error exc
      | .ok false => .ok (.duplicate dedupe_id envelope.event_type)
      | .ok true =>
          match dictGet handlers (topic, envelope.event_type) with
          | none => .ok (.noHandler dedupe_id envelope.event_type)
          | some handler => .ok (.dispatch dedupe_id handler envelope)

/-- `_handle_message` up to the handler. -/
def triage (check : String → Except Exn Bool) (record : ConsumerRecord) :
    Except Exn (Verdict H) :=
  match record.value with
  | none => .ok .tombstone
  | some value =>
      match decode fresh value with
      -- a poison message is skipped
      | .error exc => .ok (.malformed exc)
      | .ok envelope => triageEnvelope uuid5 handlers check record.topic envelope

/-- `_handle_message`: `session` says whether a session factory is configured,
`work` how the session and the handler in it end. -/
def handleMessage (check : String → Except Exn Bool) (session : Bool)
    (work : H → EventEnvelope → Except Exn Unit) (record : ConsumerRecord) : Except Exn Unit :=
  match triage fresh uuid5 handlers check record with
  | .error exc => .error exc
  | .ok (.dispatch _ handler envelope) =>
      if session then work handler envelope
      else .error ⟨.runtimeError, "session_factory not configured", []⟩
  | .ok _ => .ok ()

/-- The envelope of a record and the content hash it is deduplicated by. -/
def dedupeId (record : ConsumerRecord) : Option (String × EventEnvelope) :=
  match record.value with
  | none => none
  | some value =>
      match decode fresh value with
      | .error _ => none
      | .ok envelope =>
          match envelope.contentHash uuid5 with
          | .ok dedupe_id => some (dedupe_id, envelope)
          | .error _ => none

/-- `check_and_record` with Redis up, which holds the keys `redis`. -/
def checkIn (redis : List String) (dedupe_id : String) : Except Exn Bool :=
  checkAndRecord dedupe_id none fun key _ => .ok (decide (key ∉ redis))

theorem checkIn_eq {redis : List String} {dedupe_id : String} (hid : dedupe_id ≠ "") :
    checkIn redis dedupe_id = .ok (decide (dedupeKey dedupe_id ∉ redis)) :=
  checkAndRecord_eq hid (by decide) _

variable {fresh uuid5 handlers} {redis : List String} {record : ConsumerRecord} {dedupe_id : String}
  {envelope : EventEnvelope}

/-- A record with a content hash is decided on by its envelope. -/
theorem triage_of_dedupeId (handlers : List ((String × String) × H))
    (h : dedupeId fresh uuid5 record = some (dedupe_id, envelope))
    (check : String → Except Exn Bool) :
    triage fresh uuid5 handlers check record
        = triageEnvelope uuid5 handlers check record.topic envelope
      ∧ envelope.contentHash uuid5 = .ok dedupe_id := by
  unfold dedupeId at h
  unfold triage
  cases hv : record.value with
  | none => rw [hv] at h; exact (nomatch h)
  | some value =>
      rw [hv] at h
      cases hd : decode fresh value with
      | error exc => simp [hd] at h
      | ok e =>
          cases hc : e.contentHash uuid5 with
          | error exc => simp [hd, hc] at h
          | ok i =>
              simp only [hd, hc, Option.some.injEq, Prod.mk.injEq] at h
              obtain ⟨rfl, rfl⟩ := h
              simp only [hd]
              exact ⟨trivial, hc⟩

/-- **A record whose key is set is skipped.** -/
theorem triage_seen (h : dedupeId fresh uuid5 record = some (dedupe_id, envelope))
    (hid : dedupe_id ≠ "") (hkey : dedupeKey dedupe_id ∈ redis) :
    triage fresh uuid5 handlers (checkIn redis) record
      = .ok (.duplicate dedupe_id envelope.event_type) := by
  obtain ⟨htriage, hhash⟩ := triage_of_dedupeId handlers h (checkIn redis)
  rw [htriage]
  simp only [triageEnvelope, hhash, checkIn_eq hid, hkey, not_true, decide_false]

/-- **A record whose key is not set goes to its handler**, if it has one. -/
theorem triage_new (h : dedupeId fresh uuid5 record = some (dedupe_id, envelope))
    (hid : dedupe_id ≠ "") (hkey : dedupeKey dedupe_id ∉ redis) :
    triage fresh uuid5 handlers (checkIn redis) record
      = match dictGet handlers (record.topic, envelope.event_type) with
        | none => .ok (.noHandler dedupe_id envelope.event_type)
        | some handler => .ok (.dispatch dedupe_id handler envelope) := by
  obtain ⟨htriage, hhash⟩ := triage_of_dedupeId handlers h (checkIn redis)
  rw [htriage]
  simp only [triageEnvelope, hhash, checkIn_eq hid, hkey, not_false_eq_true, decide_true]

/-- Without a content hash a record is neither skipped as a duplicate nor
handed to a handler. -/
theorem triage_without (handlers : List ((String × String) × H))
    (h : dedupeId fresh uuid5 record = none)
    (check : String → Except Exn Bool) :
    triage fresh uuid5 handlers check record = .ok .tombstone
      ∨ (∃ exc, triage fresh uuid5 handlers check record = .ok (.malformed exc))
      ∨ ∃ exc, triage fresh uuid5 handlers check record = .error exc := by
  unfold dedupeId at h
  unfold triage
  cases hv : record.value with
  | none => exact Or.inl rfl
  | some value =>
      rw [hv] at h
      cases hd : decode fresh value with
      | error exc =>
          refine Or.inr (Or.inl ⟨exc, ?_⟩)
          simp only [hd]
      | ok e =>
          cases hc : e.contentHash uuid5 with
          | error exc =>
              refine Or.inr (Or.inr ⟨exc, ?_⟩)
              simp only [hd, triageEnvelope, hc]
          | ok i => simp [hd, hc] at h

end Triage

end Nimbus.Consumer
