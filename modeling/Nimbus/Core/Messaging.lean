/-
  Nimbus.Core.Messaging
  ─────────────────────
  **EVENT ENVELOPES, THEIR CONTENT HASH AND THEIR WIRE FORM.**

  `EventEnvelope` with the field limits pydantic enforces carried as proofs, so
  an envelope out of bounds cannot be built.  SHA-1 itself is a parameter
  (`Uuid5`): `uuid.uuid5(NIMBUS_EVENT_NAMESPACE, text).hex` as a function of the
  text.  `correlation_id`, `causation_id` and `occurred_at` are left out: no
  modelled function reads them.

    • `contentHash`, `makeDedupeId`
    • `modelDump`, `modelValidate`, `toBytes`, `fromBytes`
    • `modelValidate_modelDump` — what is stored or sent is rebuilt, its
                                  payload as pydantic wrote it;
    • `canonical_inj`           — equal canonical texts name the same event
                                  type and aggregate.
-/
import Nimbus.Core.Exceptions
import Nimbus.Core.PyInt

namespace Nimbus

open Lib.JsonText (quoted quoted_append_inj)

/-- `uuid.uuid5(NIMBUS_EVENT_NAMESPACE, ·).hex`. -/
abbrev Uuid5 := String → String

/-- `EventEnvelope`. -/
structure EventEnvelope where
  event_id : Uuid
  event_type : String
  schema_version : Int
  aggregate_type : String
  aggregate_id : String
  payload : PyVal
  event_type_len : 1 ≤ event_type.length ∧ event_type.length ≤ 255
  schema_version_ge : 1 ≤ schema_version
  aggregate_type_len : 1 ≤ aggregate_type.length ∧ aggregate_type.length ≤ 64
  aggregate_id_len : 1 ≤ aggregate_id.length ∧ aggregate_id.length ≤ 128

namespace EventEnvelope

/-- `EventEnvelope(...)`: pydantic refuses fields out of bounds. -/
def mk? (event_id : Uuid) (event_type : String) (schema_version : Int) (aggregate_type : String)
    (aggregate_id : String) (payload : PyVal) : Except Exn EventEnvelope :=
  if h₁ : 1 ≤ event_type.length ∧ event_type.length ≤ 255 then
    if h₂ : 1 ≤ schema_version then
      if h₃ : 1 ≤ aggregate_type.length ∧ aggregate_type.length ≤ 64 then
        if h₄ : 1 ≤ aggregate_id.length ∧ aggregate_id.length ≤ 128 then
          .ok ⟨event_id, event_type, schema_version, aggregate_type, aggregate_id, payload,
            h₁, h₂, h₃, h₄⟩
        else .error ⟨.validationError, "aggregate_id", []⟩
      else .error ⟨.validationError, "aggregate_type", []⟩
    else .error ⟨.validationError, "schema_version", []⟩
  else .error ⟨.validationError, "event_type", []⟩

theorem mk?_fields {i : Uuid} {et : String} {v : Int} {at' ai : String} {p : PyVal}
    {e : EventEnvelope} (h : mk? i et v at' ai p = .ok e) :
    e.event_id = i ∧ e.event_type = et ∧ e.schema_version = v ∧ e.aggregate_type = at'
      ∧ e.aggregate_id = ai ∧ e.payload = p := by
  unfold mk? at h
  split_ifs at h
  obtain rfl := Except.ok.inj h
  exact ⟨rfl, rfl, rfl, rfl, rfl, rfl⟩

/-- The fields of an envelope are within bounds, whatever its payload. -/
theorem mk?_with_payload (e : EventEnvelope) (p : PyVal) :
    mk? e.event_id e.event_type e.schema_version e.aggregate_type e.aggregate_id p
      = .ok { e with payload := p } := by
  unfold mk?
  rw [dif_pos e.event_type_len, dif_pos e.schema_version_ge, dif_pos e.aggregate_type_len,
    dif_pos e.aggregate_id_len]

/-! The fields of a payment's events are within their bounds. -/

theorem firstVersion_ge : (1 : Int) ≤ 1 := by decide

theorem payment_len : 1 ≤ "Payment".length ∧ "Payment".length ≤ 64 := by decide

theorem paymentCaptured_len :
    1 ≤ "payments.payment_captured".length ∧ "payments.payment_captured".length ≤ 255 := by
  decide

theorem paymentFailed_len :
    1 ≤ "payments.payment_failed".length ∧ "payments.payment_failed".length ≤ 255 := by
  decide

theorem uuid_len (u : Uuid) : 1 ≤ u.str.length ∧ u.str.length ≤ 128 := by
  rw [Uuid.length_str]
  decide

theorem uuidText_len : 1 ≤ "00000000-0000-0000-0000-000000000001".length
    ∧ "00000000-0000-0000-0000-000000000001".length ≤ 128 := by
  decide

/-! ## §1. The content hash. -/

/-- The dict whose canonical text is hashed. -/
def hashed (e : EventEnvelope) : PyVal :=
  .dict [(.str "event_type", .str e.event_type), (.str "aggregate_type", .str e.aggregate_type),
    (.str "aggregate_id", .str e.aggregate_id), (.str "schema_version", .int e.schema_version),
    (.str "payload", e.payload)]

/-- What `json.dumps` raises on keys it cannot sort: the `TypeError` of their comparison. -/
def unsortable (v : PyVal) : Exn :=
  ⟨.typeError,
    match v.clash with
    | some (k, l) =>
        s!"'<' not supported between instances of '{k.typeName}' and '{l.typeName}'"
    | none => "", []⟩

/-- `content_hash`. -/
def contentHash (uuid5 : Uuid5) (e : EventEnvelope) : Except Exn String :=
  match dumps e.hashed with
  | some canonical => .ok (uuid5 canonical)
  | none => .error (unsortable e.hashed)

end EventEnvelope

/-- `make_dedupe_id`. -/
def makeDedupeId (uuid5 : Uuid5) (payload : PyVal) : Except Exn String :=
  match dumps payload with
  | some canonical => .ok (uuid5 canonical)
  | none => .error (EventEnvelope.unsortable payload)

namespace EventEnvelope

/-! ## §2. Wire form. -/

/-- The members pydantic writes, given what it writes for the payload. -/
def dumpFields (e : EventEnvelope) (payload : Json) : List (String × Json) :=
  [("event_id", .str e.event_id.str), ("event_type", .str e.event_type),
    ("schema_version", .int e.schema_version), ("aggregate_type", .str e.aggregate_type),
    ("aggregate_id", .str e.aggregate_id), ("payload", payload)]

/-- `model_dump(mode="json")`. -/
def modelDump (e : EventEnvelope) : Except Exn Json :=
  match e.payload.dump with
  | some payload => .ok (.obj (e.dumpFields payload))
  | none => .error ⟨.serializationError, "Unable to serialize unknown type", []⟩

/-- A required string field. -/
def strField (j : Json) (k : String) : Except Exn String :=
  match j.field? k with
  | some (.str s) => .ok s
  | some _ => .error ⟨.validationError, k, []⟩
  | none => .error ⟨.validationError, k, []⟩

/-- `event_id`: a UUID text; `fresh` where the field is absent. -/
def eventIdField (fresh : Uuid) (j : Json) : Except Exn Uuid :=
  match j.field? "event_id" with
  | none => .ok fresh
  | some (.str s) =>
      match Uuid.validate s with
      | some u => .ok u
      | none => .error ⟨.validationError, "event_id", []⟩
  | some _ => .error ⟨.validationError, "event_id", []⟩

/-- A number without its fraction, if that is only zeros. -/
def wholePart (text : List Char) : List Char :=
  let whole := text.takeWhile (· ≠ '.')
  if (text.drop (whole.length + 1)).all (· = '0') then whole else text

/-- The integer that pydantic reads in a text, or in the text of a float below 10^16
(Python writes larger ones with an exponent). -/
def intOfText (text : String) : Option Int :=
  PyInt.ofText PyInt.asciiDigit (wholePart (Uuid.strip Uuid.isIntSpace text.toList))

/-- `schema_version`: an integer, or what pydantic takes for one; 1 where the field is
absent. -/
def schemaVersionField (j : Json) : Except Exn Int :=
  match j.field? "schema_version" with
  | none => .ok 1
  | some (.int n) => .ok n
  | some (.bool b) => .ok (if b then 1 else 0)
  | some (.str text) | some (.float text) =>
      match intOfText text with
      | some n => .ok n
      | none => .error ⟨.validationError, "schema_version", []⟩
  | some _ => .error ⟨.validationError, "schema_version", []⟩

example : [" 2 ", "2.0", "2.5", "two"].map intOfText = [some 2, some 2, none, none] := by
  decide +kernel

/-- `model_validate(obj)`; `fresh` is the default of `event_id`.  The fields left out
are taken to be valid. -/
def modelValidate (fresh : Uuid) (j : Json) : Except Exn EventEnvelope := do
  let event_id ← eventIdField fresh j
  let event_type ← strField j "event_type"
  let schema_version ← schemaVersionField j
  let aggregate_type ← strField j "aggregate_type"
  let aggregate_id ← strField j "aggregate_id"
  let payload := ((j.field? "payload").map Json.toPy).getD .none
  mk? event_id event_type schema_version aggregate_type aggregate_id payload

/-- Any JSON value is a payload, `null` where there is none. -/
theorem modelValidate_payload {fresh : Uuid} {j : Json} {e : EventEnvelope}
    (h : modelValidate fresh j = .ok e) :
    e.payload = ((j.field? "payload").map Json.toPy).getD .none := by
  unfold modelValidate at h
  obtain ⟨_, -, h⟩ := bind_ok h
  obtain ⟨_, -, h⟩ := bind_ok h
  obtain ⟨_, -, h⟩ := bind_ok h
  obtain ⟨_, -, h⟩ := bind_ok h
  obtain ⟨_, -, h⟩ := bind_ok h
  exact (mk?_fields h).2.2.2.2.2

/-- **What was dumped is rebuilt**, the payload as pydantic wrote it. -/
theorem modelValidate_modelDump (fresh : Uuid) {e : EventEnvelope} {j pj : Json}
    (h : e.modelDump = .ok j) (hp : e.payload.dump = some pj) :
    modelValidate fresh j = .ok { e with payload := pj.toPy } := by
  unfold modelDump at h
  rw [hp] at h
  obtain rfl := Except.ok.inj h
  have hid : eventIdField fresh (.obj (e.dumpFields pj)) = .ok e.event_id := by
    simp [eventIdField, Json.field?, dumpFields, dictGet_cons, Uuid.validate_str]
  simp only [modelValidate, hid]
  exact mk?_with_payload e pj.toPy

/-- `to_bytes`: the JSON value that the bytes denote. -/
def toBytes (e : EventEnvelope) : Except Exn Json := e.modelDump

/-- `from_bytes`, given the JSON value that the bytes denote. -/
def fromBytes (fresh : Uuid) (j : Json) : Except Exn EventEnvelope := modelValidate fresh j

/-- An envelope that can be sent arrives with its payload as pydantic wrote it. -/
theorem fromBytes_toBytes (fresh : Uuid) {e : EventEnvelope} {j : Json} (h : e.toBytes = .ok j) :
    ∃ pj, e.payload.dump = some pj ∧ fromBytes fresh j = .ok { e with payload := pj.toPy } := by
  cases hp : e.payload.dump with
  | none =>
      unfold toBytes modelDump at h
      rw [hp] at h
      cases h
  | some pj => exact ⟨pj, rfl, modelValidate_modelDump fresh h hp⟩

/-- What was stored is rebuilt, sent and read: the payload is written twice. -/
theorem rebuilt_and_sent (fresh fresh' : Uuid) {e : EventEnvelope} {j pj pj' : Json}
    (h : e.modelDump = .ok j) (hp : e.payload.dump = some pj) (hp' : pj.toPy.dump = some pj') :
    modelValidate fresh j = .ok { e with payload := pj.toPy }
      ∧ ∃ bytes, toBytes { e with payload := pj.toPy } = .ok bytes
        ∧ fromBytes fresh' bytes = .ok { e with payload := pj'.toPy } := by
  have hbytes : toBytes { e with payload := pj.toPy }
      = .ok (.obj (dumpFields { e with payload := pj.toPy } pj')) := by
    unfold toBytes modelDump
    rw [hp']
  exact ⟨modelValidate_modelDump fresh h hp, _, hbytes,
    modelValidate_modelDump (e := { e with payload := pj.toPy }) fresh' hbytes hp'⟩

/-! ## §3. The canonical text names the event type and the aggregate. -/

/-- The canonical text: its members are in key order. -/
theorem dumpsChars_hashed (e : EventEnvelope) :
    dumpsChars e.hashed = (dumpsChars e.payload).map fun p =>
      '\x7b' :: (commaSep [member "aggregate_id" (quoted e.aggregate_id.toList),
        member "aggregate_type" (quoted e.aggregate_type.toList),
        member "event_type" (quoted e.event_type.toList), member "payload" p,
        member "schema_version" (toString e.schema_version).toList] ++ ['\x7d']) := by
  simp only [hashed, dumpsChars, dumpsItems, Option.bind_some, Option.map_some]
  cases dumpsChars e.payload with
  | none => rfl
  | some p => rfl

/-- A string member followed by any text determines the string and the text. -/
theorem member_append_inj {k : String} {s s' : String} {r r' : List Char}
    (h : member k (quoted s.toList) ++ r = member k (quoted s'.toList) ++ r') : s = s' ∧ r = r' := by
  unfold member at h
  rw [List.append_assoc, List.append_assoc, List.append_assoc, List.append_assoc] at h
  have hvalue := List.append_cancel_left (List.append_cancel_left h)
  obtain ⟨hs, hr⟩ := quoted_append_inj hvalue
  exact ⟨String.toList_inj.mp hs, hr⟩

/-- **Equal canonical texts name the same event type and aggregate.** -/
theorem canonical_inj {e e' : EventEnvelope} {c : String} (h : dumps e.hashed = some c)
    (h' : dumps e'.hashed = some c) :
    e.event_type = e'.event_type ∧ e.aggregate_type = e'.aggregate_type
      ∧ e.aggregate_id = e'.aggregate_id := by
  obtain ⟨t, ht, hc⟩ := Option.map_eq_some_iff.mp h
  obtain ⟨t', ht', hc'⟩ := Option.map_eq_some_iff.mp h'
  obtain rfl := String.ofList_injective (hc.trans hc'.symm)
  rw [dumpsChars_hashed] at ht ht'
  obtain ⟨p, -, rfl⟩ := Option.map_eq_some_iff.mp ht
  obtain ⟨p', -, heq⟩ := Option.map_eq_some_iff.mp ht'
  simp only [commaSep, List.intercalate, List.intersperse, List.flatten_cons, List.flatten_nil,
    List.append_assoc, List.cons.injEq, true_and] at heq
  obtain ⟨hid, heq⟩ := member_append_inj heq
  obtain ⟨htype, heq⟩ := member_append_inj (List.append_cancel_left heq)
  obtain ⟨hevent, -⟩ := member_append_inj (List.append_cancel_left heq)
  exact ⟨hevent.symm, htype.symm, hid.symm⟩

end EventEnvelope

end Nimbus
