/-
  Nimbus.Core.Redelivery
  ──────────────────────
  **DEDUPE AGAINST FAILED WORK, AND ACROSS CONSUMER GROUPS.**

  Any number of consumers, of any groups, share one Redis that is always up.
  The key of a content hash is set before a handler runs, and neither a
  rollback nor the consumer group changes it.

    • `Shared`, `step`  — deliveries, ends of handler transactions, expiries;
    • `seen_iff`        — **the key of a content hash is set exactly while some
                          consumer has had the hash since the key last expired**;
    • `redelivery_iff`  — **no failed work is swallowed exactly when no hash is
                          delivered again before an invocation for it commits.**
-/
import Nimbus.Core.Dedupe
import Nimbus.Lib.Machine

namespace Nimbus.Redelivery

open Lib Consumer

/-! ## §1. Consumers that share a Redis. -/

/-- What happened, under the consumer's name and the content hash; `registered`
says whether the consumer has a handler for the record. -/
inductive Note (κ : Type) where
  | skipped (k : κ) (dedupe_id : String) (registered : Bool)
  | recorded (k : κ) (dedupe_id : String) (registered : Bool)
  | committed (k : κ) (dedupe_id : String)
  | rolledBack (k : κ) (dedupe_id : String)
  | expired (key : String)

/-- The keys set in Redis, for each consumer the content hash its handler is
working on, and what has happened. -/
structure Shared (κ : Type) where
  redis : List String
  busy : κ → Option String
  log : List (Note κ)

def Shared.init {κ : Type} : Shared κ := ⟨[], fun _ => none, []⟩

inductive Deed (κ : Type) where
  /-- `_handle_message` up to the handler. -/
  | deliver (k : κ) (record : ConsumerRecord)
  /-- The handler's transaction commits, or is rolled back, for whatever reason. -/
  | finish (k : κ) (committed : Bool)
  | expire (key : String)

section Machine

variable {κ H : Type} [DecidableEq κ] (fresh : Uuid) (uuid5 : Uuid5)
  (handlers : κ → List ((String × String) × H))

/-- What a record leaves behind once it is on its way to a handler or skipped. -/
def receive (S : Shared κ) (k : κ) (record : ConsumerRecord) : Shared κ :=
  match triage fresh uuid5 (handlers k) (checkIn S.redis) record with
  | .ok (.duplicate dedupe_id event_type) => {
      S with log := S.log ++
        [.skipped k dedupe_id (dictGet (handlers k) (record.topic, event_type)).isSome] }
  | .ok (.noHandler dedupe_id _) => {
      S with
      redis := dedupeKey dedupe_id :: S.redis
      log := S.log ++ [.recorded k dedupe_id false] }
  | .ok (.dispatch dedupe_id _ _) => {
      redis := dedupeKey dedupe_id :: S.redis
      busy := Function.update S.busy k (some dedupe_id)
      log := S.log ++ [.recorded k dedupe_id true] }
  -- a tombstone, a poison message, or an exception before the key is set
  | _ => S

def step (S : Shared κ) : Deed κ → Option (Shared κ)
  -- a consumer takes its records one after another
  | .deliver k record => if S.busy k = none then some (receive fresh uuid5 handlers S k record) else none
  | .finish k committed =>
      match S.busy k with
      | none => none
      | some dedupe_id => some {
          S with
          busy := Function.update S.busy k none
          log := S.log ++ [if committed then .committed k dedupe_id else .rolledBack k dedupe_id] }
  | .expire key => some {
      S with
      redis := S.redis.filter fun key' => key' ≠ key
      log := S.log ++ [.expired key] }

def sharedMachine : Machine (Shared κ) (Deed κ) := ⟨step fresh uuid5 handlers⟩

/-- A delivery of a record with this content hash gets as far as the dedupe. -/
def Reaches (S : Shared κ) (k : κ) (record : ConsumerRecord) (dedupe_id : String)
    (envelope : EventEnvelope) : Prop :=
  S.busy k = none ∧ dedupeId fresh uuid5 record = some (dedupe_id, envelope) ∧ dedupe_id ≠ ""

/-- `k` has a handler for the event on the topic. -/
def registered (k : κ) (topic : String) (envelope : EventEnvelope) : Bool :=
  (dictGet (handlers k) (topic, envelope.event_type)).isSome

variable {fresh uuid5 handlers} {S : Shared κ} {k : κ} {record : ConsumerRecord}
  {dedupe_id : String} {envelope : EventEnvelope}

omit [DecidableEq κ] in
theorem reaches_unique {dedupe_id' : String} {envelope' : EventEnvelope}
    (h : Reaches fresh uuid5 S k record dedupe_id envelope)
    (h' : Reaches fresh uuid5 S k record dedupe_id' envelope') :
    dedupe_id = dedupe_id' ∧ envelope = envelope' :=
  Prod.mk.inj (Option.some.inj (h.2.1.symm.trans h'.2.1))

/-- A delivery whose key is set is skipped. -/
theorem deliver_seen (h : Reaches fresh uuid5 S k record dedupe_id envelope)
    (hkey : dedupeKey dedupe_id ∈ S.redis) :
    receive fresh uuid5 handlers S k record = {
      S with log := S.log ++ [.skipped k dedupe_id (registered handlers k record.topic envelope)] } := by
  unfold receive
  rw [triage_seen h.2.1 h.2.2 hkey]
  rfl

/-- A delivery whose key is not set sets it, and is handed to the handler. -/
theorem deliver_new (h : Reaches fresh uuid5 S k record dedupe_id envelope)
    (hkey : dedupeKey dedupe_id ∉ S.redis) :
    receive fresh uuid5 handlers S k record = {
      redis := dedupeKey dedupe_id :: S.redis
      busy := if registered handlers k record.topic envelope then
          Function.update S.busy k (some dedupe_id) else S.busy
      log := S.log ++ [.recorded k dedupe_id (registered handlers k record.topic envelope)] } := by
  unfold receive registered
  rw [triage_new h.2.1 h.2.2 hkey]
  cases dictGet (handlers k) (record.topic, envelope.event_type) <;> rfl

/-- Any other delivery changes nothing. -/
theorem deliver_other (h : ¬ ∃ dedupe_id envelope, Reaches fresh uuid5 S k record dedupe_id envelope) :
    (sharedMachine fresh uuid5 handlers).next S (.deliver k record) = S := by
  by_cases hidle : S.busy k = none
  · refine Machine.next_of_step _ ((if_pos hidle).trans (congrArg some ?_))
    unfold receive
    cases hd : dedupeId fresh uuid5 record with
    | none =>
        rcases triage_without (handlers k) hd (checkIn S.redis) with ht | ⟨exc, ht⟩ | ⟨exc, ht⟩
        · rw [ht]
        · rw [ht]
        · rw [ht]
    | some ie =>
        -- an empty dedupe id is refused
        have hempty : ie.1 = "" := by
          by_contra hne
          exact h ⟨ie.1, ie.2, hidle, hd, hne⟩
        obtain ⟨htriage, hhash⟩ := triage_of_dedupeId (handlers k) hd (checkIn S.redis)
        rw [htriage]
        simp only [triageEnvelope, hhash, hempty, checkIn, checkAndRecord, if_pos]
  · exact Machine.next_of_none _ (if_neg hidle)

/-- The end of the transaction a consumer is in. -/
theorem finish_next {committed : Bool} (h : S.busy k = some dedupe_id) :
    (sharedMachine fresh uuid5 handlers).next S (.finish k committed) = {
      S with
      busy := Function.update S.busy k none
      log := S.log ++ [if committed then .committed k dedupe_id else .rolledBack k dedupe_id] } := by
  refine Machine.next_of_step _ ?_
  show step fresh uuid5 handlers S (.finish k committed) = some _
  simp only [step, h]

variable (fresh uuid5 handlers) in
/-- **Every step**, as far as Redis and the log go. -/
theorem next_cases (S : Shared κ) (a : Deed κ) :
    ((sharedMachine fresh uuid5 handlers).next S a = S
        ∧ ∀ k record dedupe_id envelope, a = .deliver k record →
            ¬ Reaches fresh uuid5 S k record dedupe_id envelope)
      ∨ (∃ k record dedupe_id envelope, a = .deliver k record
          ∧ Reaches fresh uuid5 S k record dedupe_id envelope
          ∧ ((dedupeKey dedupe_id ∈ S.redis
              ∧ (sharedMachine fresh uuid5 handlers).next S a = {
                  S with log := S.log ++
                    [.skipped k dedupe_id (registered handlers k record.topic envelope)] })
            ∨ (dedupeKey dedupe_id ∉ S.redis
              ∧ (sharedMachine fresh uuid5 handlers).next S a = {
                  redis := dedupeKey dedupe_id :: S.redis
                  busy := if registered handlers k record.topic envelope then
                      Function.update S.busy k (some dedupe_id) else S.busy
                  log := S.log ++
                    [.recorded k dedupe_id (registered handlers k record.topic envelope)] })))
      ∨ (∃ k committed dedupe_id, a = .finish k committed
          ∧ (sharedMachine fresh uuid5 handlers).next S a = {
              S with
              busy := Function.update S.busy k none
              log := S.log ++
                [if committed then .committed k dedupe_id else .rolledBack k dedupe_id] })
      ∨ ∃ key, a = .expire key
          ∧ (sharedMachine fresh uuid5 handlers).next S a = {
              S with
              redis := S.redis.filter fun key' => key' ≠ key
              log := S.log ++ [.expired key] } := by
  cases a with
  | deliver k record =>
      by_cases hr : ∃ dedupe_id envelope, Reaches fresh uuid5 S k record dedupe_id envelope
      · obtain ⟨dedupe_id, envelope, hr⟩ := hr
        refine Or.inr (Or.inl ⟨k, record, dedupe_id, envelope, rfl, hr, ?_⟩)
        by_cases hkey : dedupeKey dedupe_id ∈ S.redis
        · exact Or.inl ⟨hkey, Machine.next_of_step _
            ((if_pos hr.1).trans (congrArg some (deliver_seen hr hkey)))⟩
        · exact Or.inr ⟨hkey, Machine.next_of_step _
            ((if_pos hr.1).trans (congrArg some (deliver_new hr hkey)))⟩
      · -- a record that no dedupe id is made of
        refine Or.inl ⟨deliver_other hr, fun k' record' i e ha hc => hr ⟨i, e, ?_⟩⟩
        obtain ⟨rfl, rfl⟩ := Deed.deliver.inj ha
        exact hc
  | finish k committed =>
      cases hb : S.busy k with
      | none =>
          -- nothing to finish
          refine Or.inl ⟨Machine.next_of_none _ ?_, fun k' record i e ha => (nomatch ha)⟩
          show step fresh uuid5 handlers S (.finish k committed) = none
          simp only [step, hb]
      | some dedupe_id =>
          exact Or.inr (Or.inr (Or.inl ⟨k, committed, dedupe_id, rfl, finish_next hb⟩))
  | expire key => exact Or.inr (Or.inr (Or.inr ⟨key, rfl, Machine.next_of_step _ rfl⟩))

/-! ## §2. The key of a content hash. -/

/-- Whether, after one more note, the hash has been delivered to some consumer
since its key last expired. -/
def seenStep {κ : Type} (dedupe_id : String) (seen : Bool) : Note κ → Bool
  | .skipped _ h _ | .recorded _ h _ => if h = dedupe_id then true else seen
  | .expired key => if key = dedupeKey dedupe_id then false else seen
  | .committed .. | .rolledBack .. => seen

/-- The hash has been delivered to some consumer since its key last expired. -/
def seen {κ : Type} (log : List (Note κ)) (dedupe_id : String) : Bool :=
  log.foldl (seenStep dedupe_id) false

theorem seen_snoc {κ : Type} (log : List (Note κ)) (n : Note κ) (dedupe_id : String) :
    seen (log ++ [n]) dedupe_id = seenStep dedupe_id (seen log dedupe_id) n := by
  unfold seen
  rw [List.foldl_append]
  rfl

/-- A hash is seen exactly when its key is set. -/
def KeysSeen {κ : Type} (S : Shared κ) : Prop :=
  ∀ dedupe_id, dedupeKey dedupe_id ∈ S.redis ↔ seen S.log dedupe_id = true

theorem KeysSeen.next (h : KeysSeen S) (a : Deed κ) :
    KeysSeen ((sharedMachine fresh uuid5 handlers).next S a) := by
  rcases next_cases fresh uuid5 handlers S a with
    ⟨hn, -⟩ | ⟨k, record, i, e, -, -, ⟨hkey, hn⟩ | ⟨hkey, hn⟩⟩ | ⟨k, c, i, -, hn⟩ | ⟨key, -, hn⟩
  · -- the state is as it was
    rw [hn]
    exact h
  · -- skipped: the key is there
    rw [hn]
    intro i'
    rw [seen_snoc]
    show _ ↔ (if i = i' then true else seen S.log i') = true
    by_cases hi : i = i'
    · rw [if_pos hi, ← hi]
      exact iff_of_true hkey rfl
    · rw [if_neg hi]
      exact h i'
  · -- recorded: the key is set
    rw [hn]
    intro i'
    rw [seen_snoc]
    show dedupeKey i' ∈ dedupeKey i :: S.redis ↔ (if i = i' then true else seen S.log i') = true
    by_cases hi : i = i'
    · rw [if_pos hi, ← hi]
      exact iff_of_true List.mem_cons_self rfl
    · rw [if_neg hi, List.mem_cons]
      have hne : dedupeKey i' ≠ dedupeKey i := fun hc => hi (dedupeKey_inj hc).symm
      rw [or_iff_right hne]
      exact h i'
  · -- a commit or a rollback leaves the keys alone
    rw [hn]
    intro i'
    rw [seen_snoc]
    cases c <;> exact h i'
  · -- a key expires, and its entry with it
    rw [hn]
    intro i'
    rw [seen_snoc]
    show dedupeKey i' ∈ S.redis.filter _ ↔ (if key = dedupeKey i' then false else seen S.log i') = true
    rw [List.mem_filter]
    by_cases hk : key = dedupeKey i'
    · rw [if_pos hk]
      refine iff_of_false (fun hc => ?_) Bool.false_ne_true
      exact of_decide_eq_true hc.2 hk.symm
    · rw [if_neg hk, ← h i']
      exact and_iff_left (decide_eq_true fun hc => hk hc.symm)

variable (fresh uuid5 handlers) in
/-- **The key of a content hash is set** exactly while some consumer has been
delivered the hash since the key last expired. -/
theorem seen_iff (as : List (Deed κ)) :
    KeysSeen ((sharedMachine fresh uuid5 handlers).run Shared.init as) := by
  refine Machine.run_invariant _ (I := KeysSeen) (fun S a S' h hs => ?_) as _ ?_
  · rw [← Machine.next_of_step _ hs]
    exact h.next a
  · intro i
    exact iff_of_false (List.not_mem_nil) Bool.false_ne_true

/-! ## §3. Failed work. -/

/-- A record with a handler was skipped as a duplicate. -/
def Note.Skips {κ : Type} : Note κ → Prop
  | .skipped _ _ registered => registered = true
  | _ => False

/-- The second note is a skip of the hash that the first one is a commit for. -/
def Note.CommittedBefore {κ : Type} (c n : Note κ) : Prop :=
  ∃ k k' dedupe_id r, c = .committed k dedupe_id ∧ n = .skipped k' dedupe_id r

/-- Every record with a handler that was skipped had an invocation for its
content hash commit before. -/
def NothingSwallowed {κ : Type} (S : Shared κ) : Prop :=
  Preceded Note.Skips Note.CommittedBefore S.log

/-- The action delivers, to a consumer with a handler for it, a record whose
hash has been delivered since its key last expired while no invocation for the
hash has committed. -/
def Redelivers (fresh : Uuid) (uuid5 : Uuid5) (handlers : κ → List ((String × String) × H))
    (S : Shared κ) (a : Deed κ) : Prop :=
  ∃ k record dedupe_id envelope, a = .deliver k record
    ∧ Reaches fresh uuid5 S k record dedupe_id envelope
    ∧ registered handlers k record.topic envelope = true
    ∧ seen S.log dedupe_id = true ∧ ∀ k', Note.committed k' dedupe_id ∉ S.log

/-- Notes that are not skips swallow nothing. -/
theorem nothingSwallowed_snoc {κ : Type} {log : List (Note κ)} {n : Note κ}
    (h : Preceded Note.Skips Note.CommittedBefore log) (hn : ¬ n.Skips) :
    Preceded Note.Skips Note.CommittedBefore (log ++ [n]) :=
  preceded_snoc.mpr ⟨h, fun hc => absurd hc hn⟩

omit [DecidableEq κ] in
/-- Only deliveries redeliver. -/
theorem not_redelivers {H : Type} {fresh : Uuid} {uuid5 : Uuid5}
    {handlers : κ → List ((String × String) × H)} {S : Shared κ} {a : Deed κ}
    (h : ∀ k record, a ≠ .deliver k record) : ¬ Redelivers fresh uuid5 handlers S a := by
  intro hc
  obtain ⟨k, record, i, e, ha, -⟩ := hc
  exact h k record ha

/-- **One step** swallows failed work exactly when it is such a delivery. -/
theorem swallow_step (hk : KeysSeen S) (hs : NothingSwallowed S) (a : Deed κ) :
    NothingSwallowed ((sharedMachine fresh uuid5 handlers).next S a)
      ↔ ¬ Redelivers fresh uuid5 handlers S a := by
  rcases next_cases fresh uuid5 handlers S a with
    ⟨hn, hno⟩ | ⟨k, record, i, e, ha, hr, ⟨hkey, hn⟩ | ⟨hkey, hn⟩⟩ | ⟨k, c, i, ha, hn⟩ | ⟨key, ha, hn⟩
  · rw [hn]
    refine iff_of_true hs fun hc => ?_
    obtain ⟨k, record, i, e, ha, hr, -⟩ := hc
    exact hno k record i e ha hr
  · -- skipped
    have hlog : Preceded Note.Skips Note.CommittedBefore S.log := hs
    rw [hn]
    show Preceded _ _ _ ↔ _
    rw [preceded_snoc, and_iff_right hlog]
    constructor
    · intro h hc
      obtain ⟨k', record', i', e', ha', hr', hreg, -, hno⟩ := hc
      obtain ⟨rfl, rfl⟩ := Deed.deliver.inj (ha.symm.trans ha')
      obtain ⟨rfl, rfl⟩ := reaches_unique hr hr'
      obtain ⟨n, hmem, k₀, k₁, i₀, r, rfl, hskip⟩ := h hreg
      obtain ⟨-, rfl, -⟩ := Note.skipped.inj hskip
      exact hno k₀ hmem
    · intro h hreg
      by_contra hnone
      refine h ⟨k, record, i, e, ha, hr, hreg, (hk i).mp hkey, fun k' hmem => hnone ?_⟩
      exact ⟨_, hmem, k', k, i, _, rfl, rfl⟩
  · -- dispatched, or without a handler
    rw [hn]
    refine iff_of_true (nothingSwallowed_snoc hs id) fun hc => ?_
    obtain ⟨k', record', i', e', ha', hr', -, hseen, -⟩ := hc
    obtain ⟨rfl, rfl⟩ := Deed.deliver.inj (ha.symm.trans ha')
    obtain ⟨rfl, -⟩ := reaches_unique hr hr'
    exact hkey ((hk _).mpr hseen)
  · rw [hn]
    refine iff_of_true (nothingSwallowed_snoc hs ?_) (not_redelivers fun k' r hc => ?_)
    · cases c <;> exact id
    · rw [ha] at hc
      exact (nomatch hc)
  · rw [hn]
    refine iff_of_true (nothingSwallowed_snoc hs id) (not_redelivers fun k' r hc => ?_)
    rw [ha] at hc
    exact (nomatch hc)

/-- **No failed work is swallowed** in a run exactly when no step of it delivers
a hash again, since its key was set, before an invocation for it has committed. -/
theorem redelivery_iff {κ H : Type} [DecidableEq κ] (fresh : Uuid) (uuid5 : Uuid5)
    (handlers : κ → List ((String × String) × H)) (as : List (Deed κ)) :
    (∀ S ∈ (sharedMachine fresh uuid5 handlers).trace Shared.init as, NothingSwallowed S)
      ↔ (sharedMachine fresh uuid5 handlers).Along
          (fun S a => ¬ Redelivers fresh uuid5 handlers S a) Shared.init as := by
  refine Machine.trace_forall_iff_along _ (I := KeysSeen) (G := NothingSwallowed)
    (fun S a S' hk hs => ?_) (fun S a hk hs => swallow_step hk hs a) as _ ?_ preceded_nil
  · rw [← Machine.next_of_step _ hs]
    exact hk.next a
  · exact seen_iff fresh uuid5 handlers []

end Machine

/-! ### A failure followed by a redelivery. -/

/-- A failed payment of an order. -/
def failedEvent : EventEnvelope where
  event_id := Uuid.ofNat 11
  event_type := "payments.payment_failed"
  schema_version := 1
  aggregate_type := "Payment"
  aggregate_id := "00000000-0000-0000-0000-000000000001"
  payload := .dict [(.str "order_id", .str "00000000-0000-0000-0000-000000000002")]
  event_type_len := EventEnvelope.paymentFailed_len
  schema_version_ge := EventEnvelope.firstVersion_ge
  aggregate_type_len := EventEnvelope.payment_len
  aggregate_id_len := EventEnvelope.uuidText_len

/-- It, as it comes from the wire. -/
def failedRecord : ConsumerRecord :=
  ⟨"payments.events", some (some (.obj (failedEvent.dumpFields
    (.obj [("order_id", .str "00000000-0000-0000-0000-000000000002")]))))⟩

/-- What `uuid.uuid5` makes of its canonical text. -/
def failedHash : String := "165848f23c4a5361953909c47dc099b5"

/-- A consumer with a handler for it. -/
def failedHandlers : List ((String × String) × Unit) :=
  [(("payments.events", "payments.payment_failed"), ())]

theorem failedRecord_dedupeId (fresh : Uuid) :
    dedupeId fresh (fun _ => failedHash) failedRecord = some (failedHash, failedEvent) := by
  have hdecode : decode fresh (some (.obj (failedEvent.dumpFields
      (.obj [("order_id", .str "00000000-0000-0000-0000-000000000002")])))) = .ok failedEvent :=
    EventEnvelope.modelValidate_modelDump fresh (e := failedEvent) rfl rfl
  have hhash : failedEvent.contentHash (fun _ => failedHash) = .ok failedHash := rfl
  unfold dedupeId failedRecord
  simp only [hdecode, hhash]

/-- The consumers of the examples. -/
def failedMachine (κ : Type) [DecidableEq κ] : Machine (Shared κ) (Deed κ) :=
  sharedMachine (Uuid.ofNat 0) (fun _ => failedHash) fun _ => failedHandlers

/-- The first delivery of the record sets its key and invokes the handler. -/
theorem failed_first {κ : Type} [DecidableEq κ] {S : Shared κ} {k : κ} (hidle : S.busy k = none)
    (hkey : dedupeKey failedHash ∉ S.redis) :
    (failedMachine κ).next S (.deliver k failedRecord) = {
      redis := dedupeKey failedHash :: S.redis
      busy := Function.update S.busy k (some failedHash)
      log := S.log ++ [.recorded k failedHash true] } :=
  Machine.next_of_step _ ((if_pos hidle).trans (congrArg some
    (deliver_new ⟨hidle, failedRecord_dedupeId _, by decide⟩ hkey)))

/-- A delivery of the record while its key is set is skipped. -/
theorem failed_again {κ : Type} [DecidableEq κ] {S : Shared κ} {k : κ} (hidle : S.busy k = none)
    (hkey : dedupeKey failedHash ∈ S.redis) :
    (failedMachine κ).next S (.deliver k failedRecord) = {
      S with log := S.log ++ [.skipped k failedHash true] } :=
  Machine.next_of_step _ ((if_pos hidle).trans (congrArg some
    (deliver_seen ⟨hidle, failedRecord_dedupeId _, by decide⟩ hkey)))

/-- The handler's transaction is rolled back, and the redelivered record is
skipped: nothing has ever committed for it. -/
theorem redelivery_fails :
    ((failedMachine Unit).run Shared.init
        [.deliver () failedRecord, .finish () false, .deliver () failedRecord]).log
      = [.recorded () failedHash true, .rolledBack () failedHash, .skipped () failedHash true]
    ∧ ¬ NothingSwallowed ((failedMachine Unit).run Shared.init
        [.deliver () failedRecord, .finish () false, .deliver () failedRecord]) := by
  have hlog : ((failedMachine Unit).run Shared.init
        [.deliver () failedRecord, .finish () false, .deliver () failedRecord]).log
      = [.recorded () failedHash true, .rolledBack () failedHash, .skipped () failedHash true] := by
    rw [Machine.run_cons, failed_first rfl (List.not_mem_nil), Machine.run_cons,
      show (failedMachine Unit).next _ (.finish () false) = _ from finish_next rfl,
      Machine.run_cons, failed_again rfl List.mem_cons_self]
    rfl
  refine ⟨hlog, fun h => ?_⟩
  obtain ⟨n, hmem, k, k', i, r, rfl, -⟩ := h [.recorded () failedHash true, .rolledBack () failedHash]
    (.skipped () failedHash true) [] hlog rfl
  simp at hmem

end Nimbus.Redelivery
