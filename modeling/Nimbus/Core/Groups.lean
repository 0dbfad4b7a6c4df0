/-
  Nimbus.Core.Groups
  ──────────────────
  **TWO CONSUMER GROUPS, ONE DEDUPE KEY.**

  The key of a content hash does not name the consumer group, so of all the
  consumers that share a Redis only the first one to be delivered a hash hands
  it to a handler.

    • `DeliveredTo`, `dispatches` — what the log says about a group;
    • `firstOnly_run` — **all deliveries of a hash after the first are skipped**;
    • `perGroup_iff`  — **every group is served exactly when no hash is
                        delivered to two groups.**
-/
import Nimbus.Core.Redelivery

namespace Nimbus.Redelivery

open Lib Consumer

/-! ## §1. What a group has been given. -/

section Groups

variable {κ H : Type} [DecidableEq κ] (group : κ → String)

/-- A consumer of group `g` has been delivered the hash. -/
def DeliveredTo (log : List (Note κ)) (g dedupe_id : String) : Prop :=
  ∃ k r, group k = g ∧ (Note.skipped k dedupe_id r ∈ log ∨ Note.recorded k dedupe_id r ∈ log)

/-- The note is about a record of the hash handed to a handler of group `g`. -/
def dispatchedTo (g dedupe_id : String) : Note κ → Bool
  | .recorded k h registered => decide (group k = g ∧ h = dedupe_id ∧ registered = true)
  | _ => false

/-- How often a handler of group `g` has been handed the hash. -/
def dispatches (log : List (Note κ)) (g dedupe_id : String) : Nat :=
  log.countP (dispatchedTo group g dedupe_id)

/-- The first note records the hash that the second one skips. -/
def RecordedBefore (c n : Note κ) : Prop :=
  ∃ k k' dedupe_id r r', c = .recorded k dedupe_id r ∧ n = .skipped k' dedupe_id r'

/-- The consumers of the two notes are of one group. -/
def SameGroup (c n : Note κ) : Prop :=
  ∃ k k' dedupe_id r r', c = .recorded k dedupe_id r ∧ n = .skipped k' dedupe_id r'
    ∧ group k = group k'

/-- What two groups are owed of every hash that both are delivered: one dispatch
each, and no skip on account of the other. -/
structure PerGroup (log : List (Note κ)) : Prop where
  once : ∀ g g' dedupe_id, g ≠ g' → DeliveredTo group log g dedupe_id →
    DeliveredTo group log g' dedupe_id →
    dispatches group log g dedupe_id = 1 ∧ dispatches group log g' dedupe_id = 1
  own : Preceded Note.Skips (SameGroup group) log

/-- The consumers have a handler for what they are delivered, and no key
expires; handlers may end in any way. -/
def Served (fresh : Uuid) (uuid5 : Uuid5) (handlers : List ((String × String) × H)) :
    Deed κ → Prop
  | .deliver _ record => ∀ dedupe_id envelope,
      dedupeId fresh uuid5 record = some (dedupe_id, envelope) →
      (dictGet handlers (record.topic, envelope.event_type)).isSome = true
  | .finish .. => True
  | .expire _ => False

/-! ## §2. Only the first delivery counts. -/

/-- A key that is set was set by one consumer, and whoever skips the hash comes
after it. -/
structure FirstOnly (S : Shared κ) : Prop where
  recorded : ∀ dedupe_id, dedupeKey dedupe_id ∈ S.redis ↔
    ∃ k r, Note.recorded k dedupe_id r ∈ S.log
  first : ∀ k k' dedupe_id r r', Note.recorded k dedupe_id r ∈ S.log →
    Note.recorded k' dedupe_id r' ∈ S.log → k = k'
  before : Preceded Note.Skips RecordedBefore S.log

omit [DecidableEq κ] in
/-- A note that records nothing and skips nothing changes nothing of this. -/
theorem FirstOnly.of_note {S S' : Shared κ} {n : Note κ} (h : FirstOnly S)
    (hredis : S'.redis = S.redis) (hlog : S'.log = S.log ++ [n])
    (hrec : ∀ k i r, n ≠ .recorded k i r)
    (hskip : n.Skips → ∃ c ∈ S.log, RecordedBefore c n) : FirstOnly S' := by
  have hold : ∀ k i r, Note.recorded k i r ∈ S'.log ↔ Note.recorded k i r ∈ S.log := by
    intro k i r
    rw [hlog, List.mem_append, List.mem_singleton]
    exact or_iff_left fun hc => hrec k i r hc.symm
  constructor
  · intro i
    rw [hredis, h.recorded i]
    exact exists_congr fun k => exists_congr fun r => (hold k i r).symm
  · intro k k' i r r' hr hr'
    exact h.first k k' i r r' ((hold k i r).mp hr) ((hold k' i r').mp hr')
  · rw [hlog]
    exact preceded_snoc.mpr ⟨h.before, hskip⟩

variable {fresh : Uuid} {uuid5 : Uuid5} {handlers : List ((String × String) × H)}

theorem FirstOnly.next {S : Shared κ} (h : FirstOnly S) {a : Deed κ}
    (ha : Served fresh uuid5 handlers a) :
    FirstOnly ((sharedMachine fresh uuid5 fun _ => handlers).next S a) := by
  rcases next_cases fresh uuid5 (fun _ => handlers) S a with
    ⟨hn, -⟩ | ⟨k, record, i, e, rfl, hr, ⟨hkey, hn⟩ | ⟨hkey, hn⟩⟩ | ⟨k, c, i, -, hn⟩ | ⟨key, rfl, -⟩
  · rw [hn]
    exact h
  · -- skipped: the key was set by an earlier delivery
    rw [hn]
    refine h.of_note rfl rfl (fun k' i' r hc => (nomatch hc)) fun _ => ?_
    obtain ⟨k₀, r₀, hmem⟩ := (h.recorded i).mp hkey
    exact ⟨_, hmem, k₀, k, i, r₀, _, rfl, rfl⟩
  · -- the first delivery of the hash
    rw [hn]
    have hnone : ∀ k' r', Note.recorded k' i r' ∉ S.log :=
      fun k' r' hc => hkey ((h.recorded i).mpr ⟨k', r', hc⟩)
    constructor
    · intro i'
      show dedupeKey i' ∈ dedupeKey i :: S.redis ↔ ∃ k' r', _ ∈ S.log ++ [_]
      constructor
      · intro hmem
        rcases List.mem_cons.mp hmem with heq | hmem
        · obtain rfl := dedupeKey_inj heq
          exact ⟨k, _, List.mem_append_right _ (List.mem_singleton.mpr rfl)⟩
        · obtain ⟨k', r', hrec⟩ := (h.recorded i').mp hmem
          exact ⟨k', r', List.mem_append_left _ hrec⟩
      · intro hex
        obtain ⟨k', r', hrec⟩ := hex
        rcases List.mem_append.mp hrec with hrec | hrec
        · exact List.mem_cons_of_mem _ ((h.recorded i').mpr ⟨k', r', hrec⟩)
        · obtain ⟨-, rfl, -⟩ := Note.recorded.inj (List.mem_singleton.mp hrec)
          exact List.mem_cons_self
    · intro k₁ k₂ i' r₁ r₂ h₁ h₂
      rcases List.mem_append.mp h₁ with old₁ | new₁
      · rcases List.mem_append.mp h₂ with old₂ | new₂
        · exact h.first k₁ k₂ i' r₁ r₂ old₁ old₂
        · obtain ⟨-, rfl, -⟩ := Note.recorded.inj (List.mem_singleton.mp new₂)
          exact absurd old₁ (hnone k₁ r₁)
      · obtain ⟨rfl, rfl, -⟩ := Note.recorded.inj (List.mem_singleton.mp new₁)
        rcases List.mem_append.mp h₂ with old₂ | new₂
        · exact absurd old₂ (hnone k₂ r₂)
        · exact (Note.recorded.inj (List.mem_singleton.mp new₂)).1.symm
    · exact preceded_snoc.mpr ⟨h.before, fun hc => hc.elim⟩
  · rw [hn]
    refine h.of_note rfl rfl (fun k' i' r hc => ?_) fun hc => ?_
    · cases c <;> exact (nomatch hc)
    · cases c <;> exact hc.elim
  · exact ha.elim

/-- **Of every hash only the first delivery is handed on.** -/
theorem firstOnly_run {as : List (Deed κ)} (has : ∀ a ∈ as, Served fresh uuid5 handlers a) :
    FirstOnly ((sharedMachine fresh uuid5 fun _ => handlers).run Shared.init as) := by
  have general : ∀ (as : List (Deed κ)) (S : Shared κ), FirstOnly S →
      (∀ a ∈ as, Served fresh uuid5 handlers a) →
      FirstOnly ((sharedMachine fresh uuid5 fun _ => handlers).run S as) := by
    intro as
    induction as with
    | nil => intro S h _; exact h
    | cons a as ih =>
        intro S h has
        exact ih _ (h.next (has a List.mem_cons_self)) fun b hb => has b (List.mem_cons_of_mem _ hb)
  refine general as _ ⟨fun i => ?_, fun k k' i r r' h => (nomatch h), preceded_nil⟩ has
  refine iff_of_false (List.not_mem_nil) fun h => ?_
  obtain ⟨k, r, hmem⟩ := h
  exact (nomatch hmem)

/-! ## §3. Both groups. -/

omit [DecidableEq κ] in
/-- A dispatch is noted under a consumer of the group. -/
theorem exists_of_dispatches {log : List (Note κ)} {g i : String}
    (h : dispatches group log g i = 1) : ∃ k r, Note.recorded k i r ∈ log ∧ group k = g := by
  have hpos : 0 < dispatches group log g i := by omega
  obtain ⟨n, hmem, hn⟩ := List.countP_pos_iff.mp hpos
  cases n with
  | recorded k h' r =>
      obtain ⟨hg, rfl, -⟩ := of_decide_eq_true hn
      exact ⟨k, r, hmem, hg⟩
  | skipped k h' r => exact (nomatch hn)
  | committed k h' => exact (nomatch hn)
  | rolledBack k h' => exact (nomatch hn)
  | expired key => exact (nomatch hn)

/-- **Every group is served** in a run exactly when no hash is delivered to two
groups. -/
theorem perGroup_iff (group : κ → String) {as : List (Deed κ)}
    (has : ∀ a ∈ as, Served fresh uuid5 handlers a) :
    PerGroup group ((sharedMachine fresh uuid5 fun _ => handlers).run Shared.init as).log
      ↔ ∀ g g' dedupe_id,
          DeliveredTo group ((sharedMachine fresh uuid5 fun _ => handlers).run Shared.init as).log
            g dedupe_id →
          DeliveredTo group ((sharedMachine fresh uuid5 fun _ => handlers).run Shared.init as).log
            g' dedupe_id → g = g' := by
  have hfirst := firstOnly_run has
  generalize (sharedMachine fresh uuid5 fun _ => handlers).run Shared.init as = S at hfirst ⊢
  constructor
  · intro h g g' i hg hg'
    by_contra hne
    -- the two dispatches would be of one consumer
    obtain ⟨h₁, h₂⟩ := h.once g g' i hne hg hg'
    obtain ⟨k, r, hk, rfl⟩ := exists_of_dispatches group h₁
    obtain ⟨k', r', hk', rfl⟩ := exists_of_dispatches group h₂
    exact hne (congrArg group (hfirst.first k k' i r r' hk hk'))
  · intro h
    refine ⟨fun g g' i hne hg hg' => absurd (h g g' i hg hg') hne, ?_⟩
    refine hfirst.before.imp fun n hn c hc _ hcause => ?_
    obtain ⟨k, k', i, r, r', rfl, rfl⟩ := hcause
    exact ⟨k, k', i, r, r', rfl, rfl,
      h _ _ i ⟨k, r, rfl, Or.inr hc⟩ ⟨k', r', rfl, Or.inl hn⟩⟩

end Groups

/-! ### Two groups. -/

/-- The group of each of two consumers. -/
def groupOf : Bool → String
  | true => "nimbus-orders"
  | false => "nimbus-notifications"

/-- The record is delivered to both groups; the handler of the first commits. -/
def bothGroups : List (Deed Bool) :=
  [.deliver true failedRecord, .finish true true, .deliver false failedRecord]

theorem bothGroups_served (fresh : Uuid) :
    ∀ a ∈ bothGroups, Served fresh (fun _ => failedHash) failedHandlers a := by
  have hdeliver : ∀ k : Bool,
      Served fresh (fun _ => failedHash) failedHandlers (.deliver k failedRecord) := by
    intro k i e h
    rw [failedRecord_dedupeId] at h
    obtain ⟨-, rfl⟩ := Prod.mk.inj (Option.some.inj h)
    rfl
  intro a ha
  simp only [bothGroups, List.mem_cons, List.not_mem_nil, or_false] at ha
  rcases ha with rfl | rfl | rfl
  · exact hdeliver true
  · trivial
  · exact hdeliver false

/-- The second group's consumer skips the record. -/
theorem bothGroups_log :
    ((failedMachine Bool).run Shared.init bothGroups).log
      = [.recorded true failedHash true, .committed true failedHash,
          .skipped false failedHash true] := by
  rw [bothGroups, Machine.run_cons, failed_first rfl (List.not_mem_nil), Machine.run_cons,
    show (failedMachine Bool).next _ (.finish true true) = _ from finish_next rfl,
    Machine.run_cons, failed_again rfl List.mem_cons_self]
  rfl

/-- The second group is never handed the event. -/
theorem perGroup_fails :
    ¬ PerGroup groupOf ((failedMachine Bool).run Shared.init bothGroups).log := by
  intro h
  obtain ⟨c, hc, k, k', i, r, r', rfl, hn, hgroup⟩ := h.own
    [.recorded true failedHash true, .committed true failedHash]
    (.skipped false failedHash true) [] bothGroups_log rfl
  obtain ⟨rfl, rfl, -⟩ := Note.skipped.inj hn
  simp only [List.mem_cons, Note.recorded.injEq, List.not_mem_nil, or_false, reduceCtorEq] at hc
  rw [hc.1] at hgroup
  exact absurd hgroup (by decide)

theorem perGroup_iff_bothGroups :
    PerGroup groupOf ((failedMachine Bool).run Shared.init bothGroups).log
      ↔ ∀ g g' dedupe_id,
          DeliveredTo groupOf ((failedMachine Bool).run Shared.init bothGroups).log g dedupe_id →
          DeliveredTo groupOf ((failedMachine Bool).run Shared.init bothGroups).log g' dedupe_id →
          g = g' :=
  perGroup_iff groupOf (bothGroups_served _)

end Nimbus.Redelivery
