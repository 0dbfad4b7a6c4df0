/-
  Nimbus.Workers.RelayLifecycle
  ─────────────────────────────
  **WHAT CAN BECOME OF AN OUTBOX ROW.**

  However many relays run, and whatever the broker does, a row stays as it is
  once it is processed or failed; until then each committed tick counts one
  attempt at most.  A row fails for two reasons only, and neither of them is a
  broker that is not there.

    • `Later`        — what later states can have made of a row;
    • `Settles.later`, `Settles.sound` — one committed tick;
    • `failed_cause` — why a row becomes `failed`;
    • `lifecycle`    — **the lifecycle of every row in every run.**
-/
import Nimbus.Workers.RelayRuns

namespace Nimbus.OutboxRelay

open Lib

variable {τ : Type} {settings : Settings}

/-! ## §1. One row. -/

/-- A row that is not both processed and failed, and has used no more attempts
than there are. -/
structure Sound (settings : Settings) (e : OutboxEvent) : Prop where
  once : ¬ (e.processed = true ∧ e.failed = true)
  attempts : e.attempt_count ≤ settings.outbox_relay_max_attempts

/-- `e'` is what a later state has made of `e`. -/
structure Later (e e' : OutboxEvent) : Prop where
  id : e'.id = e.id
  final : e.processed = true ∨ e.failed = true → e' = e
  attempts : e.attempt_count ≤ e'.attempt_count

theorem Later.refl (e : OutboxEvent) : Later e e := ⟨rfl, fun _ => rfl, Int.le_refl _⟩

theorem Later.trans {e e' e'' : OutboxEvent} (h : Later e e') (h' : Later e' e'') :
    Later e e'' := by
  refine ⟨h'.id.trans h.id, fun hfinal => ?_, Int.le_trans h.attempts h'.attempts⟩
  obtain rfl := h.final hfinal
  exact h'.final hfinal

theorem New.sound {e : OutboxEvent} (h : New e) : Sound settings e := by
  obtain ⟨hproc, -, hcount⟩ := h
  refine ⟨fun hc => absurd (hproc.symm.trans hc.1) (by decide), ?_⟩
  rw [hcount]
  exact Int.natCast_nonneg _

section Settles

variable {x : OutboxEvent × Answer} {row : OutboxEvent}

/-- Marking a row changes neither `failed` nor the number of attempts. -/
theorem Settles.fields (h : Settles settings x row) :
    row.failed = (assigned settings x).failed
      ∧ row.attempt_count = (assigned settings x).attempt_count
      ∧ (row.processed = true → row.failed = true → (assigned settings x).processed = true) := by
  rcases h.row with rfl | ⟨hfail, now, rfl⟩
  · exact ⟨rfl, rfl, fun hp _ => hp⟩
  · refine ⟨rfl, rfl, fun _ hf => ?_⟩
    have hboth : (assigned settings x).failed = true := hf
    rw [hfail] at hboth
    cases hboth

/-- **A committed tick keeps a claimed row sound.** -/
theorem Settles.sound (h : Settles settings x row) (hfresh : Fresh x.1)
    (hx : Sound settings x.1) : Sound settings row := by
  obtain ⟨-, hcount, hboth⟩ := h.fields
  have hbound := assign_attempts x.2 hx.attempts
  have hproc : (assigned settings x).processed = false :=
    (Outcome.assign_processed _ _).trans hfresh.1
  refine ⟨fun hc => ?_, ?_⟩
  · have htrue := hboth hc.1 hc.2
    rw [hproc] at htrue
    cases htrue
  · rw [hcount]
    exact hbound.2

/-- **A committed tick never counts attempts down.** -/
theorem Settles.later (h : Settles settings x row) (hfresh : Fresh x.1)
    (hx : Sound settings x.1) : Later x.1 row := by
  obtain ⟨-, hcount, -⟩ := h.fields
  have hbound := assign_attempts x.2 hx.attempts
  refine ⟨h.id, fun hfinal => ?_, ?_⟩
  · -- a claimed row is not final
    rcases hfinal with hp | hf
    · exact absurd (hfresh.1.symm.trans hp) (by decide)
    · exact absurd (hfresh.2.symm.trans hf) (by decide)
  · rw [hcount]
    exact hbound.1

end Settles

/-! ## §2. One step. -/

/-- Every row of the table is sound. -/
def AllSound (settings : Settings) (T : Table OutboxEvent) : Prop :=
  ∀ id e, T.lookup id = some e → Sound settings e

variable {P P' : State τ} {a : Action τ}

/-- A claimed row is as the table has it. -/
theorem Locked.claimed_fresh (hP : Locked P) {t : τ} {k : Tick} (hk : P.tick t = some k)
    {x : OutboxEvent × Answer} (hx : x ∈ k.batch) : Fresh x.1 :=
  (hP.rows t k hk x.1 (Tick.row_mem hx)).2.2

variable [DecidableEq τ]

/-- **One step keeps every row sound.** -/
theorem sound_step (hP : Locked P) (hT : AllSound settings P.table)
    (h : step settings P a = some P') : AllSound settings P'.table := by
  intro id e he
  rcases row_step hP h id with hsame | ⟨e', -, -, hnew, -, hrow⟩ |
    ⟨t, now, k, x, row, -, hk, -, hx, -, hlookup, hsettles, hrow⟩
  · rw [hsame] at he
    exact hT id e he
  · rw [hrow] at he
    obtain rfl := Option.some.inj he
    exact hnew.sound
  · rw [hrow] at he
    obtain rfl := Option.some.inj he
    exact hsettles.sound (hP.claimed_fresh hk hx) (hT id _ hlookup)

/-- **One step makes of every row a later one.** -/
theorem later_step (hP : Locked P) (hT : AllSound settings P.table)
    (h : step settings P a = some P') {id : Uuid} {e : OutboxEvent}
    (he : P.table.lookup id = some e) : ∃ e', P'.table.lookup id = some e' ∧ Later e e' := by
  rcases row_step hP h id with hsame | ⟨e', -, -, -, hnone, -⟩ |
    ⟨t, now, k, x, row, -, hk, -, hx, -, hlookup, hsettles, hrow⟩
  · exact ⟨e, hsame.trans he, Later.refl e⟩
  · rw [he] at hnone
    cases hnone
  · rw [he] at hlookup
    obtain rfl := Option.some.inj hlookup
    exact ⟨row, hrow, hsettles.later (hP.claimed_fresh hk hx) (hT id _ he)⟩

/-- **Why a row becomes `failed`**: a tick that has found no attempts left, or
whose publish of the row has raised an InfrastructureError that is not about the
broker, commits. -/
theorem failed_cause (hP : Locked P) (h : step settings P a = some P') {id : Uuid}
    {e e' : OutboxEvent} (he : P.table.lookup id = some e) (hf : e.failed = false)
    (he' : P'.table.lookup id = some e') (hf' : e'.failed = true) :
    (settings.outbox_relay_max_attempts : Int) ≤ e.attempt_count
    ∨ ∃ t now k answer exc, a = .commit t now ∧ P.tick t = some k ∧ (e, answer) ∈ k.batch
        ∧ publishOne e answer = .error exc ∧ exc.isA .infrastructureError = true
        ∧ exc.isA .brokerUnavailableError = false := by
  rcases row_step hP h id with hsame | ⟨_, -, -, -, hnone, -⟩ |
    ⟨t, now, k, x, row, ha, hk, -, hx, -, hlookup, hsettles, hrow⟩
  · -- the row is as it was
    rw [hsame, he] at he'
    obtain rfl := Option.some.inj he'
    exact absurd (hf.symm.trans hf') (by decide)
  · -- the row is new
    rw [he] at hnone
    cases hnone
  · -- the row has been settled by the commit of a tick
    rw [he] at hlookup
    obtain rfl := Option.some.inj hlookup
    rw [hrow] at he'
    obtain rfl := Option.some.inj he'
    have hassigned : (assigned settings x).failed = true := hsettles.fields.1.symm.trans hf'
    rcases assign_failed hf hassigned with hmax | ⟨exc, hexc, hinfra, hbroker⟩
    · exact Or.inl hmax
    · exact Or.inr ⟨t, now, k, x.2, exc, ha, hk, hx, hexc, hinfra, hbroker⟩

/-- **What changes the table**: a producer, or the commit of a tick that has
found the broker there at every row. -/
theorem table_step (h : step settings P a = some P') :
    P'.table = P.table ∨ (∃ e, a = .produce e)
      ∨ ∃ t now k, a = .commit t now ∧ P.tick t = some k ∧ Available settings k.batch := by
  rcases step_cases h with ⟨e, rfl, -, -, rfl⟩ | ⟨t, ids, rfl, -, -, -, rfl⟩ |
    ⟨t, answer, k, row, rfl, -, -, rfl⟩ | ⟨t, now, k, rows, rfl, hk, -, hrows, rfl⟩ |
    ⟨t, k, rfl, -, rfl⟩
  · exact Or.inr (Or.inl ⟨e, rfl⟩)
  · exact Or.inl rfl
  · exact Or.inl rfl
  · exact Or.inr (Or.inr ⟨t, now, k, rfl, hk, (tickRows_eq_some.mp hrows).1⟩)
  · exact Or.inl rfl

/-! ## §3. Every run. -/

/-- The broker is not there: no tick commits that has not met a
BrokerUnavailableError. -/
def Outage (settings : Settings) (P : State τ) (a : Action τ) : Prop :=
  ∀ t now k, a = .commit t now → P.tick t = some k → ¬ Available settings k.batch

theorem sound_run (hP : Locked P) (hT : AllSound settings P.table) (bs : List (Action τ)) :
    Locked ((machine settings).run P bs)
      ∧ AllSound settings ((machine settings).run P bs).table :=
  (machine settings).run_invariant (I := fun Q => Locked Q ∧ AllSound settings Q.table)
    (fun _ _ _ hQ h => ⟨hQ.1.step h, sound_step hQ.1 hQ.2 h⟩) bs P ⟨hP, hT⟩

/-- Every row is followed by a later one. -/
theorem later_run (hP : Locked P) (hT : AllSound settings P.table) (bs : List (Action τ))
    {id : Uuid} {e : OutboxEvent} (he : P.table.lookup id = some e) :
    ∃ e', ((machine settings).run P bs).table.lookup id = some e' ∧ Later e e' := by
  have hrun := (machine settings).run_invariant
    (I := fun Q : State τ => (Locked Q ∧ AllSound settings Q.table)
      ∧ ∃ e', Q.table.lookup id = some e' ∧ Later e e') ?_ bs P ⟨⟨hP, hT⟩, e, he, Later.refl e⟩
  · exact hrun.2
  · intro Q a Q' hQ h
    obtain ⟨⟨hlocked, hsound⟩, e', he', hlater⟩ := hQ
    obtain ⟨e'', he'', hlater'⟩ := later_step hlocked hsound h he'
    exact ⟨⟨hlocked.step h, sound_step hlocked hsound h⟩, e'', he'', hlater.trans hlater'⟩

/-- **An outage, however long, changes no row.** -/
theorem outage_run (hP : Locked P) (bs : List (Action τ))
    (hout : (machine settings).Along (Outage settings) P bs) {id : Uuid} {e : OutboxEvent}
    (he : P.table.lookup id = some e) :
    ((machine settings).run P bs).table.lookup id = some e := by
  have hrun := (machine settings).run_invariant_along
    (I := fun Q : State τ => Locked Q ∧ Q.table.lookup id = some e) (C := Outage settings) ?_ bs P
    ⟨hP, he⟩ hout _ (Machine.run_mem_trace _ _ _)
  · exact hrun.2
  · intro Q a Q' hQ hC hstep
    have h : step settings Q a = some Q' := hstep
    refine ⟨hQ.1.step h, ?_⟩
    rcases table_step h with hsame | ⟨e', rfl⟩ | ⟨t, now, k, ha, hk, havail⟩
    · rw [hsame]
      exact hQ.2
    · rcases row_step hQ.1 h id with hrow | ⟨_, -, -, -, hnone, -⟩ | ⟨t, now, k, _, _, ha, -⟩
      · exact hrow.trans hQ.2
      · rw [hQ.2] at hnone
        cases hnone
      · cases ha
    · exact absurd havail (hC t now k ha hk)

/-- **The lifecycle of every outbox row**, for any number of relays: it is never
both processed and failed, and once it is one of them it never changes; its
attempts never go down and never exceed the maximum; it becomes failed only
where no attempt was left or its last publish raised an InfrastructureError
other than BrokerUnavailableError; only ticks that never met a
BrokerUnavailableError and whose commit went through change the table, so an
outage changes no row. -/
theorem lifecycle {T : Table OutboxEvent}
    (hT : ∀ e ∈ T.rows, e.attempt_count = 0 ∧ ¬ (e.processed = true ∧ e.failed = true))
    (as : List (Action τ)) :
    (∀ e ∈ (relayRun settings T as).table.rows, ¬ (e.processed = true ∧ e.failed = true)
        ∧ e.attempt_count ≤ settings.outbox_relay_max_attempts)
    ∧ (∀ bs, ∀ e ∈ (relayRun settings T as).table.rows,
        ∃ e' ∈ (relayRun settings T (as ++ bs)).table.rows, e'.id = e.id
          ∧ (e.processed = true ∨ e.failed = true → e' = e)
          ∧ e.attempt_count ≤ e'.attempt_count)
    ∧ (∀ a P', step settings (relayRun settings T as) a = some P' →
        ∀ e ∈ (relayRun settings T as).table.rows, ∀ e' ∈ P'.table.rows, e'.id = e.id →
          e.failed = false → e'.failed = true →
          (settings.outbox_relay_max_attempts : Int) ≤ e.attempt_count
          ∨ ∃ t now k answer exc, a = .commit t now
              ∧ (relayRun settings T as).tick t = some k ∧ (e, answer) ∈ k.batch
              ∧ publishOne e answer = .error exc ∧ exc.isA .infrastructureError = true
              ∧ exc.isA .brokerUnavailableError = false)
    ∧ (∀ a P', step settings (relayRun settings T as) a = some P' →
        P'.table = (relayRun settings T as).table ∨ (∃ e, a = .produce e)
          ∨ ∃ t now k, a = .commit t now ∧ (relayRun settings T as).tick t = some k
              ∧ Available settings k.batch)
    ∧ ∀ bs, (machine settings).Along (Outage settings) (relayRun settings T as) bs →
        ∀ e ∈ (relayRun settings T as).table.rows,
          e ∈ ((machine settings).run (relayRun settings T as) bs).table.rows := by
  have hinit : AllSound settings (State.init T : State τ).table := by
    intro id e he
    obtain ⟨hcount, honce⟩ := hT e (Table.mem_of_lookup he)
    refine ⟨honce, ?_⟩
    rw [hcount]
    exact Int.natCast_nonneg _
  obtain ⟨hlocked, hsound⟩ := sound_run (locked_init T) hinit as
  have hlookup : ∀ {U : Table OutboxEvent} {e : OutboxEvent}, e ∈ U.rows → U.lookup e.id = some e :=
    fun h => Table.lookup_some_iff.mpr ⟨h, rfl⟩
  refine ⟨fun e he => ?_, fun bs e he => ?_, fun a P' h e he e' he' hid hf hf' => ?_,
    fun a P' h => table_step h, fun bs hout e he => ?_⟩
  · have hs := hsound e.id e (hlookup he)
    exact ⟨hs.once, hs.attempts⟩
  · obtain ⟨e', he', hlater⟩ := later_run hlocked hsound bs (hlookup he)
    refine ⟨e', ?_, hlater.id, hlater.final, hlater.attempts⟩
    show e' ∈ ((machine settings).run (State.init T) (as ++ bs)).table.rows
    rw [Machine.run_append]
    exact Table.mem_of_lookup he'
  · have hrow' : P'.table.lookup e.id = some e' := hid ▸ hlookup he'
    exact failed_cause hlocked h (hlookup he) hf hrow' hf'
  · exact Table.mem_of_lookup (outage_run hlocked bs hout (hlookup he))

/-- The broker is away for a tick; at the next one both rows meet an unexpected
error. -/
def outageRun : List (Action Nat) :=
  [.claim 0 [Uuid.ofNat 1, Uuid.ofNat 2], .publish 0 unreachable, .rollback 0,
    .claim 1 [Uuid.ofNat 1, Uuid.ofNat 2], .publish 1 crashed, .publish 1 crashed, .commit 1 7]

theorem lifecycle_outage :
    (∀ e ∈ (relayRun relaySettings twoRows outageRun).table.rows,
      ¬ (e.processed = true ∧ e.failed = true)
        ∧ e.attempt_count ≤ relaySettings.outbox_relay_max_attempts)
    ∧ ∀ bs, ∀ e ∈ (relayRun relaySettings twoRows outageRun).table.rows,
        ∃ e' ∈ (relayRun relaySettings twoRows (outageRun ++ bs)).table.rows, e'.id = e.id
          ∧ (e.processed = true ∨ e.failed = true → e' = e)
          ∧ e.attempt_count ≤ e'.attempt_count :=
  have h := lifecycle (fun e he => ⟨(twoRows_new e he).2.2,
    fun hc => absurd ((twoRows_new e he).1.symm.trans hc.1) (by decide)⟩) outageRun
  ⟨h.1, h.2.1⟩

/-- The tick that met the outage has counted no attempt. -/
example : (relayRun relaySettings twoRows outageRun).table.rows.map (·.attempt_count) = [1, 1]
    ∧ (relayRun relaySettings twoRows (outageRun.take 3)).table.rows.map (·.attempt_count)
      = [0, 0] := by
  decide +kernel

end Nimbus.OutboxRelay
