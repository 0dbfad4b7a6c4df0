/-
  Nimbus.Workers.RelayRuns
  ────────────────────────
  **RELAYS SIDE BY SIDE.**

  Any number of relay instances work on one outbox table while producers insert
  rows.  A tick claims its rows with FOR UPDATE SKIP LOCKED, publishes them one
  after another and ends with a commit or a rollback; between any two of these
  steps the other instances may act.  A tick that is rolled back, whose commit
  fails, or whose process dies has the same effect on the table: none.

    • `Claims`, `step`    — the SELECT of `_claim_batch`; everything one
                            instance can do next;
    • `step_cases`        — **what each step changes**;
    • `Locked`            — the claimed rows are those of the table, and
                            nobody else's;
    • `row_step`          — what one step can make of one row;
    • `tick_step`         — where an open tick comes from;
    • `Logged`            — every acknowledgement a tick has seen is logged.
-/
import Nimbus.Workers.OutboxRelay
import Nimbus.Lib.Machine
import Mathlib.Logic.Function.Basic

namespace Nimbus.OutboxRelay

open Lib

instance : Keyed OutboxEvent Uuid := ⟨fun e => e.id⟩

variable {τ : Type} {settings : Settings}

/-! ## §1. States and steps. -/

/-- An open tick: the rows it has claimed, and how its publishes have ended. -/
structure Tick where
  rows : List OutboxEvent
  answers : List Answer

/-- The rows the loop has been through. -/
def Tick.batch (k : Tick) : List (OutboxEvent × Answer) := k.rows.zip k.answers

/-- The committed table, the row locks, the open ticks, and the `outbox_id` of
every acknowledged message in the order of the acknowledgements. -/
structure State (τ : Type) where
  table : Table OutboxEvent
  lock : Uuid → Option τ
  tick : τ → Option Tick
  acked : List Uuid

def State.init (T : Table OutboxEvent) : State τ := ⟨T, fun _ => none, fun _ => none, []⟩

/-- The rows the SELECT may return: not processed, not failed, not locked. -/
def selectable (P : State τ) : List OutboxEvent :=
  P.table.rows.filter fun e => !e.processed && !e.failed && (P.lock e.id).isNone

/-- The rows with the given ids, in their order. -/
def claimed (P : State τ) (ids : List Uuid) : List OutboxEvent := ids.filterMap P.table.lookup

/-- `ids` is an answer of the SELECT of `_claim_batch`: the oldest selectable
rows, at most `outbox_relay_batch_size` of them, oldest first.  Rows of one
`created_at` may come in any order. -/
structure Claims (settings : Settings) (P : State τ) (ids : List Uuid) : Prop where
  nodup : ids.Nodup
  selected : ∀ id ∈ ids, id ∈ (selectable P).map (·.id)
  size : ids.length = min settings.outbox_relay_batch_size (selectable P).length
  sorted : (claimed P ids).Pairwise fun e e' => e.created_at ≤ e'.created_at
  oldest : ∀ e ∈ selectable P, e.id ∉ ids → ∀ e' ∈ claimed P ids, e'.created_at ≤ e.created_at

instance (P : State τ) (ids : List Uuid) : Decidable (Claims settings P ids) :=
  decidable_of_iff
    (ids.Nodup ∧ (∀ id ∈ ids, id ∈ (selectable P).map (·.id))
      ∧ ids.length = min settings.outbox_relay_batch_size (selectable P).length
      ∧ ((claimed P ids).Pairwise fun e e' => e.created_at ≤ e'.created_at)
      ∧ ∀ e ∈ selectable P, e.id ∉ ids → ∀ e' ∈ claimed P ids, e'.created_at ≤ e.created_at)
    ⟨fun ⟨h₁, h₂, h₃, h₄, h₅⟩ => ⟨h₁, h₂, h₃, h₄, h₅⟩,
      fun h => ⟨h.nodup, h.selected, h.size, h.sorted, h.oldest⟩⟩

inductive Action (τ : Type) where
  /-- A producer commits a new row. -/
  | produce (e : OutboxEvent)
  /-- The instance `t` opens a session and its SELECT returns the rows `ids`. -/
  | claim (t : τ) (ids : List Uuid)
  /-- The loop of `t` comes to the next row. -/
  | publish (t : τ) (answer : Answer)
  /-- `t` marks its batch and commits. -/
  | commit (t : τ) (now : Int)
  /-- The session of `t` is rolled back, or lost. -/
  | rollback (t : τ)

section Steps

variable [DecidableEq τ]

/-- The locks when the session of `t` has ended. -/
def State.unlocked (P : State τ) (t : τ) : Uuid → Option τ :=
  fun id => if P.lock id = some t then none else P.lock id

/-- A row as `build_outbox_event` makes it. -/
def New (e : OutboxEvent) : Prop :=
  e.processed = false ∧ e.failed = false ∧ e.attempt_count = 0

instance (e : OutboxEvent) : Decidable (New e) := by
  unfold New
  infer_instance

/-- The next row of an open tick, where its loop is not over. -/
def Tick.next (settings : Settings) (k : Tick) : Option OutboxEvent :=
  if (publishBatch settings k.batch).fail_fast then none else k.rows[k.answers.length]?

/-- One step; `none` when it is not possible. -/
def step (settings : Settings) (P : State τ) : Action τ → Option (State τ)
  | .produce e =>
      if New e ∧ (P.table.lookup e.id).isNone then some { P with table := P.table.upsert e } else none
  | .claim t ids =>
      -- an empty answer ends the tick at once
      if (P.tick t).isNone ∧ ids ≠ [] ∧ Claims settings P ids then
        some { P with
          lock := fun id => if id ∈ ids then some t else P.lock id
          tick := Function.update P.tick t (some ⟨claimed P ids, []⟩) }
      else none
  | .publish t answer =>
      match P.tick t with
      | none => none
      | some k => (k.next settings).map fun row => { P with
          tick := Function.update P.tick t (some { k with answers := k.answers ++ [answer] })
          acked := if (outcome settings row answer).isAcked then P.acked ++ [row.id] else P.acked }
  | .commit t now =>
      match P.tick t with
      | none => none
      | some k =>
          if k.answers.length = k.rows.length then
            (tickRows settings k.batch now).map fun rows => { P with
              table := P.table.upsertAll rows
              lock := P.unlocked t
              tick := Function.update P.tick t none }
          else none
  | .rollback t =>
      match P.tick t with
      | none => none
      | some _ => some { P with
          lock := P.unlocked t
          tick := Function.update P.tick t none }

/-- The relays as a machine. -/
def machine (settings : Settings) : Machine (State τ) (Action τ) := ⟨step settings⟩

/-- The state after the actions `as`, from the committed rows `T`. -/
def relayRun (settings : Settings) (T : Table OutboxEvent) (as : List (Action τ)) : State τ :=
  (machine settings).run (State.init T) as

/-- **What each step changes.** -/
theorem step_cases {P P' : State τ} {a : Action τ} (h : step settings P a = some P') :
    (∃ e, a = .produce e ∧ New e ∧ P.table.lookup e.id = none
      ∧ P' = { P with table := P.table.upsert e })
    ∨ (∃ t ids, a = .claim t ids ∧ P.tick t = none ∧ ids ≠ [] ∧ Claims settings P ids
      ∧ P' = { P with
        lock := fun id => if id ∈ ids then some t else P.lock id
        tick := Function.update P.tick t (some ⟨claimed P ids, []⟩) })
    ∨ (∃ t answer k row, a = .publish t answer ∧ P.tick t = some k ∧ k.next settings = some row
      ∧ P' = { P with
        tick := Function.update P.tick t (some { k with answers := k.answers ++ [answer] })
        acked := if (outcome settings row answer).isAcked then P.acked ++ [row.id] else P.acked })
    ∨ (∃ t now k rows, a = .commit t now ∧ P.tick t = some k ∧ k.answers.length = k.rows.length
      ∧ tickRows settings k.batch now = some rows
      ∧ P' = { P with
        table := P.table.upsertAll rows
        lock := P.unlocked t
        tick := Function.update P.tick t none })
    ∨ (∃ t k, a = .rollback t ∧ P.tick t = some k
      ∧ P' = { P with
        lock := P.unlocked t
        tick := Function.update P.tick t none }) := by
  cases a with
  | produce e =>
      simp only [step] at h
      split at h
      next hc =>
        have hnone : P.table.lookup e.id = none := Option.isNone_iff_eq_none.mp hc.2
        exact Or.inl ⟨e, rfl, hc.1, hnone, (Option.some.inj h).symm⟩
      next => cases h
  | claim t ids =>
      simp only [step] at h
      split at h
      next hc =>
        have hnone : P.tick t = none := Option.isNone_iff_eq_none.mp hc.1
        exact Or.inr (Or.inl ⟨t, ids, rfl, hnone, hc.2.1, hc.2.2, (Option.some.inj h).symm⟩)
      next => cases h
  | publish t answer =>
      simp only [step] at h
      split at h
      next => cases h
      next k hk =>
        obtain ⟨row, hrow, rfl⟩ := Option.map_eq_some_iff.mp h
        exact Or.inr (Or.inr (Or.inl ⟨t, answer, k, row, rfl, hk, hrow, rfl⟩))
  | commit t now =>
      simp only [step] at h
      split at h
      next => cases h
      next k hk =>
        split at h
        next hlen =>
          obtain ⟨rows, hrows, rfl⟩ := Option.map_eq_some_iff.mp h
          exact Or.inr (Or.inr (Or.inr (Or.inl ⟨t, now, k, rows, rfl, hk, hlen, hrows, rfl⟩)))
        next => cases h
  | rollback t =>
      simp only [step] at h
      split at h
      next => cases h
      next k hk =>
        exact Or.inr (Or.inr (Or.inr (Or.inr ⟨t, k, rfl, hk, (Option.some.inj h).symm⟩)))

end Steps

/-! ## §2. Claimed rows. -/

/-- The claimed rows of every open tick are locked by it, are those of the
table, and are neither processed nor failed. -/
structure Locked (P : State τ) : Prop where
  rows : ∀ t k, P.tick t = some k → ∀ row ∈ k.rows,
    P.lock row.id = some t ∧ P.table.lookup row.id = some row ∧ Fresh row
  nodup : ∀ t k, P.tick t = some k → (k.rows.map (·.id)).Nodup

theorem locked_init (T : Table OutboxEvent) : Locked (State.init T : State τ) :=
  ⟨fun _ _ hk => (nomatch hk), fun _ _ hk => (nomatch hk)⟩

theorem mem_selectable {P : State τ} {e : OutboxEvent} :
    e ∈ selectable P ↔ P.table.lookup e.id = some e ∧ Fresh e ∧ P.lock e.id = none := by
  have hrow : e ∈ P.table.rows ↔ P.table.lookup e.id = some e :=
    ⟨fun h => Table.lookup_some_iff.mpr ⟨h, rfl⟩, Table.mem_of_lookup⟩
  unfold selectable Fresh
  rw [List.mem_filter, hrow]
  simp [and_assoc]

theorem mem_claimed {P : State τ} {ids : List Uuid} {row : OutboxEvent} :
    row ∈ claimed P ids ↔ row.id ∈ ids ∧ P.table.lookup row.id = some row := by
  unfold claimed
  rw [List.mem_filterMap]
  constructor
  · intro h
    obtain ⟨id, hid, hrow⟩ := h
    obtain rfl : row.id = id := Table.key_of_lookup hrow
    exact ⟨hid, hrow⟩
  · intro h
    exact ⟨row.id, h.1, h.2⟩

/-- The SELECT returns the rows it has locked. -/
theorem Claims.selectable {P : State τ} {ids : List Uuid} (h : Claims settings P ids)
    {row : OutboxEvent} (hrow : row ∈ claimed P ids) : row ∈ OutboxRelay.selectable P := by
  obtain ⟨hid, hlookup⟩ := mem_claimed.mp hrow
  obtain ⟨e, he, heid⟩ := List.mem_map.mp (h.selected _ hid)
  have hsame := (mem_selectable.mp he).1
  have heid' : e.id = row.id := heid
  rw [heid', hlookup] at hsame
  rw [Option.some.inj hsame]
  exact he

theorem Claims.ids {P : State τ} {ids : List Uuid} (h : Claims settings P ids) :
    (claimed P ids).map (·.id) = ids := by
  have key_list : ∀ l : List Uuid, (∀ id ∈ l, id ∈ (OutboxRelay.selectable P).map (·.id)) →
      (claimed P l).map (·.id) = l := by
    intro l
    induction l with
    | nil => intro _; rfl
    | cons id l ih =>
        intro hl
        obtain ⟨e, he, rfl⟩ := List.mem_map.mp (hl id List.mem_cons_self)
        have hlookup : P.table.lookup e.id = some e := (mem_selectable.mp he).1
        have hrest := ih fun i hi => hl i (List.mem_cons_of_mem _ hi)
        unfold claimed at hrest ⊢
        rw [List.filterMap_cons, hlookup]
        show e.id :: _ = _
        rw [hrest]
  exact key_list ids h.selected

/-- When the loop has come to the end, it has been through all rows. -/
theorem Tick.batch_rows {k : Tick} (h : k.answers.length = k.rows.length) :
    k.batch.map Prod.fst = k.rows := List.map_fst_zip (Nat.le_of_eq h.symm)

theorem Tick.batch_ids {k : Tick} (h : k.answers.length = k.rows.length) :
    (k.batch.map fun x => x.1.id) = k.rows.map (·.id) := by
  rw [← Tick.batch_rows h, List.map_map]
  rfl

/-- The shorter list of a zip gets one more element. -/
theorem zip_snoc {α β : Type} {l : List α} {m : List β} {a : α} (h : l[m.length]? = some a)
    (b : β) : l.zip (m ++ [b]) = l.zip m ++ [(a, b)] := by
  induction m generalizing l with
  | nil =>
      cases l with
      | nil => cases h
      | cons x l =>
          obtain rfl : x = a := Option.some.inj h
          show (x, b) :: l.zip [] = _
          rw [List.zip_nil_right]
          rfl
  | cons y m ih =>
      cases l with
      | nil => cases h
      | cons x l =>
          have hl : l[m.length]? = some a := h
          show (x, y) :: l.zip (m ++ [b]) = (x, y) :: (l.zip m ++ [(a, b)])
          rw [ih hl]

/-- One more row has been published. -/
theorem Tick.batch_publish {k : Tick} {row : OutboxEvent} (h : k.next settings = some row)
    (answer : Answer) :
    Tick.batch { k with answers := k.answers ++ [answer] } = k.batch ++ [(row, answer)] := by
  unfold Tick.next at h
  split at h
  next => cases h
  next => exact zip_snoc h answer

theorem Tick.row_mem {k : Tick} {x : OutboxEvent × Answer} (h : x ∈ k.batch) : x.1 ∈ k.rows :=
  (List.of_mem_zip (h : (x.1, x.2) ∈ k.rows.zip k.answers)).1

/-- What a tick commits has the ids of its batch. -/
theorem tickRows_ids {batch : List (OutboxEvent × Answer)} {now : Int} {rows : List OutboxEvent}
    (h : tickRows settings batch now = some rows) :
    rows.map (·.id) = batch.map fun x => x.1.id := by
  have hall := tickRows_settles h
  clear h
  induction hall with
  | nil => rfl
  | cons hs _ ih => rw [List.map_cons, List.map_cons, ih, hs.id]

/-- Each row of a batch has one that is committed for it. -/
theorem exists_committed {batch : List (OutboxEvent × Answer)} {now : Int}
    {rows : List OutboxEvent} (h : tickRows settings batch now = some rows)
    {x : OutboxEvent × Answer} (hx : x ∈ batch) : ∃ row, (x, row) ∈ batch.zip rows := by
  have hlen := (List.forall₂_iff_zip.mp (tickRows_settles h)).1
  obtain ⟨i, hi, hget⟩ := List.mem_iff_getElem.mp hx
  have hi' : i < rows.length := hlen ▸ hi
  refine ⟨rows[i], ?_⟩
  rw [List.mem_iff_getElem]
  refine ⟨i, by rw [List.length_zip]; omega, ?_⟩
  rw [List.getElem_zip, hget]

section Commit

variable {k : Tick} {now : Int} {rows : List OutboxEvent} (T : Table OutboxEvent)

/-- A commit writes each row of the batch. -/
theorem lookup_committed (hnodup : (k.rows.map (·.id)).Nodup)
    (hlen : k.answers.length = k.rows.length) (hrows : tickRows settings k.batch now = some rows)
    {x : OutboxEvent × Answer} {row : OutboxEvent} (hx : (x, row) ∈ k.batch.zip rows) :
    (T.upsertAll rows).lookup x.1.id = some row := by
  have hids := (tickRows_ids hrows).trans (Tick.batch_ids hlen)
  have hrowsNodup : (rows.map key).Nodup := by
    show (rows.map (·.id)).Nodup
    rw [hids]
    exact hnodup
  have hid : row.id = x.1.id := ((List.forall₂_iff_zip.mp (tickRows_settles hrows)).2 hx).id
  have hfound : rows.find? (fun r => key r = x.1.id) = some row :=
    Table.lookup_some_iff (T := ⟨rows, hrowsNodup⟩).mpr ⟨(List.of_mem_zip hx).2, hid⟩
  rw [Table.lookup_upsertAll, hfound]
  rfl

/-- A commit leaves the other rows alone. -/
theorem lookup_uncommitted (hlen : k.answers.length = k.rows.length)
    (hrows : tickRows settings k.batch now = some rows) {id : Uuid}
    (hid : id ∉ k.rows.map (·.id)) : (T.upsertAll rows).lookup id = T.lookup id := by
  have hids := (tickRows_ids hrows).trans (Tick.batch_ids hlen)
  have hnone : rows.find? (fun r => key r = id) = none := by
    rw [List.find?_eq_none]
    intro row hrow hc
    refine hid ?_
    rw [← hids]
    exact List.mem_map.mpr ⟨row, hrow, of_decide_eq_true hc⟩
  rw [Table.lookup_upsertAll, hnone]
  rfl

end Commit

variable [DecidableEq τ]

/-- **What one step can make of one row**: nothing; a producer inserts it; or a
tick that has claimed it commits. -/
theorem row_step {P P' : State τ} {a : Action τ} (hP : Locked P)
    (h : step settings P a = some P') (id : Uuid) :
    P'.table.lookup id = P.table.lookup id
    ∨ (∃ e, a = .produce e ∧ e.id = id ∧ New e ∧ P.table.lookup id = none
        ∧ P'.table.lookup id = some e)
    ∨ ∃ t now k x row, a = .commit t now ∧ P.tick t = some k ∧ k.answers.length = k.rows.length
        ∧ x ∈ k.batch ∧ x.1.id = id ∧ P.table.lookup id = some x.1 ∧ Settles settings x row
        ∧ P'.table.lookup id = some row := by
  rcases step_cases h with ⟨e, rfl, hnew, hnone, rfl⟩ | ⟨t, ids, rfl, -, -, -, rfl⟩ |
    ⟨t, answer, k, row, rfl, -, -, rfl⟩ | ⟨t, now, k, rows, rfl, hk, hlen, hrows, rfl⟩ |
    ⟨t, k, rfl, -, rfl⟩
  · -- a producer commits a row
    by_cases hid : e.id = id
    · subst hid
      exact Or.inr (Or.inl ⟨e, rfl, rfl, hnew, hnone, Table.lookup_upsert_self rfl⟩)
    · exact Or.inl (Table.lookup_upsert_ne fun hc => hid hc.symm)
  · exact Or.inl rfl
  · exact Or.inl rfl
  · -- a tick commits
    by_cases hid : id ∈ k.rows.map (·.id)
    · refine Or.inr (Or.inr ?_)
      obtain ⟨old, hold, rfl⟩ := List.mem_map.mp hid
      rw [← Tick.batch_rows hlen] at hold
      obtain ⟨x, hx, rfl⟩ := List.mem_map.mp hold
      obtain ⟨row, hzip⟩ := exists_committed hrows hx
      have hsettles := (List.forall₂_iff_zip.mp (tickRows_settles hrows)).2 hzip
      obtain ⟨-, hlookup, -⟩ := hP.rows t k hk x.1 (Tick.row_mem hx)
      exact ⟨t, now, k, x, row, rfl, hk, hlen, hx, rfl, hlookup, hsettles,
        lookup_committed P.table (hP.nodup t k hk) hlen hrows hzip⟩
    · exact Or.inl (lookup_uncommitted P.table hlen hrows hid)
  · exact Or.inl rfl

/-- What the commit of an open tick changes. -/
theorem commit_cases {P P' : State τ} {t : τ} {now : Int} {k : Tick} (hk : P.tick t = some k)
    (h : step settings P (.commit t now) = some P') :
    ∃ rows, k.answers.length = k.rows.length ∧ tickRows settings k.batch now = some rows
      ∧ P' = { P with
          table := P.table.upsertAll rows
          lock := P.unlocked t
          tick := Function.update P.tick t none } := by
  rcases step_cases h with ⟨_, ha, -⟩ | ⟨_, _, ha, -⟩ | ⟨_, _, _, _, ha, -⟩ |
    ⟨t', now', k', rows, ha, hk', hlen, hrows, hP'⟩ | ⟨_, _, ha, -⟩
  · cases ha
  · cases ha
  · cases ha
  · obtain ⟨rfl, rfl⟩ := Action.commit.inj ha
    obtain rfl := Option.some.inj (hk.symm.trans hk')
    exact ⟨rows, hlen, hrows, hP'⟩
  · cases ha

/-- **A commit settles each row of its batch.** -/
theorem commit_row {P P' : State τ} {t : τ} {now : Int} {k : Tick} (hP : Locked P)
    (hk : P.tick t = some k) (h : step settings P (.commit t now) = some P')
    {x : OutboxEvent × Answer} (hx : x ∈ k.batch) :
    ∃ row, P'.table.lookup x.1.id = some row ∧ Settles settings x row := by
  obtain ⟨rows, hlen, hrows, rfl⟩ := commit_cases hk h
  obtain ⟨row, hzip⟩ := exists_committed hrows hx
  exact ⟨row, lookup_committed P.table (hP.nodup t k hk) hlen hrows hzip,
    (List.forall₂_iff_zip.mp (tickRows_settles hrows)).2 hzip⟩

/-- The ticks of the other instances, when the ticks of `t` have been updated. -/
theorem tick_update {P : State τ} {t u : τ} {x : Option Tick} {k : Tick}
    (h : Function.update P.tick t x u = some k) : (u = t ∧ x = some k) ∨ (u ≠ t ∧ P.tick u = some k) := by
  by_cases hu : u = t
  · subst hu
    rw [Function.update_self] at h
    exact Or.inl ⟨rfl, h⟩
  · rw [Function.update_of_ne hu] at h
    exact Or.inr ⟨hu, h⟩

/-- **Where an open tick comes from**: it was there before; it has just claimed
its rows; or it has published one row more. -/
theorem tick_step {P P' : State τ} {a : Action τ} (h : step settings P a = some P') {u : τ}
    {k' : Tick} (hk' : P'.tick u = some k') :
    P.tick u = some k'
    ∨ (∃ ids, a = .claim u ids ∧ Claims settings P ids ∧ k' = ⟨claimed P ids, []⟩)
    ∨ ∃ answer k row, a = .publish u answer ∧ P.tick u = some k ∧ k.next settings = some row
        ∧ k' = { k with answers := k.answers ++ [answer] } := by
  rcases step_cases h with ⟨e, rfl, -, -, rfl⟩ | ⟨t, ids, rfl, -, -, hclaims, rfl⟩ |
    ⟨t, answer, k, row, rfl, hk, hnext, rfl⟩ | ⟨t, now, k, rows, rfl, -, -, -, rfl⟩ |
    ⟨t, k, rfl, -, rfl⟩
  · -- a new row
    exact Or.inl hk'
  · -- a claim
    rcases tick_update hk' with ⟨rfl, hnew⟩ | ⟨-, hold⟩
    · exact Or.inr (Or.inl ⟨ids, rfl, hclaims, (Option.some.inj hnew).symm⟩)
    · exact Or.inl hold
  · -- one row more has been tried
    rcases tick_update hk' with ⟨rfl, hnew⟩ | ⟨-, hold⟩
    · exact Or.inr (Or.inr ⟨answer, k, row, rfl, hk, hnext, (Option.some.inj hnew).symm⟩)
    · exact Or.inl hold
  · -- a tick that ends, by a commit or a rollback
    rcases tick_update hk' with ⟨-, hnew⟩ | ⟨-, hold⟩
    · cases hnew
    · exact Or.inl hold
  · rcases tick_update hk' with ⟨-, hnew⟩ | ⟨-, hold⟩
    · cases hnew
    · exact Or.inl hold

/-! ## §3. Locks over whole runs. -/

theorem unlocked_other {P : State τ} {t u : τ} {id : Uuid} (hu : u ≠ t)
    (h : P.lock id = some u) : P.unlocked t id = some u := by
  unfold State.unlocked
  rw [h, if_neg fun hc => hu (Option.some.inj hc)]

/-- **No instance touches the rows that another one has claimed.** -/
theorem Locked.rows_step {P P' : State τ} {a : Action τ} (hP : Locked P)
    (h : OutboxRelay.step settings P a = some P') : ∀ t k, P'.tick t = some k → ∀ row ∈ k.rows,
      P'.lock row.id = some t ∧ P'.table.lookup row.id = some row ∧ Fresh row := by
  rcases step_cases h with ⟨e, rfl, -, hnone, rfl⟩ | ⟨t, ids, rfl, -, -, hclaims, rfl⟩ |
    ⟨t, answer, k, row, rfl, hk, -, rfl⟩ | ⟨t, now, k, rows, rfl, hk, hlen, hrows, rfl⟩ |
    ⟨t, k, rfl, hk, rfl⟩
  · -- a producer commits a row
    intro u k hk row hrow
    obtain ⟨hlock, hlookup, hfresh⟩ := hP.rows u k hk row hrow
    have hne : row.id ≠ e.id := by
      intro hc
      rw [hc, hnone] at hlookup
      cases hlookup
    exact ⟨hlock, (Table.lookup_upsert_ne hne).trans hlookup, hfresh⟩
  · -- a tick claims its rows
    intro u k hk row hrow
    rcases tick_update hk with ⟨rfl, hx⟩ | ⟨-, hx⟩
    · obtain rfl := Option.some.inj hx
      have hid := (mem_claimed.mp hrow).1
      have hsel := mem_selectable.mp (hclaims.selectable hrow)
      exact ⟨if_pos hid, hsel.1, hsel.2.1⟩
    · obtain ⟨hlock, hlookup, hfresh⟩ := hP.rows u k hx row hrow
      refine ⟨?_, hlookup, hfresh⟩
      -- a row that is locked is not selected
      have hid : row.id ∉ ids := by
        intro hc
        obtain ⟨e, he, heid⟩ := List.mem_map.mp (hclaims.selected _ hc)
        have hfree := (mem_selectable.mp he).2.2
        have heid' : e.id = row.id := heid
        rw [heid', hlock] at hfree
        cases hfree
      exact (if_neg hid).trans hlock
  · -- a row is published
    intro u k' hk'
    rcases tick_update hk' with ⟨rfl, hx⟩ | ⟨-, hx⟩
    · obtain rfl := Option.some.inj hx
      exact hP.rows u k hk
    · exact hP.rows u k' hx
  · -- a tick commits
    intro u k' hk' row hrow
    rcases tick_update hk' with ⟨-, hx⟩ | ⟨hu, hx⟩
    · cases hx
    · obtain ⟨hlock, hlookup, hfresh⟩ := hP.rows u k' hx row hrow
      refine ⟨unlocked_other hu hlock, ?_, hfresh⟩
      have hid : row.id ∉ k.rows.map (·.id) := by
        intro hc
        obtain ⟨r, hr, hrid⟩ := List.mem_map.mp hc
        have hmine := (hP.rows t k hk r hr).1
        have hrid' : r.id = row.id := hrid
        rw [hrid', hlock] at hmine
        exact hu (Option.some.inj hmine)
      exact (lookup_uncommitted P.table hlen hrows hid).trans hlookup
  · -- a tick is rolled back
    intro u k' hk' row hrow
    rcases tick_update hk' with ⟨-, hx⟩ | ⟨hu, hx⟩
    · cases hx
    · obtain ⟨hlock, hlookup, hfresh⟩ := hP.rows u k' hx row hrow
      exact ⟨unlocked_other hu hlock, hlookup, hfresh⟩

theorem Locked.step {P P' : State τ} {a : Action τ} (hP : Locked P)
    (h : OutboxRelay.step settings P a = some P') : Locked P' := by
  refine ⟨hP.rows_step h, fun t k' hk' => ?_⟩
  -- the rows of a tick are those it has claimed
  rcases tick_step h hk' with hold | ⟨ids, -, hclaims, rfl⟩ | ⟨answer, k, row, -, hk, -, rfl⟩
  · exact hP.nodup t k' hold
  · show ((claimed P ids).map (·.id)).Nodup
    rw [hclaims.ids]
    exact hclaims.nodup
  · exact hP.nodup t k hk

theorem locked_run (settings : Settings) (T : Table OutboxEvent) (as : List (Action τ)) :
    Locked (relayRun settings T as) :=
  (machine settings).run_invariant (fun _ _ _ hP h => hP.step h) as _ (locked_init T)

/-! ## §4. Open ticks and the log of acknowledgements. -/

/-- **What happens to an open tick**: it ends, or keeps what it has published. -/
theorem tick_kept {P P' : State τ} {a : Action τ} (h : step settings P a = some P') {u : τ}
    {k : Tick} (hk : P.tick u = some k) :
    (∃ now, a = .commit u now) ∨ a = .rollback u
      ∨ ∃ k', P'.tick u = some k' ∧ ∀ x ∈ k.batch, x ∈ k'.batch := by
  rcases step_cases h with ⟨e, rfl, -, -, rfl⟩ | ⟨t, ids, rfl, hnone, -, -, rfl⟩ |
    ⟨t, answer, l, row, rfl, hl, hnext, rfl⟩ | ⟨t, now, l, rows, rfl, -, -, -, rfl⟩ |
    ⟨t, l, rfl, -, rfl⟩
  · exact Or.inr (Or.inr ⟨k, hk, fun _ hx => hx⟩)
  · -- a tick claims its rows
    have hne : u ≠ t := by
      intro hc
      rw [hc, hnone] at hk
      cases hk
    exact Or.inr (Or.inr ⟨k, (Function.update_of_ne hne _ _).trans hk, fun _ hx => hx⟩)
  · -- a row is published
    refine Or.inr (Or.inr ?_)
    by_cases hu : u = t
    · subst hu
      obtain rfl := Option.some.inj (hk.symm.trans hl)
      refine ⟨_, Function.update_self .., fun x hx => ?_⟩
      rw [Tick.batch_publish hnext]
      exact List.mem_append_left _ hx
    · exact ⟨k, (Function.update_of_ne hu _ _).trans hk, fun _ hx => hx⟩
  · by_cases hu : u = t
    · exact Or.inl ⟨now, by rw [hu]⟩
    · exact Or.inr (Or.inr ⟨k, (Function.update_of_ne hu _ _).trans hk, fun _ hx => hx⟩)
  · by_cases hu : u = t
    · exact Or.inr (Or.inl (by rw [hu]))
    · exact Or.inr (Or.inr ⟨k, (Function.update_of_ne hu _ _).trans hk, fun _ hx => hx⟩)

/-- **How the log grows.** -/
theorem acked_step {P P' : State τ} {a : Action τ} (h : step settings P a = some P') :
    P'.acked = P.acked
    ∨ ∃ t answer k row, a = .publish t answer ∧ P.tick t = some k ∧ k.next settings = some row
        ∧ (outcome settings row answer).isAcked = true ∧ P'.acked = P.acked ++ [row.id] := by
  rcases step_cases h with ⟨e, rfl, -, -, rfl⟩ | ⟨t, ids, rfl, -, -, -, rfl⟩ |
    ⟨t, answer, k, row, rfl, hk, hnext, rfl⟩ | ⟨t, now, k, rows, rfl, -, -, -, rfl⟩ |
    ⟨t, k, rfl, -, rfl⟩
  · exact Or.inl rfl
  · exact Or.inl rfl
  · by_cases hack : (outcome settings row answer).isAcked = true
    · exact Or.inr ⟨t, answer, k, row, rfl, hk, hnext, hack, if_pos hack⟩
    · exact Or.inl (if_neg hack)
  · exact Or.inl rfl
  · exact Or.inl rfl

/-- Nothing is taken off the log. -/
theorem acked_mono {P P' : State τ} {a : Action τ} (h : step settings P a = some P') {id : Uuid}
    (hid : id ∈ P.acked) : id ∈ P'.acked := by
  rcases acked_step h with hsame | ⟨_, _, _, _, -, -, -, -, hgrown⟩
  · rw [hsame]
    exact hid
  · rw [hgrown]
    exact List.mem_append_left _ hid

/-- Every acknowledgement that an open tick has seen is in the log. -/
def Logged (settings : Settings) (P : State τ) : Prop :=
  ∀ t k, P.tick t = some k → ∀ x ∈ k.batch, (outcomeOf settings x).isAcked = true →
    x.1.id ∈ P.acked

theorem Logged.step {P P' : State τ} {a : Action τ} (hP : Logged settings P)
    (h : OutboxRelay.step settings P a = some P') : Logged settings P' := by
  intro u k' hk' x hx hack
  rcases tick_step h hk' with hold | ⟨ids, -, -, rfl⟩ | ⟨answer, k, row, rfl, hk, hnext, rfl⟩
  · exact acked_mono h (hP u k' hold x hx hack)
  · -- nothing has been published yet
    have hnil : Tick.batch ⟨claimed P ids, []⟩ = [] := List.zip_nil_right
    rw [hnil] at hx
    cases hx
  · rw [Tick.batch_publish hnext] at hx
    rcases List.mem_append.mp hx with hx | hx
    · exact acked_mono h (hP u k hk x hx hack)
    · obtain rfl := List.mem_singleton.mp hx
      simp only [OutboxRelay.step, hk, hnext, Option.map_some, Option.some.injEq] at h
      subst h
      have hack' : (outcome settings row answer).isAcked = true := hack
      show row.id ∈ (if _ then P.acked ++ [row.id] else P.acked)
      rw [if_pos hack']
      exact List.mem_append_right _ List.mem_cons_self

theorem fifth_len : 1 ≤ (Uuid.ofNat 5).str.length ∧ (Uuid.ofNat 5).str.length ≤ 128 :=
  EventEnvelope.uuid_len _

/-- Two rows with events that can be read, the first one a second older. -/
def sentEvent (n : Nat) : EventEnvelope where
  event_id := Uuid.ofNat n
  event_type := "payments.payment_captured"
  schema_version := 1
  aggregate_type := "Payment"
  aggregate_id := (Uuid.ofNat 5).str
  payload := .dict []
  event_type_len := EventEnvelope.paymentCaptured_len
  schema_version_ge := EventEnvelope.firstVersion_ge
  aggregate_type_len := EventEnvelope.payment_len
  aggregate_id_len := fifth_len

def waitingRow (n : Nat) : OutboxEvent where
  id := Uuid.ofNat n
  aggregate_type := "Payment"
  aggregate_id := (Uuid.ofNat 5).str
  event_type := "payments.payment_captured"
  topic := "payments.events"
  payload := .obj ((sentEvent n).dumpFields (.obj []))
  dedupe_id := toString n
  processed := false
  created_at := n
  processed_at := none
  attempt_count := 0
  failed := false
  last_error := none

def twoRows : Table OutboxEvent := ⟨[waitingRow 1, waitingRow 2], by decide +kernel⟩

theorem twoRows_new : ∀ e ∈ twoRows.rows, New e := by
  intro e he
  rcases List.mem_cons.mp he with rfl | he
  · exact ⟨rfl, rfl, rfl⟩
  · rw [List.mem_singleton.mp he]
    exact ⟨rfl, rfl, rfl⟩

def relaySettings : Settings := ⟨50, 10⟩

/-- The broker acknowledges a message, is not there, or something else is raised. -/
def acknowledged : Answer := ⟨Uuid.ofNat 0, .ok ()⟩

def unreachable : Answer :=
  ⟨Uuid.ofNat 0, .error ⟨.brokerUnavailableError, "Kafka publish timed out.", []⟩⟩

def crashed : Answer := ⟨Uuid.ofNat 0, .error ⟨.runtimeError, "boom", []⟩⟩

end Nimbus.OutboxRelay
