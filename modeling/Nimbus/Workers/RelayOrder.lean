/-
  Nimbus.Workers.RelayOrder
  ─────────────────────────
  **IN WHICH ORDER THE ROWS OF ONE AGGREGATE ARE PUBLISHED.**

  `_claim_batch` sorts by `created_at`, and a batch is published in its order:
  so a relay that works alone and meets no error acknowledges the older row
  first.  Three things break the order.  SKIP LOCKED passes over an older row
  that another relay holds; the loop goes on after an unexpected error; and a
  permanent error leaves no trace when the batch is rolled back.  Where no step
  of a run does one of these, the order holds in all its states.

    • `Older`    — two rows of one aggregate and topic, in the order of their
                   `created_at`;
    • `Orderly`  — the steps that do none of the three;
    • `Gone`     — a row that has been acknowledged, or never will be;
    • `Ordered`  — the invariant, `Ordered.step` — **kept by orderly steps**;
    • `publication_order` — **the order of every orderly run.**
-/
import Nimbus.Workers.RelayLifecycle

namespace Nimbus.OutboxRelay

open Lib

variable {τ : Type} {settings : Settings}

/-! ## §1. Orderly steps. -/

/-- `e` comes before `e'` among the rows of one aggregate and topic. -/
structure Older (e e' : OutboxEvent) : Prop where
  topic : e.topic = e'.topic
  aggregate_id : e.aggregate_id = e'.aggregate_id
  created_at : e.created_at < e'.created_at

instance (e e' : OutboxEvent) : Decidable (Older e e') :=
  decidable_of_iff
    (e.topic = e'.topic ∧ e.aggregate_id = e'.aggregate_id ∧ e.created_at < e'.created_at)
    ⟨fun h => ⟨h.1, h.2.1, h.2.2⟩, fun h => ⟨h.topic, h.aggregate_id, h.created_at⟩⟩

instance (row : OutboxEvent) : Decidable (Fresh row) :=
  inferInstanceAs (Decidable (row.processed = false ∧ row.failed = false))

/-- A claim of `ids` passes over no older row that waits in the hands of another
relay.  Here and below a row that has been acknowledged before does not count. -/
def PassesNone (P : State τ) (ids : List Uuid) : Prop :=
  ∀ e' ∈ claimed P ids, ∀ e ∈ P.table.rows, Older e e' → Fresh e →
    P.lock e.id = none ∨ e.id ∈ P.acked

/-- The tick has met no unexpected error at a row older than the next one. -/
def NoneSkipped (settings : Settings) (P : State τ) (k : Tick) (row : OutboxEvent) : Prop :=
  ∀ x ∈ k.batch, Older x.1 row → (outcomeOf settings x).isUnexpected = true → x.1.id ∈ P.acked

/-- The tick has seen no acknowledgement after a permanent error at an older
row. -/
def NoneOvertaken (settings : Settings) (P : State τ) (k : Tick) : Prop :=
  ∀ x ∈ k.batch, ∀ y ∈ k.batch, Older x.1 y.1 → (outcomeOf settings x).isPermanent = true →
    (outcomeOf settings y).isAcked = true → x.1.id ∈ P.acked

instance (P : State τ) (ids : List Uuid) : Decidable (PassesNone P ids) := by
  unfold PassesNone
  infer_instance

instance (P : State τ) (k : Tick) (row : OutboxEvent) :
    Decidable (NoneSkipped settings P k row) := by
  unfold NoneSkipped
  infer_instance

instance (P : State τ) (k : Tick) : Decidable (NoneOvertaken settings P k) := by
  unfold NoneOvertaken
  infer_instance

section

variable [DecidableEq τ]

/-- No claim passes over an older row of the same aggregate that another relay
holds; no row is acknowledged after an older one of its batch has met an
unexpected error; no batch is rolled back in which a row was acknowledged after
an older one had met a permanent error. -/
def Orderly (settings : Settings) (P : State τ) (a : Action τ) : Prop :=
  (step settings P a).isSome = true →
    match a with
    | .claim _ ids => PassesNone P ids
    | .publish t answer => ∀ k ∈ P.tick t, ∀ row ∈ k.next settings,
        (outcome settings row answer).isAcked = true → NoneSkipped settings P k row
    | .rollback t => ∀ k ∈ P.tick t, NoneOvertaken settings P k
    | .produce _ => True
    | .commit _ _ => True

instance (P : State τ) (a : Action τ) : Decidable (Orderly settings P a) := by
  unfold Orderly
  cases a <;> infer_instance

/-- The step does not claim the row. -/
def Unclaimed (settings : Settings) (id : Uuid) (P : State τ) (a : Action τ) : Prop :=
  ∀ t ids, a = .claim t ids → (step settings P a).isSome = true → id ∉ ids

end

/-! ## §2. One row, and two rows of one batch. -/

/-- No relay will ever send the row again. -/
def Closed (settings : Settings) (e : OutboxEvent) : Prop :=
  e.processed = true ∨ e.failed = true
    ∨ (settings.outbox_relay_max_attempts : Int) ≤ e.attempt_count

/-- The row has been acknowledged, or never will be. -/
def Gone (settings : Settings) (id : Uuid) (P : State τ) : Prop :=
  id ∈ P.acked ∨ ∃ e, P.table.lookup id = some e ∧ Closed settings e

/-- A tick has met a permanent error at the row `i` and an acknowledgement at
the row `j`. -/
def Doomed (settings : Settings) (i j : Uuid) (P : State τ) : Prop :=
  ∃ t k x y, P.tick t = some k ∧ x ∈ k.batch ∧ y ∈ k.batch ∧ x.1.id = i ∧ y.1.id = j
    ∧ (outcomeOf settings x).isPermanent = true ∧ (outcomeOf settings y).isAcked = true

section Settles

variable {x : OutboxEvent × Answer} {row : OutboxEvent}

/-- A tick leaves a row in its place. -/
theorem Settles.place (h : Settles settings x row) :
    row.topic = x.1.topic ∧ row.aggregate_id = x.1.aggregate_id
      ∧ row.created_at = x.1.created_at := by
  have hassign : ∀ o : Outcome, (o.assign x.1).topic = x.1.topic
      ∧ (o.assign x.1).aggregate_id = x.1.aggregate_id
      ∧ (o.assign x.1).created_at = x.1.created_at := by
    intro o
    cases o <;> exact ⟨rfl, rfl, rfl⟩
  rcases h.row with rfl | ⟨-, now, rfl⟩
  · exact hassign _
  · exact hassign _

/-- A row that has met a permanent error is committed as failed. -/
theorem Settles.permanent (h : Settles settings x row)
    (hperm : (outcomeOf settings x).isPermanent = true) : row.failed = true := by
  rw [h.fields.1]
  show ((outcomeOf settings x).assign x.1).failed = true
  cases ho : outcomeOf settings x with
  | permanent exc => rfl
  | exceeded => rw [ho] at hperm; cases hperm
  | acked => rw [ho] at hperm; cases hperm
  | unavailable exc => rw [ho] at hperm; cases hperm
  | unexpected exc => rw [ho] at hperm; cases hperm

/-- A row without attempts left is committed as failed. -/
theorem Settles.exceeded (h : Settles settings x row)
    (hmax : (settings.outbox_relay_max_attempts : Int) ≤ x.1.attempt_count) :
    row.failed = true := by
  have ho : outcomeOf settings x = .exceeded := if_pos hmax
  rw [h.fields.1]
  show ((outcomeOf settings x).assign x.1).failed = true
  rw [ho]
  rfl

end Settles

/-- Only a row with attempts left is acknowledged. -/
theorem attempts_of_acked {row : OutboxEvent} {answer : Answer}
    (h : (outcome settings row answer).isAcked = true) :
    row.attempt_count < settings.outbox_relay_max_attempts := by
  by_contra hmax
  have ho : outcome settings row answer = .exceeded := if_pos (by omega)
  rw [ho] at h
  cases h

/-- The rows of a tick: those it has published, the next one, and the rest. -/
theorem Tick.rows_split {k : Tick} {row : OutboxEvent} (hnext : k.next settings = some row) :
    ∃ rest, k.rows = k.batch.map Prod.fst ++ row :: rest := by
  unfold Tick.next at hnext
  split at hnext
  next => cases hnext
  next =>
    have hlen : k.answers.length < k.rows.length := (List.getElem?_eq_some_iff.mp hnext).1
    have hrow : k.rows[k.answers.length] = row := (List.getElem?_eq_some_iff.mp hnext).2
    have htake : k.batch.map Prod.fst = k.rows.take k.answers.length := by
      show (k.rows.zip k.answers).map Prod.fst = _
      have hle : (k.rows.take (min k.rows.length k.answers.length)).length
          ≤ (k.answers.take (min k.rows.length k.answers.length)).length := by
        rw [List.length_take, List.length_take]
        omega
      rw [List.zip_eq_zip_take_min, List.map_fst_zip hle]
      congr 1
      omega
    refine ⟨k.rows.drop (k.answers.length + 1), ?_⟩
    rw [htake, ← hrow, ← List.drop_eq_getElem_cons hlen, List.take_append_drop]

/-- In a batch sorted by `created_at` the loop comes to the older row first. -/
theorem Tick.published_older {k : Tick} {row r : OutboxEvent}
    (hsorted : k.rows.Pairwise fun e e' => e.created_at ≤ e'.created_at)
    (hnext : k.next settings = some row) (hr : r ∈ k.rows) (hlt : r.created_at < row.created_at) :
    ∃ x ∈ k.batch, x.1 = r := by
  cases Tick.rows_split hnext with
  | intro rest hsplit =>
      rw [hsplit] at hr hsorted
      have hlater : ∀ e ∈ rest, row.created_at ≤ e.created_at :=
        (List.pairwise_cons.mp (List.pairwise_append.mp hsorted).2.1).1
      rcases List.mem_append.mp hr with hr | hr
      · exact List.mem_map.mp hr
      · -- the next row and those after it are not older than the next row
        rcases List.mem_cons.mp hr with rfl | hr
        · omega
        · have hle := hlater r hr
          omega

/-- The row the loop comes to next has not been published by this tick. -/
theorem Tick.next_not_published {k : Tick} {row : OutboxEvent}
    (hnodup : (k.rows.map (·.id)).Nodup) (hnext : k.next settings = some row)
    {x : OutboxEvent × Answer} (hx : x ∈ k.batch) : x.1.id ≠ row.id := by
  cases Tick.rows_split hnext with
  | intro rest hsplit =>
      rw [hsplit, List.map_append, List.nodup_append] at hnodup
      refine hnodup.2.2 x.1.id ?_ row.id ?_
      · exact List.mem_map.mpr ⟨x.1, List.mem_map.mpr ⟨x, hx, rfl⟩, rfl⟩
      · exact List.mem_map.mpr ⟨row, List.mem_cons_self, rfl⟩

theorem Tick.next_mem {k : Tick} {row : OutboxEvent} (hnext : k.next settings = some row) :
    row ∈ k.rows := by
  unfold Tick.next at hnext
  split at hnext
  next => cases hnext
  next => exact List.mem_of_getElem? hnext

/-- While the loop goes on, no row of the batch has met an unavailable broker. -/
theorem Tick.next_available {k : Tick} {row : OutboxEvent} (hnext : k.next settings = some row) :
    Available settings k.batch := by
  by_contra h
  have hfast : (publishBatch settings k.batch).fail_fast = true :=
    publishRows_unavailable h k.batch.length _
  unfold Tick.next at hnext
  rw [if_pos hfast] at hnext
  cases hnext

/-! ## §3. The invariant. -/

/-- What holds of the rows `i` and `j`, the first one older, once both are in the
table. -/
structure Ordered (settings : Settings) (i j : Uuid) (P : State τ) : Prop where
  locked : Locked P
  logged : Logged settings P
  sorted : ∀ t k, P.tick t = some k → k.rows.Pairwise fun e e' => e.created_at ≤ e'.created_at
  pair : ∃ e e', P.table.lookup i = some e ∧ P.table.lookup j = some e' ∧ Older e e'
  -- who holds the younger row holds the older one, too
  together : ∀ t k, P.tick t = some k → j ∈ k.rows.map (·.id) →
    i ∈ k.rows.map (·.id) ∨ Gone settings i P
  behind : j ∈ P.acked → Gone settings i P ∨ Doomed settings i j P
  order : FirstBefore i j P.acked

variable {P P' : State τ} {a : Action τ} {i j : Uuid}

theorem Older.ids {e e' : OutboxEvent} (h : Older e e') (he : P.table.lookup i = some e)
    (he' : P.table.lookup j = some e') : i ≠ j := by
  intro hij
  rw [hij, he'] at he
  obtain rfl := Option.some.inj he
  have hlt := h.created_at
  omega

/-- **What an orderly acknowledgement of the younger row leaves behind.** -/
theorem behind_publish (hP : Ordered settings i j P) {t : τ} {answer : Answer} {k : Tick}
    {row : OutboxEvent} (hk : P.tick t = some k) (hnext : k.next settings = some row)
    (hack : (outcome settings row answer).isAcked = true) (hrow : row.id = j)
    (hnone : NoneSkipped settings P k row) :
    Gone settings i P ∨ ∃ x ∈ k.batch, x.1.id = i ∧ (outcomeOf settings x).isPermanent = true := by
  have hmem : j ∈ k.rows.map (·.id) := List.mem_map.mpr ⟨row, Tick.next_mem hnext, hrow⟩
  rcases hP.together t k hk hmem with hi | hgone
  · obtain ⟨r, hr, rfl⟩ := List.mem_map.mp hi
    obtain ⟨e, e', he, he', holder⟩ := hP.pair
    obtain rfl := Option.some.inj (he.symm.trans (hP.locked.rows t k hk r hr).2.1)
    subst hrow
    obtain rfl := Option.some.inj
      (he'.symm.trans (hP.locked.rows t k hk row (Tick.next_mem hnext)).2.1)
    -- the loop has been through the older row: how did it end there?
    obtain ⟨x, hx, rfl⟩ := Tick.published_older (hP.sorted t k hk) hnext hr holder.created_at
    cases ho : outcomeOf settings x with
    | exceeded =>
        refine Or.inl (Or.inr ⟨x.1, he, Or.inr (Or.inr ?_)⟩)
        by_contra hmax
        have hne : outcomeOf settings x ≠ .exceeded := by
          show outcome settings x.1 x.2 ≠ .exceeded
          unfold outcome
          rw [if_neg hmax]
          split
          · exact fun hc => nomatch hc
          · split_ifs <;> exact fun hc => nomatch hc
        exact hne ho
    | acked => exact Or.inl (Or.inl (hP.logged t k hk x hx (by rw [ho]; rfl)))
    | unavailable exc =>
        have havail := Tick.next_available hnext x hx
        rw [ho] at havail
        cases havail
    | permanent exc => exact Or.inr ⟨x, hx, rfl, by rw [ho]; rfl⟩
    | unexpected exc => exact Or.inl (Or.inl (hnone x hx holder (by rw [ho]; rfl)))
  · exact Or.inl hgone

/-- **The older row is not acknowledged for the first time after the younger
one.** -/
theorem acked_first (hP : Ordered settings i j P) {t : τ} {answer : Answer} {k : Tick}
    {row : OutboxEvent} (hk : P.tick t = some k) (hnext : k.next settings = some row)
    (hack : (outcome settings row answer).isAcked = true) (hrow : row.id = i)
    (hj : j ∈ P.acked) : i ∈ P.acked := by
  subst hrow
  obtain ⟨hlock, hlookup, hfresh⟩ := hP.locked.rows t k hk row (Tick.next_mem hnext)
  rcases hP.behind hj with hgone | ⟨t', k', x, y, hk', hx, -, hid, -, -, -⟩
  · rcases hgone with hacked | ⟨e, he, hclosed⟩
    · exact hacked
    · -- a closed row is not sent
      obtain rfl := Option.some.inj (he.symm.trans hlookup)
      have hmax := attempts_of_acked hack
      rcases hclosed with hp | hf | hge
      · exact absurd (hfresh.1.symm.trans hp) (by decide)
      · exact absurd (hfresh.2.symm.trans hf) (by decide)
      · omega
  · -- the tick that has met the error would be the same one
    have hlock' := (hP.locked.rows t' k' hk' x.1 (Tick.row_mem hx)).1
    rw [hid, hlock] at hlock'
    obtain rfl := Option.some.inj hlock'
    obtain rfl := Option.some.inj (hk.symm.trans hk')
    exact absurd hid (Tick.next_not_published (hP.locked.nodup t k hk) hnext hx)

/-- **Who claims the younger row claims the older one, too**, where the claim
passes over nothing. -/
theorem together_claim {e e' : OutboxEvent} {ids : List Uuid} (he : P.table.lookup i = some e)
    (he' : P.table.lookup j = some e') (holder : Older e e') (hclaims : Claims settings P ids)
    (hnone : PassesNone P ids) (hj : j ∈ ids) : i ∈ ids ∨ Gone settings i P := by
  have hid : e.id = i := Table.key_of_lookup he
  have hid' : e'.id = j := Table.key_of_lookup he'
  have hclaimed : e' ∈ claimed P ids := mem_claimed.mpr ⟨hid' ▸ hj, hid' ▸ he'⟩
  by_cases hfresh : Fresh e
  · rcases hnone e' hclaimed e (Table.mem_of_lookup he) holder hfresh with hfree | hacked
    · -- the row can be selected, and is older than one that has been
      have hsel : e ∈ selectable P := mem_selectable.mpr ⟨hid ▸ he, hfresh, hfree⟩
      refine Or.inl ?_
      by_contra hnot
      have hle := hclaims.oldest e hsel (hid ▸ hnot) e' hclaimed
      have hlt := holder.created_at
      omega
    · exact Or.inr (Or.inl (hid ▸ hacked))
  · -- it is processed or failed
    refine Or.inr (Or.inr ⟨e, he, ?_⟩)
    unfold Fresh at hfresh
    unfold Closed
    cases hp : e.processed with
    | true => exact Or.inl rfl
    | false =>
        cases hf : e.failed with
        | true => exact Or.inr (Or.inl rfl)
        | false => exact absurd ⟨hp, hf⟩ hfresh

variable [DecidableEq τ]

/-- A row keeps its place in the table. -/
theorem place_step (hP : Locked P) (h : step settings P a = some P') {e : OutboxEvent}
    (he : P.table.lookup i = some e) :
    ∃ e', P'.table.lookup i = some e' ∧ e'.topic = e.topic ∧ e'.aggregate_id = e.aggregate_id
      ∧ e'.created_at = e.created_at := by
  rcases row_step hP h i with hsame | ⟨_, -, -, -, hnone, -⟩ |
    ⟨t, now, k, x, row, -, -, -, -, -, hlookup, hsettles, hrow⟩
  · exact ⟨e, hsame.trans he, rfl, rfl, rfl⟩
  · rw [he] at hnone
    cases hnone
  · obtain rfl := Option.some.inj (he.symm.trans hlookup)
    exact ⟨row, hrow, hsettles.place⟩

/-- **A row that is gone stays so.** -/
theorem Gone.step (hP : Locked P) (h : OutboxRelay.step settings P a = some P')
    (hgone : Gone settings i P) : Gone settings i P' := by
  unfold Gone at hgone
  rcases hgone with hacked | ⟨e, he, hclosed⟩
  · exact Or.inl (acked_mono h hacked)
  · refine Or.inr ?_
    rcases row_step hP h i with hsame | ⟨_, -, -, -, hnone, -⟩ |
      ⟨t, now, k, x, row, -, hk, -, hx, -, hlookup, hsettles, hrow⟩
    · exact ⟨e, hsame.trans he, hclosed⟩
    · rw [he] at hnone
      cases hnone
    · -- of the closed rows a tick claims only those without attempts left
      obtain rfl := Option.some.inj (he.symm.trans hlookup)
      have hfresh : Fresh x.1 := hP.claimed_fresh hk hx
      have hmax : (settings.outbox_relay_max_attempts : Int) ≤ x.1.attempt_count := by
        rcases hclosed with hp | hf | hmax
        · exact absurd (hfresh.1.symm.trans hp) (by decide)
        · exact absurd (hfresh.2.symm.trans hf) (by decide)
        · exact hmax
      exact ⟨row, hrow, Or.inr (Or.inl (hsettles.exceeded hmax))⟩

/-- **An orderly end of a tick**: the row at which it has met a permanent error
is gone by then. -/
theorem Doomed.step (hP : Locked P) (hpair : ∃ e e', P.table.lookup i = some e
      ∧ P.table.lookup j = some e' ∧ Older e e')
    (hC : Orderly settings P a) (h : OutboxRelay.step settings P a = some P')
    (hdoomed : Doomed settings i j P) : Gone settings i P' ∨ Doomed settings i j P' := by
  obtain ⟨t, k, x, y, hk, hx, hy, rfl, rfl, hperm, hack⟩ := hdoomed
  rcases tick_kept h hk with ⟨now, rfl⟩ | rfl | ⟨k', hk', hkeep⟩
  · -- committed: the row has failed
    obtain ⟨row, hrow, hsettles⟩ := commit_row hP hk h hx
    exact Or.inl (Or.inr ⟨row, hrow, Or.inr (Or.inl (hsettles.permanent hperm))⟩)
  · -- rolled back: it has been acknowledged before
    have holder : Older x.1 y.1 := by
      obtain ⟨e, e', he, he', hee'⟩ := hpair
      obtain rfl := Option.some.inj (he.symm.trans (hP.rows t k hk x.1 (Tick.row_mem hx)).2.1)
      obtain rfl := Option.some.inj (he'.symm.trans (hP.rows t k hk y.1 (Tick.row_mem hy)).2.1)
      exact hee'
    have hnone : NoneOvertaken settings P k := hC (h ▸ rfl) k hk
    exact Or.inl (Or.inl (acked_mono h (hnone x hx y hy holder hperm hack)))
  · exact Or.inr ⟨t, k', x, y, hk', hkeep x hx, hkeep y hy, rfl, rfl, hperm, hack⟩

/-- **An orderly step keeps the rows in order.** -/
theorem Ordered.step (hP : Ordered settings i j P) (hC : Orderly settings P a)
    (h : OutboxRelay.step settings P a = some P') : Ordered settings i j P' := by
  have hne : i ≠ j := by
    obtain ⟨e, e', he, he', holder⟩ := hP.pair
    exact holder.ids he he'
  have hsome : (OutboxRelay.step settings P a).isSome = true := h ▸ rfl
  refine ⟨hP.locked.step h, hP.logged.step h, ?_, ?_, ?_, ?_, ?_⟩
  · -- only a claim brings new rows, and it sorts them
    intro t k' hk'
    rcases tick_step h hk' with hold | ⟨ids, -, hclaims, rfl⟩ | ⟨answer, k, row, -, hk, -, rfl⟩
    · exact hP.sorted t k' hold
    · exact hclaims.sorted
    · exact hP.sorted t k hk
  · obtain ⟨e, e', he, he', holder⟩ := hP.pair
    obtain ⟨f, hf, htopic, hagg, hcreated⟩ := place_step hP.locked h he
    obtain ⟨f', hf', htopic', hagg', hcreated'⟩ := place_step hP.locked h he'
    have hlt := holder.created_at
    exact ⟨f, f', hf, hf', htopic.trans (holder.topic.trans htopic'.symm),
      hagg.trans (holder.aggregate_id.trans hagg'.symm), by omega⟩
  · intro t k' hk' hj
    rcases tick_step h hk' with hold | ⟨ids, rfl, hclaims, rfl⟩ | ⟨answer, k, row, -, hk, -, rfl⟩
    · exact (hP.together t k' hold hj).imp_right fun hgone => hgone.step hP.locked h
    · obtain ⟨e, e', he, he', holder⟩ := hP.pair
      have hids : (claimed P ids).map (·.id) = ids := hclaims.ids
      show i ∈ (claimed P ids).map (·.id) ∨ _
      rw [hids]
      have hj' : j ∈ ids := hids ▸ hj
      exact (together_claim he he' holder hclaims (hC hsome) hj').imp_right
        fun hgone => hgone.step hP.locked h
    · exact (hP.together t k hk hj).imp_right fun hgone => hgone.step hP.locked h
  · intro hj
    by_cases hold : j ∈ P.acked
    · rcases hP.behind hold with hgone | hdoomed
      · exact Or.inl (hgone.step hP.locked h)
      · exact hdoomed.step hP.locked hP.pair hC h
    · -- the younger row has just been acknowledged
      rcases acked_step h with hsame | ⟨t, answer, k, row, rfl, hk, hnext, hack, hgrown⟩
      · exact absurd (hsame ▸ hj) hold
      · have hrow : row.id = j := by
          rw [hgrown] at hj
          rcases List.mem_append.mp hj with hj | hj
          · exact absurd hj hold
          · exact (List.mem_singleton.mp hj).symm
        have hnone : NoneSkipped settings P k row := hC hsome k hk row hnext hack
        rcases behind_publish hP hk hnext hack hrow hnone with hgone | ⟨x, hx, hid, hperm⟩
        · exact Or.inl (hgone.step hP.locked h)
        · refine Or.inr ⟨t, { k with answers := k.answers ++ [answer] }, x, (row, answer), ?_, ?_, ?_,
            hid, hrow, hperm, hack⟩
          · simp only [OutboxRelay.step, hk, hnext, Option.map_some, Option.some.injEq] at h
            subst h
            exact Function.update_self ..
          · rw [Tick.batch_publish hnext]
            exact List.mem_append_left _ hx
          · rw [Tick.batch_publish hnext]
            exact List.mem_append_right _ List.mem_cons_self
  · rcases acked_step h with hsame | ⟨t, answer, k, row, rfl, hk, hnext, hack, hgrown⟩
    · rw [hsame]
      exact hP.order
    · rw [hgrown]
      exact hP.order.snoc hne fun hrow hj => acked_first hP hk hnext hack hrow hj

/-! ## §4. Every run. -/

/-- A row that nobody has claimed is in no batch, and not acknowledged. -/
structure Untouched (id : Uuid) (P : State τ) : Prop where
  tick : ∀ t k, P.tick t = some k → id ∉ k.rows.map (·.id)
  acked : id ∉ P.acked

theorem Untouched.step (hP : Untouched i P) (hC : Unclaimed settings i P a)
    (h : OutboxRelay.step settings P a = some P') : Untouched i P' := by
  refine ⟨fun t k' hk' => ?_, ?_⟩
  · rcases tick_step h hk' with hold | ⟨ids, rfl, hclaims, rfl⟩ | ⟨answer, k, row, -, hk, -, rfl⟩
    · exact hP.tick t k' hold
    · show i ∉ (claimed P ids).map (·.id)
      rw [hclaims.ids]
      exact hC t ids rfl (h ▸ rfl)
    · exact hP.tick t k hk
  · rcases acked_step h with hsame | ⟨t, answer, k, row, -, hk, hnext, -, hgrown⟩
    · rw [hsame]
      exact hP.acked
    · rw [hgrown]
      intro hc
      rcases List.mem_append.mp hc with hc | hc
      · exact hP.acked hc
      · refine hP.tick t k hk ?_
        exact List.mem_map.mpr ⟨row, Tick.next_mem hnext, (List.mem_singleton.mp hc).symm⟩

/-- What holds of the ticks of every run. -/
theorem sorted_run (settings : Settings) (T : Table OutboxEvent) (as : List (Action τ)) :
    Logged settings (relayRun settings T as)
      ∧ ∀ t k, (relayRun settings T as).tick t = some k →
        k.rows.Pairwise fun e e' => e.created_at ≤ e'.created_at := by
  refine (machine settings).run_invariant (I := fun Q : State τ => Logged settings Q
    ∧ ∀ t k, Q.tick t = some k → k.rows.Pairwise fun e e' => e.created_at ≤ e'.created_at)
    ?_ as (State.init T) ⟨fun _ _ hk => (nomatch hk), fun _ _ hk => (nomatch hk)⟩
  intro Q a Q' hQ h
  refine ⟨hQ.1.step h, fun t k' hk' => ?_⟩
  rcases tick_step h hk' with hold | ⟨ids, -, hclaims, rfl⟩ | ⟨answer, k, row, -, hk, -, rfl⟩
  · exact hQ.2 t k' hold
  · exact hclaims.sorted
  · exact hQ.2 t k hk

/-- **The order of publication.**  Two rows of one aggregate and topic, both in
the table before the younger one is claimed for the first time: in every run
that goes on with orderly steps, whatever the number of relays, the older one is
acknowledged first, if both ever are. -/
theorem publication_order {T : Table OutboxEvent} (as bs : List (Action τ)) {e e' : OutboxEvent}
    (holder : Older e e') (he : e ∈ (relayRun settings T as).table.rows)
    (he' : e' ∈ (relayRun settings T as).table.rows)
    (hunclaimed : (machine settings).Along (Unclaimed settings e'.id) (State.init T) as)
    (horderly : (machine settings).Along (Orderly settings) (relayRun settings T as) bs) :
    ∀ P ∈ (machine settings).trace (State.init T) (as ++ bs), FirstBefore e.id e'.id P.acked := by
  have huntouched := (machine settings).run_invariant_along (I := Untouched e'.id)
    (C := Unclaimed settings e'.id) (fun _ _ _ hP hC h => hP.step hC h) as (State.init T)
    ⟨fun _ _ hk => (nomatch hk), List.not_mem_nil⟩ hunclaimed
  intro P hmem
  rcases (machine settings).mem_trace_append.mp hmem with hbefore | hafter
  · exact firstBefore_of_notMem (huntouched P hbefore).acked
  · -- the rows are there, and the younger one has not been touched
    have hstart := huntouched _ (Machine.run_mem_trace _ _ as)
    obtain ⟨hlogged, hsorted⟩ := sorted_run settings T as
    have hordered : Ordered settings e.id e'.id (relayRun settings T as) :=
      { locked := locked_run settings T as
        logged := hlogged
        sorted := hsorted
        pair := ⟨e, e', Table.lookup_some_iff.mpr ⟨he, rfl⟩, Table.lookup_some_iff.mpr ⟨he', rfl⟩,
          holder⟩
        together := fun t k hk hj => absurd hj (hstart.tick t k hk)
        behind := fun hj => absurd hj hstart.acked
        order := firstBefore_of_notMem hstart.acked }
    have hP := (machine settings).run_invariant_along (I := Ordered settings e.id e'.id)
      (C := Orderly settings) (fun _ _ _ hQ hC h => hQ.step hC h) bs _ hordered horderly P hafter
    exact hP.order

/-- The broker goes away between the two rows; another relay sends both. -/
def orderlyRun : List (Action Nat) :=
  [.claim 0 [Uuid.ofNat 1, Uuid.ofNat 2], .publish 0 acknowledged, .publish 0 unreachable,
    .rollback 0, .claim 1 [Uuid.ofNat 1, Uuid.ofNat 2], .publish 1 acknowledged,
    .publish 1 acknowledged, .commit 1 7]

theorem publication_order_again :
    (relayRun relaySettings twoRows ([] ++ orderlyRun)).acked
        = [Uuid.ofNat 1, Uuid.ofNat 1, Uuid.ofNat 2]
      ∧ FirstBefore (waitingRow 1).id (waitingRow 2).id
        (relayRun relaySettings twoRows ([] ++ orderlyRun)).acked :=
  ⟨by decide +kernel, publication_order [] orderlyRun (by decide +kernel) List.mem_cons_self
    (List.mem_cons_of_mem _ List.mem_cons_self) trivial (by decide +kernel) _
    (Machine.run_mem_trace _ _ _)⟩

/-- Two relays that claim one row each, and a relay whose first row meets an
unexpected error before its commit is lost. -/
def overtakingRun : List (Action Nat) :=
  [.claim 0 [Uuid.ofNat 1], .claim 1 [Uuid.ofNat 2], .publish 1 acknowledged,
    .publish 0 acknowledged]

def skippingRun : List (Action Nat) :=
  [.claim 0 [Uuid.ofNat 1, Uuid.ofNat 2], .publish 0 crashed, .publish 0 acknowledged,
    .rollback 0, .claim 0 [Uuid.ofNat 1, Uuid.ofNat 2], .publish 0 acknowledged]

/-- The younger row is acknowledged first; no row has failed. -/
theorem publication_order_fails :
    Older (waitingRow 1) (waitingRow 2)
    ∧ ¬ FirstBefore (waitingRow 1).id (waitingRow 2).id
        (relayRun ⟨1, 10⟩ twoRows overtakingRun).acked
    ∧ ¬ FirstBefore (waitingRow 1).id (waitingRow 2).id
        (relayRun relaySettings twoRows skippingRun).acked
    ∧ ∀ e ∈ (relayRun relaySettings twoRows skippingRun).table.rows, e.failed = false := by
  decide +kernel

/-- The third cause: a permanent error at the older row, then a rollback. -/
example : ¬ FirstBefore (waitingRow 1).id (waitingRow 2).id (relayRun relaySettings twoRows
    [.claim 0 [Uuid.ofNat 1, Uuid.ofNat 2],
      .publish 0 ⟨Uuid.ofNat 0, .error ⟨.infrastructureError, "Kafka publish failed.", []⟩⟩,
      .publish 0 acknowledged, .rollback 0, .claim 0 [Uuid.ofNat 1, Uuid.ofNat 2],
      .publish 0 acknowledged]).acked := by
  decide +kernel

end Nimbus.OutboxRelay
