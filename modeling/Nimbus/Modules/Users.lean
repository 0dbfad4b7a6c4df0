/-
  Nimbus.Modules.Users
  ────────────────────
  **REGISTERING USERS.**

  `create_user` looks for the normalized email, and adds a user if it finds none;
  whatever `IntegrityError` the flush then raises is reported as a taken email.
  Registrations run concurrently over the users table, which two CHECKs and a
  unique index guard.  `str.lower`, PostgreSQL's `lower()` and argon2 are
  parameters.

    • `createUser`      — the service, `registrations` — any number of them at once;
    • `User.violation`  — what the table refuses;
    • `contract`        — what holds of each registration among the others;
    • `createUser_iff`  — **a registration reports a duplicate exactly when there
                          is one, exactly where the table's CHECKs accept the
                          email or its column cannot hold it.**
-/
import Nimbus.Core.Database
import Nimbus.Core.Uuid
import Nimbus.Lib.Pool

namespace Nimbus.Users

open Lib Lib.Prog

/-! ## §1. The table. -/

/-- What is taken from outside: Python's `str.lower`, PostgreSQL's `lower()`, and
argon2's encoded hash of a salt and a password, which is ASCII text of about a
hundred characters. -/
structure Platform where
  lower : String → String
  pgLower : String → String
  argon2 : String → String → String
  argon2_length : ∀ salt plain, (argon2 salt plain).length ≤ 255
  argon2_ascii : ∀ salt plain, '\x00' ∉ (argon2 salt plain).toList

/-- A row of `users.users`. -/
structure User where
  id : Uuid
  email : String
  password_hash : String

/-- A `User` object before its flush, which generates the id. -/
structure NewUser where
  email : String
  password_hash : String
deriving DecidableEq

/-- Users are kept by the unique index on `email`. -/
instance : Keyed User String where
  key := User.email

@[simp] theorem key_user (u : User) : key u = u.email := rfl

/-- PostgreSQL has no text with a NUL character. -/
def hasNul (s : String) : Bool := s.toList.contains '\x00'

/-- What a VARCHAR(255) column can hold: excess blanks are cut off, any other
excess is refused. -/
def varchar255 (s : String) : Bool := !hasNul s && (s.toList.drop 255).all (· = ' ')

/-- The two CHECKs, on a text that the column can hold. -/
def checked (p : Platform) (email : String) : Bool :=
  decide (3 ≤ email.length ∧ email.length ≤ 254) && decide (email = p.pgLower email)

/-- What the table refuses.  (What is left of an email when its excess blanks are
cut off has 255 characters, which the first CHECK refuses as well.) -/
def User.violation (p : Platform) (u : User) : Except Exn Unit := do
  fits (varchar255 u.email) "email"
  fits (varchar255 u.password_hash) "password_hash"
  check (3 ≤ u.email.length ∧ u.email.length ≤ 254) "ck_users_email_length"
  check (u.email = p.pgLower u.email) "ck_users_email_lowercased"

theorem varchar255_of_length {s : String} (hn : '\x00' ∉ s.toList) (hl : s.length ≤ 255) :
    varchar255 s = true := by
  have hdrop : s.toList.drop 255 = [] := List.drop_eq_nil_of_le hl
  simp [varchar255, hasNul, hn, hdrop]

/-- **Every way an INSERT can meet the column and the CHECKs.** -/
theorem violation_cases (p : Platform) {u : User} (h : varchar255 u.password_hash = true) :
    (varchar255 u.email = false ∧ ∃ e, u.violation p = .error e ∧ e.cls = .dataError)
      ∨ (varchar255 u.email = true ∧ checked p u.email = false
        ∧ ∃ e, u.violation p = .error e ∧ e.cls = .integrityError)
      ∨ (varchar255 u.email = true ∧ checked p u.email = true ∧ u.violation p = .ok ()) := by
  unfold User.violation fits check checked
  rw [h]
  -- PostgreSQL coerces the values to the column types before it tests the check constraint
  cases hv : varchar255 u.email with
  | false => exact Or.inl ⟨rfl, _, rfl, rfl⟩
  | true =>
      by_cases hl : 3 ≤ u.email.length ∧ u.email.length ≤ 254
      · by_cases hp : u.email = p.pgLower u.email
        · refine Or.inr (Or.inr ⟨rfl, ?_, ?_⟩)
          · simp [hl, ← hp]
          · simp [hl, ← hp]
            rfl
        · refine Or.inr (Or.inl ⟨rfl, by simp [hp], ?_⟩)
          simp only [hl, hp]
          exact ⟨_, rfl, rfl⟩
      · refine Or.inr (Or.inl ⟨rfl, by simp [hl], ?_⟩)
        simp only [hl]
        exact ⟨_, rfl, rfl⟩

/-! ## §2. The service. -/

/-- `CreateUserRequest`. -/
structure CreateUserRequest where
  email : String
  password : String

/-- What the service asks of argon2 and of its session. -/
inductive Op where
  | hash (plain : String)
  /-- `SELECT … WHERE email = …`. -/
  | selectByEmail (email : String)
  /-- `session.add` of a new object. -/
  | add (user : NewUser)
  | flush
  | rollback

def Ans : Op → Type
  | .hash _ => String
  | .selectByEmail _ => Option User
  | .add _ => Unit
  | .flush => Unit
  | .rollback => Unit

abbrev UserProg (α : Type) := Prog Op Ans Exn α

def call (op : Op) : UserProg (Ans op) := .call op .ret

/-- `_normalize_email`. -/
def normalizeEmail (p : Platform) (email : String) : String :=
  p.lower (String.ofList (Uuid.strip Uuid.isSpace email.toList))

/-- `hash_password`. -/
def hashPassword (plain : String) : UserProg String :=
  if plain = "" then throw ⟨.passwordError, "Cannot hash an empty password.", []⟩
  else call (.hash plain)

/-- `_get_user_by_email`. -/
def getUserByEmail (email : String) : UserProg (Option User) := call (.selectByEmail email)

/-- The `UserAlreadyExistsError` of `create_user`. -/
def alreadyExists (email : String) : Exn :=
  ⟨.userAlreadyExistsError, "Email is already registered.", [("email", .str email)]⟩

/-- The `except` clause around the flush. -/
def onFlushError (email : String) (exc : Exn) : UserProg Unit :=
  if exc.isA .integrityError then do
    call .rollback
    throw (alreadyExists email)
  else throw exc

/-- `create_user`. -/
def createUser (p : Platform) (request : CreateUserRequest) : UserProg NewUser := do
  let email := normalizeEmail p request.email
  let encoded ← hashPassword request.password
  let existing ← getUserByEmail email
  if existing.isSome then throw (alreadyExists email)
  let user : NewUser := ⟨email, encoded⟩
  call (.add user)
  tryCatch (call .flush) (onFlushError email)
  return user

/-! ## §3. Sessions and the database. -/

/-- What happened to a session.  A record for the statements about it: no
operation reads it. -/
structure Record where
  /-- The committed users that its last SELECT or INSERT met. -/
  met : List User
  /-- An operation has failed for a reason of the environment's. -/
  failed : Bool

/-- The shared state; a session makes one call, so one object at most waits in it
for the flush, and `used` lists the UUIDs there are. -/
structure World (τ : Type) where
  store : TxStore User τ
  pending : τ → Option NewUser
  used : List Uuid
  record : τ → Record

/-- What the environment decides about one operation. -/
structure Choice where
  fault : Option Fault := none
  salt : String := ""
  uuid : Uuid := Uuid.ofNat 0

namespace World

variable {τ : Type} [DecidableEq τ]

/-- No session is open. -/
def init (T : Table User) : World τ :=
  ⟨TxStore.ofTable T, fun _ => none, T.rows.map User.id, fun _ => ⟨[], false⟩⟩

/-- The committed users. -/
def users (w : World τ) : List User := w.store.base.rows

def setPending (w : World τ) (t : τ) (user : Option NewUser) : World τ :=
  { w with pending := Function.update w.pending t user }

def setRecord (w : World τ) (t : τ) (record : Record) : World τ :=
  { w with record := Function.update w.record t record }

/-- A statement of `t` has met the committed users. -/
def meet (w : World τ) (t : τ) : World τ :=
  w.setRecord t { w.record t with met := w.users }

/-- An operation of `t` has failed. -/
def fail (w : World τ) (t : τ) : World τ :=
  w.setRecord t { w.record t with failed := true }

/-- ROLLBACK: the new object leaves the session as well. -/
def rollback (w : World τ) (t : τ) : World τ :=
  { w.setPending t none with store := w.store.rollback t }

/-- A new session opens. -/
def enter (w : World τ) (t : τ) : World τ := (w.rollback t).setRecord t ⟨[], false⟩

end World

/-- What the unique index answers a taken email with. -/
def duplicateEmail : Exn := ⟨.integrityError, "duplicate email", []⟩

section Exec

variable {τ : Type} [DecidableEq τ] (p : Platform)

/-- An INSERT: `none` while another transaction has inserted the email and not
ended. -/
def insertUser (s : TxStore User τ) (t : τ) (u : User) : Option (Except Exn (TxStore User τ)) :=
  match u.violation p with
  | .error e => some (.error e)
  | .ok () =>
      match s.view t u.email with
      | some _ => some (.error duplicateEmail)
      | none => (s.put t u).map .ok

/-- `session.flush()`.  A UUID is never generated twice. -/
def World.flush (c : Choice) (w : World τ) (t : τ) : Option (Except Exn Unit × World τ) :=
  match w.pending t with
  | none => some (.ok (), w)
  | some user =>
      if c.uuid ∈ w.used then none
      else
        match insertUser p w.store t ⟨c.uuid, user.email, user.password_hash⟩ with
        | none => none
        | some (.error e) => some (.error e, { w.meet t with used := c.uuid :: w.used })
        | some (.ok store) =>
            some (.ok (),
              { (w.meet t).setPending t none with store := store, used := c.uuid :: w.used })

/-- The owner of the session commits: flush, then COMMIT.  `none` when either
fails or has to wait. -/
def World.commit (c : Choice) (w : World τ) (t : τ) : Option (World τ) :=
  match c.fault with
  | some _ => none
  | none =>
      match w.flush p c t with
      | some (.ok (), w') => some { w' with store := w'.store.commit t }
      | _ => none

/-- `SELECT … WHERE email = …`, of a text that can be sent. -/
def World.selectByEmail (w : World τ) (t : τ) (email : String) : Except Exn (Option User) :=
  if hasNul email then .error ⟨.dataError, "email", []⟩ else .ok (w.store.view t email)

/-- An operation that the environment can make fail. -/
def unlessFault {α : Type} (c : Choice) (w : World τ) (t : τ)
    (x : Option (Except Exn α × World τ)) : Option (Except Exn α × World τ) :=
  match c.fault with
  | some f => some (.error f.exn, w.fail t)
  | none => x

/-- One operation of session `t`; `none` when it has to wait. -/
def exec (c : Choice) (t : τ) : (op : Op) → World τ → Option (Except Exn (Ans op) × World τ)
  | .hash plain, w => unlessFault c w t (some (.ok (p.argon2 c.salt plain), w))
  | .selectByEmail email, w => unlessFault c w t (some (w.selectByEmail t email, w.meet t))
  | .add user, w => some (.ok (), w.setPending t (some user))
  | .flush, w => unlessFault c w t (w.flush p c t)
  | .rollback, w => unlessFault c w t (some (.ok (), w.rollback t))

/-- Registrations at once, each in a session of its own, which its owner commits
after a normal return. -/
def registrations : System CreateUserRequest Op Ans Exn NewUser (World τ) τ Choice where
  body := createUser p
  exec := exec p
  enter := fun t w => w.enter t
  mayCommit := fun _ r => r.isOk
  commit := fun c t w => w.commit p c t
  rollback := fun t w => w.rollback t

end Exec

/-! ## §4. What an operation does. -/

section Laws

variable {τ : Type} [DecidableEq τ] {p : Platform} {c : Choice} {t u : τ} {w w' : World τ}

/-- What only session `t` can change. -/
structure Local where
  part : TxPart User String
  pending : Option NewUser
  record : Record

def World.local (w : World τ) (t : τ) : Local := ⟨w.store.part t, w.pending t, w.record t⟩

theorem local_ext {l l' : Local} (hp : l.part = l'.part) (hu : l.pending = l'.pending)
    (hr : l.record = l'.record) : l = l' := by
  cases l
  cases l'
  cases hp
  cases hu
  cases hr
  rfl

/-- Everything the table accepts, committed or not. -/
structure Inv (p : Platform) (w : World τ) : Prop where
  wf : w.store.WF
  base : ∀ r ∈ w.users, r.violation p = .ok ()
  writes : ∀ t, ∀ r ∈ w.store.writes t, r.violation p = .ok ()

/-- The table after an operation of `t`: the same, or with one more uncommitted
user that it accepts, or with nothing left of the transaction. -/
inductive Change (p : Platform) (t : τ) (s : TxStore User τ) : TxStore User τ → Prop where
  | same : Change p t s s
  | put {r s'} : r.violation p = .ok () → s.put t r = some s' → Change p t s s'
  | release : Change p t s (s.rollback t)

/-- An operation of `t` changes the table in one of these ways, and nothing of the
other sessions. -/
structure Steps (p : Platform) (t : τ) (w w' : World τ) : Prop where
  store : Change p t w.store w'.store
  pending : ∀ u, u ≠ t → w'.pending u = w.pending u
  record : ∀ u, u ≠ t → w'.record u = w.record u

theorem setPending_of_ne (w : World τ) (user : Option NewUser) (h : u ≠ t) :
    (w.setPending t user).pending u = w.pending u := Function.update_of_ne h ..

theorem setRecord_of_ne (w : World τ) (r : Record) (h : u ≠ t) :
    (w.setRecord t r).record u = w.record u := Function.update_of_ne h ..

@[simp] theorem setPending_self (w : World τ) (user : Option NewUser) :
    (w.setPending t user).pending t = user := Function.update_self ..

@[simp] theorem setRecord_self (w : World τ) (r : Record) :
    (w.setRecord t r).record t = r := Function.update_self ..

theorem steps_refl (p : Platform) (t : τ) (w : World τ) : Steps p t w w :=
  ⟨.same, fun _ _ => rfl, fun _ _ => rfl⟩

theorem steps_record (r : Record) : Steps p t w (w.setRecord t r) :=
  ⟨.same, fun _ _ => rfl, fun _ hu => setRecord_of_ne w r hu⟩

theorem steps_rollback : Steps p t w (w.rollback t) :=
  ⟨.release, fun _ hu => setPending_of_ne w none hu, fun _ _ => rfl⟩

/-- **What an INSERT does.** -/
theorem insertUser_cases {s : TxStore User τ} {r : User} {x : Except Exn (TxStore User τ)}
    (h : insertUser p s t r = some x) :
    (∃ e, r.violation p = .error e ∧ x = .error e)
      ∨ (r.violation p = .ok () ∧ (s.view t r.email).isSome = true ∧ x = .error duplicateEmail)
      ∨ (r.violation p = .ok () ∧ s.view t r.email = none ∧ ∃ s', s.put t r = some s'
        ∧ x = .ok s') := by
  unfold insertUser at h
  cases hv : r.violation p with
  | error e =>
      rw [hv] at h
      exact Or.inl ⟨e, rfl, (Option.some.inj h).symm⟩
  | ok _ =>
      rw [hv] at h
      cases hs : s.view t r.email with
      | some r' =>
          rw [hs] at h
          exact Or.inr (Or.inl ⟨rfl, rfl, (Option.some.inj h).symm⟩)
      | none =>
          rw [hs] at h
          obtain ⟨s', hput, rfl⟩ := Option.map_eq_some_iff.mp h
          exact Or.inr (Or.inr ⟨rfl, rfl, s', hput, rfl⟩)

/-- **What a flush does**: nothing, or one INSERT. -/
theorem flush_cases {r : Except Exn Unit} (h : w.flush p c t = some (r, w')) :
    (w.pending t = none ∧ r = .ok () ∧ w' = w)
      ∨ ∃ user, w.pending t = some user
        ∧ ((∃ e, insertUser p w.store t ⟨c.uuid, user.email, user.password_hash⟩ = some (.error e)
            ∧ r = .error e ∧ w' = { w.meet t with used := c.uuid :: w.used })
          ∨ ∃ store, insertUser p w.store t ⟨c.uuid, user.email, user.password_hash⟩
              = some (.ok store) ∧ r = .ok ()
            ∧ w' = { (w.meet t).setPending t none with store := store, used := c.uuid :: w.used }) := by
  unfold World.flush at h
  cases hp : w.pending t with
  | none =>
      rw [hp] at h
      obtain ⟨rfl, rfl⟩ := Prod.mk.inj (Option.some.inj h)
      exact Or.inl ⟨rfl, rfl, rfl⟩
  | some user =>
      rw [hp] at h
      refine Or.inr ⟨user, rfl, ?_⟩
      dsimp only at h
      split at h
      next => cases h
      next =>
        -- a refused row stays pending, an inserted one leaves the session
        cases hi : insertUser p w.store t ⟨c.uuid, user.email, user.password_hash⟩ with
        | none =>
            rw [hi] at h
            cases h
        | some x =>
            rw [hi] at h
            cases x with
            | error e =>
                obtain ⟨rfl, rfl⟩ := Prod.mk.inj (Option.some.inj h)
                exact Or.inl ⟨e, rfl, rfl, rfl⟩
            | ok store =>
                obtain ⟨rfl, rfl⟩ := Prod.mk.inj (Option.some.inj h)
                exact Or.inr ⟨store, rfl, rfl, rfl⟩

/-- An operation fails for a reason of the environment's, or does what it does. -/
theorem unlessFault_cases {α : Type} {x : Option (Except Exn α × World τ)} {r : Except Exn α}
    (h : unlessFault c w t x = some (r, w')) :
    (∃ f : Fault, r = .error f.exn ∧ w' = w.fail t) ∨ x = some (r, w') := by
  unfold unlessFault at h
  cases hf : c.fault with
  | none =>
      rw [hf] at h
      exact Or.inr h
  | some f =>
      rw [hf] at h
      obtain ⟨rfl, rfl⟩ := Prod.mk.inj (Option.some.inj h)
      exact Or.inl ⟨f, rfl, rfl⟩

theorem flush_steps {r : Except Exn Unit} (h : w.flush p c t = some (r, w')) : Steps p t w w' := by
  rcases flush_cases h with ⟨-, -, rfl⟩ | ⟨user, -, ⟨e, -, -, rfl⟩ | ⟨store, hi, -, rfl⟩⟩
  · exact steps_refl p t w'
  · exact ⟨.same, fun _ _ => rfl, fun _ hu => setRecord_of_ne w _ hu⟩
  · refine ⟨?_, fun _ hu => setPending_of_ne (w.meet t) none hu, fun _ hu => setRecord_of_ne w _ hu⟩
    rcases insertUser_cases hi with ⟨_, _, hx⟩ | ⟨_, _, hx⟩ | ⟨hv, -, s', hput, hx⟩
    · cases hx
    · cases hx
    · obtain rfl := Except.ok.inj hx
      exact .put hv hput

/-- **What an operation of `t` does to the table and to the other sessions.** -/
theorem exec_steps {op : Op} {r : Except Exn (Ans op)} (h : exec p c t op w = some (r, w')) :
    Steps p t w w' := by
  cases op with
  | hash plain =>
      rcases unlessFault_cases h with ⟨f, -, rfl⟩ | hx
      · exact steps_record _
      · obtain ⟨-, rfl⟩ := Prod.mk.inj (Option.some.inj hx)
        exact steps_refl p t w
  | selectByEmail email =>
      rcases unlessFault_cases h with ⟨f, -, rfl⟩ | hx
      · exact steps_record _
      · obtain ⟨-, rfl⟩ := Prod.mk.inj (Option.some.inj hx)
        exact steps_record _
  | add user =>
      obtain ⟨-, rfl⟩ := Prod.mk.inj (Option.some.inj h)
      exact ⟨.same, fun _ hu => setPending_of_ne w _ hu, fun _ _ => rfl⟩
  | flush =>
      rcases unlessFault_cases h with ⟨f, -, rfl⟩ | hx
      · exact steps_record _
      · exact flush_steps hx
  | rollback =>
      rcases unlessFault_cases h with ⟨f, -, rfl⟩ | hx
      · exact steps_record _
      · obtain ⟨-, rfl⟩ := Prod.mk.inj (Option.some.inj hx)
        exact steps_rollback

/-- A commit is a flush, and then the table after the COMMIT. -/
theorem commit_cases (h : w.commit p c t = some w') :
    ∃ w₁, Steps p t w w₁ ∧ w' = { w₁ with store := w₁.store.commit t } := by
  unfold World.commit at h
  split at h
  next => cases h
  next =>
    split at h
    next w₁ hf => exact ⟨w₁, flush_steps hf, (Option.some.inj h).symm⟩
    next => cases h

/-! ## §5. Every operation keeps the table and the other sessions. -/

theorem change_inv {s' : TxStore User τ} (hi : Inv p w) (h : Change p t w.store s') :
    s'.WF ∧ (∀ r ∈ s'.base.rows, r.violation p = .ok ())
      ∧ ∀ v, ∀ r ∈ s'.writes v, r.violation p = .ok () := by
  cases h with
  | same => exact ⟨hi.wf, hi.base, hi.writes⟩
  | put hv hput =>
      -- the row put was tested just now, the others were tested when they came in
      refine ⟨TxStore.put_wf hi.wf hput, ?_, fun v r hr => ?_⟩
      · rw [TxStore.put_base hput]
        exact hi.base
      · obtain ⟨-, rfl⟩ := TxStore.put_eq_some hput
        dsimp only at hr
        by_cases hvt : v = t
        · subst hvt
          rw [Function.update_self] at hr
          rcases List.mem_cons.mp hr with rfl | hr
          · exact hv
          · exact hi.writes v r hr
        · rw [Function.update_of_ne hvt] at hr
          exact hi.writes v r hr
  | release =>
      refine ⟨TxStore.release_wf t hi.wf, hi.base, fun v r hr => ?_⟩
      by_cases hvt : v = t
      · subst hvt
        have hnil : ((w.store.rollback v).writes v) = [] := Function.update_self ..
        rw [hnil] at hr
        cases hr
      · have hsame : (w.store.rollback t).writes v = w.store.writes v := Function.update_of_ne hvt ..
        rw [hsame] at hr
        exact hi.writes v r hr

theorem change_part {s s' : TxStore User τ} (htu : t ≠ u) (h : Change p u s s') :
    s'.part t = s.part t := by
  cases h with
  | same => rfl
  | put _ hput => exact TxStore.part_put_of_ne htu hput
  | release => exact TxStore.part_rollback_of_ne htu

theorem steps_inv (hi : Inv p w) (h : Steps p t w w') : Inv p w' := by
  obtain ⟨hwf, hbase, hwrites⟩ := change_inv hi h.store
  exact ⟨hwf, hbase, hwrites⟩

theorem steps_local (htu : t ≠ u) (h : Steps p u w w') : w'.local t = w.local t :=
  local_ext (change_part htu h.store) (h.pending t htu) (h.record t htu)

/-- **A commit publishes what the table has accepted.** -/
theorem commit_inv (hi : Inv p w) (h : w.commit p c t = some w') : Inv p w' := by
  obtain ⟨w₁, hsteps, rfl⟩ := commit_cases h
  have hi₁ := steps_inv hi hsteps
  have hrel := change_inv hi₁ (Change.release (t := t))
  refine ⟨TxStore.commit_wf t hi₁.wf, fun r hr => ?_, hrel.2.2⟩
  have hlook : (w₁.store.commit t).base.lookup (key r) = some r :=
    Table.lookup_some_iff.mpr ⟨hr, rfl⟩
  rw [TxStore.lookup_commit] at hlook
  rcases Option.or_eq_some_iff.mp hlook with hw | ⟨-, hb⟩
  · exact hi₁.writes t r (List.mem_of_find?_eq_some hw)
  · exact hi₁.base r (Table.mem_of_lookup hb)

theorem commit_local (htu : t ≠ u) (hi : Inv p w) (h : w.commit p c u = some w') :
    w'.local t = w.local t := by
  obtain ⟨w₁, hsteps, rfl⟩ := commit_cases h
  refine local_ext ?_ (hsteps.pending t htu) (hsteps.record t htu)
  exact (TxStore.part_commit_of_ne htu (steps_inv hi hsteps).wf).trans (change_part htu hsteps.store)

theorem enter_inv (hi : Inv p w) : Inv p (w.enter t) := by
  have hr : Inv p (w.rollback t) := steps_inv hi steps_rollback
  exact ⟨hr.wf, hr.base, hr.writes⟩

theorem enter_local_of_ne (htu : t ≠ u) : (w.enter u).local t = w.local t :=
  local_ext (TxStore.part_rollback_of_ne htu) (setPending_of_ne w none htu)
    (setRecord_of_ne (w.rollback u) _ htu)

/-- In a new session nothing has happened. -/
theorem enter_local : (w.enter t).local t = ⟨TxPart.empty, none, ⟨[], false⟩⟩ :=
  local_ext (TxStore.part_release w.store t) (setPending_self w none)
    (setRecord_self (w.rollback t) _)

/-! ## §6. What a registration reports. -/

/-- A user with this email is among them. -/
def Taken (email : String) (users : List User) : Prop := ∃ u ∈ users, u.email = email

/-- `create_user` raises `UserAlreadyExistsError`. -/
def RaisesAlreadyExists (r : Except Exn NewUser) : Prop :=
  ∃ e, r = .error e ∧ e.isA .userAlreadyExistsError = true

/-- No CHECK of the table refuses the email: both accept it, or it does not come
so far, since its column cannot hold it. -/
def NoCheckRefuses (p : Platform) (email : String) : Prop :=
  varchar255 email = true → checked p email = true

/-- The outcome tells whether the email is taken, exactly where no CHECK refuses it. -/
def TellsTaken (p : Platform) (email : String) (r : Except Exn NewUser) (l : Local) : Prop :=
  l.record.failed = false →
    ((RaisesAlreadyExists r ↔ Taken email l.record.met) ↔ NoCheckRefuses p email)

/-- A user that the table has was accepted by its column and its CHECKs. -/
theorem accepted_of_taken {τ : Type} {w : World τ} (hi : Inv p w) {email : String}
    (h : Taken email w.users) : varchar255 email = true ∧ checked p email = true := by
  obtain ⟨r, hr, rfl⟩ := h
  have hv := hi.base r hr
  have hhash : varchar255 r.password_hash = true := by
    unfold User.violation at hv
    have hfits := (constraints_ok (constraints_ok hv).2).1
    unfold fits at hfits
    split at hfits
    next hok => exact hok
    next => cases hfits
  rcases violation_cases p hhash with ⟨-, e, he, -⟩ | ⟨-, -, e, he, -⟩ | ⟨hcol, hchk, -⟩
  · rw [hv] at he
    cases he
  · rw [hv] at he
    cases he
  · exact ⟨hcol, hchk⟩

theorem noCheckRefuses_of_taken {τ : Type} {w : World τ} (hi : Inv p w) {email : String}
    (h : Taken email w.users) : NoCheckRefuses p email := fun _ => (accepted_of_taken hi h).2

/-- A session that has written nothing sees whether the email is taken. -/
theorem view_isSome {τ : Type} {t : τ} {w : World τ} {email : String}
    (hw : w.store.writes t = []) :
    (w.store.view t email).isSome = true ↔ Taken email w.users := by
  rw [TxStore.view_of_no_writes hw]
  constructor
  · intro h
    obtain ⟨r, hr⟩ := Option.isSome_iff_exists.mp h
    exact ⟨r, Table.mem_of_lookup hr, Table.key_of_lookup hr⟩
  · rintro ⟨r, hr, rfl⟩
    rw [Table.lookup_some_iff.mpr ⟨hr, key_user r⟩]
    rfl

/-! What an outcome has to do with the email being taken. -/

theorem tells_alreadyExists {email : String} {l : Local}
    (h : Taken email l.record.met ↔ NoCheckRefuses p email) :
    TellsTaken p email (.error (alreadyExists email)) l := by
  intro _
  have hraise : RaisesAlreadyExists (.error (alreadyExists email)) := ⟨_, rfl, rfl⟩
  rw [← h]
  exact ⟨fun hiff => hiff.mp hraise, fun ht => iff_of_true hraise ht⟩

theorem tells_other {email : String} {r : Except Exn NewUser} {l : Local}
    (hr : ¬ RaisesAlreadyExists r) (ht : ¬ Taken email l.record.met)
    (hc : NoCheckRefuses p email) : TellsTaken p email r l :=
  fun _ => iff_of_true (iff_of_false hr ht) hc

theorem tells_failed {email : String} {r : Except Exn NewUser} {l : Local}
    (h : l.record.failed = true) : TellsTaken p email r l := by
  intro hf
  rw [h] at hf
  cases hf

theorem not_raises_ok (user : NewUser) : ¬ RaisesAlreadyExists (.ok user) :=
  fun ⟨_, h, _⟩ => nomatch h

theorem not_raises_dataError {e : Exn} (h : e.cls = .dataError) :
    ¬ RaisesAlreadyExists (.error e) := by
  rintro ⟨e', he, hisA⟩
  obtain rfl := Except.error.inj he
  rw [Exn.isA_of_cls h] at hisA
  cases hisA

/-! ## §7. A registration among the others. -/

/-- What the session `t` is verified against. -/
abbrev setting (p : Platform) (t : τ) : Setting Op Ans Exn (World τ) Choice Local :=
  ⟨fun c op w => exec p c t op w, Inv p, fun w => w.local t, fun _ _ => True⟩

theorem fail_failed (w : World τ) (t : τ) : ((w.fail t).local t).record.failed = true := by
  show ((w.setRecord t _).record t).failed = true
  rw [setRecord_self]

/-- After a statement that has met the committed users. -/
theorem taken_met {email : String} (h : w'.record = (w.meet t).record) :
    Taken email (w'.local t).record.met ↔ Taken email w.users := by
  have hmet : (w'.local t).record.met = w.users := by
    show (w'.record t).met = w.users
    rw [h]
    exact congrArg Record.met (setRecord_self w _)
  rw [hmet]

theorem fault_not_integrity (f : Fault) : f.exn.isA .integrityError = false := by
  cases f with
  | operational msg => rfl
  | cacheUnavailable msg => rfl
  | foreign name msg => rfl

theorem onFlushError_other {email : String} {exc : Exn} (h : exc.isA .integrityError = false) :
    onFlushError email exc = .ret (.error exc) := by
  unfold onFlushError
  rw [h]
  rfl

theorem onFlushError_integrity {email : String} {exc : Exn}
    (h : exc.isA .integrityError = true) : onFlushError email exc
      = .call .rollback (fun r => Prog.onOk (fun _ => .ret (.error (alreadyExists email))) r) := by
  unfold onFlushError
  rw [h]
  rfl

/-- After an `IntegrityError`: the rollback keeps what the flush has met. -/
theorem wlp_refused {email : String} {exc : Exn} {f : Unit → UserProg NewUser} {l : Local}
    (hexc : exc.isA .integrityError = true)
    (h : Taken email l.record.met ↔ NoCheckRefuses p email) :
    wlp (setting p t) (fun _ => True) (TellsTaken p email)
      ((onFlushError email exc).handle (Prog.onOk f)) l := by
  rw [onFlushError_integrity hexc]
  refine ⟨trivial, trivial, fun c w r w' _ hview hexec => ?_⟩
  rcases unlessFault_cases hexec with ⟨fault, rfl, rfl⟩ | hx
  · exact ⟨trivial, tells_failed (fail_failed w t)⟩
  · obtain ⟨rfl, rfl⟩ := Prod.mk.inj (Option.some.inj hx)
    refine ⟨trivial, tells_alreadyExists ?_⟩
    rw [← hview] at h
    exact h

/-- After any other exception. -/
theorem wlp_passed_on {email : String} {exc : Exn} {f : Unit → UserProg NewUser} {l : Local}
    (hexc : exc.isA .integrityError = false) (h : TellsTaken p email (.error exc) l) :
    wlp (setting p t) (fun _ => True) (TellsTaken p email)
      ((onFlushError email exc).handle (Prog.onOk f)) l := by
  rw [onFlushError_other hexc]
  exact ⟨trivial, h⟩

/-- What an INSERT raises, and what it returns after, tells whether the email is
taken; an `IntegrityError` is left to the handler. -/
theorem insertUser_tells {user : NewUser} {r : User} {x : Except Exn (TxStore User τ)}
    (hi : Inv p w) (hw : w.store.writes t = []) (hemail : r.email = user.email)
    (hh : varchar255 r.password_hash = true) (h : insertUser p w.store t r = some x) :
    (∃ e, x = .error e ∧ e.cls = .dataError ∧ ¬ Taken user.email w.users
        ∧ NoCheckRefuses p user.email)
      ∨ (∃ e, x = .error e ∧ e.cls = .integrityError
        ∧ (Taken user.email w.users ↔ NoCheckRefuses p user.email))
      ∨ ((∃ s', x = .ok s') ∧ ¬ Taken user.email w.users ∧ NoCheckRefuses p user.email) := by
  -- this transaction has written nothing, so what it sees is what is committed
  have hseen : (w.store.view t user.email).isSome = true ↔ Taken user.email w.users :=
    view_isSome hw
  have hcases := violation_cases p hh
  rw [hemail] at hcases
  rcases insertUser_cases h with ⟨e, hv, rfl⟩ | ⟨hv, hsome, rfl⟩ | ⟨hv, hnone, s', -, rfl⟩
  · rcases hcases with ⟨hcol, e', he', hcls⟩ | ⟨hcol, hchk, e', he', hcls⟩ | ⟨-, -, hok⟩
    · obtain rfl := Except.error.inj (hv.symm.trans he')
      refine Or.inl ⟨e, rfl, hcls, fun ht => ?_, fun hc => ?_⟩
      · rw [(accepted_of_taken hi ht).1] at hcol
        cases hcol
      · rw [hcol] at hc
        cases hc
    · obtain rfl := Except.error.inj (hv.symm.trans he')
      refine Or.inr (Or.inl ⟨e, rfl, hcls, iff_of_false (fun ht => ?_) (fun hc => ?_)⟩)
      · rw [(accepted_of_taken hi ht).2] at hchk
        cases hchk
      · rw [hc hcol] at hchk
        cases hchk
    · rw [hv] at hok
      cases hok
  · -- the unique index speaks only of rows that passed every check
    rw [hemail, hseen] at hsome
    exact Or.inr (Or.inl ⟨_, rfl, rfl, iff_of_true hsome (noCheckRefuses_of_taken hi hsome)⟩)
  · refine Or.inr (Or.inr ⟨⟨s', rfl⟩, fun ht => ?_, ?_⟩)
    · rw [← hseen, ← hemail, hnone] at ht
      cases ht
    · rcases hcases with ⟨-, e, he, -⟩ | ⟨-, -, e, he, -⟩ | ⟨-, hchk, -⟩
      · rw [hv] at he
        cases he
      · rw [hv] at he
        cases he
      · exact fun _ => hchk

/-- **The flush**, of a user that waits in a session which has written nothing. -/
theorem wlp_flush (user : NewUser) {l : Local} (hw : l.part.writes = [])
    (hp : l.pending = some user) (hh : varchar255 user.password_hash = true) :
    wlp (setting p t) (fun _ => True) (TellsTaken p user.email)
      (tryCatch (call .flush) (onFlushError user.email) >>= fun _ => pure user) l := by
  refine ⟨trivial, trivial, fun c w r w' hi hview hexec => ?_⟩
  subst hview
  rcases unlessFault_cases hexec with ⟨fault, rfl, rfl⟩ | hx
  · exact wlp_passed_on (fault_not_integrity fault) (tells_failed (fail_failed w t))
  · rcases flush_cases hx with ⟨hnone, -, -⟩ | ⟨user', hsome, hins⟩
    · rw [show w.pending t = some user from hp] at hnone
      cases hnone
    · obtain rfl := Option.some.inj (hp.symm.trans hsome)
      rcases hins with ⟨e, hins, rfl, rfl⟩ | ⟨store, hins, rfl, rfl⟩
      · -- the INSERT has failed
        rcases insertUser_tells (r := ⟨c.uuid, user.email, user.password_hash⟩) hi hw
            rfl hh hins with ⟨e', he, hcls, ht, hc⟩ |
          ⟨e', he, hcls, hiff⟩ | ⟨⟨s', he⟩, -, -⟩
        · obtain rfl := Except.error.inj he
          refine wlp_passed_on (Exn.isA_of_cls hcls _)
            (tells_other (not_raises_dataError hcls) (fun h => ht ((taken_met ?_).mp h)) hc)
          rfl
        · obtain rfl := Except.error.inj he
          refine wlp_refused (Exn.isA_of_cls hcls _) (Iff.trans (taken_met ?_) hiff)
          rfl
        · cases he
      · -- the user has been inserted
        rcases insertUser_tells (r := ⟨c.uuid, user.email, user.password_hash⟩) hi hw
            rfl hh hins with ⟨e, he, -⟩ | ⟨e, he, -⟩ | ⟨-, ht, hc⟩
        · cases he
        · cases he
        · refine ⟨trivial, tells_other (not_raises_ok user) (fun h => ht ((taken_met ?_).mp h)) hc⟩
          rfl

/-- What comes after `hash_password`. -/
def register (email encoded : String) : UserProg NewUser := do
  let existing ← getUserByEmail email
  if existing.isSome then throw (alreadyExists email)
  let user : NewUser := ⟨email, encoded⟩
  call (.add user)
  tryCatch (call .flush) (onFlushError email)
  return user

theorem createUser_eq (p : Platform) (request : CreateUserRequest) :
    createUser p request = hashPassword request.password >>= fun encoded =>
      register (normalizeEmail p request.email) encoded := rfl

theorem hashPassword_of_ne {plain : String} (h : plain ≠ "") :
    hashPassword plain = .call (.hash plain) .ret := if_neg h

theorem wlp_register {email encoded : String} {l : Local} (hw : l.part.writes = [])
    (hh : varchar255 encoded = true) :
    wlp (setting p t) (fun _ => True) (TellsTaken p email) (register email encoded) l := by
  refine ⟨trivial, trivial, fun c w r w' hi hview hexec => ?_⟩
  subst hview
  rcases unlessFault_cases hexec with ⟨fault, rfl, rfl⟩ | hx
  · exact ⟨trivial, tells_failed (fail_failed w t)⟩
  · obtain ⟨rfl, rfl⟩ := Prod.mk.inj (Option.some.inj hx)
    have hmet : Taken email ((w.meet t).local t).record.met ↔ Taken email w.users := taken_met rfl
    have hseen : (w.store.view t email).isSome = true ↔ Taken email w.users := view_isSome hw
    unfold World.selectByEmail
    split
    next hnul =>
      -- no row has a NUL in its email
      have hcol : varchar255 email = false := by simp [varchar255, hnul]
      refine ⟨trivial, tells_other (not_raises_dataError rfl) (fun ht => ?_) (fun hc => ?_)⟩
      · rw [(accepted_of_taken hi (hmet.mp ht)).1] at hcol
        cases hcol
      · rw [hcol] at hc
        cases hc
    next =>
      cases hv : w.store.view t email with
      | some existing =>
          rw [hv] at hseen
          have ht := hseen.mp rfl
          exact ⟨trivial, tells_alreadyExists
            (iff_of_true (hmet.mpr ht) (noCheckRefuses_of_taken hi ht))⟩
      | none =>
          refine ⟨trivial, trivial, fun c' w₁ r' w₂ hi' hview hexec' => ?_⟩
          obtain ⟨rfl, rfl⟩ := Prod.mk.inj (Option.some.inj hexec')
          have hwrites : w₁.store.writes t = [] := by
            rw [← hw]
            exact congrArg (fun l => l.part.writes) hview
          exact wlp_flush ⟨email, encoded⟩ hwrites (setPending_self w₁ _) hh

/-- **A registration in a session that has written nothing.** -/
theorem createUser_wlp {request : CreateUserRequest} {l : Local} (hw : l.part.writes = [])
    (hpw : request.password ≠ "") :
    wlp (setting p t) (fun _ => True) (TellsTaken p (normalizeEmail p request.email))
      (createUser p request) l := by
  rw [createUser_eq, hashPassword_of_ne hpw]
  refine ⟨trivial, trivial, fun c w r w' hi hview hexec => ?_⟩
  subst hview
  rcases unlessFault_cases hexec with ⟨fault, rfl, rfl⟩ | hx
  · exact ⟨trivial, tells_failed (fail_failed w t)⟩
  · obtain ⟨rfl, rfl⟩ := Prod.mk.inj (Option.some.inj hx)
    exact wlp_register hw (varchar255_of_length (p.argon2_ascii _ _) (p.argon2_length _ _))

/-- An empty password raises before anything is asked of the database. -/
theorem createUser_empty {request : CreateUserRequest} (hpw : request.password = "") :
    createUser p request = throw ⟨.passwordError, "Cannot hash an empty password.", []⟩ := by
  rw [createUser_eq, hpw]
  rfl

/-- The contract of the registrations. -/
def contract (p : Platform) : Contract (registrations p : System _ _ _ _ _ (World τ) τ _) Local where
  view := fun t w => w.local t
  inv := Inv p
  allowed := fun _ _ => True
  along := fun _ _ => True
  post := fun request r l => request.password ≠ "" →
    TellsTaken p (normalizeEmail p request.email) r l
  enter_inv := enter_inv
  enter_view := fun htu _ => enter_local_of_ne htu
  body_wlp := fun {t w} request _ => by
    show wlp (setting p t) _ _ (createUser p request) ((w.enter t).local t)
    by_cases hpw : request.password = ""
    · rw [createUser_empty hpw]
      exact ⟨trivial, fun hne => absurd hpw hne⟩
    · rw [enter_local]
      exact wlp_mono (fun _ _ h _ => h) (createUser_wlp rfl hpw)
  exec_inv := fun hi _ h => steps_inv hi (exec_steps h)
  exec_view := fun htu _ h => steps_local htu (exec_steps h)
  commit_inv := fun hi _ _ h => commit_inv hi h
  commit_view := fun htu hi h => commit_local htu hi h
  rollback_inv := fun hi => steps_inv hi steps_rollback
  rollback_view := fun htu _ => steps_local htu (steps_rollback (p := p))

/-! ## §8. Every run. -/

/-- A users table that satisfies its constraints; the unique index is the key of
the table. -/
structure UsersTable (p : Platform) where
  table : Table User
  accepted : ∀ r ∈ table.rows, r.violation p = .ok ()

theorem init_inv {τ : Type} (T : UsersTable p) : Inv p (World.init T.table : World τ) :=
  ⟨TxStore.ofTable_wf T.table, T.accepted, fun _ _ hr => nomatch hr⟩

/-- The state that a schedule leads to. -/
def after (p : Platform) (T : UsersTable p) (as : List (Action τ CreateUserRequest Choice)) :
    Pool CreateUserRequest Op Ans Exn NewUser (World τ) τ :=
  (Pool.machine (registrations p)).run (Pool.init (World.init T.table)) as

/-- **A registration reports a duplicate exactly when there is one, exactly where
no CHECK refuses the email**: in every run of concurrent registrations over every
table, for every call that has ended and that the environment has let through. -/
theorem createUser_iff (p : Platform) (T : UsersTable p)
    (as : List (Action τ CreateUserRequest Choice)) (t : τ) (request : CreateUserRequest)
    (r : Except Exn NewUser) (hend : (after p T as).thread t = some ⟨request, .ret r⟩)
    (hpw : request.password ≠ "") (hok : ((after p T as).shared.record t).failed = false) :
    (RaisesAlreadyExists r
        ↔ Taken (normalizeEmail p request.email) ((after p T as).shared.record t).met)
      ↔ NoCheckRefuses p (normalizeEmail p request.email) := by
  have hP := (contract p (τ := τ)).reachable (init_inv T) as
  exact Contract.Holds.post (contract p) hP hend hpw hok

/-- ASCII texts, and one password under one salt. -/
def asciiPlatform : Platform where
  lower s := String.ofList (s.toList.map Char.toLower)
  pgLower s := String.ofList (s.toList.map Char.toLower)
  argon2 _ _ := "$argon2id$v=19$m=65536,t=3,p=4$bmltYnVzbmltYnVzbmltYg$1PumrUddV9H39vjKvBEswuiyK9Dl9yZxgo02XBju974"
  argon2_length _ _ := by decide +kernel
  argon2_ascii _ _ := by decide +kernel

/-- No users yet. -/
def noUsers : UsersTable asciiPlatform := ⟨Table.empty, fun _ hr => nomatch hr⟩

/-- A first registration up to its end, under an email of two characters. -/
def shortEmail : CreateUserRequest := ⟨"ab", "pw"⟩

def shortEmailRun : List (Action Nat CreateUserRequest Choice) :=
  [.start 0 shortEmail, .step 0 { salt := "nimbusnimbusnimb" }, .step 0 {}, .step 0 {},
    .step 0 { uuid := Uuid.ofNat 1 }, .step 0 {}]

theorem shortEmail_ends : (after asciiPlatform noUsers shortEmailRun).thread 0
    = some ⟨shortEmail, .ret (.error (alreadyExists "ab"))⟩ := by
  rfl

/-- Its statements have met nobody, and nothing has failed. -/
theorem shortEmail_record :
    (after asciiPlatform noUsers shortEmailRun).shared.record 0 = ⟨[], false⟩ := by
  rfl

/-- The table is empty, and the email is reported as taken. -/
theorem createUser_misreports : ¬ ∀ (as : List (Action Nat CreateUserRequest Choice)) (t : Nat)
    (request : CreateUserRequest) (r : Except Exn NewUser),
    (after asciiPlatform noUsers as).thread t = some ⟨request, .ret r⟩ → request.password ≠ "" →
    ((after asciiPlatform noUsers as).shared.record t).failed = false →
    (RaisesAlreadyExists r ↔ Taken (normalizeEmail asciiPlatform request.email)
      ((after asciiPlatform noUsers as).shared.record t).met) := by
  intro h
  have hiff := h shortEmailRun 0 shortEmail _ shortEmail_ends (by decide)
    (congrArg Record.failed shortEmail_record)
  obtain ⟨u, hu, -⟩ := hiff.mp ⟨_, rfl, rfl⟩
  rw [shortEmail_record] at hu
  cases hu

theorem createUser_iff_shortEmail :
    (RaisesAlreadyExists (.error (alreadyExists "ab"))
        ↔ Taken (normalizeEmail asciiPlatform "ab")
          ((after asciiPlatform noUsers shortEmailRun).shared.record 0).met)
      ↔ NoCheckRefuses asciiPlatform (normalizeEmail asciiPlatform "ab") :=
  createUser_iff asciiPlatform noUsers shortEmailRun 0 shortEmail _ shortEmail_ends (by decide)
    (congrArg Record.failed shortEmail_record)

end Laws

end Nimbus.Users
