/-
  Nimbus.Modules.Accounts
  ───────────────────────
  **ACCOUNTS: REGISTERING, LOGGING IN, LOOKING UP.**

  The three services of the users module at once, each call in a session of its
  own over the one users table.  What argon2 says about a hash and a password is
  a parameter; all that is asked of it is that a hash of its own verifies the
  password it was made of, and is not malformed.

    • `verifyPassword`, `authenticateUser`, `getUserById` — the services;
    • `accounts`            — any number of their calls at once;
    • `Sound`               — what holds of the users, committed or not;
    • `contract`, `effects` — each call among the others, and what it commits;
    • `accounts_registered` — **the accounts are those of the committed
                              registrations, and whoever is logged in has one;**
    • `registered_holds`    — **a committed registration holds from then on.**
-/
import Nimbus.Modules.Users

namespace Nimbus.Users.Accounts

open Lib Lib.Prog

/-! ## §1. Passwords. -/

/-- How `PasswordHasher.verify` ends; an `InvalidHashError` with its text. -/
inductive Verdict where
  | verified
  | mismatch
  | verificationError
  | invalidHash (text : String)

/-- `PasswordHasher.verify`, and what is known of it on the hashes of argon2. -/
structure Verifier (p : Platform) where
  verify : String → String → Verdict
  own : ∀ salt plain, verify (p.argon2 salt plain) plain = .verified
  formed : ∀ salt plain other text, verify (p.argon2 salt plain) other ≠ .invalidHash text
  nonempty : ∀ salt plain, p.argon2 salt plain ≠ ""

variable {p : Platform}

/-- `verify_password`. -/
def verifyPassword (v : Verifier p) (plain encoded : String) : Except Exn Bool :=
  if plain = "" ∨ encoded = "" then .ok false
  else
    match v.verify encoded plain with
    | .verified => .ok true
    | .mismatch | .verificationError => .ok false
    | .invalidHash text => .error ⟨.passwordError, "Malformed password hash: " ++ text, []⟩

theorem verifyPassword_own (v : Verifier p) (salt : String) {plain : String} (h : plain ≠ "") :
    verifyPassword v plain (p.argon2 salt plain) = .ok true := by
  unfold verifyPassword
  rw [if_neg (not_or.mpr ⟨h, v.nonempty salt plain⟩), v.own]

theorem verifyPassword_other (v : Verifier p) {salt plain other : String}
    (h : v.verify (p.argon2 salt plain) other ≠ .verified) :
    verifyPassword v other (p.argon2 salt plain) = .ok false := by
  have hformed := v.formed salt plain other
  unfold verifyPassword
  by_cases hempty : other = "" ∨ p.argon2 salt plain = ""
  · rw [if_pos hempty]
  · rw [if_neg hempty]
    cases hv : v.verify (p.argon2 salt plain) other with
    | verified => exact absurd hv h
    | mismatch => rfl
    | verificationError => rfl
    | invalidHash text => exact absurd hv (hformed text)

/-! ## §2. The services. -/

/-- `AuthenticateRequest`. -/
structure AuthenticateRequest where
  email : String
  password : String

/-- The argument of `get_user_by_id`: `uuid.UUID | str`. -/
inductive UserId where
  | uuid (id : Uuid)
  | text (s : String)

/-- What the services ask of argon2 and of their sessions. -/
inductive Op where
  | users (op : Users.Op)
  /-- `SELECT … WHERE id = …`. -/
  | selectById (id : Uuid)

def Ans : Op → Type
  | .users op => Users.Ans op
  | .selectById _ => Option User

abbrev AccountProg (α : Type) := Prog Op Ans Exn α

/-- A service that does not ask for an id. -/
def embedded {α : Type} (prog : UserProg α) : AccountProg α := prog.embed Op.users fun _ a => a

/-- The `InvalidCredentialsError` of `authenticate_user`, which says the same of an
unknown email and of a wrong password. -/
def invalidCredentials : Exn :=
  ⟨.foreign "InvalidCredentialsError", "Invalid email or password.", []⟩

/-- `authenticate_user`. -/
def authenticateUser (v : Verifier p) (request : AuthenticateRequest) : UserProg User := do
  let email := normalizeEmail p request.email
  let found ← getUserByEmail email
  match found with
  | none => throw invalidCredentials
  | some user =>
      let ok ← Prog.lift (verifyPassword v request.password user.password_hash)
      if !ok then throw invalidCredentials
      return user

/-- `uuid.UUID(user_id)`, where it is a text. -/
def UserId.uuid? : UserId → Option Uuid
  | .uuid id => some id
  | .text s => Uuid.parse s

/-- The `UserNotFoundError` of `get_user_by_id`. -/
def userNotFound (id : Uuid) : Exn :=
  ⟨.foreign "UserNotFoundError", "User does not exist.", [("user_id", .str id.str)]⟩

/-- `get_user_by_id`. -/
def getUserById (user_id : UserId) : AccountProg User :=
  match user_id.uuid? with
  | none => throw ⟨.valueError, "badly formed hexadecimal UUID string", []⟩
  | some id => do
      let found ← Prog.call (.selectById id) .ret
      match found with
      | none => throw (userNotFound id)
      | some user => return user

/-- The calls, and what they return. -/
inductive Call where
  | create (request : CreateUserRequest)
  | authenticate (request : AuthenticateRequest)
  | getUserById (user_id : UserId)

inductive Reply where
  | created (user : NewUser)
  | found (user : User)

def body (v : Verifier p) : Call → AccountProg Reply
  | .create request => (embedded (createUser p request)).map .created
  | .authenticate request => (embedded (authenticateUser v request)).map .found
  | .getUserById user_id => (getUserById user_id).map .found

/-! ## §3. The system. -/

section System

variable {τ : Type} [DecidableEq τ] (p)

/-- The user with this id as session `t` sees the table. -/
def selectById (w : World τ) (t : τ) (id : Uuid) : Option User :=
  (w.store.writes t ++ w.users).find? (fun u => u.id = id)

/-- One operation of session `t`; `none` when it has to wait. -/
def exec (c : Choice) (t : τ) : (op : Op) → World τ → Option (Except Exn (Ans op) × World τ)
  | .users op, w => Users.exec p c t op w
  | .selectById id, w => unlessFault c w t (some (.ok (selectById w t id), w.meet t))

/-- Calls at once, each in a session of its own, which its owner commits after a
normal return. -/
def accounts (v : Verifier p) : System Call Op Ans Exn Reply (World τ) τ Choice where
  body := body v
  exec := exec p
  enter := fun t w => w.enter t
  mayCommit := fun _ r => r.isOk
  commit := fun c t w => w.commit p c t
  rollback := fun t w => w.rollback t

end System

/-! ## §4. The users, committed or not. -/

section Laws

variable {τ : Type} [DecidableEq τ] {c : Choice} {s t : τ} {w w' : World τ}

/-- A row that is committed, or waits in a session for its commit. -/
def Stored (w : World τ) (row : User) : Prop := row ∈ w.users ∨ ∃ t, row ∈ w.store.writes t

/-- What holds of the users: an uncommitted one is new, no two have one id, and
whoever a statement has met is still there. -/
structure Sound (p : Platform) (w : World τ) : Prop where
  inv : Inv p w
  fresh : ∀ t, ∀ row ∈ w.store.writes t, ¬ Taken row.email w.users
  used : ∀ row, Stored w row → row.id ∈ w.used
  ids : ∀ row row', Stored w row → Stored w row' → row.id = row'.id → row = row'
  met : ∀ t, ∀ user ∈ (w.record t).met, user ∈ w.users

/-- What an operation of `t` makes of the table and of the ids. -/
inductive Writes (t : τ) (w : World τ) : TxStore User τ → List Uuid → Prop where
  | nothing {used} : w.used ⊆ used → Writes t w w.store used
  | insert {row store} : w.store.view t row.email = none → row.id ∉ w.used →
      w.store.put t row = some store → Writes t w store (row.id :: w.used)
  | release : Writes t w (w.store.rollback t) w.used

structure Moves (t : τ) (w w' : World τ) : Prop where
  writes : Writes t w w'.store w'.used
  met : ∀ s, ∀ user ∈ (w'.record s).met, user ∈ (w.record s).met ∨ user ∈ w.users

theorem Writes.base {store : TxStore User τ} {used : List Uuid} (h : Writes t w store used) :
    store.base = w.store.base := by
  cases h with
  | nothing _ => rfl
  | insert _ _ hput => exact TxStore.put_base hput
  | release => rfl

theorem Moves.users (h : Moves t w w') : w'.users = w.users := congrArg Table.rows h.writes.base

/-- What the sessions have written they had written before, but for one new row. -/
theorem Writes.written {store : TxStore User τ} {used : List Uuid} (h : Writes t w store used) :
    (∀ s, ∀ row ∈ store.writes s, row ∈ w.store.writes s)
      ∨ ∃ new : User, w.store.view t new.email = none ∧ new.id ∉ w.used ∧ new.id ∈ used
        ∧ ∀ s, ∀ row ∈ store.writes s, row ∈ w.store.writes s ∨ row = new := by
  cases h with
  | nothing _ => exact Or.inl fun _ _ hrow => hrow
  | @insert new _ hview hid hput =>
      obtain ⟨-, rfl⟩ := TxStore.put_eq_some hput
      refine Or.inr ⟨new, hview, hid, List.mem_cons_self, fun s row hrow => ?_⟩
      dsimp only at hrow
      by_cases hst : s = t
      · subst hst
        rw [Function.update_self] at hrow
        exact (List.mem_cons.mp hrow).symm
      · rw [Function.update_of_ne hst] at hrow
        exact Or.inl hrow
  | release => exact Or.inl fun _ _ hrow => (TxStore.mem_writes_release hrow).2

theorem Writes.used {store : TxStore User τ} {used : List Uuid} (h : Writes t w store used) :
    w.used ⊆ used := by
  cases h with
  | nothing hsub => exact hsub
  | insert _ _ _ => exact List.subset_cons_self _ _
  | release => exact List.Subset.refl _

/-- A session that does not see an email would not see it committed either. -/
theorem not_taken_of_view {τ : Type} {t : τ} {w : World τ} {email : String}
    (h : w.store.view t email = none) : ¬ Taken email w.users := by
  rintro ⟨user, huser, rfl⟩
  have hlook : w.store.base.lookup user.email = some user :=
    Table.lookup_some_iff.mpr ⟨huser, key_user user⟩
  have hbase := (Option.or_eq_none_iff.mp h).2
  rw [hlook] at hbase
  cases hbase

/-- **An operation keeps the users sound.** -/
theorem Moves.sound (hs : Sound p w) (hinv : Inv p w') (h : Moves t w w') : Sound p w' := by
  have hmet : ∀ s, ∀ user ∈ (w'.record s).met, user ∈ w'.users := by
    intro s user huser
    rw [h.users]
    exact (h.met s user huser).elim (hs.met s user) id
  rcases h.writes.written with hold | ⟨new, hview, hid, hused, hnew⟩
  · have hstored : ∀ row, Stored w' row → Stored w row := by
      rintro row (hrow | ⟨s, hrow⟩)
      · exact Or.inl (h.users ▸ hrow)
      · exact Or.inr ⟨s, hold s row hrow⟩
    refine ⟨hinv, fun s row hrow => ?_,
      fun row hrow => h.writes.used (hs.used row (hstored row hrow)),
      fun row row' hrow hrow' => hs.ids row row' (hstored row hrow) (hstored row' hrow'), hmet⟩
    rw [h.users]
    exact hs.fresh s row (hold s row hrow)
  · -- the new row has an id that no other row has, and an email that nobody has
    have hstored : ∀ row, Stored w' row → Stored w row ∨ row = new := by
      rintro row (hrow | ⟨s, hrow⟩)
      · exact Or.inl (Or.inl (h.users ▸ hrow))
      · exact (hnew s row hrow).imp (fun hrow => Or.inr ⟨s, hrow⟩) id
    refine ⟨hinv, fun s row hrow => ?_, fun row hrow => ?_, fun row row' hrow hrow' he => ?_, hmet⟩
    · rw [h.users]
      rcases hnew s row hrow with hrow | rfl
      · exact hs.fresh s row hrow
      · exact not_taken_of_view hview
    · rcases hstored row hrow with hrow | rfl
      · exact h.writes.used (hs.used row hrow)
      · exact hused
    · rcases hstored row hrow with hrow | rfl
      · rcases hstored row' hrow' with hrow' | rfl
        · exact hs.ids row row' hrow hrow' he
        · exact absurd (he ▸ hs.used row hrow) hid
      · rcases hstored row' hrow' with hrow' | rfl
        · exact absurd (he ▸ hs.used row' hrow') hid
        · rfl

/-! Every operation moves in one of these ways. -/

theorem moves_refl (t : τ) (w : World τ) : Moves t w w :=
  ⟨.nothing (List.Subset.refl _), fun _ _ h => Or.inl h⟩

/-- The record of `t` is all that changes, and it lists committed users only. -/
theorem moves_record {r : Record} (h : ∀ user ∈ r.met, user ∈ (w.record t).met ∨ user ∈ w.users) :
    Moves t w (w.setRecord t r) := by
  refine ⟨.nothing (List.Subset.refl _), fun s user huser => ?_⟩
  by_cases hst : s = t
  · subst hst
    rw [setRecord_self] at huser
    exact h user huser
  · rw [setRecord_of_ne w r hst] at huser
    exact Or.inl huser

theorem moves_meet : Moves t w (w.meet t) := moves_record fun _ h => Or.inr h

theorem moves_fail : Moves t w (w.fail t) := moves_record fun _ h => Or.inl h

theorem moves_rollback : Moves t w (w.rollback t) := ⟨.release, fun _ _ h => Or.inl h⟩

/-- The flush generates an id that there was not. -/
theorem uuid_of_flush {user : NewUser} {x : Except Exn Unit × World τ}
    (hp : w.pending t = some user) (h : w.flush p c t = some x) : c.uuid ∉ w.used := by
  unfold World.flush at h
  rw [hp] at h
  dsimp only at h
  split at h
  next => cases h
  next hid => exact hid

theorem moves_flush {r : Except Exn Unit} (h : w.flush p c t = some (r, w')) : Moves t w w' := by
  rcases flush_cases h with ⟨-, -, rfl⟩ | ⟨user, hp, ⟨e, -, -, rfl⟩ | ⟨store, hi, -, rfl⟩⟩
  · exact moves_refl t w'
  · exact ⟨.nothing (List.subset_cons_self _ _), moves_meet.met⟩
  · refine ⟨?_, moves_meet.met⟩
    rcases insertUser_cases hi with ⟨_, _, hx⟩ | ⟨_, _, hx⟩ | ⟨-, hview, store', hput, hx⟩
    · cases hx
    · cases hx
    · obtain rfl := Except.ok.inj hx
      exact .insert hview (uuid_of_flush hp h) hput

theorem moves_unlessFault {α : Type} {x : Option (Except Exn α × World τ)} {r : Except Exn α}
    (h : unlessFault c w t x = some (r, w')) (hx : x = some (r, w') → Moves t w w') :
    Moves t w w' := by
  rcases unlessFault_cases h with ⟨f, -, rfl⟩ | hok
  · exact moves_fail
  · exact hx hok

/-- **What an operation of the users module does.** -/
theorem moves_users {op : Users.Op} {r : Except Exn (Users.Ans op)}
    (h : Users.exec p c t op w = some (r, w')) : Moves t w w' := by
  cases op with
  | hash plain =>
      refine moves_unlessFault h fun hx => ?_
      obtain ⟨-, rfl⟩ := Prod.mk.inj (Option.some.inj hx)
      exact moves_refl t w
  | selectByEmail email =>
      refine moves_unlessFault h fun hx => ?_
      obtain ⟨-, rfl⟩ := Prod.mk.inj (Option.some.inj hx)
      exact moves_meet
  | add user =>
      obtain ⟨-, rfl⟩ := Prod.mk.inj (Option.some.inj h)
      exact ⟨.nothing (List.Subset.refl _), fun _ _ hu => Or.inl hu⟩
  | flush => exact moves_unlessFault h moves_flush
  | rollback =>
      refine moves_unlessFault h fun hx => ?_
      obtain ⟨-, rfl⟩ := Prod.mk.inj (Option.some.inj hx)
      exact moves_rollback

/-- **What an operation does**, and what it leaves to the other sessions. -/
theorem exec_moves {op : Op} {r : Except Exn (Ans op)} (h : exec p c t op w = some (r, w')) :
    Moves t w w' ∧ Steps p t w w' := by
  cases op with
  | users op => exact ⟨moves_users h, exec_steps h⟩
  | selectById id =>
      rcases unlessFault_cases h with ⟨f, -, rfl⟩ | hx
      · exact ⟨moves_fail, steps_record _⟩
      · obtain ⟨-, rfl⟩ := Prod.mk.inj (Option.some.inj hx)
        exact ⟨moves_meet, steps_record _⟩

theorem exec_sound {op : Op} {r : Except Exn (Ans op)} (hs : Sound p w)
    (h : exec p c t op w = some (r, w')) : Sound p w' := by
  obtain ⟨hmoves, hsteps⟩ := exec_moves h
  exact hmoves.sound hs (steps_inv hs.inv hsteps)

theorem rollback_sound (hs : Sound p w) : Sound p (w.rollback t) :=
  moves_rollback.sound hs (steps_inv hs.inv steps_rollback)

theorem enter_sound (hs : Sound p w) : Sound p (w.enter t) := by
  have hr : Sound p (w.rollback t) := rollback_sound hs
  have hnone : ∀ user ∈ ([] : List User),
      user ∈ ((w.rollback t).record t).met ∨ user ∈ (w.rollback t).users :=
    fun _ h => (nomatch h)
  exact (moves_record (r := ⟨[], false⟩) hnone).sound hr (enter_inv hs.inv)

/-! A commit, of a session that has flushed. -/

theorem commit_settled (hp : w.pending t = none) (h : w.commit p c t = some w') :
    w' = { w with store := w.store.commit t } := by
  unfold World.commit World.flush at h
  rw [hp] at h
  split at h
  next => cases h
  next => exact (Option.some.inj h).symm

/-- What is committed then was committed before, or waited in the session. -/
theorem mem_commit {row : User} (h : row ∈ (w.store.commit t).base.rows) :
    row ∈ w.users ∨ row ∈ w.store.writes t := by
  have hlook : (w.store.commit t).base.lookup row.email = some row :=
    Table.lookup_some_iff.mpr ⟨h, key_user row⟩
  rw [TxStore.lookup_commit] at hlook
  rcases Option.or_eq_some_iff.mp hlook with hw | ⟨-, hb⟩
  · exact Or.inr (List.mem_of_find?_eq_some hw)
  · exact Or.inl (Table.mem_of_lookup hb)

/-- **A committed user is never replaced**: what a session writes is new. -/
theorem mem_commit_of_mem (hs : Sound p w) {user : User} (h : user ∈ w.users) :
    user ∈ (w.store.commit t).base.rows := by
  have hnone : (w.store.writes t).find? (fun r => key r = user.email) = none := by
    rw [List.find?_eq_none]
    intro row hrow hkey
    exact hs.fresh t row hrow ⟨user, h, (of_decide_eq_true hkey).symm⟩
  have hlook : w.store.base.lookup user.email = some user :=
    Table.lookup_some_iff.mpr ⟨h, key_user user⟩
  refine Table.mem_of_lookup (k := user.email) ?_
  rw [TxStore.lookup_commit]
  unfold TxStore.view
  rw [hnone, hlook]
  rfl

theorem commit_sound (hs : Sound p w) (hp : w.pending t = none)
    (h : w.commit p c t = some w') : Sound p w' := by
  have hinv : Inv p w' := commit_inv hs.inv h
  obtain rfl := commit_settled hp h
  have hstored : ∀ row, Stored { w with store := w.store.commit t } row → Stored w row := by
    rintro row (hrow | ⟨s, hrow⟩)
    · exact (mem_commit hrow).imp id fun hrow => ⟨t, hrow⟩
    · exact Or.inr ⟨s, (TxStore.mem_writes_release hrow).2⟩
  refine ⟨hinv, fun s row hrow => ?_, fun row hrow => hs.used row (hstored row hrow),
    fun row row' hrow hrow' => hs.ids row row' (hstored row hrow) (hstored row' hrow'),
    fun s user huser => mem_commit_of_mem hs (hs.met s user huser)⟩
  obtain ⟨hst, hrow⟩ := TxStore.mem_writes_release hrow
  rintro ⟨user, huser, hemail⟩
  rcases mem_commit huser with huser | huser
  · exact hs.fresh s row hrow ⟨user, huser, hemail⟩
  · -- two sessions cannot hold the lock of one email
    have howner := hs.inv.wf t user huser
    rw [show key user = key row from hemail, hs.inv.wf s row hrow] at howner
    exact hst (Option.some.inj howner)

/-! ## §5. What a call does. -/

/-- A user is the one that a registration was made for. -/
structure Registered (p : Platform) (request : CreateUserRequest) (user : NewUser) (row : User) :
    Prop where
  row_email : row.email = user.email
  row_hash : row.password_hash = user.password_hash
  email : user.email = normalizeEmail p request.email
  hash : ∃ salt, user.password_hash = p.argon2 salt request.password
  password : request.password ≠ ""

/-- A user has the email and the password of a login. -/
structure LogsIn (v : Verifier p) (request : AuthenticateRequest) (user : User) : Prop where
  email : user.email = normalizeEmail p request.email
  password : verifyPassword v request.password user.password_hash = .ok true

/-- The session has nothing to commit. -/
def Quiet (l : Local) : Prop := l.part.writes = [] ∧ l.pending = none

/-- What a call leaves in its session. -/
inductive Post (v : Verifier p) : Call → Except Exn Reply → Local → Prop where
  | created {request user row l} : Registered p request user row → l.part.writes = [row] →
      l.pending = none → Post v (.create request) (.ok (.created user)) l
  | loggedIn {request user l} : LogsIn v request user → user ∈ l.record.met → Quiet l →
      Post v (.authenticate request) (.ok (.found user)) l
  | found {user_id user l} : UserId.uuid? user_id = some user.id → user ∈ l.record.met → Quiet l →
      Post v (.getUserById user_id) (.ok (.found user)) l
  | raised {call exc l} : Post v call (.error exc) l

/-- What the sessions are verified against, where `I` holds: the operations of the
users module, and all. -/
abbrev usersSetting (p : Platform) (I : World τ → Prop) (t : τ) :
    Setting Users.Op Users.Ans Exn (World τ) Choice Local :=
  ⟨fun c op w => Users.exec p c t op w, I, fun w => w.local t, fun _ _ => True⟩

abbrev setting (p : Platform) (I : World τ → Prop) (t : τ) :
    Setting Op Ans Exn (World τ) Choice Local :=
  ⟨fun c op w => exec p c t op w, I, fun w => w.local t, fun _ _ => True⟩

variable {I : World τ → Prop} {v : Verifier p}

theorem embedded_wlp {α : Type} {Q : Except Exn α → Local → Prop} {prog : UserProg α} {l : Local}
    (h : wlp (usersSetting p I t) (fun _ => True) Q prog l) :
    wlp (setting p I t) (fun _ => True) Q (embedded prog) l := by
  refine wlp_embed (f := Op.users) (g := fun _ a => a) rfl (fun _ hi => hi) (fun _ _ ha => ha)
    (fun {c op w r w'} he => ?_) h
  have hr : r.map (fun a => a) = r := by cases r <;> rfl
  rw [hr]
  exact he

/-- The handler around the flush ends in an exception. -/
theorem refused_wlp {α : Type} {Q : Except Exn α → Local → Prop} {email : String} {exc : Exn}
    {f : Unit → UserProg α} {l : Local} (hQ : ∀ e l, Q (.error e) l) :
    wlp (usersSetting p I t) (fun _ => True) Q
      ((onFlushError email exc).handle (Prog.onOk f)) l := by
  cases hexc : exc.isA .integrityError with
  | false =>
      rw [onFlushError_other hexc]
      exact ⟨trivial, hQ _ l⟩
  | true =>
      rw [onFlushError_integrity hexc]
      refine ⟨trivial, trivial, fun c w r w' _ _ _ => ?_⟩
      cases r with
      | ok _ => exact ⟨trivial, hQ _ _⟩
      | error e => exact ⟨trivial, hQ _ _⟩

/-- What a registration leaves. -/
def Leaves (p : Platform) (request : CreateUserRequest) (r : Except Exn NewUser) (l : Local) :
    Prop :=
  ∀ user, r = .ok user →
    ∃ row, Registered p request user row ∧ l.part.writes = [row] ∧ l.pending = none

theorem leaves_error (request : CreateUserRequest) (e : Exn) (l : Local) :
    Leaves p request (.error e) l := fun _ h => nomatch h

/-- The flush of a registration. -/
theorem flush_leaves {request : CreateUserRequest} {salt : String} {l : Local}
    (hpw : request.password ≠ "") (hw : l.part.writes = [])
    (hp : l.pending = some ⟨normalizeEmail p request.email, p.argon2 salt request.password⟩) :
    wlp (usersSetting p I t) (fun _ => True) (Leaves p request)
      (tryCatch (call .flush) (onFlushError (normalizeEmail p request.email)) >>= fun _ =>
        pure ⟨normalizeEmail p request.email, p.argon2 salt request.password⟩) l := by
  refine ⟨trivial, trivial, fun c w r w' _ hview hexec => ?_⟩
  subst hview
  rcases unlessFault_cases hexec with ⟨fault, rfl, rfl⟩ | hx
  · exact refused_wlp (leaves_error request)
  · rcases flush_cases hx with ⟨hnone, -, -⟩ | ⟨user, hsome, hins⟩
    · rw [show w.pending t = _ from hp] at hnone
      cases hnone
    · obtain rfl := Option.some.inj (hp.symm.trans hsome)
      rcases hins with ⟨e, -, rfl, rfl⟩ | ⟨store, hins, rfl, rfl⟩
      · exact refused_wlp (leaves_error request)
      · rcases insertUser_cases hins with ⟨_, _, hs⟩ | ⟨_, _, hs⟩ | ⟨-, -, store', hput, hs⟩
        · cases hs
        · cases hs
        · obtain rfl := Except.ok.inj hs
          refine ⟨trivial, fun user huser => ?_⟩
          obtain rfl := Except.ok.inj huser
          refine ⟨⟨c.uuid, _, _⟩, ⟨rfl, rfl, rfl, ⟨salt, rfl⟩, hpw⟩, ?_,
            setPending_self (w.meet t) none⟩
          show store.writes t = [_]
          obtain ⟨-, rfl⟩ := TxStore.put_eq_some hput
          dsimp only
          rw [Function.update_self, show w.store.writes t = [] from hw]

/-- **A registration that returns has inserted its one row.** -/
theorem create_leaves {request : CreateUserRequest} {l : Local} (hl : Quiet l) :
    wlp (usersSetting p I t) (fun _ => True) (Leaves p request) (createUser p request) l := by
  by_cases hpw : request.password = ""
  · rw [createUser_empty hpw]
    exact ⟨trivial, leaves_error request _ l⟩
  · rw [createUser_eq, hashPassword_of_ne hpw]
    refine ⟨trivial, trivial, fun c w r w' _ hview hexec => ?_⟩
    subst hview
    rcases unlessFault_cases hexec with ⟨fault, rfl, rfl⟩ | hx
    · exact ⟨trivial, leaves_error request _ _⟩
    · obtain ⟨rfl, rfl⟩ := Prod.mk.inj (Option.some.inj hx)
      refine ⟨trivial, trivial, fun c' w₁ r w' _ hview hexec => ?_⟩
      rcases unlessFault_cases hexec with ⟨fault, rfl, rfl⟩ | hx
      · exact ⟨trivial, leaves_error request _ _⟩
      · obtain ⟨rfl, rfl⟩ := Prod.mk.inj (Option.some.inj hx)
        cases hsel : w₁.selectByEmail t (normalizeEmail p request.email) with
        | error e => exact ⟨trivial, leaves_error request e _⟩
        | ok existing =>
            cases existing with
            | some user => exact ⟨trivial, leaves_error request _ _⟩
            | none =>
                refine ⟨trivial, trivial, fun c' w₂ r w' _ hview' hexec => ?_⟩
                obtain ⟨rfl, rfl⟩ := Prod.mk.inj (Option.some.inj hexec)
                refine flush_leaves hpw ?_ (setPending_self w₂ _)
                have h₂ : w₂.store.writes t = w₁.store.writes t :=
                  congrArg (fun l => l.part.writes) hview'
                have h₁ : w₁.store.writes t = w.store.writes t :=
                  congrArg (fun l => l.part.writes) hview
                exact (h₂.trans h₁).trans hl.1

/-- `authenticate_user`, once it has found the user. -/
def login (v : Verifier p) (password : String) (user : User) : Except Exn User :=
  match verifyPassword v password user.password_hash with
  | .error e => .error e
  | .ok true => .ok user
  | .ok false => .error invalidCredentials

theorem login_eq (v : Verifier p) (password : String) (user : User) :
    (do
      let ok ← Prog.lift (verifyPassword v password user.password_hash)
      if !ok then throw invalidCredentials
      return user : UserProg User) = .ret (login v password user) := by
  unfold login Prog.lift
  cases verifyPassword v password user.password_hash with
  | error e => rfl
  | ok ok =>
      cases ok with
      | false => rfl
      | true => rfl

/-- What the SELECT of a login decides. -/
def afterSelect (v : Verifier p) (password : String) : Except Exn (Option User) → Except Exn User
  | .error e => .error e
  | .ok none => .error invalidCredentials
  | .ok (some user) => login v password user

theorem authenticateUser_eq (v : Verifier p) (request : AuthenticateRequest) :
    authenticateUser v request = .call (.selectByEmail (normalizeEmail p request.email))
      fun r => .ret (afterSelect v request.password r) := by
  refine congrArg (Prog.call _) (funext fun r => ?_)
  cases r with
  | error e => rfl
  | ok found =>
      cases found with
      | none => rfl
      | some user => exact login_eq v request.password user

theorem login_ok {password : String} {user user' : User} (h : login v password user = .ok user') :
    user' = user ∧ verifyPassword v password user.password_hash = .ok true := by
  unfold login at h
  split at h
  next => cases h
  next hv => exact ⟨(Except.ok.inj h).symm, hv⟩
  next => cases h

/-- Whom a session that has written nothing finds is committed. -/
theorem selectByEmail_ok {τ : Type} {t : τ} {w : World τ} {email : String} {user : User}
    (hw : w.store.writes t = []) (h : w.selectByEmail t email = .ok (some user)) :
    user ∈ w.users ∧ user.email = email := by
  unfold World.selectByEmail at h
  split at h
  next => cases h
  next =>
    have hview := Except.ok.inj h
    rw [TxStore.view_of_no_writes hw] at hview
    exact ⟨Table.mem_of_lookup hview, Table.key_of_lookup hview⟩

/-- **A login that returns has found a committed user** with its email and password. -/
theorem authenticate_finds {request : AuthenticateRequest} {l : Local} (hl : Quiet l) :
    wlp (usersSetting p I t) (fun _ => True)
      (fun r l => ∀ user, r = .ok user → LogsIn v request user ∧ user ∈ l.record.met ∧ Quiet l)
      (authenticateUser v request) l := by
  rw [authenticateUser_eq]
  refine ⟨trivial, trivial, fun c w r w' _ hview hexec => ⟨trivial, fun user hret => ?_⟩⟩
  subst hview
  rcases unlessFault_cases hexec with ⟨fault, rfl, rfl⟩ | hx
  · cases hret
  · obtain ⟨rfl, rfl⟩ := Prod.mk.inj (Option.some.inj hx)
    have hmet : ((w.meet t).local t).record.met = w.users :=
      congrArg Record.met (setRecord_self w _)
    cases hsel : w.selectByEmail t (normalizeEmail p request.email) with
    | error e =>
        rw [hsel] at hret
        cases hret
    | ok found =>
        rw [hsel] at hret
        cases found with
        | none => cases hret
        | some user' =>
            obtain ⟨rfl, hverified⟩ := login_ok hret
            obtain ⟨hmem, hemail⟩ := selectByEmail_ok hl.1 hsel
            rw [hmet]
            exact ⟨⟨hemail, hverified⟩, hmem, hl⟩

/-- What the SELECT of a lookup decides. -/
def afterLookup (id : Uuid) : Except Exn (Option User) → Except Exn User
  | .error e => .error e
  | .ok none => .error (userNotFound id)
  | .ok (some user) => .ok user

theorem getUserById_eq {user_id : UserId} {id : Uuid} (h : user_id.uuid? = some id) :
    getUserById user_id = .call (.selectById id) fun r => .ret (afterLookup id r) := by
  unfold getUserById
  rw [h]
  refine congrArg (Prog.call _) (funext fun r => ?_)
  cases r with
  | error e => rfl
  | ok found =>
      cases found with
      | none => rfl
      | some user => rfl

theorem selectById_some {τ : Type} {t : τ} {w : World τ} {id : Uuid} {user : User}
    (hw : w.store.writes t = []) (h : selectById w t id = some user) :
    user ∈ w.users ∧ user.id = id := by
  unfold selectById at h
  rw [hw, List.nil_append] at h
  have hid := List.find?_some h
  exact ⟨List.mem_of_find?_eq_some h, of_decide_eq_true hid⟩

/-- **A lookup that returns has found a committed user** with its id. -/
theorem getUserById_finds {user_id : UserId} {l : Local} (hl : Quiet l) :
    wlp (setting p I t) (fun _ => True)
      (fun r l => ∀ user, r = .ok user →
        user_id.uuid? = some user.id ∧ user ∈ l.record.met ∧ Quiet l)
      (getUserById user_id) l := by
  cases hid : user_id.uuid? with
  | none =>
      unfold getUserById
      rw [hid]
      exact ⟨trivial, fun user h => nomatch h⟩
  | some id =>
      rw [getUserById_eq hid]
      refine ⟨trivial, trivial, fun c w r w' _ hview hexec => ⟨trivial, fun user hret => ?_⟩⟩
      subst hview
      rcases unlessFault_cases hexec with ⟨fault, rfl, rfl⟩ | hx
      · cases hret
      · obtain ⟨rfl, rfl⟩ := Prod.mk.inj (Option.some.inj hx)
        have hmet : ((w.meet t).local t).record.met = w.users :=
          congrArg Record.met (setRecord_self w _)
        cases hsel : selectById w t id with
        | none =>
            rw [hsel] at hret
            cases hret
        | some user' =>
            rw [hsel] at hret
            obtain rfl := Except.ok.inj hret
            obtain ⟨hmem, rfl⟩ := selectById_some hl.1 hsel
            rw [hmet]
            exact ⟨rfl, hmem, hl⟩

/-! ## §6. A call among the others. -/

theorem body_posts (call : Call) {l : Local} (hl : Quiet l) :
    wlp (setting p I t) (fun _ => True) (Post v call) (body v call) l := by
  cases call with
  | create request =>
      refine wlp_mono (fun r l h => ?_) (wlp_map (embedded_wlp (create_leaves hl)))
      obtain ⟨x, rfl, hx⟩ := h
      cases x with
      | error e => exact .raised
      | ok user =>
          obtain ⟨row, hrow, hwrites, hpending⟩ := hx user rfl
          exact .created hrow hwrites hpending
  | authenticate request =>
      refine wlp_mono (fun r l h => ?_) (wlp_map (embedded_wlp (authenticate_finds hl)))
      obtain ⟨x, rfl, hx⟩ := h
      cases x with
      | error e => exact .raised
      | ok user =>
          obtain ⟨hlogin, hmet, hquiet⟩ := hx user rfl
          exact .loggedIn hlogin hmet hquiet
  | getUserById user_id =>
      refine wlp_mono (fun r l h => ?_) (wlp_map (getUserById_finds hl))
      obtain ⟨x, rfl, hx⟩ := h
      cases x with
      | error e => exact .raised
      | ok user =>
          obtain ⟨hid, hmet, hquiet⟩ := hx user rfl
          exact .found hid hmet hquiet

/-- In a new session there is nothing to commit. -/
theorem enter_quiet : Quiet ((w.enter t).local t) := by
  rw [enter_local]
  exact ⟨rfl, rfl⟩

/-- Who may commit has flushed. -/
theorem pending_of_post {call : Call} {r : Except Exn Reply} (h : Post v call r (w.local t))
    (hok : r.isOk = true) : w.pending t = none := by
  cases h with
  | created _ _ hpending => exact hpending
  | loggedIn _ _ hquiet => exact hquiet.2
  | found _ _ hquiet => exact hquiet.2
  | raised => cases hok

/-- The contract of the calls. -/
def contract (v : Verifier p) : Contract (accounts p v : System _ _ _ _ _ (World τ) τ _) Local where
  view := fun t w => w.local t
  inv := Sound p
  allowed := fun _ _ => True
  along := fun _ _ => True
  post := Post v
  enter_inv := enter_sound
  enter_view := fun htu _ => enter_local_of_ne htu
  body_wlp := fun call _ => body_posts call enter_quiet
  exec_inv := fun hs _ h => exec_sound hs h
  exec_view := fun htu _ h => steps_local htu (exec_moves h).2
  commit_inv := fun hs hpost hok h => commit_sound hs (pending_of_post hpost hok) h
  commit_view := fun htu hs h => commit_local htu hs.inv h
  rollback_inv := rollback_sound
  rollback_view := fun htu _ => steps_local htu (steps_rollback (p := p))

/-- What a committed call makes of the committed users. -/
inductive Effect (v : Verifier p) : Call → Except Exn Reply → List User → List User → Prop where
  | created {request user row users} : Registered p request user row → ¬ Taken row.email users →
      Effect v (.create request) (.ok (.created user)) users (users ++ [row])
  | loggedIn {request user users} : LogsIn v request user → user ∈ users →
      Effect v (.authenticate request) (.ok (.found user)) users users
  | found {user_id user users} : UserId.uuid? user_id = some user.id → user ∈ users →
      Effect v (.getUserById user_id) (.ok (.found user)) users users

theorem Effect.mono {call : Call} {r : Except Exn Reply} {before after : List User}
    (h : Effect v call r before after) : before ⊆ after := by
  cases h with
  | created _ _ => exact List.subset_append_left _ _
  | loggedIn _ _ => exact List.Subset.refl _
  | found _ _ => exact List.Subset.refl _

/-- The committed users after a commit of a session that has written nothing. -/
theorem users_commit_nil (h : w.store.writes t = []) : (w.store.commit t).base.rows = w.users := by
  rw [TxStore.commit_base, h]
  rfl

/-- And of one that has written a new user. -/
theorem users_commit_new {row : User} (h : w.store.writes t = [row])
    (hnew : ¬ Taken row.email w.users) :
    (w.store.commit t).base.rows = w.users ++ [row] := by
  have hnone : w.store.base.lookup (key row) = none := by
    rw [key_user]
    cases hlook : w.store.base.lookup row.email with
    | none => rfl
    | some user => exact absurd ⟨user, Table.mem_of_lookup hlook, Table.key_of_lookup hlook⟩ hnew
  rw [TxStore.commit_base, h, Table.upsertAll_cons, Table.upsertAll_nil]
  exact Table.rows_upsert_new hnone

/-- **Only commits change the committed users**, and in these ways. -/
def effects (v : Verifier p) : Effects (contract (τ := τ) v) (List User) where
  obs := World.users
  effect := Effect v
  enter_obs := fun _ _ => rfl
  exec_obs := fun _ h => (exec_moves h).1.users
  rollback_obs := fun _ _ => rfl
  commit_obs := fun {t w c call r w'} hs hpost hok h => by
    have hw' := commit_settled (pending_of_post hpost hok) h
    subst hw'
    cases hpost with
    | created hrow hwrites _ =>
        have hw : w.store.writes t = [_] := hwrites
        have hnew := hs.fresh t _ (hw ▸ List.mem_cons_self)
        show Effect v _ _ w.users (w.store.commit t).base.rows
        rw [users_commit_new hwrites hnew]
        exact .created hrow hnew
    | loggedIn hlogin hmet hquiet =>
        show Effect v _ _ w.users (w.store.commit t).base.rows
        rw [users_commit_nil hquiet.1]
        exact .loggedIn hlogin (hs.met t _ hmet)
    | found hid hmet hquiet =>
        show Effect v _ _ w.users (w.store.commit t).base.rows
        rw [users_commit_nil hquiet.1]
        exact .found hid (hs.met t _ hmet)
    | raised => cases hok

/-! ## §7. Every run. -/

/-- A users table that satisfies its constraints, the primary key among them. -/
structure AccountsTable (p : Platform) extends UsersTable p where
  ids : ∀ row ∈ table.rows, ∀ row' ∈ table.rows, row.id = row'.id → row = row'

theorem init_sound {τ : Type} (T : AccountsTable p) : Sound p (World.init T.table : World τ) := by
  have hstored : ∀ row, Stored (World.init T.table : World τ) row → row ∈ T.table.rows := by
    rintro row (hrow | ⟨t, hrow⟩)
    · exact hrow
    · cases hrow
  exact ⟨init_inv T.toUsersTable, fun _ _ hrow => (nomatch hrow),
    fun row hrow => List.mem_map_of_mem (hstored row hrow),
    fun row row' hrow hrow' => T.ids row (hstored row hrow) row' (hstored row' hrow'),
    fun _ _ huser => (nomatch huser)⟩

/-- The state that a schedule leads to. -/
def after (v : Verifier p) (T : AccountsTable p) (as : List (Action τ Call Choice)) :
    Pool Call Op Ans Exn Reply (World τ) τ :=
  (Pool.machine (accounts p v)).run (Pool.init (World.init T.table)) as

/-- A registration, with what it has returned. -/
def registration? (e : Entry τ Call Exn Reply) : Option (CreateUserRequest × NewUser) :=
  match e.call, e.result with
  | .create request, .ok (.created user) => some (request, user)
  | _, _ => none

/-- The registrations of a log. -/
def registrationsOf (log : List (Entry τ Call Exn Reply)) : List (CreateUserRequest × NewUser) :=
  log.filterMap registration?

/-- What the committed users have to do with a committed call. -/
structure Kept (v : Verifier p) (users : List User) (e : Entry τ Call Exn Reply) : Prop where
  registered : ∀ request user, e.call = .create request → e.result = .ok (.created user) →
    ∃ row ∈ users, Registered p request user row
  loggedIn : ∀ request user, e.call = .authenticate request → e.result = .ok (.found user) →
    user ∈ users ∧ LogsIn v request user

theorem Kept.mono {τ : Type} {users users' : List User} {e : Entry τ Call Exn Reply}
    (h : Kept v users e) (hsub : users ⊆ users') : Kept v users' e := by
  refine ⟨fun request user hcall hres => ?_, fun request user hcall hres => ?_⟩
  · obtain ⟨row, hrow, hreg⟩ := h.registered request user hcall hres
    exact ⟨row, hsub hrow, hreg⟩
  · exact (h.loggedIn request user hcall hres).imp (fun huser => hsub huser) id

theorem Effect.kept {τ : Type} {e : Entry τ Call Exn Reply} {before after : List User}
    (h : Effect v e.call e.result before after) : Kept v after e := by
  obtain ⟨t, call, r⟩ := e
  cases h with
  | created hrow _ =>
      refine ⟨fun request' user' hcall hres => ?_, fun _ _ hcall _ => (nomatch hcall)⟩
      obtain rfl := Call.create.inj hcall
      obtain rfl := Reply.created.inj (Except.ok.inj hres)
      exact ⟨_, List.mem_append_right _ List.mem_cons_self, hrow⟩
  | loggedIn hlogin hmem =>
      refine ⟨fun _ _ hcall _ => (nomatch hcall), fun request' user' hcall hres => ?_⟩
      obtain rfl := Call.authenticate.inj hcall
      obtain rfl := Reply.found.inj (Except.ok.inj hres)
      exact ⟨hmem, hlogin⟩
  | found _ _ => exact ⟨fun _ _ hcall _ => (nomatch hcall), fun _ _ hcall _ => (nomatch hcall)⟩

/-- The accounts after a log: one for each registration, in the order of the commits,
after those there were. -/
structure Accounted (v : Verifier p) (T : AccountsTable p) (log : List (Entry τ Call Exn Reply))
    (users : List User) : Prop where
  rows : ∃ rows, users = T.table.rows ++ rows
    ∧ List.Forall₂ (fun c row => Registered p c.1 c.2 row) (registrationsOf log) rows
  kept : ∀ e ∈ log, Kept v users e

theorem Effect.accounted {τ : Type} {T : AccountsTable p} {log : List (Entry τ Call Exn Reply)}
    {e : Entry τ Call Exn Reply} {before after : List User} (h : Accounted v T log before)
    (he : Effect v e.call e.result before after) : Accounted v T (log ++ [e]) after := by
  refine ⟨?_, fun e' he' => ?_⟩
  · obtain ⟨rows, rfl, hrows⟩ := h.rows
    obtain ⟨t, call, r⟩ := e
    cases he with
    | created hrow _ =>
        refine ⟨rows ++ [_], List.append_assoc .., ?_⟩
        unfold registrationsOf
        rw [filterMap_snoc_some (f := registration?) rfl]
        exact List.rel_append hrows (.cons hrow .nil)
    | loggedIn _ _ =>
        refine ⟨rows, rfl, ?_⟩
        unfold registrationsOf
        rw [filterMap_snoc_none (f := registration?) rfl]
        exact hrows
    | found _ _ =>
        refine ⟨rows, rfl, ?_⟩
        unfold registrationsOf
        rw [filterMap_snoc_none (f := registration?) rfl]
        exact hrows
  · rcases List.mem_append.mp he' with he' | he'
    · exact (h.kept e' he').mono he.mono
    · rw [List.mem_singleton.mp he']
      exact he.kept

theorem accounted_run (v : Verifier p) (T : AccountsTable p) (as : List (Action τ Call Choice)) :
    Accounted v T (after v T as).log (after v T as).shared.users := by
  refine Replay.invariant (I := Accounted v T) ?_ (fun _ _ _ _ h he => Effect.accounted h he)
    ((effects v).replay (init_sound T) as)
  exact ⟨⟨[], (List.append_nil _).symm, .nil⟩, fun _ he => (nomatch he)⟩

/-- Rows have the emails that they were registered with. -/
theorem emails_of_registered {cs : List (CreateUserRequest × NewUser)} {rows : List User}
    (h : List.Forall₂ (fun c row => Registered p c.1 c.2 row) cs rows) :
    cs.map (fun c => normalizeEmail p c.1.email) = rows.map User.email := by
  induction h with
  | nil => rfl
  | @cons c row cs rows hrow _ ih =>
      have hemail : normalizeEmail p c.1.email = row.email := (hrow.row_email.trans hrow.email).symm
      rw [List.map_cons, List.map_cons, ih, hemail]

/-- **The accounts are those of the committed registrations.**  In every run of the
three services at once, the committed users are those of the start and one for each
committed registration, in the order of the commits, under its normalized email and
with argon2's hash of its password; no email is registered twice, and no two users
have one id; and whoever has been logged in has an account with that email, whose
hash argon2 has verified. -/
theorem accounts_registered (v : Verifier p) (T : AccountsTable p)
    (as : List (Action τ Call Choice)) :
    (∃ rows, (after v T as).shared.users = T.table.rows ++ rows
        ∧ List.Forall₂ (fun c row => Registered p c.1 c.2 row)
          (registrationsOf (after v T as).log) rows)
      ∧ ((registrationsOf (after v T as).log).map fun c => normalizeEmail p c.1.email).Nodup
      ∧ (∀ user ∈ (after v T as).shared.users, ∀ user' ∈ (after v T as).shared.users,
          user.id = user'.id → user = user')
      ∧ ∀ e ∈ (after v T as).log, ∀ request user, e.call = .authenticate request →
          e.result = .ok (.found user) →
          user ∈ (after v T as).shared.users ∧ LogsIn v request user := by
  have hacc := accounted_run v T as
  have hsound : Sound p (after v T as).shared := ((contract v).reachable (init_sound T) as).inv
  refine ⟨hacc.rows, ?_, fun user hu user' hu' => hsound.ids user user' (Or.inl hu) (Or.inl hu'),
    fun e he => (hacc.kept e he).loggedIn⟩
  obtain ⟨rows, husers, hrows⟩ := hacc.rows
  have hnodup : ((after v T as).shared.users.map User.email).Nodup :=
    (after v T as).shared.store.base.nodup
  rw [emails_of_registered hrows]
  rw [husers, List.map_append] at hnodup
  exact (List.nodup_append.mp hnodup).2.1

/-! ## §8. From a registration on. -/

/-- What the services answer about a user that was registered by `request`: the
email is taken, the password logs in and no other that argon2 refuses, and the id
is found. -/
def Recognised (v : Verifier p) (row : User) (request : CreateUserRequest) :
    Call → Except Exn Reply → Prop
  | .create again, r => again.password ≠ "" →
      normalizeEmail p again.email = normalizeEmail p request.email →
      r = .error (alreadyExists row.email)
  | .authenticate attempt, r =>
      normalizeEmail p attempt.email = normalizeEmail p request.email →
        (attempt.password = request.password → r = .ok (.found row))
        ∧ (v.verify row.password_hash attempt.password ≠ .verified → r = .error invalidCredentials)
  | .getUserById user_id, r => user_id.uuid? = some row.id → r = .ok (.found row)

/-- A committed user is seen by its email in every session that has written nothing. -/
theorem selectByEmail_sees {τ : Type} {t : τ} {w : World τ} (hs : Sound p w) {user : User}
    (huser : user ∈ w.users) (hw : w.store.writes t = []) :
    w.selectByEmail t user.email = .ok (some user) := by
  have hcol : varchar255 user.email = true := (accepted_of_taken hs.inv ⟨user, huser, rfl⟩).1
  have hnul : hasNul user.email = false := by
    unfold varchar255 at hcol
    cases hn : hasNul user.email with
    | false => rfl
    | true =>
        rw [hn] at hcol
        cases hcol
  unfold World.selectByEmail
  rw [hnul, TxStore.view_of_no_writes hw,
    Table.lookup_some_iff.mpr ⟨huser, key_user user⟩]
  rfl

/-- And by its id, which is its own. -/
theorem selectById_sees {τ : Type} {t : τ} {w : World τ} (hs : Sound p w) {user : User}
    (huser : user ∈ w.users) (hw : w.store.writes t = []) :
    selectById w t user.id = some user := by
  cases hsel : selectById w t user.id with
  | none =>
      unfold selectById at hsel
      rw [hw, List.nil_append, List.find?_eq_none] at hsel
      exact absurd (decide_eq_true rfl) (hsel user huser)
  | some user' =>
      obtain ⟨huser', hid⟩ := selectById_some hw hsel
      rw [hs.ids user' user (Or.inl huser') (Or.inl huser) hid]

/-- The sessions where `row` is committed. -/
abbrev With (p : Platform) (row : User) (w : World τ) : Prop := Sound p w ∧ row ∈ w.users

/-- What is only said of sessions in which nothing has failed. -/
theorem of_failed {P : Prop} (hok : ((w.fail t).local t).record.failed = false) : P := by
  rw [fail_failed] at hok
  cases hok

/-- Registering the email again. -/
theorem create_recognises {row : User} {again : CreateUserRequest} {l : Local} (hl : Quiet l)
    (hemail : normalizeEmail p again.email = row.email) :
    wlp (usersSetting p (With (τ := τ) p row) t) (fun _ => True)
      (fun r l => l.record.failed = false → again.password ≠ "" →
        r = .error (alreadyExists row.email))
      (createUser p again) l := by
  by_cases hpw : again.password = ""
  · rw [createUser_empty hpw]
    exact ⟨trivial, fun _ hne => absurd hpw hne⟩
  · rw [createUser_eq, hashPassword_of_ne hpw, hemail]
    refine ⟨trivial, trivial, fun c w r w' _ hview hexec => ?_⟩
    subst hview
    rcases unlessFault_cases hexec with ⟨fault, rfl, rfl⟩ | hx
    · exact ⟨trivial, fun hok => of_failed hok⟩
    · obtain ⟨rfl, rfl⟩ := Prod.mk.inj (Option.some.inj hx)
      refine ⟨trivial, trivial, fun c' w₁ r w' hi hview hexec => ?_⟩
      have hw₁ : w₁.store.writes t = [] :=
        (congrArg (fun l => l.part.writes) hview).trans hl.1
      rcases unlessFault_cases hexec with ⟨fault, rfl, rfl⟩ | hx
      · exact ⟨trivial, fun hok => of_failed hok⟩
      · obtain ⟨rfl, rfl⟩ := Prod.mk.inj (Option.some.inj hx)
        rw [selectByEmail_sees hi.1 hi.2 hw₁]
        exact ⟨trivial, fun _ _ => rfl⟩

/-- Logging in under the email. -/
theorem authenticate_recognises {row : User} {attempt : AuthenticateRequest} {l : Local}
    (hl : Quiet l) (hemail : normalizeEmail p attempt.email = row.email) :
    wlp (usersSetting p (With (τ := τ) p row) t) (fun _ => True)
      (fun r l => l.record.failed = false → r = login v attempt.password row)
      (authenticateUser v attempt) l := by
  rw [authenticateUser_eq, hemail]
  refine ⟨trivial, trivial, fun c w r w' hi hview hexec => ⟨trivial, fun hok => ?_⟩⟩
  subst hview
  rcases unlessFault_cases hexec with ⟨fault, rfl, rfl⟩ | hx
  · exact of_failed hok
  · obtain ⟨rfl, rfl⟩ := Prod.mk.inj (Option.some.inj hx)
    rw [selectByEmail_sees hi.1 hi.2 hl.1]
    rfl

/-- Looking up the id. -/
theorem getUserById_recognises {row : User} {user_id : UserId} {l : Local} (hl : Quiet l)
    (hid : user_id.uuid? = some row.id) :
    wlp (setting p (With (τ := τ) p row) t) (fun _ => True)
      (fun r l => l.record.failed = false → r = .ok row) (getUserById user_id) l := by
  rw [getUserById_eq hid]
  refine ⟨trivial, trivial, fun c w r w' hi hview hexec => ⟨trivial, fun hok => ?_⟩⟩
  subst hview
  rcases unlessFault_cases hexec with ⟨fault, rfl, rfl⟩ | hx
  · exact of_failed hok
  · obtain ⟨rfl, rfl⟩ := Prod.mk.inj (Option.some.inj hx)
    rw [selectById_sees hi.1 hi.2 hl.1]
    rfl

/-- What a login comes to, by what argon2 says about the hash that was registered. -/
theorem login_registered {request : CreateUserRequest} {user : NewUser} {row : User}
    (h : Registered p request user row) (password : String) :
    (password = request.password → login v password row = .ok row)
      ∧ (v.verify row.password_hash password ≠ .verified →
        login v password row = .error invalidCredentials) := by
  obtain ⟨salt, hsalt⟩ := h.hash
  have hhash : row.password_hash = p.argon2 salt request.password := h.row_hash.trans hsalt
  unfold login
  rw [hhash]
  constructor
  · intro hpw
    subst hpw
    rw [verifyPassword_own v salt h.password]
  · intro hv
    rw [verifyPassword_other v hv]

/-- **Every call of a session in which a registered user is committed.** -/
theorem body_recognises {request : CreateUserRequest} {user : NewUser} {row : User}
    (h : Registered p request user row) (call : Call) {l : Local} (hl : Quiet l) :
    wlp (setting p (With (τ := τ) p row) t) (fun _ => True)
      (fun r l => l.record.failed = false → Recognised v row request call r) (body v call) l := by
  have hrow : normalizeEmail p request.email = row.email := (h.row_email.trans h.email).symm
  cases call with
  | create again =>
      by_cases hemail : normalizeEmail p again.email = row.email
      · refine wlp_mono (fun r l hr hok hpw _ => ?_)
          (wlp_map (embedded_wlp (create_recognises hl hemail)))
        obtain ⟨x, rfl, hx⟩ := hr
        rw [hx hok hpw]
        rfl
      · refine wlp_mono (fun r l _ _ _ he => ?_) (body_posts (v := v) (.create again) hl)
        exact absurd (he.trans hrow) hemail
  | authenticate attempt =>
      by_cases hemail : normalizeEmail p attempt.email = row.email
      · refine wlp_mono (fun r l hr hok _ => ?_)
          (wlp_map (embedded_wlp (authenticate_recognises (v := v) hl hemail)))
        obtain ⟨x, rfl, hx⟩ := hr
        obtain ⟨hsame, hother⟩ := login_registered (v := v) h attempt.password
        rw [hx hok]
        refine ⟨fun hpw => ?_, fun hv => ?_⟩
        · rw [hsame hpw]
          rfl
        · rw [hother hv]
          rfl
      · refine wlp_mono (fun r l _ _ he => ?_) (body_posts (v := v) (.authenticate attempt) hl)
        exact absurd (he.trans hrow) hemail
  | getUserById user_id =>
      by_cases hid : user_id.uuid? = some row.id
      · refine wlp_mono (fun r l hr hok _ => ?_) (wlp_map (getUserById_recognises hl hid))
        obtain ⟨x, rfl, hx⟩ := hr
        rw [hx hok]
        rfl
      · refine wlp_mono (fun r l _ _ he => ?_) (body_posts (v := v) (.getUserById user_id) hl)
        exact absurd he hid

/-- A committed user stays committed. -/
theorem users_stable {P P' : Pool Call Op Ans Exn Reply (World τ) τ} {a : Action τ Call Choice}
    {row : User} (hP : (contract v).Holds P) (h : Pool.act (accounts p v) P a = some P')
    (hrow : row ∈ P.shared.users) : row ∈ P'.shared.users := by
  rcases (effects v).act_effect hP h with ⟨husers, -⟩ | ⟨t, c, call, r, -, -, -, -, heffect⟩
  · have hsame : P'.shared.users = P.shared.users := husers
    rw [hsame]
    exact hrow
  · exact heffect.mono hrow

/-- **A committed registration holds from then on.**  Whatever the other sessions do,
every call that a later session makes and the environment lets through is answered
by it: its email, however it is written, is refused to everybody else; its password
logs in and gets its user, and no password that argon2 does not verify does; and its
id is found. -/
theorem registered_holds (v : Verifier p) (T : AccountsTable p)
    (as : List (Action τ Call Choice)) {t₀ : τ} {request : CreateUserRequest} {user : NewUser}
    (he : (⟨t₀, .create request, .ok (.created user)⟩ : Entry τ Call Exn Reply)
      ∈ (after v T as).log) :
    ∃ row ∈ (after v T as).shared.users, Registered p request user row
      ∧ ∀ (bs : List (Action τ Call Choice)) (t : τ) (call : Call) (r : Except Exn Reply),
        (after v T as).thread t = none →
        (after v T (as ++ bs)).thread t = some ⟨call, .ret r⟩ →
        ((after v T (as ++ bs)).shared.record t).failed = false →
        Recognised v row request call r := by
  obtain ⟨row, hrow, hreg⟩ := ((accounted_run v T as).kept _ he).registered request user rfl rfl
  refine ⟨row, hrow, hreg, fun bs t call r hnone hend hok => ?_⟩
  unfold after at hend hok
  rw [Machine.run_append] at hend hok
  have hP := (contract v).reachable (init_sound T) as
  exact (contract v).later (R := fun call r l => l.record.failed = false →
      Recognised v row request call r) (fun hP h hmem => users_stable hP h hmem)
    (fun call hs hmem => body_recognises hreg call enter_quiet) hP hrow hnone bs hend hok

/-- Argon2's hash of `pw` under the salt `nimbusnimbusnimb`. -/
def pwHash : String :=
  "$argon2id$v=19$m=65536,t=3,p=4$bmltYnVzbmltYnVzbmltYg"
    ++ "$1PumrUddV9H39vjKvBEswuiyK9Dl9yZxgo02XBju974"

/-- One password is told from all others. -/
def hashed (plain : String) : String := if plain = "pw" then pwHash else "$argon2id$"

theorem hashed_cases (plain : String) : hashed plain = pwHash ∨ hashed plain = "$argon2id$" := by
  unfold hashed
  by_cases h : plain = "pw"
  · exact Or.inl (if_pos h)
  · exact Or.inr (if_neg h)

/-- ASCII texts, and one salt. -/
def onePassword : Platform where
  lower s := String.ofList (s.toList.map Char.toLower)
  pgLower s := String.ofList (s.toList.map Char.toLower)
  argon2 _ plain := hashed plain
  argon2_length _ plain := by
    rcases hashed_cases plain with h | h
    · rw [h]
      decide +kernel
    · rw [h]
      decide +kernel
  argon2_ascii _ plain := by
    rcases hashed_cases plain with h | h
    · rw [h]
      decide +kernel
    · rw [h]
      decide +kernel

def oneVerifier : Verifier onePassword where
  verify encoded plain :=
    if encoded = hashed plain then .verified
    else if encoded = pwHash ∨ encoded = "$argon2id$" then .mismatch
    else .invalidHash ""
  own _ _ := if_pos rfl
  formed _ plain other text := by
    show (if hashed plain = hashed other then Verdict.verified
      else if hashed plain = pwHash ∨ hashed plain = "$argon2id$" then .mismatch
      else .invalidHash "") ≠ _
    rw [if_pos (hashed_cases plain)]
    by_cases h : hashed plain = hashed other
    · rw [if_pos h]
      intro hc
      cases hc
    · rw [if_neg h]
      intro hc
      cases hc
  nonempty _ plain := by
    show hashed plain ≠ ""
    rcases hashed_cases plain with h | h
    · rw [h]
      decide +kernel
    · rw [h]
      decide +kernel

/-- No accounts yet. -/
def noAccounts : AccountsTable onePassword where
  table := Table.empty
  accepted := fun _ hr => nomatch hr
  ids := fun _ hr => nomatch hr

/-- Somebody registers, and logs in under the same email written in another way. -/
def registerRun : List (Action Nat Call Choice) :=
  [.start 0 (.create ⟨"A@b", "pw"⟩), .step 0 { salt := "nimbusnimbusnimb" },
    .step 0 {}, .step 0 {}, .step 0 { uuid := Uuid.ofNat 1 }, .commit 0 {}]

def loginRun : List (Action Nat Call Choice) :=
  [.start 1 (.authenticate ⟨"a@B ", "pw"⟩), .step 1 {}]

theorem registered_holds_login : ∃ row ∈ (after oneVerifier noAccounts registerRun).shared.users,
    (after oneVerifier noAccounts (registerRun ++ loginRun)).thread 1
      = some ⟨.authenticate ⟨"a@B ", "pw"⟩, .ret (.ok (.found row))⟩ := by
  have hlog : (after oneVerifier noAccounts registerRun).log
      = [⟨0, .create ⟨"A@b", "pw"⟩, .ok (.created ⟨"a@b", pwHash⟩)⟩] := rfl
  obtain ⟨row, hrow, -, hlater⟩ := registered_holds oneVerifier noAccounts registerRun
    (hlog ▸ List.mem_cons_self)
  have hend : (after oneVerifier noAccounts (registerRun ++ loginRun)).thread 1
      = some ⟨.authenticate ⟨"a@B ", "pw"⟩,
        .ret (.ok (.found ⟨Uuid.ofNat 1, "a@b", pwHash⟩))⟩ := rfl
  have hrecognised := hlater loginRun 1 _ _ rfl hend rfl
  have hfound := (hrecognised rfl).1 rfl
  rw [hend, hfound]
  exact ⟨row, hrow, rfl⟩

end Laws

end Nimbus.Users.Accounts
