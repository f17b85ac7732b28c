import AuthApi.Registration

/-!
# The event outbox

A transaction that changes an account records the event in `event_outbox`
and commits both together. The number of the event is drawn from a sequence
when the row is inserted, its time is that of the transaction's start, and
the row is there for others once the transaction has committed.

Relays publish the rows in the order of their numbers. What is published is
on its way (`sent`) until the stream stores it, which it does once per
message; an acknowledgement may be lost, and a message may be stored long
after the relay that sent it gave up on it or died. An advisory lock keeps
the relays from working at the same time.

Of the transactions that record events the ones that suspend and reactivate
an account and the one that revokes its sessions have their statements here.
Every other one is a `record`: it records events of one account, and what
else it writes is in none of these tables. A call may fail at any step,
which is how the checks that touch nothing of this state refuse it (the
re-authentication, the last administrator).

The order of what relays store is in `OutboxOrder`.
-/

namespace AuthApi

open Conc

/-! ## Tables -/

inductive EventName where
  | created
  | emailVerified
  | emailChanged
  | passwordChanged
  | suspended
  | reactivated
  | sessionsRevoked
  | deleted
deriving DecidableEq

/-- A row of `event_outbox`. Its `id`, which is the id of the message, is
unique like its `seq`, which stands for both here. -/
structure OutboxRow where
  seq : Nat
  userId : Uuid
  name : EventName
  createdAt : Int
  published : Bool
  attempts : Nat
  nextAttemptAt : Int
deriving DecidableEq

structure StatusRow where
  id : Uuid
  status : UserStatus
deriving DecidableEq

structure RevocableSession where
  id : Uuid
  userId : Uuid
  revoked : Bool
deriving DecidableEq

structure OutboxState where
  now : Int
  users : Pg.Db StatusRow.id
  sessions : Pg.Db RevocableSession.id
  outbox : Pg.Db OutboxRow.seq
  /-- The next number of the sequence. -/
  nextSeq : Nat
  relayLock : Option Nat
  /-- What relays have handed to the stream. -/
  sent : List Nat
  stream : List Nat

/-! ## Relays -/

def relayBatch : Nat := 100

/-- In seconds. -/
def retryDelay (failedAttempts : Int) : Int :=
  if failedAttempts ≤ 0 then 0 else min (2 ^ (min (failedAttempts - 1) 6).toNat) 60

structure PendingEvent where
  seq : Nat
  attempts : Nat
  due : Bool
deriving DecidableEq

/-- The unpublished events, in order. -/
def OutboxState.pending (s : OutboxState) : List OutboxRow :=
  ((List.range s.nextSeq).filterMap s.outbox.committed).filter (!·.published)

def OutboxState.head (s : OutboxState) (limit : Nat) : List PendingEvent :=
  (s.pending.take limit).map fun row => ⟨row.seq, row.attempts, row.nextAttemptAt ≤ s.now⟩

/-- The stream has the message already, or stores it. -/
def OutboxState.store (s : OutboxState) (seq : Nat) : OutboxState :=
  { s with stream := if seq ∈ s.stream then s.stream else s.stream ++ [seq] }

/-! ## Transactions -/

/-- `suspend`, `reactivate`, `revoke_all`, which may keep a session, and any
other transaction that records events. -/
inductive AccountChange where
  | suspend
  | reactivate
  | revokeAll (keep : Option Uuid)
  | record (events : List EventName)
deriving DecidableEq

/-- Whether the `UPDATE` of the account finds it. -/
def AccountChange.applies : AccountChange → StatusRow → Bool
  | .suspend, row => row.status = .active || row.status = .inactive
  | .reactivate, row => row.status = .suspended || row.status = .inactive
  | .revokeAll _, _ | .record _, _ => false

def AccountChange.status : AccountChange → UserStatus
  | .suspend => .suspended
  | _ => .active

def AccountChange.events : AccountChange → List EventName
  | .suspend => [.suspended, .sessionsRevoked]
  | .reactivate => [.reactivated]
  | .revokeAll _ => [.sessionsRevoked]
  | .record events => events

/-- Whether the `UPDATE` of the sessions finds one. -/
def AccountChange.ends (change : AccountChange) (userId : Uuid) (row : RevocableSession) : Bool :=
  row.userId = userId && !row.revoked && change ≠ .revokeAll (some row.id)

/-- `find` to `enqueue` are those of a transaction, which commits when no
event is left to record. The others are those of `relay_once`. -/
inductive OutboxPc where
  | idle
  | find (change : AccountChange) (userId : Uuid)
  | begin (change : AccountChange) (userId : Uuid)
  | snapshot (change : AccountChange) (userId : Uuid) (startedAt : Int)
  | update (change : AccountChange) (userId : Uuid) (startedAt : Int)
  | sessions (change : AccountChange) (userId : Uuid) (startedAt : Int)
  | revoke (change : AccountChange) (userId : Uuid) (startedAt : Int) (left : List Uuid)
  | enqueue (change : AccountChange) (userId : Uuid) (startedAt : Int) (left : List EventName)
  | backlog
  | lock
  | head
  | publish (left : List PendingEvent)
  | await (event : PendingEvent) (left : List PendingEvent)
  | mark (event : PendingEvent) (left : List PendingEvent)
  | failed (event : PendingEvent)
  | unlock
deriving DecidableEq

abbrev OutboxStep := Option (OutboxState × OutboxPc)

def changeStep (i : Nat) (s : OutboxState) : OutboxPc → OutboxStep
  | .find change userId =>
    some (s, match s.users.committed userId with
      | none => .idle
      | some row =>
        if change = .suspend ∧ row.status = .pendingVerification then .idle
        else .begin change userId)
  | .begin change userId =>
    some (s, match change with
      | .revokeAll _ => .sessions change userId s.now
      | .record events => .enqueue change userId s.now events
      | _ => .snapshot change userId s.now)
  | .snapshot change userId startedAt =>
    some (s, if (s.users.view i userId).any change.applies then .update change userId startedAt
      else .idle)
  | .update change userId startedAt =>
    match s.users.visit i userId change.applies
      (fun row => some { row with status := change.status }) with
    | none => none
    | some (.updated _, users) =>
      some ({ s with users := users },
        if change = .suspend then .sessions change userId startedAt
        else .enqueue change userId startedAt change.events)
    | some (_, users) => some ({ s with users := users.rollback i }, .idle)
  | .sessions change userId startedAt =>
    some (s, .revoke change userId startedAt (s.sessions.scan i (change.ends userId)))
  | .revoke change userId startedAt [] =>
    some (s, .enqueue change userId startedAt change.events)
  | .revoke change userId startedAt (id :: left) =>
    match s.sessions.visit i id (change.ends userId) (fun row => some { row with revoked := true })
      with
    | none => none
    | some (_, sessions) =>
      some ({ s with sessions := sessions }, .revoke change userId startedAt left)
  | .enqueue change userId startedAt (name :: left) =>
    match s.outbox.insert i ⟨s.nextSeq, userId, name, startedAt, false, 0, startedAt⟩ with
    | none => none
    | some outbox =>
      some ({ s with outbox := outbox, nextSeq := s.nextSeq + 1 },
        .enqueue change userId startedAt left)
  | .enqueue _ _ _ [] =>
    some ({ s with
      users := s.users.commit i
      sessions := s.sessions.commit i
      outbox := s.outbox.commit i }, .idle)
  | _ => none

def relayStep (i : Nat) (acked : Bool) (s : OutboxState) : OutboxPc → OutboxStep
  | .backlog => some (s, if s.pending = [] then .idle else .lock)
  | .lock =>
    if s.relayLock = none then some ({ s with relayLock := some i }, .head) else some (s, .idle)
  | .head => some (s, .publish (s.head relayBatch))
  | .publish [] => some (s, .unlock)
  | .publish (event :: left) =>
    if event.due then some ({ s with sent := event.seq :: s.sent }, .await event left)
    else some (s, .unlock)
  | .await event left =>
    -- The acknowledgement comes when the message is stored, or never.
    if acked then if event.seq ∈ s.stream then some (s, .mark event left) else none
    else some (s, .failed event)
  | .mark event left =>
    match s.outbox.update event.seq (fun _ => true) (fun row => some { row with published := true })
      with
    | none => none
    | some (_, outbox) => some ({ s with outbox := outbox }, .publish left)
  | .failed event =>
    match s.outbox.update event.seq (fun _ => true) (fun row => some { row with
        attempts := row.attempts + 1
        nextAttemptAt := s.now + retryDelay (event.attempts + 1) * 1000000 }) with
    | none => none
    | some (_, outbox) => some ({ s with outbox := outbox }, .unlock)
  | .unlock => some ({ s with relayLock := none }, .idle)
  | _ => none

inductive OutboxAct where
  | tick (t : Int)
  /-- The stream receives what was sent. -/
  | deliver (seq : Nat)
  | change (change : AccountChange) (userId : Uuid)
  | relay
  | go (acked : Bool)
  /-- The call fails, or its process dies: what it has not committed is
  undone and its locks are released. -/
  | fail

def outboxProgram : Program OutboxState OutboxPc OutboxAct := fun i a s pc =>
  match a with
  | .tick t => if s.now ≤ t then some ({ s with now := t }, pc) else none
  | .deliver seq => if seq ∈ s.sent then some (s.store seq, pc) else none
  | .change change userId =>
    match pc, change with
    | .idle, .revokeAll _ | .idle, .record _ => some (s, .begin change userId)
    | .idle, _ => some (s, .find change userId)
    | _, _ => none
  | .relay =>
    match pc with
    | .idle => some (s, .backlog)
    | _ => none
  | .go acked => changeStep i s pc <|> relayStep i acked s pc
  | .fail =>
    some ({ s with
      users := s.users.rollback i
      sessions := s.sessions.rollback i
      outbox := s.outbox.rollback i
      relayLock := if s.relayLock = some i then none else s.relayLock }, .idle)

abbrev OutboxConf := Conf OutboxState OutboxPc

/-- Nothing is under way: every event there is was committed, and none was
published. -/
structure OutboxConf.AtRest (c : OutboxConf) : Prop where
  idle : ∀ i, c.procs i = .idle
  users : ∀ k, c.shared.users.holder k = none
  outbox : ∀ n, c.shared.outbox.holder n = none
  numbered : ∀ n row, c.shared.outbox.committed n = some row → n < c.shared.nextSeq
  pending : ∀ n row, c.shared.outbox.committed n = some row → row.published = false
  sent : c.shared.sent = []
  stream : c.shared.stream = []

/-- The tables with these rows, and no call under way. -/
def OutboxConf.load (users : List StatusRow) (sessions : List RevocableSession)
    (events : List OutboxRow) : OutboxConf where
  shared :=
    { now := 0
      users := .load users
      sessions := .load sessions
      outbox := .load events
      nextSeq := events.length
      relayLock := none
      sent := []
      stream := [] }
  procs _ := .idle

theorem OutboxConf.load_atRest {users : List StatusRow} {sessions : List RevocableSession}
    {events : List OutboxRow}
    (h : ∀ n ∈ (load users sessions events).shared.outbox.keys,
      ∀ row ∈ (load users sessions events).shared.outbox.committed n,
        n < events.length ∧ row.published = false) : (load users sessions events).AtRest where
  idle _ := rfl
  users := Pg.Db.load_holder users
  outbox := Pg.Db.load_holder events
  numbered n row hrow := (h n (Pg.Db.mem_keys (.inl hrow)) row hrow).1
  pending n row hrow := (h n (Pg.Db.mem_keys (.inl hrow)) row hrow).2
  sent := rfl
  stream := rfl

end AuthApi
