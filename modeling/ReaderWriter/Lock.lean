import ReaderWriter.Policy

/-!
# The lock

The bookkeeping of a reader-writer lock, and its operations as functions on it.  The resource is
one flag that is raised by a writer or by the first reader of a group, and lowered by the writer or
by the last reader of the group.

Under `fairTicket` every writer takes a ticket the moment it asks.  A reader samples the newest
ticket on arrival and does not join the group before that ticket is completed.  So while a ticket is
out, the only readers that still join are those that arrived before it was taken: a group can grow
then, but not by anybody who comes later.  Writers are admitted strictly by ticket, whatever order
they are woken in.

Each operation is one admission section.  A call that cannot go on gives the `Wait` it stands in,
and `Lock.recheck` is the section that follows when it is woken.
-/

namespace ReaderWriter

inductive Mode where
  | shared
  | exclusive
  deriving DecidableEq, Repr

/-- The queues on which a waiting call is parked. -/
inductive Channel where
  /-- Notified when the resource becomes free. -/
  | released
  /-- Notified when a ticketed writer completes. -/
  | writerDone
  deriving DecidableEq, Repr

/-- What a blocked call waits for. -/
inductive Wait where
  /-- A reader waits until the ticket that was the newest on its arrival is completed. -/
  | ticketDone (ticket : Nat)
  /-- A reader waits until no writer holds the resource. -/
  | groupEntry
  /-- A writer waits until the resource is free and its ticket, if it has one, is next. -/
  | writerEntry (ticket : Option Nat)
  deriving DecidableEq, Repr

def Wait.channel : Wait → Channel
  | .ticketDone _ => .writerDone
  | .groupEntry => .released
  | .writerEntry _ => .released

def Wait.mode : Wait → Mode
  | .ticketDone _ => .shared
  | .groupEntry => .shared
  | .writerEntry _ => .exclusive

/-- What a lock reports while it works. -/
inductive Trace where
  | ticketIssued (ticket : Nat)
  | ticketAdmitted (ticket : Nat)
  | ticketCompleted (ticket : Nat)
  | readerQueued (ticket : Nat)
  deriving DecidableEq, Repr

structure Snapshot where
  activeReaders : Nat := 0
  exclusive : Bool := false
  nextWriterTicket : Nat := 0
  lastServedTicket : Option Nat := none
  queuedReaders : Nat := 0
  deriving DecidableEq, Repr

namespace Snapshot

def isIdle (s : Snapshot) : Bool :=
  s.activeReaders == 0 && !s.exclusive

/-- The newest ticket handed out so far. -/
def newestTicket? (s : Snapshot) : Option Nat :=
  if s.nextWriterTicket = 0 then none else some (s.nextWriterTicket - 1)

/-- The ticket of the writer that may go next; all smaller ones are completed. -/
def nowServing (s : Snapshot) : Nat :=
  match s.lastServedTicket with
  | none => 0
  | some ticket => ticket + 1

end Snapshot

structure Lock extends Snapshot where
  policy : Policy
  deriving DecidableEq, Repr

/-- The end of an admission section: the call was granted, or it waits. -/
structure Admission where
  lock : Lock
  waits : Option Wait := none
  traces : List Trace := []

/-- The end of a release: the channels are notified in this order. -/
structure Release where
  lock : Lock
  notified : List Channel
  traces : List Trace := []

namespace Lock

def new (policy : Policy) : Lock := { policy }

/-- A reader joins the group that is inside, or takes the resource for a new group. -/
def joinGroup (l : Lock) : Admission :=
  if l.activeReaders = 0 ∧ l.exclusive then
    { lock := l, waits := some .groupEntry }
  else
    { lock := { l with
        exclusive := l.exclusive || l.activeReaders == 0
        activeReaders := l.activeReaders + 1 } }

/-- The writer without tickets enters a free resource. -/
def enterUnticketed (l : Lock) : Admission :=
  if l.exclusive then
    { lock := l, waits := some (.writerEntry none) }
  else
    { lock := { l with exclusive := true } }

/-- The holder of `ticket` enters a free resource when its turn has come. -/
def enterTicketed (ticket : Nat) (l : Lock) : Admission :=
  if l.exclusive ∨ l.nowServing ≠ ticket then
    { lock := l, waits := some (.writerEntry (some ticket)) }
  else
    { lock := { l with exclusive := true }, traces := [.ticketAdmitted ticket] }

def requestShared (l : Lock) : Admission :=
  match l.policy with
  | .readerPreference => l.joinGroup
  | .fairTicket =>
    match l.newestTicket? with
    | none => l.joinGroup
    | some ticket =>
      if ticket < l.nowServing then l.joinGroup
      else
        { lock := { l with queuedReaders := l.queuedReaders + 1 }
          waits := some (.ticketDone ticket)
          traces := [.readerQueued ticket] }

def requestExclusive (l : Lock) : Admission :=
  match l.policy with
  | .readerPreference => l.enterUnticketed
  | .fairTicket =>
    let ticket := l.nextWriterTicket
    let entry := enterTicketed ticket { l with nextWriterTicket := ticket + 1 }
    { entry with traces := .ticketIssued ticket :: entry.traces }

/-- The first section of a call that asks for access. -/
def request (l : Lock) : Mode → Admission
  | .shared => l.requestShared
  | .exclusive => l.requestExclusive

/-- The section of a call that was woken: it looks again at what it waits for. -/
def recheck (l : Lock) : Wait → Admission
  | .ticketDone ticket =>
    if ticket < l.nowServing then
      joinGroup { l with queuedReaders := l.queuedReaders - 1 }
    else
      { lock := l, waits := some (.ticketDone ticket) }
  | .groupEntry => l.joinGroup
  | .writerEntry none => l.enterUnticketed
  | .writerEntry (some ticket) => l.enterTicketed ticket

/-- One reader leaves; the last one of the group frees the resource.  `none` if no reader is in. -/
def releaseShared? (l : Lock) : Option Release :=
  if l.activeReaders = 0 then none
  else if l.activeReaders = 1 then
    some { lock := { l with activeReaders := 0, exclusive := false }, notified := [.released] }
  else
    some { lock := { l with activeReaders := l.activeReaders - 1 }, notified := [] }

/-- The writer leaves and completes its ticket, which is the one being served.  `none` if no writer
is in. -/
def releaseExclusive? (l : Lock) : Option Release :=
  if l.exclusive ∧ l.activeReaders = 0 then
    match l.policy with
    | .readerPreference =>
      some { lock := { l with exclusive := false }, notified := [.released] }
    | .fairTicket =>
      let ticket := l.nowServing
      some
        { lock := { l with lastServedTicket := some ticket, exclusive := false }
          notified := [.writerDone, .released]
          traces := [.ticketCompleted ticket] }
  else none

/-- Gives an access back; `none`, with nothing changed, if no such access is held. -/
def release? (l : Lock) : Mode → Option Release
  | .shared => l.releaseShared?
  | .exclusive => l.releaseExclusive?

end Lock

inductive Call where
  | acquire (mode : Mode)
  | release (mode : Mode)
  deriving DecidableEq, Repr

end ReaderWriter
