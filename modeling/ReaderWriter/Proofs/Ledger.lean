import ReaderWriter.Proofs.Counters
import ReaderWriter.Proofs.Overtaking

/-!
# The ledger of tickets

What the bookkeeping of a lock with tickets says about the calls that were made.  The tickets come
to each stage in their order, and the counters of the lock are the lengths of these lists.  A ticket
that is out belongs to one call, which waits for its turn or is inside.  The counters stay below the
number of calls, and none of them is lowered from zero.
-/

namespace ReaderWriter

variable {ε : Type}

/-- A call begins by asking for access, or it gives an access back. -/
def Event.calls : Event ε → Bool
  | .requested _ _ => true
  | .released _ _ => true
  | .misused _ _ => true
  | _ => false

namespace Scene

/-- The call that took the ticket waits for its turn. -/
structure Pends (s : Scene ε) (task ticket : Nat) : Prop where
  waits : s.At task (.waiting (.writerEntry (some ticket)))
  unadmitted : ticket ∉ tickets .admitted s.history

/-- The call that took the ticket was admitted, and its access is not given back. -/
structure Serves (s : Scene ε) (task ticket : Nat) : Prop where
  serving : s.lock.nowServing = ticket
  admitted : .traced task (.ticketAdmitted ticket) ∈ s.history
  uncompleted : ticket ∉ tickets .completed s.history
  inside : s.lock.exclusive = true ∧ s.lock.activeReaders = 0

structure Ledger (s : Scene ε) : Prop where
  /-- The tickets come to each stage from zero on, without a gap or a repetition. -/
  order : ∀ stage, tickets stage s.history.reverse = List.range (tickets stage s.history).length
  completed_le : (tickets .completed s.history).length ≤ (tickets .admitted s.history).length
  admitted_le : (tickets .admitted s.history).length ≤ (tickets .completed s.history).length + 1
  admitted_le_issued :
    (tickets .admitted s.history).length ≤ (tickets .issued s.history).length
  nextWriterTicket : s.lock.nextWriterTicket = (tickets .issued s.history).length
  lastServedTicket : s.lock.lastServedTicket =
    if (tickets .completed s.history).length = 0 then none
    else some ((tickets .completed s.history).length - 1)
  nowServing_le : s.lock.nowServing ≤ s.lock.nextWriterTicket
  /-- A ticket that is out was issued at one moment, to a call that still needs it. -/
  owner : ∀ ticket, s.lock.nowServing ≤ ticket → ticket < s.lock.nextWriterTicket →
    ∃! issue : Nat, ∃ task : Nat,
      s.history.reverse[issue]? = some (Event.traced task (.ticketIssued ticket)) ∧
        (s.Pends task ticket ∨ s.Serves task ticket)
  queuedReaders : s.lock.queuedReaders = s.points.countP Point.queued
  queuedReaders_pos : ∀ task ticket, s.At task (.waiting (.ticketDone ticket)) →
    0 < s.lock.queuedReaders
  activeReaders_pos : ∀ r, s.lock.release? .shared = some r → 0 < s.lock.activeReaders
  /-- No counter gets ahead of the calls, so none overflows a word of 64 bits before `2 ^ 64` calls
  were made. -/
  bounded : ∀ limit, s.history.countP Event.calls < limit →
    s.lock.activeReaders < limit ∧ s.lock.queuedReaders < limit ∧
      s.lock.nextWriterTicket < limit ∧ s.lock.nowServing < limit

theorem countP_requests_le (history : List (Event ε)) :
    history.countP Event.requests ≤ history.countP Event.calls := by
  apply List.countP_mono_left
  intro event _ hrequests
  cases event with
  | requested task mode => rfl
  | _ => simp [Event.requests] at hrequests

/-- A ticket that was issued and not completed waits for its turn or is being served. -/
theorem Ticketed.pends_or_serves {s : Scene ε} (hticketed : s.Ticketed) {task ticket : Nat}
    (hissued : .traced task (.ticketIssued ticket) ∈ s.history)
    (hserving : s.lock.nowServing ≤ ticket) : s.Pends task ticket ∨ s.Serves task ticket := by
  by_cases hopen : s.lock.ticketsAdmitted ≤ ticket
  · left
    constructor
    · exact hticketed.owned task ticket hissued hopen
    · rw [hticketed.lawful.mem_tickets_iff, hticketed.admitted]
      omega
  · right
    have hinside : s.lock.exclusive = true ∧ s.lock.activeReaders = 0 := by
      by_contra hnot
      have hnone : s.lock.writersInside = 0 := if_neg hnot
      unfold Lock.ticketsAdmitted at hopen
      omega
    have hnow : s.lock.nowServing = ticket := by
      have hone := s.lock.writersInside_le_one
      unfold Lock.ticketsAdmitted at hopen
      omega
    constructor
    · exact hnow
    · have hadmitted : ticket ∈ tickets .admitted s.history := by
        rw [hticketed.lawful.mem_tickets_iff, hticketed.admitted]
        omega
      obtain ⟨other, trace, hmem, hticket⟩ := mem_tickets.mp hadmitted
      rw [Trace.ticket?_admitted.mp hticket] at hmem
      -- the task that was admitted is the one that took the ticket
      obtain ⟨later, earlier, hsplit⟩ := List.append_of_mem hmem
      have hlawful := hticketed.lawful
      rw [hsplit] at hlawful
      have howner : .traced other (.ticketIssued ticket) ∈ s.history := by
        rw [hsplit]
        exact List.mem_append_right _ (List.mem_cons_of_mem _ hlawful.justified.2)
      have hissuedTicket : Trace.ticket? .issued (.ticketIssued ticket) = some ticket := rfl
      have hsame : other = task :=
        hticketed.lawful.ticket_unique howner hissuedTicket hissued hissuedTicket
      rwa [hsame] at hmem
    · rw [hticketed.lawful.mem_tickets_iff, hticketed.completed]
      omega
    · exact hinside

theorem Ticketed.exists_owner {s : Scene ε} (hticketed : s.Ticketed) {ticket : Nat}
    (hserving : s.lock.nowServing ≤ ticket) (hnext : ticket < s.lock.nextWriterTicket) :
    ∃! issue : Nat, ∃ task : Nat,
      s.history.reverse[issue]? = some (Event.traced task (.ticketIssued ticket)) ∧
        (s.Pends task ticket ∨ s.Serves task ticket) := by
  have hlog : Lawful s.history.reverse.reverse := by
    rw [List.reverse_reverse]
    exact hticketed.lawful
  have hissued : ticket ∈ tickets .issued s.history := by
    rw [hticketed.lawful.mem_tickets_iff, hticketed.issued]
    exact hnext
  obtain ⟨task, trace, hmem, hticket⟩ := mem_tickets.mp hissued
  rw [Trace.ticket?_issued.mp hticket] at hmem
  obtain ⟨issue, hissue⟩ := List.mem_iff_getElem?.mp (List.mem_reverse.mpr hmem)
  refine ⟨issue, ⟨task, hissue, hticketed.pends_or_serves hmem hserving⟩, ?_⟩
  intro other hother
  obtain ⟨otherTask, hotherIssue, _⟩ := hother
  exact hlog.moment_unique hotherIssue (Trace.ticket?_issued.mpr rfl) hissue
    (Trace.ticket?_issued.mpr rfl)

theorem Ticketed.ledger {s : Scene ε} (hticketed : s.Ticketed) (haccounts : s.Accounts)
    (hcounted : s.Counted) : s.Ledger := by
  have hissued := hticketed.issued
  have hadmitted := hticketed.admitted
  have hcompleted := hticketed.completed
  have hadmittedLe := hticketed.admitted_le
  have hwriter := s.lock.writersInside_le_one
  have hcalls := countP_requests_le s.history
  have hnextLe := hcounted.nextWriterTicket_le hticketed
  have hactiveLe := hcounted.activeReaders_le haccounts
  have hqueuedLe := hcounted.queuedReaders_le
  unfold Lock.ticketsAdmitted at hadmitted hadmittedLe
  constructor
  · exact hticketed.lawful.tickets_eq_range
  · omega
  · omega
  · omega
  · exact hissued.symm
  · rw [hcompleted]
    unfold Snapshot.nowServing
    cases s.lock.lastServedTicket <;> simp
  · omega
  · intro ticket hserving hnext
    exact hticketed.exists_owner hserving hnext
  · exact hcounted.queued
  · intro task ticket hat
    exact hcounted.queuedReaders_pos hat
  · intro r hrelease
    rcases Lock.release?_shared_cases hrelease with ⟨hlast, _⟩ | ⟨hmany, _⟩ <;> omega
  · intro limit hlimit
    omega

end Scene

end ReaderWriter
