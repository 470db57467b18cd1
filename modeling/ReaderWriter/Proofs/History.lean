import Mathlib.Data.List.Basic
import ReaderWriter.Proofs.Scene

/-!
# Lawful histories

Under tickets every event of a history is justified by the events before it.  A ticket is issued,
admitted and completed as the next one in its line.  It is admitted for the task that took it, and
completed after that.  An access is granted to a task whose request is open, and not before every
ticket that was issued ahead of that request is completed.

A lawful history has the tickets of each stage in order, without a gap or a repetition.
-/

namespace ReaderWriter

variable {ε : Type}

/-- What happens to a ticket, in this order. -/
inductive Stage where
  | issued
  | admitted
  | completed
  deriving DecidableEq, Repr

def Trace.ticket? : Stage → Trace → Option Nat
  | .issued, .ticketIssued ticket => some ticket
  | .admitted, .ticketAdmitted ticket => some ticket
  | .completed, .ticketCompleted ticket => some ticket
  | _, _ => none

def Event.ticket? (stage : Stage) : Event ε → Option Nat
  | .traced _ trace => trace.ticket? stage
  | _ => none

/-- The tickets that came to a stage, in the order of the events. -/
def tickets (stage : Stage) (events : List (Event ε)) : List Nat :=
  events.filterMap (Event.ticket? stage)

/-- The number of tickets that had been issued when the task made its latest request, in a history
with the newest event first. -/
def ticketsAhead (task : Nat) : List (Event ε) → Nat
  | [] => 0
  | .requested other _ :: earlier =>
    if other = task then (tickets .issued earlier).length else ticketsAhead task earlier
  | _ :: earlier => ticketsAhead task earlier

/-- What the task has asked for and not been granted, in a history with the newest event first. -/
def pending? (task : Nat) : List (Event ε) → Option Mode
  | [] => none
  | .requested other mode :: earlier =>
    if other = task then some mode else pending? task earlier
  | .granted other _ :: earlier => if other = task then none else pending? task earlier
  | _ :: earlier => pending? task earlier

def Event.Justified (earlier : List (Event ε)) : Event ε → Prop
  | .granted task mode =>
    pending? task earlier = some mode ∧
      ticketsAhead task earlier ≤ (tickets .completed earlier).length
  | .traced _ (.ticketIssued ticket) => ticket = (tickets .issued earlier).length
  | .traced task (.ticketAdmitted ticket) =>
    ticket = (tickets .admitted earlier).length ∧ .traced task (.ticketIssued ticket) ∈ earlier
  | .traced _ (.ticketCompleted ticket) =>
    ticket = (tickets .completed earlier).length ∧ ticket < (tickets .admitted earlier).length
  | _ => True

/-- Every event of a history, newest first, is justified by those before it. -/
def Lawful : List (Event ε) → Prop
  | [] => True
  | event :: earlier => event.Justified earlier ∧ Lawful earlier

@[simp] theorem tickets_nil (stage : Stage) : tickets stage ([] : List (Event ε)) = [] := rfl

theorem tickets_append (stage : Stage) (later earlier : List (Event ε)) :
    tickets stage (later ++ earlier) = tickets stage later ++ tickets stage earlier :=
  List.filterMap_append

theorem tickets_cons (stage : Stage) (event : Event ε) (earlier : List (Event ε)) :
    tickets stage (event :: earlier) = (event.ticket? stage).toList ++ tickets stage earlier := by
  cases hticket : event.ticket? stage <;> simp [tickets, hticket]

theorem tickets_reverse (stage : Stage) (events : List (Event ε)) :
    tickets stage events.reverse = (tickets stage events).reverse :=
  List.filterMap_reverse

theorem mem_tickets {stage : Stage} {events : List (Event ε)} {ticket : Nat} :
    ticket ∈ tickets stage events ↔
      ∃ task trace, .traced task trace ∈ events ∧ trace.ticket? stage = some ticket := by
  simp only [tickets, List.mem_filterMap]
  constructor
  · rintro ⟨event, hevent, hticket⟩
    cases event with
    | traced task trace => exact ⟨task, trace, hevent, hticket⟩
    | _ => simp [Event.ticket?] at hticket
  · rintro ⟨task, trace, hevent, hticket⟩
    exact ⟨_, hevent, hticket⟩

theorem Trace.ticket?_issued {trace : Trace} {ticket : Nat} :
    trace.ticket? .issued = some ticket ↔ trace = .ticketIssued ticket := by
  cases trace <;> simp [Trace.ticket?]

theorem Trace.ticket?_admitted {trace : Trace} {ticket : Nat} :
    trace.ticket? .admitted = some ticket ↔ trace = .ticketAdmitted ticket := by
  cases trace <;> simp [Trace.ticket?]

theorem Trace.ticket?_completed {trace : Trace} {ticket : Nat} :
    trace.ticket? .completed = some ticket ↔ trace = .ticketCompleted ticket := by
  cases trace <;> simp [Trace.ticket?]

/-! ## What lawful histories have -/

namespace Lawful

theorem of_append {later earlier : List (Event ε)} (hlawful : Lawful (later ++ earlier)) :
    Lawful earlier := by
  induction later with
  | nil => exact hlawful
  | cons event later ih => exact ih hlawful.2

theorem justified {later earlier : List (Event ε)} {event : Event ε}
    (hlawful : Lawful (later ++ event :: earlier)) : event.Justified earlier :=
  (of_append hlawful).1

/-- A ticket comes to a stage as the next one in its line. -/
theorem ticket_eq {task : Nat} {trace : Trace} {earlier : List (Event ε)} {stage : Stage}
    {ticket : Nat} (hjustified : (Event.traced task trace).Justified earlier)
    (hticket : trace.ticket? stage = some ticket) :
    ticket = (tickets stage earlier).length := by
  cases stage with
  | issued =>
      obtain rfl := Trace.ticket?_issued.mp hticket
      exact hjustified
  | admitted =>
      obtain rfl := Trace.ticket?_admitted.mp hticket
      exact hjustified.1
  | completed =>
      obtain rfl := Trace.ticket?_completed.mp hticket
      exact hjustified.1

theorem tickets_eq_range {history : List (Event ε)} (hlawful : Lawful history) (stage : Stage) :
    tickets stage history.reverse = List.range (tickets stage history).length := by
  induction history with
  | nil => rfl
  | cons event earlier ih =>
      have hearlier := ih hlawful.2
      rw [List.reverse_cons, tickets_append, hearlier, tickets_cons, tickets_cons]
      cases hticket : event.ticket? stage with
      | none => simp
      | some ticket =>
          cases event with
          | traced task trace =>
              have hnext := ticket_eq hlawful.1 hticket
              simp [hnext, List.range_succ]
          | _ => simp [Event.ticket?] at hticket

theorem mem_tickets_iff {history : List (Event ε)} (hlawful : Lawful history) {stage : Stage}
    {ticket : Nat} : ticket ∈ tickets stage history ↔ ticket < (tickets stage history).length := by
  rw [← List.mem_reverse, ← tickets_reverse, hlawful.tickets_eq_range, List.mem_range]

theorem ticket_unique {history : List (Event ε)} (hlawful : Lawful history) {stage : Stage}
    {ticket task other : Nat} {trace otherTrace : Trace}
    (htask : .traced task trace ∈ history) (htrace : trace.ticket? stage = some ticket)
    (hother : .traced other otherTrace ∈ history)
    (hotherTrace : otherTrace.ticket? stage = some ticket) : task = other := by
  induction history with
  | nil => simp at htask
  | cons event earlier ih =>
      have hnew : ∀ {newest oldest : Nat} {newTrace oldTrace : Trace},
          event = .traced newest newTrace → newTrace.ticket? stage = some ticket →
          .traced oldest oldTrace ∈ earlier → oldTrace.ticket? stage = some ticket → False := by
        rintro newest oldest newTrace oldTrace rfl hnewest hmem holdest
        have hnext := ticket_eq hlawful.1 hnewest
        have hless := hlawful.2.mem_tickets_iff.mp (mem_tickets.mpr ⟨_, _, hmem, holdest⟩)
        omega
      rcases List.mem_cons.mp htask with hevent | htask
      · rcases List.mem_cons.mp hother with hsame | hother
        · rw [← hevent] at hsame
          injection hsame with hsame
          exact hsame.symm
        · exact (hnew hevent.symm htrace hother hotherTrace).elim
      · rcases List.mem_cons.mp hother with hevent | hother
        · exact (hnew hevent.symm hotherTrace htask htrace).elim
        · exact ih hlawful.2 htask hother

end Lawful

end ReaderWriter
