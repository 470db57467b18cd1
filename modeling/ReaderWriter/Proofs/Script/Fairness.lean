import Mathlib.Tactic.IntervalCases
import ReaderWriter.Proofs.Ledger
import ReaderWriter.Proofs.Script.Course

/-!
# Fairness under tickets

In every state of every script under `fairTicket`, whatever its style is, the history is lawful and
the lock keeps its ledger.  So nobody overtakes a ticket, and the tickets are accounted for.
-/

namespace ReaderWriter.Script

variable {s : Script} {m : State}

theorem Reaches.accounts (hm : s.Reaches m) : m.scene.Accounts :=
  hm.run.accounts (Scene.start_accounts _ _)

theorem Reaches.ticketed (hm : s.Reaches m) (hpolicy : s.policy = .fairTicket) :
    m.scene.Ticketed := by
  have hrun := hm.run
  have haccounts : (Scene.start s.policy s.names.length : Scene Note).Accounts :=
    Scene.start_accounts _ _
  rw [hpolicy] at hrun haccounts
  exact hrun.ticketed haccounts (Scene.start_ticketed _)

/-- An access asked for after the issue of a ticket is granted after the completion of that ticket.
While a ticket is out, the group grows only by reads that were asked for before its issue, and until
its admission each task is granted at most one access. -/
theorem no_overtaking (hpolicy : s.policy = .fairTicket) (hm : s.Reaches m) :
    NoOvertaking m.history.reverse ∧
      ∀ next, m.step program = some next → m.lock.activeReaders < next.lock.activeReaders →
        next.lock.activeReaders = m.lock.activeReaders + 1 ∧
          ∃ asked granted task, m.history.length ≤ granted ∧
            Answered next.history.reverse asked granted task .shared ∧
              ∀ ticket owner issue,
                next.history.reverse[issue]? = some (.traced owner (.ticketIssued ticket)) →
                ticket ∉ tickets .completed next.history → asked < issue := by
  have hticketed := hm.ticketed hpolicy
  have haccounts := hm.accounts
  constructor
  · have hlog : Lawful m.history.reverse.reverse := by
      rw [List.reverse_reverse]
      exact hticketed.lawful
    exact hlog.noOvertaking
  · intro next hstep hgrows
    have hrun := Machine.run_step hstep
    have hnext := (hrun.ticketed haccounts hticketed).lawful
    refine ⟨?_, hrun.exists_earlier_request haccounts hnext hgrows⟩
    have hphase : next.lock.phase.readers ≤ m.lock.phase.readers + 1 := by
      rcases Machine.step_phase haccounts hstep with hsame | hmoved
      · rw [hsame]
        exact Nat.le_succ _
      · exact hmoved.readers_le
    rw [Lock.phase_readers, Lock.phase_readers] at hphase
    omega

theorem no_overtaking_queuedWriter :
    queuedWriter.policy = .fairTicket ∧
      ∃ moment < 29, ∃ finisher,
        (queuedWriter.after queuedWriter.steps).history.reverse[moment]? =
          some (.traced finisher (.ticketCompleted 0)) := by
  have hpolicy : queuedWriter.policy = .fairTicket := rfl
  have hm := queuedWriter.reaches_after queuedWriter.steps
  have hfair := (no_overtaking hpolicy hm).1
  have hanswered :
      Answered (queuedWriter.after queuedWriter.steps).history.reverse 15 29 0 .shared := by
    refine ⟨⟨?_, ?_, ?_⟩, ?_⟩
    · decide
    · decide +kernel
    · intro moment hafter hbefore other
      interval_cases moment <;> cases other <;> decide +kernel
    · decide +kernel
  have hissue :
      (queuedWriter.after queuedWriter.steps).history.reverse[10]? =
        some (.traced 2 (.ticketIssued 0)) := by
    decide +kernel
  exact ⟨hpolicy, hfair.completed 15 29 0 .shared 0 2 10 hanswered hissue (by decide)⟩

/-- Tickets are issued, admitted and completed in order, and each ticket that is out belongs to one
call. -/
theorem ticket_accounting (hpolicy : s.policy = .fairTicket) (hm : s.Reaches m) :
    m.scene.Ledger :=
  (hm.ticketed hpolicy).ledger hm.accounts (hm.run.counted (Scene.start_counted _ _))

theorem ticket_accounting_queuedWriter :
    queuedWriter.policy = .fairTicket ∧
      tickets .issued (queuedWriter.after (queuedWriter.steps.take 4)).history.reverse = [0] ∧
        (queuedWriter.after (queuedWriter.steps.take 4)).lock.queuedReaders = 1 := by
  have hpolicy : queuedWriter.policy = .fairTicket := rfl
  have hm := queuedWriter.reaches_after (queuedWriter.steps.take 4)
  have hledger := ticket_accounting hpolicy hm
  have hnext :
      (queuedWriter.after (queuedWriter.steps.take 4)).lock.nextWriterTicket = 1 := by
    decide +kernel
  have hqueued :
      (queuedWriter.after (queuedWriter.steps.take 4)).lock.queuedReaders = 1 := by
    decide +kernel
  have hissued :
      (tickets .issued (queuedWriter.after (queuedWriter.steps.take 4)).history).length = 1 :=
    hledger.nextWriterTicket.symm.trans hnext
  have horder := hledger.order .issued
  refine ⟨hpolicy, ?_, hqueued⟩
  exact horder.trans (congrArg List.range hissued)

end ReaderWriter.Script
