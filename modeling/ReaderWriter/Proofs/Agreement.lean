import ReaderWriter.Proofs.Script.Agreement
import ReaderWriter.Proofs.Workload.Agreement

/-!
# The policies agree when nobody has to wait

The fair policy lets a call in at once only if the other one does, too.  So as long as the fair one
makes no task wait, the choice of the policy cannot be seen, except by the tickets: the same tasks
are chosen, the same calls are admitted, released or misused, and every answer is the same.
-/

namespace ReaderWriter

namespace Script

/-- What a script has in common under both policies. -/
structure Agreement (s : Script) : Prop where
  /-- At any time nobody waits, the same task runs and the same ones are ready in the same order, and
  the machines differ only in their tickets. -/
  course : ∀ before step, before ++ [step] <+: s.steps → ∀ moves,
    let fair := (s.under .fairTicket).midway before step moves
    let preferring := (s.under .readerPreference).midway before step moves
    preferring.Unhindered ∧ preferring.running = fair.running ∧ preferring.ready = fair.ready ∧
      preferring = fair.plain
  answers : (s.under .readerPreference).run = (s.under .fairTicket).run.plain
  /-- No answer of the fair lock shows a reader in its queue or a task that waits. -/
  calm : ∀ answer ∈ (s.under .fairTicket).run.answers,
    answer.snapshot.queuedReaders = 0 ∧ ∀ view ∈ answer.tasks, view.waits = false

theorem NeverWaits.agreement {s : Script} (hfree : (s.under .fairTicket).NeverWaits) :
    s.Agreement := by
  constructor
  case course =>
    intro before step hbegins moves fair preferring
    have hplain : preferring = fair.plain := hfree.midway_plain hbegins moves
    have hfair : fair.Unhindered := ((hfree.flows hbegins).later moves).unhindered
    rw [hplain]
    exact ⟨⟨hfair.nobody, hfair.points⟩, rfl, rfl, rfl⟩
  case answers => exact hfree.run_plain
  case calm => exact fun _ hanswer => hfree.of_mem_answers hanswer

/-- In raw style one task gives back what another one took, and then what nobody holds. -/
def inTurn : Script where
  policy := .fairTicket
  style := .raw
  names := ["a", "b"]
  steps := [
    [.hand "a" (some (.call (.acquire .exclusive)))],
    [.hand "b" (some (.call (.release .exclusive))), .wake ["a"]],
    [.hand "a" (some (.call (.release .shared)))],
    [.hand "a" (some (.call (.acquire .shared))), .hand "b" (some (.call (.acquire .shared)))]]
  picks := [1]
  preempt := true

def inTurnReaders : Script :=
  { inTurn with steps := inTurn.steps.drop 2 }

end Script

/-- A reader with two calls beside a writer with none. -/
def Workload.idleWriter : Workload.Config :=
  { Workload.twoThreads with writerLoops := 0 }

/-- A script whose tasks never wait under the fair policy runs in the same way under the other one.
In particular both policies give the same results to scripts and workloads that do not write. -/
theorem policies_agree_without_waiting :
    (∀ s : Script, (s.under .fairTicket).NeverWaits → s.Agreement) ∧
      (∀ s : Script, s.Reads → (s.under .fairTicket).NeverWaits ∧
        (s.under .readerPreference).run = (s.under .fairTicket).run) ∧
      ∀ (c : Workload.Config) (chance : Workload.Chance), c.writers = 0 ∨ c.writerLoops = 0 →
        Workload.run (c.under .readerPreference) chance =
          (Workload.run (c.under .fairTicket) chance).under .readerPreference := by
  refine ⟨fun _ hfree => hfree.agreement, ?_, ?_⟩
  · intro s hreads
    have hfair : (s.under .fairTicket).Reads := hreads
    exact ⟨hfair.neverWaits, hreads.run_eq⟩
  · intro c chance hwriters
    exact Workload.run_under (c := c.under .fairTicket) hwriters chance

theorem policies_agree_without_waiting_inTurn :
    ((Script.inTurn.under .fairTicket).NeverWaits ∧ Script.inTurn.Agreement ∧
      (Script.inTurn.under .readerPreference).run ≠ (Script.inTurn.under .fairTicket).run) ∧
    (Script.inTurnReaders.Reads ∧
      (Script.inTurnReaders.under .readerPreference).run =
        (Script.inTurnReaders.under .fairTicket).run) ∧
    (Workload.idleWriter.writerLoops = 0 ∧
      Workload.run (Workload.idleWriter.under .readerPreference) Workload.secondFails =
        (Workload.run (Workload.idleWriter.under .fairTicket) Workload.secondFails).under
          .readerPreference) := by
  have hfree : (Script.inTurn.under .fairTicket).NeverWaits := by decide +kernel
  have hreads : Script.inTurnReaders.Reads := by decide
  obtain ⟨hscripts, hreading, hworkloads⟩ := policies_agree_without_waiting
  refine ⟨⟨hfree, hscripts _ hfree, by decide +kernel⟩, ⟨hreads, (hreading _ hreads).2⟩, rfl, ?_⟩
  exact hworkloads _ _ (.inr rfl)

end ReaderWriter
