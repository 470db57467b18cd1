import Mathlib.Data.List.Count
import ReaderWriter.Proofs.Tickets

/-!
# Nobody overtakes a ticket

The places of a log, oldest event first, are the moments of a run.  In the log of a lawful history
every grant answers one request.  If a ticket was issued before that request, it is completed before
the grant.  As a task has one request open at a time, it is granted at most one access between the
issue of a ticket and its admission.
-/

namespace ReaderWriter

variable {ε : Type}

/-- The task asked for access at one moment, and up to another one it makes no other request and is
granted nothing. -/
structure Asks (log : List (Event ε)) (asked now task : Nat) (mode : Mode) : Prop where
  before : asked < now
  request : log[asked]? = some (.requested task mode)
  meanwhile : ∀ moment, asked < moment → moment < now → ∀ other,
    log[moment]? ≠ some (.requested task other) ∧ log[moment]? ≠ some (.granted task other)

/-- The access that a task asked for at one moment is granted at another one. -/
structure Answered (log : List (Event ε)) (asked granted task : Nat) (mode : Mode) : Prop
    extends Asks log asked granted task mode where
  grant : log[granted]? = some (.granted task mode)

/-- The task is granted any access. -/
def Event.admitsTo (task : Nat) : Event ε → Bool
  | .granted other _ => other = task
  | _ => false

/-! ## Moments of a log -/

theorem mem_tickets_take {stage : Stage} {log : List (Event ε)} {count ticket : Nat} :
    ticket ∈ tickets stage (log.take count) ↔
      ∃ moment < count, ∃ task trace,
        log[moment]? = some (.traced task trace) ∧ trace.ticket? stage = some ticket := by
  rw [mem_tickets]
  constructor
  · rintro ⟨task, trace, hmem, hticket⟩
    obtain ⟨moment, hmoment⟩ := List.mem_iff_getElem?.mp hmem
    rw [List.getElem?_take] at hmoment
    split at hmoment
    · exact ⟨moment, by assumption, task, trace, hmoment, hticket⟩
    · simp at hmoment
  · rintro ⟨moment, hlt, task, trace, hmoment, hticket⟩
    refine ⟨task, trace, ?_, hticket⟩
    apply List.mem_iff_getElem?.mpr
    exact ⟨moment, by rw [List.getElem?_take, if_pos hlt, hmoment]⟩

theorem reverse_take_succ {log : List (Event ε)} {moment : Nat} {event : Event ε}
    (hevent : log[moment]? = some event) :
    (log.take (moment + 1)).reverse = event :: (log.take moment).reverse := by
  rw [List.take_add_one, hevent]
  simp

namespace Lawful

theorem reverse_take {log : List (Event ε)} (hlawful : Lawful log.reverse) (count : Nat) :
    Lawful (log.take count).reverse := by
  have hsplit : log.reverse = (log.drop count).reverse ++ (log.take count).reverse := by
    rw [← List.reverse_append, List.take_append_drop]
  rw [hsplit] at hlawful
  exact hlawful.of_append

theorem justified_at {log : List (Event ε)} (hlawful : Lawful log.reverse) {moment : Nat}
    {event : Event ε} (hevent : log[moment]? = some event) :
    event.Justified (log.take moment).reverse := by
  have hnewest := hlawful.reverse_take (moment + 1)
  rw [reverse_take_succ hevent] at hnewest
  exact hnewest.1

theorem mem_tickets_take_iff {log : List (Event ε)} (hlawful : Lawful log.reverse)
    {stage : Stage} {count ticket : Nat} :
    ticket ∈ tickets stage (log.take count) ↔
      ticket < (tickets stage (log.take count)).length := by
  have hnewest :
      ticket ∈ tickets stage (log.take count).reverse ↔
        ticket < (tickets stage (log.take count).reverse).length :=
    (hlawful.reverse_take count).mem_tickets_iff
  rw [tickets_reverse, List.mem_reverse, List.length_reverse] at hnewest
  exact hnewest

theorem moment_unique {log : List (Event ε)} (hlawful : Lawful log.reverse) {stage : Stage}
    {ticket first second task other : Nat} {trace otherTrace : Trace}
    (hfirst : log[first]? = some (.traced task trace)) (htrace : trace.ticket? stage = some ticket)
    (hsecond : log[second]? = some (.traced other otherTrace))
    (hotherTrace : otherTrace.ticket? stage = some ticket) : first = second := by
  have hnotBefore : ∀ {earlier later task other : Nat} {trace otherTrace : Trace},
      log[earlier]? = some (.traced task trace) → trace.ticket? stage = some ticket →
      log[later]? = some (.traced other otherTrace) → otherTrace.ticket? stage = some ticket →
      ¬ earlier < later := by
    intro earlier later task other trace otherTrace hearlier htrace hlater hotherTrace hlt
    -- the later one would be the next ticket in its line, and that is a new one
    have hmem : ticket ∈ tickets stage (log.take later) :=
      mem_tickets_take.mpr ⟨earlier, hlt, task, trace, hearlier, htrace⟩
    have hless := hlawful.mem_tickets_take_iff.mp hmem
    have hnext := ticket_eq (hlawful.justified_at hlater) hotherTrace
    rw [tickets_reverse, List.length_reverse] at hnext
    omega
  have hforth := hnotBefore hfirst htrace hsecond hotherTrace
  have hback := hnotBefore hsecond hotherTrace hfirst htrace
  omega

theorem admitted_of_completed {log : List (Event ε)} (hlawful : Lawful log.reverse)
    {count ticket : Nat} (hcompleted : ticket ∈ tickets .completed (log.take count)) :
    ticket ∈ tickets .admitted (log.take count) := by
  obtain ⟨moment, hlt, task, trace, hevent, hticket⟩ := mem_tickets_take.mp hcompleted
  obtain rfl := Trace.ticket?_completed.mp hticket
  have hadmitted := (hlawful.justified_at hevent).2
  rw [tickets_reverse, List.length_reverse] at hadmitted
  have hmem := hlawful.mem_tickets_take_iff.mpr hadmitted
  obtain ⟨earlier, hearlier, rest⟩ := mem_tickets_take.mp hmem
  exact mem_tickets_take.mpr ⟨earlier, hearlier.trans hlt, rest⟩

end Lawful

/-! ## Requests and grants -/

theorem Asks.succ {log : List (Event ε)} {asked now task : Nat} {mode : Mode}
    (hasks : Asks log asked now task mode)
    (hneither : ∀ other,
      log[now]? ≠ some (.requested task other) ∧ log[now]? ≠ some (.granted task other)) :
    Asks log asked (now + 1) task mode := by
  constructor
  · exact hasks.before.trans (Nat.lt_succ_self now)
  · exact hasks.request
  · intro moment hafter hbefore
    by_cases hlast : moment = now
    · subst moment
      exact hneither
    · exact hasks.meanwhile moment hafter (by omega)

/-- What is pending at a moment was asked for earlier, behind the tickets that were issued then. -/
theorem exists_asks_of_pending {log : List (Event ε)} {task : Nat} {mode : Mode} {now : Nat}
    (hnow : now ≤ log.length) (hpending : pending? task (log.take now).reverse = some mode) :
    ∃ asked, Asks log asked now task mode ∧
      ticketsAhead task (log.take now).reverse = (tickets .issued (log.take asked)).length := by
  -- the last event before the moment is the request, or it says nothing about the task
  induction now with
  | zero => simp [pending?] at hpending
  | succ now ih =>
      have hlt : now < log.length := hnow
      have hevent : log[now]? = some log[now] := List.getElem?_eq_getElem hlt
      have hnewest := reverse_take_succ hevent
      have hskip (hneither : ∀ other,
          log[now]? ≠ some (.requested task other) ∧ log[now]? ≠ some (.granted task other))
          (hsame : pending? task (log.take (now + 1)).reverse =
            pending? task (log.take now).reverse)
          (hahead : ticketsAhead task (log.take (now + 1)).reverse =
            ticketsAhead task (log.take now).reverse) :
          ∃ asked, Asks log asked (now + 1) task mode ∧
            ticketsAhead task (log.take (now + 1)).reverse =
              (tickets .issued (log.take asked)).length := by
        rw [hsame] at hpending
        obtain ⟨asked, hasks, hcount⟩ := ih hlt.le hpending
        exact ⟨asked, hasks.succ hneither, hahead.trans hcount⟩
      cases hcase : log[now] with
      | requested other otherMode =>
          rw [hcase] at hnewest hevent
          by_cases hother : other = task
          · subst other
            rw [hnewest] at hpending ⊢
            obtain rfl : otherMode = mode := by simpa [pending?] using hpending
            have hasks : Asks log now (now + 1) task otherMode := by
              constructor
              · exact Nat.lt_succ_self now
              · exact hevent
              · intro moment hafter hbefore
                omega
            exact ⟨now, hasks, by simp [ticketsAhead, tickets_reverse]⟩
          · apply hskip
            · intro anyMode
              simp [hevent, hother]
            · simp [hnewest, pending?, hother]
            · simp [hnewest, ticketsAhead, hother]
      | granted other otherMode =>
          rw [hcase] at hnewest hevent
          by_cases hother : other = task
          · subst other
            rw [hnewest] at hpending
            simp [pending?] at hpending
          · apply hskip
            · intro anyMode
              simp [hevent, hother]
            · simp [hnewest, pending?, hother]
            · simp [hnewest, ticketsAhead]
      | _ =>
          rw [hcase] at hnewest hevent
          apply hskip
          · intro anyMode
            simp [hevent]
          · simp [hnewest, pending?]
          · simp [hnewest, ticketsAhead]

theorem Answered.asked_unique {log : List (Event ε)} {first second granted task : Nat}
    {mode : Mode} (hfirst : Answered log first granted task mode)
    (hsecond : Answered log second granted task mode) : first = second := by
  rcases Nat.lt_trichotomy first second with hlt | heq | hlt
  · exact ((hfirst.meanwhile second hlt hsecond.before mode).1 hsecond.request).elim
  · exact heq
  · exact ((hsecond.meanwhile first hlt hfirst.before mode).1 hfirst.request).elim

namespace Lawful

/-- A grant answers a request, and the tickets issued before that are completed. -/
theorem exists_answered {log : List (Event ε)} (hlawful : Lawful log.reverse)
    {granted task : Nat} {mode : Mode} (hgrant : log[granted]? = some (.granted task mode)) :
    ∃ asked, Answered log asked granted task mode ∧
      (tickets .issued (log.take asked)).length ≤
        (tickets .completed (log.take granted)).length := by
  obtain ⟨hlt, _⟩ := List.getElem?_eq_some_iff.mp hgrant
  obtain ⟨hpending, hcompleted⟩ := hlawful.justified_at hgrant
  obtain ⟨asked, hasks, hahead⟩ := exists_asks_of_pending hlt.le hpending
  refine ⟨asked, ⟨hasks, hgrant⟩, ?_⟩
  rw [hahead, tickets_reverse, List.length_reverse] at hcompleted
  exact hcompleted

/-- An access asked for after the issue of a ticket is granted after its completion. -/
theorem completed_of_later_request {log : List (Event ε)} (hlawful : Lawful log.reverse)
    {asked granted task ticket issue : Nat} {mode : Mode} {owner : Nat}
    (hanswered : Answered log asked granted task mode)
    (hissue : log[issue]? = some (.traced owner (.ticketIssued ticket)))
    (hlater : issue < asked) : ticket ∈ tickets .completed (log.take granted) := by
  obtain ⟨same, hsame, hcount⟩ := hlawful.exists_answered hanswered.grant
  obtain rfl := hanswered.asked_unique hsame
  have hissued : ticket ∈ tickets .issued (log.take asked) :=
    mem_tickets_take.mpr ⟨issue, hlater, owner, _, hissue, rfl⟩
  have hless := hlawful.mem_tickets_take_iff.mp hissued
  exact hlawful.mem_tickets_take_iff.mpr (hless.trans_le hcount)

end Lawful

/-! ## Bypass -/

theorem countP_le_one {α : Type} {p : α → Bool} {l : List α}
    (hone : ∀ (first second : Nat) (a b : α), first < second → l[first]? = some a → l[second]? = some b →
      p a = true → p b = true → False) : l.countP p ≤ 1 := by
  induction l with
  | nil => simp
  | cons head l ih =>
      have htail : l.countP p ≤ 1 := by
        apply ih
        intro first second a b hlt hfirst hsecond
        exact hone (first + 1) (second + 1) a b (by omega) hfirst hsecond
      cases hhead : p head with
      | false => simpa [List.countP_cons, hhead] using htail
      | true =>
          have hnone : l.countP p = 0 := by
            rw [List.countP_eq_zero]
            intro b hb hpb
            obtain ⟨second, hsecond⟩ := List.mem_iff_getElem?.mp hb
            exact hone 0 (second + 1) head b (by omega) rfl hsecond hhead hpb
          simp [hhead, hnone]

/-- As long as a ticket was not admitted, each task is granted at most one access after its
issue. -/
theorem Lawful.bypass_le_one {log : List (Event ε)} (hlawful : Lawful log.reverse)
    {ticket owner issue now : Nat}
    (hissue : log[issue]? = some (.traced owner (.ticketIssued ticket)))
    (hwaits : ticket ∉ tickets .admitted (log.take now)) (task : Nat) :
    ((log.take now).drop issue).countP (Event.admitsTo task) ≤ 1 := by
  apply countP_le_one
  intro first second a b hlt hfirst hsecond ha hb
  have hevent : ∀ {place : Nat} {event : Event ε},
      ((log.take now).drop issue)[place]? = some event → event.admitsTo task = true →
      issue + place < now ∧ ∃ mode, log[issue + place]? = some (.granted task mode) := by
    intro place event hplace hadmits
    rw [List.getElem?_drop, List.getElem?_take] at hplace
    split at hplace
    · cases event with
      | granted other mode =>
          have hother : other = task := by simpa [Event.admitsTo] using hadmits
          subst other
          exact ⟨by assumption, mode, hplace⟩
      | _ => simp [Event.admitsTo] at hadmits
    · simp at hplace
  obtain ⟨_, firstMode, hfirstGrant⟩ := hevent hfirst ha
  obtain ⟨hnow, mode, hsecondGrant⟩ := hevent hsecond hb
  obtain ⟨asked, hanswered, _⟩ := hlawful.exists_answered hsecondGrant
  -- the second request is made after the first grant
  have hafter : issue + first < asked := by
    by_contra hnot
    have hne : asked ≠ issue + first := by
      rintro rfl
      have hsame := hanswered.request.symm.trans hfirstGrant
      simp at hsame
    exact (hanswered.meanwhile (issue + first) (by omega) (by omega) firstMode).2 hfirstGrant
  have hcompleted := hlawful.completed_of_later_request hanswered hissue (by omega)
  obtain ⟨moment, hmoment, rest⟩ :=
    mem_tickets_take.mp (hlawful.admitted_of_completed hcompleted)
  exact hwaits (mem_tickets_take.mpr ⟨moment, hmoment.trans hnow, rest⟩)

/-! ## The law of a log -/

structure NoOvertaking (log : List (Event ε)) : Prop where
  /-- Every grant answers one request. -/
  answered : ∀ granted task mode, log[granted]? = some (.granted task mode) →
    ∃! asked, Answered log asked granted task mode
  /-- Whoever asks after the issue of a ticket is granted the access after its completion. -/
  completed : ∀ asked granted task mode ticket owner issue,
    Answered log asked granted task mode →
    log[issue]? = some (.traced owner (.ticketIssued ticket)) → issue < asked →
    ∃ moment < granted, ∃ finisher, log[moment]? = some (.traced finisher (.ticketCompleted ticket))
  /-- Until the ticket is admitted, each task is granted at most one access. -/
  bypass : ∀ ticket owner issue now,
    log[issue]? = some (.traced owner (.ticketIssued ticket)) →
    ticket ∉ tickets .admitted (log.take now) →
    ∀ task, ((log.take now).drop issue).countP (Event.admitsTo task) ≤ 1

theorem Lawful.noOvertaking {log : List (Event ε)} (hlawful : Lawful log.reverse) :
    NoOvertaking log := by
  constructor
  · intro granted task mode hgrant
    obtain ⟨asked, hanswered, _⟩ := hlawful.exists_answered hgrant
    exact ⟨asked, hanswered, fun other hother => hother.asked_unique hanswered⟩
  · intro asked granted task mode ticket owner issue hanswered hissue hlater
    have hcompleted := hlawful.completed_of_later_request hanswered hissue hlater
    obtain ⟨moment, hmoment, finisher, trace, hevent, hticket⟩ := mem_tickets_take.mp hcompleted
    rw [Trace.ticket?_completed.mp hticket] at hevent
    exact ⟨moment, hmoment, finisher, hevent⟩
  · intro ticket owner issue now hissue hwaits task
    exact hlawful.bypass_le_one hissue hwaits task

/-- A group grows by granting a shared access. -/
theorem Scene.Run.exists_grant {s last : Scene ε} (hrun : Scene.Run s last) (hs : s.Accounts)
    (hgrows : s.lock.activeReaders < last.lock.activeReaders) :
    ∃ granted task, s.history.length ≤ granted ∧
      last.history.reverse[granted]? = some (.granted task .shared) := by
  have hbefore := hs.readers
  have hafter := (hrun.accounts hs).readers
  obtain ⟨events, hevents⟩ := hrun.history_suffix
  rw [← hevents, List.countP_append, List.countP_append] at hafter
  have hpos : 0 < events.countP (Event.grants .shared) := by omega
  obtain ⟨event, hmem, hgrants⟩ := List.countP_pos_iff.mp hpos
  obtain ⟨place, hplace⟩ := List.mem_iff_getElem?.mp (List.mem_reverse.mpr hmem)
  cases event with
  | granted task mode =>
      have hmode : mode = .shared := by simpa [Event.grants] using hgrants
      subst hmode
      refine ⟨s.history.length + place, task, by omega, ?_⟩
      rw [← hevents, List.reverse_append, List.getElem?_append_right (by simp)]
      simpa using hplace
  | _ => simp [Event.grants] at hgrants

/-- While a ticket is issued and not completed, the group grows only by a read that was asked for
before. -/
theorem Scene.Run.exists_earlier_request {s last : Scene ε} (hrun : Scene.Run s last)
    (hs : s.Accounts) (hlawful : Lawful last.history)
    (hgrows : s.lock.activeReaders < last.lock.activeReaders) :
    ∃ asked granted task, s.history.length ≤ granted ∧
      Answered last.history.reverse asked granted task .shared ∧
      ∀ ticket owner issue,
        last.history.reverse[issue]? = some (.traced owner (.ticketIssued ticket)) →
        ticket ∉ tickets .completed last.history → asked < issue := by
  have hlog : Lawful last.history.reverse.reverse := by rwa [List.reverse_reverse]
  obtain ⟨granted, task, hnew, hgrant⟩ := hrun.exists_grant hs hgrows
  obtain ⟨asked, hanswered, _⟩ := hlog.exists_answered hgrant
  refine ⟨asked, granted, task, hnew, hanswered, ?_⟩
  intro ticket owner issue hissue hopen
  by_contra hnot
  have hne : issue ≠ asked := by
    rintro rfl
    have hsame := hissue.symm.trans hanswered.request
    simp at hsame
  have hcompleted := hlog.completed_of_later_request hanswered hissue (by omega)
  obtain ⟨moment, _, finisher, trace, hevent, hticket⟩ := mem_tickets_take.mp hcompleted
  have hmem := List.mem_reverse.mp (List.mem_of_getElem? hevent)
  exact hopen (mem_tickets.mpr ⟨finisher, trace, hmem, hticket⟩)

end ReaderWriter
