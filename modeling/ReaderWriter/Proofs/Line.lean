import ReaderWriter.Proofs.Overtaking
import ReaderWriter.Proofs.Parking

/-!
# The line of those who wait

Under tickets the tasks that wait stand in one line, in the order in which they asked, readers and
writers mixed.  The tickets of the writers in it follow on each other, and each reader waits for the
ticket that was taken last before it came.  The queue of each channel is a part of the line, in its
order, except for the tasks at its end that were woken and have not looked again.

If those look in the order of the line, readers first, then whoever can go on stands in front.
-/

namespace ReaderWriter

variable {ε : Type}

/-! ## Requests and grants in order -/

def Event.request? : Event ε → Option (Nat × Mode)
  | .requested task mode => some (task, mode)
  | _ => none

def Event.grant? : Event ε → Option (Nat × Mode)
  | .granted task mode => some (task, mode)
  | _ => none

/-- The accesses that were asked for, in the order of the events. -/
def requests (events : List (Event ε)) : List (Nat × Mode) :=
  events.filterMap Event.request?

def grants (events : List (Event ε)) : List (Nat × Mode) :=
  events.filterMap Event.grant?

theorem requests_reverse_cons (event : Event ε) (earlier : List (Event ε)) :
    requests (event :: earlier).reverse = requests earlier.reverse ++ event.request?.toList := by
  rw [requests, List.reverse_cons, List.filterMap_append]
  cases hrequest : event.request? <;> simp [requests, hrequest]

theorem grants_reverse_cons (event : Event ε) (earlier : List (Event ε)) :
    grants (event :: earlier).reverse = grants earlier.reverse ++ event.grant?.toList := by
  rw [grants, List.reverse_cons, List.filterMap_append]
  cases hgrant : event.grant? <;> simp [grants, hgrant]

theorem length_requests_reverse (events : List (Event ε)) :
    (requests events.reverse).length = (requests events).length := by
  rw [requests, List.filterMap_reverse, List.length_reverse]
  rfl

theorem length_grants_reverse (events : List (Event ε)) :
    (grants events.reverse).length = (grants events).length := by
  rw [grants, List.filterMap_reverse, List.length_reverse]
  rfl

/-- The number of requests that had been made before the latest one of the task, in a history with
the newest event first. -/
def requestsAhead (task : Nat) : List (Event ε) → Nat
  | [] => 0
  | .requested other _ :: earlier =>
    if other = task then (requests earlier).length else requestsAhead task earlier
  | _ :: earlier => requestsAhead task earlier

/-- Each grant answers the request that has its number. -/
def InTurn : List (Event ε) → Prop
  | [] => True
  | .granted task _ :: earlier =>
    requestsAhead task earlier = (grants earlier).length ∧ InTurn earlier
  | _ :: earlier => InTurn earlier

/-- The accesses are granted in the order in which they were asked for, from the first one on. -/
structure FirstServed (log : List (Event ε)) : Prop where
  served : grants log <+: requests log
  inTurn : ∀ granted task mode, log[granted]? = some (.granted task mode) →
    ∃ asked, Answered log asked granted task mode ∧
      (requests (log.take asked)).length = (grants (log.take granted)).length

theorem InTurn.of_append {later earlier : List (Event ε)} (hturn : InTurn (later ++ earlier)) :
    InTurn earlier := by
  induction later with
  | nil => exact hturn
  | cons event later ih =>
      cases event with
      | granted task mode => exact ih hturn.2
      | _ => exact ih hturn

theorem InTurn.at_grant {log : List (Event ε)} (hturn : InTurn log.reverse) {moment task : Nat}
    {mode : Mode} (hgrant : log[moment]? = some (.granted task mode)) :
    requestsAhead task (log.take moment).reverse = (grants (log.take moment)).length := by
  have hsplit : log.reverse = (log.drop (moment + 1)).reverse ++
      (.granted task mode :: (log.take moment).reverse) := by
    rw [← reverse_take_succ hgrant, ← List.reverse_append, List.take_append_drop]
  rw [hsplit] at hturn
  exact hturn.of_append.1.trans (length_grants_reverse _)

theorem Asks.requestsAhead_eq {log : List (Event ε)} {asked now task : Nat} {mode : Mode}
    (hasks : Asks log asked now task mode) (hnow : now ≤ log.length) :
    requestsAhead task (log.take now).reverse = (requests (log.take asked)).length := by
  -- between the two moments the task asks for nothing
  suffices hlater : ∀ moment, asked + 1 ≤ moment → moment ≤ now →
      requestsAhead task (log.take moment).reverse = (requests (log.take asked)).length from
    hlater now hasks.before le_rfl
  intro moment hafter
  induction moment, hafter using Nat.le_induction with
  | base =>
      intro _
      rw [reverse_take_succ hasks.request]
      simp only [requestsAhead, if_true]
      exact length_requests_reverse _
  | succ moment hafter ih =>
      intro hbefore
      have hevent : log[moment]? = some log[moment] := List.getElem?_eq_getElem (by omega)
      have hneither := hasks.meanwhile moment hafter hbefore
      have hearlier := ih (by omega)
      rw [reverse_take_succ hevent]
      cases hcase : log[moment] with
      | requested other otherMode =>
          have hother : other ≠ task := by
            rintro rfl
            exact (hneither otherMode).1 (hcase ▸ hevent)
          simp only [requestsAhead, if_neg hother]
          exact hearlier
      | _ => exact hearlier

/-! ## The line -/

/-- The tickets of the writers count up from `next`, and each reader waits for the one before. -/
def Lined (next : Nat) : List Wait → Prop
  | [] => True
  | .ticketDone ticket :: behind => ticket + 1 = next ∧ Lined next behind
  | .writerEntry (some ticket) :: behind => ticket = next ∧ Lined (next + 1) behind
  | _ :: _ => False

/-- The tasks of a line that wait on a channel. -/
def lineOn (channel : Channel) (line : List (Nat × Wait)) : List Nat :=
  (line.filter fun place => place.2.channel = channel).map (·.1)

namespace Lined

theorem append {next : Nat} {waits : List Wait} {wait : Wait} (hlined : Lined next waits)
    (hwait : Lined (next + waits.countP (·.channel = .released)) [wait]) :
    Lined next (waits ++ [wait]) := by
  induction waits generalizing next with
  | nil => exact hwait
  | cons first waits ih =>
      rcases first with ticket | _ | (_ | ticket)
      · obtain ⟨hticket, hbehind⟩ := hlined
        exact ⟨hticket, ih hbehind (by simpa [Wait.channel] using hwait)⟩
      · exact hlined.elim
      · exact hlined.elim
      · obtain ⟨hticket, hbehind⟩ := hlined
        refine ⟨hticket, ih hbehind ?_⟩
        simpa [Wait.channel, Nat.add_assoc, Nat.add_comm, Nat.add_left_comm] using hwait

/-- No reader waits for an earlier ticket than the one before the next. -/
theorem le_of_reader {next ticket : Nat} {waits : List Wait} (hlined : Lined next waits)
    (hmem : .ticketDone ticket ∈ waits) : next ≤ ticket + 1 := by
  induction waits generalizing next with
  | nil => simp at hmem
  | cons first waits ih =>
      rcases first with other | _ | (_ | other)
      · obtain ⟨hother, hbehind⟩ := hlined
        rcases List.mem_cons.mp hmem with hfirst | hmem
        · obtain rfl : ticket = other := by simpa using hfirst
          omega
        · exact ih hbehind hmem
      · exact hlined.elim
      · exact hlined.elim
      · obtain ⟨_, hbehind⟩ := hlined
        rcases List.mem_cons.mp hmem with hfirst | hmem
        · simp at hfirst
        · have hlater := ih hbehind hmem
          omega

theorem wait_cases {next : Nat} {waits : List Wait} {wait : Wait} (hlined : Lined next waits)
    (hmem : wait ∈ waits) :
    (∃ ticket, wait = .ticketDone ticket) ∨ ∃ ticket, wait = .writerEntry (some ticket) := by
  induction waits generalizing next with
  | nil => simp at hmem
  | cons first waits ih =>
      rcases first with ticket | _ | (_ | ticket)
      · rcases List.mem_cons.mp hmem with rfl | hmem
        · exact .inl ⟨ticket, rfl⟩
        · exact ih hlined.2 hmem
      · exact hlined.elim
      · exact hlined.elim
      · rcases List.mem_cons.mp hmem with rfl | hmem
        · exact .inr ⟨ticket, rfl⟩
        · exact ih hlined.2 hmem

end Lined

theorem mem_lineOn {channel : Channel} {line : List (Nat × Wait)} {task : Nat} :
    task ∈ lineOn channel line ↔ ∃ wait, (task, wait) ∈ line ∧ wait.channel = channel := by
  simp [lineOn]

theorem lineOn_append (channel : Channel) (line behind : List (Nat × Wait)) :
    lineOn channel (line ++ behind) = lineOn channel line ++ lineOn channel behind := by
  simp [lineOn]

theorem lineOn_released_length (line : List (Nat × Wait)) :
    (lineOn .released line).length = (line.map (·.2)).countP (·.channel = .released) := by
  rw [lineOn, List.length_map, List.countP_map, List.countP_eq_length_filter]
  rfl

theorem Lock.nowServing_le_ticketsAdmitted (l : Lock) : l.nowServing ≤ l.ticketsAdmitted :=
  Nat.le_add_right _ _

namespace Lock

/-- What a release leaves as it is under tickets, and whom it notifies. -/
structure Returns (l : Lock) (r : Release) : Prop where
  policy : r.lock.policy = l.policy
  issued : r.lock.nextWriterTicket = l.nextWriterTicket
  admitted : r.lock.ticketsAdmitted = l.ticketsAdmitted
  notified : r.notified = [] ∨ r.notified = [.released] ∨ r.notified = [.writerDone, .released]

theorem Returns.nodup {l : Lock} {r : Release} (hreturns : l.Returns r) : r.notified.Nodup := by
  rcases hreturns.notified with hnone | hsome | hboth
  · simp [hnone]
  · simp [hsome]
  · simp [hboth]

/-- A release completes a ticket only for the writer that was inside. -/
theorem release?_keeps {l : Lock} (hpolicy : l.policy = .fairTicket) {mode : Mode} {r : Release}
    (hrelease : l.release? mode = some r) : l.Returns r := by
  cases mode with
  | exclusive =>
      obtain ⟨⟨htaken, hempty⟩, ⟨hother, _⟩ | ⟨_, rfl⟩⟩ := release?_exclusive_cases hrelease
      · simp [hpolicy] at hother
      · refine ⟨rfl, rfl, ?_, .inr (.inr rfl)⟩
        rw [ticketsAdmitted, ticketsAdmitted, writersInside_of_writer htaken hempty,
          writersInside_of_free rfl]
        rfl
  | shared =>
      have hnone : 0 < l.activeReaders → l.writersInside = 0 := writersInside_of_readers
      rcases release?_shared_cases hrelease with ⟨hlast, rfl⟩ | ⟨hmany, rfl⟩
      · refine ⟨rfl, rfl, ?_, .inr (.inl rfl)⟩
        rw [ticketsAdmitted, ticketsAdmitted, writersInside_of_free rfl, hnone (by omega)]
        rfl
      · have hrest : 0 < l.activeReaders - 1 := by omega
        refine ⟨rfl, rfl, ?_, .inl rfl⟩
        rw [ticketsAdmitted, ticketsAdmitted, writersInside_of_readers hrest, hnone (by omega)]
        rfl

end Lock

/-- The order in which tasks look that were woken together: readers first. -/
def Waiters.inOrder (w : Waiters) : List Nat :=
  w.on .writerDone ++ w.on .released

namespace Scene

/-- The task has asked for access and not yet looked at its condition. -/
def arrived (s : Scene ε) (task : Nat) (mode : Mode) : Scene ε :=
  { s with
    lock := (s.lock.arrive mode).lock
    points := s.points.set task (.waiting (s.lock.arrive mode).wait)
    history := ((s.lock.arrive mode).traces.map (.traced task)).reverse ++
      .requested task mode :: s.history }

/-- Those who wait stand in line; the tasks in `woken` were taken off their channels and have not
looked again. -/
structure InLine (s : Scene ε) (places : List (Nat × Wait)) (woken : Waiters) : Prop where
  policy : s.lock.policy = .fairTicket
  answered : requests s.history.reverse =
    grants s.history.reverse ++ places.map fun place => (place.1, place.2.mode)
  ahead : ∀ place task wait, places[place]? = some (task, wait) →
    requestsAhead task s.history = (grants s.history).length + place
  inTurn : InTurn s.history
  stands : ∀ task wait, (task, wait) ∈ places → s.At task (.waiting wait)
  distinct : (places.map (·.1)).Nodup
  lined : Lined s.lock.ticketsAdmitted (places.map (·.2))
  issued : s.lock.ticketsAdmitted + (lineOn .released places).length = s.lock.nextWriterTicket
  channels : ∀ channel, s.waiters.on channel ++ woken.on channel = lineOn channel places

namespace InLine

variable {s : Scene ε} {line rest : List (Nat × Wait)} {woken later : Waiters} {task : Nat}
  {wait : Wait}

theorem wait_eq (hline : s.InLine line woken) {other : Wait} (hmem : (task, wait) ∈ line)
    (hat : s.At task (.waiting other)) : other = wait := by
  simpa using hat.symm.trans (hline.stands task wait hmem)

theorem blocks_of_parked (hline : s.InLine line woken) (hparked : s.Parked)
    (hmem : (task, wait) ∈ line) (hon : task ∈ s.waiters.on wait.channel) : s.lock.Blocks wait := by
  obtain ⟨other, hat, _, hblocks⟩ := hparked _ _ hon
  rwa [hline.wait_eq hmem hat] at hblocks

/-! ## Who stands in front -/

/-- In front stands a reader behind the last ticket, or the writer with the next one. -/
theorem front_cases (hline : s.InLine line woken) :
    line = [] ∨
      (∃ first ticket rest, line = (first, .ticketDone ticket) :: rest ∧
        ticket + 1 = s.lock.ticketsAdmitted ∧
        Lined s.lock.ticketsAdmitted (rest.map (·.2))) ∨
      ∃ first ticket rest, line = (first, .writerEntry (some ticket)) :: rest ∧
        ticket = s.lock.ticketsAdmitted ∧
        Lined (s.lock.ticketsAdmitted + 1) (rest.map (·.2)) := by
  have hlined := hline.lined
  rcases line with _ | ⟨⟨first, ticket | _ | _ | ticket⟩, rest⟩
  · exact .inl rfl
  · exact .inr (.inl ⟨first, ticket, rest, rfl, hlined⟩)
  · exact hlined.elim
  · exact hlined.elim
  · exact .inr (.inr ⟨first, ticket, rest, rfl, hlined⟩)

/-- If no reader was woken from behind a ticket, the one in front is parked. -/
theorem le_of_front_reader {first ticket : Nat} {rest : List (Nat × Wait)}
    (hline : s.InLine ((first, .ticketDone ticket) :: rest) woken) (hparked : s.Parked)
    (hreaders : woken.on .writerDone = []) : s.lock.nowServing ≤ ticket := by
  have hqueue := hline.channels .writerDone
  rw [hreaders, List.append_nil] at hqueue
  exact hline.blocks_of_parked hparked (List.mem_cons_self)
    (by rw [Wait.channel, hqueue]; simp [lineOn, Wait.channel])

/-- A reader that finds its ticket completed, first of those that were woken, stands in front. -/
theorem reader_first (hline : s.InLine line woken) (hparked : s.Parked) {behind : List Nat}
    (hwoken : woken.on .writerDone = task :: behind) {ticket : Nat}
    (hmem : (task, .ticketDone ticket) ∈ line) (hdone : ticket < s.lock.nowServing) :
    ∃ rest, line = (task, .ticketDone ticket) :: rest ∧ s.waiters.on .writerDone = [] := by
  have hserving := s.lock.nowServing_le_ticketsAdmitted
  have hle := hline.lined.le_of_reader (List.mem_map_of_mem hmem)
  rcases hline.front_cases with
    rfl | ⟨first, earlier, rest, rfl, hearlier, _⟩ | ⟨first, earlier, rest, rfl, _, hbehind⟩
  · simp at hmem
  · have hqueue := hline.channels .writerDone
    cases hparkedFirst : s.waiters.on .writerDone with
    | nil =>
        rw [hparkedFirst, hwoken] at hqueue
        obtain ⟨rfl, _⟩ : task = first ∧ behind = lineOn .writerDone rest := by
          simpa [lineOn, Wait.channel] using hqueue
        have hsame := hline.wait_eq (List.mem_cons_self) (hline.stands _ _ hmem)
        exact ⟨rest, by rw [hsame], rfl⟩
    | cons other others =>
        -- whoever is parked in front still waits for its ticket, and no later reader for less
        rw [hparkedFirst] at hqueue
        obtain ⟨rfl, _⟩ : other = first ∧ _ := by simpa [lineOn, Wait.channel] using hqueue
        have hblocks := hline.blocks_of_parked hparked (List.mem_cons_self)
          (by rw [Wait.channel, hparkedFirst]; exact List.mem_cons_self)
        have hopen : s.lock.nowServing ≤ earlier := hblocks
        omega
  · have hrest : (task, .ticketDone ticket) ∈ rest := by simpa using hmem
    have hlater := hbehind.le_of_reader (List.mem_map_of_mem hrest)
    omega

/-- A writer that can enter, first of those that were woken, stands in front. -/
theorem writer_first (hline : s.InLine line woken) (hparked : s.Parked) {behind : List Nat}
    (hreaders : woken.on .writerDone = []) (hwoken : woken.on .released = task :: behind)
    {ticket : Nat} (hmem : (task, .writerEntry (some ticket)) ∈ line)
    (henters : ¬ s.lock.Blocks (.writerEntry (some ticket))) :
    ∃ rest, line = (task, .writerEntry (some ticket)) :: rest ∧ s.waiters.on .released = [] := by
  have hfree : s.lock.exclusive = false := Lock.not_blocks_exclusive rfl henters
  have hadmitted : s.lock.ticketsAdmitted = s.lock.nowServing := by
    rw [Lock.ticketsAdmitted, Lock.writersInside_of_free hfree, Nat.add_zero]
  rcases hline.front_cases with
    rfl | ⟨first, earlier, rest, rfl, hearlier, _⟩ | ⟨first, earlier, rest, rfl, hearlier, _⟩
  · simp at hmem
  · -- a reader in front could go on, so it is not parked
    have hopen := hline.le_of_front_reader hparked hreaders
    omega
  · have hqueue := hline.channels .released
    cases hparkedFirst : s.waiters.on .released with
    | nil =>
        rw [hparkedFirst, hwoken] at hqueue
        obtain ⟨rfl, _⟩ : task = first ∧ behind = lineOn .released rest := by
          simpa [lineOn, Wait.channel] using hqueue
        have hsame := hline.wait_eq (List.mem_cons_self) (hline.stands _ _ hmem)
        exact ⟨rest, by rw [hsame], rfl⟩
    | cons other others =>
        rw [hparkedFirst] at hqueue
        obtain ⟨rfl, _⟩ : other = first ∧ _ := by simpa [lineOn, Wait.channel] using hqueue
        have hblocks := hline.blocks_of_parked hparked (List.mem_cons_self)
          (by rw [Wait.channel, hparkedFirst]; exact List.mem_cons_self)
        rcases hblocks with htaken | hturn
        · rw [hfree] at htaken
          contradiction
        · omega

/-- Behind no ticket nobody is parked. -/
theorem eq_nil_of_no_ticket (hline : s.InLine line woken) (hparked : s.Parked)
    (hwoken : ∀ channel, woken.on channel = [])
    (hnone : s.lock.nextWriterTicket ≤ s.lock.nowServing) : line = [] := by
  have hserving := s.lock.nowServing_le_ticketsAdmitted
  have hissued := hline.issued
  rcases hline.front_cases with
    rfl | ⟨first, earlier, rest, rfl, hearlier, _⟩ | ⟨first, earlier, rest, rfl, _, _⟩
  · rfl
  · have hopen := hline.le_of_front_reader hparked (hwoken .writerDone)
    omega
  · simp [lineOn, Wait.channel] at hissued
    omega

theorem firstServed (hline : s.InLine line woken) (hlawful : Lawful s.history) :
    FirstServed s.history.reverse := by
  constructor
  · rw [hline.answered]
    exact List.prefix_append _ _
  · intro granted task mode hgrant
    obtain ⟨hlt, _⟩ := List.getElem?_eq_some_iff.mp hgrant
    have hlog : Lawful s.history.reverse.reverse := by rwa [List.reverse_reverse]
    have hturn : InTurn s.history.reverse.reverse := by
      rw [List.reverse_reverse]
      exact hline.inTurn
    obtain ⟨asked, hanswered, _⟩ := hlog.exists_answered hgrant
    refine ⟨asked, hanswered, ?_⟩
    rw [← hanswered.requestsAhead_eq hlt.le]
    exact hturn.at_grant hgrant

theorem start (tasks : Nat) : (start .fairTicket tasks : Scene ε).InLine [] {} := by
  refine ⟨rfl, rfl, by simp, trivial, by simp, by simp, trivial, rfl, ?_⟩
  intro channel
  cases channel <;> rfl

/-! ## What keeps the line -/

/-- Events that are no requests and no grants. -/
theorem append (hline : s.InLine line woken) (events : List (Event ε))
    (hquiet : ∀ event ∈ events, event.request? = none ∧ event.grant? = none) :
    ({ s with history := events ++ s.history } : Scene ε).InLine line woken := by
  induction events with
  | nil => exact hline
  | cons event events ih =>
      have hbefore := ih (fun other hother => hquiet other (List.mem_cons_of_mem _ hother))
      obtain ⟨hrequest, hgrant⟩ := hquiet event List.mem_cons_self
      have hahead : ∀ task, requestsAhead task (event :: (events ++ s.history)) =
          requestsAhead task (events ++ s.history) := by
        intro task
        cases event <;> first | rfl | simp [Event.request?] at hrequest
      have hgrants : grants (event :: (events ++ s.history)) = grants (events ++ s.history) := by
        simp [grants, hgrant]
      constructor
      · exact hline.policy
      · rw [List.cons_append, requests_reverse_cons, grants_reverse_cons, hrequest, hgrant]
        simpa using hbefore.answered
      · intro place task wait hplace
        rw [List.cons_append, hahead, hgrants]
        exact hbefore.ahead place task wait hplace
      · have hturn := hbefore.inTurn
        cases event <;> first | exact hturn | simp [Event.grant?] at hgrant
      · exact hline.stands
      · exact hline.distinct
      · exact hline.lined
      · exact hline.issued
      · exact hline.channels

theorem traced (hline : s.InLine line woken) (task : Nat) (traces : List Trace) :
    ({ s with history := (traces.map (.traced task)).reverse ++ s.history } : Scene ε).InLine line
      woken := by
  apply hline.append _
  intro event hevent
  obtain ⟨trace, _, rfl⟩ : ∃ trace ∈ traces, .traced task trace = event := by simpa using hevent
  exact ⟨rfl, rfl⟩

/-- The program of a task that does not stand in line reacts. -/
theorem react (hline : s.InLine line woken) (haway : task ∉ line.map (·.1)) (point : Point)
    (notes : List ε) : (s.react task point notes).InLine line woken := by
  have hquiet : ∀ event ∈ (notes.map (Event.noted task)).reverse,
      event.request? = none ∧ event.grant? = none := by
    intro event hevent
    obtain ⟨note, _, rfl⟩ : ∃ note ∈ notes, .noted task note = event := by simpa using hevent
    exact ⟨rfl, rfl⟩
  have hnoted := hline.append _ hquiet
  refine ⟨hnoted.policy, hnoted.answered, hnoted.ahead, hnoted.inTurn, ?_, hnoted.distinct,
    hnoted.lined, hnoted.issued, hnoted.channels⟩
  intro other otherWait hmem
  have hother : task ≠ other := by
    rintro rfl
    exact haway (List.mem_map_of_mem hmem)
  unfold At Scene.react
  rw [List.getElem?_set_ne hother]
  exact hline.stands other otherWait hmem

/-- A task that was woken is parked again. -/
theorem park (hline : s.InLine line woken)
    (hself : woken.on wait.channel = task :: later.on wait.channel)
    (hothers : ∀ channel, channel ≠ wait.channel → woken.on channel = later.on channel) :
    ({ s with waiters := s.waiters.park task wait.channel } : Scene ε).InLine line later := by
  refine ⟨hline.policy, hline.answered, hline.ahead, hline.inTurn, hline.stands, hline.distinct,
    hline.lined, hline.issued, ?_⟩
  intro channel
  have hqueue := hline.channels channel
  by_cases hchannel : channel = wait.channel
  · subst hchannel
    rw [hself] at hqueue
    rw [Waiters.on_park_self, List.append_assoc]
    exact hqueue
  · rw [hothers channel hchannel] at hqueue
    rw [Waiters.on_park_of_ne _ _ hchannel]
    exact hqueue

/-- Whoever stands in front is granted the access. -/
theorem serve (hline : s.InLine ((task, wait) :: rest) woken) {lock : Lock}
    (hpolicy : lock.policy = s.lock.policy)
    (hnext : lock.nextWriterTicket = s.lock.nextWriterTicket)
    (hadmitted : Lined lock.ticketsAdmitted (rest.map (·.2)) ∧
      lock.ticketsAdmitted + (lineOn .released rest).length = s.lock.nextWriterTicket)
    (hempty : s.waiters.on wait.channel = [])
    (hself : woken.on wait.channel = task :: later.on wait.channel)
    (hothers : ∀ channel, channel ≠ wait.channel → woken.on channel = later.on channel) :
    ({ s with
      lock
      history := .granted task wait.mode :: s.history } : Scene ε).InLine rest later := by
  have hahead := hline.ahead
  constructor
  · exact hpolicy.trans hline.policy
  · rw [requests_reverse_cons, grants_reverse_cons, hline.answered]
    simp [Event.request?, Event.grant?]
  · intro place other otherWait hplace
    have hbehind := hahead (place + 1) other otherWait (by simpa using hplace)
    have hgrants : (grants (.granted task wait.mode :: s.history)).length =
        (grants s.history).length + 1 := rfl
    rw [hgrants]
    exact hbehind.trans (by omega)
  · exact ⟨hahead 0 task wait rfl, hline.inTurn⟩
  · intro other otherWait hmem
    exact hline.stands other otherWait (List.mem_cons_of_mem _ hmem)
  · exact (List.nodup_cons.mp hline.distinct).2
  · exact hadmitted.1
  · exact hadmitted.2.trans hnext.symm
  · intro channel
    have hqueue := hline.channels channel
    by_cases hchannel : channel = wait.channel
    · subst hchannel
      rw [hempty, hself] at hqueue
      rw [hempty]
      simpa [lineOn] using hqueue
    · rw [hothers channel hchannel] at hqueue
      simpa [lineOn, Ne.symm hchannel] using hqueue

/-- A task that has asked stands at the end of the line, woken for its first look. -/
theorem join (hline : s.InLine line woken) (hwoken : ∀ channel, woken.on channel = [])
    (haway : task ∉ line.map (·.1)) {point : Point} (hat : s.At task point) (lock : Lock)
    (last : Wait) (hpolicy : lock.policy = s.lock.policy)
    (hadmitted : lock.ticketsAdmitted = s.lock.ticketsAdmitted)
    (hnext : lock.nextWriterTicket =
      s.lock.nextWriterTicket + (lineOn .released [(task, last)]).length)
    (hfits : Lined s.lock.nextWriterTicket [last]) :
    ({ s with
      lock
      points := s.points.set task (.waiting last)
      history := .requested task last.mode :: s.history } : Scene ε).InLine
        (line ++ [(task, last)]) (({} : Waiters).park task last.channel) := by
  have hlengths := congrArg List.length hline.answered
  rw [List.length_append, length_requests_reverse, length_grants_reverse, List.length_map]
    at hlengths
  have hissued := hline.issued
  constructor
  · exact hpolicy.trans hline.policy
  · rw [requests_reverse_cons, grants_reverse_cons, hline.answered]
    simp [Event.request?, Event.grant?]
  · intro place other otherWait hplace
    have hgrants : grants (.requested task last.mode :: s.history) = grants s.history := rfl
    rw [hgrants]
    rw [List.getElem?_append] at hplace
    split at hplace
    · have hother : task ≠ other := by
        rintro rfl
        exact haway (List.mem_map_of_mem (List.mem_of_getElem? hplace))
      simp only [requestsAhead, if_neg hother]
      exact hline.ahead place other otherWait hplace
    · obtain ⟨hlast, rfl, rfl⟩ : place - line.length = 0 ∧ task = other ∧ last = otherWait := by
        simpa [List.getElem?_singleton] using hplace
      simp only [requestsAhead, if_true]
      omega
  · exact hline.inTurn
  · intro other otherWait hmem
    rcases List.mem_append.mp hmem with hold | hnew
    · have hother : task ≠ other := by
        rintro rfl
        exact haway (List.mem_map_of_mem hold)
      unfold At
      rw [List.getElem?_set_ne hother]
      exact hline.stands other otherWait hold
    · obtain ⟨rfl, rfl⟩ : other = task ∧ otherWait = last := by simpa using hnew
      exact hat.set_self _
  · rw [List.map_append]
    refine List.nodup_append.mpr ⟨hline.distinct, by simp, ?_⟩
    intro other hother newest hnewest
    rw [List.mem_singleton.mp hnewest]
    rintro rfl
    exact haway hother
  · rw [hadmitted, List.map_append]
    apply hline.lined.append
    rw [← lineOn_released_length, hissued]
    exact hfits
  · rw [hadmitted, hnext, lineOn_append, List.length_append]
    omega
  · intro channel
    have hqueue := hline.channels channel
    rw [hwoken, List.append_nil] at hqueue
    rw [lineOn_append, ← hqueue]
    by_cases hchannel : channel = last.channel
    · subst hchannel
      rw [Waiters.on_park_self]
      cases hlast : last.channel <;> simp [lineOn, Waiters.on, hlast]
    · rw [Waiters.on_park_of_ne _ _ hchannel]
      cases channel <;> simp [lineOn, Waiters.on, Ne.symm hchannel]

/-! ## Looking in the order of the line -/

/-- The task that looks first waits on the channel off which it was taken. -/
theorem first_cases (hline : s.InLine line woken) {behind : List Nat}
    (hfirst : woken.inOrder = task :: behind) (hat : s.At task (.waiting wait)) :
    (task, wait) ∈ line ∧
      ((wait.channel = .writerDone ∧ ∃ readers, woken.on .writerDone = task :: readers ∧
          behind = readers ++ woken.on .released) ∨
        (wait.channel = .released ∧ woken.on .writerDone = [] ∧
          woken.on .released = task :: behind)) := by
  have hplace : ∀ channel, task ∈ woken.on channel →
      (task, wait) ∈ line ∧ wait.channel = channel := by
    intro channel hmem
    have hon : task ∈ lineOn channel line := by
      rw [← hline.channels channel]
      exact List.mem_append_right _ hmem
    obtain ⟨other, hother, hchannel⟩ := mem_lineOn.mp hon
    rw [hline.wait_eq hother hat]
    exact ⟨hother, hchannel⟩
  unfold Waiters.inOrder at hfirst
  cases hreaders : woken.on .writerDone with
  | nil =>
      rw [hreaders, List.nil_append] at hfirst
      obtain ⟨hmem, hchannel⟩ := hplace .released (by rw [hfirst]; exact List.mem_cons_self)
      exact ⟨hmem, .inr ⟨hchannel, rfl, hfirst⟩⟩
  | cons reader readers =>
      rw [hreaders, List.cons_append] at hfirst
      obtain ⟨rfl, hbehind⟩ := List.cons.inj hfirst
      obtain ⟨hmem, hchannel⟩ := hplace .writerDone (by rw [hreaders]; exact List.mem_cons_self)
      exact ⟨hmem, .inl ⟨hchannel, readers, rfl, hbehind.symm⟩⟩

theorem first_rest (hline : s.InLine line woken) {behind : List Nat}
    (hfirst : woken.inOrder = task :: behind) (hat : s.At task (.waiting wait)) :
    ∃ later : Waiters, later.inOrder = behind ∧
      woken.on wait.channel = task :: later.on wait.channel ∧
      ∀ channel, channel ≠ wait.channel → woken.on channel = later.on channel := by
  rcases (hline.first_cases hfirst hat).2 with
    ⟨hchannel, readers, hwoken, hbehind⟩ | ⟨hchannel, hreaders, hwoken⟩
  · refine ⟨{ writerDone := readers, released := woken.released }, hbehind.symm, ?_, ?_⟩
    · rw [hchannel, hwoken]
      rfl
    · intro channel hother
      cases channel with
      | released => rfl
      | writerDone => exact absurd hchannel.symm hother
  · refine ⟨{ writerDone := [], released := behind }, rfl, ?_, ?_⟩
    · rw [hchannel, hwoken]
      rfl
    · intro channel hother
      cases channel with
      | released => exact absurd hchannel.symm hother
      | writerDone => exact hreaders

theorem away_of_front (hline : s.InLine ((task, wait) :: rest) woken) :
    task ∉ rest.map (·.1) :=
  (List.nodup_cons.mp hline.distinct).1

theorem parks (hline : s.InLine line woken) {behind : List Nat}
    (hfirst : woken.inOrder = task :: behind) (hat : s.At task (.waiting wait)) :
    ∃ later : Waiters, later.inOrder = behind ∧
      ({ s with waiters := s.waiters.park task wait.channel } : Scene ε).InLine line later := by
  obtain ⟨later, horder, hself, hothers⟩ := hline.first_rest hfirst hat
  exact ⟨later, horder, hline.park hself hothers⟩

theorem enters (hline : s.InLine line woken) (haccounts : s.Accounts) (hparked : s.Parked)
    {behind : List Nat} (hfirst : woken.inOrder = task :: behind) (hat : s.At task (.waiting wait))
    (hchannel : wait.channel = .released) (henters : ¬ s.lock.Blocks wait) :
    ∃ rest later, later.inOrder = behind ∧ task ∉ rest.map (·.1) ∧
      ({ s with
        lock := s.lock.enter wait.mode
        history := .granted task wait.mode ::
          ((wait.admission.map (.traced task)).reverse ++ s.history) } : Scene ε).InLine
            rest later := by
  obtain ⟨later, horder, hself, hothers⟩ := hline.first_rest hfirst hat
  obtain ⟨hmem, hplace⟩ := hline.first_cases hfirst hat
  obtain ⟨ticket, rfl⟩ : ∃ ticket, wait = .writerEntry (some ticket) := by
    rcases hline.lined.wait_cases (List.mem_map_of_mem hmem) with ⟨ticket, rfl⟩ | hwriter
    · simp [Wait.channel] at hchannel
    · exact hwriter
  have hwoken : woken.on .writerDone = [] ∧ woken.on .released = task :: behind := by
    rcases hplace with ⟨hother, _⟩ | ⟨_, hwoken⟩
    · simp [Wait.channel] at hother
    · exact hwoken
  obtain ⟨rest, rfl, hempty⟩ := hline.writer_first hparked hwoken.1 hwoken.2 hmem henters
  have hfree : s.lock.exclusive = false := Lock.not_blocks_exclusive rfl henters
  have hadmitted : (s.lock.enter .exclusive).ticketsAdmitted = s.lock.ticketsAdmitted + 1 := by
    have hone : (s.lock.enter .exclusive).writersInside = 1 :=
      Lock.writersInside_of_writer rfl (haccounts.empty_of_free hfree)
    rw [Lock.ticketsAdmitted, Lock.ticketsAdmitted, Lock.writersInside_of_free hfree, hone]
    rfl
  have hissued := hline.issued
  refine ⟨rest, later, horder, hline.away_of_front,
    (hline.traced task [.ticketAdmitted ticket]).serve rfl rfl ?_ hempty hself hothers⟩
  change Lined (s.lock.enter .exclusive).ticketsAdmitted _ ∧
    (s.lock.enter .exclusive).ticketsAdmitted + _ = _
  rw [hadmitted]
  refine ⟨hline.lined.2, ?_⟩
  simp [lineOn, Wait.channel] at hissued ⊢
  omega

/-- A reader whose ticket is completed finds no writer inside. -/
theorem passes (hline : s.InLine line woken) (hparked : s.Parked) {behind : List Nat} {ticket : Nat}
    (hfirst : woken.inOrder = task :: behind) (hat : s.At task (.waiting (.ticketDone ticket)))
    (hdone : ticket < s.lock.nowServing) :
    ¬ s.lock.pass.Blocks .groupEntry ∧
    ∃ rest later, later.inOrder = behind ∧ task ∉ rest.map (·.1) ∧
      ({ s with
        lock := s.lock.pass.enter .shared
        history := .granted task .shared :: s.history } : Scene ε).InLine rest later := by
  obtain ⟨later, horder, hself, hothers⟩ := hline.first_rest hfirst hat
  obtain ⟨hmem, hplace⟩ := hline.first_cases hfirst hat
  obtain ⟨readers, hwoken⟩ : ∃ readers, woken.on .writerDone = task :: readers := by
    rcases hplace with ⟨_, readers, hwoken, _⟩ | ⟨hother, _⟩
    · exact ⟨readers, hwoken⟩
    · simp [Wait.channel] at hother
  obtain ⟨rest, rfl, hempty⟩ := hline.reader_first hparked hwoken hmem hdone
  obtain ⟨hticket, hlined⟩ := hline.lined
  have hnone : s.lock.writersInside = 0 := by
    unfold Lock.ticketsAdmitted at hticket
    omega
  have hadmitted : (s.lock.pass.enter .shared).ticketsAdmitted = s.lock.ticketsAdmitted := by
    have hgroup : (s.lock.pass.enter .shared).writersInside = 0 :=
      Lock.writersInside_of_readers (Nat.succ_pos _)
    rw [Lock.ticketsAdmitted, Lock.ticketsAdmitted, hgroup, hnone]
    rfl
  constructor
  · rintro ⟨hempty, htaken⟩
    have hinside : s.lock.writersInside = 1 := Lock.writersInside_of_writer htaken hempty
    omega
  · have hissued := hline.issued
    refine ⟨rest, later, horder, hline.away_of_front, hline.serve rfl rfl ?_ hempty hself hothers⟩
    rw [hadmitted]
    refine ⟨hlined, ?_⟩
    simpa [lineOn, Wait.channel] using hissued

/-! ## Calls of a task that does not wait -/

/-- A reader that finds no ticket out finds nobody in line and no writer inside. -/
theorem arrives_alone (hline : s.InLine line woken) (hwoken : ∀ channel, woken.on channel = [])
    (hparked : s.Parked) (hnone : s.lock.nextWriterTicket ≤ s.lock.nowServing) (task : Nat) :
    ¬ s.lock.Blocks .groupEntry ∧
      ({ s with
        lock := s.lock.enter .shared
        history := .granted task .shared :: .requested task .shared :: s.history } : Scene ε).InLine
          [] woken := by
  obtain rfl := hline.eq_nil_of_no_ticket hparked hwoken hnone
  have hissued := hline.issued
  have hfree : s.lock.writersInside = 0 := by
    unfold Lock.ticketsAdmitted at hissued
    omega
  have hgroup : (s.lock.enter .shared).writersInside = 0 :=
    Lock.writersInside_of_readers (Nat.succ_pos _)
  have hadmitted : (s.lock.enter .shared).ticketsAdmitted = s.lock.ticketsAdmitted := by
    rw [Lock.ticketsAdmitted, Lock.ticketsAdmitted, hgroup, hfree]
    rfl
  have hanswered := hline.answered
  have hlengths := congrArg List.length hanswered
  rw [List.length_append, length_requests_reverse, length_grants_reverse] at hlengths
  constructor
  · rintro ⟨hempty, htaken⟩
    have hinside : s.lock.writersInside = 1 := Lock.writersInside_of_writer htaken hempty
    omega
  · constructor
    · exact hline.policy
    · simp only [requests_reverse_cons, grants_reverse_cons, hanswered]
      simp [Event.request?, Event.grant?]
    · intro place other wait hplace
      simp at hplace
    · refine ⟨?_, hline.inTurn⟩
      simp only [requestsAhead, if_true]
      exact hlengths
    · intro other wait hmem
      simp at hmem
    · exact hline.distinct
    · trivial
    · rw [hadmitted]
      exact hissued
    · exact hline.channels

/-- A task that asks enters at once, or it stands at the end of the line and looks first. -/
theorem arrives (hline : s.InLine line woken) (hwoken : ∀ channel, woken.on channel = [])
    (haway : task ∉ line.map (·.1)) {mode : Mode}
    (hat : s.At task (.before (.acquire mode))) :
    (mode = .shared ∧ s.lock.arrive mode = { lock := s.lock, wait := .groupEntry } ∧
      s.lock.nextWriterTicket ≤ s.lock.nowServing) ∨
    ∃ later : Waiters, later.inOrder = [task] ∧
      (s.arrived task mode).InLine (line ++ [(task, (s.lock.arrive mode).wait)]) later := by
  have horder : ∀ channel, (({} : Waiters).park task channel).inOrder = [task] := by
    intro channel
    cases channel <;> rfl
  cases mode with
  | exclusive =>
      right
      rcases s.lock.arrive_exclusive_cases with ⟨hpolicy, _⟩ | ⟨_, harrive⟩
      · simp [hline.policy] at hpolicy
      · unfold arrived
        rw [harrive]
        have hjoined := hline.join hwoken haway hat s.lock.takeTicket
          (.writerEntry (some s.lock.nextWriterTicket)) rfl rfl rfl ⟨rfl, trivial⟩
        exact ⟨_, horder _, hjoined.traced task [.ticketIssued s.lock.nextWriterTicket]⟩
  | shared =>
      rcases s.lock.arrive_shared_cases with ⟨harrive, hnone⟩ | ⟨_, ticket, hticket, _, harrive⟩
      · exact .inl ⟨rfl, harrive, hnone hline.policy⟩
      · right
        unfold arrived
        rw [harrive]
        have hjoined := hline.join hwoken haway hat s.lock.queueUp (.ticketDone ticket) rfl rfl rfl
          ⟨hticket, trivial⟩
        exact ⟨_, horder _, hjoined.traced task [.readerQueued ticket]⟩

/-- A release keeps the line and wakes those whom it notifies, in the order in which they look. -/
theorem releases (hline : s.InLine line woken) (hwoken : ∀ channel, woken.on channel = [])
    {mode : Mode} {r : Release} (hrelease : s.lock.release? mode = some r) (task : Nat) :
    ∃ later : Waiters, later.inOrder = r.notified.flatMap s.waiters.on ∧
      ({ s with
        lock := r.lock
        waiters := r.notified.foldl Waiters.clear s.waiters
        history := .released task mode ::
          ((r.traces.map (.traced task)).reverse ++ s.history) } : Scene ε).InLine line later := by
  have hkeeps := Lock.release?_keeps hline.policy hrelease
  have htraced := hline.traced task r.traces
  have hreturned := htraced.append [.released task mode] (by simp [Event.request?, Event.grant?])
  refine ⟨{ released := if .released ∈ r.notified then s.waiters.released else []
            writerDone := if .writerDone ∈ r.notified then s.waiters.writerDone else [] }, ?_, ?_⟩
  · rcases hkeeps.notified with hnone | hsome | hboth
    · simp [Waiters.inOrder, Waiters.on, hnone]
    · simp [Waiters.inOrder, Waiters.on, hsome]
    · simp [Waiters.inOrder, Waiters.on, hboth]
  · refine ⟨hkeeps.policy.trans hreturned.policy, hreturned.answered, hreturned.ahead,
      hreturned.inTurn, hreturned.stands, hreturned.distinct, ?_, ?_, ?_⟩
    · rw [hkeeps.admitted]
      exact hline.lined
    · rw [hkeeps.admitted, hkeeps.issued]
      exact hline.issued
    · intro channel
      rw [Waiters.on_foldl_clear, ← hline.channels channel, hwoken, List.append_nil]
      cases channel with
      | released =>
          by_cases hnotified : Channel.released ∈ r.notified <;> simp [Waiters.on, hnotified]
      | writerDone =>
          by_cases hnotified : Channel.writerDone ∈ r.notified <;> simp [Waiters.on, hnotified]

end InLine

end Scene

end ReaderWriter
