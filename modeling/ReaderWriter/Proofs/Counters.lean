import ReaderWriter.Proofs.Tickets

/-!
# How far the counters of a lock go

The lock counts the readers that are queued behind a ticket, the readers inside and the tickets.
The first of these numbers is that of the tasks which stand in the first wait of a reader, so it is
not zero when such a task goes on.  Every reader that is queued or inside, and every ticket, comes
from a request of its own.  So no counter gets ahead of the number of requests.
-/

namespace ReaderWriter

variable {ε : Type}

/-- The task waits for a ticket, or was woken there and has not looked again. -/
def Point.queued : Point → Bool
  | .waiting (.ticketDone _) => true
  | _ => false

def Point.waits : Point → Bool
  | .waiting _ => true
  | _ => false

def Event.requests : Event ε → Bool
  | .requested _ _ => true
  | _ => false

/-- Any access is granted. -/
def Event.admits : Event ε → Bool
  | .granted _ _ => true
  | _ => false

@[simp] theorem Event.requests_comp_traced (task : Nat) :
    (requests : Event ε → Bool) ∘ traced task = fun _ => false := rfl

@[simp] theorem Event.admits_comp_traced (task : Nat) :
    (admits : Event ε → Bool) ∘ traced task = fun _ => false := rfl

namespace Scene

structure Counted (s : Scene ε) : Prop where
  queued : s.lock.queuedReaders = s.points.countP Point.queued
  /-- A request was granted or waits. -/
  answered :
    s.history.countP Event.requests =
      s.history.countP Event.admits + s.points.countP Point.waits
  issued : (tickets .issued s.history).length ≤ s.history.countP Event.requests

theorem start_counted (policy : Policy) (tasks : Nat) :
    (start policy tasks : Scene ε).Counted := by
  have hqueued :
      (List.replicate tasks Point.outside).countP Point.queued = 0 := by
    simp [List.countP_replicate, Point.queued]
  have hwaits :
      (List.replicate tasks Point.outside).countP Point.waits = 0 := by
    simp [List.countP_replicate, Point.waits]
  constructor
  · exact hqueued.symm
  · simpa [start] using hwaits.symm
  · simp [start]

end Scene

theorem countP_set_add {α : Type} (p : α → Bool) {l : List α} {i : Nat} {a : α} (b : α)
    (ha : l[i]? = some a) :
    (l.set i b).countP p + (p a).toNat = l.countP p + (p b).toNat := by
  obtain ⟨hlt, hget⟩ := List.getElem?_eq_some_iff.mp ha
  have hset := List.countP_set (p := p) (a := b) hlt
  have hpos : p a = true → 0 < l.countP p := by
    intro hp
    rw [List.countP_pos_iff]
    exact ⟨a, List.mem_of_getElem? ha, hp⟩
  rw [hget] at hset
  cases hpa : p a with
  | false =>
      cases hpb : p b <;> simp [hpa, hpb] at hset ⊢ <;> omega
  | true =>
      have hsome := hpos hpa
      cases hpb : p b <;> simp [hpa, hpb] at hset ⊢ <;> omega

namespace Scene

theorem Counted.moved {s next : Scene ε} (hcounted : s.Counted) {mover : Nat}
    {point target : Point} (hat : s.At mover point)
    (hpoints : next.points = s.points.set mover target)
    (hqueued :
      next.lock.queuedReaders + point.queued.toNat =
        s.lock.queuedReaders + target.queued.toNat)
    (hanswered :
      next.history.countP Event.requests + s.history.countP Event.admits + point.waits.toNat =
        s.history.countP Event.requests + next.history.countP Event.admits + target.waits.toNat)
    (hissued :
      (tickets .issued next.history).length + s.history.countP Event.requests ≤
        (tickets .issued s.history).length + next.history.countP Event.requests) :
    next.Counted := by
  have holdQueued := hcounted.queued
  have holdAnswered := hcounted.answered
  have holdIssued := hcounted.issued
  have hqueuedPoints := countP_set_add Point.queued target hat
  have hwaitsPoints := countP_set_add Point.waits target hat
  constructor
  · rw [hpoints]
    omega
  · rw [hpoints]
    omega
  · omega

theorem Counted.queuedReaders_pos {s : Scene ε} (hcounted : s.Counted) {task ticket : Nat}
    (hat : s.At task (.waiting (.ticketDone ticket))) : 0 < s.lock.queuedReaders := by
  rw [hcounted.queued, List.countP_pos_iff]
  exact ⟨_, List.mem_of_getElem? hat, rfl⟩

theorem Counted.arrive {s : Scene ε} (hcounted : s.Counted) {task : Nat} {mode : Mode}
    (hat : s.At task (.before (.acquire mode))) :
    ({ s with
      lock := (s.lock.arrive mode).lock
      points := s.points.set task (.waiting (s.lock.arrive mode).wait)
      history := ((s.lock.arrive mode).traces.map (.traced task)).reverse ++
        .requested task mode :: s.history } : Scene ε).Counted := by
  cases mode with
  | exclusive =>
      rcases s.lock.arrive_exclusive_cases with ⟨_, harrive⟩ | ⟨_, harrive⟩
      · rw [harrive]
        apply hcounted.moved hat rfl
        · simp [Point.queued]
        · simp [List.countP_cons, Point.waits, Event.requests, Event.admits]
          omega
        · simp [tickets_cons, List.countP_cons, Event.ticket?, Event.requests]
      · rw [harrive]
        apply hcounted.moved hat rfl
        · simp [Point.queued, Lock.takeTicket]
        · simp [List.countP_cons, Point.waits, Event.requests, Event.admits]
          omega
        · simp [tickets_cons, List.countP_cons, Event.ticket?, Trace.ticket?, Event.requests]
          omega
  | shared =>
      rcases s.lock.arrive_shared_cases with ⟨harrive, _⟩ | ⟨_, _, _, _, harrive⟩
      · rw [harrive]
        apply hcounted.moved hat rfl
        · simp [Point.queued]
        · simp [List.countP_cons, Point.waits, Event.requests, Event.admits]
          omega
        · simp [tickets_cons, List.countP_cons, Event.ticket?, Event.requests]
      · rw [harrive]
        apply hcounted.moved hat rfl
        · simp [Point.queued, Lock.queueUp]
        · simp [List.countP_cons, Point.waits, Event.requests, Event.admits]
          omega
        · simp [tickets_cons, List.countP_cons, Event.ticket?, Trace.ticket?, Event.requests]

theorem Counted.enter {s : Scene ε} (hcounted : s.Counted) {task : Nat} {wait : Wait}
    (hat : s.At task (.waiting wait)) (hchannel : wait.channel = .released) :
    ({ s with
      lock := s.lock.enter wait.mode
      points := s.points.set task .outside
      history := .granted task wait.mode ::
        ((wait.admission.map (.traced task)).reverse ++ s.history) } : Scene ε).Counted := by
  have hunqueued : (Point.waiting wait).queued = false := by
    cases wait with
    | ticketDone ticket => simp [Wait.channel] at hchannel
    | groupEntry => rfl
    | writerEntry ticket? => rfl
  have hlock : (s.lock.enter wait.mode).queuedReaders = s.lock.queuedReaders := by
    cases wait.mode <;> rfl
  have hissued :
      tickets .issued ((wait.admission.map (.traced task)).reverse ++ s.history) =
        tickets .issued s.history := by
    rcases wait with _ | _ | (_ | _) <;> rfl
  apply hcounted.moved hat rfl
  · rw [hlock, hunqueued]
    rfl
  · simp [List.countP_cons, Point.waits, Event.requests, Event.admits]
    omega
  · rw [tickets_cons, hissued]
    simp [Event.ticket?, Event.requests]

theorem Counted.leave {s : Scene ε} (hcounted : s.Counted) {task : Nat} {mode : Mode}
    {r : Release} (hat : s.At task (.before (.release mode)))
    (hrelease : s.lock.release? mode = some r) (waiters : Waiters) :
    ({ lock := r.lock
       points := s.points.set task .outside
       waiters
       history := .released task mode ::
         ((r.traces.map (.traced task)).reverse ++ s.history) } : Scene ε).Counted := by
  have hlock : r.lock.queuedReaders = s.lock.queuedReaders := by
    cases mode with
    | shared =>
        rcases Lock.release?_shared_cases hrelease with ⟨_, rfl⟩ | ⟨_, rfl⟩ <;> rfl
    | exclusive =>
        rcases (Lock.release?_exclusive_cases hrelease).2 with ⟨_, rfl⟩ | ⟨_, rfl⟩ <;> rfl
  have hissued :
      tickets .issued ((r.traces.map (.traced task)).reverse ++ s.history) =
        tickets .issued s.history := by
    cases mode with
    | shared =>
        rcases Lock.release?_shared_cases hrelease with ⟨_, rfl⟩ | ⟨_, rfl⟩ <;> rfl
    | exclusive =>
        rcases (Lock.release?_exclusive_cases hrelease).2 with ⟨_, rfl⟩ | ⟨_, rfl⟩ <;> rfl
  apply hcounted.moved hat rfl
  · rw [hlock]
    rfl
  · simp [Point.waits, Event.requests, Event.admits]
  · rw [tickets_cons, hissued]
    simp [Event.ticket?, Event.requests]

theorem Counted.aside {s : Scene ε} (hcounted : s.Counted) {event : Event ε}
    (haside : event.Aside) (hrequests : event.requests = false) :
    ({ s with history := event :: s.history } : Scene ε).Counted := by
  have hadmits : event.admits = false := by
    cases event with
    | granted task mode => exact haside.elim
    | _ => rfl
  constructor
  · exact hcounted.queued
  · simpa [List.countP_cons, hrequests, hadmits] using hcounted.answered
  · rw [haside.tickets_cons]
    simpa [List.countP_cons, hrequests] using hcounted.issued

theorem Counted.move {s next : Scene ε} (hmove : Move s next) (hcounted : s.Counted) :
    next.Counted := by
  cases hmove with
  | turn task => exact hcounted.aside (by trivial) rfl
  | note task note => exact hcounted.aside (by trivial) rfl
  | approach call hat => exact hcounted.moved hat rfl rfl rfl le_rfl
  | arrive hat => exact hcounted.arrive hat
  | park hat hblocks => exact ⟨hcounted.queued, hcounted.answered, hcounted.issued⟩
  | pass hat hdone =>
      have hpos := hcounted.queuedReaders_pos hat
      apply hcounted.moved hat rfl
      · simp [Point.queued, Lock.pass]
        omega
      · simp [Point.waits]
      · exact le_rfl
  | enter hat hchannel henters => exact hcounted.enter hat hchannel
  | leave hat hrelease => exact hcounted.leave hat hrelease _
  | misuse hat hrelease =>
      have haway : ({ s with points := s.points.set _ .outside } : Scene ε).Counted :=
        hcounted.moved hat rfl rfl rfl le_rfl
      exact haway.aside (by trivial) rfl
  | wake task => exact ⟨hcounted.queued, hcounted.answered, hcounted.issued⟩

theorem Run.counted {s last : Scene ε} (hrun : Run s last) (hcounted : s.Counted) :
    last.Counted :=
  hrun.keeps Counted.move hcounted

/-! ## Bounds -/

theorem countP_admits (history : List (Event ε)) :
    history.countP Event.admits =
      history.countP (Event.grants .shared) + history.countP (Event.grants .exclusive) := by
  induction history with
  | nil => rfl
  | cons event earlier ih =>
      simp only [List.countP_cons, ih]
      cases event with
      | granted task mode => cases mode <;> simp [Event.admits, Event.grants] <;> omega
      | _ => simp [Event.admits, Event.grants]

theorem Counted.activeReaders_le {s : Scene ε} (hcounted : s.Counted) (haccounts : s.Accounts) :
    s.lock.activeReaders ≤ s.history.countP Event.requests := by
  have hreaders := haccounts.readers
  have hanswered := hcounted.answered
  have hadmits := countP_admits s.history
  omega

theorem Counted.queuedReaders_le {s : Scene ε} (hcounted : s.Counted) :
    s.lock.queuedReaders ≤ s.history.countP Event.requests := by
  have hwaits : s.points.countP Point.queued ≤ s.points.countP Point.waits := by
    apply List.countP_mono_left
    intro point _ hqueued
    cases point with
    | waiting wait => rfl
    | _ => simp [Point.queued] at hqueued
  have hqueued := hcounted.queued
  have hanswered := hcounted.answered
  omega

theorem Counted.nextWriterTicket_le {s : Scene ε} (hcounted : s.Counted)
    (hticketed : s.Ticketed) :
    s.lock.nextWriterTicket ≤ s.history.countP Event.requests := by
  rw [← hticketed.issued]
  exact hcounted.issued

end Scene

end ReaderWriter
