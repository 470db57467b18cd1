import ReaderWriter.Proofs.Balance
import ReaderWriter.Proofs.Line

/-!
# Sections that grant and sections that park

A task is granted an access in the section in which it looks at its condition and finds that it
holds.  That section grants nothing else and moves nobody who is parked, and no other section grants
anything.  A task that looks and finds that its condition does not hold is parked.
-/

namespace ReaderWriter

variable {σ δ ε : Type}

theorem mem_grants {events : List (Event ε)} {task : Nat} {mode : Mode} :
    (task, mode) ∈ grants events ↔ .granted task mode ∈ events := by
  simp only [grants, List.mem_filterMap]
  constructor
  · rintro ⟨event, hevent, hgrant⟩
    cases event with
    | granted other granted =>
        obtain ⟨rfl, rfl⟩ : other = task ∧ granted = mode := by simpa [Event.grant?] using hgrant
        exact hevent
    | _ => simp [Event.grant?] at hgrant
  · intro hevent
    exact ⟨_, hevent, rfl⟩

@[simp] theorem grants_nil : grants ([] : List (Event ε)) = [] := rfl

@[simp] theorem grants_cons (event : Event ε) (events : List (Event ε)) :
    grants (event :: events) = event.grant?.toList ++ grants events := by
  cases hgrant : event.grant? <;> simp [grants, hgrant]

@[simp] theorem grants_append (events more : List (Event ε)) :
    grants (events ++ more) = grants events ++ grants more :=
  List.filterMap_append

@[simp] theorem grants_reverse (events : List (Event ε)) :
    grants events.reverse = (grants events).reverse :=
  List.filterMap_reverse

@[simp] theorem grants_map_traced (task : Nat) (traces : List Trace) :
    grants (traces.map (Event.traced task) : List (Event ε)) = [] := by
  simp [grants, Event.grant?]

@[simp] theorem grants_map_noted (task : Nat) (notes : List ε) :
    grants (notes.map (Event.noted task)) = [] := by
  simp [grants, Event.grant?]

@[simp] theorem grants_arrivalEvents (l : Lock) (task : Nat) (point : Point) :
    grants (l.arrivalEvents task point : List (Event ε)) = [] := by
  apply List.filterMap_eq_nil_iff.mpr
  intro event hevent
  rcases Lock.arrivalEvents_cases hevent with ⟨_, rfl⟩ | ⟨_, rfl⟩ <;> rfl

namespace Machine

/-- The section lets the task in, which found the condition of the wait to hold. -/
structure LetsIn (p : Program σ δ ε) (m : Machine σ δ ε) (task : Nat) (t : Task σ) (wait : Wait)
    (next : Machine σ δ ε) : Prop where
  looks : ∃ lock, m.lock.Looks t.point lock wait ∧ ¬ lock.Blocks wait ∧
    next.lock = lock.enter wait.mode
  channel : wait.channel = .released
  waiters : next.waiters = m.waiters
  tasks : next.tasks = m.tasks.set task
    { point := (p.granted wait.mode t.own m.shared).point
      own := (p.granted wait.mode t.own m.shared).own }
  events : ∃ events, next.history = events ++ m.history ∧ grants events = [(task, wait.mode)] ∧
    ∀ trace ∈ wait.admission, .traced task trace ∈ events

/-- The section parks the task, which found the condition of the wait not to hold. -/
structure Parks (m : Machine σ δ ε) (task : Nat) (point : Point) (wait : Wait)
    (next : Machine σ δ ε) : Prop where
  looks : ∃ lock, m.lock.Looks point lock wait ∧ lock.Blocks wait
  stands : next.scene.At task (.waiting wait)
  waiters : next.waiters = m.waiters.park task wait.channel
  history : next.history = (m.lock.arrivalEvents task point).reverse ++ m.history

variable {m : Machine σ δ ε} {task : Nat} {t : Task σ} {lock : Lock} {wait : Wait}

theorem letsIn_enters (p : Program σ δ ε) (hlooks : m.lock.Looks t.point lock wait)
    (hchannel : wait.channel = .released) (henters : ¬ lock.Blocks wait) :
    m.LetsIn p task t wait
      (({ m with lock := lock.enter wait.mode }.record
        (m.lock.arrivalEvents task t.point ++
          (wait.admission.map (Event.traced task) ++ [Event.granted task wait.mode]))).react
        task (p.granted wait.mode t.own m.shared)) := by
  refine ⟨⟨_, hlooks, henters, react_lock _ _ _⟩, hchannel, react_waiters _ _ _,
    react_tasks _ _ _, ?_⟩
  refine ⟨_, (react_history _ _ _).trans (List.append_assoc _ _ _).symm, ?_, ?_⟩
  · simp [Event.grant?]
  · intro trace htrace
    simp [htrace]

theorem parks_park (htask : m.tasks[task]? = some t) (hlooks : m.lock.Looks t.point lock wait)
    (hblocks : lock.Blocks wait) :
    m.Parks task t.point wait
      (({ m with lock }.record (m.lock.arrivalEvents task t.point)).park task t.own wait) := by
  obtain ⟨hlt, _⟩ := List.getElem?_eq_some_iff.mp htask
  exact ⟨⟨_, hlooks, hblocks⟩, scene_at_iff.mpr ⟨_, List.getElem?_set_self hlt, rfl⟩, rfl, rfl⟩

/-- A section lets its task in, or it grants nothing. -/
theorem act_grants (p : Program σ δ ε) (m : Machine σ δ ε) (task : Nat) (t : Task σ) :
    (∃ wait, m.LetsIn p task t wait (m.act p task t)) ∨
      ∃ events, (m.act p task t).history = events ++ m.history ∧ grants events = [] := by
  have hreact : ∀ {later : Machine σ δ ε} (events : List (Event ε)) (r : Reaction σ δ ε),
      later.history = events ++ m.history → grants events = [] →
      ∃ events, (later.react task r).history = events ++ m.history ∧ grants events = [] := by
    intro later events r hhistory hnone
    refine ⟨(r.notes.map (.noted task)).reverse ++ events, ?_, by simp [hnone]⟩
    rw [react_history, hhistory, List.append_assoc]
  have hacts := acts p m task t
  generalize m.act p task t = next at hacts ⊢
  cases hacts with
  | resumes hpoint => exact .inr (hreact [] _ (List.nil_append _).symm rfl)
  | parks hlooks hblocks => exact .inr ⟨_, rfl, by simp⟩
  | enters hlooks hchannel henters => exact .inl ⟨_, letsIn_enters p hlooks hchannel henters⟩
  | @returns mode r hpoint hrelease =>
      refine .inr (hreact _ _ (foldl_notify_history _ _) ?_)
      simp [Event.grant?]
  | @misuses mode hpoint hrelease =>
      exact .inr (hreact [.misused task mode] _ rfl rfl)

theorem step_grants {p : Program σ δ ε} {next : Machine σ δ ε} (hstep : m.step p = some next) :
    (∃ task t wait, m.tasks[task]? = some t ∧ m.LetsIn p task t wait next) ∨
      ∃ events, next.history = events ++ m.history ∧ grants events = [] := by
  rcases step_cases hstep with ⟨_, c, _, rfl⟩ | ⟨_, _, _, rfl⟩ | ⟨task, t, _, htask, rfl⟩
  · exact .inr ⟨[.turn c.task], rfl, rfl⟩
  · exact .inr ⟨[], rfl, rfl⟩
  · rcases act_grants p m task t with ⟨wait, hletsIn⟩ | hnone
    · exact .inl ⟨task, t, wait, htask, hletsIn⟩
    · exact .inr hnone

/-- A task waits after its own section only if that section has parked it. -/
theorem act_parks (p : Program σ δ ε) (htask : m.tasks[task]? = some t)
    (hat : (m.act p task t).scene.At task (.waiting wait)) :
    m.Parks task t.point wait (m.act p task t) := by
  have hacts := acts p m task t
  generalize m.act p task t = next at hacts hat ⊢
  cases hacts with
  | @parks lock looked hlooks hblocks =>
      have hparks := parks_park htask hlooks hblocks
      obtain rfl : looked = wait := by simpa using hparks.stands.symm.trans hat
      exact hparks
  | _ => exact (not_at_react _ _ _ _ hat).elim

/-- A call for access is granted, or it is parked. -/
theorem act_looks (p : Program σ δ ε) (htask : m.tasks[task]? = some t)
    (hpoint : (∃ mode, t.point = .before (.acquire mode)) ∨ ∃ waiting, t.point = .waiting waiting) :
    (∃ wait, m.LetsIn p task t wait (m.act p task t)) ∨
      ∃ wait, m.Parks task t.point wait (m.act p task t) := by
  have hacts := acts p m task t
  generalize m.act p task t = next at hacts ⊢
  cases hacts with
  | parks hlooks hblocks => exact .inr ⟨_, parks_park htask hlooks hblocks⟩
  | enters hlooks hchannel henters => exact .inl ⟨_, letsIn_enters p hlooks hchannel henters⟩
  | resumes hother => simp [hother] at hpoint
  | returns hother hrelease => simp [hother] at hpoint
  | misuses hother hrelease => simp [hother] at hpoint

/-- A call that arrives is granted if its condition holds, and parked otherwise. -/
theorem act_arrives (p : Program σ δ ε) (htask : m.tasks[task]? = some t) {mode : Mode}
    (hpoint : t.point = .before (.acquire mode)) :
    (¬ m.lock.Blocks (m.lock.arrive mode).wait ∧
      m.LetsIn p task t (m.lock.arrive mode).wait (m.act p task t)) ∨
    (m.lock.Blocks (m.lock.arrive mode).wait ∧
      m.Parks task t.point (m.lock.arrive mode).wait (m.act p task t)) := by
  have hlook : ∀ {lock wait}, m.lock.Looks t.point lock wait →
      lock = (m.lock.arrive mode).lock ∧ wait = (m.lock.arrive mode).wait := by
    intro lock wait hlooks
    rw [hpoint] at hlooks
    cases hlooks
    exact ⟨rfl, rfl⟩
  rcases act_looks p htask (.inl ⟨mode, hpoint⟩) with ⟨wait, hletsIn⟩ | ⟨wait, hparks⟩
  · obtain ⟨lock, hlooks, henters, _⟩ := hletsIn.looks
    obtain ⟨rfl, rfl⟩ := hlook hlooks
    exact .inl ⟨mt (m.lock.arrive_blocks_iff mode _).mpr henters, hletsIn⟩
  · obtain ⟨lock, hlooks, hblocks⟩ := hparks.looks
    obtain ⟨rfl, rfl⟩ := hlook hlooks
    exact .inr ⟨(m.lock.arrive_blocks_iff mode _).mp hblocks, hparks⟩

end Machine

end ReaderWriter
