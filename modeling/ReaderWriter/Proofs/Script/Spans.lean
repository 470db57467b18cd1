import ReaderWriter.Proofs.Script.Exclusion

/-!
# From grant to release

The number of events before an event is its moment.  An access lasts from the moment at which it is
granted to the one at which it is given back, and a task gives back its innermost access first.  So
the history says which accesses are open and since when, and outside of raw style these are the ones
of which the task keeps account.
-/

namespace ReaderWriter

variable {σ δ ε : Type}

/-- The accesses of a task that are not given back, the outermost one first, each with the moment of
its grant; in a history with the newest event first. -/
def openAccesses (task : Nat) : List (Event ε) → List (Nat × Mode)
  | [] => []
  | .granted other mode :: earlier =>
    if other = task then openAccesses task earlier ++ [(earlier.length, mode)]
    else openAccesses task earlier
  | .released other _ :: earlier =>
    if other = task then (openAccesses task earlier).dropLast else openAccesses task earlier
  | _ :: earlier => openAccesses task earlier

/-- An event either opens an access, or closes one, or none. -/
theorem openAccesses_cons_sublist (task : Nat) (event : Event ε) (earlier : List (Event ε)) :
    (∃ mode, event = .granted task mode ∧ openAccesses task (event :: earlier) =
      openAccesses task earlier ++ [(earlier.length, mode)]) ∨
    (openAccesses task (event :: earlier)).Sublist (openAccesses task earlier) := by
  cases event with
  | granted other mode =>
      by_cases hother : other = task
      · subst hother
        exact .inl ⟨mode, rfl, if_pos rfl⟩
      · right
        simp [openAccesses, hother]
  | released other mode =>
      right
      simp only [openAccesses]
      split
      · exact List.dropLast_sublist _
      · exact List.Sublist.refl _
  | _ => exact .inr (List.Sublist.refl _)

/-- What is open was granted. -/
theorem granted_of_mem_openAccesses {task : Nat} {history : List (Event ε)} {access : Nat × Mode}
    (hopen : access ∈ openAccesses task history) :
    history.reverse[access.1]? = some (.granted task access.2) := by
  induction history with
  | nil => simp [openAccesses] at hopen
  | cons event earlier ih =>
      have hold : access ∈ openAccesses task earlier →
          (event :: earlier).reverse[access.1]? = some (.granted task access.2) := by
        intro hbefore
        have hgrant := ih hbefore
        rw [List.reverse_cons, List.getElem?_append_left (List.getElem?_eq_some_iff.mp hgrant).1]
        exact hgrant
      rcases openAccesses_cons_sublist task event earlier with ⟨mode, rfl, hopens⟩ | hsublist
      · rw [hopens] at hopen
        rcases List.mem_append.mp hopen with hbefore | hnew
        · exact hold hbefore
        · obtain rfl := List.mem_singleton.mp hnew
          simp
      · exact hold (hsublist.mem hopen)

/-- An access that is open was open ever since its grant. -/
theorem mem_openAccesses_of_append {task : Nat} {later earlier : List (Event ε)}
    {access : Nat × Mode} (hopen : access ∈ openAccesses task (later ++ earlier))
    (hgranted : access.1 < earlier.length) : access ∈ openAccesses task earlier := by
  induction later with
  | nil => exact hopen
  | cons event later ih =>
      rcases openAccesses_cons_sublist task event (later ++ earlier) with
        ⟨mode, rfl, hopens⟩ | hsublist
      · rw [List.cons_append, hopens] at hopen
        rcases List.mem_append.mp hopen with hbefore | hnew
        · exact ih hbefore
        · obtain rfl := List.mem_singleton.mp hnew
          simp at hgranted
      · exact ih (hsublist.mem hopen)

/-- Events that grant the task nothing and take nothing from it leave open what is open. -/
theorem openAccesses_append {task : Nat} {events : List (Event ε)}
    (hgrants : ∀ mode, .granted task mode ∉ events)
    (hreturns : ∀ mode, .released task mode ∉ events) (history : List (Event ε)) :
    openAccesses task (events ++ history) = openAccesses task history := by
  induction events with
  | nil => rfl
  | cons event events ih =>
      have hrest := ih (fun mode hmem => hgrants mode (List.mem_cons_of_mem _ hmem))
        (fun mode hmem => hreturns mode (List.mem_cons_of_mem _ hmem))
      rw [List.cons_append, ← hrest]
      cases event with
      | granted other mode =>
          have hother : other ≠ task := by
            rintro rfl
            exact hgrants mode List.mem_cons_self
          simp [openAccesses, hother]
      | released other mode =>
          have hother : other ≠ task := by
            rintro rfl
            exact hreturns mode List.mem_cons_self
          simp [openAccesses, hother]
      | _ => rfl

/-- The access that the task was granted at one moment of the log is open at another one. -/
def OpenAt (log : List (Event ε)) (task entered : Nat) (mode : Mode) (moment : Nat) : Prop :=
  (entered, mode) ∈ openAccesses task (log.take moment).reverse

theorem OpenAt.granted {log : List (Event ε)} {task entered moment : Nat} {mode : Mode}
    (hopen : OpenAt log task entered mode moment) :
    entered < moment ∧ log[entered]? = some (.granted task mode) := by
  have hgrant := granted_of_mem_openAccesses hopen
  rw [List.reverse_reverse, List.getElem?_take] at hgrant
  split at hgrant
  · exact ⟨‹_›, hgrant⟩
  · simp at hgrant

theorem OpenAt.of_later {log : List (Event ε)} {task entered first second : Nat} {mode : Mode}
    (hopen : OpenAt log task entered mode second) (hentered : entered < first)
    (hle : first ≤ second) : OpenAt log task entered mode first := by
  have hlt : entered < log.length := (List.getElem?_eq_some_iff.mp hopen.granted.2).1
  have htake : log.take first = (log.take second).take first := by
    rw [List.take_take, Nat.min_eq_left hle]
  have hsplit : (log.take second).reverse =
      ((log.take second).drop first).reverse ++ (log.take first).reverse := by
    rw [htake, ← List.reverse_append, List.take_append_drop]
  unfold OpenAt at hopen ⊢
  rw [hsplit] at hopen
  exact mem_openAccesses_of_append hopen (by simp; omega)

namespace Script

/-- What the tasks keep account of is what is open. -/
def Opened (m : State) : Prop :=
  ∀ (task : Nat) (t : Task Hand), m.tasks[task]? = some t →
    (openAccesses task m.history).map Prod.snd = t.own.holding.outermostFirst

variable {s : Script} {m : State} {task : Nat} {t : Task Hand}

/-- What is open for a task is what it keeps account of after it has gone on. -/
theorem openAccesses_act (hm : Balanced m) (hopened : Opened m) (htask : m.tasks[task]? = some t)
    {u : Task Hand} (hu : (m.act program task t).tasks[task]? = some u) :
    (openAccesses task (m.act program task t).history).map Prod.snd =
      u.own.holding.outermostFirst := by
  have hbefore := hopened task t htask
  have htracked := hm.tracked t (List.mem_of_getElem? htask)
  obtain ⟨hlt, _⟩ := List.getElem?_eq_some_iff.mp htask
  have hself : ∀ {v : Task Hand}, (m.tasks.set task v)[task]? = some u → v = u := fun hv =>
    Option.some.inj ((List.getElem?_set_self hlt).symm.trans hv)
  -- what the program notes opens and closes nothing
  have hnoted : ∀ (notes : List Note) (history : List (Event Note)),
      openAccesses task ((notes.map (.noted task)).reverse ++ history) =
        openAccesses task history := by
    intro notes history
    exact openAccesses_append (by simp) (by simp) history
  have hacts := Machine.acts program m task t
  generalize m.act program task t = next at hacts hu ⊢
  cases hacts with
  | resumes hpoint =>
      rw [Machine.react_tasks] at hu
      rw [Machine.react_history, hnoted, ← hself hu, hbefore]
      exact congrArg Holding.outermostFirst (t.own.resume_holding m.shared).symm
  | @parks lock wait hlooks hblocks =>
      obtain rfl := hself hu
      change (openAccesses task
        ((m.lock.arrivalEvents task t.point).reverse ++ m.history)).map Prod.snd = _
      rw [openAccesses_append]
      · exact hbefore
      · simp [Lock.not_mem_arrivalEvents]
      · simp [Lock.not_mem_arrivalEvents]
  | @enters lock wait hlooks hchannel henters =>
      rw [Machine.react_tasks] at hu
      have hholding := Hand.granted_holding htracked.command wait.mode m.shared
      have hquiet : openAccesses task ((wait.admission.map (.traced task)).reverse ++
          ((m.lock.arrivalEvents task t.point).reverse ++ m.history)) =
          openAccesses task m.history := by
        rw [openAccesses_append (by simp) (by simp),
          openAccesses_append (by simp [Lock.not_mem_arrivalEvents])
            (by simp [Lock.not_mem_arrivalEvents])]
      rw [Machine.react_history, hnoted, ← hself hu]
      simp [Machine.record, openAccesses, hquiet, hbefore, program, hholding,
        Holding.outermostFirst_enter _ htracked.tracked]
  | @returns mode r hpoint hrelease =>
      rw [Machine.react_tasks, Machine.foldl_notify_tasks] at hu
      have hholding := Hand.released_holding htracked.command mode m.shared
      have hquiet : openAccesses task ((r.traces.map (.traced task)).reverse ++ m.history) =
          openAccesses task m.history :=
        openAccesses_append (by simp) (by simp) _
      rw [Machine.react_history, hnoted, Machine.foldl_notify_history, ← hself hu]
      simp [Machine.record, openAccesses, hquiet, ← hbefore, program, hholding,
        Holding.outermostFirst_leave, List.map_dropLast]
  | @misuses mode hpoint hrelease =>
      have hsome := hm.release?_isSome_of_before htask hpoint
      rw [hrelease] at hsome
      contradiction

theorem Opened.act (hm : Balanced m) (hopened : Opened m) (htask : m.tasks[task]? = some t) :
    Opened (m.act program task t) := by
  intro other u hu
  by_cases hother : other = task
  · subst hother
    exact openAccesses_act hm hopened htask hu
  · obtain ⟨events, hhistory, habout⟩ := m.act_records program task t
    rw [Machine.act_tasks_of_ne program m t hother] at hu
    rw [hhistory, openAccesses_append]
    · exact hopened other u hu
    · exact fun mode hmem => hother (habout _ hmem)
    · exact fun mode hmem => hother (habout _ hmem)

theorem Reaches.opened (hm : s.Reaches m) (hstyle : s.style ≠ .raw) : Opened m := by
  refine hm.keeps_reached ?_ ?_ ?_ ?_
  · intro m next name command? _ hopened hhand task u hu
    obtain ⟨index, t, command, _, _, htask, _, _, _, rfl⟩ := hand_eq_ok_iff.mp hhand
    by_cases hindex : index = task
    · subst hindex
      rw [List.getElem?_set_self'] at hu
      obtain ⟨_, _, rfl⟩ := Option.map_eq_some_iff.mp hu
      exact hopened index t htask
    · rw [List.getElem?_set_ne hindex] at hu
      exact hopened task u hu
  · intro m next name _ hopened hwake
    obtain ⟨index, _, rfl⟩ := wake_cases hwake
    exact hopened
  · intro task t htask
    obtain ⟨name, _, rfl⟩ := List.mem_map.mp (List.mem_of_getElem? htask)
    cases s.style <;> rfl
  · intro m next hreaches hopened hstep
    rcases Machine.step_cases hstep with
      ⟨_, c, _, rfl⟩ | ⟨_, _, _, rfl⟩ | ⟨task, t, _, htask, rfl⟩
    · exact hopened
    · exact hopened
    · exact hopened.act (hreaches.balanced hstyle) htask

/-- Whoever has an access open holds it. -/
theorem Reaches.held_of_open (hm : s.Reaches m) (hstyle : s.style ≠ .raw) {access : Nat × Mode}
    (hopen : access ∈ openAccesses task m.history) : 0 < held m.history task access.2 := by
  have hbalanced := hm.balanced hstyle
  have hgrant := List.mem_reverse.mp (List.mem_of_getElem? (granted_of_mem_openAccesses hopen))
  have hlt : task < m.tasks.length := by
    simpa [Machine.scene] using hbalanced.attributed task access.2 (.inl hgrant)
  have htask : m.tasks[task]? = some m.tasks[task] := List.getElem?_eq_getElem hlt
  rw [hbalanced.held_eq htask, ← hm.opened hstyle task _ htask, List.count_pos_iff]
  exact List.mem_map_of_mem hopen

end Script

end ReaderWriter
