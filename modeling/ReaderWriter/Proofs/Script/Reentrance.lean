import ReaderWriter.Proofs.Progress
import ReaderWriter.Proofs.Script.Exclusion
import ReaderWriter.Proofs.Script.Fairness
import ReaderWriter.Proofs.Script.Turns
import ReaderWriter.Proofs.Script.Waking

/-!
# Asking inside of an access

A task that waits cannot give back what it holds.  If it waits inside of accesses of its own, it
waits for good: beside it only readers leave, and never the last one, so no condition comes to hold
and no ticket is completed.  The only request inside of other accesses that does not end so is that
of a read inside of reads while no ticket is out.
-/

namespace ReaderWriter

namespace Lock

theorem Looks.blocks_iff {l lock : Lock} {point : Point} {wait : Wait}
    (hlooks : l.Looks point lock wait) (other : Wait) : lock.Blocks other ↔ l.Blocks other := by
  cases hlooks with
  | arrives mode => exact l.arrive_blocks_iff mode other
  | again wait => exact Iff.rfl
  | passes hdone => exact l.pass_blocks_iff other

theorem Looks.nowServing {l lock : Lock} {point : Point} {wait : Wait}
    (hlooks : l.Looks point lock wait) : lock.nowServing = l.nowServing := by
  cases hlooks with
  | arrives mode =>
      rcases l.arrive_lock_cases mode with hlock | hlock | hlock <;> rw [hlock] <;> rfl
  | again wait => rfl
  | passes hdone => rfl

theorem Looks.suits {l lock : Lock} {point : Point} {wait : Wait}
    (hlooks : l.Looks point lock wait)
    (hsuits : ∀ waiting, point = .waiting waiting → waiting.Suits l.policy) :
    wait.Suits l.policy := by
  cases hlooks with
  | arrives mode => exact Scene.arrive_suits l mode
  | again wait => exact hsuits wait rfl
  | passes hdone => cases l.policy <;> trivial

theorem Looks.mode_eq {l lock : Lock} {point : Point} {wait : Wait} {mode : Mode}
    (hlooks : l.Looks point lock wait)
    (hpoint : point = .before (.acquire mode) ∨ point.awaits mode = true) : wait.mode = mode := by
  cases hlooks with
  | arrives asked =>
      have hasked : asked = mode := by simpa [Point.awaits] using hpoint
      exact (l.arrive_wait_mode asked).trans hasked
  | again wait => simpa [Point.awaits] using hpoint
  | @passes ticket hdone =>
      have hmode : (Wait.ticketDone ticket).mode = mode := by simpa [Point.awaits] using hpoint
      exact hmode

theorem enter_nowServing (l : Lock) (mode : Mode) : (l.enter mode).nowServing = l.nowServing := by
  cases mode <;> rfl

end Lock

namespace Scene

variable {ε : Type}

/-- While somebody is blocked, a ticket is out. -/
theorem Ticketed.serving_lt_of_blocks {s : Scene ε} (hticketed : s.Ticketed) {task : Nat}
    {wait : Wait} (hat : s.At task (.waiting wait)) (hblocks : s.lock.Blocks wait) :
    s.lock.nowServing < s.lock.nextWriterTicket := by
  have hasked := hticketed.asked task wait hat
  cases wait with
  | ticketDone ticket =>
      have hahead : ticketsAhead task s.history = ticket + 1 := hasked
      have hissued := ticketsAhead_le task s.history
      have hopen : s.lock.nowServing ≤ ticket := hblocks
      rw [hahead, hticketed.issued] at hissued
      omega
  | groupEntry => exact hticketed.serving_lt_of_writer hblocks.2 hblocks.1
  | writerEntry ticket? =>
      cases ticket? with
      | none => exact hasked.elim
      | some ticket =>
          obtain ⟨_, hissued, hwaits⟩ := hasked
          have hnext := hticketed.issued_lt hissued
          unfold Lock.ticketsAdmitted at hwaits
          omega

/-- No ticket is out. -/
theorem Ticketed.issued_subset_iff {s : Scene ε} (hticketed : s.Ticketed) :
    tickets .issued s.history ⊆ tickets .completed s.history ↔
      s.lock.nextWriterTicket ≤ s.lock.nowServing := by
  constructor
  · intro hsubset
    by_contra hopen
    have hmem : s.lock.nowServing ∈ tickets .issued s.history := by
      rw [hticketed.lawful.mem_tickets_iff, hticketed.issued]
      exact Nat.not_le.mp hopen
    have hdone := hticketed.lawful.mem_tickets_iff.mp (hsubset hmem)
    rw [hticketed.completed] at hdone
    exact Nat.lt_irrefl _ hdone
  · intro hle ticket hmem
    rw [hticketed.lawful.mem_tickets_iff, hticketed.issued] at hmem
    rw [hticketed.lawful.mem_tickets_iff, hticketed.completed]
    exact Nat.lt_of_lt_of_le hmem hle

end Scene

namespace Script

/-! ## The continuations of a script -/

/-- The machine moves on from a state, and whenever it is at rest it may get the orders of any
further step. -/
inductive Continues (s : Script) (m : State) : State → Prop
  | refl : Continues s m m
  | move {later next : State} (hlater : Continues s m later)
      (hstep : later.step program = some next) : Continues s m next
  | order {later : State} (hlater : Continues s m later)
      (hrest : later.running = none ∧ later.ready = []) (step : Step) :
      Continues s m (s.giveOut later step).1

theorem Reaches.after_of_rest {s : Script} {m : State} (hm : s.Reaches m)
    (hrest : m.running = none ∧ m.ready = []) : ∃ steps, s.after steps = m := by
  obtain ⟨steps, step, moves, rfl⟩ := hm
  refine ⟨steps ++ [step], ?_⟩
  have hsettled := s.after_rest (steps ++ [step])
  rw [after_append_singleton] at hsettled ⊢
  exact iterate_eq_of_eq_none ((Machine.step_eq_none_iff _ _).mpr hsettled)
    ((Machine.step_eq_none_iff _ _).mpr hrest)

theorem Continues.reaches {s : Script} {m later : State} (hlater : s.Continues m later)
    (hm : s.Reaches m) : s.Reaches later := by
  induction hlater with
  | refl => exact hm
  | move _ hstep ih => exact ih.step hstep
  | order _ hrest step ih =>
      obtain ⟨steps, rfl⟩ := ih.after_of_rest hrest
      exact s.reaches_giveOut steps step

theorem Continues.iterate {s : Script} {m later : State} (hlater : s.Continues m later)
    (moves : Nat) : s.Continues m (iterate (Machine.step program) moves later) :=
  iterate_keeps (fun _ _ hcontinues hstep => hcontinues.move hstep) moves hlater

/-- Every further run of the script continues the present one. -/
theorem continues_after (s : Script) (steps more : List Step) :
    s.Continues (s.after steps) (s.after (steps ++ more)) := by
  induction more using List.reverseRecOn with
  | nil =>
      rw [List.append_nil]
      exact .refl
  | append_singleton more step ih =>
      rw [← List.append_assoc, after_append_singleton]
      exact (ih.order (s.after_rest _) step).iterate _

/-! ## Beside a task that holds an access -/

/-- The task stands at a point with these accesses, the outermost one first. -/
def Stands (m : State) (task : Nat) (point : Point) (accesses : List Mode) : Prop :=
  ∃ t, m.tasks[task]? = some t ∧ t.point = point ∧ t.own.holding.outermostFirst = accesses

/-- No condition has come to hold, no ticket was completed and no writer was let in. -/
structure Barred (m later : State) : Prop where
  blocks : ∀ wait, m.lock.Blocks wait → later.lock.Blocks wait
  serving : later.lock.nowServing = m.lock.nowServing
  events : ∃ events, later.history = events ++ m.history ∧
    ∀ other, .granted other .exclusive ∉ events

theorem Barred.refl (m : State) : Barred m m :=
  ⟨fun _ hblocks => hblocks, rfl, [], rfl, by simp⟩

theorem Barred.trans {m later next : State} (hlater : Barred m later) (hnext : Barred later next) :
    Barred m next := by
  obtain ⟨first, hfirst, hfirstWrites⟩ := hlater.events
  obtain ⟨second, hsecond, hsecondWrites⟩ := hnext.events
  refine ⟨fun wait hblocks => hnext.blocks wait (hlater.blocks wait hblocks),
    hnext.serving.trans hlater.serving, second ++ first, ?_, ?_⟩
  · rw [hsecond, hfirst, List.append_assoc]
  · intro other hmem
    rcases List.mem_append.mp hmem with hmem | hmem
    · exact hsecondWrites other hmem
    · exact hfirstWrites other hmem

theorem Barred.react {m later : State} (hbarred : Barred m later) (task : Nat) (r : React) :
    Barred m (later.react task r) := by
  obtain ⟨events, hevents, hwrites⟩ := hbarred.events
  constructor
  · rw [Machine.react_lock]
    exact hbarred.blocks
  · rw [Machine.react_lock]
    exact hbarred.serving
  · refine ⟨(r.notes.map (.noted task)).reverse ++ events, ?_, ?_⟩
    · rw [Machine.react_history, hevents, List.append_assoc]
    · simpa using hwrites

namespace Balanced

variable {m : State} {task other : Nat} {t : Task Hand} {mode kind : Mode}

/-- Beside a task that holds an access only readers leave, and never the last one. -/
theorem release_beside (hm : Balanced m) (hother : other ≠ task)
    (hheld : 0 < held m.history task kind) (hleaver : m.tasks[other]? = some t)
    (hpoint : t.point = .before (.release mode)) {r : Release}
    (hrelease : m.lock.release? mode = some r) :
    1 < m.lock.activeReaders ∧
      r = { lock := { m.lock with activeReaders := m.lock.activeReaders - 1 }
            notified := [] } := by
  have hinnermost := (hm.tracked t (List.mem_of_getElem? hleaver)).innermost mode hpoint
  have hleaves : 0 < held m.history other mode := by
    rw [hm.held_eq hleaver, List.count_pos_iff]
    rw [Holding.innermost?_eq_getLast?] at hinnermost
    exact List.mem_of_getLast? hinnermost
  cases mode with
  | exclusive =>
      have halone := (hm.alone_of_writer hleaves).2.2 task (Ne.symm hother) kind
      omega
  | shared =>
      cases kind with
      | exclusive =>
          have halone := (hm.alone_of_writer hheld).2.2 other hother .shared
          omega
      | shared =>
          have hpair := hm.held_pair_le hother hheld hleaves
          rw [hm.sum_held.1] at hpair
          rcases Lock.release?_shared_cases hrelease with ⟨hlast, _⟩ | hmany
          · omega
          · exact hmany

/-- While somebody holds an access no writer enters. -/
theorem shared_of_enters (hm : Balanced m) (hheld : 0 < held m.history task kind) {lock : Lock}
    {point : Point} {wait : Wait} (hlooks : m.lock.Looks point lock wait)
    (henters : ¬ lock.Blocks wait) : wait.mode = .shared := by
  cases hmode : wait.mode with
  | shared => rfl
  | exclusive =>
      rw [hlooks.blocks_iff] at henters
      have hfree := Lock.not_blocks_exclusive hmode henters
      rw [hm.taken_of_held hheld] at hfree
      contradiction

theorem act_barred (hm : Balanced m) (hother : other ≠ task)
    (hheld : 0 < held m.history task kind) (htask : m.tasks[other]? = some t) :
    Barred m (m.act program other t) := by
  have hacts := Machine.acts program m other t
  generalize m.act program other t = next at hacts ⊢
  cases hacts with
  | resumes hpoint => exact (Barred.refl m).react other _
  | @parks lock wait hlooks hblocks =>
      refine ⟨fun wait => (hlooks.blocks_iff wait).mpr, hlooks.nowServing, _, rfl, ?_⟩
      intro writer hmem
      exact (m.lock.not_mem_arrivalEvents _ _ _ _).1 (List.mem_reverse.mp hmem)
  | @enters lock wait hlooks hchannel henters =>
      have hmode := hm.shared_of_enters hheld hlooks henters
      refine Barred.react ⟨?_, ?_, _, rfl, ?_⟩ other _
      · intro waiting hblocks
        exact ((hlooks.blocks_iff waiting).mpr hblocks).enter hchannel henters
      · exact (lock.enter_nowServing wait.mode).trans hlooks.nowServing
      · simp [hmode, Lock.not_mem_arrivalEvents]
  | @returns mode r hpoint hrelease =>
      obtain ⟨hmany, rfl⟩ := hm.release_beside hother hheld htask hpoint hrelease
      refine Barred.react ⟨?_, ?_, [.released other mode], ?_, by simp⟩ other _
      · exact fun _ hblocks => hblocks.release hrelease (by simp)
      · rfl
      · rfl
  | @misuses mode hpoint hrelease =>
      refine Barred.react ⟨?_, ?_, [.misused other mode], ?_, by simp⟩ other _
      · exact fun _ hblocks => hblocks
      · rfl
      · rfl

end Balanced

/-! ## Waiting inside of an access -/

/-- The task waits inside of accesses of its own. -/
structure Jammed (m : State) (task : Nat) (wait : Wait) (accesses : List Mode) : Prop where
  stands : Stands m task (.waiting wait) accesses
  inside : accesses ≠ []

variable {s : Script} {m next : State} {task : Nat} {wait : Wait} {accesses : List Mode}

theorem Stands.held {point : Point} (hstands : Stands m task point accesses) (hm : Balanced m)
    (mode : Mode) : held m.history task mode = accesses.count mode := by
  obtain ⟨t, htask, _, rfl⟩ := hstands
  exact hm.held_eq htask mode

theorem Stands.exists_held {point : Point} (hstands : Stands m task point accesses)
    (hm : Balanced m) (hinside : accesses ≠ []) :
    ∃ kind, 0 < ReaderWriter.held m.history task kind := by
  obtain ⟨kind, hmem⟩ := List.exists_mem_of_ne_nil accesses hinside
  refine ⟨kind, ?_⟩
  rw [hstands.held hm]
  exact List.count_pos_iff.mpr hmem

/-- It stays where it is when it is its turn, and when another task goes on. -/
theorem Jammed.act (hjammed : Jammed m task wait accesses) (hm : Balanced m)
    (hblocks : m.lock.Blocks wait) {mover : Nat} {t : Task Hand}
    (hmover : m.tasks[mover]? = some t) :
    Jammed (m.act program mover t) task wait accesses ∧ Barred m (m.act program mover t) := by
  obtain ⟨u, htask, hpoint, hholding⟩ := hjammed.stands
  by_cases hne : mover = task
  · subst hne
    obtain rfl : u = t := Option.some.inj (htask.symm.trans hmover)
    have hact : m.act program mover u = m.park mover u.own wait := by
      simp only [Machine.act, hpoint]
      rw [Lock.recheck_of_blocks hblocks]
      rfl
    obtain ⟨hlt, _⟩ := List.getElem?_eq_some_iff.mp htask
    rw [hact]
    refine ⟨⟨⟨_, List.getElem?_set_self hlt, rfl, hholding⟩, hjammed.inside⟩, ?_⟩
    exact ⟨fun _ hblocks => hblocks, rfl, [], rfl, by simp⟩
  · obtain ⟨kind, hheld⟩ := hjammed.stands.exists_held hm hjammed.inside
    refine ⟨⟨⟨u, ?_, hpoint, hholding⟩, hjammed.inside⟩, hm.act_barred hne hheld hmover⟩
    rw [Machine.act_tasks_of_ne program m t (Ne.symm hne)]
    exact htask

theorem Jammed.step (hjammed : Jammed m task wait accesses) (hm : Balanced m)
    (hblocks : m.lock.Blocks wait) (hstep : m.step program = some next) :
    Jammed next task wait accesses ∧ Barred m next := by
  rcases Machine.step_cases hstep with
    ⟨_, c, _, rfl⟩ | ⟨_, _, _, rfl⟩ | ⟨mover, t, _, hmover, rfl⟩
  · have hbarred : Barred m (m.begin c) :=
      ⟨fun _ hblocks => hblocks, rfl, [.turn c.task], rfl, by simp⟩
    exact ⟨⟨hjammed.stands, hjammed.inside⟩, hbarred⟩
  · exact ⟨⟨hjammed.stands, hjammed.inside⟩, fun _ hblocks => hblocks, rfl, [], rfl, by simp⟩
  · exact hjammed.act hm hblocks hmover

/-- An order moves no task and gives it no access. -/
theorem hand_stands {name : String} {command? : Option Command} {point : Point}
    (hhand : s.hand m name command? = .ok next) :
    Stands next task point accesses ↔ Stands m task point accesses := by
  obtain ⟨index, t, command, _, _, hindex, _, _, _, rfl⟩ := hand_eq_ok_iff.mp hhand
  obtain ⟨hlt, _⟩ := List.getElem?_eq_some_iff.mp hindex
  unfold Stands
  by_cases hne : index = task
  · subst hne
    simp [hindex, List.getElem?_set_self hlt]
  · simp [List.getElem?_set_ne hne]

theorem Jammed.giveOut (hjammed : Jammed m task wait accesses) (step : Step) :
    Jammed (s.giveOut m step).1 task wait accesses ∧ Barred m (s.giveOut m step).1 := by
  refine giveOut_keeps (P := fun next => Jammed next task wait accesses ∧ Barred m next) ?_ ?_
    ⟨hjammed, Barred.refl m⟩ step
  · rintro later next name command? ⟨⟨hstands, hinside⟩, hbarred⟩ hhand
    have hnext := (hand_stands hhand).mpr hstands
    obtain ⟨_, _, _, _, _, _, _, _, _, rfl⟩ := hand_eq_ok_iff.mp hhand
    exact ⟨⟨hnext, hinside⟩, hbarred.blocks, hbarred.serving, hbarred.events⟩
  · rintro later next name ⟨⟨hstands, hinside⟩, hbarred⟩ hwake
    obtain ⟨index, _, rfl⟩ := wake_cases hwake
    exact ⟨⟨hstands, hinside⟩, hbarred.blocks, hbarred.serving, hbarred.events⟩

theorem not_stands_react (m : State) (task : Nat) (r : React) :
    ¬ Stands (m.react task r) task (.waiting wait) accesses := by
  rintro ⟨t, htask, hpoint, _⟩
  exact m.not_at_react task r wait (Machine.scene_at_iff.mpr ⟨t, htask, hpoint⟩)

theorem Jammed.blocks_of_act (hm : Balanced m)
    (hblocks : ∀ task wait accesses, Jammed m task wait accesses → m.lock.Blocks wait)
    {mover : Nat} {t : Task Hand} (hmover : m.tasks[mover]? = some t)
    (hjammed : Jammed (m.act program mover t) task wait accesses) :
    (m.act program mover t).lock.Blocks wait := by
  by_cases hne : mover = task
  · subst hne
    have hstands := hjammed.stands
    have hacts := Machine.acts program m mover t
    generalize m.act program mover t = next at hacts hstands ⊢
    cases hacts with
    | @parks lock parked hlooks hparked =>
        obtain ⟨hlt, _⟩ := List.getElem?_eq_some_iff.mp hmover
        obtain ⟨u, hu, hpoint, _⟩ := hstands
        obtain rfl := Option.some.inj ((List.getElem?_set_self hlt).symm.trans hu)
        obtain rfl : parked = wait := by simpa using hpoint
        exact hparked
    | _ => exact absurd hstands (not_stands_react _ _ _)
  · obtain ⟨u, htask, hpoint, hholding⟩ := hjammed.stands
    rw [Machine.act_tasks_of_ne program m t (Ne.symm hne)] at htask
    have hbefore : Jammed m task wait accesses := ⟨⟨u, htask, hpoint, hholding⟩, hjammed.inside⟩
    have hwaits := hblocks task wait accesses hbefore
    exact (hbefore.act hm hwaits hmover).2.blocks wait hwaits

/-- Whoever waits inside of an access could not go on. -/
theorem Reaches.blocks_of_jammed (hm : s.Reaches m) (hstyle : s.style ≠ .raw)
    (hjammed : Jammed m task wait accesses) : m.lock.Blocks wait := by
  let P : State → Prop := fun m =>
    ∀ task wait accesses, Jammed m task wait accesses → m.lock.Blocks wait
  have hall : P m := by
    refine hm.keeps_reached ?_ ?_ ?_ ?_
    · intro m next name command? _ hblocks hhand task wait accesses hjammed
      have hbefore := (hand_stands hhand).mp hjammed.stands
      obtain ⟨_, _, _, _, _, _, _, _, _, rfl⟩ := hand_eq_ok_iff.mp hhand
      exact hblocks task wait accesses ⟨hbefore, hjammed.inside⟩
    · intro m next name _ hblocks hwake task wait accesses hjammed
      obtain ⟨index, _, rfl⟩ := wake_cases hwake
      exact hblocks task wait accesses ⟨hjammed.stands, hjammed.inside⟩
    · intro task wait accesses hjammed
      obtain ⟨t, htask, hpoint, _⟩ := hjammed.stands
      obtain ⟨name, _, rfl⟩ := List.mem_map.mp (List.mem_of_getElem? htask)
      simp at hpoint
    · intro m next hreaches hblocks hstep task wait accesses hjammed
      rcases Machine.step_cases hstep with
        ⟨_, c, _, rfl⟩ | ⟨_, _, _, rfl⟩ | ⟨mover, t, _, hmover, rfl⟩
      · exact hblocks task wait accesses ⟨hjammed.stands, hjammed.inside⟩
      · exact hblocks task wait accesses ⟨hjammed.stands, hjammed.inside⟩
      · exact hjammed.blocks_of_act (hreaches.balanced hstyle) hblocks hmover
  exact hall task wait accesses hjammed

theorem Jammed.continues (hjammed : Jammed m task wait accesses) (hstyle : s.style ≠ .raw)
    (hm : s.Reaches m) {later : State} (hlater : s.Continues m later) :
    Jammed later task wait accesses ∧ Barred m later := by
  induction hlater with
  | refl => exact ⟨hjammed, Barred.refl m⟩
  | @move later next hlater hstep ih =>
      have hreaches := hlater.reaches hm
      have hblocks := hreaches.blocks_of_jammed hstyle ih.1
      have hnext := ih.1.step (hreaches.balanced hstyle) hblocks hstep
      exact ⟨hnext.1, ih.2.trans hnext.2⟩
  | order _ _ step ih =>
      have hordered := ih.1.giveOut (s := s) step
      exact ⟨hordered.1, ih.2.trans hordered.2⟩

/-! ## Requests inside of an access -/

/-- The only request inside of other accesses that is granted: a read inside of reads, and under
tickets every ticket that was issued is completed. -/
def NestsFreely (s : Script) (m : State) (accesses : List Mode) (mode : Mode) : Prop :=
  mode = .shared ∧ .exclusive ∉ accesses ∧
    (s.policy = .fairTicket → tickets .issued m.history ⊆ tickets .completed m.history)

theorem Stands.readers_pos_iff {point : Point} (hstands : Stands m task point accesses)
    (hm : Balanced m) (hinside : accesses ≠ []) :
    0 < m.lock.activeReaders ↔ .exclusive ∉ accesses := by
  constructor
  · intro hreaders hmem
    have hnone := Lock.writersInside_of_readers hreaders
    have hwriter := (hm.held_le task).2
    rw [hstands.held hm] at hwriter
    have hcount := List.count_pos_iff.mpr hmem
    omega
  · intro hreads
    obtain ⟨kind, hmem⟩ := List.exists_mem_of_ne_nil accesses hinside
    cases kind with
    | exclusive => exact absurd hmem hreads
    | shared =>
        have hreader := (hm.held_le task).1
        rw [hstands.held hm] at hreader
        exact (List.count_pos_iff.mpr hmem).trans_le hreader

theorem Reaches.policy (hm : s.Reaches m) : m.lock.policy = s.policy :=
  hm.run.policy

/-- What a request inside of other accesses finds. -/
theorem Reaches.arrive_blocks_iff (hm : s.Reaches m) (hstyle : s.style ≠ .raw) {point : Point}
    (hstands : Stands m task point accesses) (hinside : accesses ≠ []) (mode : Mode) :
    m.lock.Blocks (m.lock.arrive mode).wait ↔ ¬ NestsFreely s m accesses mode := by
  have hbalanced := hm.balanced hstyle
  obtain ⟨kind, hheld⟩ := hstands.exists_held hbalanced hinside
  have htaken := hbalanced.taken_of_held hheld
  have hreaders := hstands.readers_pos_iff hbalanced hinside
  cases mode with
  | exclusive =>
      have hblocks : m.lock.Blocks (m.lock.arrive .exclusive).wait := by
        rcases m.lock.arrive_exclusive_cases with ⟨_, harrive⟩ | ⟨_, harrive⟩
        · rw [harrive]
          exact htaken
        · rw [harrive]
          exact .inl htaken
      exact iff_of_true hblocks (fun hfreely => nomatch hfreely.1)
  | shared =>
      rcases m.lock.arrive_shared_cases with
        ⟨harrive, hnone⟩ | ⟨hfair, ticket, hnewest, hopen, harrive⟩
      · rw [harrive]
        have htickets : s.policy = .fairTicket →
            tickets .issued m.history ⊆ tickets .completed m.history := by
          intro hpolicy
          exact (hm.ticketed hpolicy).issued_subset_iff.mpr (hnone (hm.policy.trans hpolicy))
        have hblocks : m.lock.Blocks .groupEntry ↔ ¬ 0 < m.lock.activeReaders := by
          simp [Lock.Blocks, htaken]
        rw [hblocks, hreaders]
        unfold NestsFreely
        tauto
      · rw [harrive]
        refine iff_of_true hopen ?_
        rintro ⟨_, _, hcompleted⟩
        have hpolicy := hm.policy.symm.trans hfair
        have hle : m.lock.nextWriterTicket ≤ m.lock.nowServing :=
          (hm.ticketed hpolicy).issued_subset_iff.mp (hcompleted hpolicy)
        omega

theorem mem_eventsSince_react {later : State} {events : List (Event Note)} {event : Event Note}
    (hevents : later.history = events ++ m.history) (hmem : event ∈ events) (task : Nat)
    (r : React) : event ∈ eventsSince m (later.react task r) := by
  have hhistory : (later.react task r).history =
      ((r.notes.map (.noted task)).reverse ++ events) ++ m.history := by
    rw [Machine.react_history, hevents, List.append_assoc]
  rw [eventsSince_of_append hhistory, List.mem_reverse]
  exact List.mem_append_right _ hmem

/-- The turn in which a task asks for access inside of those that it holds. -/
structure Nested (s : Script) (m next : State) (task : Nat) (accesses : List Mode) (mode : Mode) :
    Prop where
  granted : NestsFreely s m accesses mode →
    .granted task mode ∈ eventsSince m next ∧ Stands next task .outside (accesses ++ [mode])
  waits : ¬ NestsFreely s m accesses mode →
    ∃ wait, Jammed next task wait accesses ∧ task ∈ next.waiters.on wait.channel

theorem Reaches.nested (hm : s.Reaches m) (hstyle : s.style ≠ .raw) {t : Task Hand} {mode : Mode}
    (htask : m.tasks[task]? = some t) (hpoint : t.point = .before (.acquire mode))
    (hinside : t.own.holding.outermostFirst ≠ []) :
    Nested s m (m.act program task t) task t.own.holding.outermostFirst mode := by
  have hstands : Stands m task (.before (.acquire mode)) t.own.holding.outermostFirst :=
    ⟨t, htask, hpoint, rfl⟩
  have hblocks := hm.arrive_blocks_iff hstyle hstands hinside mode
  have htracked := (hm.balanced hstyle).tracked t (List.mem_of_getElem? htask)
  obtain ⟨hlt, _⟩ := List.getElem?_eq_some_iff.mp htask
  have hacts := Machine.acts program m task t
  generalize m.act program task t = next at hacts ⊢
  cases hacts with
  | @parks lock wait hlooks hparked =>
      rw [hlooks.blocks_iff] at hparked
      rw [hpoint] at hlooks
      cases hlooks
      refine ⟨fun hfreely => absurd hfreely (hblocks.mp hparked), fun _ => ?_⟩
      refine ⟨_, ⟨⟨_, List.getElem?_set_self hlt, rfl, rfl⟩, hinside⟩, ?_⟩
      simp [Machine.park]
  | @enters lock wait hlooks hchannel henters =>
      rw [hlooks.blocks_iff] at henters
      rw [hpoint] at hlooks
      cases hlooks
      refine ⟨fun _ => ⟨?_, ?_⟩, fun hwaits => absurd (hblocks.mpr hwaits) henters⟩
      · refine mem_eventsSince_react rfl ?_ task _
        simp [Lock.arrive_wait_mode]
      · rw [Lock.arrive_wait_mode]
        unfold Stands
        rw [Machine.react_tasks, ← Holding.outermostFirst_enter mode htracked.tracked,
          ← Hand.granted_holding htracked.command mode m.shared]
        exact ⟨_, List.getElem?_set_self hlt, t.own.granted_point mode m.shared, rfl⟩
  | resumes hother => simp [hpoint] at hother
  | returns hother hrelease => simp [hpoint] at hother
  | misuses hother hrelease => simp [hpoint] at hother

/-! ## The others -/

theorem Reaches.suits_of_looks (hm : s.Reaches m) {t : Task Hand} (htask : m.tasks[task]? = some t)
    {lock : Lock} (hlooks : m.lock.Looks t.point lock wait) : wait.Suits s.policy := by
  rw [← hm.policy]
  refine hlooks.suits fun waiting hwaiting => ?_
  rw [hm.policy]
  exact hm.suits (hwaiting ▸ Machine.scene_at htask)

/-- Without tickets every reader joins the group that is inside. -/
theorem Reaches.read_granted (hm : s.Reaches m) (hpolicy : s.policy = .readerPreference)
    (hreaders : 0 < m.lock.activeReaders) {t : Task Hand} (htask : m.tasks[task]? = some t)
    (hpoint : t.point = .before (.acquire .shared) ∨ t.point.awaits .shared = true) :
    .granted task .shared ∈ eventsSince m (m.act program task t) := by
  have hsuits : ∀ {lock wait}, m.lock.Looks t.point lock wait → wait = .groupEntry := by
    intro lock wait hlooks
    have hsuits := hm.suits_of_looks htask hlooks
    rw [hpolicy] at hsuits
    exact hsuits.eq_groupEntry (hlooks.mode_eq hpoint)
  have hacts := Machine.acts program m task t
  generalize m.act program task t = next at hacts ⊢
  cases hacts with
  | @parks lock wait hlooks hparked =>
      obtain rfl := hsuits hlooks
      rw [hlooks.blocks_iff] at hparked
      exact absurd hparked.1 hreaders.ne'
  | @enters lock wait hlooks hchannel henters =>
      obtain rfl := hsuits hlooks
      exact mem_eventsSince_react rfl (by simp [Wait.mode]) task _
  | resumes hother => simp [hother, Point.awaits] at hpoint
  | returns hother hrelease => simp [hother, Point.awaits] at hpoint
  | misuses hother hrelease => simp [hother, Point.awaits] at hpoint

/-- What is left of the script once a task waits inside of its accesses. -/
structure Lasting (s : Script) (m : State) (task : Nat) (wait : Wait) (accesses : List Mode)
    (later : State) : Prop where
  jammed : Jammed later task wait accesses
  parked : later.running = none → later.ready = [] → task ∈ later.waiters.on wait.channel
  writes : ∀ other, .granted other .exclusive ∉ eventsSince m later
  /-- Nothing that was asked for since is granted. -/
  tickets : s.policy = .fairTicket → ∀ asked granted other mode, m.history.length ≤ asked →
    ¬ Answered later.history.reverse asked granted other mode
  /-- Whoever asks for a read, or was woken and asks again, is granted it in that turn. -/
  reads : s.policy = .readerPreference → .exclusive ∉ accesses → ∀ other t,
    later.running = some other → later.tasks[other]? = some t →
    (t.point = .before (.acquire .shared) ∨ t.point.awaits .shared = true) →
    ∃ next, later.step program = some next ∧ .granted other .shared ∈ eventsSince later next
  readers : s.policy = .readerPreference → .exclusive ∉ accesses → later.running = none →
    later.ready = [] → ∀ other parked, later.scene.At other (.waiting parked) →
    parked.mode = .exclusive

theorem Barred.not_answered {later : State} (hbarred : Barred m later) (hm : s.Reaches m)
    (hlater : s.Reaches later) (hpolicy : s.policy = .fairTicket) {t : Task Hand}
    (htask : m.tasks[task]? = some t) (hpoint : t.point = .waiting wait)
    (hblocks : m.lock.Blocks wait) {asked granted other : Nat} {mode : Mode}
    (hasked : m.history.length ≤ asked) :
    ¬ Answered later.history.reverse asked granted other mode := by
  intro hanswered
  have hticketed := hm.ticketed hpolicy
  have hlawful := (hlater.ticketed hpolicy).lawful
  obtain ⟨events, hevents, _⟩ := hbarred.events
  -- the ticket being served is issued, and it will not be completed
  have hopen : m.lock.nowServing < m.lock.nextWriterTicket :=
    hticketed.serving_lt_of_blocks (hpoint ▸ Machine.scene_at htask) hblocks
  have hmem : m.lock.nowServing ∈ tickets .issued m.history := by
    exact hticketed.lawful.mem_tickets_iff.mpr (hopen.trans_eq hticketed.issued.symm)
  obtain ⟨owner, trace, hissued, htrace⟩ := mem_tickets.mp hmem
  obtain rfl := Trace.ticket?_issued.mp htrace
  obtain ⟨issue, hissue⟩ := List.mem_iff_getElem?.mp (List.mem_reverse.mpr hissued)
  have hbefore : issue < m.history.length := by
    simpa using (List.getElem?_eq_some_iff.mp hissue).1
  have hlog : later.history.reverse[issue]? =
      some (.traced owner (.ticketIssued m.lock.nowServing)) := by
    rw [hevents, List.reverse_append, List.getElem?_append_left (by simpa using hbefore)]
    exact hissue
  have hfair : NoOvertaking later.history.reverse :=
    Lawful.noOvertaking (by rwa [List.reverse_reverse])
  obtain ⟨moment, _, finisher, hfinished⟩ :=
    hfair.completed asked granted other mode _ owner issue hanswered hlog (by omega)
  have hcompleted : m.lock.nowServing ∈ tickets .completed later.history :=
    mem_tickets.mpr ⟨finisher, _, List.mem_reverse.mp (List.mem_of_getElem? hfinished), rfl⟩
  have hserved : (tickets .completed later.history).length = m.lock.nowServing :=
    (hlater.ticketed hpolicy).completed.trans hbarred.serving
  have hlt := hlawful.mem_tickets_iff.mp hcompleted
  exact absurd (hlt.trans_eq hserved) (Nat.lt_irrefl _)

theorem Jammed.lasting (hjammed : Jammed m task wait accesses) (hstyle : s.style ≠ .raw)
    (hm : s.Reaches m) {later : State} (hcontinues : s.Continues m later) :
    Lasting s m task wait accesses later := by
  have hlater := hcontinues.reaches hm
  have hbalanced := hlater.balanced hstyle
  obtain ⟨hstill, hbarred⟩ := hjammed.continues hstyle hm hcontinues
  have hgroup : .exclusive ∉ accesses → 0 < later.lock.activeReaders :=
    (hstill.stands.readers_pos_iff hbalanced hstill.inside).mpr
  constructor
  · exact hstill
  · intro hrunning hready
    obtain ⟨t, htask, hpoint, _⟩ := hstill.stands
    have hat : later.scene.At task (.waiting wait) := hpoint ▸ Machine.scene_at htask
    simpa [hrunning, hready] using hlater.present task wait hat
  · intro other
    obtain ⟨events, hevents, hwrites⟩ := hbarred.events
    rw [eventsSince_of_append hevents, List.mem_reverse]
    exact hwrites other
  · intro hpolicy asked granted other mode hasked
    obtain ⟨t, htask, hpoint, _⟩ := hjammed.stands
    have hblocks := hm.blocks_of_jammed hstyle hjammed
    exact hbarred.not_answered hm hlater hpolicy htask hpoint hblocks hasked
  · intro hpolicy hreads other t hrunning htask hpoint
    refine ⟨later.act program other t, ?_, hlater.read_granted hpolicy (hgroup hreads) htask hpoint⟩
    simp [Machine.step, hrunning, htask]
  · intro hpolicy hreads hrunning hready other parked hat
    have hsuits := hlater.suits hat
    have hparked : other ∈ later.waiters.on parked.channel := by
      simpa [hrunning, hready] using hlater.present other parked hat
    obtain ⟨same, hsame, _, hblocks⟩ := hlater.parked _ other hparked
    obtain rfl : same = parked := by simpa using hsame.symm.trans hat
    cases hmode : same.mode with
    | exclusive => rfl
    | shared =>
        rw [hpolicy] at hsuits
        obtain rfl := hsuits.eq_groupEntry hmode
        exact absurd hblocks.1 (hgroup hreads).ne'

/-- Outside of raw style a request inside of other accesses waits, unless it is a read inside of
reads and no ticket is out.  Whoever waits so waits for good, whatever the others do: no writer is
let in any more, under tickets nothing is granted that was asked for since, and without tickets
reads are granted as long as reads are held. -/
theorem reentrance (hstyle : s.style ≠ .raw) (hm : s.Reaches m) :
    (∀ task accesses mode, m.running = some task →
      Stands m task (.before (.acquire mode)) accesses → accesses ≠ [] →
      ∃ next, m.step program = some next ∧ Nested s m next task accesses mode) ∧
    ∀ task wait accesses, Jammed m task wait accesses → ∀ later, s.Continues m later →
      Lasting s m task wait accesses later := by
  constructor
  · intro task accesses mode hrunning hstands hinside
    obtain ⟨t, htask, hpoint, rfl⟩ := hstands
    refine ⟨m.act program task t, ?_, hm.nested hstyle htask hpoint hinside⟩
    simp [Machine.step, hrunning, htask]
  · intro task wait accesses hjammed later hcontinues
    exact hjammed.lasting hstyle hm hcontinues

/-- A reader asks again while a writer waits behind it. -/
def nestedReader : Script where
  policy := .fairTicket
  style := .closure
  names := ["a", "b", "c"]
  steps := [
    [.hand "a" (some (.enter .shared)), .hand "c" (some (.enter .shared))],
    [.hand "b" (some (.enter .exclusive))],
    [.hand "a" (some (.enter .shared))],
    [.hand "c" (some (.panic "dropped")), .wake ["a", "b"]],
    [.hand "c" (some (.enter .shared))]]

theorem reentrance_nestedReader :
    nestedReader.style ≠ .raw ∧
      Jammed (nestedReader.after (nestedReader.steps.take 3)) 0 (.ticketDone 0) [.shared] ∧
        0 ∈ (nestedReader.after nestedReader.steps).waiters.writerDone := by
  have hstyle : nestedReader.style ≠ .raw := by decide
  have hm := nestedReader.reaches_after (nestedReader.steps.take 3)
  have hjammed :
      Jammed (nestedReader.after (nestedReader.steps.take 3)) 0 (.ticketDone 0) [.shared] := by
    have hview :
        ((nestedReader.after (nestedReader.steps.take 3)).tasks.map fun t =>
          (t.point, t.own.holding.outermostFirst))[0]? =
        some (.waiting (.ticketDone 0), [.shared]) := by
      decide +kernel
    rw [List.getElem?_map] at hview
    obtain ⟨t, htask, ht⟩ := Option.map_eq_some_iff.mp hview
    obtain ⟨hpoint, hholding⟩ := Prod.mk.inj ht
    exact ⟨⟨t, htask, hpoint, hholding⟩, by simp⟩
  have hlater :=
    nestedReader.continues_after (nestedReader.steps.take 3) (nestedReader.steps.drop 3)
  rw [List.take_append_drop] at hlater
  have hlasting := (reentrance hstyle hm).2 0 (.ticketDone 0) [.shared] hjammed _ hlater
  obtain ⟨hrunning, hready⟩ := nestedReader.after_rest nestedReader.steps
  exact ⟨hstyle, hjammed, hlasting.parked hrunning hready⟩

end Script

end ReaderWriter
