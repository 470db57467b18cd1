import ReaderWriter.Proofs.Acting
import ReaderWriter.Proofs.Line

/-!
# A machine that serves its line

Without picks the ready tasks run in their order.  If at most one task goes on that does not wait,
and only while nobody is woken, then the ready tasks are those that were woken, in the order of the
line, and every turn keeps the line.

For this the program must not go on after it was granted an access, nor after it gave one back that
wakes others: the task would get in among those that were woken.
-/

namespace ReaderWriter

variable {σ δ ε : Type}

/-- Who does not wait comes to look at its condition by asking. -/
theorem Lock.Looks.arrival {l lock : Lock} {point : Point} {wait : Wait}
    (hlooks : l.Looks point lock wait) (hnot : ∀ other, point ≠ .waiting other) :
    ∃ mode, point = .before (.acquire mode) ∧ lock = (l.arrive mode).lock ∧
      wait = (l.arrive mode).wait := by
  cases hlooks with
  | arrives mode => exact ⟨mode, rfl, rfl, rfl⟩
  | again => exact absurd rfl (hnot _)
  | passes hdone => exact absurd rfl (hnot _)

namespace Machine

/-- The tasks that can run are those that were woken, in the order of the line, or one task that
does not wait. -/
structure Serving (m : Machine σ δ ε) (line : List (Nat × Wait)) (woken : Waiters)
    (mover : Option Nat) : Prop where
  inLine : m.scene.InLine line woken
  due : m.running.toList ++ m.ready = mover.toList ++ woken.inOrder
  alone : ∀ task, mover = some task →
    woken.inOrder = [] ∧ ∀ wait, ¬ m.scene.At task (.waiting wait)

theorem react_due (m : Machine σ δ ε) (task : Nat) (r : Reaction σ δ ε)
    (hrest : r.next = none) :
    (m.react task r).running.toList ++ (m.react task r).ready = m.ready := by
  simp [react, hrest, rest, record]

theorem react_due_alone {m : Machine σ δ ε} {task : Nat} (hrunning : m.running = some task)
    (hready : m.ready = []) (r : Reaction σ δ ε) :
    (m.react task r).running.toList ++ (m.react task r).ready =
      if r.next = none then [] else [task] := by
  cases hnext : r.next with
  | none => simp [react, hnext, rest, record, hready]
  | some call =>
      simp only [react, hnext, approach]
      split <;> simp [record, hrunning, hready]

theorem foldl_notify_ready (m : Machine σ δ ε) {notified : List Channel}
    (hdistinct : notified.Nodup) :
    (notified.foldl notify m).ready = m.ready ++ notified.flatMap m.waiters.on := by
  induction notified generalizing m with
  | nil => simp
  | cons channel channels ih =>
      obtain ⟨hfirst, hrest⟩ := List.nodup_cons.mp hdistinct
      have hsame : channels.flatMap (m.waiters.clear channel).on =
          channels.flatMap m.waiters.on := by
        apply List.flatMap_congr
        intro other hother
        apply Waiters.on_clear_of_ne
        rintro rfl
        exact hfirst hother
      rw [List.foldl_cons, ih _ hrest]
      change m.ready ++ m.waiters.on channel ++ channels.flatMap (m.waiters.clear channel).on = _
      rw [hsame, List.flatMap_cons, List.append_assoc]

end Machine

namespace Waiters

theorem on_of_inOrder_nil {w : Waiters} (hnone : w.inOrder = []) (channel : Channel) :
    w.on channel = [] := by
  obtain ⟨hreaders, hreleased⟩ := List.append_eq_nil_iff.mp hnone
  cases channel with
  | released => exact hreleased
  | writerDone => exact hreaders

end Waiters

namespace Machine

variable {p : Program σ δ ε} {m : Machine σ δ ε} {line : List (Nat × Wait)} {woken : Waiters}
  {mover : Option Nat} {task : Nat} {t : Task σ}

/-- The machine goes on to serve its line. -/
def Serves (m : Machine σ δ ε) : Prop :=
  ∃ line woken mover, m.Serving line woken mover

/-- The task reacts that runs alone. -/
theorem serves_react_alone (hline : m.scene.InLine line woken) (hnone : woken.inOrder = [])
    (haway : task ∉ line.map (·.1)) (hrunning : m.running = some task) (hready : m.ready = [])
    (htask : m.tasks[task]? = some t) (r : Reaction σ δ ε) : (m.react task r).Serves := by
  have hdue := react_due_alone hrunning hready r
  refine ⟨line, woken, if r.next = none then none else some task, ?_, ?_, ?_⟩
  · rw [scene_react]
    exact hline.react haway r.point r.notes
  · rw [hdue, hnone]
    split <;> rfl
  · intro other hother
    obtain ⟨_, rfl⟩ : ¬ r.next = none ∧ task = other := by simpa using hother
    refine ⟨hnone, ?_⟩
    intro wait hat
    rw [scene_react] at hat
    have hpoint : some r.point = some (.waiting wait) :=
      (Scene.At.set_self (scene_at htask) r.point).symm.trans hat
    unfold Reaction.point at hpoint
    cases hnext : r.next <;> simp [hnext] at hpoint

/-- A task comes to rest, and those that are woken remain. -/
theorem serves_react_rest (line : List (Nat × Wait)) (woken : Waiters)
    (hline : m.scene.InLine line woken) (hready : m.ready = woken.inOrder)
    (haway : task ∉ line.map (·.1)) {r : Reaction σ δ ε} (hrest : r.next = none) :
    (m.react task r).Serves := by
  refine ⟨line, woken, none, ?_, ?_, by simp⟩
  · rw [scene_react]
    exact hline.react haway r.point r.notes
  · rw [react_due m task r hrest, hready]
    rfl

namespace Serving

theorem away (hserving : m.Serving line woken (some task)) : task ∉ line.map (·.1) := by
  intro hmem
  obtain ⟨⟨_, wait⟩, hplace, rfl⟩ := List.mem_map.mp hmem
  exact (hserving.alone _ rfl).2 wait (hserving.inLine.stands _ wait hplace)

theorem of_running (hserving : m.Serving line woken mover) (hrunning : m.running = some task) :
    (mover = some task ∧ m.ready = []) ∨ (mover = none ∧ woken.inOrder = task :: m.ready) := by
  have hdue := hserving.due
  rw [hrunning] at hdue
  cases hmover : mover with
  | none =>
      right
      rw [hmover] at hdue
      exact ⟨rfl, hdue.symm⟩
  | some other =>
      left
      rw [hmover, (hserving.alone other hmover).1] at hdue
      obtain ⟨rfl, hready⟩ := List.cons.inj hdue
      exact ⟨rfl, hready⟩

/-- Whoever was woken stands in line. -/
theorem stands_of_woken (hserving : m.Serving line woken mover) (hwoken : task ∈ woken.inOrder) :
    ∃ wait, m.scene.At task (.waiting wait) := by
  have hon : ∃ channel, task ∈ woken.on channel := by
    rcases List.mem_append.mp hwoken with hreader | hreleased
    · exact ⟨.writerDone, hreader⟩
    · exact ⟨.released, hreleased⟩
  obtain ⟨channel, hmem⟩ := hon
  have hqueued : task ∈ lineOn channel line := by
    rw [← hserving.inLine.channels channel]
    exact List.mem_append_right _ hmem
  obtain ⟨wait, hplace, _⟩ := mem_lineOn.mp hqueued
  exact ⟨wait, hserving.inLine.stands task wait hplace⟩

theorem begin (hserving : m.Serving line woken mover) (hrunning : m.running = none)
    (hpicks : m.picks = []) {c : Choice} (hchoice : choose? m.ready m.picks = some c) :
    (m.begin c).Serves := by
  have hfront : c.task :: c.others = m.ready := by
    rw [hpicks] at hchoice
    cases hready : m.ready with
    | nil => simp [hready, choose?] at hchoice
    | cons first rest =>
        rw [hready] at hchoice
        cases rest <;> exact Option.some.inj hchoice ▸ rfl
  have hdue := hserving.due
  refine ⟨line, woken, mover, ?_, ?_, hserving.alone⟩
  · exact hserving.inLine.append [.turn c.task] (by simp [Event.request?, Event.grant?])
  · rw [hrunning] at hdue
    rw [← hdue]
    exact hfront

/-- The first of those that were woken looks again. -/
theorem actWoken (hserving : m.Serving line woken none) (haccounts : m.scene.Accounts)
    (hparked : m.scene.Parked) (hfirst : woken.inOrder = task :: m.ready)
    (htask : m.tasks[task]? = some t)
    (hgranted : ∀ mode, (p.granted mode t.own m.shared).next = none) :
    (m.act p task t).Serves := by
  have hline := hserving.inLine
  obtain ⟨wait, hat⟩ := hserving.stands_of_woken (hfirst ▸ List.mem_cons_self)
  have hpoint : t.point = .waiting wait := Option.some.inj ((scene_at htask).symm.trans hat)
  have hacts := acts p m task t
  generalize m.act p task t = next at hacts ⊢
  cases hacts with
  | resumes houtside => simp [hpoint] at houtside
  | returns hbefore hrelease => simp [hpoint] at hbefore
  | misuses hbefore hrelease => simp [hpoint] at hbefore
  | @parks lock other hlooks hblocks =>
      rw [hpoint] at hlooks
      cases hlooks with
      | passes hdone => exact absurd hblocks (hline.passes hparked hfirst hat hdone).1
      | again =>
          obtain ⟨later, horder, hparks⟩ := hline.parks hfirst hat
          refine ⟨line, later, none, ?_, horder.symm, by simp⟩
          have hpoints := hat.set_eq
          simp only [scene] at hpoints
          simpa [scene, park, record, hpoint, Lock.arrivalEvents, List.map_set, hpoints] using hparks
  | @enters lock other hlooks hchannel henters =>
      rw [hpoint] at hlooks
      cases hlooks with
      | again =>
          obtain ⟨rest, later, horder, haway, henter⟩ :=
            hline.enters haccounts hparked hfirst hat hchannel henters
          refine serves_react_rest rest later ?_ ?_ haway (hgranted _)
          · simpa [hpoint, Lock.arrivalEvents, scene, record] using henter
          · exact horder.symm
      | passes hdone =>
          obtain ⟨rest, later, horder, haway, henter⟩ :=
            (hline.passes hparked hfirst hat hdone).2
          refine serves_react_rest rest later ?_ ?_ haway (hgranted _)
          · simpa [hpoint, Lock.arrivalEvents, scene, record, Wait.admission, Wait.mode]
              using henter
          · exact horder.symm

/-- The task goes on that does not wait, while nobody is woken. -/
theorem actAlone (hserving : m.Serving line woken (some task)) (haccounts : m.scene.Accounts)
    (hparked : m.scene.Parked) (hrunning : m.running = some task) (hready : m.ready = [])
    (htask : m.tasks[task]? = some t)
    (hgranted : ∀ mode, (p.granted mode t.own m.shared).next = none)
    (hreleased : ∀ mode r, t.point = .before (.release mode) → m.lock.release? mode = some r →
      r.notified ≠ [] → (p.released mode t.own m.shared).next = none) :
    (m.act p task t).Serves := by
  have hline := hserving.inLine
  have haway := hserving.away
  obtain ⟨hnone, hnot⟩ := hserving.alone task rfl
  have hwoken := Waiters.on_of_inOrder_nil hnone
  have hat := scene_at htask
  have hstill : ∀ other, t.point ≠ .waiting other := by
    intro other hpoint
    exact hnot other (hpoint ▸ hat)
  -- whoever asks stands at the end of the line, or enters an empty lock with nobody in line
  have harrives : ∀ mode, t.point = .before (.acquire mode) →
      (mode = .shared ∧ m.lock.arrive mode = { lock := m.lock, wait := .groupEntry } ∧
        m.lock.nextWriterTicket ≤ m.lock.nowServing) ∨
      ∃ later : Waiters, later.inOrder = [task] ∧
        (m.scene.arrived task mode).InLine (line ++ [(task, (m.lock.arrive mode).wait)]) later := by
    intro mode hpoint
    rw [hpoint] at hat
    exact hline.arrives hwoken haway hat
  have hacts := acts p m task t
  generalize m.act p task t = next at hacts ⊢
  cases hacts with
  | resumes houtside => exact serves_react_alone hline hnone haway hrunning hready htask _
  | @misuses mode hbefore hrelease =>
      have hmisused := hline.append [.misused task mode] (by simp [Event.request?, Event.grant?])
      exact serves_react_alone (m := m.record [.misused task mode]) hmisused hnone haway hrunning
        hready htask _
  | @returns mode r hbefore hrelease =>
      obtain ⟨later, horder, hreleases⟩ := hline.releases hwoken hrelease task
      let freed := r.notified.foldl notify ({ m with lock := r.lock }.record
        (r.traces.map (Event.traced task) ++ [Event.released task mode]))
      have hfreed : freed.scene.InLine line later := by
        simp only [freed, scene_foldl_notify]
        simpa using hreleases
      have hwaiting : freed.ready = later.inOrder := by
        have hnodup := (Lock.release?_keeps hline.policy hrelease).nodup
        rw [horder]
        refine (foldl_notify_ready _ hnodup).trans ?_
        change m.ready ++ _ = _
        rw [hready]
        rfl
      by_cases hwakes : r.notified = []
      · have hquiet : later.inOrder = [] := by rw [horder, hwakes, List.flatMap_nil]
        have hfound : freed.tasks[task]? = some t := by
          simp only [freed, foldl_notify_tasks]
          exact htask
        exact serves_react_alone hfreed hquiet haway ((foldl_notify_running _ _).trans hrunning)
          (hwaiting.trans hquiet) hfound _
      · exact serves_react_rest line later hfreed hwaiting haway
          (hreleased mode r hbefore hrelease hwakes)
  | @parks lock other hlooks hblocks =>
      obtain ⟨mode, hpoint, rfl, rfl⟩ := hlooks.arrival hstill
      rcases harrives mode hpoint with ⟨rfl, harrive, hticket⟩ | ⟨later, horder, harrived⟩
      · rw [harrive] at hblocks
        exact absurd hblocks (hline.arrives_alone hwoken hparked hticket task).1
      · obtain ⟨others, hothers, hparks⟩ := harrived.parks horder (hat.set_self _)
        refine ⟨line ++ [(task, (m.lock.arrive mode).wait)], others, none, ?_, ?_, by simp⟩
        · simpa [scene, park, record, hpoint, Lock.arrivalEvents, List.map_set, Scene.arrived]
            using hparks
        · rw [hothers]
          exact hready
  | @enters lock other hlooks hchannel henters =>
      obtain ⟨mode, hpoint, rfl, rfl⟩ := hlooks.arrival hstill
      rw [hpoint] at hat
      rcases harrives mode hpoint with ⟨rfl, harrive, hticket⟩ | ⟨later, horder, harrived⟩
      · have halone := (hline.arrives_alone hwoken hparked hticket task).2
        refine serves_react_rest [] woken ?_ ?_ (by simp) (hgranted _)
        · simpa [hpoint, harrive, Lock.arrivalEvents, scene, record, Wait.admission, Wait.mode]
            using halone
        · exact hready.trans hnone.symm
      · have hmove : Scene.Move m.scene (m.scene.arrived task mode) := .arrive m.scene hat
        obtain ⟨rest, others, hothers, hfar, henter⟩ :=
          harrived.enters (haccounts.move hmove) (hparked.move hmove) horder (hat.set_self _)
            hchannel
            henters
        -- it stood before its call until its program reacts
        have hback := henter.react hfar (.before (.acquire mode)) []
        refine serves_react_rest rest others ?_ ?_ hfar (hgranted _)
        · have hpoints := hat.set_eq
          simp only [scene] at hpoints
          simpa [hpoint, Lock.arrivalEvents, scene, record, Scene.react, Scene.arrived, hpoints]
            using hback
        · exact hready.trans hothers.symm

end Serving

/-- A step goes on to serve the line, if a task that is let in or wakes others comes to rest. -/
theorem Serves.step (hserves : m.Serves) (haccounts : m.scene.Accounts) (hparked : m.scene.Parked)
    (hpicks : m.picks = [])
    (hgranted : ∀ mode own shared, (p.granted mode own shared).next = none)
    (hreleased : ∀ (task : Nat) (t : Task σ) (mode : Mode) (r : Release),
      m.tasks[task]? = some t → t.point = .before (.release mode) →
      m.lock.release? mode = some r → r.notified ≠ [] →
      (p.released mode t.own m.shared).next = none)
    {next : Machine σ δ ε} (hstep : m.step p = some next) : next.Serves := by
  obtain ⟨line, woken, mover, hserving⟩ := hserves
  rcases step_cases hstep with
    ⟨hrunning, c, hchoice, rfl⟩ | ⟨task, hrunning, hnone, rfl⟩ | ⟨task, t, hrunning, htask, rfl⟩
  · exact hserving.begin hrunning hpicks hchoice
  · rcases hserving.of_running hrunning with ⟨rfl, hready⟩ | ⟨rfl, hfirst⟩
    · refine ⟨line, woken, none, hserving.inLine, ?_, by simp⟩
      simp [hready, (hserving.alone task rfl).1]
    · obtain ⟨wait, hat⟩ := hserving.stands_of_woken (hfirst ▸ List.mem_cons_self)
      simp [Scene.At, scene, hnone] at hat
  · rcases hserving.of_running hrunning with ⟨rfl, hready⟩ | ⟨rfl, hfirst⟩
    · exact hserving.actAlone haccounts hparked hrunning hready htask (fun mode => hgranted mode _ _)
        (fun mode r hpoint => hreleased task t mode r htask hpoint)
    · exact hserving.actWoken haccounts hparked hfirst htask (fun mode => hgranted mode _ _)

theorem act_picks (p : Program σ δ ε) (m : Machine σ δ ε) (task : Nat) (t : Task σ) :
    (m.act p task t).picks = m.picks := by
  have hreact : ∀ (m : Machine σ δ ε) (r : Reaction σ δ ε), (m.react task r).picks = m.picks := by
    intro m r
    cases hnext : r.next with
    | none => simp [react, hnext, rest, record]
    | some call =>
        simp only [react, hnext, approach]
        split <;> rfl
  have hnotify : ∀ (m : Machine σ δ ε) (channels : List Channel),
      (channels.foldl notify m).picks = m.picks := by
    intro m channels
    induction channels generalizing m with
    | nil => rfl
    | cons channel channels ih => exact ih (m.notify channel)
  have hacts := acts p m task t
  generalize m.act p task t = next at hacts ⊢
  cases hacts with
  | parks hlooks hblocks => rfl
  | returns hpoint hrelease => exact (hreact _ _).trans (hnotify _ _)
  | _ => exact hreact _ _

theorem step_picks (hpicks : m.picks = []) {next : Machine σ δ ε} (hstep : m.step p = some next) :
    next.picks = [] := by
  rcases step_cases hstep with ⟨_, c, hchoice, rfl⟩ | ⟨_, _, _, rfl⟩ | ⟨task, t, _, _, rfl⟩
  · rw [hpicks] at hchoice
    match hready : m.ready with
    | [] => simp [hready, choose?] at hchoice
    | [_] | _ :: _ :: _ =>
        rw [hready] at hchoice
        exact Option.some.inj hchoice ▸ rfl
  · exact hpicks
  · exact (act_picks p m task t).trans hpicks

end Machine

end ReaderWriter
