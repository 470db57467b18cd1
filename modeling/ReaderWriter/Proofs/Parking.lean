import ReaderWriter.Proofs.Scene

/-!
# No wake-up is lost

A task that is parked on a channel waits for a condition that does not hold yet.  This survives
every move: an entry only makes conditions harder to meet, and a release notifies every channel on
which a condition could have come to hold.  So a parked task that is woken for no reason looks at
its condition and goes back to sleep.
-/

namespace ReaderWriter

variable {ε : Type}

namespace Waiters

theorem contains_iff {w : Waiters} {task : Nat} :
    w.contains task = true ↔ ∃ channel, task ∈ w.on channel := by
  unfold contains
  rw [Bool.or_eq_true, List.contains_iff_mem, List.contains_iff_mem]
  constructor
  · intro hmem
    rcases hmem with hreleased | hdone
    · exact ⟨.released, hreleased⟩
    · exact ⟨.writerDone, hdone⟩
  · intro ⟨channel, hmem⟩
    cases channel with
    | released => exact .inl hmem
    | writerDone => exact .inr hmem

theorem on_foldl_clear (w : Waiters) (channels : List Channel) (channel : Channel) :
    (channels.foldl clear w).on channel = if channel ∈ channels then [] else w.on channel := by
  induction channels generalizing w with
  | nil => simp
  | cons first channels ih =>
      rw [List.foldl_cons, ih]
      by_cases hfirst : channel = first
      · subst hfirst
        simp
      · simp [hfirst, on_clear_of_ne]

theorem mem_of_mem_park {w : Waiters} {task other : Nat} {parked channel : Channel}
    (hmem : other ∈ (w.park task parked).on channel) :
    other ∈ w.on channel ∨ other = task ∧ channel = parked := by
  by_cases hchannel : channel = parked
  · subst hchannel
    simpa using hmem
  · rw [on_park_of_ne w task hchannel] at hmem
    exact .inl hmem

theorem mem_park_of_mem {w : Waiters} {task other : Nat} {parked channel : Channel}
    (hmem : task ∈ w.on channel) : task ∈ (w.park other parked).on channel := by
  by_cases hchannel : channel = parked
  · subst hchannel
    rw [on_park_self]
    exact List.mem_append_left _ hmem
  · rw [on_park_of_ne w other hchannel]
    exact hmem

end Waiters

namespace Lock

theorem arrive_blocks_iff (l : Lock) (mode : Mode) (wait : Wait) :
    (l.arrive mode).lock.Blocks wait ↔ l.Blocks wait := by
  have hqueue : l.queueUp.Blocks wait ↔ l.Blocks wait := by
    rcases wait with _ | _ | (_ | _) <;> exact Iff.rfl
  have hticket : l.takeTicket.Blocks wait ↔ l.Blocks wait := by
    rcases wait with _ | _ | (_ | _) <;> exact Iff.rfl
  rcases l.arrive_lock_cases mode with hlock | hlock | hlock
  · rw [hlock]
  · rw [hlock]
    exact hqueue
  · rw [hlock]
    exact hticket

theorem pass_blocks_iff (l : Lock) (wait : Wait) : l.pass.Blocks wait ↔ l.Blocks wait := by
  rcases wait with _ | _ | (_ | _) <;> exact Iff.rfl

/-- When somebody enters, whoever waits goes on waiting. -/
theorem Blocks.enter {l : Lock} {wait entering : Wait} (hblocks : l.Blocks wait)
    (hchannel : entering.channel = .released) (henters : ¬ l.Blocks entering) :
    (l.enter entering.mode).Blocks wait := by
  cases hmode : entering.mode with
  | shared =>
      have hfree := not_blocks_shared hchannel hmode henters
      cases wait with
      | ticketDone ticket => exact hblocks
      | groupEntry => exact absurd hblocks hfree
      | writerEntry ticket? =>
          cases ticket? with
          | none =>
              have htaken : l.exclusive = true := hblocks
              simp [Blocks, Lock.enter, htaken]
          | some ticket =>
              rcases hblocks with htaken | hturn
              · exact .inl (by simp [Lock.enter, htaken])
              · exact .inr hturn
  | exclusive =>
      have hfree := not_blocks_exclusive hmode henters
      cases wait with
      | ticketDone ticket => exact hblocks
      | groupEntry => exact ⟨hblocks.1, rfl⟩
      | writerEntry ticket? =>
          cases ticket? with
          | none => rfl
          | some ticket => exact .inl rfl

/-- A release notifies every channel on which a condition could have come to hold. -/
theorem Blocks.release {l : Lock} {wait : Wait} {mode : Mode} {r : Release}
    (hblocks : l.Blocks wait) (hrelease : l.release? mode = some r)
    (hsilent : wait.channel ∉ r.notified) : r.lock.Blocks wait := by
  cases mode with
  | shared =>
      rcases release?_shared_cases hrelease with ⟨_, rfl⟩ | ⟨hmany, rfl⟩
      · cases wait with
        | ticketDone ticket => exact hblocks
        | groupEntry => simp [Wait.channel] at hsilent
        | writerEntry ticket? => simp [Wait.channel] at hsilent
      · cases wait with
        | ticketDone ticket => exact hblocks
        | groupEntry => exact absurd hblocks.1 (by omega)
        | writerEntry ticket? => cases ticket? <;> exact hblocks
  | exclusive =>
      obtain ⟨_, hcases⟩ := release?_exclusive_cases hrelease
      rcases hcases with ⟨_, rfl⟩ | ⟨_, rfl⟩
      · cases wait with
        | ticketDone ticket => exact hblocks
        | groupEntry => simp [Wait.channel] at hsilent
        | writerEntry ticket? => simp [Wait.channel] at hsilent
      · cases wait <;> simp [Wait.channel] at hsilent

end Lock

namespace Scene

/-- Whoever is parked on a channel waits there for a condition that does not hold yet. -/
def Parked (s : Scene ε) : Prop :=
  ∀ channel task, task ∈ s.waiters.on channel →
    ∃ wait, s.At task (.waiting wait) ∧ wait.channel = channel ∧ s.lock.Blocks wait

theorem start_parked (policy : Policy) (tasks : Nat) : (start policy tasks : Scene ε).Parked := by
  intro channel task hmem
  cases channel <;> simp [start, Waiters.on] at hmem

/-- A task that is not parked moves, and whoever stays parked goes on waiting. -/
theorem Parked.congr {s next : Scene ε} (hparked : s.Parked) {mover : Nat} {point target : Point}
    (hat : s.At mover point) (hfree : ∀ wait, point = .waiting wait → ¬ s.lock.Blocks wait)
    (hpoints : next.points = s.points.set mover target)
    (hstay : ∀ channel task, task ∈ next.waiters.on channel → task ∈ s.waiters.on channel)
    (hblocks : ∀ channel task wait, task ∈ next.waiters.on channel → wait.channel = channel →
      s.lock.Blocks wait → next.lock.Blocks wait) : next.Parked := by
  intro channel task hmem
  obtain ⟨wait, htask, hchannel, hwaits⟩ := hparked channel task (hstay channel task hmem)
  refine ⟨wait, ?_, hchannel, hblocks channel task wait hmem hchannel hwaits⟩
  have hdiffers : point ≠ .waiting wait := by
    intro hpoint
    exact hfree wait hpoint hwaits
  rw [At, hpoints]
  exact htask.set_of_ne hat hdiffers target

theorem Parked.move {s next : Scene ε} (hmove : Move s next) (hparked : s.Parked) :
    next.Parked := by
  cases hmove with
  | turn task => exact hparked
  | note task note => exact hparked
  | approach call hat =>
      exact hparked.congr hat (by simp) rfl (fun _ _ h => h) (fun _ _ _ _ _ h => h)
  | arrive hat =>
      exact hparked.congr hat (by simp) rfl (fun _ _ h => h)
        (fun _ _ wait _ _ h => (Lock.arrive_blocks_iff _ _ wait).mpr h)
  | park hat hblocks =>
      intro channel task hmem
      rcases Waiters.mem_of_mem_park hmem with hold | ⟨rfl, rfl⟩
      · exact hparked channel task hold
      · exact ⟨_, hat, rfl, hblocks⟩
  | pass hat hdone =>
      refine hparked.congr hat ?_ rfl (fun _ _ h => h)
        (fun _ _ wait _ _ h => (Lock.pass_blocks_iff _ wait).mpr h)
      rintro wait ⟨⟩
      exact Nat.not_le.mpr hdone
  | enter hat hchannel henters =>
      refine hparked.congr hat ?_ rfl (fun _ _ h => h)
        (fun _ _ _ _ _ h => h.enter hchannel henters)
      rintro wait ⟨⟩
      exact henters
  | @leave task mode r hat hrelease =>
      refine hparked.congr hat (by simp) rfl ?_ ?_
      · intro channel task hmem
        rw [Waiters.on_foldl_clear] at hmem
        split at hmem
        · simp at hmem
        · exact hmem
      · -- whoever stays is parked on a channel that was not notified
        intro channel task wait hmem hchannel hwaits
        refine hwaits.release hrelease ?_
        intro hnotified
        rw [Waiters.on_foldl_clear, ← hchannel, if_pos hnotified] at hmem
        simp at hmem
  | misuse hat hrelease =>
      exact hparked.congr hat (by simp) rfl (fun _ _ h => h) (fun _ _ _ _ _ h => h)
  | wake task =>
      intro channel other hmem
      rw [Waiters.on_remove] at hmem
      exact hparked channel other (List.mem_of_mem_erase hmem)

theorem Run.parked {s last : Scene ε} (hrun : Run s last) (hparked : s.Parked) : last.Parked :=
  hrun.keeps Parked.move hparked

end Scene

end ReaderWriter
