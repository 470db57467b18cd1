import ReaderWriter.Proofs.Parking
import ReaderWriter.Proofs.Rest
import ReaderWriter.Proofs.Tickets

/-!
# What a parked task waits for

The condition that blocks a parked task is one about accesses that are held and tickets that are not
completed.  The policy says which conditions there are: without tickets a reader waits for the writer
inside and a writer for anybody inside; with tickets a reader waits first for the newest ticket on
its arrival, and a writer also for the tickets before its own.

Every task inside a call that waits is parked, ready or running, so on a machine at rest it is
parked.
-/

namespace ReaderWriter

variable {σ δ ε : Type}

/-- Some access of the kind is granted and not given back. -/
def Outstanding (history : List (Event ε)) (mode : Mode) : Prop :=
  history.countP (Event.returns mode) < history.countP (Event.grants mode)

/-- The waits that occur under a policy. -/
def Wait.Suits : Policy → Wait → Prop
  | .readerPreference, .groupEntry => True
  | .readerPreference, .writerEntry none => True
  | .fairTicket, .ticketDone _ => True
  | .fairTicket, .groupEntry => True
  | .fairTicket, .writerEntry (some _) => True
  | _, _ => False

theorem Wait.Suits.exists_ticket {wait : Wait} (hsuits : wait.Suits .fairTicket)
    (hmode : wait.mode = .exclusive) : ∃ ticket, wait = .writerEntry (some ticket) := by
  cases wait with
  | ticketDone ticket => cases hmode
  | groupEntry => cases hmode
  | writerEntry ticket? =>
      cases ticket? with
      | none => exact hsuits.elim
      | some ticket => exact ⟨ticket, rfl⟩

theorem Wait.Suits.eq_groupEntry {wait : Wait} (hsuits : wait.Suits .readerPreference)
    (hmode : wait.mode = .shared) : wait = .groupEntry := by
  cases wait with
  | ticketDone ticket => exact hsuits.elim
  | groupEntry => rfl
  | writerEntry ticket? => cases hmode

theorem Wait.Suits.eq_writerEntry {wait : Wait} (hsuits : wait.Suits .readerPreference)
    (hmode : wait.mode = .exclusive) : wait = .writerEntry none := by
  cases wait with
  | ticketDone ticket => cases hmode
  | groupEntry => cases hmode
  | writerEntry ticket? =>
      cases ticket? with
      | none => rfl
      | some ticket => exact hsuits.elim

namespace Lock

/-- Beside a writer nobody goes on without tickets. -/
theorem blocks_of_writer {l : Lock} {wait : Wait} (hsuits : wait.Suits .readerPreference)
    (hinside : 0 < l.writersInside) : l.Blocks wait := by
  obtain ⟨htaken, hempty⟩ := writersInside_pos_iff.mp hinside
  cases hmode : wait.mode with
  | shared =>
      rw [hsuits.eq_groupEntry hmode]
      exact ⟨hempty, htaken⟩
  | exclusive =>
      rw [hsuits.eq_writerEntry hmode]
      exact htaken

/-- Without tickets no reader waits unless a writer is inside. -/
theorem exclusive_of_blocks {l : Lock} {wait : Wait} (hsuits : wait.Suits .readerPreference)
    (hnone : l.writersInside = 0) (hblocks : l.Blocks wait) : wait.mode = .exclusive := by
  by_contra hmode
  have hshared : wait.mode = .shared := by
    cases hkind : wait.mode with
    | shared => rfl
    | exclusive => exact absurd hkind hmode
  rw [hsuits.eq_groupEntry hshared] at hblocks
  have hinside := writersInside_pos_iff.mpr ⟨hblocks.2, hblocks.1⟩
  omega

end Lock

/-- What a task waits for does not hold yet. -/
def Wait.Awaits (history : List (Event ε)) (task : Nat) : Wait → Prop
  | .ticketDone ticket =>
    ticketsAhead task history = ticket + 1 ∧ ticket ∉ tickets .completed history
  | .groupEntry => Outstanding history .exclusive
  | .writerEntry none => ∃ mode, Outstanding history mode
  | .writerEntry (some ticket) =>
    (∃ mode, Outstanding history mode) ∨
      ∃ smaller < ticket, smaller ∈ tickets .issued history ∧
        smaller ∉ tickets .completed history

namespace Scene

/-! ## The waits of a policy -/

def Suited (s : Scene ε) : Prop :=
  ∀ task wait, s.At task (.waiting wait) → wait.Suits s.lock.policy

theorem start_suited (policy : Policy) (tasks : Nat) : (start policy tasks : Scene ε).Suited := by
  intro task wait hat
  simp [start, At, List.getElem?_replicate] at hat

theorem arrive_suits (l : Lock) (mode : Mode) : (l.arrive mode).wait.Suits l.policy := by
  cases mode with
  | exclusive =>
      rcases l.arrive_exclusive_cases with ⟨hpolicy, harrive⟩ | ⟨hpolicy, harrive⟩
      · rw [harrive, hpolicy]
        trivial
      · rw [harrive, hpolicy]
        trivial
  | shared =>
      rcases l.arrive_shared_cases with ⟨harrive, _⟩ | ⟨hpolicy, _, _, _, harrive⟩
      · rw [harrive]
        cases l.policy <;> trivial
      · rw [harrive, hpolicy]
        trivial

theorem arrive_policy (l : Lock) (mode : Mode) : (l.arrive mode).lock.policy = l.policy := by
  rcases l.arrive_lock_cases mode with hlock | hlock | hlock <;> rw [hlock] <;> rfl

theorem release?_policy {l : Lock} {mode : Mode} {r : Release}
    (hrelease : l.release? mode = some r) : r.lock.policy = l.policy := by
  cases mode with
  | shared => rcases Lock.release?_shared_cases hrelease with ⟨_, rfl⟩ | ⟨_, rfl⟩ <;> rfl
  | exclusive =>
      rcases (Lock.release?_exclusive_cases hrelease).2 with ⟨_, rfl⟩ | ⟨_, rfl⟩ <;> rfl

theorem Move.policy {s next : Scene ε} (hmove : Move s next) :
    next.lock.policy = s.lock.policy := by
  cases hmove with
  | @arrive task mode hat => exact arrive_policy s.lock mode
  | @enter task wait hat hchannel henters => cases wait.mode <;> rfl
  | leave hat hrelease => exact release?_policy hrelease
  | _ => rfl

theorem Run.policy {s last : Scene ε} (hrun : Run s last) :
    last.lock.policy = s.lock.policy := by
  induction hrun with
  | refl => rfl
  | tail _ hlast ih => exact hlast.policy.trans ih

theorem Suited.moved {s next : Scene ε} (hsuited : s.Suited) (hmove : Move s next) {mover : Nat}
    {target : Point} (hpoints : next.points = s.points.set mover target)
    (htarget : ∀ wait, target = .waiting wait → wait.Suits s.lock.policy) : next.Suited := by
  intro task wait hat
  rw [hmove.policy]
  unfold At at hat
  rw [hpoints] at hat
  rcases At.of_set hat with ⟨_, hpoint⟩ | ⟨_, htask⟩
  · exact htarget wait hpoint.symm
  · exact hsuited task wait htask

theorem Suited.move {s next : Scene ε} (hmove : Move s next) (hsuited : s.Suited) :
    next.Suited := by
  cases hmove with
  | turn task => exact hsuited
  | note task note => exact hsuited
  | approach call hat => exact hsuited.moved (.approach s call hat) rfl (by simp)
  | @arrive task mode hat =>
      refine hsuited.moved (.arrive s hat) rfl ?_
      intro wait hwait
      obtain rfl : (s.lock.arrive mode).wait = wait := by simpa using hwait
      exact arrive_suits s.lock mode
  | park hat hblocks => exact hsuited
  | pass hat hdone =>
      refine hsuited.moved (.pass s hat hdone) rfl ?_
      intro wait hwait
      obtain rfl : Wait.groupEntry = wait := by simpa using hwait
      cases s.lock.policy <;> trivial
  | enter hat hchannel henters =>
      exact hsuited.moved (.enter s hat hchannel henters) rfl (by simp)
  | leave hat hrelease => exact hsuited.moved (.leave s hat hrelease) rfl (by simp)
  | misuse hat hrelease => exact hsuited.moved (.misuse s hat hrelease) rfl (by simp)
  | wake task => exact hsuited

theorem Run.suited {s last : Scene ε} (hrun : Run s last) (hsuited : s.Suited) : last.Suited :=
  hrun.keeps Suited.move hsuited

/-! ## What blocks a task -/

theorem Accounts.outstanding_of_writer {s : Scene ε} (haccounts : s.Accounts)
    (htaken : s.lock.exclusive = true) (hempty : s.lock.activeReaders = 0) :
    Outstanding s.history .exclusive := by
  have hwriters := haccounts.writers
  have hinside := Lock.writersInside_of_writer htaken hempty
  unfold Outstanding
  omega

theorem Accounts.outstanding_of_taken {s : Scene ε} (haccounts : s.Accounts)
    (htaken : s.lock.exclusive = true) : ∃ mode, Outstanding s.history mode := by
  by_cases hempty : s.lock.activeReaders = 0
  · exact ⟨.exclusive, haccounts.outstanding_of_writer htaken hempty⟩
  · have hreaders := haccounts.readers
    refine ⟨.shared, ?_⟩
    unfold Outstanding
    omega

/-- Without tickets. -/
theorem Accounts.awaits {s : Scene ε} (haccounts : s.Accounts) {wait : Wait} {task : Nat}
    (hsuits : wait.Suits .readerPreference) (hblocks : s.lock.Blocks wait) :
    wait.Awaits s.history task := by
  cases wait with
  | ticketDone ticket => exact hsuits.elim
  | groupEntry => exact haccounts.outstanding_of_writer hblocks.2 hblocks.1
  | writerEntry ticket? =>
      cases ticket? with
      | none => exact haccounts.outstanding_of_taken hblocks
      | some ticket => exact hsuits.elim

theorem Ticketed.awaits {s : Scene ε} (hticketed : s.Ticketed) (haccounts : s.Accounts)
    {wait : Wait} {task : Nat} (hat : s.At task (.waiting wait)) (hblocks : s.lock.Blocks wait) :
    wait.Awaits s.history task := by
  have hasked := hticketed.asked task wait hat
  cases wait with
  | ticketDone ticket =>
      refine ⟨hasked, ?_⟩
      rw [hticketed.lawful.mem_tickets_iff, hticketed.completed]
      exact Nat.not_lt.mpr hblocks
  | groupEntry => exact haccounts.outstanding_of_writer hblocks.2 hblocks.1
  | writerEntry ticket? =>
      cases ticket? with
      | none => exact hasked.elim
      | some ticket =>
          obtain ⟨_, hissued, hopen⟩ := hasked
          rcases hblocks with htaken | hturn
          · exact .inl (haccounts.outstanding_of_taken htaken)
          · right
            have hnext := hticketed.issued_lt hissued
            have hserving : s.lock.nowServing < ticket := by
              unfold Lock.ticketsAdmitted at hopen
              omega
            refine ⟨s.lock.nowServing, hserving, ?_, ?_⟩
            · rw [hticketed.lawful.mem_tickets_iff, hticketed.issued]
              omega
            · rw [hticketed.lawful.mem_tickets_iff, hticketed.completed]
              exact Nat.lt_irrefl _

end Scene

/-! ## Where the tasks are that wait -/

namespace Machine

/-- Every task inside a call that waits is parked, ready or running. -/
def Present (m : Machine σ δ ε) : Prop :=
  ∀ task wait, m.scene.At task (.waiting wait) →
    task ∈ m.waiters.on wait.channel ∨ task ∈ m.ready ∨ m.running = some task

/-- Every other task inside a call that waits is parked or ready. -/
def OthersPresent (m : Machine σ δ ε) (mover : Nat) : Prop :=
  ∀ task wait, task ≠ mover → m.scene.At task (.waiting wait) →
    task ∈ m.waiters.on wait.channel ∨ task ∈ m.ready

variable {m : Machine σ δ ε} {mover : Nat}

theorem Present.others (hpresent : m.Present) (hrunning : m.running = some mover) :
    m.OthersPresent mover := by
  intro task wait hne hat
  rcases hpresent task wait hat with hparked | hready | hruns
  · exact .inl hparked
  · exact .inr hready
  · rw [hrunning] at hruns
    exact absurd (Option.some.inj hruns).symm hne

theorem OthersPresent.foldl_notify (hothers : m.OthersPresent mover) (channels : List Channel) :
    (channels.foldl notify m).OthersPresent mover := by
  induction channels generalizing m with
  | nil => exact hothers
  | cons channel channels ih =>
      apply ih
      intro task wait hne hat
      rcases hothers task wait hne hat with hparked | hready
      · by_cases hchannel : wait.channel = channel
        · right
          rw [hchannel] at hparked
          exact List.mem_append_right _ hparked
        · left
          unfold notify
          rw [Waiters.on_clear_of_ne _ hchannel]
          exact hparked
      · right
        exact List.mem_append_left _ hready

theorem OthersPresent.react (hothers : m.OthersPresent mover) (r : Reaction σ δ ε) :
    (m.react mover r).Present := by
  intro task wait hat
  rw [scene_react] at hat
  rcases Scene.At.of_set hat with ⟨_, hpoint⟩ | ⟨hne, htask⟩
  · exact absurd hpoint.symm (r.point_ne_waiting wait)
  · rcases hothers task wait hne htask with hparked | hready
    · left
      rw [react_waiters]
      exact hparked
    · right; left
      cases hnext : r.next with
      | none =>
          simp only [Machine.react, hnext]
          exact hready
      | some call =>
          simp only [Machine.react, hnext, approach]
          split
          · exact List.mem_append_left _ hready
          · exact hready

theorem OthersPresent.park (hothers : m.OthersPresent mover) (own : σ) (parked : Wait) :
    (m.park mover own parked).Present := by
  intro task wait hat
  have hset : (m.scene.points.set mover (.waiting parked))[task]? = some (.waiting wait) := by
    simpa [Scene.At, scene, Machine.park, List.map_set] using hat
  rcases Scene.At.of_set hset with ⟨rfl, hpoint⟩ | ⟨hne, htask⟩
  · left
    obtain rfl : wait = parked := by simpa using hpoint
    unfold Machine.park
    rw [Waiters.on_park_self]
    exact List.mem_append_right _ (List.mem_singleton_self task)
  · rcases hothers task wait hne htask with hold | hready
    · left
      exact Waiters.mem_park_of_mem hold
    · right; left
      exact hready

theorem OthersPresent.settle (p : Program σ δ ε) (hothers : m.OthersPresent mover) (own : σ)
    (mode : Mode) (a : Admission) : (m.settle p mover own mode a).Present := by
  have htraced : ({ m with lock := a.lock }.record (a.traces.map (.traced mover))).OthersPresent
      mover := hothers
  cases hwaits : a.waits with
  | some wait =>
      simp only [Machine.settle, hwaits]
      exact htraced.park own wait
  | none =>
      have hgranted : (({ m with lock := a.lock }.record (a.traces.map (.traced mover))).record
          [.granted mover mode]).OthersPresent mover := hothers
      simp only [Machine.settle, hwaits]
      exact hgranted.react _

theorem OthersPresent.giveBack (p : Program σ δ ε) (hothers : m.OthersPresent mover) (own : σ)
    (mode : Mode) : (m.giveBack p mover own mode).Present := by
  cases hrelease : m.lock.release? mode with
  | none =>
      have hrecorded : (m.record [.misused mover mode]).OthersPresent mover := hothers
      simp only [Machine.giveBack, hrelease]
      exact hrecorded.react _
  | some r =>
      have hrecorded : (({ m with lock := r.lock }.record
          (r.traces.map (Event.traced mover))).record [.released mover mode]).OthersPresent
          mover := hothers
      simp only [Machine.giveBack, hrelease]
      exact (hrecorded.foldl_notify r.notified).react _

theorem Present.step {p : Program σ δ ε} (hpresent : m.Present) {next : Machine σ δ ε}
    (hstep : m.step p = some next) : next.Present := by
  rcases Machine.step_cases hstep with
    ⟨hrunning, c, hchoice, rfl⟩ | ⟨mover, hrunning, hnone, rfl⟩ | ⟨mover, t, hrunning, _, rfl⟩
  · intro task wait hat
    rcases hpresent task wait hat with hparked | hready | hruns
    · exact .inl hparked
    · right
      rw [← (choose?_perm hchoice).mem_iff] at hready
      rcases List.mem_cons.mp hready with hchosen | hother
      · right
        rw [hchosen]
        rfl
      · exact .inl hother
    · rw [hrunning] at hruns
      contradiction
  · intro task wait hat
    have hne : task ≠ mover := by
      intro heq
      subst heq
      simp [Scene.At, scene, hnone] at hat
    rcases hpresent.others hrunning task wait hne hat with hparked | hready
    · exact .inl hparked
    · exact .inr (.inl hready)
  · have hothers := hpresent.others hrunning
    cases hpoint : t.point with
    | outside =>
        simp only [act, hpoint]
        exact hothers.react _
    | waiting wait =>
        simp only [act, hpoint]
        exact hothers.settle p t.own wait.mode _
    | before call =>
        simp only [act, hpoint]
        cases call with
        | release mode => exact hothers.giveBack p t.own mode
        | acquire mode =>
            have hrecorded : (m.record [.requested mover mode]).OthersPresent mover := hothers
            exact hrecorded.settle p t.own mode _

theorem Present.wake (hpresent : m.Present) (task : Nat) : (m.wake task).Present := by
  intro other wait hat
  rcases hpresent other wait hat with hparked | hready | hruns
  · by_cases hother : other = task
    · right; left
      exact List.mem_append_right _ (List.mem_singleton.mpr hother)
    · left
      unfold Machine.wake
      rw [Waiters.on_remove]
      exact (List.mem_erase_of_ne hother).mpr hparked
  · right; left
    exact List.mem_append_left _ hready
  · exact .inr (.inr hruns)

end Machine

end ReaderWriter
