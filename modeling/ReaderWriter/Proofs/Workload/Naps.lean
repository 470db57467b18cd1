import Mathlib.Order.Interval.Finset.Nat
import ReaderWriter.Proofs.Workload.Outcome

/-!
# The naps of a workload and the time that it takes

Time passes only while somebody naps inside of the lock, and then it goes on to the first end of a
nap.  So at every moment before the end somebody naps.  A worker holds its access until its nap is
over, hence no other nap begins or goes on in the course of a writer's, and the time of a run is
what the writers nap and the time at which at least one reader naps.

The milliseconds of a nap are numbered by the moments at which they begin, so that time shared by
several naps is the union of finite sets.
-/

namespace ReaderWriter

theorem Lock.Looks.same_inside {l lock : Lock} {point : Point} {wait : Wait}
    (hlooks : l.Looks point lock wait) :
    lock.activeReaders = l.activeReaders ∧ lock.exclusive = l.exclusive := by
  cases hlooks with
  | arrives mode => exact ⟨l.arrive_activeReaders mode, l.arrive_exclusive mode⟩
  | again => exact ⟨rfl, rfl⟩
  | passes hdone => exact ⟨rfl, rfl⟩

/-- Whoever enters beside an access that can be given back is a reader beside a reader. -/
theorem Lock.Looks.shared_of_enters {l lock : Lock} {point : Point} {wait : Wait} {mode : Mode}
    (hlooks : l.Looks point lock wait) (hgroup : 0 < l.activeReaders → l.exclusive = true)
    (hheld : (l.release? mode).isSome) (hchannel : wait.channel = .released)
    (henters : ¬ lock.Blocks wait) : mode = .shared ∧ wait.mode = .shared := by
  obtain ⟨r, hrelease⟩ := Option.isSome_iff_exists.mp hheld
  obtain ⟨hreaders, hexclusive⟩ := hlooks.same_inside
  have htaken : lock.exclusive = true ∧ (mode = .exclusive → lock.activeReaders = 0) := by
    rw [hreaders, hexclusive]
    cases mode with
    | shared =>
        refine ⟨hgroup ?_, by simp⟩
        rcases release?_shared_cases hrelease with ⟨hlast, _⟩ | ⟨hmany, _⟩ <;> omega
    | exclusive =>
        have hinside := (release?_exclusive_cases hrelease).1
        exact ⟨hinside.1, fun _ => hinside.2⟩
  cases hmode : wait.mode with
  | exclusive =>
      have hfree := not_blocks_exclusive hmode henters
      rw [htaken.1] at hfree
      contradiction
  | shared =>
      have hbeside := not_blocks_shared hchannel hmode henters
      cases mode with
      | shared => exact ⟨rfl, rfl⟩
      | exclusive => exact absurd ⟨htaken.2 rfl, htaken.1⟩ hbeside

namespace Workload

variable {c : Config} {chance : Chance} {m next : State}

structure Nap where
  worker : Nat
  start : Nat
  length : Nat
  deriving DecidableEq, Repr

namespace Nap

def stop (nap : Nap) : Nat := nap.start + nap.length

def span (nap : Nap) : Finset Nat := Finset.Ico nap.start nap.stop

/-- The napping worker as it is kept until its nap is over. -/
def sleeper (nap : Nap) : Sleeper := ⟨nap.worker, nap.stop⟩

theorem mem_span {nap : Nap} {moment : Nat} :
    moment ∈ nap.span ↔ nap.start ≤ moment ∧ moment < nap.stop :=
  Finset.mem_Ico

theorem card_span (nap : Nap) : nap.span.card = nap.length := by
  rw [span, Nat.card_Ico, stop, Nat.add_sub_cancel_left]

end Nap

def nap? : Event Note → Option Nap
  | .noted worker (.napped start length) => some { worker, start, length }
  | _ => none

/-- The naps in the order in which they began. -/
def naps (events : List (Event Note)) : List Nap :=
  events.filterMap nap?

/-- The milliseconds in which somebody naps. -/
def cover (naps : List Nap) : Finset Nat :=
  naps.foldr (fun nap covered => nap.span ∪ covered) ∅

def total (naps : List Nap) : Nat :=
  (naps.map (·.length)).sum

/-- The naps of the workers with a role. -/
def napsOf (c : Config) (chance : Chance) (role : Role) (naps : List Nap) : List Nap :=
  naps.filter fun nap => plays c chance role nap.worker

/-- If one of two naps is a writer's, the earlier one is over when the other begins. -/
def Apart (c : Config) (chance : Chance) (earlier later : Nap) : Prop :=
  plays c chance .writer earlier.worker ∨ plays c chance .writer later.worker →
    earlier.stop ≤ later.start

/-! ## Lengths and covers -/

theorem mem_cover {naps : List Nap} {moment : Nat} :
    moment ∈ cover naps ↔ ∃ nap ∈ naps, moment ∈ nap.span := by
  induction naps with
  | nil => simp [cover]
  | cons nap naps ih =>
      rw [cover, List.foldr_cons, Finset.mem_union]
      exact (or_congr_right ih).trans (by simp)

theorem cover_cons (nap : Nap) (naps : List Nap) : cover (nap :: naps) = nap.span ∪ cover naps :=
  rfl

theorem card_cover_le (naps : List Nap) : (cover naps).card ≤ total naps := by
  induction naps with
  | nil => rfl
  | cons nap naps ih =>
      have hunion := Finset.card_union_le nap.span (cover naps)
      rw [nap.card_span] at hunion
      rw [cover_cons, total, List.map_cons, List.sum_cons]
      exact hunion.trans (Nat.add_le_add_left ih _)

theorem disjoint_span {earlier later : Nap} (hover : earlier.stop ≤ later.start) :
    Disjoint earlier.span later.span := by
  rw [Finset.disjoint_left]
  intro moment hearlier hlater
  rw [Nap.mem_span] at hearlier hlater
  omega

/-- Naps one after the other take as long as all of them together. -/
theorem card_cover_of_pairwise {naps : List Nap}
    (hnaps : naps.Pairwise fun earlier later => earlier.stop ≤ later.start) :
    (cover naps).card = total naps := by
  induction naps with
  | nil => rfl
  | cons nap naps ih =>
      obtain ⟨hfirst, hothers⟩ := List.pairwise_cons.mp hnaps
      have hdisjoint : Disjoint nap.span (cover naps) := by
        rw [Finset.disjoint_right]
        intro moment hcovered
        obtain ⟨other, hother, hmoment⟩ := mem_cover.mp hcovered
        exact Finset.disjoint_right.mp (disjoint_span (hfirst other hother)) hmoment
      rw [cover_cons, Finset.card_union_of_disjoint hdisjoint, nap.card_span, ih hothers, total,
        total, List.map_cons, List.sum_cons]

theorem not_plays_both {worker : Nat} (hreader : plays c chance .reader worker)
    (hwriter : plays c chance .writer worker) : False := by
  simp only [plays, decide_eq_true_eq] at hreader hwriter
  rw [hreader] at hwriter
  cases hwriter

theorem cover_roles {naps : List Nap}
    (hroles : ∀ nap ∈ naps, ∃ role, plays c chance role nap.worker) :
    cover naps = cover (napsOf c chance .writer naps) ∪ cover (napsOf c chance .reader naps) := by
  ext moment
  simp only [Finset.mem_union, mem_cover, napsOf, List.mem_filter]
  constructor
  · rintro ⟨nap, hnap, hmoment⟩
    obtain ⟨role, hrole⟩ := hroles nap hnap
    cases role with
    | writer => exact .inl ⟨nap, ⟨hnap, hrole⟩, hmoment⟩
    | reader => exact .inr ⟨nap, ⟨hnap, hrole⟩, hmoment⟩
  · rintro (⟨nap, ⟨hnap, _⟩, hmoment⟩ | ⟨nap, ⟨hnap, _⟩, hmoment⟩) <;> exact ⟨nap, hnap, hmoment⟩

/-- Of a writer's nap and a reader's, whichever comes first is over before the other begins. -/
theorem disjoint_roles {naps : List Nap} (hapart : naps.Pairwise (Apart c chance)) :
    Disjoint (cover (napsOf c chance .writer naps)) (cover (napsOf c chance .reader naps)) := by
  let Beside : Nap → Nap → Prop := fun a b =>
    plays c chance .writer a.worker ∨ plays c chance .writer b.worker → Disjoint a.span b.span
  have hsymmetric : Std.Symm Beside := ⟨fun _ _ hbeside hwriter => (hbeside hwriter.symm).symm⟩
  have hbeside : naps.Pairwise Beside :=
    hapart.imp (fun hapart hwriter => disjoint_span (hapart hwriter))
  rw [Finset.disjoint_left]
  intro moment hwriter hreader
  simp only [mem_cover, napsOf, List.mem_filter] at hwriter hreader
  obtain ⟨writer, ⟨hwriter, hplays⟩, hmoment⟩ := hwriter
  obtain ⟨reader, ⟨hreader, hreads⟩, hsame⟩ := hreader
  have hne : writer ≠ reader := by
    rintro rfl
    exact not_plays_both hreads hplays
  have hdisjoint := hbeside.forall hwriter hreader hne (.inl hplays)
  exact Finset.disjoint_left.mp hdisjoint hmoment hsame

/-- The time of naps of which the writers' are apart from all others. -/
theorem card_cover_of_apart {naps : List Nap} (hapart : naps.Pairwise (Apart c chance))
    (hroles : ∀ nap ∈ naps, ∃ role, plays c chance role nap.worker) :
    (cover naps).card =
      total (napsOf c chance .writer naps) + (cover (napsOf c chance .reader naps)).card := by
  have hwriters : (napsOf c chance .writer naps).Pairwise
      fun earlier later => earlier.stop ≤ later.start := by
    rw [napsOf, List.pairwise_filter]
    refine hapart.imp ?_
    intro earlier later hapart hearlier _
    exact hapart (.inl hearlier)
  rw [cover_roles hroles, Finset.card_union_of_disjoint (disjoint_roles hapart),
    card_cover_of_pairwise hwriters]

/-! ## Time on the way -/

theorem nap?_ofNotes : OfNotes nap? := by
  intro event hevent
  cases event with
  | noted task note => exact absurd rfl (hevent task note)
  | _ => rfl

/-- The nap that a worker takes once it has entered, if its draw succeeds. -/
def nextNap? (c : Config) (draws : Draws) (worker : Nat) (site : Site) : Option Nap :=
  (draws site.draws).map fun draw =>
    { worker, start := site.clock, length := c.napLength draw }

theorem granted_nap (c : Config) (draws : Draws) (w : Worker) (site : Site) :
    naps ((w.granted c draws site).notes.map (.noted w.index)) =
        (nextNap? c draws w.index site).toList ∧
      (w.granted c draws site).shared.sleepers =
        site.sleepers ++ (nextNap? c draws w.index site).toList.map Nap.sleeper ∧
      (w.granted c draws site).shared.clock = site.clock ∧
      (nextNap? c draws w.index site ≠ none → (w.granted c draws site).own.napping = true ∧
        (w.granted c draws site).next = none) := by
  have hsleepers : (site.enter w.role).sleepers = site.sleepers := by
    cases hrole : w.role <;> rfl
  have hclock : (site.enter w.role).clock = site.clock := by
    cases hrole : w.role <;> rfl
  unfold Worker.granted nextNap?
  simp only
  cases hdraw : draws site.draws with
  | none =>
      refine ⟨rfl, ?_, hclock, by simp⟩
      simpa using hsleepers
  | some draw =>
      refine ⟨?_, ?_, hclock, fun _ => ⟨rfl, rfl⟩⟩
      · rw [hclock]
        rfl
      · simp [Nap.sleeper, Nap.stop, hsleepers, hclock]

/-- The naps so far against the clock and the sleepers. -/
structure Timed (c : Config) (chance : Chance) (m : State) : Prop where
  lengths : ∀ nap ∈ naps m.history.reverse,
    ∃ draw, nap.length = c.napLength draw
  roles : ∀ nap ∈ naps m.history.reverse, ∃ role, plays c chance role nap.worker
  apart : (naps m.history.reverse).Pairwise (Apart c chance)
  started : ∀ nap ∈ naps m.history.reverse, nap.start ≤ m.shared.clock
  ended : ∀ nap ∈ naps m.history.reverse,
    nap.stop ≤ m.shared.clock ∨ nap.sleeper ∈ m.shared.sleepers
  asleep : ∀ sleeper ∈ m.shared.sleepers, m.shared.clock ≤ sleeper.wakeAt ∧
    (∃ nap ∈ naps m.history.reverse, nap.sleeper = sleeper) ∧
    ∃ t, m.tasks[sleeper.worker]? = some t ∧ t.point = .outside ∧ t.own.napping = true
  covered : ∀ moment < m.shared.clock, moment ∈ cover (naps m.history.reverse)

theorem start_timed (c : Config) (chance : Chance) : Timed c chance (start c chance) := by
  constructor <;> simp [start, naps]

/-- A sleeper has no turn on the machine. -/
theorem Reaches.not_asleep (hm : Reaches c chance m) {task : Nat} {t : Task Worker}
    (hrunning : m.running = some task) (htask : m.tasks[task]? = some t) {sleeper : Sleeper}
    (hsleeper : sleeper ∈ m.shared.sleepers) : sleeper.worker ≠ task := by
  rintro rfl
  have hcount := hm.booked.lt_owed hrunning htask
  have hnaps : 0 < (nappers m.shared).count sleeper.worker :=
    List.count_pos_iff.mpr (List.mem_map_of_mem hsleeper)
  have hone : t.own.owed t.point ≤ 1 := by
    unfold Worker.owed
    split
    · split <;> omega
    · exact le_rfl
  omega

/-- A worker that enters beside a sleeper reads, and so does the sleeper. -/
theorem Reaches.reads_beside (hm : Reaches c chance m) (htimed : Timed c chance m) {task : Nat}
    {t : Task Worker} (htask : m.tasks[task]? = some t) {lock : Lock} {wait : Wait}
    (hlooks : m.lock.Looks t.point lock wait) (hchannel : wait.channel = .released)
    (henters : ¬ lock.Blocks wait) {sleeper : Sleeper} (hsleeper : sleeper ∈ m.shared.sleepers) :
    plays c chance .reader task ∧ plays c chance .reader sleeper.worker := by
  obtain ⟨_, _, u, hu, houtside, hnaps⟩ := htimed.asleep sleeper hsleeper
  have hholds : 0 < u.own.holds u.point u.own.role.mode := by
    simp [Worker.holds, Worker.inside, houtside, hnaps]
  have hheld := hm.balanced.release?_isSome hu hholds
  have hmode : wait.mode = t.own.role.mode := by
    cases (hm.fits t (List.mem_of_getElem? htask)).of_looks hlooks with
    | waits hmode hawake hleft hsound => exact hmode
  have hshared := hlooks.shared_of_enters hm.balanced.accounts.group hheld hchannel henters
  rw [hmode] at hshared
  have hreader : ∀ role : Role, role.mode = .shared → role = .reader := by
    intro role hrole
    cases role with
    | reader => rfl
    | writer => cases hrole
  have hrole := (hm.placed.place task t htask).2
  have hother := (hm.placed.place sleeper.worker u hu).2
  rw [hreader t.own.role hshared.2] at hrole
  rw [hreader u.own.role hshared.1] at hother
  exact ⟨by simp [plays, hrole], by simp [plays, hother]⟩

namespace Timed

/-- A worker that is not asleep goes on without a nap. -/
theorem stays (hm : Timed c chance m) {task : Nat} {u : Task Worker}
    (hawake : ∀ sleeper ∈ m.shared.sleepers, sleeper.worker ≠ task)
    (htasks : next.tasks = m.tasks.set task u) (hclock : next.shared.clock = m.shared.clock)
    (hsleepers : next.shared.sleepers = m.shared.sleepers)
    (hnaps : naps next.history.reverse = naps m.history.reverse) : Timed c chance next := by
  constructor
  case asleep =>
    intro sleeper hsleeper
    rw [hsleepers] at hsleeper
    obtain ⟨hlate, hnap, hasleep⟩ := hm.asleep sleeper hsleeper
    rw [hclock, hnaps, htasks, List.getElem?_set_ne (Ne.symm (hawake sleeper hsleeper))]
    exact ⟨hlate, hnap, hasleep⟩
  all_goals rw [hnaps]
  case lengths => exact hm.lengths
  case roles => exact hm.roles
  case apart => exact hm.apart
  case started =>
    rw [hclock]
    exact hm.started
  case ended =>
    rw [hclock, hsleepers]
    exact hm.ended
  case covered =>
    rw [hclock]
    exact hm.covered

theorem falls_asleep (hm : Timed c chance m) {nap : Nap} {t u : Task Worker}
    (htask : m.tasks[nap.worker]? = some t)
    (hrole : ∃ role, plays c chance role nap.worker) (hstart : nap.start = m.shared.clock)
    (hlength : ∃ draw, nap.length = c.napLength draw)
    (hbeside : ∀ sleeper ∈ m.shared.sleepers, sleeper.worker ≠ nap.worker ∧
      plays c chance .reader nap.worker ∧ plays c chance .reader sleeper.worker)
    (htasks : next.tasks = m.tasks.set nap.worker u)
    (hnaps : u.point = .outside ∧ u.own.napping = true)
    (hclock : next.shared.clock = m.shared.clock)
    (hsleepers : next.shared.sleepers = m.shared.sleepers ++ [nap.sleeper])
    (hgrown : naps next.history.reverse = naps m.history.reverse ++ [nap]) :
    Timed c chance next := by
  have hmem : ∀ other, other ∈ naps next.history.reverse ↔
      other ∈ naps m.history.reverse ∨ other = nap := by
    intro other
    rw [hgrown, List.mem_append, List.mem_singleton]
  constructor
  case lengths =>
    intro other hother
    rcases (hmem other).mp hother with hother | rfl
    · exact hm.lengths other hother
    · exact hlength
  case roles =>
    intro other hother
    rcases (hmem other).mp hother with hother | rfl
    · exact hm.roles other hother
    · exact hrole
  case apart =>
    rw [hgrown, List.pairwise_append]
    refine ⟨hm.apart, List.pairwise_singleton _ _, ?_⟩
    intro other hother last hlast hwriter
    obtain rfl := List.mem_singleton.mp hlast
    rcases hm.ended other hother with hover | hasleep
    · exact hover.trans_eq hstart.symm
    · -- who still naps is a reader, and so is the worker that has entered
      obtain ⟨_, hreader, hother⟩ := hbeside _ hasleep
      rcases hwriter with hwriter | hwriter
      · exact (not_plays_both hother hwriter).elim
      · exact (not_plays_both hreader hwriter).elim
  case started =>
    intro other hother
    rw [hclock]
    rcases (hmem other).mp hother with hother | rfl
    · exact hm.started other hother
    · exact hstart.le
  case ended =>
    intro other hother
    rw [hclock, hsleepers, List.mem_append, List.mem_singleton]
    rcases (hmem other).mp hother with hother | rfl
    · exact (hm.ended other hother).imp_right .inl
    · exact .inr (.inr rfl)
  case asleep =>
    intro sleeper hsleeper
    rw [hsleepers, List.mem_append, List.mem_singleton] at hsleeper
    rw [hclock, htasks]
    rcases hsleeper with hsleeper | rfl
    · obtain ⟨hlate, ⟨earlier, hearlier, rfl⟩, hasleep⟩ := hm.asleep sleeper hsleeper
      rw [List.getElem?_set_ne (Ne.symm (hbeside _ hsleeper).1)]
      exact ⟨hlate, ⟨earlier, (hmem earlier).mpr (.inl hearlier), rfl⟩, hasleep⟩
    · have hlt := (List.getElem?_eq_some_iff.mp htask).1
      refine ⟨?_, ⟨nap, (hmem nap).mpr (.inr rfl), rfl⟩, u, ?_, hnaps⟩
      · rw [← hstart]
        exact Nat.le_add_right _ _
      · exact List.getElem?_set_self hlt
  case covered =>
    intro moment hmoment
    rw [hclock] at hmoment
    obtain ⟨other, hother, hspan⟩ := mem_cover.mp (hm.covered moment hmoment)
    exact mem_cover.mpr ⟨other, (hmem other).mpr (.inl hother), hspan⟩

/-- A worker enters, and naps if its draw succeeds. -/
theorem enters (hm : Timed c chance m) (hreached : Reaches c chance m) {task : Nat}
    {t : Task Worker} (hrunning : m.running = some task) (htask : m.tasks[task]? = some t)
    {lock : Lock} {wait : Wait} (hlooks : m.lock.Looks t.point lock wait)
    (hchannel : wait.channel = .released) (henters : ¬ lock.Blocks wait)
    (htasks : next.tasks = m.tasks.set task
      ⟨(t.own.granted c chance.draws m.shared).point, (t.own.granted c chance.draws m.shared).own⟩)
    (hshared : next.shared = (t.own.granted c chance.draws m.shared).shared)
    (hnapped : naps next.history.reverse = naps m.history.reverse ++
      naps ((t.own.granted c chance.draws m.shared).notes.map (.noted task))) :
    Timed c chance next := by
  have hawake : ∀ sleeper ∈ m.shared.sleepers, sleeper.worker ≠ task :=
    fun _ hsleeper => hreached.not_asleep hrunning htask hsleeper
  obtain ⟨hindex, hrole⟩ := hreached.placed.place task t htask
  obtain ⟨hnoted, hsleepers, hclock, hasleep⟩ := granted_nap c chance.draws t.own m.shared
  rw [hindex] at hnoted hsleepers hasleep
  rw [hnoted] at hnapped
  rw [← hshared] at hsleepers hclock
  cases hnap : nextNap? c chance.draws task m.shared with
  | none =>
      rw [hnap] at hnapped hsleepers
      exact hm.stays hawake htasks hclock (hsleepers.trans (List.append_nil _))
        (hnapped.trans (List.append_nil _))
  | some nap =>
      rw [hnap] at hnapped hsleepers
      obtain ⟨hnaps, hnext⟩ := hasleep (by simp [hnap])
      have hrests : (t.own.granted c chance.draws m.shared).point = .outside := by
        simp [Reaction.point, hnext]
      have hplays : ∃ role, plays c chance role task := ⟨t.own.role, by simp [plays, hrole]⟩
      obtain ⟨draw, _, rfl⟩ := Option.map_eq_some_iff.mp hnap
      refine hm.falls_asleep htask hplays rfl ⟨draw, rfl⟩ ?_ htasks ⟨hrests, hnaps⟩ hclock hsleepers
        hnapped
      intro sleeper hsleeper
      exact ⟨hawake sleeper hsleeper,
        hreached.reads_beside hm htask hlooks hchannel henters hsleeper⟩

theorem act (hm : Timed c chance m) (hreached : Reaches c chance m) {task : Nat}
    {t : Task Worker} (hrunning : m.running = some task) (htask : m.tasks[task]? = some t) :
    Timed c chance (m.act (program c chance.draws) task t) := by
  cases hreached.moves htask with
  | stays htasks hshared hhistory hquiet hrole hpanicked hmade =>
      have hawake : ∀ sleeper ∈ m.shared.sleepers, sleeper.worker ≠ task :=
        fun _ hsleeper => hreached.not_asleep hrunning htask hsleeper
      exact hm.stays hawake htasks (congrArg Site.clock hshared) (congrArg Site.sleepers hshared)
        (nap?_ofNotes.stays hhistory hquiet)
  | enters hlooks hchannel henters htasks hshared hhistory hquiet =>
      exact hm.enters hreached hrunning htask hlooks hchannel henters htasks hshared
        (nap?_ofNotes.enters hhistory hquiet)

/-- The time passes to the first end of a nap, and until then that worker naps. -/
theorem roused (hm : Timed c chance m) {sleeper : Sleeper} (hsleeper : sleeper ∈ m.shared.sleepers)
    (hfirst : ∀ other ∈ m.shared.sleepers, sleeper.wakeAt ≤ other.wakeAt) :
    Timed c chance (roused m sleeper) := by
  obtain ⟨hlate, ⟨nap, hnap, rfl⟩, _⟩ := hm.asleep sleeper hsleeper
  constructor
  case lengths => exact hm.lengths
  case roles => exact hm.roles
  case apart => exact hm.apart
  case started => exact fun other hother => (hm.started other hother).trans hlate
  case ended =>
    intro other hother
    rcases hm.ended other hother with hover | hasleep
    · exact .inl (hover.trans hlate)
    · by_cases hsame : other.sleeper = nap.sleeper
      · exact .inl (congrArg Sleeper.wakeAt hsame).le
      · exact .inr ((List.mem_erase_of_ne hsame).mpr hasleep)
  case asleep =>
    intro other hother
    have hbefore := List.mem_of_mem_erase hother
    exact ⟨hfirst other hbefore, (hm.asleep other hbefore).2⟩
  case covered =>
    intro moment hmoment
    by_cases hpast : moment < m.shared.clock
    · exact hm.covered moment hpast
    · have hstarted := hm.started nap hnap
      exact mem_cover.mpr ⟨nap, hnap, Nap.mem_span.mpr ⟨by omega, hmoment⟩⟩

end Timed

theorem Reaches.timed (hm : Reaches c chance m) : Timed c chance m := by
  refine hm.keeps_earliest (start_timed c chance) ?_ ?_
  · intro m next hreached hm hstep
    rcases Machine.step_cases hstep with
      ⟨_, choice, _, rfl⟩ | ⟨_, _, _, rfl⟩ | ⟨task, t, hrunning, htask, rfl⟩
    · have hnaps : naps (m.begin choice).history.reverse = naps m.history.reverse :=
        nap?_ofNotes.begins m choice
      constructor <;> rw [hnaps]
      · exact hm.lengths
      · exact hm.roles
      · exact hm.apart
      · exact hm.started
      · exact hm.ended
      · exact hm.asleep
      · exact hm.covered
    · exact ⟨hm.lengths, hm.roles, hm.apart, hm.started, hm.ended, hm.asleep, hm.covered⟩
    · exact hm.act hreached hrunning htask
  · intro m sleeper hm _ _ hsleeper hfirst
    exact hm.roused hsleeper hfirst

/-! ## Time at the end -/

def Outcome.naps (o : Outcome) : List Nap :=
  Workload.naps o.events

theorem napLength_mem (hvalid : c.Valid) (draw : Nat) :
    c.minSleepMs ≤ c.napLength draw ∧ c.napLength draw < c.maxSleepMs := by
  have hrange := hvalid.2.2
  have hdraw := Nat.mod_lt draw (Nat.sub_pos_of_lt hrange)
  unfold Config.napLength
  omega

/-- At the end every nap is over, so the naps take up all the time and no more. -/
theorem finish_cover (c : Config) (chance : Chance) :
    cover (naps (finish c chance).history.reverse) =
      Finset.range (finish c chance).shared.clock := by
  have htimed := (reaches_finish c chance).timed
  ext moment
  rw [Finset.mem_range]
  constructor
  · intro hmoment
    obtain ⟨nap, hnap, hspan⟩ := mem_cover.mp hmoment
    rcases htimed.ended nap hnap with hover | hasleep
    · exact (Nap.mem_span.mp hspan).2.trans_le hover
    · rw [(finish_ended c chance).sleepers] at hasleep
      cases hasleep
  · exact htimed.covered moment

/-- The naps of a run make up its time. -/
structure SpentNapping (c : Config) (chance : Chance) : Prop where
  lengths : ∀ nap ∈ (run c chance).naps,
    c.minSleepMs ≤ nap.length ∧ nap.length < c.maxSleepMs
  roles : ∀ nap ∈ (run c chance).naps, ∃ role, plays c chance role nap.worker
  apart : (run c chance).naps.Pairwise (Apart c chance)
  elapsed : (run c chance).clock =
    total (napsOf c chance .writer (run c chance).naps) +
      (cover (napsOf c chance .reader (run c chance).naps)).card
  least : total (napsOf c chance .writer (run c chance).naps) ≤ (run c chance).clock
  most : (run c chance).clock ≤ total (run c chance).naps
  reported : ∀ report, (run c chance).result = .ok report →
    report.elapsed = .ofMilliseconds (run c chance).clock

theorem result_elapsed {report : Report} (hresult : result c m = .ok report) :
    report.elapsed = .ofMilliseconds m.shared.clock := by
  unfold result at hresult
  split at hresult
  · cases hresult
  · dsimp only at hresult
    split at hresult
    · cases hresult
      rfl
    · cases hresult

/-- A workload takes as long as its writers nap, and the time at which any reader naps. -/
theorem run_accounts_for_time (hvalid : c.Valid) (chance : Chance) : SpentNapping c chance := by
  have hclock : (run c chance).clock = (finish c chance).shared.clock := by
    rw [run_of_valid hvalid]
  have hnaps : (run c chance).naps = naps (finish c chance).history.reverse := by
    rw [Outcome.naps, run_of_valid hvalid]
  have htimed := (reaches_finish c chance).timed
  have hcover : (cover (run c chance).naps).card = (run c chance).clock := by
    rw [hnaps, finish_cover, Finset.card_range, hclock]
  have helapsed := card_cover_of_apart (hnaps ▸ htimed.apart) (hnaps ▸ htimed.roles)
  rw [hcover] at helapsed
  constructor
  case lengths =>
    intro nap hnap
    obtain ⟨draw, hlength⟩ := htimed.lengths nap (hnaps ▸ hnap)
    rw [hlength]
    exact napLength_mem hvalid draw
  case roles => exact hnaps ▸ htimed.roles
  case apart => exact hnaps ▸ htimed.apart
  case elapsed => exact helapsed
  case least => exact helapsed ▸ Nat.le_add_right _ _
  case most => exact hcover ▸ card_cover_le _
  case reported =>
    intro report hreport
    rw [run_result hvalid] at hreport
    rw [hclock]
    exact result_elapsed hreport

/-- A writer and two readers with one call each. -/
def threeThreads : Config := { threads := 3, writers := 1, readerLoops := 1, writerLoops := 1 }

/-- The readers nap at the same time, and not as long as each other. -/
def lateReader : Chance := { draws := Draws.cycle #[some 3, some 0, some 5] }

theorem run_accounts_for_time_threeThreads :
    SpentNapping threeThreads lateReader ∧ (run threeThreads lateReader).clock = 10 ∧
      (run threeThreads lateReader).naps = [⟨0, 0, 4⟩, ⟨1, 4, 1⟩, ⟨2, 4, 6⟩] :=
  ⟨run_accounts_for_time (by decide) lateReader, by decide, by decide⟩

end Workload

end ReaderWriter
