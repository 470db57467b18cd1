import ReaderWriter.Proofs.Workload.Outcome

/-!
# The order of the calls

A call takes the next position, counts itself in the tally of its role, and changes the counter or
looks at it, all in the section that lets it enter.  So the calls of a run form one line: each has
its place in the order of entry as its position, and a reader sees the number of writers that
entered before it.

Positions, counter and tallies are 64-bit words.  A word is the place, the number of writers or the
sum that it stands for modulo `2 ^ 64`, and is the same as it as long as nothing wraps.
-/

namespace ReaderWriter.Workload

variable {c : Config} {chance : Chance} {m next : State}

/-! ## Visits -/

/-- What a call notes when it enters. -/
structure Visit where
  role : Role
  position : UInt64
  value : UInt64
  deriving DecidableEq, Repr

def visit? : Event Note → Option Visit
  | .noted _ (.entered role position value) => some { role, position, value }
  | _ => none

/-- The calls in the order in which they entered. -/
def visits (events : List (Event Note)) : List Visit :=
  events.filterMap visit?

def callsBy (role : Role) (visits : List Visit) : Nat :=
  visits.countP (·.role = role)

/-- The places of the calls of a role, counted from zero. -/
def places (role : Role) (visits : List Visit) : List Nat :=
  (visits.zipIdx.filter (·.1.role = role)).map (·.2)

theorem visit?_ofNotes : OfNotes visit? := by
  intro event hevent
  cases event with
  | noted task note => exact absurd rfl (hevent task note)
  | _ => rfl

theorem callsBy_append_singleton (role : Role) (visits : List Visit) (v : Visit) :
    callsBy role (visits ++ [v]) = callsBy role visits + if v.role = role then 1 else 0 := by
  simp [callsBy, List.countP_append, List.countP_singleton]

theorem callsBy_le_length (role : Role) (visits : List Visit) :
    callsBy role visits ≤ visits.length :=
  List.countP_le_length

theorem places_append_singleton (role : Role) (visits : List Visit) (v : Visit) :
    places role (visits ++ [v]) =
      places role visits ++ if v.role = role then [visits.length] else [] := by
  unfold places
  rw [List.zipIdx_append, List.filter_append, List.map_append, Nat.zero_add]
  by_cases hrole : v.role = role <;> simp [hrole]

/-! ## Sums of places -/

/-- The places of both roles together are all places. -/
theorem sum_places_add (visits : List Visit) :
    (places .reader visits).sum + (places .writer visits).sum =
      visits.length * (visits.length - 1) / 2 := by
  induction visits using List.reverseRecOn with
  | nil => rfl
  | append_singleton visits v ih =>
      have hlast : (places .reader (visits ++ [v])).sum + (places .writer (visits ++ [v])).sum =
          (places .reader visits).sum + (places .writer visits).sum + visits.length := by
        rw [places_append_singleton, places_append_singleton]
        cases hrole : v.role <;> simp <;> omega
      rw [hlast, ih, List.length_append, List.length_singleton, Nat.triangle_succ]

/-- The places of a role are different, so their sum is at least that of the first places. -/
theorem le_sum_places (role : Role) (visits : List Visit) :
    callsBy role visits * (callsBy role visits - 1) / 2 ≤ (places role visits).sum := by
  induction visits using List.reverseRecOn with
  | nil => simp [callsBy]
  | append_singleton visits v ih =>
      have hbound := callsBy_le_length role visits
      rw [callsBy_append_singleton, places_append_singleton]
      by_cases hrole : v.role = role
      · rw [if_pos hrole, if_pos hrole, Nat.triangle_succ, List.sum_append, List.sum_singleton]
        omega
      · rw [if_neg hrole, if_neg hrole, Nat.add_zero, List.append_nil]
        exact ih

/-- And it is at most that of the last places. -/
theorem sum_places_le (role : Role) (visits : List Visit) :
    (places role visits).sum + callsBy role visits * (callsBy role visits - 1) / 2 ≤
      callsBy role visits * (visits.length - 1) := by
  induction visits using List.reverseRecOn with
  | nil => simp [callsBy, places]
  | append_singleton visits v ih =>
      have hbound := callsBy_le_length role visits
      have hfull : callsBy role visits * (visits.length - 1) + callsBy role visits =
          callsBy role visits * visits.length := by
        cases hlength : visits.length with
        | zero => omega
        | succ length => rw [Nat.add_sub_cancel, Nat.mul_succ]
      rw [callsBy_append_singleton, places_append_singleton, List.length_append,
        List.length_singleton, Nat.add_sub_cancel]
      by_cases hrole : v.role = role
      · rw [if_pos hrole, if_pos hrole, Nat.triangle_succ, List.sum_append, List.sum_singleton,
          Nat.succ_mul]
        omega
      · rw [if_neg hrole, if_neg hrole, Nat.add_zero, List.append_nil]
        omega

/-! ## The line of the calls -/

/-- The site agrees with the calls that have entered. -/
structure Sequenced (visits : List Visit) (site : Site) : Prop where
  nextPosition : site.nextPosition = .ofNat visits.length
  counter : site.counter = .ofNat (callsBy .writer visits)
  tallies : ∀ role, site.tally role =
    { calls := .ofNat (callsBy role visits), positionSum := .ofNat (places role visits).sum }
  /-- A call has its place as its position, and sees the writers up to itself. -/
  entered : ∀ (place : Nat) (v : Visit), visits[place]? = some v →
    v.position = .ofNat place ∧ v.value = .ofNat (callsBy .writer (visits.take (place + 1)))

/-- What a call notes that enters a site. -/
def Site.visit (site : Site) (role : Role) : Visit where
  role
  position := site.nextPosition
  value := (site.enter role).counter

theorem start_sequenced : Sequenced [] {} := by
  refine ⟨rfl, rfl, ?_, ?_⟩
  · intro role
    cases role <;> rfl
  · intro place v hvisit
    simp at hvisit

namespace Sequenced

variable {visits : List Visit} {site later : Site}

/-- Naps and the clock do not matter. -/
theorem congr (hsequenced : Sequenced visits site)
    (hposition : later.nextPosition = site.nextPosition) (hcounter : later.counter = site.counter)
    (hreaders : later.readers = site.readers) (hwriters : later.writers = site.writers) :
    Sequenced visits later := by
  refine ⟨hposition.trans hsequenced.nextPosition, hcounter.trans hsequenced.counter, ?_,
    hsequenced.entered⟩
  intro role
  rw [← hsequenced.tallies role]
  cases role with
  | reader => exact hreaders
  | writer => exact hwriters

theorem enter_counter (hsequenced : Sequenced visits site) (role : Role) :
    (site.enter role).counter = .ofNat (callsBy .writer (visits ++ [site.visit role])) := by
  rw [callsBy_append_singleton, UInt64.ofNat_add, ← hsequenced.counter]
  cases role with
  | reader => exact (UInt64.add_zero _).symm
  | writer => rfl

theorem enter_tally (hsequenced : Sequenced visits site) (role other : Role) :
    (site.enter role).tally other =
      { calls := .ofNat (callsBy other (visits ++ [site.visit role]))
        positionSum := .ofNat (places other (visits ++ [site.visit role])).sum } := by
  have hbefore := hsequenced.tallies other
  have hrole : (site.visit role).role = role := rfl
  rw [callsBy_append_singleton, places_append_singleton, hrole]
  by_cases hsame : role = other
  · subst hsame
    have hself : (site.enter role).tally role = (site.tally role).record site.nextPosition := by
      cases role <;> rfl
    rw [hself, hbefore, hsequenced.nextPosition]
    simp [Tally.record]
  · have hother : (site.enter role).tally other = site.tally other := by
      cases role <;> cases other <;> first | rfl | exact absurd rfl hsame
    rw [hother, hbefore]
    simp [hsame]

/-- A call enters, and takes the next place. -/
theorem enter (hsequenced : Sequenced visits site) (role : Role) :
    Sequenced (visits ++ [site.visit role]) (site.enter role) := by
  refine ⟨?_, hsequenced.enter_counter role, hsequenced.enter_tally role, ?_⟩
  · have hposition : (site.enter role).nextPosition = site.nextPosition + 1 := by
      cases role <;> rfl
    rw [hposition, hsequenced.nextPosition, List.length_append, UInt64.ofNat_add]
    rfl
  · intro place v hvisit
    rcases Nat.lt_trichotomy place visits.length with hbefore | rfl | hbeyond
    · rw [List.getElem?_append_left hbefore] at hvisit
      rw [List.take_append_of_le_length hbefore]
      exact hsequenced.entered place v hvisit
    · obtain rfl : site.visit role = v := by simpa using hvisit
      refine ⟨hsequenced.nextPosition, ?_⟩
      rw [List.take_of_length_le (by simp)]
      exact hsequenced.enter_counter role
    · rw [List.getElem?_eq_none (by simpa [Nat.succ_le_iff] using hbeyond)] at hvisit
      contradiction

end Sequenced

/-! ## The line of a run -/

theorem visits_granted (c : Config) (draws : Draws) (w : Worker) (site : Site) (task : Nat) :
    visits ((w.granted c draws site).notes.map (.noted task)) = [site.visit w.role] := by
  unfold Worker.granted
  simp only
  split <;> rfl

theorem granted_nextPosition (c : Config) (draws : Draws) (w : Worker) (site : Site) :
    (w.granted c draws site).shared.nextPosition = (site.enter w.role).nextPosition := by
  unfold Worker.granted
  simp only
  split <;> rfl

/-- The calls of a machine, the first one first. -/
def lineOf (m : State) : List Visit :=
  visits m.history.reverse

/-- A worker that goes on enters with its role, or nobody enters and the site stays as it is. -/
theorem Sequenced.act (hm : Sequenced (lineOf m) m.shared) (hreached : Reaches c chance m)
    {task : Nat} {t : Task Worker} (htask : m.tasks[task]? = some t) :
    Sequenced (lineOf (m.act (program c chance.draws) task t))
      (m.act (program c chance.draws) task t).shared := by
  have hmoves := hreached.moves htask
  generalize m.act (program c chance.draws) task t = next at hmoves ⊢
  cases hmoves with
  | stays htasks hshared hhistory hquiet hrole hpanicked hmade =>
      have hline : lineOf next = lineOf m := visit?_ofNotes.stays hhistory hquiet
      rw [hline, hshared]
      exact hm
  | enters hlooks hchannel henters htasks hshared hhistory hquiet =>
      have hline : lineOf next = lineOf m ++ [m.shared.visit t.own.role] :=
        (visit?_ofNotes.enters hhistory hquiet).trans
          (congrArg (_ ++ ·) (visits_granted c chance.draws t.own m.shared task))
      obtain ⟨_, hcounter, hreaders, hwriters⟩ := granted_site c chance.draws t.own m.shared
      have hposition := granted_nextPosition c chance.draws t.own m.shared
      rw [hline, hshared]
      exact (hm.enter t.own.role).congr hposition hcounter hreaders hwriters

theorem Reaches.sequenced (hm : Reaches c chance m) : Sequenced (lineOf m) m.shared := by
  refine hm.keeps (P := fun m => Sequenced (lineOf m) m.shared) start_sequenced ?_ ?_
  · intro m next hreached hm hstep
    rcases Machine.step_cases hstep with
      ⟨_, choice, _, rfl⟩ | ⟨_, _, _, rfl⟩ | ⟨task, t, _, htask, rfl⟩
    · have hline : lineOf (m.begin choice) = lineOf m := visit?_ofNotes.begins m choice
      exact hline ▸ hm
    · exact hm
    · exact hm.act hreached htask
  · intro m sleeper hm _ _ _
    exact hm.congr rfl rfl rfl rfl

/-! ## What the line says -/

/-- As long as there are words for all places, positions and values are exact. -/
structure Unwrapped (visits : List Visit) (site : Site) : Prop where
  once : visits.map (·.position.toNat) = List.range visits.length
  /-- A reader sees the writers whose positions lie below its own. -/
  seen : ∀ v ∈ visits, v.role = .reader → v.value.toNat =
    visits.countP fun other => other.role = .writer ∧ other.position < v.position
  ascending : ((visits.filter (·.role = .reader)).map (·.value.toNat)).Pairwise (· ≤ ·)
  /-- And so is the sum of a role that fits into a word. -/
  sums : ∀ role, ((visits.filter (·.role = role)).map (·.position.toNat)).sum < 2 ^ 64 →
    (site.tally role).positionSum.toNat =
        ((visits.filter (·.role = role)).map (·.position.toNat)).sum ∧
      callsBy role visits * (callsBy role visits - 1) / 2 ≤ (site.tally role).positionSum.toNat ∧
      (site.tally role).positionSum.toNat ≤ callsBy role visits * (visits.length - 1) -
        callsBy role visits * (callsBy role visits - 1) / 2

/-- The calls have the numbers from zero on as their positions, in the order of entry, and the site
agrees with them, all modulo the size of a word. -/
structure Linear (visits : List Visit) (site : Site) : Prop where
  counter : site.counter = site.writers.calls
  calls : ∀ role, (site.tally role).calls = .ofNat (callsBy role visits)
  positions : visits.map (·.position) = (List.range visits.length).map .ofNat
  values : ∀ (place : Nat) (v : Visit), visits[place]? = some v → v.role = .reader →
    v.value = .ofNat (callsBy .writer (visits.take place))
  total : site.readers.positionSum + site.writers.positionSum =
    .ofNat (visits.length * (visits.length - 1) / 2)
  unwrapped : visits.length ≤ 2 ^ 64 → Unwrapped visits site

theorem map_eq_map_range {α β : Type} {f : α → β} {g : Nat → β} {l : List α}
    (hsame : ∀ (i : Nat) (a : α), l[i]? = some a → f a = g i) :
    l.map f = (List.range l.length).map g := by
  apply List.ext_getElem
  · simp
  · intro i hi _
    rw [List.getElem_map, List.getElem_map, List.getElem_range]
    exact hsame i _ (List.getElem?_eq_getElem (by simpa using hi))

theorem map_filter_eq_map_places {α : Type} {f : Visit → α} {g : Nat → α} {role : Role}
    {visits : List Visit}
    (hsame : ∀ (place : Nat) (v : Visit), visits[place]? = some v → f v = g place) :
    (visits.filter (·.role = role)).map f = (places role visits).map g := by
  have hvisits : visits.filter (·.role = role) =
      (visits.zipIdx.filter (·.1.role = role)).map (·.1) := by
    conv_lhs => rw [← List.zipIdx_map_fst 0 visits, List.filter_map]
    rfl
  rw [hvisits, List.map_map, places, List.map_map]
  apply List.map_congr_left
  rintro ⟨v, place⟩ hmem
  exact hsame place v (List.mk_mem_zipIdx_iff_getElem?.mp (List.mem_of_mem_filter hmem))

namespace Sequenced

variable {visits : List Visit} {site : Site} (hsequenced : Sequenced visits site)
include hsequenced

theorem reader_value {place : Nat} {v : Visit} (hvisit : visits[place]? = some v)
    (hreader : v.role = .reader) : v.value = .ofNat (callsBy .writer (visits.take place)) := by
  rw [(hsequenced.entered place v hvisit).2, List.take_add_one, hvisit, Option.toList_some,
    callsBy_append_singleton, hreader]
  rfl

theorem position_toNat (hfits : visits.length ≤ 2 ^ 64) {place : Nat} {v : Visit}
    (hvisit : visits[place]? = some v) : v.position.toNat = place := by
  obtain ⟨hlt, _⟩ := List.getElem?_eq_some_iff.mp hvisit
  rw [(hsequenced.entered place v hvisit).1]
  exact UInt64.toNat_ofNat_of_lt' (hlt.trans_le hfits)

theorem value_toNat (hfits : visits.length ≤ 2 ^ 64) {place : Nat} {v : Visit}
    (hvisit : visits[place]? = some v) (hreader : v.role = .reader) :
    v.value.toNat = callsBy .writer (visits.take place) := by
  obtain ⟨hlt, _⟩ := List.getElem?_eq_some_iff.mp hvisit
  have hbound := callsBy_le_length .writer (visits.take place)
  rw [List.length_take_of_le hlt.le] at hbound
  rw [hsequenced.reader_value hvisit hreader]
  exact UInt64.toNat_ofNat_of_lt' (hbound.trans_lt (hlt.trans_le hfits))

/-- The calls with smaller positions are those that entered before. -/
theorem countP_before (hfits : visits.length ≤ 2 ^ 64) {place : Nat} {v : Visit}
    (hvisit : visits[place]? = some v) :
    (visits.countP fun other => other.role = .writer ∧ other.position < v.position) =
      callsBy .writer (visits.take place) := by
  have hplace := hsequenced.position_toNat hfits hvisit
  have hlt : ∀ (other : Nat) (u : Visit), visits[other]? = some u →
      (u.position < v.position ↔ other < place) := by
    intro other u hu
    rw [UInt64.lt_iff_toNat_lt, hplace, hsequenced.position_toNat hfits hu]
  have hbefore : ((visits.take place).countP fun other =>
      other.role = .writer ∧ other.position < v.position) =
        callsBy .writer (visits.take place) := by
    apply List.countP_congr
    intro u hu
    obtain ⟨other, hother⟩ := List.mem_iff_getElem?.mp hu
    rw [List.getElem?_take] at hother
    split at hother
    · next hless => simp [(hlt other u hother).mpr hless]
    · contradiction
  have hbehind : ((visits.drop place).countP fun other =>
      other.role = .writer ∧ other.position < v.position) = 0 := by
    rw [List.countP_eq_zero]
    intro u hu
    obtain ⟨other, hother⟩ := List.mem_iff_getElem?.mp hu
    rw [List.getElem?_drop] at hother
    simp [hlt (place + other) u hother]
  rw [← List.take_append_drop place visits, List.countP_append, List.take_append_drop, hbefore,
    hbehind, Nat.add_zero]

/-- The positions of a role are its places. -/
theorem positions_eq_places (hfits : visits.length ≤ 2 ^ 64) (role : Role) :
    (visits.filter (·.role = role)).map (·.position.toNat) = places role visits := by
  rw [map_filter_eq_map_places fun place v hvisit => hsequenced.position_toNat hfits hvisit,
    List.map_id']

theorem ascending (hfits : visits.length ≤ 2 ^ 64) :
    ((visits.filter (·.role = .reader)).map (·.value.toNat)).Pairwise (· ≤ ·) := by
  rw [List.pairwise_map, List.pairwise_filter, List.pairwise_iff_getElem]
  intro first second hfirst hsecond hless hearlier hlater
  have hvalue := hsequenced.value_toNat hfits (List.getElem?_eq_getElem hfirst)
    (by simpa using hearlier)
  have hother := hsequenced.value_toNat hfits (List.getElem?_eq_getElem hsecond)
    (by simpa using hlater)
  rw [hvalue, hother]
  exact (List.take_sublist_take_left hless.le).countP_le

theorem unwrapped (hfits : visits.length ≤ 2 ^ 64) : Unwrapped visits site := by
  refine ⟨?_, ?_, hsequenced.ascending hfits, ?_⟩
  · rw [map_eq_map_range fun place v hvisit => hsequenced.position_toNat hfits hvisit, List.map_id']
  · intro v hv hreader
    obtain ⟨place, hvisit⟩ := List.mem_iff_getElem?.mp hv
    rw [hsequenced.value_toNat hfits hvisit hreader, hsequenced.countP_before hfits hvisit]
  · intro role hsum
    have hleast := le_sum_places role visits
    have hmost := sum_places_le role visits
    rw [hsequenced.positions_eq_places hfits] at hsum ⊢
    have hexact : (site.tally role).positionSum.toNat = (places role visits).sum := by
      rw [hsequenced.tallies]
      exact UInt64.toNat_ofNat_of_lt' hsum
    refine ⟨hexact, ?_, ?_⟩ <;> omega

theorem linear : Linear visits site := by
  have htally := hsequenced.tallies
  constructor
  case counter => exact hsequenced.counter.trans (congrArg Tally.calls (htally .writer)).symm
  case calls => exact fun role => congrArg Tally.calls (htally role)
  case positions =>
    exact map_eq_map_range fun place v hvisit => (hsequenced.entered place v hvisit).1
  case values => exact fun place v hvisit hreader => hsequenced.reader_value hvisit hreader
  case total =>
    rw [← sum_places_add, UInt64.ofNat_add]
    have hreaders := congrArg Tally.positionSum (htally .reader)
    have hwriters := congrArg Tally.positionSum (htally .writer)
    exact congrArg₂ (· + ·) hreaders hwriters
  case unwrapped => exact hsequenced.unwrapped

end Sequenced

/-! ## What is logged and reported -/

/-- Each call that entered is one of a worker with its role. -/
def Played (c : Config) (chance : Chance) (events : List (Event Note)) : Prop :=
  ∀ task role position value, .noted task (.entered role position value) ∈ events →
    (roles c chance.swaps)[task]? = some role

theorem Played.append_quiet {events earlier : List (Event Note)}
    (hplayed : Played c chance earlier) (hquiet : Quiet events) :
    Played c chance (events ++ earlier) := by
  intro task role position value hmem
  rcases List.mem_append.mp hmem with hevent | hold
  · exact absurd hevent (hquiet task _)
  · exact hplayed task role position value hold

theorem granted_role {draws : Draws} {w : Worker} {site : Site} {role : Role}
    {position value : UInt64}
    (hentered : .entered role position value ∈ (w.granted c draws site).notes) : role = w.role := by
  unfold Worker.granted at hentered
  simp only at hentered
  split at hentered <;> simp_all

theorem Reaches.played (hm : Reaches c chance m) : Played c chance m.history := by
  refine hm.keeps (P := fun m => Played c chance m.history) ?_ ?_ ?_
  · intro task role position value hmem
    simp [start] at hmem
  · intro m next hreached hm hstep
    rcases Machine.step_cases hstep with
      ⟨_, choice, _, rfl⟩ | ⟨_, _, _, rfl⟩ | ⟨task, t, _, htask, rfl⟩
    · have hquiet : Quiet [.turn choice.task] := by simp
      exact hm.append_quiet hquiet
    · exact hm
    · have hmoves := hreached.moves htask
      generalize m.act (program c chance.draws) task t = next at hmoves ⊢
      cases hmoves with
      | stays htasks hshared hhistory hquiet hrole hpanicked hmade =>
          rw [hhistory]
          exact hm.append_quiet hquiet
      | enters hlooks hchannel henters htasks hshared hhistory hquiet =>
          rw [hhistory, List.append_assoc]
          intro caller role position value hmem
          rcases List.mem_append.mp hmem with hnoted | hold
          · obtain ⟨note, hnote, hsame⟩ := List.mem_map.mp (List.mem_reverse.mp hnoted)
            obtain ⟨rfl, rfl⟩ : task = caller ∧ note = .entered role position value := by
              simpa using hsame
            rw [granted_role hnote]
            exact (hreached.placed.place task t htask).2
          · exact hm.append_quiet hquiet caller role position value hold
  · intro m sleeper hm _ _ _
    exact hm

/-- A call with the number of its worker. -/
def numbered? : Event Note → Option (Nat × Visit)
  | .noted task (.entered role position value) => some (task, { role, position, value })
  | _ => none

theorem zip_callers_visits (events : List (Event Note)) :
    (callers events).zip (visits events) = events.filterMap numbered? := by
  induction events with
  | nil => rfl
  | cons event events ih =>
      cases event with
      | noted task note =>
          cases note with
          | entered role position value => exact congrArg _ ih
          | _ => exact ih
      | _ => exact ih

theorem ofTrace_ne_read (trace : Trace) : (Log.ofTrace trace).message ≠ "read" := by
  cases trace <;> simp [Log.ofTrace]

/-- Only readers log what they see, each when it enters. -/
theorem Outcome.filter_read_entries {o : Outcome}
    (hnamed : ∀ task position value, .noted task (.entered .reader position value) ∈ o.events →
      (o.workers.map Worker.name).toArray.getD task "" = "reader-" ++ toString task) :
    o.workerEntries.filter (·.record.message = "read") =
      (((callers o.events).zip (visits o.events)).filter (·.2.role = .reader)).map fun call =>
        { thread := "reader-" ++ toString call.1, record := readRecord call.2.value } := by
  rw [zip_callers_visits, List.filter_filterMap, List.map_filterMap]
  unfold Outcome.workerEntries
  rw [List.filter_filterMap]
  apply List.filterMap_congr
  intro event hevent
  cases event with
  | traced task trace => simp [record?, numbered?, ofTrace_ne_read]
  | noted task note =>
      cases note with
      | entered role position value =>
          cases role with
          | reader =>
              have hthread := hnamed task position value hevent
              simp only [record?, numbered?, Option.map_some, Event.task, hthread]
              rfl
          | writer => simp [record?, numbered?]
      | _ => rfl
  | _ => rfl

theorem readRecord_brief (thread : String) (value : UInt64) :
    (Log.Entry.mk thread (readRecord value)).brief =
      thread ++ " debug: read value=" ++ toString value.toNat := by
  apply String.toList_injective
  simp [readRecord, Log.Entry.brief, Log.Record.body, Log.Level.name, Log.Value.render]

/-- Whoever looked at the counter is known as a reader with its number. -/
theorem run_reader_named (hvalid : c.Valid) (task : Nat) (position value : UInt64)
    (hevent : .noted task (.entered .reader position value) ∈ (run c chance).events) :
    ((run c chance).workers.map Worker.name).toArray.getD task "" =
      "reader-" ++ toString task := by
  have hreached := reaches_finish c chance
  rw [run_of_valid hvalid] at hevent
  have hrole := hreached.played task .reader position value (List.mem_reverse.mp hevent)
  obtain ⟨hlt, _⟩ := List.getElem?_eq_some_iff.mp hrole
  have htask := List.getElem?_eq_getElem (hreached.placed.tasks_length ▸ hlt)
  obtain ⟨hindex, hplace⟩ := hreached.placed.place task _ htask
  have hreader := Option.some.inj (hplace.symm.trans hrole)
  rw [run_workers hvalid, Array.getD_eq_getD_getElem?, List.getElem?_toArray, List.map_map,
    List.getElem?_map, htask]
  simp [Worker.name, hindex, hreader, Role.word]

theorem result_ne_lostUpdate (c : Config) (chance : Chance) (expected actual : Nat) :
    result c (finish c chance) ≠ .error (.lostUpdate expected actual) := by
  cases hpanicked : panicked (finish c chance) with
  | nil =>
      obtain ⟨report, hreport, _⟩ := result_of_sound hpanicked
      simp [hreport]
  | cons w behind =>
      have hfailed := result_of_panicked (c := c) (m := finish c chance) (w := w)
        (by rw [hpanicked, List.head?_cons])
      simp [hfailed]

/-- The calls of a run form one line, on the way as well as at the end. -/
structure Linearized (c : Config) (chance : Chance) : Prop where
  throughout : ∀ m, Reaches c chance m → Linear (lineOf m) m.shared
  ended : Linear (visits (run c chance).events) (finish c chance).shared
  /-- Each reader logs what it saw, and nothing else is logged so. -/
  logged : (run c chance).workerEntries.filter (·.record.message = "read") =
    (((callers (run c chance).events).zip (visits (run c chance).events)).filter
        (·.2.role = .reader)).map fun call =>
      { thread := "reader-" ++ toString call.1
        record :=
          { level := .debug
            target := "rw_fairness::workload"
            message := "read"
            fields := [("value", .number call.2.value.toNat)] } }
  /-- These entries, one line each. -/
  lines : ((run c chance).workerEntries.filter (·.record.message = "read")).map Log.Entry.brief =
    (((callers (run c chance).events).zip (visits (run c chance).events)).filter
        (·.2.role = .reader)).map fun call =>
      "reader-" ++ toString call.1 ++ " debug: read value=" ++ toString call.2.value.toNat
  kept : ∀ expected actual, (run c chance).result ≠ .error (.lostUpdate expected actual)

/-- Whatever the schedule and the draws are, the calls take the numbers from zero on as their
positions, and the counter, the tallies and the log agree with that order. -/
theorem calls_linearized (hvalid : c.Valid) (chance : Chance) : Linearized c chance := by
  have hevents : (run c chance).events = (finish c chance).history.reverse := by
    rw [run_of_valid hvalid]
  constructor
  case throughout => exact fun m hm => hm.sequenced.linear
  case ended =>
    rw [hevents]
    exact (reaches_finish c chance).sequenced.linear
  case logged => exact Outcome.filter_read_entries (run_reader_named hvalid)
  case lines =>
    rw [Outcome.filter_read_entries (run_reader_named hvalid), List.map_map]
    exact List.map_congr_left fun call _ =>
      readRecord_brief ("reader-" ++ toString call.1) call.2.value
  case kept =>
    rw [run_result hvalid]
    exact result_ne_lostUpdate c chance

theorem calls_linearized_twoThreads :
    twoThreads.Valid ∧
      (visits (run twoThreads secondFails).events).map (·.position.toNat) = [0, 1, 2] := by
  have hvalid : twoThreads.Valid := by decide
  have hcalls : (visits (run twoThreads secondFails).events).length = 3 := by decide
  have honce := ((calls_linearized hvalid secondFails).ended.unwrapped (by omega)).once
  rw [hcalls] at honce
  exact ⟨hvalid, honce⟩

end ReaderWriter.Workload
