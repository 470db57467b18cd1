import Mathlib.Data.List.Induction
import ReaderWriter.Proofs.Script.Course

/-!
# What scripted tasks hold

Outside of raw style a task gives back only its innermost access, and what it holds grows with each
grant and shrinks with each release.  So its state stays sound: it keeps account of its accesses, it
was never handed a bare call of the lock, and the access that it is about to give back is its
innermost one.

In every style a task goes on only as often as `Hand.remaining` says.
-/

namespace ReaderWriter.Script

namespace Hand

structure Tracked (point : Point) (h : Hand) : Prop where
  tracked : h.holding ≠ .untracked
  command : ∀ call, h.command ≠ some (.call call)
  handed : ∀ call, h.handed ≠ some (.call call)
  innermost : ∀ mode, point = .before (.release mode) → h.holding.innermost? = some mode

/-- The task keeps account of its accesses, unless its style is raw. -/
def Fits (style : Style) (point : Point) (h : Hand) : Prop :=
  style ≠ .raw → h.Tracked point

end Hand

namespace Holding

theorem enter_ne_untracked {h : Holding} (htracked : h ≠ .untracked) (mode : Mode) :
    h.enter mode ≠ .untracked := by
  cases h with
  | untracked => exact absurd rfl htracked
  | _ => simp [enter]

theorem leave_ne_untracked {h : Holding} (htracked : h ≠ .untracked) : h.leave ≠ .untracked := by
  cases h with
  | untracked => exact absurd rfl htracked
  | _ => simp [leave]

theorem length_enter_le (h : Holding) (mode : Mode) :
    (h.enter mode).outermostFirst.length ≤ h.outermostFirst.length + 1 := by
  cases h <;> simp [enter, outermostFirst]

theorem length_leave (h : Holding) :
    h.leave.outermostFirst.length = h.outermostFirst.length - 1 := by
  rw [outermostFirst_leave, List.length_dropLast]

theorem length_pos_of_innermost {h : Holding} {mode : Mode} (hmode : h.innermost? = some mode) :
    0 < h.outermostFirst.length := by
  rw [innermost?_eq_getLast?] at hmode
  exact List.length_pos_of_mem (List.mem_of_getLast? hmode)

end Holding

namespace Hand

theorem finish_tracked {h : Hand} {point : Point} (htracked : h.Tracked point) (data : List Int)
    (notes : List Note) :
    (h.finish data notes).own.Tracked (h.finish data notes).point := by
  constructor
  · exact htracked.tracked
  · simp [finish]
  · exact htracked.handed
  · simp [finish, Reaction.point]

theorem Tracked.relocate {h : Hand} {point target : Point} (htracked : h.Tracked point)
    (htarget : ∀ mode, target = .before (.release mode) → h.holding.innermost? = some mode) :
    h.Tracked target :=
  ⟨htracked.tracked, htracked.command, htracked.handed, htarget⟩

theorem unwind_tracked {h : Hand} {point : Point} (htracked : h.Tracked point) (message : String)
    (data : List Int) :
    (h.unwind message data).own.Tracked (h.unwind message data).point := by
  unfold unwind
  cases hmode : h.holding.innermost? with
  | none => exact finish_tracked htracked data _
  | some mode =>
      apply htracked.relocate
      intro other hother
      have hsame : mode = other := by simpa [Reaction.point] using hother
      rw [← hsame]
      exact hmode

theorem resume_tracked {h : Hand} (htracked : h.Tracked .outside) (data : List Int) :
    (h.resume data).own.Tracked (h.resume data).point := by
  have hbegun : ({ h with command := h.handed, handed := none } : Hand).Tracked .outside := by
    constructor
    · exact htracked.tracked
    · exact htracked.handed
    · simp
    · simp
  cases hhanded : h.handed with
  | none =>
      rw [hhanded] at hbegun
      simpa [resume, hhanded] using finish_tracked hbegun data []
  | some command =>
      rw [hhanded] at hbegun
      cases command with
      | call call => exact absurd hhanded (htracked.handed call)
      | get => simpa [resume, hhanded] using finish_tracked hbegun data _
      | push value => simpa [resume, hhanded] using finish_tracked hbegun _ _
      | clear => simpa [resume, hhanded] using finish_tracked hbegun _ _
      | panic message => simpa [resume, hhanded] using unwind_tracked hbegun message data
      | enter mode =>
          simp only [resume, hhanded]
          apply hbegun.relocate
          simp [Reaction.point]
      | leave value =>
          cases hmode : h.holding.innermost? with
          | none => simpa [resume, hhanded, hmode] using finish_tracked hbegun data []
          | some mode =>
              simp only [resume, hhanded, hmode]
              apply hbegun.relocate
              intro other hother
              have hsame : mode = other := by simpa [Reaction.point] using hother
              rw [← hsame]
              exact hmode

theorem granted_tracked {h : Hand} {point : Point} (htracked : h.Tracked point) (mode : Mode)
    (data : List Int) : (granted mode h data).own.Tracked (granted mode h data).point := by
  have hentered : ({ h with holding := h.holding.enter mode } : Hand).Tracked .outside := by
    constructor
    · exact Holding.enter_ne_untracked htracked.tracked mode
    · exact htracked.command
    · exact htracked.handed
    · simp
  unfold granted
  split
  · exact finish_tracked htracked data _
  · exact finish_tracked hentered data _

theorem released_tracked {h : Hand} {point : Point} (htracked : h.Tracked point) (mode : Mode)
    (data : List Int) : (released mode h data).own.Tracked (released mode h data).point := by
  have hleft : ({ h with holding := h.holding.leave } : Hand).Tracked .outside := by
    constructor
    · exact Holding.leave_ne_untracked htracked.tracked
    · exact htracked.command
    · exact htracked.handed
    · simp
  unfold released
  simp only
  split
  · exact finish_tracked hleft data _
  · exact unwind_tracked hleft _ data
  · exact finish_tracked htracked data _
  · exact finish_tracked hleft data _

/-! ## How often a task goes on -/

/-- A panic gives back at most what the task holds. -/
theorem unwind_remaining (h : Hand) (message : String) (data : List Int) :
    remaining (h.unwind message data).point (h.unwind message data).own +
        (h.unwind message data).next.toList.length ≤
      h.holding.outermostFirst.length + 2 +
        if h.handed.isSome then h.holding.outermostFirst.length + 3 else 0 := by
  obtain ⟨holding, command, handed⟩ := h
  cases hmode : holding.innermost? with
  | none => cases handed <;> simp [unwind, hmode, finish, Reaction.point, remaining]
  | some mode =>
      cases handed with
      | none => simp [unwind, hmode, Reaction.point, remaining]
      | some later =>
          simp only [unwind, hmode, Reaction.point, remaining, Option.isSome_some, if_true,
            Option.toList_some, List.length_singleton]
          omega

theorem resume_remaining (h : Hand) (data : List Int) :
    remaining (h.resume data).point (h.resume data).own + (h.resume data).next.toList.length ≤
      remaining .outside h := by
  obtain ⟨holding, command, handed⟩ := h
  cases handed with
  | none => simp [resume, finish, Reaction.point, remaining]
  | some command =>
      cases command with
      | panic message => exact unwind_remaining ⟨holding, some (.panic message), none⟩ message data
      | leave value =>
          cases hmode : holding.innermost? <;>
            simp [resume, hmode, finish, Reaction.point, remaining]
      | _ => simp [resume, finish, Reaction.point, remaining]

theorem granted_remaining (h : Hand) (mode : Mode) (wait : Wait) (data : List Int) :
    remaining (granted mode h data).point (granted mode h data).own +
        (granted mode h data).next.toList.length ≤ remaining (.waiting wait) h := by
  obtain ⟨holding, command, handed⟩ := h
  have henter := holding.length_enter_le mode
  unfold granted
  split
  · cases handed <;> simp [finish, Reaction.point, remaining]
  · cases handed with
    | none => simp [finish, Reaction.point, remaining]
    | some later =>
        simp [finish, Reaction.point, remaining]
        omega

/-- A panic goes on to the next access only if there is one. -/
theorem unwind_remaining_lt (h : Hand) (message : String) (data : List Int) (mode : Mode) :
    remaining (unwind { h with holding := h.holding.leave } message data).point
        (unwind { h with holding := h.holding.leave } message data).own <
      remaining (.before (.release mode)) h := by
  obtain ⟨holding, command, handed⟩ := h
  have hleave := holding.length_leave
  cases hmode : holding.leave.innermost? with
  | none =>
      cases handed with
      | none => simp [unwind, hmode, finish, Reaction.point, remaining]
      | some later =>
          simp only [unwind, hmode, finish, Reaction.point, remaining, Option.isSome_some, if_true]
          omega
  | some next =>
      have hpos := Holding.length_pos_of_innermost hmode
      cases handed <;> simp [unwind, hmode, Reaction.point, remaining] <;> omega

theorem released_remaining (h : Hand) (mode : Mode) (data : List Int) :
    remaining (released mode h data).point (released mode h data).own <
      remaining (.before (.release mode)) h := by
  obtain ⟨holding, command, handed⟩ := h
  have hleave := holding.length_leave
  have hleft : remaining .outside ⟨holding.leave, none, handed⟩ <
      remaining (.before (.release mode)) ⟨holding, command, handed⟩ := by
    cases handed with
    | none => simp [remaining]
    | some later =>
        simp only [remaining, Option.isSome_some, if_true]
        omega
  have hkept : remaining .outside ⟨holding, none, handed⟩ <
      remaining (.before (.release mode)) ⟨holding, command, handed⟩ := by
    cases handed with
    | none => simp [remaining]
    | some later =>
        simp only [remaining, Option.isSome_some, if_true]
        omega
  unfold released
  simp only
  split
  · exact hleft
  · exact unwind_remaining_lt ⟨holding, _, handed⟩ _ data mode
  · exact hkept
  · exact hleft

theorem misused_remaining (h : Hand) (mode : Mode) (data : List Int) :
    remaining (misused mode h data).point (misused mode h data).own +
        (misused mode h data).next.toList.length ≤ remaining (.before (.release mode)) h := by
  obtain ⟨holding, command, handed⟩ := h
  cases handed with
  | none => simp [misused, finish, Reaction.point, remaining]
  | some later =>
      simp only [misused, finish, Reaction.point, remaining, Option.isSome_some, if_true,
        Option.toList_none, List.length_nil]
      omega

end Hand

theorem program_descends (style : Style) : program.Descends (Hand.Fits style) := by
  constructor
  · intro own data hown
    exact ⟨fun htracks => Hand.resume_tracked (hown htracks) data,
      Hand.resume_remaining own data⟩
  · intro own wait hown
    refine ⟨fun htracks => (hown htracks).relocate (by simp), ?_⟩
    simp [program, Hand.remaining]
  · intro own ticket hown
    exact ⟨fun htracks => (hown htracks).relocate (by simp), le_rfl⟩
  · intro own data wait hown
    exact ⟨fun htracks => Hand.granted_tracked (hown htracks) wait.mode data,
      Hand.granted_remaining own wait.mode wait data⟩
  · intro own data mode hown
    exact ⟨fun htracks => Hand.released_tracked (hown htracks) mode data,
      Hand.released_remaining own mode data⟩
  · intro own data mode hown
    exact ⟨fun htracks => Hand.finish_tracked (hown htracks) data _,
      Hand.misused_remaining own mode data⟩

/-! ## States in the course of a script -/

theorem hand_fits {s : Script} {m next : State} {name : String} {command? : Option Command}
    (hfits : m.Sound (Hand.Fits s.style)) (hhand : s.hand m name command? = .ok next) :
    next.Sound (Hand.Fits s.style) := by
  obtain ⟨index, t, command, _, _, htask, _, _, hobjection, rfl⟩ := hand_eq_ok_iff.mp hhand
  apply hfits.set index
  intro hstyle
  have htracked := hfits t (List.mem_of_getElem? htask) hstyle
  constructor
  · exact htracked.tracked
  · exact htracked.command
  · rintro call hcall
    obtain rfl : command = .call call := by simpa using hcall
    cases hcase : s.style with
    | raw => exact hstyle hcase
    | _ => simp [hcase, Command.objection?] at hobjection
  · exact htracked.innermost

theorem start_fits (s : Script) : s.start.Sound (Hand.Fits s.style) := by
  intro t ht
  obtain ⟨name, _, rfl⟩ : ∃ name ∈ s.names, _ = t := List.mem_map.mp ht
  intro hstyle
  constructor
  · cases hcase : s.style with
    | raw => exact absurd hcase hstyle
    | _ => simp [Holding.empty]
  · simp
  · simp
  · simp

theorem Reaches.fits {s : Script} {m : State} (hm : s.Reaches m) :
    m.Sound (Hand.Fits s.style) := by
  refine hm.keeps ?_ ?_ s.start_fits ?_
  · intro m next name command? hfits hhand
    exact hand_fits hfits hhand
  · intro m next name hfits hwake
    obtain ⟨index, _, rfl⟩ := wake_cases hwake
    exact hfits
  · intro m next hfits hmoves
    exact (hfits.step (program_descends s.style) hmoves).1

theorem reaches_giveOut (s : Script) (steps : List Step) (step : Step) :
    s.Reaches (s.giveOut (s.after steps) step).1 :=
  ⟨steps, step, 0, rfl⟩

/-- Every step comes to its end. -/
theorem after_rest (s : Script) (steps : List Step) :
    (s.after steps).running = none ∧ (s.after steps).ready = [] := by
  induction steps using List.reverseRecOn with
  | nil => exact ⟨rfl, rfl⟩
  | append_singleton steps step _ =>
      rw [after_append_singleton]
      have hfits := (s.reaches_giveOut steps step).fits
      exact hfits.settleDown (program_descends s.style)

theorem step_after_eq_none (s : Script) (steps : List Step) : (s.after steps).step program = none :=
  (Machine.step_eq_none_iff program _).mpr (s.after_rest steps)

/-- What holds when the orders of a step are given out and what every move keeps. -/
theorem midway_keeps {s : Script} {steps : List Step} {step : Step} {P : State → Prop}
    (hgiven : P (s.giveOut (s.after steps) step).1)
    (hmove : ∀ later next, s.Reaches later → P later → later.step program = some next → P next)
    (moves : Nat) : P (s.midway steps step moves) := by
  have hboth : s.Reaches (s.midway steps step moves) ∧ P (s.midway steps step moves) :=
    iterate_keeps (P := fun later => s.Reaches later ∧ P later)
      (fun later next hlater hstep =>
        ⟨hlater.1.step hstep, hmove later next hlater.1 hlater.2 hstep⟩)
      moves ⟨s.reaches_giveOut steps step, hgiven⟩
  exact hboth.2

/-- The tasks come to rest however many moves were already made. -/
theorem iterate_midway (s : Script) (steps : List Step) (step : Step) (moves : Nat) :
    ∃ more, iterate (Machine.step program) more (s.midway steps step moves) =
      s.after (steps ++ [step]) := by
  refine ⟨(s.giveOut (s.after steps) step).1.work program, ?_⟩
  have hend := s.midway_work steps step
  unfold midway at hend ⊢
  rw [← iterate_add, Nat.add_comm, iterate_add, hend]
  exact iterate_of_eq_none (s.step_after_eq_none _) moves

/-- Where the tasks come to rest in a step, the step ends. -/
theorem after_eq_of_midway {s : Script} {steps : List Step} {step : Step} {m : State} (moves : Nat)
    (hmidway : s.midway steps step moves = m) (hrest : m.running = none ∧ m.ready = []) :
    s.after (steps ++ [step]) = m := by
  have hends := s.step_after_eq_none (steps ++ [step])
  have hstops : (s.midway steps step moves).step program = none := by
    rw [hmidway]
    exact (Machine.step_eq_none_iff program m).mpr hrest
  rw [after_append_singleton] at hends ⊢
  exact (iterate_eq_of_eq_none hends hstops).trans hmidway

end ReaderWriter.Script
