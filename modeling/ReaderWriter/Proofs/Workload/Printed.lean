import Mathlib.Data.List.Basic
import ReaderWriter.Proofs.Number.Durations
import ReaderWriter.Workload.Report

/-!
# Reports that are read back

A report is four lines, and none of the texts in it has a line end of its own.  So the lines can be
told apart, and the policy, the numbers of calls, the counter and the elapsed time are read off
them, whatever the means are.
-/

namespace ReaderWriter.Workload

open Number

/-! ## Texts without line ends -/

theorem isDigit_of_mem_toString {n : Nat} {c : Char} (hc : c ∈ (toString n).toList) : c.isDigit :=
  (digitsOf_toString n).isDigit c hc

theorem mem_hundredthsText {hundredths : Nat} {c : Char}
    (hc : c ∈ (hundredthsText hundredths).toList) : c.isDigit ∨ c = '.' := by
  unfold hundredthsText at hc
  simp only [String.toList_append, List.mem_append] at hc
  rcases hc with ((hc | hc) | hc) | hc
  · exact .inl (isDigit_of_mem_toString hc)
  · exact .inr (by simpa using hc)
  · exact .inl (isDigit_of_mem_toString hc)
  · exact .inl (isDigit_of_mem_toString hc)

theorem mem_durationText {d : Duration} {c : Char} (hc : c ∈ d.text.toList) :
    c.isDigit ∨ c ∈ ['.', 'n', 'µ', 'm', 's'] := by
  rw [Duration.text, String.toList_append, List.mem_append] at hc
  rcases hc with hc | hc
  · exact (mem_hundredthsText hc).imp_right (by rintro rfl; decide)
  · right
    revert hc
    cases d.unit <;> simp [TimeUnit.symbol] <;> rintro (rfl | rfl) <;> simp

theorem lineEnd_not_mem_twoPlaces (x : Double) : '\n' ∉ x.twoPlaces.toList := by
  have hsign : ∀ negative, '\n' ∉ (Double.sign negative).toList := by decide
  cases x with
  | nan => decide
  | infinite negative => simp [Double.twoPlaces, hsign]
  | finite negative significand exponent =>
      simp only [Double.twoPlaces, String.toList_append, List.mem_append, hsign, false_or]
      intro hmem
      rcases mem_hundredthsText hmem with hdigit | hpoint
      · exact absurd hdigit (by decide)
      · exact absurd hpoint (by decide)

theorem Report.lineEnd_not_mem_lines (r : Report) :
    ∀ line ∈ r.lines r.elapsed.text, '\n' ∉ line.toList := by
  have hname : '\n' ∉ r.policy.name.toList := by cases r.policy <;> decide
  have hnumber : ∀ n : Nat, '\n' ∉ (toString n).toList :=
    fun n hmem => absurd (isDigit_of_mem_toString hmem) (by decide)
  have helapsed : '\n' ∉ r.elapsed.text.toList := by
    intro hmem
    rcases mem_durationText hmem with hdigit | hsymbol
    · exact absurd hdigit (by decide)
    · exact absurd hsymbol (by decide)
  intro line hline
  simp only [Report.lines, List.mem_cons, List.not_mem_nil, or_false] at hline
  rcases hline with rfl | rfl | rfl | rfl <;>
    simp only [Report.roleLine, String.toList_append, List.mem_append, hname, helapsed, hnumber,
      lineEnd_not_mem_twoPlaces, false_or, or_false] <;> decide

/-! ## Reading a report -/

/-- What can be told from a report. -/
structure Reading where
  policy : Policy
  readerCalls : Nat
  writerCalls : Nat
  finalCounter : Nat
  elapsed : String
  deriving DecidableEq, Repr

namespace Reading

def word? (digits : List Char) : Option Nat :=
  (readNatural (UInt64.size - 1) (String.ofList digits)).toOption

/-- A name, and a text between brackets. -/
def policyLine? (line : List Char) : Option (Policy × String) :=
  match line.dropWhile (· != ' ') with
  | ' ' :: '(' :: rest =>
    (Policy.ofName? (String.ofList (line.takeWhile (· != ' ')))).map fun policy =>
      (policy, String.ofList rest.dropLast)
  | _ => none

/-- The number of calls, which ends at a comma. -/
def roleLine? (role : String) (line : List Char) : Option Nat :=
  (("  " ++ role ++ " n: ").toList.isPrefixOf? line).bind fun rest =>
    word? (rest.takeWhile (· != ','))

def counterLine? (line : List Char) : Option Nat :=
  ("  data: ".toList.isPrefixOf? line).bind word?

def ofText? (text : String) : Option Reading :=
  match text.toList.splitOn '\n' with
  | [first, second, third, fourth, []] => do
    let (policy, elapsed) ← policyLine? first
    let readerCalls ← roleLine? "reader" second
    let writerCalls ← roleLine? "writer" third
    let finalCounter ← counterLine? fourth
    some { policy, readerCalls, writerCalls, finalCounter, elapsed }
  | _ => none

theorem word?_toString (n : UInt64) : word? (toString n.toNat).toList = some n.toNat := by
  have hread : readNatural (UInt64.size - 1) (toString n.toNat) = .ok n.toNat :=
    readNatural_of_numeral (numeralOf_toString _) (Nat.le_sub_one_of_lt n.toNat_lt)
  rw [word?, String.ofList_toList, hread]
  rfl

theorem policyLine?_eq (policy : Policy) (elapsed : String) :
    policyLine? (policy.name ++ " (" ++ elapsed ++ ")").toList = some (policy, elapsed) := by
  have hname : ∀ c ∈ policy.name.toList, (c != ' ') = true :=
    List.all_eq_true.mp (by cases policy <;> decide)
  have hline : (policy.name ++ " (" ++ elapsed ++ ")").toList =
      policy.name.toList ++ ' ' :: '(' :: (elapsed.toList ++ [')']) := by simp
  rw [policyLine?, hline, List.takeWhile_append_of_pos hname, List.dropWhile_append_of_pos hname]
  simp [Policy.ofName?_name]

theorem roleLine?_eq (role : String) (calls : UInt64) (mean : Float) :
    roleLine? role (Report.roleLine role calls mean).toList = some calls.toNat := by
  have hdigits : ∀ c ∈ (toString calls.toNat).toList, (c != ',') = true := by
    intro c hc
    have hdigit := isDigit_of_mem_toString hc
    simp only [bne_iff_ne, ne_eq]
    rintro rfl
    exact absurd hdigit (by decide)
  have hline : (Report.roleLine role calls mean).toList = ("  " ++ role ++ " n: ").toList ++
      ((toString calls.toNat).toList ++
        ',' :: (" avg order: ".toList ++ (Double.ofFloat mean).twoPlaces.toList)) := by
    simp [Report.roleLine]
  rw [roleLine?, hline, List.isPrefixOf?_eq_some_iff_append_eq.mpr rfl, Option.bind_some,
    List.takeWhile_append_of_pos hdigits, List.takeWhile_cons_of_neg (by decide), List.append_nil,
    word?_toString]

theorem counterLine?_eq (n : UInt64) :
    counterLine? ("  data: " ++ toString n.toNat).toList = some n.toNat := by
  rw [counterLine?, String.toList_append, List.isPrefixOf?_eq_some_iff_append_eq.mpr rfl,
    Option.bind_some, word?_toString]

end Reading

/-- The lines of a report, and nothing behind its last line end. -/
theorem Report.splitOn_text (r : Report) :
    r.text.toList.splitOn '\n' = (r.lines r.elapsed.text).map String.toList ++ [[]] := by
  have htext : r.text.toList =
      ['\n'].intercalate ((r.lines r.elapsed.text).map String.toList ++ [[]]) := by
    simp [Report.text, Report.lines, String.join]
  rw [htext, List.splitOn_intercalate]
  · intro line hline
    rcases List.mem_append.mp hline with hline | hline
    · obtain ⟨text, htext, rfl⟩ := List.mem_map.mp hline
      exact r.lineEnd_not_mem_lines text htext
    · simp [List.mem_singleton.mp hline]
  · simp

theorem ofText?_text (r : Report) : Reading.ofText? r.text = some
    { policy := r.policy
      readerCalls := r.readerCalls.toNat
      writerCalls := r.writerCalls.toNat
      finalCounter := r.finalCounter.toNat
      elapsed := r.elapsed.text } := by
  have hlines := r.splitOn_text
  unfold Reading.ofText?
  rw [hlines]
  simp only [Report.lines, List.map_cons, List.map_nil, List.cons_append, List.nil_append,
    Reading.policyLine?_eq, Reading.roleLine?_eq, Reading.counterLine?_eq]
  rfl

/-! ## What can be trusted -/

/-- What a report says of its time. -/
def Reading.time? (reading : Reading) : Option Shown :=
  Shown.ofText? reading.elapsed

/-- What was measured can be told from the report, the time as exactly as its unit shows it. -/
structure ReadsBack (r : Report) : Prop where
  recovered : Reading.ofText? r.text = some
    { policy := r.policy
      readerCalls := r.readerCalls.toNat
      writerCalls := r.writerCalls.toNat
      finalCounter := r.finalCounter.toNat
      elapsed := r.elapsed.text }
  /-- The time is off by at most half a hundredth of its unit. -/
  close : ∃ shown, ((Reading.ofText? r.text).bind Reading.time?) = some shown ∧
    |shown.nanoseconds - r.elapsed.nanoseconds| ≤ (shown.unit.size : ℚ) / 200
  /-- And no report of a longer run shows less. -/
  monotone : ∀ later : Report, r.elapsed.nanoseconds ≤ later.elapsed.nanoseconds →
    ∃ shown shown', ((Reading.ofText? r.text).bind Reading.time?) = some shown ∧
      ((Reading.ofText? later.text).bind Reading.time?) = some shown' ∧
      shown.nanoseconds ≤ shown'.nanoseconds

theorem time?_text (r : Report) :
    ((Reading.ofText? r.text).bind Reading.time?) = some r.elapsed.shown := by
  rw [ofText?_text, Option.bind_some, Reading.time?, Duration.ofText?_text]

theorem report_reads_back (r : Report) : ReadsBack r := by
  constructor
  case recovered => exact ofText?_text r
  case close => exact ⟨_, time?_text r, r.elapsed.abs_shown_sub_le⟩
  case monotone =>
    intro later hle
    exact ⟨_, _, time?_text r, time?_text later, Duration.shown_mono hle⟩

end ReaderWriter.Workload
