import Mathlib.Data.List.Nodup
import ReaderWriter.Command.Arguments
import ReaderWriter.Proofs.Number.Numerals

/-!
# What the arguments ask for

A flag is given with its value behind `=` or in an argument of its own.  Flags that are given at
most once, with values in range, are read as the settings that they are: each replaces the default
of its flag and no other, whatever the order and the spelling.  So every configuration in range can
be asked for, and without flags the command runs the standard workload under every policy.
-/

namespace ReaderWriter.Command

open Number Workload

/-! ## Settings -/

/-- A flag with a value. -/
inductive Setting where
  | policy (policy : Policy)
  | threads (n : Nat)
  | writers (n : Nat)
  | readerLoops (n : Nat)
  | writerLoops (n : Nat)
  | minSleepMs (n : Nat)
  | maxSleepMs (n : Nat)
  deriving DecidableEq, Repr

namespace Setting

def flag : Setting → Flag
  | .policy _ => .policy
  | .threads _ => .threads
  | .writers _ => .writers
  | .readerLoops _ => .readerLoops
  | .writerLoops _ => .writerLoops
  | .minSleepMs _ => .minSleepMs
  | .maxSleepMs _ => .maxSleepMs

/-- The value is one that the flag can take. -/
def InRange : Setting → Prop
  | .policy _ => True
  | .threads n | .writers n | .minSleepMs n | .maxSleepMs n => n ≤ maxWord
  | .readerLoops n | .writerLoops n => n ≤ maxLoops

instance : DecidablePred InRange
  | .policy _ => .isTrue trivial
  | .threads n | .writers n | .minSleepMs n | .maxSleepMs n => n.decLe maxWord
  | .readerLoops n | .writerLoops n => n.decLe maxLoops

/-- The text says the value. -/
def SaidBy (text : String) : Setting → Prop
  | .policy p => text = p.name
  | .threads n | .writers n | .readerLoops n | .writerLoops n | .minSleepMs n | .maxSleepMs n =>
    NumeralOf text n

/-- The shortest text that says the value. -/
def text : Setting → String
  | .policy p => p.name
  | .threads n | .writers n | .readerLoops n | .writerLoops n | .minSleepMs n | .maxSleepMs n =>
    toString n

theorem saidBy_text (s : Setting) : s.SaidBy s.text := by
  cases s with
  | policy policy => rfl
  | _ n => exact numeralOf_toString n

/-- What a configuration has for a flag. -/
def ofConfig (c : Config) : Flag → Setting
  | .policy => .policy c.policy
  | .threads => .threads c.threads
  | .writers => .writers c.writers
  | .readerLoops => .readerLoops c.readerLoops
  | .writerLoops => .writerLoops c.writerLoops
  | .minSleepMs => .minSleepMs c.minSleepMs
  | .maxSleepMs => .maxSleepMs c.maxSleepMs

@[simp] theorem flag_ofConfig (c : Config) (flag : Flag) : (ofConfig c flag).flag = flag := by
  cases flag <;> rfl

/-- A configuration is known by what it has for the flags. -/
theorem eq_of_ofConfig {c d : Config} (hsame : ∀ flag, ofConfig c flag = ofConfig d flag) :
    c = d := by
  obtain ⟨policy, threads, writers, readerLoops, writerLoops, minSleepMs, maxSleepMs⟩ := c
  have hfields := And.intro (hsame .policy) <| And.intro (hsame .threads) <|
    And.intro (hsame .writers) <| And.intro (hsame .readerLoops) <|
    And.intro (hsame .writerLoops) <| And.intro (hsame .minSleepMs) (hsame .maxSleepMs)
  simp only [ofConfig, Setting.policy.injEq, Setting.threads.injEq, Setting.writers.injEq,
    Setting.readerLoops.injEq, Setting.writerLoops.injEq, Setting.minSleepMs.injEq,
    Setting.maxSleepMs.injEq] at hfields
  obtain ⟨rfl, rfl, rfl, rfl, rfl, rfl, rfl⟩ := hfields
  rfl

theorem readWord_eq_ok {text : String} {n : Nat} (hnumeral : NumeralOf text n) (hn : n ≤ maxWord) :
    readWord text = .ok n := by
  rw [readWord, readNatural_of_numeral hnumeral hn]
  rfl

theorem readLoops_eq_ok {text : String} {n : Nat} (hnumeral : NumeralOf text n)
    (hn : n ≤ maxLoops) : readLoops text = .ok n := by
  have hfits : n ≤ UInt64.size / 2 - 1 := Nat.le_trans hn (by decide)
  have hrange : 0 ≤ (n : Int) ∧ (n : Int) ≤ maxLoops := by omega
  rw [readLoops, readInteger_of_numeral hnumeral hfits]
  simp only [if_pos hrange]
  rfl

/-- No value begins with a dash, so none is taken for an option. -/
theorem SaidBy.head?_ne_dash {s : Setting} {text : String} (hsaid : s.SaidBy text) :
    text.toList.head? ≠ some '-' := by
  cases s with
  | policy policy =>
      rw [show text = policy.name from hsaid]
      cases policy <;> decide
  | _ => exact NumeralOf.head?_ne_dash hsaid

end Setting

/-! ## Arguments by flag -/

namespace Arguments

def set (a : Arguments) : Setting → Arguments
  | .policy policy => { a with policy := some policy }
  | .threads n => { a with threads := some n }
  | .writers n => { a with writers := some n }
  | .readerLoops n => { a with readerLoops := some n }
  | .writerLoops n => { a with writerLoops := some n }
  | .minSleepMs n => { a with minSleepMs := some n }
  | .maxSleepMs n => { a with maxSleepMs := some n }

def setting? (a : Arguments) : Flag → Option Setting
  | .policy => a.policy.map .policy
  | .threads => a.threads.map .threads
  | .writers => a.writers.map .writers
  | .readerLoops => a.readerLoops.map .readerLoops
  | .writerLoops => a.writerLoops.map .writerLoops
  | .minSleepMs => a.minSleepMs.map .minSleepMs
  | .maxSleepMs => a.maxSleepMs.map .maxSleepMs

@[simp] theorem setting?_empty (flag : Flag) : ({} : Arguments).setting? flag = none := by
  cases flag <;> rfl

@[simp] theorem setting?_set_self (a : Arguments) (s : Setting) :
    (a.set s).setting? s.flag = some s := by
  cases s <;> rfl

theorem setting?_set_of_ne (a : Arguments) {s : Setting} {flag : Flag} (hother : s.flag ≠ flag) :
    (a.set s).setting? flag = a.setting? flag := by
  cases s <;> cases flag <;> first | rfl | exact absurd rfl hother

theorem has_eq_isSome (a : Arguments) (flag : Flag) : a.has flag = (a.setting? flag).isSome := by
  cases flag <;> simp [has, setting?]

theorem set_comm (a : Arguments) {s t : Setting} (hother : s.flag ≠ t.flag) :
    (a.set s).set t = (a.set t).set s := by
  cases s <;> cases t <;> first | rfl | exact absurd rfl hother

theorem setting?_foldl_set_of_not_mem {settings : List Setting} {flag : Flag}
    (hnot : ∀ s ∈ settings, s.flag ≠ flag) (a : Arguments) :
    (settings.foldl set a).setting? flag = a.setting? flag := by
  induction settings generalizing a with
  | nil => rfl
  | cons s settings ih =>
      rw [List.foldl_cons, ih (fun t ht => hnot t (List.mem_cons_of_mem s ht)),
        a.setting?_set_of_ne (hnot s List.mem_cons_self)]

theorem setting?_foldl_set_of_mem {settings : List Setting}
    (honce : (settings.map Setting.flag).Nodup) {s : Setting} (hs : s ∈ settings)
    (a : Arguments) : (settings.foldl set a).setting? s.flag = some s := by
  induction settings generalizing a with
  | nil => cases hs
  | cons t settings ih =>
      rw [List.map_cons, List.nodup_cons] at honce
      rw [List.foldl_cons]
      rcases List.mem_cons.mp hs with rfl | hs
      · have hlast : ∀ u ∈ settings, u.flag ≠ s.flag := by
          intro u hu hsame
          exact honce.1 (hsame ▸ List.mem_map_of_mem hu)
        rw [setting?_foldl_set_of_not_mem hlast, setting?_set_self]
      · exact ih honce.2 hs (a.set t)

/-- Settings of different flags do not interfere, so their order does not matter. -/
theorem foldl_set_perm {first second : List Setting} (hperm : first.Perm second)
    (honce : (first.map Setting.flag).Nodup) (a : Arguments) :
    first.foldl set a = second.foldl set a := by
  refine hperm.foldl_eq' ?_ a
  intro s hs t ht b
  by_cases hsame : s.flag = t.flag
  · rw [List.inj_on_of_nodup_map honce hs ht hsame]
  · exact b.set_comm hsame

/-- A configuration has what is set, and the defaults for the rest. -/
theorem ofConfig_config (a : Arguments) (policy : Policy) {flag : Flag} (hflag : flag ≠ .policy) :
    Setting.ofConfig (a.config policy) flag =
      (a.setting? flag).getD (Setting.ofConfig { policy } flag) := by
  cases flag with
  | policy => exact absurd rfl hflag
  | threads => cases h : a.threads <;> simp [Setting.ofConfig, config, setting?, h]
  | writers => cases h : a.writers <;> simp [Setting.ofConfig, config, setting?, h]
  | readerLoops => cases h : a.readerLoops <;> simp [Setting.ofConfig, config, setting?, h]
  | writerLoops => cases h : a.writerLoops <;> simp [Setting.ofConfig, config, setting?, h]
  | minSleepMs => cases h : a.minSleepMs <;> simp [Setting.ofConfig, config, setting?, h]
  | maxSleepMs => cases h : a.maxSleepMs <;> simp [Setting.ofConfig, config, setting?, h]

/-- A flag that is given for the first time is set to its value. -/
theorem give_eq_ok {a : Arguments} {s : Setting} {text : String} (hsaid : s.SaidBy text)
    (hrange : s.InRange) (hnew : a.setting? s.flag = none) :
    give a s.flag text = .ok (a.set s) := by
  have hfirst : a.has s.flag = false := by rw [has_eq_isSome, hnew, Option.isSome_none]
  unfold give
  rw [if_neg (by simp [hfirst])]
  cases s with
  | policy policy =>
      have hname : Policy.ofName? text = some policy :=
        (congrArg Policy.ofName? hsaid).trans policy.ofName?_name
      simp only [Setting.flag, hname]
      rfl
  | readerLoops n | writerLoops n =>
      simp only [Setting.flag, Setting.readLoops_eq_ok hsaid hrange]
      rfl
  | threads n | writers n | minSleepMs n | maxSleepMs n =>
      simp only [Setting.flag, Setting.readWord_eq_ok hsaid hrange]
      rfl

end Arguments

/-! ## Spelling -/

/-- A flag as it is given, with a text that says its value. -/
structure Given where
  setting : Setting
  text : String
  /-- Whether the value stands behind `=`, or else in an argument of its own. -/
  joined : Bool
  said : setting.SaidBy text
  inRange : setting.InRange

def Given.arguments (g : Given) : List String :=
  if g.joined then ["--" ++ g.setting.flag.name ++ "=" ++ g.text]
  else ["--" ++ g.setting.flag.name, g.text]

def settingsOf (given : List Given) : List Setting :=
  given.map Given.setting

def argumentsOf (given : List Given) : List String :=
  given.flatMap Given.arguments

theorem shape_flag (flag : Flag) : shape ("--" ++ flag.name) = .long flag.name none := by
  cases flag <;> decide

theorem shape_joined (flag : Flag) (text : String) :
    shape ("--" ++ flag.name ++ "=" ++ text) = .long flag.name (some text) := by
  have hname : ∀ c ∈ flag.name.toList, (c != '=') = true :=
    List.all_eq_true.mp (by cases flag <;> decide)
  obtain ⟨first, others, hletters⟩ : ∃ first others, flag.name.toList = first :: others := by
    cases flag <;> exact ⟨_, _, rfl⟩
  have hargument : ("--" ++ flag.name ++ "=" ++ text).toList =
      '-' :: '-' :: (flag.name.toList ++ '=' :: text.toList) := by simp
  have hbefore : (flag.name.toList ++ '=' :: text.toList).takeWhile (· != '=') =
      flag.name.toList := by
    rw [List.takeWhile_append_of_pos hname]
    simp
  have hbehind : (flag.name.toList ++ '=' :: text.toList).dropWhile (· != '=') =
      '=' :: text.toList := by
    rw [List.dropWhile_append_of_pos hname]
    simp
  rw [hletters, List.cons_append] at hargument hbefore hbehind
  unfold shape
  rw [hargument]
  simp only [hbefore, hbehind, ← hletters, String.ofList_toList]

theorem shape_value {text : String} (hdash : text.toList.head? ≠ some '-') :
    shape text = .plain := by
  unfold shape
  split
  all_goals simp_all

section Reading

variable (a : Arguments) (pending : Option Pending) (flag : Flag) (rest : List String)

/-- No flag is the one that asks for the help. -/
theorem readFrom_long {argument : String} {value : Option String}
    (hshape : shape argument = .long flag.name value) :
    readFrom a pending (argument :: rest) = (close a pending).bind fun a =>
      match value with
      | none => readFrom a (some { flag }) rest
      | some value => (give a flag value).bind fun a => readFrom a none rest := by
  have hname := flag.ofName?_name
  have hhelp : flag.name ≠ "help" := by cases flag <;> decide
  rw [readFrom.eq_def]
  cases value <;> simp [hshape, hname, hhelp]

theorem readFrom_value {text : String} (hdash : text.toList.head? ≠ some '-') :
    readFrom a (some { flag }) (text :: rest) = readFrom a (some ⟨flag, some text⟩) rest := by
  rw [readFrom.eq_def]
  simp [shape_value hdash]

end Reading

/-- Flags that are given at most once, and not before, are all set. -/
theorem readFrom_argumentsOf {given : List Given}
    (honce : ((settingsOf given).map Setting.flag).Nodup) {a b : Arguments}
    {pending : Option Pending} (hpending : close a pending = .ok b)
    (hnew : ∀ g ∈ given, b.setting? g.setting.flag = none) :
    readFrom a pending (argumentsOf given) = .ok ((settingsOf given).foldl Arguments.set b) := by
  induction given generalizing a b pending with
  | nil => exact hpending
  | cons g given ih =>
      rw [settingsOf, List.map_cons, List.map_cons, List.nodup_cons] at honce
      have hgive := Arguments.give_eq_ok g.said g.inRange (hnew g List.mem_cons_self)
      have hlater : ∀ h ∈ given, (b.set g.setting).setting? h.setting.flag = none := by
        intro h hh
        have hother : g.setting.flag ≠ h.setting.flag := by
          intro hsame
          exact honce.1 (hsame ▸ List.mem_map_of_mem (List.mem_map_of_mem hh))
        rw [b.setting?_set_of_ne hother]
        exact hnew h (List.mem_cons_of_mem g hh)
      rw [argumentsOf, List.flatMap_cons, Given.arguments]
      split
      · rw [List.singleton_append, readFrom_long a pending _ _ (shape_joined _ _), hpending]
        simp only [Except.bind, hgive]
        exact ih honce.2 rfl hlater
      · rw [List.cons_append, List.singleton_append, readFrom_long a pending _ _ (shape_flag _),
          hpending]
        simp only [Except.bind]
        rw [readFrom_value _ _ _ g.said.head?_ne_dash]
        exact ih honce.2 hgive hlater

/-! ## Command line and configurations -/

/-- The arguments ask for the settings that are given, and for nothing else. -/
structure Follows (given : List Given) (a : Arguments) : Prop where
  chosen : ∀ policy, .policy policy ∈ settingsOf given → a.policies = [policy]
  unchosen : (∀ s ∈ settingsOf given, s.flag ≠ .policy) → a.policies = Policy.all
  policy : ∀ policy, (a.config policy).policy = policy
  /-- A value that is given is the value of its flag. -/
  replaced : ∀ policy, ∀ s ∈ settingsOf given, s.flag ≠ .policy →
    Setting.ofConfig (a.config policy) s.flag = s
  /-- The other flags have the values of the standard workload. -/
  standard : ∀ policy flag, flag ≠ .policy → (∀ s ∈ settingsOf given, s.flag ≠ flag) →
    Setting.ofConfig (a.config policy) flag = Setting.ofConfig { policy } flag

theorem follows {given : List Given} (honce : ((settingsOf given).map Setting.flag).Nodup) :
    Follows given ((settingsOf given).foldl Arguments.set {}) := by
  have hset : ∀ s ∈ settingsOf given,
      ((settingsOf given).foldl Arguments.set {}).setting? s.flag = some s :=
    fun _ hs => Arguments.setting?_foldl_set_of_mem honce hs {}
  have hunset : ∀ flag, (∀ s ∈ settingsOf given, s.flag ≠ flag) →
      ((settingsOf given).foldl Arguments.set {}).setting? flag = none := by
    intro flag hnot
    rw [Arguments.setting?_foldl_set_of_not_mem hnot, Arguments.setting?_empty]
  generalize (settingsOf given).foldl Arguments.set {} = a at hset hunset ⊢
  constructor
  case chosen =>
    intro policy hpolicy
    have hchoice : a.policy.map Setting.policy = some (.policy policy) := hset _ hpolicy
    obtain ⟨_, ha, hsame⟩ := Option.map_eq_some_iff.mp hchoice
    cases hsame
    simp [Arguments.policies, ha]
  case unchosen =>
    intro hnot
    have hchoice : a.policy.map Setting.policy = none := hunset .policy hnot
    simp [Arguments.policies, Option.map_eq_none_iff.mp hchoice]
  case policy => exact fun _ => rfl
  case replaced =>
    intro policy s hs hflag
    rw [a.ofConfig_config policy hflag, hset s hs, Option.getD_some]
  case standard =>
    intro policy flag hflag hnot
    rw [a.ofConfig_config policy hflag, hunset flag hnot, Option.getD_none]

/-- Asks for everything that a configuration has, in the order of the help. -/
def spelledOut (c : Config) (hrange : ∀ flag, (Setting.ofConfig c flag).InRange) : List Given :=
  Flag.all.map fun flag =>
    { setting := .ofConfig c flag
      text := (Setting.ofConfig c flag).text
      joined := false
      said := Setting.saidBy_text _
      inRange := hrange flag }

/-- The command line reaches every configuration in range, by nothing but the flags it gives. -/
structure Configures : Prop where
  followed : ∀ given : List Given, ((settingsOf given).map Setting.flag).Nodup →
    ∃ a, read (argumentsOf given) = .ok a ∧ Follows given a
  /-- Neither the order of the flags nor their spelling matters. -/
  order : ∀ given other : List Given, ((settingsOf given).map Setting.flag).Nodup →
    (settingsOf other).Perm (settingsOf given) →
    read (argumentsOf other) = read (argumentsOf given)
  reached : ∀ (c : Config) (hrange : ∀ flag, (Setting.ofConfig c flag).InRange),
    ∃ a, read (argumentsOf (spelledOut c hrange)) = .ok a ∧ a.policies.map a.config = [c]
  defaults : ∃ a, read [] = .ok a ∧ ∀ policy, a.config policy = { policy }

theorem read_argumentsOf {given : List Given}
    (honce : ((settingsOf given).map Setting.flag).Nodup) :
    read (argumentsOf given) = .ok ((settingsOf given).foldl Arguments.set {}) :=
  readFrom_argumentsOf honce rfl fun _ _ => Arguments.setting?_empty _

/-- Flags that are given at most once configure the workloads, in any order and spelling. -/
theorem arguments_configure : Configures := by
  constructor
  case followed => exact fun given honce => ⟨_, read_argumentsOf honce, follows honce⟩
  case order =>
    intro given other honce hperm
    have honce' := ((hperm.map Setting.flag).nodup_iff).mpr honce
    rw [read_argumentsOf honce, read_argumentsOf honce', Arguments.foldl_set_perm hperm honce']
  case reached =>
    intro c hrange
    have hsettings : settingsOf (spelledOut c hrange) = Flag.all.map (Setting.ofConfig c) := by
      simp [settingsOf, spelledOut]
    have honce : ((settingsOf (spelledOut c hrange)).map Setting.flag).Nodup := by
      rw [hsettings, List.map_map]
      simp only [Function.comp_def, Setting.flag_ofConfig, List.map_id']
      decide
    refine ⟨_, read_argumentsOf honce, ?_⟩
    rw [hsettings]
    rfl
  case defaults => exact ⟨{}, rfl, fun _ => rfl⟩

/-- Three flags, one with its value behind `=` and one with a longer numeral than it needs. -/
def threeFlags : List Given :=
  [ { setting := .maxSleepMs 7, text := "7", joined := true
      said := numeralOf_toString 7, inRange := by decide },
    { setting := .policy .fairTicket, text := "fair_ticket", joined := false
      said := rfl, inRange := trivial },
    { setting := .threads 4, text := "+04", joined := false
      said := ⟨['0', '4'], ⟨by simp, List.all_eq_true.mp rfl, rfl⟩, .inr rfl⟩
      inRange := by decide } ]

theorem arguments_configure_threeFlags :
    ∃ a, read ["--max-sleep-ms=7", "--policy", "fair_ticket", "--threads", "+04"] = .ok a ∧
      a.policies = [.fairTicket] ∧
      a.config .fairTicket = { policy := .fairTicket, threads := 4, maxSleepMs := 7 } := by
  obtain ⟨a, hread, hfollows⟩ := arguments_configure.followed threeFlags (by decide)
  refine ⟨a, hread, hfollows.chosen .fairTicket (by decide), ?_⟩
  refine Setting.eq_of_ofConfig fun flag => ?_
  cases flag with
  | policy => rfl
  | threads => exact hfollows.replaced _ (.threads 4) (by decide) (by decide)
  | maxSleepMs => exact hfollows.replaced _ (.maxSleepMs 7) (by decide) (by decide)
  | writers => exact hfollows.standard _ .writers (by decide) (by decide)
  | readerLoops => exact hfollows.standard _ .readerLoops (by decide) (by decide)
  | writerLoops => exact hfollows.standard _ .writerLoops (by decide) (by decide)
  | minSleepMs => exact hfollows.standard _ .minSleepMs (by decide) (by decide)

end ReaderWriter.Command
