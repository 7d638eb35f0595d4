import Mathlib.Data.List.Induction
import Sortie.Proofs.Decimal.Single
import Sortie.Startup

/-!
# The grammar of the command line

An argument list is read as assignments from the front: the word of a setting and a
value that the setting takes, whatever else the value looks like. What stands behind the
last of them decides, and the range of the rate only where nothing is left. Of several
assignments to a setting the last one counts.
-/

namespace Sortie

namespace Setting

def words : Setting → List String
  | config => ["-c", "--config"]
  | rate => ["--rate"]
  | lon => ["--lon"]
  | lat => ["--lat"]
  | wind => ["--wind"]

theorem ofText?_eq_some_iff {word : String} {s : Setting} :
    ofText? word = some s ↔ word ∈ s.words := by
  constructor
  · intro h
    unfold ofText? at h
    split at h <;> cases h <;> decide
  · intro h
    cases s <;> simp only [words, List.mem_cons, List.not_mem_nil, or_false] at h
    · rcases h with rfl | rfl <;> rfl
    all_goals
      subst h
      rfl

theorem ofText?_eq_none_iff {word : String} : ofText? word = none ↔ ∀ s : Setting, word ∉ s.words := by
  rw [Option.eq_none_iff_forall_not_mem]
  exact forall_congr' fun s => not_congr ofText?_eq_some_iff

def Takes : Setting → String → Prop
  | config, _ => True
  | rate, value | wind, value => ∃ x, Decimal.float32? value = some x
  | lon, value | lat, value => ∃ x, Decimal.float? value = some x

end Setting

structure Assignment where
  setting : Setting
  word : String
  value : String
  named : word ∈ setting.words
  taken : setting.Takes value

namespace Assignment

def written (as : List Assignment) : List String := as.flatMap fun a => [a.word, a.value]

theorem written_cons (a : Assignment) (as : List Assignment) :
    written (a :: as) = a.word :: a.value :: written as := rfl

def last? (s : Setting) (as : List Assignment) : Option String :=
  (as.filter (·.setting = s)).getLast?.map value

theorem last?_concat (s : Setting) (as : List Assignment) (a : Assignment) :
    last? s (as ++ [a]) = if a.setting = s then some a.value else last? s as := by
  rw [last?, last?, List.filter_append]
  split <;> simp [*]

end Assignment

namespace Options

open Assignment (last? last?_concat)

variable {o : Options} {a : Assignment} {as : List Assignment}

structure Reflects (o : Options) (as : List Assignment) : Prop where
  config : o.config = (last? .config as).getD ({} : Options).config
  rate : o.rate = ((last? .rate as).bind Decimal.float32?).getD ({} : Options).rate
  lon : o.lon = ((last? .lon as).bind Decimal.float?).getD ({} : Options).lon
  lat : o.lat = ((last? .lat as).bind Decimal.float?).getD ({} : Options).lat
  wind : o.wind = ((last? .wind as).bind Decimal.float32?).getD ({} : Options).wind

theorem Reflects.unique {o' : Options} (h : o.Reflects as) (h' : o'.Reflects as) : o = o' := by
  cases o
  cases o'
  rw [Options.mk.injEq]
  exact ⟨h.config.trans h'.config.symm, h.rate.trans h'.rate.symm, h.lon.trans h'.lon.symm,
    h.lat.trans h'.lat.symm, h.wind.trans h'.wind.symm⟩

theorem exists_set_iff {s : Setting} {value : String} :
    (∃ o', o.set s value = some o') ↔ s.Takes value := by
  cases s <;> simp [set, Setting.Takes]

theorem set_eq_none_iff {s : Setting} {value : String} : o.set s value = none ↔ ¬ s.Takes value := by
  rw [← exists_set_iff (o := o), ← Option.isSome_iff_exists, Option.not_isSome_iff_eq_none]

/-- A further assignment changes its own setting and leaves the others. -/
theorem Reflects.concat {o' : Options} (h : o.Reflects as) (hSet : o.set a.setting a.value = some o') :
    o'.Reflects (as ++ [a]) := by
  obtain ⟨s, word, value, hNamed, hTaken⟩ := a
  cases s <;> simp only [set, Option.map_eq_some_iff, Option.some.injEq] at hSet
  · subst hSet
    constructor <;> simp [last?_concat, h.rate, h.lon, h.lat, h.wind]
  all_goals
    obtain ⟨x, hx, rfl⟩ := hSet
    constructor <;> simp [last?_concat, h.config, h.rate, h.lon, h.lat, h.wind, hx]

def assign (o : Options) (as : List Assignment) : Options :=
  as.foldl (fun o a => (o.set a.setting a.value).getD o) o

theorem set_assignment (o : Options) (a : Assignment) :
    o.set a.setting a.value = some (o.assign [a]) := by
  obtain ⟨o', hSet⟩ := (exists_set_iff (o := o)).mpr a.taken
  rw [assign, List.foldl_cons, List.foldl_nil, hSet, Option.getD_some]

theorem assign_cons (o : Options) (a : Assignment) (as : List Assignment) :
    o.assign (a :: as) = (o.assign [a]).assign as := rfl

theorem assign_concat (o : Options) (as : List Assignment) (a : Assignment) :
    o.assign (as ++ [a]) = (o.assign as).assign [a] := by
  rw [assign, List.foldl_append]
  rfl

theorem reflects_assign (as : List Assignment) : (({} : Options).assign as).Reflects as := by
  induction as using List.reverseRecOn with
  | nil => exact ⟨rfl, rfl, rfl, rfl, rfl⟩
  | append_singleton as a ih =>
    rw [assign_concat]
    exact ih.concat (set_assignment _ a)

theorem reflects_iff : o.Reflects as ↔ o = ({} : Options).assign as :=
  ⟨fun h => h.unique (reflects_assign as), fun h => h ▸ reflects_assign as⟩

end Options

namespace Invocation

open Assignment (written written_cons)

variable {o : Options} {a : Assignment} {as as' : List Assignment} {rest rest' : List String}
  {i : Invocation}

def helpWords : List String := ["-h", "--help"]

theorem isHelp_iff {word : String} : isHelp word = true ↔ word ∈ helpWords := by
  simp [isHelp, helpWords]

theorem not_mem_helpWords {s : Setting} {word : String} (h : word ∈ s.words) : word ∉ helpWords := by
  intro hHelp
  have hDisjoint : ∀ s : Setting, ∀ word ∈ s.words, word ∉ helpWords := by
    intro s
    cases s <;> decide
  exact hDisjoint s word h hHelp

/--
What comes of the arguments behind the last assignment, given the options that were
assigned before.
-/
inductive Stops (o : Options) : List String → Invocation → Prop
  | complete (h : 0 < o.rate ∧ o.rate ≤ 1000) : Stops o [] (.run o)
  | rateOutOfRange (h : ¬ (0 < o.rate ∧ o.rate ≤ 1000)) : Stops o [] (.refused .rateOutOfRange)
  | help {word : String} (h : word ∈ helpWords) (rest : List String) :
    Stops o (word :: rest) .help
  | unknownOption {word : String} (hHelp : word ∉ helpWords) (h : ∀ s : Setting, word ∉ s.words)
    (rest : List String) : Stops o (word :: rest) (.refused (.unknownOption word))
  | missingValue {s : Setting} {word : String} (h : word ∈ s.words) :
    Stops o [word] (.refused (.missingValue s))
  | invalidValue {s : Setting} {word value : String} (h : word ∈ s.words) (hValue : ¬ s.Takes value)
    (rest : List String) : Stops o (word :: value :: rest) (.refused (.invalidValue s))

theorem Stops.read_eq (h : Stops o rest i) : read o rest = i := by
  cases h with
  | complete h | rateOutOfRange h => simp [read, Options.rateInRange, h]
  | help h => rw [read, if_pos (isHelp_iff.mpr h)]
  | unknownOption hHelp h =>
    rw [read, if_neg (mt isHelp_iff.mp hHelp), Setting.ofText?_eq_none_iff.mpr h]
  | missingValue h =>
    rw [read, if_neg (mt isHelp_iff.mp (not_mem_helpWords h)), Setting.ofText?_eq_some_iff.mpr h]
  | invalidValue h hValue =>
    rw [read, if_neg (mt isHelp_iff.mp (not_mem_helpWords h)), Setting.ofText?_eq_some_iff.mpr h]
    simp only [Options.set_eq_none_iff.mpr hValue]

theorem read_assignment (o : Options) (a : Assignment) (rest : List String) :
    read o (a.word :: a.value :: rest) = read (o.assign [a]) rest := by
  rw [read, if_neg (mt isHelp_iff.mp (not_mem_helpWords a.named)),
    Setting.ofText?_eq_some_iff.mpr a.named]
  simp only [Options.set_assignment]

theorem read_written (o : Options) (as : List Assignment) (rest : List String) :
    read o (written as ++ rest) = read (o.assign as) rest := by
  induction as generalizing o with
  | nil => rfl
  | cons a as ih => rw [written_cons, List.cons_append, List.cons_append, read_assignment, ih,
      ← Options.assign_cons]

theorem rateInRange_iff : o.rateInRange = true ↔ 0 < o.rate ∧ o.rate ≤ 1000 := by
  simp [Options.rateInRange]

/-- Every argument list stops somewhere, and where it stops its reading is decided. -/
theorem exists_stops (o : Options) (args : List String) :
    ∃ as rest, args = written as ++ rest ∧ Stops (o.assign as) rest (read o args) := by
  fun_induction read o args with
  | case1 o h => exact ⟨[], [], rfl, .complete (rateInRange_iff.mp h)⟩
  | case2 o h => exact ⟨[], [], rfl, .rateOutOfRange (mt rateInRange_iff.mpr h)⟩
  | case3 o word rest h => exact ⟨[], word :: rest, rfl, .help (isHelp_iff.mp h) rest⟩
  | case4 o word rest hHelp h =>
    exact ⟨[], word :: rest, rfl,
      .unknownOption (mt isHelp_iff.mpr hHelp) (Setting.ofText?_eq_none_iff.mp h) rest⟩
  | case5 o word hHelp s h =>
    exact ⟨[], [word], rfl, .missingValue (Setting.ofText?_eq_some_iff.mp h)⟩
  | case6 o word hHelp s h value rest o' hSet ih =>
    obtain ⟨as, rest', rfl, hStops⟩ := ih
    let a : Assignment :=
      { setting := s, word, value, named := Setting.ofText?_eq_some_iff.mp h
        taken := Options.exists_set_iff.mp ⟨o', hSet⟩ }
    have ha : o' = o.assign [a] := Option.some.inj (hSet.symm.trans (Options.set_assignment o a))
    refine ⟨a :: as, rest', rfl, ?_⟩
    rw [Options.assign_cons, ← ha]
    exact hStops
  | case7 o word hHelp s h value rest hSet =>
    exact ⟨[], word :: value :: rest, rfl,
      .invalidValue (Setting.ofText?_eq_some_iff.mp h) (Options.set_eq_none_iff.mp hSet) rest⟩

theorem Stops.ne_assignment (h : Stops o rest i) (a : Assignment) (rest' : List String) :
    rest ≠ a.word :: a.value :: rest' := by
  rintro rfl
  cases h with
  | help h => exact not_mem_helpWords a.named h
  | unknownOption _ h => exact h a.setting a.named
  | invalidValue h hValue =>
    have hSame := (Setting.ofText?_eq_some_iff.mpr a.named).symm.trans (Setting.ofText?_eq_some_iff.mpr h)
    exact hValue (Option.some.inj hSame ▸ a.taken)

/-- A list of assignments at the front of an argument list to which none can be added. -/
structure Splits (args : List String) (as : List Assignment) (rest : List String) : Prop where
  eq : args = written as ++ rest
  longest : ∀ as' rest', args = written as' ++ rest' → as'.length ≤ as.length

/-- Where the reading stops there is no further assignment. -/
theorem Stops.length_le (h : Stops o rest i) (hEq : written as ++ rest = written as' ++ rest') :
    as'.length ≤ as.length := by
  induction as' generalizing as with
  | nil => exact Nat.zero_le _
  | cons a' as' ih =>
    cases as with
    | nil => exact absurd hEq (h.ne_assignment a' _)
    | cons a as =>
      obtain ⟨-, hTail⟩ := List.cons.inj hEq
      obtain ⟨-, hRest⟩ := List.cons.inj hTail
      exact Nat.succ_le_succ (ih hRest)

theorem Stops.splits (h : Stops o rest i) : Splits (written as ++ rest) as rest :=
  ⟨rfl, fun _ _ hEq => h.length_le hEq⟩

/-- The reading of an argument list is decided where the assignments end. -/
theorem ofArgs_eq_iff {args : List String} :
    ofArgs args = i ↔ ∃ as rest, Splits args as rest ∧ Stops (({} : Options).assign as) rest i := by
  constructor
  · rintro rfl
    obtain ⟨as, rest, hArgs, hStops⟩ := exists_stops {} args
    exact ⟨as, rest, hArgs ▸ hStops.splits, hStops⟩
  · rintro ⟨as, rest, hSplits, hStops⟩
    rw [ofArgs, hSplits.eq, read_written, hStops.read_eq]

/-- The arguments alone end the program with a code, whatever plan could be loaded. -/
def EndsWith (args : List String) (code : UInt32) : Prop :=
  ∃ s : Startup, s.exitCode? = some code ∧
    ∀ {m : Type → Type} [Monad m] (load : String → m (Except PlanError Plan)),
      Startup.ofArgs load args = pure s

theorem not_endsWith_of_run {args : List String} (h : ofArgs args = .run o) (code : UInt32) :
    ¬ EndsWith args code := by
  rintro ⟨s, -, hEnds⟩
  -- a loader that fails shows that the program came to load a plan
  have hFails := hEnds (m := Except Unit) fun _ => .error ()
  rw [Startup.ofArgs, h] at hFails
  cases hFails

theorem endsWith_iff {args : List String} {code : UInt32} :
    EndsWith args code ↔
      ofArgs args = .help ∧ code = 0 ∨ (∃ e, ofArgs args = .refused e) ∧ code = 1 := by
  constructor
  · intro hEnds
    cases hArgs : ofArgs args with
    | run o => exact absurd hEnds (not_endsWith_of_run hArgs code)
    | help =>
      obtain ⟨s, hCode, hEnds⟩ := hEnds
      have hStart := hEnds (m := Id) fun path => .error (.unreadable path .notFound)
      rw [Startup.ofArgs, hArgs] at hStart
      cases hStart
      exact .inl ⟨rfl, (Option.some.inj hCode).symm⟩
    | refused e =>
      obtain ⟨s, hCode, hEnds⟩ := hEnds
      have hStart := hEnds (m := Id) fun path => .error (.unreadable path .notFound)
      rw [Startup.ofArgs, hArgs] at hStart
      cases hStart
      exact .inr ⟨⟨e, rfl⟩, (Option.some.inj hCode).symm⟩
  · rintro (⟨hArgs, rfl⟩ | ⟨⟨e, hArgs⟩, rfl⟩)
    · exact ⟨.help, rfl, fun load => by rw [Startup.ofArgs, hArgs]⟩
    · exact ⟨.refused e, rfl, fun load => by rw [Startup.ofArgs, hArgs]⟩

theorem ofArgs_eq_run_iff {args : List String} :
    ofArgs args = .run o ↔
      ∃ as, args = written as ∧ o.Reflects as ∧ 0 < o.rate ∧ o.rate ≤ 1000 := by
  rw [ofArgs_eq_iff]
  constructor
  · rintro ⟨as, rest, hSplits, hStops⟩
    cases hStops with
    | complete h =>
      refine ⟨as, ?_, Options.reflects_assign as, h⟩
      rw [hSplits.eq, List.append_nil]
  · rintro ⟨as, rfl, hReflects, hRate⟩
    rw [Options.reflects_iff] at hReflects
    subst hReflects
    have hStops := Stops.complete hRate
    have hSplits : Splits (written as ++ []) as [] := hStops.splits
    rw [List.append_nil] at hSplits
    exact ⟨as, [], hSplits, hStops⟩

theorem ofArgs_eq_help_iff {args : List String} :
    ofArgs args = .help ↔ ∃ as word rest, Splits args as (word :: rest) ∧ word ∈ helpWords := by
  rw [ofArgs_eq_iff]
  constructor
  · rintro ⟨as, rest, hSplits, hStops⟩
    cases hStops with
    | help h rest => exact ⟨as, _, rest, hSplits, h⟩
  · rintro ⟨as, word, rest, hSplits, h⟩
    exact ⟨as, word :: rest, hSplits, .help h rest⟩

/--
The arguments are options when they are assignments throughout and the rate that comes of
them is in range; each option is then what was assigned to it last. They end the program
well when a word for help stands behind the longest run of assignments, whatever rate was
assigned before. In all other cases they end it with an error.
-/
theorem ofArgs_classifies (args : List String) :
    (∀ o, ofArgs args = .run o ↔
      ∃ as, args = written as ∧ o.Reflects as ∧ 0 < o.rate ∧ o.rate ≤ 1000) ∧
    (∀ o, ofArgs args = .run o → o.rate.isNaN = false) ∧
    (EndsWith args 0 ↔
      ∃ as word rest, Splits args as (word :: rest) ∧ (word = "-h" ∨ word = "--help")) ∧
    (EndsWith args 1 ↔ (∀ o, ofArgs args ≠ .run o) ∧ ¬ EndsWith args 0) ∧
    (∀ e, ofArgs args = .refused e ↔
      ∃ as rest, Splits args as rest ∧ Stops (({} : Options).assign as) rest (.refused e)) := by
  refine ⟨fun o => ofArgs_eq_run_iff, fun o hRun => ?_, ?_, ?_, fun e => ofArgs_eq_iff⟩
  · obtain ⟨-, -, -, hPos, -⟩ := ofArgs_eq_run_iff.mp hRun
    exact Single.isNaN_eq_false_of_lt hPos
  · rw [endsWith_iff, ofArgs_eq_help_iff]
    simp [helpWords]
  · rw [endsWith_iff, endsWith_iff]
    cases ofArgs args <;> simp

/-- Neither the rate nor the value that looks like a word for help counts. -/
example : ofArgs ["--rate", "0", "-c", "--help", "-h"] = .help := by
  decide +kernel

end Invocation

end Sortie
