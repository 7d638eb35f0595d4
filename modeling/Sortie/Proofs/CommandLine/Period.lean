import Sortie.Proofs.CommandLine.Grammar
import Sortie.Proofs.Decimal.Single

/-!
# The period of an accepted rate

The command line refuses rates that are not positive and rates that are too high, but
none for being too low. The timer counts whole seconds in 64 bits, which draws a line
within the accepted rates. Above it the period is a time that the timer can wait for; on
it and below, the program ends although its arguments were in order.
-/

namespace Sortie

open Single (Holds Full)

namespace Options

/-- The highest rate whose period the timer cannot hold, two to the power of -64. -/
def stallingRate : Float32 := 1 / 18446744073709551616

/-- A time in seconds that the timer can wait for. -/
structure Timed (period : Float32) : Prop where
  finite : period.isFinite
  pos : 0 < period
  fits : period < 18446744073709551616

variable {o : Options}

theorem holds_maxRate : Holds 1000 16384000 (-14) := ⟨by decide, by rfl⟩

theorem holds_timerBound : Holds 18446744073709551616 (2 ^ 23) 41 := ⟨by decide, by rfl⟩

theorem holds_stallingRate : Holds stallingRate (2 ^ 23) (-87) := ⟨by decide, by rfl⟩

/-- Of the rates in range, those above the line have a period that the timer can wait for. -/
theorem period_cases (hPos : 0 < o.rate) (hMax : o.rate ≤ 1000) :
    stallingRate < o.rate ∧ Timed o.period ∨
      ¬ stallingRate < o.rate ∧ ¬ o.period < 18446744073709551616 := by
  obtain ⟨m, e, hRate, hHigh⟩ := Single.exists_holds hPos hMax holds_maxRate
  obtain ⟨m', e', hPeriod, hFull', hPower⟩ := Single.exists_rounds_one_div hRate hHigh
  have hFits : o.period < 18446744073709551616 ↔ e' ≤ 40 := by
    rw [period, hPeriod.lt_iff holds_timerBound]
    have hMin := hFull'.1
    omega
  have hLine : stallingRate < o.rate ↔ e' ≤ 40 := by
    rw [holds_stallingRate.lt_iff hRate]
    obtain ⟨hLow, -, hLess, hSize⟩ := hRate.bounds
    have hLog := hRate.log2_le
    -- where the significand is not full, the rate is far below the line
    rcases hSize with hMin | hTiny
    · have hFull : Full m := ⟨hMin, hLess⟩
      have hLog := hFull.log2_eq
      rcases Nat.eq_or_lt_of_le hMin with rfl | hLarger
      · have hQuotient := Single.quotient_two_pow
        omega
      · have hQuotient := Single.quotient_lt hFull hLarger
        omega
    · omega
  rcases le_or_gt e' 40 with hWaits | hLong
  · exact .inl ⟨hLine.mpr hWaits, hPeriod.isFinite_iff.mpr (by omega), hPeriod.pos, hFits.mpr hWaits⟩
  · exact .inr ⟨mt hLine.mp hLong.not_ge, mt hFits.mp hLong.not_ge⟩

theorem timed_period_iff (hPos : 0 < o.rate) (hMax : o.rate ≤ 1000) :
    Timed o.period ↔ stallingRate < o.rate := by
  rcases period_cases hPos hMax with ⟨hLine, hTimed⟩ | ⟨hLine, hLong⟩
  · exact iff_of_true hTimed hLine
  · exact iff_of_false (fun hTimed => hLong hTimed.fits) hLine

theorem periodFits_iff (hPos : 0 < o.rate) (hMax : o.rate ≤ 1000) :
    o.periodFits = true ↔ stallingRate < o.rate := by
  rw [periodFits, decide_eq_true_iff]
  rcases period_cases hPos hMax with ⟨hLine, hTimed⟩ | ⟨hLine, hLong⟩
  · exact iff_of_true hTimed.fits hLine
  · exact iff_of_false hLong hLine

end Options

namespace Startup

open Options (Timed stallingRate)

variable {args : List String} {o : Options} {load : String → Except PlanError Plan} {p : Plan}

/-- Where the arguments are in order and their plan loads, the rate decides. -/
theorem ofArgs_of_load (h : Invocation.ofArgs args = .run o) (hLoad : load o.config = .ok p) :
    ofArgs (m := Id) load args = if stallingRate < o.rate then run o p else stalled o p := by
  obtain ⟨-, -, -, hPos, hMax⟩ := Invocation.ofArgs_eq_run_iff.mp h
  have hStart : ofArgs (m := Id) load args = ofPlan o (.ok p) := by
    rw [ofArgs, h, ← hLoad]
    rfl
  rw [hStart]
  exact if_congr (Options.periodFits_iff hPos hMax) rfl rfl

theorem exitCode?_of_slow (h : Invocation.ofArgs args = .run o) (hLoad : load o.config = .ok p)
    (hSlow : ¬ stallingRate < o.rate) : (ofArgs (m := Id) load args).exitCode? = some 101 := by
  rw [ofArgs_of_load h hLoad, if_neg hSlow]
  rfl

/--
Arguments that are in order set a period that the timer can wait for just when the rate lies
above the line. Then every plan that loads is flown, and otherwise the program ends with 101.
-/
theorem accepted_rate (h : Invocation.ofArgs args = .run o) :
    (Timed o.period ↔ stallingRate < o.rate) ∧
    ∀ (load : String → Except PlanError Plan) (p : Plan), load o.config = .ok p →
      (stallingRate < o.rate → ofArgs (m := Id) load args = run o p) ∧
      (¬ stallingRate < o.rate → (ofArgs (m := Id) load args).exitCode? = some 101) := by
  obtain ⟨-, -, -, hPos, hMax⟩ := Invocation.ofArgs_eq_run_iff.mp h
  refine ⟨Options.timed_period_iff hPos hMax, fun load p hLoad => ⟨fun hLine => ?_, ?_⟩⟩
  · rw [ofArgs_of_load h hLoad, if_pos hLine]
  · exact exitCode?_of_slow h hLoad

/-- One tick in some hundred billion years is still a rate. -/
theorem accepted_rate_slow :
    let args := ["--rate", "1e-19"]
    let o : Options := { rate := 1e-19 }
    Invocation.ofArgs args = .run o ∧ Timed o.period ∧
      ∀ p : Plan, ofArgs (m := Id) (fun _ => .ok p) args = run o p := by
  intro args o
  have h : Invocation.ofArgs args = .run o := by decide +kernel
  have hLine : stallingRate < o.rate := by decide +kernel
  obtain ⟨hTimed, hStart⟩ := accepted_rate h
  exact ⟨h, hTimed.mpr hLine, fun p => (hStart (fun _ => .ok p) p rfl).1 hLine⟩

/-- A rate in range with an infinite period: the program ends instead of running. -/
theorem accepted_rate_stalls :
    let args := ["-c", "m.json", "--rate", "1e-45"]
    let o : Options := { config := "m.json", rate := 1e-45 }
    Invocation.ofArgs args = .run o ∧ ¬ o.period.isFinite ∧
      ∀ (load : String → Except PlanError Plan) (p : Plan), load "m.json" = .ok p →
        (ofArgs (m := Id) load args).exitCode? = some 101 := by
  intro args o
  have h : Invocation.ofArgs args = .run o := by decide +kernel
  have hLine : ¬ stallingRate < o.rate := by decide +kernel
  exact ⟨h, by decide +kernel, fun load p hLoad => exitCode?_of_slow h hLoad hLine⟩

end Startup

end Sortie
