import Mathlib.Data.List.Forall2
import Sessions.Proofs.Text.Order

/-!
# Sessions.Proofs.Time.Order

The order of instants is that of their texts with all nine digits of the fraction, as long as the
years have four digits (`renderFull_append_lt`). An instant is split into its year, month, day, hour,
minute, second and fraction; of two instants the earlier one has the smaller number in the first of
these that differs (`fields_lt`).
-/

namespace Sessions.Time

/-! ## Days -/

namespace Date

theorem yearOfDays_bounds (n : Int) :
    daysBeforeYear (yearOfDays n) ≤ n ∧ n < daysBeforeYear (yearOfDays n + 1) := by
  unfold yearOfDays daysBeforeYear
  dsimp only
  split
  · omega
  · split <;> omega

theorem daysBeforeYear_mono {y z : Int} (h : y ≤ z) : daysBeforeYear y ≤ daysBeforeYear z := by
  unfold daysBeforeYear
  dsimp only
  omega

theorem yearOfDays_mono {m n : Int} (h : m ≤ n) : yearOfDays m ≤ yearOfDays n := by
  have hm := (yearOfDays_bounds m).1
  have hn := (yearOfDays_bounds n).2
  rcases Int.lt_or_le (yearOfDays n) (yearOfDays m) with hlt | hle
  · have := daysBeforeYear_mono (show yearOfDays n + 1 ≤ yearOfDays m by omega)
    omega
  · exact hle

theorem daysBeforeYear_succ (year : Int) :
    daysBeforeYear (year + 1) = daysBeforeYear year + daysBeforeMonth year 13 := by
  have hfour : year % 4 = 0 ∧ year / 4 = (year - 1) / 4 + 1 ∨
      year % 4 ≠ 0 ∧ year / 4 = (year - 1) / 4 := by omega
  have hcentury : year % 100 = 0 ∧ year / 100 = (year - 1) / 100 + 1 ∨
      year % 100 ≠ 0 ∧ year / 100 = (year - 1) / 100 := by omega
  have hcycle : year % 400 = 0 ∧ year / 400 = (year - 1) / 400 + 1 ∨
      year % 400 ≠ 0 ∧ year / 400 = (year - 1) / 400 := by omega
  have h₄ : year % 100 = 0 → year % 4 = 0 := by omega
  have h₁₀₀ : year % 400 = 0 → year % 100 = 0 := by omega
  have hleap : isLeap year = true ↔ year % 4 = 0 ∧ (year % 100 ≠ 0 ∨ year % 400 = 0) := by
    simp [isLeap]
  unfold daysBeforeYear
  rw [Int.add_sub_cancel]
  simp only [daysBeforeMonth, monthLength, hleap]
  split <;> omega

theorem daysBeforeMonth_mono (year : Int) {k m : Nat} (h : k ≤ m) :
    daysBeforeMonth year k ≤ daysBeforeMonth year m := by
  induction h with
  | refl => exact Nat.le_refl _
  | step _ ih => exact Nat.le_trans ih (Nat.le_add_right _ _)

/-- The search for a month goes on as long as the day does not fit into the month. -/
theorem monthOfDay_spec (year : Int) (left month n : Nat) :
    daysBeforeMonth year (monthOfDay year left month n).1 + (monthOfDay year left month n).2 =
        daysBeforeMonth year month + n ∧
      month ≤ (monthOfDay year left month n).1 ∧
      (monthOfDay year left month n).1 ≤ month + left ∧
      ((monthOfDay year left month n).2 < monthLength year (monthOfDay year left month n).1 ∨
        (monthOfDay year left month n).1 = month + left) := by
  induction left generalizing month n with
  | zero => simp [monthOfDay]
  | succ left ih =>
    rw [monthOfDay]
    split
    · rename_i h
      exact ⟨rfl, Nat.le_refl _, by omega, .inl h⟩
    · obtain ⟨hsum, hge, hle, hfit⟩ := ih (month + 1) (n - monthLength year month)
      have hnext : daysBeforeMonth year (month + 1) =
          daysBeforeMonth year month + monthLength year month := rfl
      exact ⟨by omega, by omega, by omega, hfit.imp id fun h => by omega⟩

/-- The month of a day, and the day in it, counted from zero. -/
theorem ofDays_spec (n : Int) :
    1 ≤ (ofDays n).month ∧ (ofDays n).month ≤ 12 ∧ 1 ≤ (ofDays n).day ∧
      (ofDays n).day ≤ monthLength (ofDays n).year (ofDays n).month ∧
      n = daysBeforeYear (ofDays n).year +
        (daysBeforeMonth (ofDays n).year (ofDays n).month + (ofDays n).day - 1 : Nat) := by
  obtain ⟨hlow, hhigh⟩ := yearOfDays_bounds n
  rw [daysBeforeYear_succ] at hhigh
  obtain ⟨hsum, hge, hle, hfit⟩ :=
    monthOfDay_spec (yearOfDays n) 11 1 (n - daysBeforeYear (yearOfDays n)).toNat
  have hfirst : daysBeforeMonth (yearOfDays n) 1 = 0 := rfl
  have hlast : daysBeforeMonth (yearOfDays n) 13 =
      daysBeforeMonth (yearOfDays n) 12 + monthLength (yearOfDays n) 12 := rfl
  have hday : (ofDays n).day =
      (monthOfDay (yearOfDays n) 11 1 (n - daysBeforeYear (yearOfDays n)).toNat).2 + 1 := rfl
  have hmonth : (ofDays n).month =
      (monthOfDay (yearOfDays n) 11 1 (n - daysBeforeYear (yearOfDays n)).toNat).1 := rfl
  have hyear : (ofDays n).year = yearOfDays n := rfl
  rw [hday, hmonth, hyear]
  generalize monthOfDay (yearOfDays n) 11 1 (n - daysBeforeYear (yearOfDays n)).toNat = r at *
  have hfits : r.2 < monthLength (yearOfDays n) r.1 := by
    rcases hfit with hfit | hfit
    · exact hfit
    · have hmonth : r.1 = 12 := hfit
      rw [hmonth] at hsum ⊢
      omega
  exact ⟨hge, hle, by omega, by omega, by omega⟩

theorem monthLength_le (year : Int) (month : Nat) : monthLength year month ≤ 31 := by
  unfold monthLength
  split <;> first | omega | split <;> omega

/-- Of two days the earlier one has the smaller year, month or day, whichever differs first. -/
theorem ofDays_lt {m n : Int} (h : m < n) :
    (ofDays m).year < (ofDays n).year ∨ (ofDays m).year = (ofDays n).year ∧
      ((ofDays m).month < (ofDays n).month ∨ (ofDays m).month = (ofDays n).month ∧
        (ofDays m).day < (ofDays n).day) := by
  obtain ⟨-, -, -, hfit, hm⟩ := ofDays_spec m
  obtain ⟨-, -, -, hfit', hn⟩ := ofDays_spec n
  have hyear : (ofDays m).year ≤ (ofDays n).year := yearOfDays_mono (Int.le_of_lt h)
  rcases Int.lt_or_eq_of_le hyear with hlt | heq
  · exact .inl hlt
  · refine .inr ⟨heq, ?_⟩
    rw [heq] at hm hfit
    rcases Nat.lt_trichotomy (ofDays m).month (ofDays n).month with hlt | heq | hgt
    · exact .inl hlt
    · rw [heq] at hm
      exact .inr ⟨heq, by omega⟩
    · have hmono := daysBeforeMonth_mono (ofDays n).year hgt
      rw [daysBeforeMonth] at hmono
      omega

end Date

/-! ## Instants -/

namespace Instant

variable {t u : Instant}

/-- The numbers of which the text of an instant is made. -/
def fields (t : Instant) : List Nat :=
  [t.date.year.toNat, t.date.month, t.date.day, t.hour, t.minute, t.second, t.fraction]

theorem secondOfDay_lt (t : Instant) : t.secondOfDay < 86400 := by
  unfold secondOfDay secondsPerDay
  omega

/-- The first number in which two instants differ tells which one is earlier. -/
theorem fields_lt (hyear : 0 ≤ t.date.year) (h : t.nanoseconds < u.nanoseconds) :
    t.fields < u.fields := by
  have hday : t.seconds / secondsPerDay < u.seconds / secondsPerDay ∨
      t.seconds / secondsPerDay = u.seconds / secondsPerDay ∧
        (t.secondOfDay < u.secondOfDay ∨
          t.secondOfDay = u.secondOfDay ∧ t.fraction < u.fraction) := by
    unfold secondOfDay fraction seconds secondsPerDay nanosPerSecond
    omega
  simp only [fields, List.cons_lt_cons_iff]
  rcases hday with hlt | ⟨hdate, hclock⟩
  · have hfirst := Date.ofDays_lt hlt
    unfold date at *
    omega
  · have hdate : t.date = u.date := by rw [date, date, hdate]
    rw [hdate]
    unfold hour minute second
    have hsecond : t.secondOfDay < u.secondOfDay →
        t.secondOfDay / 3600 < u.secondOfDay / 3600 ∨
          t.secondOfDay / 3600 = u.secondOfDay / 3600 ∧
            (t.secondOfDay / 60 % 60 < u.secondOfDay / 60 % 60 ∨
              t.secondOfDay / 60 % 60 = u.secondOfDay / 60 % 60 ∧
                t.secondOfDay % 60 < u.secondOfDay % 60) := by
      omega
    rcases hclock with hlt | ⟨heq, hlt⟩
    · have := hsecond hlt
      omega
    · rw [heq]
      omega

/-! ## Texts of instants -/

/-- Numbers in texts of fixed widths, each with a sign after it. -/
def written : List (Nat × Char) → List Nat → List Char
  | (width, sign) :: rest, n :: ns => (padded width n).toList ++ sign :: written rest ns
  | _, _ => []

/-- Whether each number fits into its width. -/
def Fits (layout : List (Nat × Char)) (ns : List Nat) : Prop :=
  List.Forall₂ (fun w n => 0 < w.1 ∧ n < 10 ^ w.1) layout ns

theorem written_append_lt {layout : List (Nat × Char)} {ms ns : List Nat} (hm : Fits layout ms)
    (hn : Fits layout ns) (h : ms < ns) (x y : List Char) :
    written layout ms ++ x < written layout ns ++ y := by
  induction hm generalizing ns with
  | nil =>
    cases hn
    cases h
  | @cons w m rest ms hw _ ih =>
    cases hn with
    | @cons _ n _ ns hw' hrest =>
      simp only [written, List.append_assoc, List.cons_append]
      rcases List.cons_lt_cons_iff.1 h with hlt | ⟨rfl, htail⟩
      · exact Text.padded_append_lt hw.1 hlt hw'.2 _ _
      · exact List.append_left_lt (List.cons_lt_cons_iff.2 (.inr ⟨rfl, ih hrest htail⟩))

/-- How the full text of an instant is laid out. -/
def fullLayout : List (Nat × Char) :=
  [(4, '-'), (2, '-'), (2, 'T'), (2, ':'), (2, ':'), (2, '.'), (9, 'Z')]

theorem toList_renderFull (t : Instant) : t.renderFull.toList = written fullLayout t.fields := by
  simp [renderFull, toSecondsText, fullLayout, fields, written]

theorem fits_fields (h : t.hasShortYear = true) : Fits fullLayout t.fields := by
  simp only [hasShortYear, Bool.and_eq_true, decide_eq_true_eq] at h
  obtain ⟨-, hmonth, -, hday, -⟩ := Date.ofDays_spec (t.seconds / secondsPerDay)
  have hlength := Date.monthLength_le t.date.year t.date.month
  have hsecond := t.secondOfDay_lt
  have hfraction : t.fraction < 1000000000 := by
    unfold fraction nanosPerSecond
    omega
  refine List.Forall₂.cons ⟨?_, ?_⟩ (.cons ⟨?_, ?_⟩ (.cons ⟨?_, ?_⟩ (.cons ⟨?_, ?_⟩ (.cons ⟨?_, ?_⟩
    (.cons ⟨?_, ?_⟩ (.cons ⟨?_, ?_⟩ .nil)))))) <;>
    simp only [hour, minute, second, date] at * <;> omega

/-- Texts of instants sort as the instants do, whatever follows them. -/
theorem renderFull_append_lt (ht : t.hasShortYear = true) (hu : u.hasShortYear = true)
    (h : t.nanoseconds < u.nanoseconds) (x y : List Char) :
    t.renderFull.toList ++ x < u.renderFull.toList ++ y := by
  have hyear : 0 ≤ t.date.year := by
    simp only [hasShortYear, Bool.and_eq_true, decide_eq_true_eq] at ht
    exact ht.1
  rw [toList_renderFull, toList_renderFull]
  exact written_append_lt (fits_fields ht) (fits_fields hu) (fields_lt hyear h) x y

end Instant

end Sessions.Time
