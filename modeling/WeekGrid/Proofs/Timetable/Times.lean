import WeekGrid.Proofs.Civil.Calendar
import WeekGrid.Proofs.Timetable.Justification

/-!
Times of day in a week. The label of a time, such as `13:30`, is placed on a day of the week that a base time lies
in; the week is that of the calendar, which also holds days of the year before or after.
-/
namespace WeekGrid.Timetable

/-- A label names a time of day: an hour and a minute in range, with the label's only colon between them. -/
def NamesTime (label : String) (hour minute : Nat) : Prop :=
  ∃ before after : List Char, label.toList = before ++ ':' :: after ∧ ':' ∉ before ∧ ':' ∉ after ∧
    Text.readInteger? before = some (hour : Int) ∧ Text.readInteger? after = some (minute : Int) ∧
    hour < 24 ∧ minute < 60

theorem timeOfDay?_eq_some_iff {label : String} {hour minute : Nat} :
    timeOfDay? label = some (hour, minute) ↔ NamesTime label hour minute := by
  constructor
  · intro h
    unfold timeOfDay? at h
    split at h
    · next before after hsplit =>
      obtain ⟨hlabel, hbefore, hafter⟩ := Text.split_eq_pair_iff.1 hsplit
      split at h
      · next readHour readMinute hhour hminute =>
        split at h
        · next hrange =>
          cases h
          have htoHour : (readHour.toNat : Int) = readHour := Int.toNat_of_nonneg hrange.1
          have htoMinute : (readMinute.toNat : Int) = readMinute := Int.toNat_of_nonneg hrange.2.2.1
          refine ⟨before, after, hlabel, hbefore, hafter, ?_, ?_, by omega, by omega⟩
          · rw [htoHour, hhour]
          · rw [htoMinute, hminute]
        · cases h
      · cases h
    · cases h
  · rintro ⟨before, after, hlabel, hbefore, hafter, hhour, hminute, hhours, hminutes⟩
    have hsplit := Text.split_eq_pair_iff.2 ⟨hlabel, hbefore, hafter⟩
    have hrange : 0 ≤ (hour : Int) ∧ (hour : Int) < 24 ∧ 0 ≤ (minute : Int) ∧ (minute : Int) < 60 := by omega
    simp only [timeOfDay?, hsplit, hhour, hminute, if_pos hrange, Int.toNat_natCast]

theorem timeOfDay?_eq_none_iff {label : String} :
    timeOfDay? label = none ↔ ∀ hour minute, ¬ NamesTime label hour minute := by
  simp only [← timeOfDay?_eq_some_iff]
  cases timeOfDay? label with
  | none => simp
  | some clock => exact ⟨nofun, fun h => absurd rfl (h clock.1 clock.2)⟩

theorem lessonTime_eq_none_iff {label : String} {base : DateTime} {day : Weekday} :
    lessonTime label base day = .ok none ↔ ∀ hour minute, ¬ NamesTime label hour minute := by
  rw [← timeOfDay?_eq_none_iff]
  constructor
  · exact timeOfDay?_of_lessonTime_eq_none
  · intro hnone
    obtain ⟨-, hresult⟩ | ⟨clock, hclock, -⟩ := lessonTime_cases label base day
    · exact hresult
    · rw [hnone] at hclock
      cases hclock

theorem dayNumber_of_lessonTime {label : String} {base t : DateTime} {day : Weekday}
    (h : lessonTime label base day = .ok (some t)) : t.date.dayNumber = base.date.numberInWeek day.iso := by
  obtain ⟨-, hnone⟩ | ⟨_, -, ⟨date, hdate, hsome⟩ | ⟨-, herror⟩⟩ := lessonTime_cases label base day
  · rw [h] at hnone
    cases hnone
  · rw [h] at hsome
    cases hsome
    exact Date.dayNumber_of_ofIsoWeek? day.iso_range.1 hdate
  · rw [h] at herror
    cases herror

theorem lessonTime_eq_error_iff {label : String} {base : DateTime} {day : Weekday} {fault : Fault} :
    lessonTime label base day = .error fault ↔ fault = .yearOutOfRange ∧
      (∃ hour minute, NamesTime label hour minute) ∧ Date.last.dayNumber < base.date.numberInWeek day.iso := by
  rw [Date.dayNumber_last, ← Date.ofIsoWeek?_eq_none_iff _ day.iso_range.1]
  obtain ⟨hclock, hnone⟩ | ⟨clock, hclock, ⟨date, hdate, hsome⟩ | ⟨hdate, herror⟩⟩ :=
    lessonTime_cases label base day
  · have hunnamed := timeOfDay?_eq_none_iff.1 hclock
    simp [hnone, hunnamed]
  · simp [hsome, hdate]
  · have hnamed := timeOfDay?_eq_some_iff.1 hclock
    simp only [herror, Except.error.injEq, hdate, and_true]
    exact ⟨fun h => ⟨h.symm, _, _, hnamed⟩, fun h => h.1.symm⟩

structure IsPlacedInWeek (label : String) (base : DateTime) (day : Weekday) : Prop where
  unnamed : lessonTime label base day = .ok none ↔ ∀ hour minute, ¬ NamesTime label hour minute
  named : ∀ hour minute, NamesTime label hour minute → base.date.numberInWeek day.iso ≤ Date.last.dayNumber →
    ∃ t, lessonTime label base day = .ok (some t) ∧ IsInWeek base day (hour, minute) t ∧
      t.date.dayNumber < base.date.dayNumber + 7 ∧ base.date.dayNumber < t.date.dayNumber + 7
  /-- The only way to fail is that the calendar ends before the day asked for. -/
  failed : ∀ fault, lessonTime label base day = .error fault ↔ fault = .yearOutOfRange ∧
    (∃ hour minute, NamesTime label hour minute) ∧ Date.last.dayNumber < base.date.numberInWeek day.iso
  /-- Of the base only its week and its zone count. -/
  sameWeek : ∀ other : DateTime, other.date.SameWeek base.date → other.zone.getD .paris = base.zone.getD .paris →
    lessonTime label other day = lessonTime label base day
  increasing : ∀ later t t', day.iso < later.iso → lessonTime label base day = .ok (some t) →
    lessonTime label base later = .ok (some t') →
    t.date.dayNumber < t'.date.dayNumber ∧ t.hour = t'.hour ∧ t.minute = t'.minute

/-- A label's time on a day of the base's week: none without a time in the label, and a failure only behind the end
of the calendar. -/
theorem lessonTime_isPlacedInWeek (label : String) (base : DateTime) (day : Weekday) :
    IsPlacedInWeek label base day where
  unnamed := lessonTime_eq_none_iff
  named := by
    intro hour minute hnamed hlast
    rcases hresult : lessonTime label base day with fault | _ | t
    · obtain ⟨-, -, hbeyond⟩ := lessonTime_eq_error_iff.1 hresult
      exact absurd hlast (Nat.not_le_of_lt hbeyond)
    · exact absurd hnamed (lessonTime_eq_none_iff.1 hresult hour minute)
    · obtain ⟨clock, hclock, hweek⟩ := lessonTime_eq_some hresult
      obtain rfl : (hour, minute) = clock :=
        Option.some.inj ((timeOfDay?_eq_some_iff.2 hnamed).symm.trans hclock)
      refine ⟨t, rfl, hweek, ?_⟩
      rw [dayNumber_of_lessonTime hresult]
      exact base.date.numberInWeek_near day.iso_range.1 (Nat.le_succ_of_le day.iso_range.2)
  failed := fun _ => lessonTime_eq_error_iff
  sameWeek := by
    intro other hweek hzone
    simp only [lessonTime, hweek.isoYear, hweek.isoWeek, hzone]
  increasing := by
    intro later t t' hlater ht ht'
    obtain ⟨clock, hclock, hweek⟩ := lessonTime_eq_some ht
    obtain ⟨clock', hclock', hweek'⟩ := lessonTime_eq_some ht'
    obtain rfl : clock = clock' := Option.some.inj (hclock.symm.trans hclock')
    refine ⟨?_, hweek.hour.trans hweek'.hour.symm, hweek.minute.trans hweek'.minute.symm⟩
    rw [dayNumber_of_lessonTime ht, dayNumber_of_lessonTime ht', Date.numberInWeek_eq, Date.numberInWeek_eq]
    exact Nat.add_lt_add_left hlater _

end WeekGrid.Timetable
