import WebHost.Proofs.Number.Numeral
import WebHost.Proofs.Text.Parts
import WebHost.Proofs.Text.Utf8
import WebHost.Proofs.Time.Calendar
import WebHost.Time.HttpDate

/-!
# Written dates are read again

The written form of a date has its pieces at fixed places, so cutting it at these places gives the
pieces back. Each piece is read as the number that it was written for, and these are the fields of
one date and time, which leads back to the second that it was taken from.
-/

set_option autoImplicit false

namespace WebHost

namespace HttpDate

/-- The written form of a date, by its pieces. -/
def layout (weekday day month year hour minute second : List Char) : List Char :=
  weekday ++ [',', ' '] ++ day ++ [' '] ++ month ++ [' '] ++ year ++ [' '] ++ hour ++ [':'] ++
    minute ++ [':'] ++ second ++ [' ', 'G', 'M', 'T']

/-- The pieces of a date are found at their places. -/
theorem readFixed_layout {weekday day month year hour minute second : List Char}
    (hweekday : weekday.length = 3) (hday : day.length = 2) (hmonth : month.length = 3)
    (hyear : year.length = 4) (hhour : hour.length = 2) (hminute : minute.length = 2)
    (hsecond : second.length = 2) :
    readFixed (layout weekday day month year hour minute second) = (do
      return {
        second := ← digits? second, minute := ← digits? minute, hour := ← digits? hour
        day := ← digits? day
        month := (← indexOf? (framed " " 3 CivilDate.monthNames " ") (' ' :: month ++ [' '])) + 1
        year := ← digits? year
        weekday := ← indexOf? (framed "" 3 CivilDate.weekdayNames ", ")
          (weekday ++ [',', ' ']) }) := by
  obtain ⟨w₁, w₂, w₃, rfl⟩ := List.length_eq_three.mp hweekday
  obtain ⟨d₁, d₂, rfl⟩ := List.length_eq_two.mp hday
  obtain ⟨m₁, m₂, m₃, rfl⟩ := List.length_eq_three.mp hmonth
  obtain ⟨h₁, h₂, rfl⟩ := List.length_eq_two.mp hhour
  obtain ⟨n₁, n₂, rfl⟩ := List.length_eq_two.mp hminute
  obtain ⟨s₁, s₂, rfl⟩ := List.length_eq_two.mp hsecond
  match year, hyear with
  | [y₁, y₂, y₃, y₄], _ =>
    generalize hs : layout [w₁, w₂, w₃] [d₁, d₂] [m₁, m₂, m₃] [y₁, y₂, y₃, y₄] [h₁, h₂] [n₁, n₂]
      [s₁, s₂] = s
    have hfits : (s.length = 29 && slice s 25 29 = " GMT".toList && isAt s 16 ' ' && isAt s 19 ':' &&
        isAt s 22 ':') = true := by
      simp [← hs, layout, slice, isAt]
    have hweekday : slice s 0 5 = [w₁, w₂, w₃] ++ [',', ' '] := by simp [← hs, layout, slice]
    have hday : slice s 5 7 = [d₁, d₂] := by simp [← hs, layout, slice]
    have hmonth : slice s 7 12 = ' ' :: [m₁, m₂, m₃] ++ [' '] := by simp [← hs, layout, slice]
    have hyear : slice s 12 16 = [y₁, y₂, y₃, y₄] := by simp [← hs, layout, slice]
    have hhour : slice s 17 19 = [h₁, h₂] := by simp [← hs, layout, slice]
    have hminute : slice s 20 22 = [n₁, n₂] := by simp [← hs, layout, slice]
    have hsecond : slice s 23 25 = [s₁, s₂] := by simp [← hs, layout, slice]
    rw [readFixed, hfits, hweekday, hday, hmonth, hyear, hhour, hminute, hsecond]
    rfl

/-- The characters that a date and time is written with. -/
def written (weekday : Nat) (t : DateTime) : List Char :=
  layout (CivilDate.weekdayName weekday).toList (Numeral.twoDigits t.date.day).toList
    (CivilDate.monthName t.date.month).toList (Numeral.padded 4 t.date.year.toNat).toList
    (Numeral.twoDigits t.hour).toList (Numeral.twoDigits t.minute).toList
    (Numeral.twoDigits t.second).toList

/-- A time is written as its weekday and its date. -/
theorem toList_textOfSeconds (seconds : Int) :
    (textOfSeconds seconds).toList =
      written (CivilDate.weekday (seconds / 86400)) (DateTime.ofSeconds seconds) := by
  simp [textOfSeconds, written, layout]

/-! ## The numbers of a date -/

/-- A second of the years that have a written form. -/
def IsWritable (seconds : Int) : Prop := 0 ≤ seconds ∧ seconds < endOfYears

/-- A date and time whose numbers have the width that they are written in. -/
structure IsInRange (t : DateTime) : Prop where
  year : 1970 ≤ t.date.year ∧ t.date.year ≤ 9999
  month : 1 ≤ t.date.month ∧ t.date.month ≤ 12
  day : 1 ≤ t.date.day ∧ t.date.day ≤ 31
  hour : t.hour < 24
  minute : t.minute < 60
  second : t.second < 60

/-- A time that can be written has a date in range. -/
theorem isInRange_ofSeconds {seconds : Int} (h : IsWritable seconds) :
    IsInRange (DateTime.ofSeconds seconds) where
  year := by
    have hsince : 0 ≤ seconds := h.1
    have huntil : seconds < 253402300800 := h.2
    exact CivilDate.year_ofDays (by omega) (by omega)
  month := CivilDate.month_ofDays (seconds / 86400)
  day := CivilDate.day_ofDays (seconds / 86400)
  hour := DateTime.hour_ofSeconds seconds
  minute := DateTime.minute_ofSeconds seconds
  second := DateTime.second_ofSeconds seconds

/-! ## Reading the pieces -/

/-- The name of a weekday is read back in its frame. -/
theorem weekdayName_read : ∀ w < 7, (CivilDate.weekdayName w).toList.length = 3 ∧
    indexOf? (framed "" 3 CivilDate.weekdayNames ", ")
      ((CivilDate.weekdayName w).toList ++ [',', ' ']) = some w := by
  decide +kernel

/-- The name of a month is read back in its frame. -/
theorem monthName_read : ∀ m < 13, 1 ≤ m → (CivilDate.monthName m).toList.length = 3 ∧
    indexOf? (framed " " 3 CivilDate.monthNames " ")
      (' ' :: (CivilDate.monthName m).toList ++ [' ']) = some (m - 1) := by
  decide +kernel

/-- A number of two digits is read back. -/
theorem twoDigits_read {n : Nat} (h : n < 100) : (Numeral.twoDigits n).toList.length = 2 ∧
    digits? (Numeral.twoDigits n).toList = some n := by
  have hwidth : (Nat.toDigits 10 n).length ≤ 2 :=
    (Nat.length_toDigits_le_iff (by omega) (by omega)).mpr h
  rw [Numeral.twoDigits_eq_padded n h]
  exact ⟨Numeral.length_padded hwidth, Numeral.value?_padded 2 n⟩

/-- A number of four digits is read back. -/
theorem fourDigits_read {n : Nat} (h : n < 10000) : (Numeral.padded 4 n).toList.length = 4 ∧
    digits? (Numeral.padded 4 n).toList = some n := by
  have hwidth : (Nat.toDigits 10 n).length ≤ 4 :=
    (Nat.length_toDigits_le_iff (by omega) (by omega)).mpr h
  exact ⟨Numeral.length_padded hwidth, Numeral.value?_padded 4 n⟩

/-- What is written for a date and time is read again. -/
theorem readFixed_written {weekday : Nat} {t : DateTime} (hw : weekday < 7) (ht : IsInRange t) :
    readFixed (written weekday t) = some
      ⟨weekday, t.date.year.toNat, t.date.month, t.date.day, t.hour, t.minute, t.second⟩ := by
  obtain ⟨⟨hsince, huntil⟩, hmonth, hday, hhour, hminute, hsecond⟩ := ht
  obtain ⟨hweekdayLength, hweekdayIndex⟩ := weekdayName_read weekday hw
  obtain ⟨hmonthLength, hmonthIndex⟩ := monthName_read t.date.month (by omega) hmonth.1
  obtain ⟨hyearLength, hyearValue⟩ := fourDigits_read (n := t.date.year.toNat) (by omega)
  obtain ⟨hdayLength, hdayValue⟩ := twoDigits_read (n := t.date.day) (by omega)
  obtain ⟨hhourLength, hhourValue⟩ := twoDigits_read (n := t.hour) (by omega)
  obtain ⟨hminuteLength, hminuteValue⟩ := twoDigits_read (n := t.minute) (by omega)
  obtain ⟨hsecondLength, hsecondValue⟩ := twoDigits_read (n := t.second) (by omega)
  have hback : t.date.month - 1 + 1 = t.date.month := Nat.sub_add_cancel hmonth.1
  rw [written, readFixed_layout hweekdayLength hdayLength hmonthLength hyearLength hhourLength
    hminuteLength hsecondLength, hsecondValue, hminuteValue, hhourValue, hdayValue, hmonthIndex,
    hyearValue, hweekdayIndex]
  simp [hback]

/-- The fields of a second exist and lead back to it. -/
theorem seconds?_ofSeconds {seconds : Int} (ht : IsInRange (DateTime.ofSeconds seconds)) :
    let t := DateTime.ofSeconds seconds
    Fields.seconds? ⟨CivilDate.weekday (seconds / 86400), t.date.year.toNat, t.date.month, t.date.day,
      t.hour, t.minute, t.second⟩ = some seconds := by
  obtain ⟨⟨hsince, huntil⟩, hmonth, hday, hhour, hminute, hsecond⟩ := ht
  have hyear : ((DateTime.ofSeconds seconds).date.year.toNat : Int) =
      (DateTime.ofSeconds seconds).date.year := Int.toNat_of_nonneg (by omega)
  have hwhole := DateTime.toSeconds_ofSeconds seconds
  have hdayBound : (DateTime.ofSeconds seconds).date.day < 32 := by omega
  have hyearSince : 1970 ≤ (DateTime.ofSeconds seconds).date.year.toNat := by omega
  have hyearUntil : (DateTime.ofSeconds seconds).date.year.toNat ≤ 9999 := by omega
  intro t
  rw [Fields.seconds?,
    if_pos ⟨hsecond, hminute, hhour, hday.1, hdayBound, hyearSince, hyearUntil⟩]
  simp only [t, hyear, hwhole, and_self, if_true]

/-! ## The whole date -/

/-- A digit is a visible sign. -/
theorem isVisible_of_isDigit {c : Char} (h : c.isDigit = true) : IsVisible c := by
  have hbounds : '0' ≤ c ∧ c ≤ '9' := Numeral.bounds_of_isDigit h
  have hlow : '0'.toNat ≤ c.toNat := hbounds.1
  have hhigh : c.toNat ≤ '9'.toNat := hbounds.2
  have hzero : '0'.toNat = 0x30 := rfl
  have hnine : '9'.toNat = 0x39 := rfl
  constructor <;> omega

/-- All characters of a text are printed ones. -/
def AreVisible (text : List Char) : Prop := ∀ c ∈ text, IsVisible c

-- characters are finitely many, so the instance has to be told to go through those of the text only
instance (text : List Char) : Decidable (AreVisible text) := text.decidableBAll (IsVisible ·)

/-- Visible signs in a row with others are visible. -/
theorem AreVisible.append {front back : List Char} (hfront : AreVisible front)
    (hback : AreVisible back) : AreVisible (front ++ back) := by
  intro c hc
  rcases List.mem_append.mp hc with hc | hc
  · exact hfront c hc
  · exact hback c hc

/-- A padded number is written in visible signs. -/
theorem areVisible_padded (width n : Nat) : AreVisible (Numeral.padded width n).toList := by
  intro c hc
  exact isVisible_of_isDigit (Numeral.isDigit_of_mem_padded hc)

/-- Two digits are visible signs. -/
theorem areVisible_twoDigits {n : Nat} (h : n < 100) : AreVisible (Numeral.twoDigits n).toList := by
  rw [Numeral.twoDigits_eq_padded n h]
  exact areVisible_padded 2 n

/-- The name of a weekday is written in visible signs, none of them blank. -/
theorem areVisible_weekdayName : ∀ w < 7, AreVisible (CivilDate.weekdayName w).toList ∧
    (CivilDate.weekdayName w).toList.any Text.isBlank = false := by
  decide +kernel

/-- The name of a month is written in visible signs. -/
theorem areVisible_monthName : ∀ m < 13, 1 ≤ m → AreVisible (CivilDate.monthName m).toList := by
  decide +kernel

/-- A date in range is written in visible signs. -/
theorem areVisible_written {weekday : Nat} {t : DateTime} (hw : weekday < 7) (ht : IsInRange t) :
    AreVisible (written weekday t) := by
  obtain ⟨-, hmonth, hday, hhour, hminute, hsecond⟩ := ht
  have hcomma : AreVisible [',', ' '] := by decide
  have hspace : AreVisible [' '] := by decide
  have hcolon : AreVisible [':'] := by decide
  have hzone : AreVisible [' ', 'G', 'M', 'T'] := by decide
  have hdate := ((((((areVisible_weekdayName weekday hw).1.append hcomma).append
    (areVisible_twoDigits (n := t.date.day) (by omega))).append hspace).append
    (areVisible_monthName t.date.month (by omega) hmonth.1)).append hspace).append
    (areVisible_padded 4 t.date.year.toNat)
  have htime := (((hspace.append (areVisible_twoDigits (n := t.hour) (by omega))).append
    hcolon).append (areVisible_twoDigits (n := t.minute) (by omega))).append hcolon
  have hend := (areVisible_twoDigits (n := t.second) (by omega)).append hzone
  simpa only [written, layout, List.append_assoc] using (hdate.append htime).append hend

/-- There is nothing to trim around a date. -/
theorem trim_written {weekday : Nat} (hw : weekday < 7) (t : DateTime) :
    Text.trim (written weekday t) = written weekday t := by
  obtain ⟨w₁, w₂, w₃, hname⟩ := List.length_eq_three.mp (weekdayName_read weekday hw).1
  have hhead : Text.isBlank w₁ = false := by
    have hnone := (areVisible_weekdayName weekday hw).2
    rw [hname, List.any_cons, Bool.or_eq_false_iff] at hnone
    exact hnone.1
  have hne : written weekday t ≠ [] := by simp [written, layout]
  have hfirst : Text.isBlank ((written weekday t).head hne) = false := by
    simpa [written, layout, hname] using hhead
  have hlast : Text.isBlank ((written weekday t).getLast hne) = false := by
    simp only [written, layout]
    rw [List.getLast_append_of_ne_nil _ (List.cons_ne_nil _ _)]
    decide
  have htrim : Text.trim ([] ++ written weekday t ++ []) = written weekday t :=
    Text.trim_between_blanks (by simp) (by simp) hne hfirst hlast
  simpa only [List.nil_append, List.append_nil] using htrim

/-- A time that can be written is written in visible signs. -/
theorem areVisible_textOfSeconds {seconds : Int} (h : IsWritable seconds) :
    AreVisible (textOfSeconds seconds).toList := by
  rw [toList_textOfSeconds]
  exact areVisible_written (CivilDate.weekday_lt _) (isInRange_ofSeconds h)

/-- A written date is read as the second that it was written for. -/
theorem parse?_textOfSeconds {seconds : Int} (h : IsWritable seconds) :
    parse? (textOfSeconds seconds) = some seconds := by
  have hw := CivilDate.weekday_lt (seconds / 86400)
  have ht := isInRange_ofSeconds h
  have hascii : (written (CivilDate.weekday (seconds / 86400)) (DateTime.ofSeconds seconds)).all
      (·.toNat < 0x80) = true := by
    rw [List.all_eq_true]
    intro c hc
    exact decide_eq_true (areVisible_written hw ht c hc).lt
  rw [parse?, toList_textOfSeconds, if_pos hascii, trim_written hw]
  simp only [readFixed_written hw ht, Option.some_or, Option.bind_some]
  exact seconds?_ofSeconds ht

/-- A time of the years that have a written form is written. -/
theorem text_of_isWritable {t : Timestamp} (h : IsWritable t.seconds) :
    text t = .ok (textOfSeconds t.seconds) := by
  rw [text, if_neg (Int.not_lt.mpr h.1), if_neg (Int.not_le.mpr h.2)]

/-- No other time is written. -/
theorem text_of_not_isWritable {t : Timestamp} (h : ¬ IsWritable t.seconds) :
    ∃ fault, text t = .error fault := by
  have hout : t.seconds < 0 ∨ endOfYears ≤ t.seconds := by
    rw [IsWritable, not_and_or, Int.not_le, Int.not_lt] at h
    exact h
  unfold text
  split_ifs with hbefore hnanos hafter
  · exact ⟨_, rfl⟩
  · exact ⟨_, rfl⟩
  · exact ⟨_, rfl⟩
  · omega

end HttpDate

end WebHost
