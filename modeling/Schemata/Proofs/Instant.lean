import Mathlib.Data.List.TakeWhile
import Mathlib.Data.Option.Basic
import Mathlib.Tactic.Ring
import Schemata.Proofs.Date
import Schemata.Proofs.Text.Digits

/-! The text of an instant of the calendar is read back as that instant, leap seconds included, and no text is
read as any other. -/
namespace Schemata

namespace Text

theorem not_isSpace_digit {c : Char} (digit : isDigit c = true) : isSpace c = false := by
  have all : ∀ n < 58, 48 ≤ n → isSpace (Char.ofNat n) = false := by decide
  have bounds := digit_bounds digit
  have none := all c.toNat (by omega) bounds.1
  rwa [Char.ofNat_toNat] at none

theorem skipSpace_cons {c : Char} (visible : isSpace c = false) (cs : List Char) :
    skipSpace (c :: cs) = c :: cs := List.dropWhile_cons_of_neg (by simp [visible])

theorem skipSpace_digits {ds : List Char} (digits : ∀ c ∈ ds, isDigit c = true) (nonempty : ds ≠ [])
    (rest : List Char) : skipSpace (ds ++ rest) = ds ++ rest := by
  obtain ⟨c, more, rfl⟩ := List.exists_cons_of_ne_nil nonempty
  exact skipSpace_cons (not_isSpace_digit (digits c List.mem_cons_self)) _

end Text

namespace Instant

open Text

/-- An instant of the calendar; a leap second is the last of its minute. -/
def Proper (t : Instant) : Prop :=
  inCalendar t.seconds = true ∧
    (t.nanos < 1000000000 ∨ t.nanos < 2000000000 ∧ t.seconds.fmod 60 = 59)

instance (t : Instant) : Decidable t.Proper := inferInstanceAs (Decidable (_ ∧ _))

/-- The moment that times are counted from. -/
theorem proper_epoch : (⟨0, 0⟩ : Instant).Proper := by decide

section
variable {ds rest : List Char} (digits : ∀ c ∈ ds, isDigit c = true) (nonempty : ds ≠ [])
include digits nonempty

theorem takeNumber?_exact (rest : List Char) :
    takeNumber? ds.length (ds ++ rest) = some (value ds, rest) := by
  have all := takeWhile_digits digits ends_nil
  rw [List.append_nil] at all
  rw [takeNumber?, List.take_left, all]
  cases ds with
  | nil => exact absurd rfl nonempty
  | cons c more => simp only [List.drop_left]

theorem takeNumber?_stop {width : Nat} (fits : ds.length ≤ width) (ends : Ends rest) :
    takeNumber? width (ds ++ rest) = some (value ds, rest) := by
  have ends' : Ends (rest.take (width - ds.length)) := by
    intro c head
    apply ends c
    cases rest with
    | nil => simp at head
    | cons d more =>
      cases count : width - ds.length with
      | zero => simp [count] at head
      | succ k => simpa [count] using head
  have all := takeWhile_digits digits ends'
  rw [takeNumber?, List.take_append, List.take_of_length_le fits, all]
  cases ds with
  | nil => exact absurd rfl nonempty
  | cons c more => simp only [List.drop_left]

end

theorem takePair?_padded {n : Nat} (small : n < 100) (rest : List Char) :
    takePair? (padded 2 n ++ rest) = some (n, rest) := by
  have digits := padded_digits 2 n
  have exact := takeNumber?_exact digits (padded_ne_nil 2 n) rest
  rw [length_padded (by decide) small, value_padded] at exact
  rw [takePair?, skipSpace_digits digits (padded_ne_nil 2 n), exact]

theorem takeYear?_yearText (year : Int) (rest : List Char) :
    takeYear? (yearText year ++ '-' :: rest) = some (year, '-' :: rest) := by
  have mark : Ends ('-' :: rest) := ends_cons rfl rest
  by_cases plain : 0 ≤ year ∧ year ≤ 9999
  · have digits := padded_digits 4 year.toNat
    have nonempty := padded_ne_nil 4 year.toNat
    have exact := takeNumber?_exact digits nonempty ('-' :: rest)
    rw [length_padded (by decide) (by omega), value_padded] at exact
    obtain ⟨c, more, shape⟩ := List.exists_cons_of_ne_nil nonempty
    have digit : isDigit c = true := digits c (by simp [shape])
    have back : (year.toNat : Int) = year := Int.toNat_of_nonneg plain.1
    rw [takeYear?, yearText, if_pos plain, skipSpace_digits digits nonempty]
    split
    · rename_i same
      rw [shape] at same
      cases (List.cons.inj same).1
      cases digit
    · rename_i same
      rw [shape] at same
      cases (List.cons.inj same).1
      cases digit
    · simp only [exact, Option.map_some, back]
  · have digits := padded_digits 4 year.natAbs
    have longer : (padded 4 year.natAbs).length ≤ (padded 4 year.natAbs ++ '-' :: rest).length := by simp
    have exact := takeNumber?_stop digits (padded_ne_nil 4 year.natAbs) longer mark
    rw [value_padded] at exact
    by_cases negative : year < 0
    · have back : -(year.natAbs : Int) = year := by omega
      rw [yearText, if_neg plain, if_pos negative, List.cons_append, takeYear?, skipSpace_cons rfl]
      simp only [exact, Option.map_some, back]
    · have back : (year.natAbs : Int) = year := by omega
      rw [yearText, if_neg plain, if_neg negative, List.cons_append, takeYear?, skipSpace_cons rfl]
      simp only [exact, Option.map_some, back]

theorem takeNanos?_digits {width n : Nat} (positive : 0 < width) (short : width ≤ 9) (small : n < 10 ^ width) :
    takeNanos? ('.' :: (padded width n ++ ['Z'])) = some (n * 10 ^ (9 - width), ['Z']) := by
  have length := length_padded positive small
  have all : (padded width n ++ ['Z']).takeWhile isDigit = padded width n :=
    takeWhile_digits (padded_digits width n) (ends_cons rfl [])
  have kept : (padded width n).take 9 = padded width n := List.take_of_length_le (by omega)
  have after : (padded width n ++ ['Z']).drop width = ['Z'] := List.drop_left' length
  have number := value_padded width n
  have nonempty := padded_ne_nil width n
  rw [takeNanos?, all]
  generalize padded width n = ds at *
  cases ds with
  | nil => exact absurd rfl nonempty
  | cons c more => simp only [kept, number, length, after, Nat.pow_eq]

theorem takeNanos?_fraction {n : Nat} (small : n < 1000000000) :
    takeNanos? (fraction n ++ ['Z']) = some (n, ['Z']) := by
  unfold fraction
  split
  · rename_i zero
    rw [zero]
    rfl
  · split
    · rw [List.cons_append, takeNanos?_digits (by decide) (by decide) (by omega)]
      simp only [Option.some.injEq, Prod.mk.injEq, and_true]
      omega
    · split
      · rw [List.cons_append, takeNanos?_digits (by decide) (by decide) (by omega)]
        simp only [Option.some.injEq, Prod.mk.injEq, and_true]
        omega
      · rw [List.cons_append, takeNanos?_digits (by decide) (by decide) (by omega)]
        simp

theorem takeChar?_cons (c : Char) (rest : List Char) : takeChar? c (c :: rest) = some rest := by
  simp [takeChar?]

/-- The characters of the text, part by part. -/
theorem toList_text (t : Instant) : t.text.toList = yearText t.date.year ++ '-' ::
    (padded 2 t.date.month ++ '-' :: (padded 2 t.date.day ++ 'T' ::
      (padded 2 ((t.seconds.fmod 86400).toNat / 3600) ++ ':' ::
        (padded 2 ((t.seconds.fmod 86400).toNat / 60 % 60) ++ ':' ::
          (padded 2 ((t.seconds.fmod 86400).toNat % 60 + t.nanos / 1000000000) ++
            (fraction (t.nanos % 1000000000) ++ ['Z'])))))) := by
  simp [text, stem]

/-- What is read from the text of a date and a time of day. -/
theorem ofText?_parts {d : Date} {hour minute second nanos : Nat} {text : String}
    (written : text.toList = yearText d.year ++ '-' :: (padded 2 d.month ++ '-' :: (padded 2 d.day ++ 'T' ::
      (padded 2 hour ++ ':' :: (padded 2 minute ++ ':' :: (padded 2 second ++
        (fraction nanos ++ ['Z'])))))))
    (year : -262143 ≤ d.year ∧ d.year ≤ 262142) (month : 1 ≤ d.month ∧ d.month ≤ 12)
    (day : 1 ≤ d.day ∧ d.day ≤ Date.daysIn d.year d.month) (hours : hour < 24) (minutes : minute < 60)
    (seconds : second ≤ 60) (small : nanos < 1000000000)
    (inside : inCalendar (d.toDays * 86400 +
      (hour * 3600 + minute * 60 + (if second = 60 then 59 else second) : Nat) - 0) = true) :
    ofText? text = some ⟨d.toDays * 86400 +
      (hour * 3600 + minute * 60 + (if second = 60 then 59 else second) : Nat) - 0,
      nanos + if second = 60 then 1000000000 else 0⟩ := by
  have short : d.day < 100 := by
    have : Date.daysIn d.year d.month ≤ 31 := by
      unfold Date.daysIn
      split
      · split <;> decide
      · decide
      · decide
      · decide
      · decide
      · decide
    omega
  have dash (cs : List Char) : takeChar? '-' (skipSpace ('-' :: cs)) = some cs := by
    rw [skipSpace_cons rfl, takeChar?_cons]
  have colon (cs : List Char) : takeChar? ':' (skipSpace (':' :: cs)) = some cs := by
    rw [skipSpace_cons rfl, takeChar?_cons]
  have zone : takeOffset? (skipSpace ['Z']) = some (0, []) := by rw [skipSpace_cons rfl]; rfl
  have years : (decide (-262143 ≤ d.year) && decide (d.year ≤ 262142) && decide (1 ≤ d.month) &&
      decide (d.month ≤ 12)) = true := by simp [year, month]
  have days : (decide (1 ≤ d.day) && decide (d.day ≤ Date.daysIn d.year d.month)) = true := by simp [day]
  have clock : (decide (hour < 24) && decide (minute < 60) && decide (second ≤ 60) &&
      decide ((0 : Int).natAbs < 86400)) = true := by simp [hours, minutes, seconds]
  rw [ofText?, written]
  -- One part of the text after the other is read, and then the parts are checked.
  refine Option.bind_eq_some_iff.mpr ⟨_, takeYear?_yearText _ _, ?_⟩
  refine Option.bind_eq_some_iff.mpr ⟨_, dash _, ?_⟩
  refine Option.bind_eq_some_iff.mpr ⟨_, takePair?_padded (by omega) _, ?_⟩
  refine Option.bind_eq_some_iff.mpr ⟨_, dash _, ?_⟩
  refine Option.bind_eq_some_iff.mpr ⟨_, takePair?_padded short _, ?_⟩
  refine Option.bind_eq_some_iff.mpr ⟨_, takePair?_padded (by omega) _, ?_⟩
  refine Option.bind_eq_some_iff.mpr ⟨_, colon _, ?_⟩
  refine Option.bind_eq_some_iff.mpr ⟨_, takePair?_padded (by omega) _, ?_⟩
  refine Option.bind_eq_some_iff.mpr ⟨_, colon _, ?_⟩
  refine Option.bind_eq_some_iff.mpr ⟨_, takePair?_padded (by omega) _, ?_⟩
  refine Option.bind_eq_some_iff.mpr ⟨_, takeNanos?_fraction small, ?_⟩
  refine Option.bind_eq_some_iff.mpr ⟨_, zone, ?_⟩
  refine Option.bind_eq_some_iff.mpr ⟨(), rfl, ?_⟩
  refine Option.bind_eq_some_iff.mpr ⟨(), if_pos years, ?_⟩
  refine Option.bind_eq_some_iff.mpr ⟨(), if_pos days, ?_⟩
  refine Option.bind_eq_some_iff.mpr ⟨(), if_pos clock, ?_⟩
  refine Option.bind_eq_some_iff.mpr ⟨(), if_pos inside, ?_⟩
  rfl

/-- The text of a proper instant is read back as that instant. -/
theorem ofText?_text {t : Instant} (proper : t.Proper) : ofText? t.text = some t := by
  obtain ⟨inside, second⟩ := proper
  have days : t.seconds.fdiv 86400 = t.seconds / 86400 := Int.fdiv_eq_ediv_of_nonneg _ (by decide)
  have clock : t.seconds.fmod 86400 = t.seconds % 86400 := Int.fmod_eq_emod_of_nonneg _ (by decide)
  have minute : t.seconds.fmod 60 = t.seconds % 60 := Int.fmod_eq_emod_of_nonneg _ (by decide)
  have back : t.date.toDays = t.seconds / 86400 := by rw [date, Date.toDays_ofDays, days]
  -- A leap second is counted as the sixtieth of its minute.
  have counted : (if (t.seconds.fmod 86400).toNat % 60 + t.nanos / 1000000000 = 60 then 59
      else (t.seconds.fmod 86400).toNat % 60 + t.nanos / 1000000000) =
        (t.seconds.fmod 86400).toNat % 60 := by
    rw [clock]
    rw [minute] at second
    split <;> omega
  have again : t.date.toDays * 86400 + (((t.seconds.fmod 86400).toNat / 3600 * 3600 +
      (t.seconds.fmod 86400).toNat / 60 % 60 * 60 + (t.seconds.fmod 86400).toNat % 60 : Nat) : Int) - 0 =
        t.seconds := by
    rw [back, clock]
    omega
  have nanos : t.nanos % 1000000000 +
      (if (t.seconds.fmod 86400).toNat % 60 + t.nanos / 1000000000 = 60 then 1000000000 else 0) =
        t.nanos := by
    rw [clock]
    rw [minute] at second
    split <;> omega
  have range := inside
  simp only [inCalendar, Bool.and_eq_true, decide_eq_true_eq] at range
  have year := @Date.year_ofDays (t.seconds.fdiv 86400) (by omega) (by omega)
  have read := ofText?_parts t.toList_text year (Date.month_ofDays _) (Date.day_ofDays _)
    (by rw [clock]; omega) (Nat.mod_lt _ (by decide)) (by rw [clock]; rw [minute] at second; omega)
    (Nat.mod_lt _ (by decide)) (by rw [counted, again]; exact inside)
  rw [read, counted, again, nanos]

theorem takeNanos?_lt {cs rest : List Char} {n : Nat} (taken : takeNanos? cs = some (n, rest)) :
    n < 1000000000 := by
  unfold takeNanos? at taken
  split at taken
  · rename_i cs
    split at taken
    · cases taken
    · cases taken
      have digits : ∀ c ∈ (cs.takeWhile isDigit).take 9, isDigit c = true := fun c inside =>
        List.mem_takeWhile_imp (List.mem_of_mem_take inside)
      have small := value_lt digits
      have short : ((cs.takeWhile isDigit).take 9).length ≤ 9 := List.length_take_le 9 _
      generalize (cs.takeWhile isDigit).take 9 = kept at small short
      calc value kept * 10 ^ (9 - kept.length)
          < 10 ^ kept.length * 10 ^ (9 - kept.length) :=
            Nat.mul_lt_mul_of_pos_right small (Nat.pow_pos (by decide))
        _ = 10 ^ 9 := by rw [← Nat.pow_add, Nat.add_sub_cancel' short]
  · cases taken
    decide

/-- Offsets are whole minutes. -/
theorem signed_emod {s : Char} {cs rest : List Char} {offset : Int}
    (taken : takeOffset?.signed s cs = some (offset, rest)) : offset % 60 = 0 := by
  have scaled {sign : Int} (taken : ((takeTwoDigits? cs).bind fun hours =>
      (takeTwoDigits? (skipOffsetMark hours.2)).bind fun minutes =>
        (guard (minutes.1 < 60) : Option Unit).bind fun _ =>
          some (sign * (hours.1 * 3600 + minutes.1 * 60), minutes.2)) = some (offset, rest)) :
      offset % 60 = 0 := by
    obtain ⟨hours, -, taken⟩ := Option.bind_eq_some_iff.mp taken
    obtain ⟨minutes, -, taken⟩ := Option.bind_eq_some_iff.mp taken
    obtain ⟨_, -, taken⟩ := Option.bind_eq_some_iff.mp taken
    cases taken
    have whole : sign * (hours.1 * 3600 + minutes.1 * 60) = 60 * (sign * (hours.1 * 60 + minutes.1)) := by ring
    rw [whole, Int.mul_emod_right]
  unfold takeOffset?.signed at taken
  split at taken
  · exact scaled taken
  · split at taken
    · exact scaled taken
    · cases taken

theorem takeOffset?_emod {cs rest : List Char} {offset : Int} (taken : takeOffset? cs = some (offset, rest)) :
    offset % 60 = 0 := by
  unfold takeOffset? at taken
  split at taken
  · cases taken
    rfl
  · cases taken
    rfl
  · split at taken
    · cases taken
      rfl
    · exact signed_emod taken
  · exact signed_emod taken
  · cases taken

/-- Only proper instants are read: the day is checked in UTC too, and an offset of whole minutes leaves a leap
second the last of its minute. -/
theorem proper_of_ofText? {text : String} {t : Instant} (found : ofText? text = some t) : t.Proper := by
  obtain ⟨⟨year, _⟩, -, found⟩ := Option.bind_eq_some_iff.mp found
  obtain ⟨_, -, found⟩ := Option.bind_eq_some_iff.mp found
  obtain ⟨⟨month, _⟩, -, found⟩ := Option.bind_eq_some_iff.mp found
  obtain ⟨_, -, found⟩ := Option.bind_eq_some_iff.mp found
  obtain ⟨⟨day, _⟩, -, found⟩ := Option.bind_eq_some_iff.mp found
  dsimp only at found
  split at found
  · split at found
    · obtain ⟨_, -, found⟩ := Option.bind_eq_some_iff.mp found
      obtain ⟨⟨hour, _⟩, -, found⟩ := Option.bind_eq_some_iff.mp found
      obtain ⟨_, -, found⟩ := Option.bind_eq_some_iff.mp found
      obtain ⟨⟨minute, _⟩, -, found⟩ := Option.bind_eq_some_iff.mp found
      obtain ⟨_, -, found⟩ := Option.bind_eq_some_iff.mp found
      obtain ⟨⟨second, _⟩, -, found⟩ := Option.bind_eq_some_iff.mp found
      obtain ⟨⟨nanos, _⟩, fraction, found⟩ := Option.bind_eq_some_iff.mp found
      obtain ⟨⟨offset, _⟩, zone, found⟩ := Option.bind_eq_some_iff.mp found
      -- Of the five checks only the last says something about the instant; the sixtieth second is the leap one.
      obtain ⟨_, -, found⟩ := Option.bind_eq_some_iff.mp found
      obtain ⟨_, -, found⟩ := Option.bind_eq_some_iff.mp found
      obtain ⟨_, -, found⟩ := Option.bind_eq_some_iff.mp found
      obtain ⟨_, -, found⟩ := Option.bind_eq_some_iff.mp found
      obtain ⟨_, guarded, found⟩ := Option.bind_eq_some_iff.mp found
      have inside := (Option.guard_eq_some' _).mp guarded
      cases found
      have small := takeNanos?_lt fraction
      have whole := takeOffset?_emod zone
      refine ⟨inside, ?_⟩
      rw [Int.fmod_eq_emod_of_nonneg _ (by decide)]
      dsimp only
      split
      · right
        omega
      · omega
    · cases found
  · cases found

end Instant

end Schemata
