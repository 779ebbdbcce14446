import Orchestration.Proofs.CalendarDays
import Orchestration.Proofs.WrittenDigits
import Orchestration.Time.Timestamp

/-!
# Times in writing

A time that was written is read as it was: in the loose form whatever its year, in the exchange format if the year has
four digits, and not at all otherwise.

* `Time.Timestamp.Sound` — the times that can be read at all.
* `Time.Fields.zoned?_written` — the fields of a sound time name it.
* `Time.Zoned.readStrict?_stored` — the exchange format.
* `Time.Zoned.readLoose?_document` — the loose form.
* `Time.Zoned.sound_of_readLoose?` — whatever is read is sound.
-/

namespace Orchestration.Time

open Number Text

/-! ### Times that can be read -/

namespace Timestamp

/-- The year is one that dates can have, and only the last second of a minute has a leap second after it. -/
structure Sound (t : Timestamp) : Prop where
  /-- the nanoseconds are those of a second, or of a leap second -/
  nanos_lt : t.nanos < 1000000000 ∨ t.nanos < 2000000000 ∧ t.seconds % 60 = 59
  /-- the year is not too early -/
  first_le : Date.firstYear ≤ t.date.year
  /-- the year is not too late -/
  le_last : t.date.year ≤ Date.lastYear

instance (t : Timestamp) : Decidable t.Sound :=
  decidable_of_iff (_ ∧ _ ∧ _) ⟨fun h => ⟨h.1, h.2.1, h.2.2⟩, fun h => ⟨h.1, h.2, h.3⟩⟩

end Timestamp

/-- The fields of a time as universal time shows it. -/
def Timestamp.fields (t : Timestamp) : Fields where
  date := t.date
  hour := t.secondOfDay / 3600
  minute := t.secondOfDay / 60 % 60
  second := t.secondOfDay % 60 + t.nanos / 1000000000
  nanos := t.nanos % 1000000000
  offset := 0

/-- **The fields of a sound time** name it. -/
theorem Fields.zoned?_fields {t : Timestamp} (h : t.Sound) : t.fields.zoned? = some ⟨t, 0⟩ := by
  obtain ⟨seconds, nanos⟩ := t
  obtain ⟨hnanos, hfirst, hlast⟩ := h
  simp only at hnanos
  obtain ⟨clock, hclock, hday⟩ : ∃ clock : Nat, seconds % 86400 = clock ∧ clock < 86400 :=
    ⟨(seconds % 86400).toNat, by omega, by omega⟩
  have hsecondOfDay : Timestamp.secondOfDay ⟨seconds, nanos⟩ = clock := by
    rw [Timestamp.secondOfDay, hclock]
    rfl
  have hleap : (if clock % 60 + nanos / 1000000000 = 60 then 1 else 0) = nanos / 1000000000 := by
    split <;> omega
  have hdays : Date.toDays (Timestamp.date ⟨seconds, nanos⟩) = seconds / 86400 := Date.toDays_ofDays _
  have hinstant : (⟨seconds / 86400 * 86400 +
        (clock / 3600 * 3600 + clock / 60 % 60 * 60 + (clock % 60 + nanos / 1000000000) - nanos / 1000000000 : Nat) - 0,
      nanos % 1000000000 + nanos / 1000000000 * 1000000000⟩ : Timestamp) = ⟨seconds, nanos⟩ := by
    congr 1 <;> omega
  have hhour : clock / 3600 < 24 := by omega
  have hminute : clock / 60 % 60 < 60 := by omega
  have hsecond : clock % 60 + nanos / 1000000000 ≤ 60 := by omega
  have hvalid : Date.isValid (Timestamp.date ⟨seconds, nanos⟩) = true := Date.isValid_ofDays hfirst hlast
  rw [Fields.zoned?]
  simp only [Timestamp.fields, hsecondOfDay, hleap, hdays, hinstant, hvalid]
  rw [if_pos (by simp [hhour, hminute, hsecond]), if_pos ⟨hfirst, hlast⟩]

/-! ### Numbers with leading zeros -/

theorem toList_padded (width n : Nat) :
    (padded width n).toList = List.replicate (width - (digitChars n).length) '0' ++ digitChars n := by
  rw [padded, String.toList_ofList]
  rfl

theorem areDigits_padded (width n : Nat) : AreDigits (padded width n).toList := by
  rw [toList_padded]
  exact (areDigits_replicate_zero _).append (areDigits_digitChars n)

theorem digitsValue_padded (width n : Nat) : digitsValue (padded width n).toList = n := by
  rw [toList_padded, digitsValue_zeros_append, digitsValue_digitChars]

theorem length_padded {width n : Nat} (hwidth : 0 < width) (h : n < tenTo width) :
    (padded width n).toList.length = width := by
  have hlength : (digitChars n).length ≤ width := (Nat.length_toDigits_le_iff (by decide) hwidth).mpr h
  rw [toList_padded, List.length_append, List.length_replicate]
  omega

/-- There is no number without a digit. -/
theorem length_padded_pos (width n : Nat) : 0 < (padded width n).toList.length := by
  have hlength : 0 < (digitChars n).length := Nat.length_toDigits_pos
  rw [toList_padded, List.length_append]
  omega

/-- **A row of digits** is read whole if it is long enough, and not too long unless it fills all there is room for. -/
theorem readDigits?_append {least most : Nat} {ds rest : List Char} (h : AreDigits ds) (hleast : least ≤ ds.length)
    (hmost : ds.length ≤ most) (hstops : ds.length = most ∨ StopsDigits rest) :
    readDigits? least most (ds ++ rest) = some (digitsValue ds, rest) := by
  have htaken : ((ds ++ rest).take most).takeWhile Char.isDigit = ds := by
    rw [List.take_append, List.take_of_length_le hmost]
    refine Text.takeWhile_append_ended h ?_
    rcases hstops with hfull | hstops
    · rw [hfull, Nat.sub_self]
      exact stopsDigits_nil
    · exact hstops.take _
  have hlength : ¬ds.length < least := by omega
  rw [readDigits?]
  simp only [htaken, if_neg hlength, List.drop_left]


/-- A number of so many digits with leading zeros is read whole where there is room for no more digits. -/
theorem readDigits?_padded {least width n : Nat} (rest : List Char) (hwidth : 0 < width) (hleast : least ≤ width)
    (h : n < tenTo width) : readDigits? least width ((padded width n).toList ++ rest) = some (n, rest) := by
  have hlength := length_padded hwidth h
  rw [readDigits?_append (areDigits_padded width n) (by omega) (by omega) (.inl hlength), digitsValue_padded]

/-! ### Years -/

/-- A year of four digits. -/
theorem readDigits?_writeYear {year : Int} (hfirst : 0 ≤ year) (hlast : year ≤ 9999) {least : Nat}
    (hleast : least ≤ 4) (rest : List Char) :
    readDigits? least 4 ((writeYear year).toList ++ rest) = some (year.toNat, rest) := by
  have hbound : year.toNat < tenTo 4 := by
    have hfour : tenTo 4 = 10000 := rfl
    omega
  rw [writeYear, if_pos ⟨hfirst, hlast⟩, readDigits?_padded rest (by decide) hleast hbound]

/-- A year that is not of four digits is written with a sign in front. -/
theorem writeYear_signed {year : Int} (h : ¬(0 ≤ year ∧ year ≤ 9999)) :
    ∃ sign, (writeYear year).toList = sign :: (padded 4 year.natAbs).toList ∧
      (sign = '-' ∧ year < 0 ∨ sign = '+' ∧ 0 < year) := by
  rw [writeYear, if_neg h]
  by_cases hnegative : year < 0
  · exact ⟨'-', by rw [if_pos hnegative]; simp, .inl ⟨rfl, hnegative⟩⟩
  · exact ⟨'+', by rw [if_neg hnegative]; simp, .inr ⟨rfl, by omega⟩⟩

/-- A year of four digits begins with one. -/
theorem writeYear_head {year : Int} (h : 0 ≤ year ∧ year ≤ 9999) :
    ∃ c cs, (writeYear year).toList = c :: cs ∧ c.isDigit = true := by
  rw [writeYear, if_pos h]
  have hpos := length_padded_pos 4 year.toNat
  have hdigits := areDigits_padded 4 year.toNat
  cases hchars : (padded 4 year.toNat).toList with
  | nil => simp [hchars] at hpos
  | cons c cs => exact ⟨c, cs, rfl, hdigits c (by simp [hchars])⟩

/-- **A year** is read in the loose form, whatever it is. -/
theorem readYear?_writeYear (year : Int) {rest : List Char} (hrest : StopsDigits rest) :
    Zoned.readYear? ((writeYear year).toList ++ rest) = some (year, rest) := by
  by_cases hfour : 0 ≤ year ∧ year ≤ 9999
  · obtain ⟨c, cs, hchars, hc⟩ := writeYear_head hfour
    have hplain := readDigits?_writeYear hfour.1 hfour.2 (show 1 ≤ 4 by decide) rest
    rw [hchars, List.cons_append] at hplain ⊢
    rw [Zoned.readYear?, hplain]
    · simp only [Option.map_some]
      congr 2
      omega
    · intro other heq
      obtain ⟨rfl, -⟩ := List.cons.inj heq
      cases hc
    · intro other heq
      obtain ⟨rfl, -⟩ := List.cons.inj heq
      cases hc
  · have hread : ∀ n, readDigits? 1 ((padded 4 n).toList ++ rest).length ((padded 4 n).toList ++ rest) =
        some (n, rest) := by
      intro n
      rw [readDigits?_append (areDigits_padded 4 n) (length_padded_pos 4 n) (by simp) (.inr hrest),
        digitsValue_padded]
    obtain ⟨sign, hchars, ⟨rfl, hsign⟩ | ⟨rfl, hsign⟩⟩ := writeYear_signed hfour
    · rw [hchars, List.cons_append, Zoned.readYear?, hread]
      simp only [Option.map_some]
      congr 2
      omega
    · rw [hchars, List.cons_append, Zoned.readYear?, hread]
      simp only [Option.map_some]
      congr 2
      omega

/-! ### Fractions of a second -/

/-- The digits behind a point are the first of nine. -/
theorem readNanos?_padded {width n : Nat} (hwidth : 0 < width) (hnine : width ≤ 9) (hn : n < tenTo width)
    {rest : List Char} (hrest : StopsDigits rest) :
    readNanos? (("." ++ padded width n).toList ++ rest) = some (n * tenTo (9 - width), rest) := by
  have hlength := length_padded hwidth hn
  have hne : (padded width n).toList.isEmpty = false := by
    cases hchars : (padded width n).toList with
    | nil =>
      rw [hchars] at hlength
      exact absurd hlength.symm (Nat.ne_of_gt hwidth)
    | cons c cs => rfl
  have hspan := spanDigits_append (areDigits_padded width n) hrest
  have htake : (padded width n).toList.take 9 = (padded width n).toList := List.take_of_length_le (by omega)
  have hchars : ("." ++ padded width n).toList ++ rest = '.' :: ((padded width n).toList ++ rest) := by simp
  rw [hchars, readNanos?, hspan]
  simp only [hne, htake, digitsValue_padded, hlength]
  rfl

/-- Without a point there are none. -/
theorem readNanos?_of_no_point {rest : List Char} (h : rest.head? ≠ some '.') : readNanos? rest = some (0, rest) := by
  cases rest with
  | nil => rfl
  | cons c rest =>
    rw [readNanos?]
    intro cs heq
    obtain ⟨rfl, -⟩ := List.cons.inj heq
    exact h rfl

/-- **Nanoseconds** are read as they were, whichever digits of them were left out. -/
theorem readNanos?_writeFraction {nanos : Nat} (h : nanos < 1000000000) {rest : List Char} (hrest : StopsDigits rest)
    (hpoint : rest.head? ≠ some '.') :
    readNanos? ((writeFraction nanos).toList ++ rest) = some (nanos, rest) := by
  have hunit : tenTo (9 - 3) = 1000000 ∧ tenTo (9 - 6) = 1000 ∧ tenTo (9 - 9) = 1 := by decide
  have hbound : tenTo 3 = 1000 ∧ tenTo 6 = 1000000 := by decide
  rw [writeFraction]
  split
  · next hzero =>
    subst hzero
    rw [String.toList_empty, List.nil_append, readNanos?_of_no_point hpoint]
  · split
    · rw [readNanos?_padded (by decide) (by decide) (by omega) hrest, hunit.1]
      congr 2
      omega
    · split
      · rw [readNanos?_padded (by decide) (by decide) (by omega) hrest, hunit.2.1]
        congr 2
        omega
      · rw [readNanos?_padded (by decide) (by decide) h hrest, hunit.2.2, Nat.mul_one]

/-! ### Whole times -/

section Reading

variable {t : Timestamp}

/-- The characters of a written time up to its fraction. -/
theorem toList_write (t : Timestamp) : t.write.toList =
    (writeYear t.fields.date.year).toList ++ '-' :: ((padded 2 t.fields.date.month).toList ++ '-' ::
      ((padded 2 t.fields.date.day).toList ++ 'T' :: ((padded 2 t.fields.hour).toList ++ ':' ::
        ((padded 2 t.fields.minute).toList ++ ':' :: ((padded 2 t.fields.second).toList ++
          (writeFraction t.fields.nanos).toList))))) := by
  simp [Timestamp.write, Timestamp.fields, ToString.toString]

/-- All fields but the year have two digits. -/
theorem Timestamp.Sound.fields_lt (h : t.Sound) :
    t.fields.date.month < tenTo 2 ∧ t.fields.date.day < tenTo 2 ∧ t.fields.hour < tenTo 2 ∧
      t.fields.minute < tenTo 2 ∧ t.fields.second < tenTo 2 ∧ t.fields.nanos < 1000000000 := by
  obtain ⟨-, -, hmonth, -, hday⟩ := Date.isDateOf_ofDays (t.seconds / 86400)
  have hmonths : ∀ year month, daysInMonth year month ≤ 31 := by
    intro year month
    rw [daysInMonth]
    split
    · split <;> decide
    · split <;> decide
  have hclock : t.secondOfDay < 86400 := by
    rw [Timestamp.secondOfDay]
    omega
  have hnanos := h.nanos_lt
  have hlongest := Nat.le_trans hday (hmonths _ _)
  have hhundred : tenTo 2 = 100 := rfl
  simp only [Timestamp.fields, Timestamp.date, hhundred]
  omega

theorem readMark?_mark (rest : List Char) : readMark? ('T' :: rest) = some rest := rfl

theorem expect?_self (c : Char) (rest : List Char) : expect? c (c :: rest) = some rest := if_pos rfl

/-- **The exchange format.** A time whose year has four digits is read as it was. -/
theorem Zoned.readStrict?_stored (h : t.Sound) (hfirst : 0 ≤ t.date.year) (hlast : t.date.year ≤ 9999) :
    readStrict? t.stored = some ⟨t, 0⟩ := by
  obtain ⟨hmonth, hday, hhour, hminute, hsecond, hnanos⟩ := h.fields_lt
  have hyear (rest : List Char) : readDigits? 4 4 ((writeYear t.fields.date.year).toList ++ rest) =
      some (t.fields.date.year.toNat, rest) := readDigits?_writeYear hfirst hlast (Nat.le_refl 4) rest
  have hfield {n : Nat} (hn : n < tenTo 2) (rest : List Char) :
      readDigits? 2 2 ((padded 2 n).toList ++ rest) = some (n, rest) :=
    readDigits?_padded rest (by decide) (Nat.le_refl 2) hn
  have hfraction : readNanos? ((writeFraction t.fields.nanos).toList ++ "+00:00".toList) =
      some (t.fields.nanos, "+00:00".toList) := readNanos?_writeFraction hnanos (stopsDigits_cons rfl) (by decide)
  have hzone : readOffset? (expect? ':') "+00:00".toList = some (0, []) := by decide
  have hdate : (⟨t.fields.date.year.toNat, t.fields.date.month, t.fields.date.day⟩ : Date) = t.fields.date := by
    have hcast : (t.fields.date.year.toNat : Int) = t.fields.date.year := Int.toNat_of_nonneg hfirst
    rw [hcast]
  rw [readStrict?, Timestamp.stored, String.toList_append, toList_write]
  simp only [List.append_assoc, List.cons_append]
  refine Option.bind_eq_some_iff.mpr ⟨_, hyear _, ?_⟩
  refine Option.bind_eq_some_iff.mpr ⟨_, expect?_self '-' _, ?_⟩
  refine Option.bind_eq_some_iff.mpr ⟨_, hfield hmonth _, ?_⟩
  refine Option.bind_eq_some_iff.mpr ⟨_, expect?_self '-' _, ?_⟩
  refine Option.bind_eq_some_iff.mpr ⟨_, hfield hday _, ?_⟩
  refine Option.bind_eq_some_iff.mpr ⟨_, readMark?_mark _, ?_⟩
  refine Option.bind_eq_some_iff.mpr ⟨_, hfield hhour _, ?_⟩
  refine Option.bind_eq_some_iff.mpr ⟨_, expect?_self ':' _, ?_⟩
  refine Option.bind_eq_some_iff.mpr ⟨_, hfield hminute _, ?_⟩
  refine Option.bind_eq_some_iff.mpr ⟨_, expect?_self ':' _, ?_⟩
  refine Option.bind_eq_some_iff.mpr ⟨_, hfield hsecond _, ?_⟩
  refine Option.bind_eq_some_iff.mpr ⟨_, hfraction, ?_⟩
  refine Option.bind_eq_some_iff.mpr ⟨_, hzone, ?_⟩
  refine (if_pos rfl).trans ?_
  rw [hdate]
  exact Fields.zoned?_fields h

/-- **Other years** cannot be read in the exchange format, for it has no signs. -/
theorem Zoned.readStrict?_stored_eq_none (h : ¬(0 ≤ t.date.year ∧ t.date.year ≤ 9999)) :
    readStrict? t.stored = none := by
  obtain ⟨sign, hchars, hsign⟩ := writeYear_signed h
  have hnodigit : sign.isDigit = false := by
    rcases hsign with ⟨rfl, -⟩ | ⟨rfl, -⟩ <;> rfl
  have hread : ∀ rest, readDigits? 4 4 ((writeYear t.fields.date.year).toList ++ rest) = none := by
    intro rest
    have hyear : (writeYear t.fields.date.year).toList = sign :: (padded 4 t.fields.date.year.natAbs).toList := hchars
    rw [hyear, List.cons_append, readDigits?, List.take_succ_cons,
      List.takeWhile_cons_of_neg (by simp [hnodigit])]
    rfl
  rw [readStrict?, Timestamp.stored, String.toList_append, toList_write, List.append_assoc, hread]
  rfl

theorem isBlank_digit_code : ∀ n < 58, 48 ≤ n → isBlank (Char.ofNat n) = false := by decide

theorem isBlank_of_isDigit {c : Char} (h : c.isDigit = true) : isBlank c = false := by
  obtain ⟨hzero, hnine⟩ := Bool.and_eq_true_iff.mp h
  have hfirst : 48 ≤ c.toNat := of_decide_eq_true hzero
  have hlast : c.toNat ≤ 57 := of_decide_eq_true hnine
  have hcode := isBlank_digit_code c.toNat (by omega) hfirst
  rwa [Char.ofNat_toNat] at hcode

theorem dropBlanks_cons {c : Char} (h : isBlank c = false) (cs : List Char) : dropBlanks (c :: cs) = c :: cs :=
  List.dropWhile_cons_of_neg (by simp [h])

/-- There are no blanks in front of a number. -/
theorem dropBlanks_padded (width n : Nat) (rest : List Char) :
    dropBlanks ((padded width n).toList ++ rest) = (padded width n).toList ++ rest := by
  have hpos := length_padded_pos width n
  have hdigits := areDigits_padded width n
  cases hchars : (padded width n).toList with
  | nil =>
    rw [hchars] at hpos
    cases hpos
  | cons c cs => exact dropBlanks_cons (isBlank_of_isDigit (hdigits c (by simp [hchars]))) _

theorem dropBlanks_writeYear (year : Int) (rest : List Char) :
    dropBlanks ((writeYear year).toList ++ rest) = (writeYear year).toList ++ rest := by
  by_cases hfour : 0 ≤ year ∧ year ≤ 9999
  · rw [writeYear, if_pos hfour, dropBlanks_padded]
  · obtain ⟨sign, hchars, ⟨rfl, -⟩ | ⟨rfl, -⟩⟩ := writeYear_signed hfour
    · rw [hchars, List.cons_append, dropBlanks_cons (by decide)]
    · rw [hchars, List.cons_append, dropBlanks_cons (by decide)]

theorem expect?_dropBlanks {c : Char} (h : isBlank c = false) (rest : List Char) :
    expect? c (dropBlanks (c :: rest)) = some rest := by
  rw [dropBlanks_cons h, expect?_self]

/-- **The loose form.** A time that was written for a document is read as it was. -/
theorem Zoned.readLoose?_document (h : t.Sound) : readLoose? t.document = some ⟨t, 0⟩ := by
  obtain ⟨hmonth, hday, hhour, hminute, hsecond, hnanos⟩ := h.fields_lt
  have hyear (rest : List Char) : readYear? (dropBlanks ((writeYear t.fields.date.year).toList ++ '-' :: rest)) =
      some (t.fields.date.year, '-' :: rest) := by
    rw [dropBlanks_writeYear, readYear?_writeYear _ (stopsDigits_cons rfl)]
  have hfield {n : Nat} (hn : n < tenTo 2) (rest : List Char) :
      readDigits? 1 2 (dropBlanks ((padded 2 n).toList ++ rest)) = some (n, rest) := by
    rw [dropBlanks_padded, readDigits?_padded rest (by decide) (by decide) hn]
  have hdash : isBlank '-' = false := by decide
  have hcolon : isBlank ':' = false := by decide
  have hfraction : readNanos? ((writeFraction t.fields.nanos).toList ++ "Z".toList) =
      some (t.fields.nanos, "Z".toList) := readNanos?_writeFraction hnanos (stopsDigits_cons rfl) (by decide)
  have hnotUtc : ¬sameAsciiLetters (.ofList ((dropBlanks "Z".toList).take 3)) "utc" = true := by decide
  rw [readLoose?, Timestamp.document, String.toList_append, toList_write]
  simp only [List.append_assoc, List.cons_append]
  refine Option.bind_eq_some_iff.mpr ⟨_, hyear _, ?_⟩
  refine Option.bind_eq_some_iff.mpr ⟨_, expect?_dropBlanks hdash _, ?_⟩
  refine Option.bind_eq_some_iff.mpr ⟨_, hfield hmonth _, ?_⟩
  refine Option.bind_eq_some_iff.mpr ⟨_, expect?_dropBlanks hdash _, ?_⟩
  refine Option.bind_eq_some_iff.mpr ⟨_, hfield hday _, ?_⟩
  refine Option.bind_eq_some_iff.mpr ⟨_, readMark?_mark _, ?_⟩
  refine Option.bind_eq_some_iff.mpr ⟨_, hfield hhour _, ?_⟩
  refine Option.bind_eq_some_iff.mpr ⟨_, expect?_dropBlanks hcolon _, ?_⟩
  refine Option.bind_eq_some_iff.mpr ⟨_, hfield hminute _, ?_⟩
  refine Option.bind_eq_some_iff.mpr ⟨_, expect?_dropBlanks hcolon _, ?_⟩
  refine Option.bind_eq_some_iff.mpr ⟨_, hfield hsecond _, ?_⟩
  refine Option.bind_eq_some_iff.mpr ⟨_, hfraction, ?_⟩
  refine (if_neg hnotUtc).trans ?_
  refine Option.bind_eq_some_iff.mpr ⟨(0, []), rfl, ?_⟩
  refine (if_pos rfl).trans ?_
  exact Fields.zoned?_fields h

/-! ### What can be read -/

theorem digitsValue_take_lt {ds : List Char} (h : AreDigits ds) (count : Nat) :
    digitsValue (ds.take count) * tenTo (count - (ds.take count).length) < tenTo count := by
  have hlength : (ds.take count).length ≤ count := List.length_take_le ..
  calc digitsValue (ds.take count) * tenTo (count - (ds.take count).length)
      < tenTo (ds.take count).length * tenTo (count - (ds.take count).length) :=
        Nat.mul_lt_mul_of_pos_right (digitsValue_lt (h.take count)) (tenTo_pos _)
    _ = tenTo count := by rw [← tenTo_add, Nat.add_sub_cancel' hlength]

theorem readNanos?_lt {cs rest : List Char} {nanos : Nat} (h : readNanos? cs = some (nanos, rest)) :
    nanos < 1000000000 := by
  rw [readNanos?.eq_def] at h
  split at h
  · next cs =>
    have hdigits : AreDigits (spanDigits cs).1 := List.all_eq_true.mp List.all_takeWhile
    by_cases hempty : (spanDigits cs).1.isEmpty = true
    · simp [hempty] at h
    · simp only [hempty] at h
      obtain ⟨rfl, -⟩ := Prod.mk.inj (Option.some.inj h)
      exact digitsValue_take_lt hdigits 9
  · obtain ⟨rfl, -⟩ := Prod.mk.inj (Option.some.inj h)
    decide

/-- Offsets are whole minutes. -/
theorem readOffset?_mod {separator? : List Char → Option (List Char)} {cs rest : List Char} {offset : Int}
    (h : readOffset? separator? cs = some (offset, rest)) : offset % 60 = 0 := by
  rw [readOffset?.eq_def] at h
  split at h
  · obtain ⟨rfl, -⟩ := Prod.mk.inj (Option.some.inj h)
    rfl
  · obtain ⟨rfl, -⟩ := Prod.mk.inj (Option.some.inj h)
    rfl
  · split at h
    · simp only [Option.bind_eq_bind, Option.bind_eq_some_iff, Option.pure_def] at h
      obtain ⟨⟨hours, afterHours⟩, -, afterMark, -, ⟨minutes, afterMinutes⟩, -, h⟩ := h
      simp only at h
      split at h
      · cases h
      · obtain ⟨hsigned, -⟩ := Prod.mk.inj (Option.some.inj h)
        split at hsigned <;> omega
    · cases h
  · cases h

/-- Fields that name a time name a sound one, if they count nanoseconds within a second and offsets in minutes. -/
theorem Fields.sound_of_zoned? {f : Fields} {z : Zoned} (hnanos : f.nanos < 1000000000) (hoffset : f.offset % 60 = 0)
    (h : f.zoned? = some z) : z.instant.Sound := by
  rw [Fields.zoned?] at h
  split at h
  · obtain ⟨leap, hleap⟩ : ∃ leap : Nat, (if f.second = 60 then 1 else 0) = leap := ⟨_, rfl⟩
    simp only [hleap] at h
    split at h
    · next hyear =>
      obtain rfl := Option.some.inj h
      refine ⟨?_, hyear.1, hyear.2⟩
      simp only
      split at hleap
      · -- what is left of a minute of 61 seconds are 59
        right
        omega
      · left
        omega
    · cases h
  · cases h

/-- **What is read** in the loose form is sound. -/
theorem Zoned.sound_of_readLoose? {s : String} {z : Zoned} (h : readLoose? s = some z) : z.instant.Sound := by
  rw [readLoose?] at h
  obtain ⟨⟨year, cs⟩, -, h⟩ := Option.bind_eq_some_iff.mp h
  obtain ⟨cs, -, h⟩ := Option.bind_eq_some_iff.mp h
  obtain ⟨⟨month, cs⟩, -, h⟩ := Option.bind_eq_some_iff.mp h
  obtain ⟨cs, -, h⟩ := Option.bind_eq_some_iff.mp h
  obtain ⟨⟨day, cs⟩, -, h⟩ := Option.bind_eq_some_iff.mp h
  obtain ⟨cs, -, h⟩ := Option.bind_eq_some_iff.mp h
  obtain ⟨⟨hour, cs⟩, -, h⟩ := Option.bind_eq_some_iff.mp h
  obtain ⟨cs, -, h⟩ := Option.bind_eq_some_iff.mp h
  obtain ⟨⟨minute, cs⟩, -, h⟩ := Option.bind_eq_some_iff.mp h
  obtain ⟨cs, -, h⟩ := Option.bind_eq_some_iff.mp h
  obtain ⟨⟨second, cs⟩, -, h⟩ := Option.bind_eq_some_iff.mp h
  obtain ⟨⟨nanos, afterNanos⟩, hnanos, h⟩ := Option.bind_eq_some_iff.mp h
  have hnanosLt := readNanos?_lt hnanos
  dsimp only at h
  split at h
  · obtain ⟨⟨offset, rest⟩, hoffset, h⟩ := Option.bind_eq_some_iff.mp h
    obtain ⟨rfl, -⟩ := Prod.mk.inj (Option.some.inj hoffset)
    simp only at h
    split at h
    · exact Fields.sound_of_zoned? hnanosLt rfl h
    · cases h
  · obtain ⟨⟨offset, rest⟩, hoffset, h⟩ := Option.bind_eq_some_iff.mp h
    simp only at h
    split at h
    · exact Fields.sound_of_zoned? hnanosLt (readOffset?_mod hoffset) h
    · cases h

end Reading

end Orchestration.Time
