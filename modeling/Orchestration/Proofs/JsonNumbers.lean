import Orchestration.Json.Token
import Orchestration.Proofs.WrittenDigits

/-!
# Numbers of documents

A number is read up to what cannot belong to it, so a number that is read alone is read in front of anything that does
not go on with it. What is put together from a sign, digits, a point and an exponent is read in these parts.

* `Number.StopsNumber` — what may follow a number.
* `JsonToken.readNumber?_append` — a number in front of it.
* `JsonToken.readNumber?_parts` — a number in its parts.
-/

namespace Orchestration

open Number

namespace Number

variable {cs rest : List Char}

/-- What follows a number does not go on with it. -/
def StopsNumber (rest : List Char) : Prop :=
  ∀ c ∈ rest.head?, c.isDigit = false ∧ c ≠ '.' ∧ c ≠ 'e' ∧ c ≠ 'E'

theorem stopsNumber_nil : StopsNumber [] := nofun

theorem stopsNumber_cons {c : Char} (h : c.isDigit = false ∧ c ≠ '.' ∧ c ≠ 'e' ∧ c ≠ 'E') :
    StopsNumber (c :: rest) := fun _ hd => Option.some.inj hd ▸ h

theorem StopsNumber.stopsDigits (h : StopsNumber rest) : StopsDigits rest := fun c hc => (h c hc).1

/-- Digits are the same in front of what is none. -/
theorem spanDigits_stops (cs : List Char) (h : StopsDigits rest) :
    spanDigits (cs ++ rest) = ((spanDigits cs).1, (spanDigits cs).2 ++ rest) := by
  have hparts : cs = (spanDigits cs).1 ++ (spanDigits cs).2 := List.takeWhile_append_dropWhile.symm
  have hdigits : AreDigits (spanDigits cs).1 := fun c hc => (List.all_eq_true.mp List.all_takeWhile) c hc
  have hstops : StopsDigits ((spanDigits cs).2 ++ rest) := by
    intro c hc
    cases hrest : (spanDigits cs).2 with
    | nil =>
      rw [hrest, List.nil_append] at hc
      exact h c hc
    | cons d ds =>
      rw [hrest] at hc
      obtain rfl := Option.some.inj hc
      have hhead := List.head?_dropWhile_not Char.isDigit cs
      have hdrop : cs.dropWhile Char.isDigit = d :: ds := hrest
      rw [hdrop] at hhead
      simpa using hhead
  conv => lhs; rw [hparts, List.append_assoc]
  exact spanDigits_append hdigits hstops

theorem readSign_append (hcs : cs ≠ []) (rest : List Char) :
    readSign (cs ++ rest) = ((readSign cs).1, (readSign cs).2 ++ rest) := by
  obtain ⟨c, cs, rfl⟩ := List.exists_cons_of_ne_nil hcs
  rw [List.cons_append]
  unfold readSign
  split <;> split <;> simp_all

end Number

namespace JsonToken

variable {cs rest after : List Char}

/-- A minus sign, if there is one, and what follows it. -/
def splitMinus : List Char → Bool × List Char
  | '-' :: cs => (true, cs)
  | cs => (false, cs)

/-- The whole part of a number, which has no zero in front, and what follows it. -/
def splitWhole : List Char → List Char × List Char
  | '0' :: cs => (['0'], cs)
  | cs => spanDigits cs

/-- A number is read part by part. -/
theorem readNumber?_eq (cs : List Char) :
    readNumber? cs =
      if (splitWhole (splitMinus cs).2).1.isEmpty then none
      else (readFraction? (splitWhole (splitMinus cs).2).2).bind fun f => (readPower? f.2).bind fun p =>
        some (.number ⟨(splitMinus cs).1, (splitWhole (splitMinus cs).2).1, f.1, p.1.getD 0⟩
          (f.1.isEmpty && p.1.isNone), p.2) := by
  by_cases hempty : (splitWhole (splitMinus cs).2).1.isEmpty = true
  · rw [if_pos hempty]
    exact if_pos hempty
  · rw [if_neg hempty]
    exact if_neg hempty

theorem splitMinus_append (hcs : cs ≠ []) (rest : List Char) :
    splitMinus (cs ++ rest) = ((splitMinus cs).1, (splitMinus cs).2 ++ rest) := by
  obtain ⟨c, cs, rfl⟩ := List.exists_cons_of_ne_nil hcs
  rw [List.cons_append]
  unfold splitMinus
  split <;> split <;> simp_all

theorem splitWhole_append (hcs : cs ≠ []) (hrest : StopsDigits rest) :
    splitWhole (cs ++ rest) = ((splitWhole cs).1, (splitWhole cs).2 ++ rest) := by
  obtain ⟨c, cs, rfl⟩ := List.exists_cons_of_ne_nil hcs
  by_cases hzero : c = '0'
  · subst hzero
    rfl
  · have hsplit : ∀ others, splitWhole (c :: others) = spanDigits (c :: others) := by
      intro others
      unfold splitWhole
      split
      · next heq => exact absurd (List.cons.inj heq).1 hzero
      · rfl
    rw [List.cons_append, hsplit, hsplit, ← List.cons_append, spanDigits_stops _ hrest]

theorem readFraction?_append {fraction : List Char} (hrest : StopsNumber rest)
    (h : readFraction? cs = some (fraction, after)) : readFraction? (cs ++ rest) = some (fraction, after ++ rest) := by
  cases cs with
  | nil =>
    obtain ⟨rfl, rfl⟩ := Prod.mk.inj (Option.some.inj h)
    rw [List.nil_append]
    unfold readFraction?
    split
    · exact absurd rfl (hrest _ rfl).2.1
    · rfl
  | cons c cs =>
    rw [List.cons_append]
    unfold readFraction? at h ⊢
    split at h
    · next heq =>
      obtain ⟨rfl, rfl⟩ := List.cons.inj heq
      simp only [spanDigits_stops _ hrest.stopsDigits] at h ⊢
      split at h
      · cases h
      · next hdigits =>
        obtain ⟨rfl, rfl⟩ := Prod.mk.inj (Option.some.inj h)
        rw [if_neg hdigits]
    · next hpoint =>
      obtain ⟨rfl, rfl⟩ := Prod.mk.inj (Option.some.inj h)
      split
      · next heq =>
        obtain ⟨rfl, -⟩ := List.cons.inj heq
        exact absurd rfl (hpoint cs)
      · rfl

theorem readPower?_append {power : Option Int} (hrest : StopsNumber rest) (h : readPower? cs = some (power, after)) :
    readPower? (cs ++ rest) = some (power, after ++ rest) := by
  cases cs with
  | nil =>
    obtain ⟨rfl, rfl⟩ := Prod.mk.inj (Option.some.inj h)
    cases rest with
    | nil => rfl
    | cons d rest =>
      obtain ⟨-, -, hsmall, hlarge⟩ := hrest d rfl
      exact if_neg (not_or.mpr ⟨hsmall, hlarge⟩)
  | cons c cs =>
    rw [List.cons_append]
    unfold readPower? at h ⊢
    simp only at h ⊢
    split at h
    · next hmark =>
      rw [if_pos hmark]
      have hcs : cs ≠ [] := by
        rintro rfl
        cases h
      rw [readSign_append hcs]
      simp only [spanDigits_stops _ hrest.stopsDigits] at h ⊢
      split at h
      · cases h
      · next hdigits =>
        obtain ⟨rfl, rfl⟩ := Prod.mk.inj (Option.some.inj h)
        rw [if_neg hdigits]
    · next hmark =>
      obtain ⟨rfl, rfl⟩ := Prod.mk.inj (Option.some.inj h)
      rw [if_neg hmark, List.cons_append]

/-- **A number that is read** is read in front of anything that does not go on with it. -/
theorem readNumber?_append {token : JsonToken} (hrest : StopsNumber rest) (h : readNumber? cs = some (token, after)) :
    readNumber? (cs ++ rest) = some (token, after ++ rest) := by
  rw [readNumber?_eq] at h ⊢
  have hwhole : (splitMinus cs).2 ≠ [] := by
    intro hnil
    rw [hnil] at h
    cases h
  have hcs : cs ≠ [] := by
    rintro rfl
    exact hwhole rfl
  rw [splitMinus_append hcs, splitWhole_append hwhole hrest.stopsDigits]
  split at h
  · cases h
  · next hempty =>
    obtain ⟨f, hf, hpower⟩ := Option.bind_eq_some_iff.mp h
    obtain ⟨p, hp, htoken⟩ := Option.bind_eq_some_iff.mp hpower
    obtain ⟨rfl, rfl⟩ := Prod.mk.inj (Option.some.inj htoken)
    rw [if_neg hempty]
    refine Option.bind_eq_some_iff.mpr ⟨_, readFraction?_append hrest hf, ?_⟩
    exact Option.bind_eq_some_iff.mpr ⟨_, readPower?_append hrest hp, rfl⟩

/-! ### Numbers in their parts -/

/-- Digits with no zero in front of others. -/
def IsWholePart (ds : List Char) : Prop := AreDigits ds ∧ (ds = ['0'] ∨ ∃ c others, ds = c :: others ∧ c ≠ '0')

/-- The sign of a number in writing. -/
def signText (negative : Bool) : List Char := if negative then ['-'] else []

/-- The digits after the point, if there are any. -/
def pointText (fraction : List Char) : List Char := if fraction.isEmpty then [] else '.' :: fraction

/-- The power of ten after its mark, if there is one. -/
def powerText : Option Int → List Char
  | none => []
  | some power => 'e' :: (if power < 0 then '-' else '+') :: digitChars power.natAbs

theorem readPower?_powerText (power : Option Int) : readPower? (powerText power) = some (power, []) := by
  cases power with
  | none => rfl
  | some power =>
    have hspan : spanDigits (digitChars power.natAbs) = (digitChars power.natAbs, []) := by
      have happend := spanDigits_append (areDigits_digitChars power.natAbs) stopsDigits_nil
      rwa [List.append_nil] at happend
    have hnonempty : (digitChars power.natAbs).isEmpty = false := by
      simp [digitChars, Nat.toDigits_ne_nil]
    have hsign : ∀ cs, readSign ((if power < 0 then '-' else '+') :: cs) = (decide (power < 0), cs) := by
      intro cs
      split <;> next h => simp [readSign, h]
    rw [powerText, readPower?, if_pos (.inl rfl)]
    simp only [hsign, hspan, hnonempty, digitsValue_digitChars]
    simp only [decide_eq_true_eq, Bool.false_eq_true, if_false]
    congr 3
    split <;> omega

theorem stopsDigits_pointText {fraction : List Char} (power : Option Int) :
    StopsDigits (pointText fraction ++ powerText power) := by
  cases fraction with
  | nil =>
    cases power with
    | none => exact stopsDigits_nil
    | some power => exact stopsDigits_cons rfl
  | cons c fraction => exact stopsDigits_cons rfl

theorem splitWhole_of_isWholePart {whole : List Char} (hwhole : IsWholePart whole) (hrest : StopsDigits rest) :
    splitWhole (whole ++ rest) = (whole, rest) := by
  obtain ⟨hdigits, rfl | ⟨c, others, rfl, hc⟩⟩ := hwhole
  · rfl
  · rw [List.cons_append]
    unfold splitWhole
    split
    · next heq => exact absurd (List.cons.inj heq).1 hc
    · exact spanDigits_append hdigits hrest

theorem splitMinus_signText {c : Char} (hc : c ≠ '-') (negative : Bool) (cs : List Char) :
    splitMinus (signText negative ++ c :: cs) = (negative, c :: cs) := by
  cases negative with
  | true => rfl
  | false =>
    have htext : signText false ++ c :: cs = c :: cs := rfl
    rw [htext]
    unfold splitMinus
    split
    · next heq => exact absurd (List.cons.inj heq).1 hc
    · rfl

theorem readFraction?_pointText {fraction : List Char} (hfraction : AreDigits fraction) (power : Option Int) :
    readFraction? (pointText fraction ++ powerText power) = some (fraction, powerText power) := by
  have hstops : StopsDigits (powerText power) := by
    cases power with
    | none => exact stopsDigits_nil
    | some power => exact stopsDigits_cons rfl
  cases fraction with
  | nil => cases power <;> rfl
  | cons c fraction =>
    have htext : pointText (c :: fraction) ++ powerText power = '.' :: (c :: fraction ++ powerText power) := rfl
    rw [htext, readFraction?]
    simp only [spanDigits_append hfraction hstops]
    rfl

/-- **A number in its parts** is read as these parts. -/
theorem readNumber?_parts {whole fraction : List Char} (hwhole : IsWholePart whole) (hfraction : AreDigits fraction)
    (negative : Bool) (power : Option Int) :
    readNumber? (signText negative ++ (whole ++ (pointText fraction ++ powerText power))) =
      some (.number ⟨negative, whole, fraction, power.getD 0⟩ (fraction.isEmpty && power.isNone), []) := by
  obtain ⟨c, others, hhead, hdigit⟩ : ∃ c others, whole = c :: others ∧ c.isDigit = true := by
    obtain ⟨hdigits, rfl | ⟨c, others, rfl, -⟩⟩ := hwhole
    · exact ⟨'0', [], rfl, rfl⟩
    · exact ⟨c, others, rfl, hdigits c List.mem_cons_self⟩
  have hminus : c ≠ '-' := by
    rintro rfl
    cases hdigit
  have hsplit : splitMinus (signText negative ++ (whole ++ (pointText fraction ++ powerText power))) =
      (negative, whole ++ (pointText fraction ++ powerText power)) := by
    rw [hhead, List.cons_append]
    exact splitMinus_signText hminus negative _
  have hnonempty : ¬whole.isEmpty = true := by simp [hhead]
  rw [readNumber?_eq, hsplit, splitWhole_of_isWholePart hwhole (stopsDigits_pointText power), if_neg hnonempty]
  refine Option.bind_eq_some_iff.mpr ⟨_, readFraction?_pointText hfraction power, ?_⟩
  exact Option.bind_eq_some_iff.mpr ⟨_, readPower?_powerText power, rfl⟩

/-! ### Digits of numbers -/

/-- No number but zero is written with a zero in front. -/
theorem digitChars_head {n : Nat} (h : 0 < n) : ∃ c others, digitChars n = c :: others ∧ c ≠ '0' := by
  induction n using Nat.strongRecOn with
  | ind n ih =>
    rcases Nat.lt_or_ge n 10 with hsmall | hlarge
    · have hdigit : ∀ m < 10, 0 < m → Nat.digitChar m ≠ '0' := by decide
      exact ⟨n.digitChar, [], Nat.toDigits_of_lt_base hsmall, hdigit n hsmall h⟩
    · obtain ⟨c, others, hhead, hc⟩ := ih (n / 10) (by omega) (by omega)
      refine ⟨c, others ++ [(n % 10).digitChar], ?_, hc⟩
      rw [digitChars] at hhead ⊢
      rw [Nat.toDigits_of_base_le (by decide) hlarge, hhead, List.cons_append]

end JsonToken

end Orchestration
