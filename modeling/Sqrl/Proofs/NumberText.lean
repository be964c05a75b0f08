import Sqrl.Json.Token
import Sqrl.Proofs.Decimal
import Sqrl.Proofs.Text

/-! The text of a number is one word, and that word reads as the number: digits before and after the
point and an exponent are cut off where each of them ends. -/
namespace Sqrl

namespace Json.Token
variable {whole fraction rest digits : List Char} {c : Char}

/-! What a number is cut into. -/

def AreDigits (s : List Char) : Prop := ∀ c ∈ s, isDigit c = true

def Ends (s : List Char) : Prop := ∀ c ∈ s.head?, isDigit c = false

theorem ends_nil : Ends [] := by simp [Ends]

theorem ends_cons (h : isDigit c = false) (s : List Char) : Ends (c :: s) := by
  simpa [Ends] using h

theorem span_isDigit (hdigits : AreDigits digits) (hrest : Ends rest) :
    (digits ++ rest).span isDigit = (digits, rest) := by
  induction digits with
  | nil =>
    cases rest with
    | nil => rfl
    | cons c rest => simp [List.span_eq_takeWhile_dropWhile, hrest c rfl]
  | cons c digits ih =>
    obtain ⟨hc, hmore⟩ := List.forall_mem_cons.mp hdigits
    have := ih hmore
    simp only [List.span_eq_takeWhile_dropWhile, Prod.mk.injEq] at this ⊢
    simp [hc, this]

/-- The whole part of a number: digits without a leading zero, or a zero alone. -/
def IsWhole (s : List Char) : Prop := AreDigits s ∧ s ≠ [] ∧ (s.head? = some '0' → s = ['0'])

theorem cutWhole_append (h : IsWhole whole) (hrest : Ends rest) :
    cutWhole (whole ++ rest) = (whole, rest) := by
  obtain ⟨hdigits, hne, hzero⟩ := h
  unfold cutWhole
  split
  · next heq =>
    obtain ⟨c, whole, rfl⟩ := List.exists_cons_of_ne_nil hne
    obtain ⟨rfl, rfl⟩ := List.cons.inj heq
    obtain ⟨-, rfl⟩ := List.cons.inj (hzero rfl)
    rfl
  · exact span_isDigit hdigits hrest

theorem cutFraction_point (hdigits : AreDigits fraction) (hne : fraction ≠ []) (hrest : Ends rest) :
    cutFraction ('.' :: (fraction ++ rest)) = (fraction, rest) := by
  rw [cutFraction, span_isDigit hdigits hrest]
  simp [hne]

theorem cutFraction_of_ne (h : c ≠ '.') : cutFraction (c :: rest) = ([], c :: rest) := by
  unfold cutFraction
  split
  · next heq => exact absurd (List.cons.inj heq).1 h
  · rfl

theorem cutExponent_mark {negative : Bool} (hdigits : AreDigits digits) (hne : digits ≠ []) :
    cutExponent ('e' :: (if negative then '-' else '+') :: digits) =
      (some (if negative then -(value digits : Int) else value digits), []) := by
  have hspan := span_isDigit hdigits ends_nil
  rw [List.append_nil] at hspan
  have hpower : cutPower? ((if negative then '-' else '+') :: digits) =
      some (if negative then -(value digits : Int) else value digits, []) := by
    cases negative <;> simp only [cutPower?, Bool.false_eq_true, if_true, if_false, hspan, hne]
  simp only [cutExponent, true_or, if_true, hpower]

theorem cutNumber?_whole (negative : Bool) (h : IsWhole whole) :
    cutNumber? negative whole = some (.integer negative whole, []) := by
  have hcut := cutWhole_append h ends_nil
  rw [List.append_nil] at hcut
  rw [cutNumber?, hcut]
  simp [cutFraction, cutExponent, h.2.1]

theorem cutNumber?_point (negative : Bool) (h : IsWhole whole) (hfraction : AreDigits fraction)
    (hne : fraction ≠ []) :
    cutNumber? negative (whole ++ '.' :: fraction) =
      some (.float (.ofDecimal negative (value (whole ++ fraction)) (-fraction.length)), []) := by
  have hpoint := cutFraction_point hfraction hne ends_nil
  rw [List.append_nil] at hpoint
  rw [cutNumber?, cutWhole_append h (ends_cons (by decide) _)]
  simp only [hpoint, cutExponent, h.2.1, hne, if_false, false_and, Option.getD_none,
    Int.zero_sub]

def pointed : List Char → List Char
  | [] => []
  | c :: rest => '.' :: c :: rest

theorem cutFraction_pointed (hdigits : AreDigits fraction) (c : Char) (hc : isDigit c = false)
    (hpoint : c ≠ '.') :
    cutFraction (pointed fraction ++ c :: rest) = (fraction, c :: rest) := by
  cases fraction with
  | nil => exact cutFraction_of_ne hpoint
  | cons d fraction => exact cutFraction_point hdigits (List.cons_ne_nil _ _) (ends_cons hc _)

theorem ends_pointed (fraction : List Char) (hrest : Ends rest) : Ends (pointed fraction ++ rest) := by
  cases fraction with
  | nil => exact hrest
  | cons d fraction => exact ends_cons (by decide) _

theorem cutNumber?_exponent (negative below : Bool) (h : IsWhole whole)
    (hfraction : AreDigits fraction) (hdigits : AreDigits digits) (hne : digits ≠ []) :
    cutNumber? negative (whole ++ (pointed fraction ++ 'e' :: (if below then '-' else '+') :: digits)) =
      some (.float (.ofDecimal negative (value (whole ++ fraction))
        ((if below then -(value digits : Int) else value digits) - fraction.length)), []) := by
  have hmark : isDigit 'e' = false := by decide
  rw [cutNumber?, cutWhole_append h (ends_pointed _ (ends_cons hmark _))]
  simp only [cutFraction_pointed hfraction 'e' hmark (by decide), cutExponent_mark hdigits hne,
    h.2.1, if_false, reduceCtorEq, and_false, Option.getD_some]

theorem value_append (s t : List Char) : value (s ++ t) = value s * 10 ^ t.length + value t := by
  rw [value, value, value, Nat.ofDigitChars_append, Nat.ofDigitChars_eq_ofDigitChars_zero,
    Nat.mul_comm]

theorem value_zeros (count : Nat) : value (List.replicate count '0') = 0 := by
  rw [value, Nat.ofDigitChars_replicate_zero, Nat.mul_zero]

theorem value_toDigits (n : Nat) : value (Nat.toDigits 10 n) = n :=
  Nat.ofDigitChars_toDigits (by decide) (by decide)

theorem isDigit_of_isDigit {c : Char} (h : c.isDigit = true) : isDigit c = true := by
  simpa [isDigit, Char.isDigit, Char.le_def] using h

theorem areDigits_toDigits (n : Nat) : AreDigits (Nat.toDigits 10 n) := fun _ hc =>
  isDigit_of_isDigit (Nat.isDigit_of_mem_toDigits (by decide) (by decide) hc)

theorem areDigits_zeros (count : Nat) : AreDigits (List.replicate count '0') := fun _ hc =>
  (List.eq_of_mem_replicate hc).symm ▸ rfl

theorem AreDigits.append {s t : List Char} (hs : AreDigits s) (ht : AreDigits t) :
    AreDigits (s ++ t) := fun c hc => (List.mem_append.mp hc).elim (hs c) (ht c)

theorem head?_toDigits {n : Nat} (h : n ≠ 0) : (Nat.toDigits 10 n).head? ≠ some '0' := by
  induction n using Nat.strong_induction_on with
  | h n ih =>
    by_cases hn : n < 10
    · simp [Nat.toDigits_of_lt_base hn, h]
    · have hdiv : n / 10 ≠ 0 := by omega
      rw [Nat.toDigits_of_base_le (by decide) (by omega), List.head?_append_of_ne_nil _
        Nat.toDigits_ne_nil]
      exact ih (n / 10) (by omega) hdiv

theorem isWhole_toDigits (n : Nat) : IsWhole (Nat.toDigits 10 n) := by
  refine ⟨areDigits_toDigits n, Nat.toDigits_ne_nil, fun hzero => ?_⟩
  by_cases hn : n = 0
  · rw [hn, Nat.toDigits_zero]
  · exact absurd hzero (head?_toDigits hn)

/-- The digits of a number without the zeros at its end. -/
theorem exists_toDigits_eq {n : Nat} (h : n ≠ 0) : ∃ c rest zeros,
    ((Nat.toDigits 10 n).reverse.dropWhile (· = '0')).reverse = c :: rest ∧
      Nat.toDigits 10 n = c :: rest ++ List.replicate zeros '0' ∧ c ≠ '0' ∧
        AreDigits (c :: rest) := by
  have hsplit := List.takeWhile_append_dropWhile (p := (· = '0')) (l := (Nat.toDigits 10 n).reverse)
  have hzeros := List.eq_replicate_of_mem fun c (hc : c ∈ (Nat.toDigits 10 n).reverse.takeWhile
    (· = '0')) => by simpa using List.mem_takeWhile_imp hc
  rw [hzeros] at hsplit
  generalize ((Nat.toDigits 10 n).reverse.takeWhile (· = '0')).length = zeros at hsplit
  generalize (Nat.toDigits 10 n).reverse.dropWhile (· = '0') = digits at hsplit
  have hall : Nat.toDigits 10 n = digits.reverse ++ List.replicate zeros '0' := by
    rw [← List.reverse_reverse (Nat.toDigits 10 n), ← hsplit, List.reverse_append,
      List.reverse_replicate]
  have hdigits : AreDigits digits.reverse := fun c hc =>
    areDigits_toDigits n c (hall ▸ List.mem_append_left _ hc)
  cases hfirst : digits.reverse with
  | nil =>
    have hvalue := value_toDigits n
    rw [hall, hfirst, List.nil_append, value_zeros] at hvalue
    exact absurd hvalue.symm h
  | cons c rest =>
    have hhead := head?_toDigits h
    rw [hall, hfirst] at hhead
    exact ⟨c, rest, zeros, rfl, hfirst ▸ hall, fun hc => hhead (congrArg some hc), hfirst ▸ hdigits⟩

section Layout

variable {c : Char} {rest : List Char} (negative : Bool)

theorem isWhole_cons (hdigits : AreDigits (c :: rest)) (hc : c ≠ '0') : IsWhole (c :: rest) :=
  ⟨hdigits, List.cons_ne_nil _ _, fun hzero => absurd (Option.some.inj hzero) hc⟩

/-- Digits after the point, zeros first. -/
theorem cutNumber?_below (zeros : Nat) (hdigits : AreDigits digits) (hne : digits ≠ []) :
    cutNumber? negative ('0' :: '.' :: (List.replicate zeros '0' ++ digits)) =
      some (.float (.ofDecimal negative (value digits) (-(zeros + digits.length : Nat))), []) := by
  have hwhole : IsWhole ['0'] := ⟨by simp [AreDigits, isDigit], by simp, fun _ => rfl⟩
  have hfraction := (areDigits_zeros zeros).append hdigits
  have hvalue : value ('0' :: (List.replicate zeros '0' ++ digits)) = value digits := by
    rw [← List.cons_append, ← List.replicate_succ, value_append, value_zeros]
    omega
  have hcut := cutNumber?_point negative hwhole hfraction (by simp [hne])
  rw [List.singleton_append, List.singleton_append, hvalue, List.length_append,
    List.length_replicate] at hcut
  exact hcut

/-- Digits before the point, zeros last. -/
theorem cutNumber?_above (zeros : Nat) (hdigits : AreDigits (c :: rest)) (hc : c ≠ '0') :
    cutNumber? negative (c :: rest ++ List.replicate zeros '0' ++ ['.', '0']) =
      some (.float (.ofDecimal negative (value (c :: rest) * 10 ^ (zeros + 1)) (-1)), []) := by
  have hwhole : IsWhole (c :: (rest ++ List.replicate zeros '0')) :=
    isWhole_cons (hdigits.append (areDigits_zeros zeros)) hc
  have hvalue : value (c :: rest ++ List.replicate zeros '0' ++ ['0']) =
      value (c :: rest) * 10 ^ (zeros + 1) := by
    rw [List.append_assoc, ← List.replicate_succ', value_append, value_zeros,
      List.length_replicate, Nat.add_zero]
  have hcut := cutNumber?_point negative hwhole (areDigits_zeros 1) (by simp)
  rw [← List.cons_append] at hcut
  exact hcut.trans (by rw [← hvalue]; rfl)

/-- Digits on both sides of the point. -/
theorem cutNumber?_between {point : Nat} (hdigits : AreDigits (c :: rest)) (hc : c ≠ '0')
    (hpoint : 0 < point) (hlast : point < rest.length + 1) :
    cutNumber? negative ((c :: rest).take point ++ '.' :: (c :: rest).drop point) =
      some (.float (.ofDecimal negative (value (c :: rest)) (-(rest.length + 1 - point : Nat))),
        []) := by
  obtain ⟨point, rfl⟩ := Nat.exists_eq_succ_of_ne_zero hpoint.ne'
  have hwhole : IsWhole ((c :: rest).take (point + 1)) :=
    isWhole_cons (fun d hd => hdigits d ((List.take_sublist (point + 1) _).subset hd)) hc
  have hfraction : AreDigits ((c :: rest).drop (point + 1)) := fun d hd =>
    hdigits d (List.mem_of_mem_drop hd)
  have hne : (c :: rest).drop (point + 1) ≠ [] := by
    rw [ne_eq, List.drop_eq_nil_iff, List.length_cons]
    omega
  rw [cutNumber?_point negative hwhole hfraction hne, List.take_append_drop, List.length_drop,
    List.length_cons]

/-- The first digit, the others after the point, and an exponent of at least `width` digits. -/
theorem cutNumber?_mantissa (power : Int) (width : Nat) (hdigits : AreDigits (c :: rest))
    (hc : c ≠ '0') :
    cutNumber? negative (c :: (pointed rest ++ 'e' :: (if power < 0 then '-' else '+') ::
        (List.replicate (width - (Nat.toDigits 10 power.natAbs).length) '0' ++
          Nat.toDigits 10 power.natAbs))) =
      some (.float (.ofDecimal negative (value (c :: rest)) (power - rest.length)), []) := by
  obtain ⟨hfirst, hrest⟩ := List.forall_mem_cons.mp hdigits
  have hwhole : IsWhole [c] := isWhole_cons (by simp [AreDigits, hfirst]) hc
  generalize width - (Nat.toDigits 10 power.natAbs).length = zeros
  have hexponent := (areDigits_zeros zeros).append (areDigits_toDigits power.natAbs)
  have hvalue : value (List.replicate zeros '0' ++ Nat.toDigits 10 power.natAbs) =
      power.natAbs := by
    rw [value_append, value_zeros, value_toDigits]
    omega
  have hcut := cutNumber?_exponent negative (decide (power < 0)) hwhole hrest hexponent
    (by simp [Nat.toDigits_ne_nil])
  have hpower : (if power < 0 then -(power.natAbs : Int) else power.natAbs) = power := by omega
  simp only [decide_eq_true_eq, hvalue, hpower] at hcut
  exact hcut

end Layout

/-- The text of a number of double precision reads as a decimal with its value. -/
theorem exists_cutNumber?_write (negative : Bool) (f : Binary64.Format) (d : Decimal)
    (h : d.digits ≠ 0) : ∃ a : Decimal, a.value = d.value ∧
      cutNumber? negative (f.write d) =
        some (.float (.ofDecimal negative a.digits a.exponent), []) := by
  obtain ⟨c, rest, zeros, hshown, hall, hc, hdigits⟩ := exists_toDigits_eq h
  -- What the digits that are shown stand for, by the place of the point.
  obtain ⟨point, hpoint, hvalue⟩ : ∃ point : Int,
      ((Nat.toDigits 10 d.digits).length : Int) + d.exponent = point ∧
        (⟨value (c :: rest), point - (rest.length + 1)⟩ : Decimal).value = d.value := by
    have hpadded : d.digits = value (c :: rest) * 10 ^ zeros := by
      rw [← value_toDigits d.digits, hall, value_append, value_zeros, List.length_replicate,
        Nat.add_zero]
    refine ⟨_, rfl, ?_⟩
    have hlength : ((Nat.toDigits 10 d.digits).length : Int) + d.exponent - (rest.length + 1) =
        zeros + d.exponent := by
      rw [hall, List.length_append, List.length_replicate, List.length_cons]
      push_cast
      ring
    rw [hlength, ← Decimal.value_mul_pow, ← hpadded]
  simp only [Binary64.Format.write, hshown, hpoint, List.length_cons]
  by_cases hplain : f.minPoint ≤ point ∧ point ≤ f.maxPoint
  · rw [if_pos hplain]
    split_ifs with hbelow habove
    · refine ⟨_, hvalue, ?_⟩
      rw [cutNumber?_below negative _ hdigits (List.cons_ne_nil _ _), List.length_cons]
      congr 4
      dsimp only
      omega
    · refine ⟨⟨value (c :: rest) * 10 ^ (point.toNat - (rest.length + 1) + 1), -1⟩, ?_, ?_⟩
      · rw [Decimal.value_mul_pow, ← hvalue]
        congr 2
        omega
      · exact cutNumber?_above negative _ hdigits hc
    · refine ⟨_, hvalue, ?_⟩
      rw [cutNumber?_between negative hdigits hc (by omega) (by omega)]
      congr 4
      dsimp only
      omega
  · have hcut := cutNumber?_mantissa negative (point - 1) f.exponentDigits hdigits hc
    have hpower : point - 1 - (rest.length : Int) = point - (rest.length + 1) := by omega
    rw [hpower] at hcut
    rw [if_neg hplain]
    refine ⟨_, hvalue, ?_⟩
    cases rest <;> exact hcut

/-! Words that are numbers. -/

def isNumeral (c : Char) : Bool := isDigit c || ['-', '+', '.', 'e'].contains c

variable {s : List Char} {negative : Bool} {token : Token}

theorem AreDigits.isNumeral (h : AreDigits s) : ∀ c ∈ s, isNumeral c = true := fun c hc => by
  rw [Token.isNumeral, h c hc, Bool.true_or]

/-- A word made of the characters of numbers is none of the names of constants. -/
theorem ofWord_of_isNumeral (h : ∀ c ∈ s, isNumeral c = true) : ofWord s = ofNumeral s := by
  have hword (name : String) (c : Char) (hc : c ∈ name.toList) (hother : isNumeral c = false) :
      s ≠ name.toList := by
    rintro rfl
    rw [h c hc] at hother
    cases hother
  rw [ofWord, if_neg (hword "null" 'n' (by decide) (by decide)),
    if_neg (hword "true" 't' (by decide) (by decide)),
    if_neg (hword "false" 'f' (by decide) (by decide)),
    if_neg (hword "NaN" 'N' (by decide) (by decide)),
    if_neg (hword "Infinity" 'I' (by decide) (by decide)),
    if_neg (hword "-Infinity" 'I' (by decide) (by decide))]

theorem cutNumber?_minus (s : List Char) : cutNumber? negative ('-' :: s) = none := by
  have hcut : cutWhole ('-' :: s) = ([], '-' :: s) := rfl
  simp [cutNumber?, hcut]

theorem ofNumeral_of_cutNumber? (h : cutNumber? negative s = some (token, [])) :
    ofNumeral ((if negative then ['-'] else []) ++ s) = [token] := by
  cases negative with
  | true => simp [ofNumeral, h]
  | false =>
    cases s with
    | nil => cases h
    | cons c rest =>
      have hminus : c ≠ '-' := by
        rintro rfl
        rw [cutNumber?_minus] at h
        cases h
      simp [ofNumeral, hminus, h]

theorem isNumeral_write (f : Binary64.Format) (d : Decimal) :
    ∀ c ∈ f.write d, isNumeral c = true := by
  have hdigits (n : Nat) : ∀ c ∈ Nat.toDigits 10 n, isNumeral c = true :=
    (areDigits_toDigits n).isNumeral
  have hzeros (count : Nat) : ∀ c ∈ List.replicate count '0', isNumeral c = true :=
    (areDigits_zeros count).isNumeral
  have hshown : ∀ c ∈ ((Nat.toDigits 10 d.digits).reverse.dropWhile (· = '0')).reverse,
      isNumeral c = true := fun c hc =>
    hdigits d.digits c (List.mem_reverse.mp ((List.dropWhile_sublist _).subset (List.mem_reverse.mp hc)))
  have hmark : isNumeral '.' = true ∧ isNumeral 'e' = true ∧ isNumeral '0' = true := by decide
  have hsign (b : Prop) [Decidable b] : isNumeral (if b then '-' else '+') = true := by
    split <;> decide
  simp only [Binary64.Format.write]
  generalize ((Nat.toDigits 10 d.digits).reverse.dropWhile (· = '0')).reverse = digits at hshown
  generalize ((Nat.toDigits 10 d.digits).length : Int) + d.exponent = point
  split_ifs
  · simp only [List.forall_mem_cons, List.forall_mem_append]
    exact ⟨hmark.2.2, hmark.1, hzeros _, hshown⟩
  · simp only [List.forall_mem_cons, List.forall_mem_append]
    exact ⟨⟨hshown, hzeros _⟩, hmark.1, hmark.2.2, by simp⟩
  · simp only [List.forall_mem_cons, List.forall_mem_append]
    exact ⟨fun c hc => hshown c ((List.take_sublist _ _).subset hc), hmark.1,
      fun c hc => hshown c ((List.drop_sublist _ _).subset hc)⟩
  all_goals
    simp only [List.forall_mem_cons, List.forall_mem_append]
    refine ⟨?_, hmark.2.1, by decide, hzeros _, hdigits _⟩
    split
    · simp
    · exact hshown
    · next c rest _ =>
      obtain ⟨hfirst, hrest⟩ := List.forall_mem_cons.mp hshown
      exact List.forall_mem_cons.mpr ⟨hfirst, List.forall_mem_cons.mpr ⟨hmark.1, hrest⟩⟩

theorem isNumeral_sign (negative : Bool) :
    ∀ c ∈ if negative then ['-'] else [], isNumeral c = true :=
  List.all_eq_true.mp (by cases negative <;> decide)

theorem intText_eq (n : Int) :
    intText n = (if decide (n < 0) then ['-'] else []) ++ Nat.toDigits 10 n.natAbs := by
  by_cases hn : n < 0 <;> simp [intText, hn]

theorem isNumeral_intText (n : Int) : ∀ c ∈ intText n, isNumeral c = true := by
  rw [intText_eq, List.forall_mem_append]
  exact ⟨isNumeral_sign _, (areDigits_toDigits _).isNumeral⟩

theorem ofWord_intText (n : Int) :
    ofWord (intText n) = [.integer (decide (n < 0)) (Nat.toDigits 10 n.natAbs)] := by
  rw [ofWord_of_isNumeral (isNumeral_intText n), intText_eq]
  exact ofNumeral_of_cutNumber? (cutNumber?_whole _ (isWhole_toDigits _))

theorem text_finite {u : Int} (hu : u ≠ 0) : (Binary64.finite u).text Binary64.dataWords =
    (if decide (u < 0) then ['-'] else []) ++
      Binary64.plain.write (Binary64.shortest u.natAbs) := by
  simp [Binary64.text, hu]

theorem isNumeral_text_finite {u : Int} (hu : u ≠ 0) :
    ∀ c ∈ (Binary64.finite u).text Binary64.dataWords, isNumeral c = true := by
  rw [text_finite hu, List.forall_mem_append]
  exact ⟨isNumeral_sign _, isNumeral_write _ _⟩

/-- The text of a number of double precision is a word that reads as that number. -/
theorem ofWord_text {x : Binary64} (h : x.IsDouble) :
    ofWord (x.text Binary64.dataWords) = [.float x] := by
  cases x with
  | nan => decide
  | infinite negative => cases negative <;> decide
  | negativeZero => decide +kernel
  | finite u =>
    by_cases hu : u = 0
    · subst hu
      decide +kernel
    · have hshortest := Binary64.digits_shortest_pos hu h
      obtain ⟨a, hvalue, hcut⟩ := exists_cutNumber?_write (decide (u < 0)) Binary64.plain _
        hshortest.ne'
      rw [Binary64.ofDecimal_congr _ hvalue, Binary64.ofDecimal_shortest h] at hcut
      rw [ofWord_of_isNumeral (isNumeral_text_finite hu), text_finite hu]
      exact ofNumeral_of_cutNumber? hcut

end Json.Token

end Sqrl
