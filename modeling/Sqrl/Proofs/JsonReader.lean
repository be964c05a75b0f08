import Sqrl.Proofs.JsonText

/-! What a value that is read can be: its whole numbers are not too long, and it opens no more arrays
and objects at once than the reader allows. What is open while it is read is kept within the same
bounds, so that each value fits where it is put. -/
namespace Sqrl

namespace Json

namespace Token

variable {s rest : List Char} {negative : Bool} {token : Token}

theorem value_lt (h : AreDigits s) : value s < 10 ^ s.length := by
  induction s with
  | nil => decide
  | cons c s ih =>
    obtain ⟨hc, hs⟩ := List.forall_mem_cons.mp h
    have hdigit : value [c] ≤ 9 := by
      have hle : '0'.toNat ≤ c.toNat ∧ c.toNat ≤ '9'.toNat := by
        simpa [isDigit, Char.le_def, UInt32.le_iff_toNat_le] using hc
      have hvalue : value [c] = c.toNat - '0'.toNat := by simp [value, Nat.ofDigitChars]
      have hnine : '9'.toNat = '0'.toNat + 9 := rfl
      omega
    have hsum : value (c :: s) = value [c] * 10 ^ s.length + value s := value_append [c] s
    have hmul := Nat.mul_le_mul_right (10 ^ s.length) hdigit
    have hlt := ih hs
    rw [hsum, List.length_cons, Nat.pow_succ]
    omega

/-- Are the digits of a whole number decimal digits? -/
def HasDigits : Token → Prop
  | .integer _ digits => AreDigits digits
  | _ => True

theorem areDigits_cutWhole (s : List Char) : AreDigits (cutWhole s).1 := by
  unfold cutWhole
  split
  · exact areDigits_zeros 1
  · rw [List.span_eq_takeWhile_dropWhile]
    exact fun c hc => List.mem_takeWhile_imp hc

/-- Can a word stand for the token? -/
def IsWordToken : Token → Prop
  | .integer _ digits => AreDigits digits
  | .null | .bool _ | .float _ | .bad => True
  | _ => False

theorem IsWordToken.hasDigits (h : token.IsWordToken) : token.HasDigits := by
  cases token with
  | integer negative digits => exact h
  | _ => trivial

theorem isWordToken_cutNumber? (h : cutNumber? negative s = some (token, rest)) :
    token.IsWordToken := by
  simp only [cutNumber?] at h
  split_ifs at h
  · obtain ⟨rfl, -⟩ := Prod.mk.inj (Option.some.inj h)
    exact areDigits_cutWhole s
  · obtain ⟨rfl, -⟩ := Prod.mk.inj (Option.some.inj h)
    trivial

theorem isWordToken_ofNumeral (s : List Char) : ∀ token ∈ ofNumeral s, token.IsWordToken := by
  have hbad : bad.IsWordToken := trivial
  simp only [ofNumeral]
  split
  · exact List.forall_mem_singleton.mpr hbad
  · next token h =>
    have htoken : token.IsWordToken := by
      split at h <;> exact isWordToken_cutNumber? h
    exact List.forall_mem_singleton.mpr htoken
  · next token rest _ h =>
    have htoken : token.IsWordToken := by
      split at h <;> exact isWordToken_cutNumber? h
    exact List.forall_mem_cons.mpr ⟨htoken, List.forall_mem_singleton.mpr hbad⟩

theorem isWordToken_ofWord (s : List Char) : ∀ token ∈ ofWord s, token.IsWordToken := by
  rw [ofWord]
  split_ifs
  all_goals first
    | exact isWordToken_ofNumeral s
    | exact List.forall_mem_singleton.mpr trivial

theorem hasDigits_ofWord (s : List Char) : ∀ token ∈ ofWord s, token.HasDigits :=
  fun token htoken => (isWordToken_ofWord s token htoken).hasDigits

end Token

namespace Scan

variable {c : Char}

theorem hasDigits_punctuation? {token : Token} (h : punctuation? c = some token) :
    token.HasDigits := by
  unfold punctuation? at h
  split at h <;> cases h <;> trivial

theorem hasDigits_pendingTokens (scan : Scan) : ∀ token ∈ scan.pendingTokens, token.HasDigits := by
  cases scan with
  | word chars => exact Token.hasDigits_ofWord _
  | _ => simp [pendingTokens]

theorem hasDigits_stepOutside (scan : Scan) (c : Char) :
    ∀ token ∈ (scan.stepOutside c).1, token.HasDigits := by
  have hpending := hasDigits_pendingTokens scan
  unfold stepOutside
  split_ifs
  · exact hpending
  · exact hpending
  · split
    · next token h =>
      exact List.forall_mem_append.mpr
        ⟨hpending, List.forall_mem_singleton.mpr (hasDigits_punctuation? h)⟩
    · cases scan <;> simp

theorem hasDigits_step (scan : Scan) (c : Char) :
    ∀ token ∈ (scan.step c).1, token.HasDigits := by
  have hbad : ∀ token ∈ [Token.bad], token.HasDigits := List.forall_mem_singleton.mpr trivial
  have hstring (points : List CodePoint) : ∀ token ∈ [Token.string points], token.HasDigits :=
    List.forall_mem_singleton.mpr trivial
  have hnone : ∀ token ∈ ([] : List Token), token.HasDigits := by simp
  cases scan with
  | between => exact hasDigits_stepOutside _ c
  | word chars => exact hasDigits_stepOutside _ c
  | string points =>
    rw [step]
    split_ifs
    exacts [hstring _, hnone, hbad, hnone]
  | escape points =>
    rw [step]
    split_ifs
    · exact hnone
    · split
      exacts [hnone, hbad]
  | unit points left value =>
    rw [step]
    split
    · exact hbad
    · split_ifs <;> exact hnone

theorem hasDigits_tokens (scan : Scan) (s : List Char) :
    ∀ token ∈ tokens scan s, token.HasDigits := by
  induction s generalizing scan with
  | nil =>
    cases scan with
    | between => simp [tokens]
    | word chars => exact Token.hasDigits_ofWord _
    | _ => exact List.forall_mem_singleton.mpr trivial
  | cons c s ih =>
    have htokens : tokens scan (c :: s) = (scan.step c).1 ++ tokens (scan.step c).2 s := by
      cases scan <;> rfl
    rw [htokens]
    exact List.forall_mem_append.mpr ⟨hasDigits_step scan c, ih _⟩

end Scan

/-- Does a value fit where a number of arrays and objects are open? -/
structure Fits (depth : Nat) (opened : Nat) (v : Json) : Prop where
  nesting : opened + v.nesting ≤ depth
  hasShortNumbers : v.HasShortNumbers

/-- The values that have been put into an array or object so far. -/
def Frame.values : Frame → List Json
  | .items seen => seen
  | .member seen _ => seen.map Prod.snd

/-- Does each value fit into the array or object that it has been put into, and is none of these too
deep? -/
def StackFits (depth : Nat) : List Frame → Prop
  | [] => True
  | frame :: stack =>
    stack.length < depth ∧ (∀ v ∈ frame.values, Fits depth (stack.length + 1) v) ∧
      StackFits depth stack

namespace Reader

variable {depth : Nat} {r after : Reader} {stack : List Frame} {token : Token} {v : Json}

def Fits (depth : Nat) : Reader → Prop
  | .value stack => StackFits depth stack
  | .firstItem stack | .firstKey stack => stack.length < depth ∧ StackFits depth stack
  | .afterItem items stack => StackFits depth (.items items :: stack)
  | .nextKey members stack | .afterMember members stack =>
    StackFits depth (.member members [] :: stack)
  | .colon members key stack => StackFits depth (.member members key :: stack)
  | .done v => Json.Fits depth 0 v

theorem length_le_of_stackFits (h : StackFits depth stack) : stack.length ≤ depth := by
  cases stack with
  | nil => exact Nat.zero_le depth
  | cons frame stack => exact h.1

theorem fits_finish (hv : Json.Fits depth stack.length v) (h : StackFits depth stack) :
    (finish v stack).Fits depth := by
  cases stack with
  | nil => exact hv
  | cons frame stack =>
    obtain ⟨hlength, hvalues, hrest⟩ := h
    cases frame with
    | items items => exact ⟨hlength, List.forall_mem_cons.mpr ⟨hv, hvalues⟩, hrest⟩
    | member members key =>
      refine ⟨hlength, fun w hw => ?_, hrest⟩
      obtain ⟨e, he, rfl⟩ := List.mem_map.mp hw
      -- The value may replace one that an equal key had before.
      rcases Dictionary.mem_of_mem_put he with rfl | he
      · exact hv
      · exact hvalues _ (List.mem_map_of_mem he)

theorem fits_array {items : List Json} (hlength : stack.length < depth)
    (h : ∀ v ∈ items, Json.Fits depth (stack.length + 1) v) :
    Json.Fits depth stack.length (.array items) := by
  have hnesting : itemsNesting items ≤ depth - (stack.length + 1) :=
    itemsNesting_le_iff.mpr fun v hv => Nat.le_sub_of_add_le' (h v hv).nesting
  refine ⟨?_, hasShortNumbers_array_iff.mpr fun v hv => (h v hv).hasShortNumbers⟩
  rw [Json.nesting]
  omega

theorem fits_object {members : Members} (hlength : stack.length < depth)
    (h : ∀ v ∈ members.map Prod.snd, Json.Fits depth (stack.length + 1) v) :
    Json.Fits depth stack.length (.object members) := by
  have hmember {e : List CodePoint × Json} (he : e ∈ members) := h e.2 (List.mem_map_of_mem he)
  have hnesting : membersNesting members ≤ depth - (stack.length + 1) :=
    membersNesting_le_iff.mpr fun e he => Nat.le_sub_of_add_le' (hmember he).nesting
  refine ⟨?_, hasShortNumbers_object_iff.mpr fun e he => (hmember he).hasShortNumbers⟩
  rw [Json.nesting]
  omega

/-- A token where a value must stand leaves a reader whose values fit, unless it opens what is too
deep. -/
theorem fits_begin (htoken : token.HasDigits) (h : StackFits depth stack)
    (hbegin : begin stack token = .ok after) (hdepth : after.beyond? depth = none) :
    after.Fits depth := by
  -- A value that is one token opens nothing, so it fits on every stack that is not too deep.
  have hplain {v : Json} (hnesting : v.nesting = 0) (hshort : v.HasShortNumbers) :
      (finish v stack).Fits depth := by
    refine fits_finish ⟨?_, hshort⟩ h
    rw [hnesting]
    exact length_le_of_stackFits h
  cases token with
  | integer negative digits =>
    by_cases hlong : Number.maxDigits < digits.length
    · rw [begin, if_pos hlong] at hbegin
      cases hbegin
    rw [begin, if_neg hlong] at hbegin
    obtain rfl := Except.ok.inj hbegin
    refine hplain rfl ?_
    have hvalue : Token.value digits < 10 ^ Number.maxDigits :=
      (Token.value_lt htoken).trans_le (Nat.pow_le_pow_right (by decide) (Nat.not_lt.mp hlong))
    cases negative <;> simpa [HasShortNumbers]
  | openBracket =>
    obtain rfl := Except.ok.inj hbegin
    exact ⟨by simpa [beyond?] using hdepth, h⟩
  | openBrace =>
    obtain rfl := Except.ok.inj hbegin
    exact ⟨by simpa [beyond?] using hdepth, h⟩
  | null | bool b | float x | string s =>
    obtain rfl := Except.ok.inj hbegin
    exact hplain rfl (by simp [HasShortNumbers])
  | _ => cases hbegin

/-- What a step reads fits too. -/
theorem fits_step (htoken : token.HasDigits) (h : r.Fits depth) (hstep : r.step token = .ok after)
    (hdepth : after.beyond? depth = none) : after.Fits depth := by
  cases r with
  | value stack => exact fits_begin htoken h hstep hdepth
  | firstItem stack =>
    obtain ⟨hlength, h⟩ := h
    by_cases hclose : token = .closeBracket
    · subst hclose
      obtain rfl := Except.ok.inj hstep
      exact fits_finish (fits_array hlength (by simp)) h
    · rw [expects_firstItem stack token hclose] at hstep
      have hopen : StackFits depth (.items [] :: stack) := ⟨hlength, by simp [Frame.values], h⟩
      exact fits_begin htoken hopen hstep hdepth
  | afterItem items stack =>
    obtain ⟨hlength, hvalues, hrest⟩ := h
    cases token with
    | comma =>
      obtain rfl := Except.ok.inj hstep
      exact ⟨hlength, hvalues, hrest⟩
    | closeBracket =>
      obtain rfl := Except.ok.inj hstep
      exact fits_finish (fits_array hlength fun v hv => hvalues v (List.mem_reverse.mp hv)) hrest
    | _ => cases hstep
  | firstKey stack =>
    obtain ⟨hlength, h⟩ := h
    cases token with
    | closeBrace =>
      obtain rfl := Except.ok.inj hstep
      exact fits_finish (fits_object hlength (by simp)) h
    | string s =>
      obtain rfl := Except.ok.inj hstep
      exact ⟨hlength, by simp [Frame.values], h⟩
    | _ => cases hstep
  | nextKey members stack =>
    cases token with
    | string s =>
      obtain rfl := Except.ok.inj hstep
      exact h
    | _ => cases hstep
  | colon members key stack =>
    cases token with
    | colon =>
      obtain rfl := Except.ok.inj hstep
      exact h
    | _ => cases hstep
  | afterMember members stack =>
    obtain ⟨hlength, hvalues, hrest⟩ := h
    cases token with
    | comma =>
      obtain rfl := Except.ok.inj hstep
      exact ⟨hlength, hvalues, hrest⟩
    | closeBrace =>
      obtain rfl := Except.ok.inj hstep
      exact fits_finish (fits_object hlength hvalues) hrest
    | _ => cases hstep
  | done v => cases hstep

theorem fits_run {tokens : List Token} (htokens : ∀ token ∈ tokens, token.HasDigits)
    (h : r.Fits depth) (hrun : run depth r tokens = .ok after) : after.Fits depth := by
  induction tokens generalizing r with
  | nil =>
    obtain rfl := Except.ok.inj hrun
    exact h
  | cons token tokens ih =>
    obtain ⟨htoken, hrest⟩ := List.forall_mem_cons.mp htokens
    rw [run] at hrun
    split at hrun
    · cases hrun
    · next next hstep =>
      split at hrun
      · cases hrun
      · next hdepth => exact ih hrest (fits_step htoken h hstep hdepth) hrun

end Reader

/-- What is read could be written, but for its strings. -/
theorem fits_of_readWithin {depth : Nat} {s : List Char} {v : Json}
    (h : readWithin depth s = .ok v) : v.nesting ≤ depth ∧ v.HasShortNumbers := by
  rw [readWithin] at h
  split at h
  · next found hrun =>
    obtain rfl := Except.ok.inj h
    have hfits := Reader.fits_run (Scan.hasDigits_tokens .between s) (r := .value []) trivial hrun
    exact ⟨Nat.zero_add found.nesting ▸ hfits.nesting, hfits.hasShortNumbers⟩
  · cases h
  · cases h

end Json

end Sqrl
