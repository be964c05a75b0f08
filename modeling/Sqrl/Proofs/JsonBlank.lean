import Sqrl.Proofs.JsonReader

/-! What blanks around and within the text of a value do to it. Those of JSON make no difference
around it, any other is refused there. A carriage return ends whatever token comes before it, so the
text up to one is read as the beginning of the whole. -/
namespace Sqrl

namespace Json

namespace Scan

variable {scan : Scan} {s t : List Char} {c : Char}

/-- Where the scan stands after a text. -/
def after (scan : Scan) : List Char → Scan
  | [] => scan
  | c :: rest => after (scan.step c).2 rest

/-- The tokens that are complete after a text. -/
def emitted (scan : Scan) : List Char → List Token
  | [] => []
  | c :: rest => (scan.step c).1 ++ emitted (scan.step c).2 rest

theorem tokens_cons (scan : Scan) (c : Char) (s : List Char) :
    tokens scan (c :: s) = (scan.step c).1 ++ tokens (scan.step c).2 s := by
  cases scan <;> rfl

theorem tokens_emitted_append (scan : Scan) (s t : List Char) :
    tokens scan (s ++ t) = emitted scan s ++ tokens (after scan s) t := by
  induction s generalizing scan with
  | nil => rfl
  | cons c s ih => rw [List.cons_append, tokens_cons, ih, emitted, after, List.append_assoc]

theorem tokens_eq (scan : Scan) (s : List Char) :
    tokens scan s = emitted scan s ++ tokens (after scan s) [] := by
  rw [← tokens_emitted_append, List.append_nil]

theorem stepOutside_space (h : isSpace c = true) (scan : Scan) :
    scan.stepOutside c = (scan.pendingTokens, .between) := by
  unfold stepOutside
  rw [if_pos h]

theorem tokens_space_cons (h : isSpace c = true) (s : List Char) :
    tokens .between (c :: s) = tokens .between s := by
  have hstep : step .between c = ([], .between) := stepOutside_space h .between
  rw [tokens_cons, hstep, List.nil_append]

theorem tokens_spaces_append (h : ∀ c ∈ s, isSpace c = true) (t : List Char) :
    tokens .between (s ++ t) = tokens .between t := by
  induction s with
  | nil => rfl
  | cons c s ih =>
    obtain ⟨hc, hs⟩ := List.forall_mem_cons.mp h
    rw [List.cons_append, tokens_space_cons hc, ih hs]

theorem tokens_return (scan : Scan) (t : List Char) :
    tokens scan ('\r' :: t) = tokens scan [] ++ tokens .between t := by
  cases scan <;> rfl

/-- A carriage return ends the token before it, or breaks off a string. -/
theorem tokens_append_return (s t : List Char) :
    tokens .between (s ++ '\r' :: t) = tokens .between s ++ tokens .between t := by
  rw [tokens_emitted_append, tokens_return, tokens_eq .between s, List.append_assoc]

theorem tokens_append_space (h : isSpace c = true) (s : List Char) :
    tokens .between (s ++ [c]) = tokens .between s := by
  have hc : c = ' ' ∨ c = '\t' ∨ c = '\n' ∨ c = '\r' := by simpa [isSpace, or_assoc] using h
  have hlast (scan : Scan) : tokens scan [c] = tokens scan [] := by
    cases scan with
    | word chars =>
      have hstep : step (.word chars) c = (Token.ofWord chars.reverse, .between) :=
        stepOutside_space h (.word chars)
      rw [tokens_cons, hstep]
      exact List.append_nil _
    | _ => rcases hc with rfl | rfl | rfl | rfl <;> rfl
  rw [tokens_emitted_append, hlast, ← tokens_eq]

theorem tokens_append_spaces (h : ∀ c ∈ t, isSpace c = true) (s : List Char) :
    tokens .between (s ++ t) = tokens .between s := by
  induction t using List.reverseRecOn with
  | nil => rw [List.append_nil]
  | append_singleton t c ih =>
    obtain ⟨ht, hc⟩ := List.forall_mem_append.mp h
    rw [← List.append_assoc, tokens_append_space (hc c List.mem_cons_self), ih ht]

def IsForeign (c : Char) : Prop := Text.isBlank c = true ∧ isSpace c = false

theorem IsForeign.ne {d : Char} (h : IsForeign c) (hd : Text.isBlank d = false) : c ≠ d := by
  rintro rfl
  exact Bool.false_ne_true (hd.symm.trans h.1)

theorem IsForeign.isDigit_eq (h : IsForeign c) : Token.isDigit c = false := by
  by_contra hdigit
  have hcode : ∀ n < 0x3A, 0x30 ≤ n → Text.isBlank (Char.ofNat n) = false := by decide
  obtain ⟨hlow, hhigh⟩ : '0' ≤ c ∧ c ≤ '9' := by simpa [Token.isDigit] using hdigit
  have hplain := hcode c.toNat (Nat.lt_succ_of_le (Text.toNat_le_toNat hhigh))
    (Text.toNat_le_toNat hlow)
  rw [Char.ofNat_toNat] at hplain
  exact Bool.false_ne_true (hplain.symm.trans h.1)

theorem IsForeign.isPunctuation_eq (h : IsForeign c) : punctuation? c = none := by
  unfold punctuation?
  split <;> first | exact absurd rfl (h.ne (by decide)) | rfl

/-- No word begins with such a blank. -/
theorem IsForeign.ofWord_cons (h : IsForeign c) (word : List Char) :
    Token.ofWord (c :: word) = [.bad] := by
  have hne (s : List Char) (hs : s.head?.map Text.isBlank ≠ some true) : c :: word ≠ s := by
    rintro rfl
    exact hs (congrArg some h.1)
  have hwhole : Token.cutWhole (c :: word) = ([], c :: word) := by
    unfold Token.cutWhole
    split
    · next heq => exact absurd heq (hne _ (by rw [List.head?_cons]; decide))
    · simp [List.span_eq_takeWhile_dropWhile, h.isDigit_eq]
  have hnumber : Token.cutNumber? false (c :: word) = none := by
    simp [Token.cutNumber?, hwhole]
  rw [Token.ofWord, if_neg (hne "null".toList (by decide)), if_neg (hne "true".toList (by decide)),
    if_neg (hne "false".toList (by decide)), if_neg (hne "NaN".toList (by decide)),
    if_neg (hne "Infinity".toList (by decide)), if_neg (hne "-Infinity".toList (by decide)),
    Token.ofNumeral, hnumber]
  exact fun rest => hne ('-' :: rest) (by rw [List.head?_cons]; decide)

theorem exists_stepOutside (h : isWord c = false) (scan : Scan) :
    ∃ more next, scan.stepOutside c = (scan.pendingTokens ++ more, next) := by
  unfold stepOutside
  split_ifs with hspace hquote
  · exact ⟨[], .between, by rw [List.append_nil]⟩
  · exact ⟨[], .string [], by rw [List.append_nil]⟩
  · split
    · next token hpunctuation => exact ⟨[token], .between, rfl⟩
    · next hpunctuation => simp [isWord, hspace, hquote, hpunctuation] at h

/-- A word that begins with such a blank is bad. -/
theorem IsForeign.exists_tokens_word (h : IsForeign c) (word s : List Char) :
    ∃ rest, tokens (.word (word ++ [c])) s = .bad :: rest := by
  have hpending (word : List Char) : pendingTokens (.word (word ++ [c])) = [.bad] := by
    rw [pendingTokens, List.reverse_append, List.reverse_singleton, List.singleton_append,
      h.ofWord_cons]
  induction s generalizing word with
  | nil => exact ⟨[], hpending word⟩
  | cons d s ih =>
    cases hword : isWord d with
    | true =>
      have hstep : step (.word (word ++ [c])) d = ([], .word (d :: word ++ [c])) :=
        stepOutside_word hword _
      obtain ⟨rest, hrest⟩ := ih (d :: word)
      exact ⟨rest, by rw [tokens_cons, hstep, List.nil_append, hrest]⟩
    | false =>
      obtain ⟨more, next, hstep⟩ := exists_stepOutside hword (.word (word ++ [c]))
      rw [hpending] at hstep
      refine ⟨more ++ tokens next s, ?_⟩
      rw [tokens_cons]
      exact congrArg (fun found : List Token × Scan => found.1 ++ tokens found.2 s) hstep

theorem IsForeign.exists_tokens_cons (h : IsForeign c) (s : List Char) :
    ∃ rest, tokens .between (c :: s) = .bad :: rest := by
  have hstep : step .between c = ([], .word [c]) :=
    stepOutside_word (by simp [isWord, h.2, h.ne (d := '"') (by decide), h.isPunctuation_eq]) _
  obtain ⟨rest, hrest⟩ := h.exists_tokens_word [] s
  exact ⟨rest, by rw [tokens_cons, hstep, List.nil_append]; exact hrest⟩

theorem ofWord_ne_nil (s : List Char) : Token.ofWord s ≠ [] := by
  rw [Token.ofWord]
  split_ifs <;> simp only [Token.ofNumeral, ne_eq, List.cons_ne_nil, not_false_eq_true]
  split <;> exact List.cons_ne_nil _ _

/-- Within a token a scan goes on, unless it ends one. -/
theorem step_ne_between (h : scan ≠ .between) (hnone : (scan.step c).1 = []) :
    (scan.step c).2 ≠ .between := by
  cases scan with
  | between => exact absurd rfl h
  | word chars =>
    cases hword : isWord c with
    | true =>
      have hstep : step (.word chars) c = ([], .word (c :: chars)) := stepOutside_word hword _
      simp [hstep]
    | false =>
      obtain ⟨more, next, hstep⟩ := exists_stepOutside hword (.word chars)
      have hpending : (pendingTokens (.word chars) ++ more) = [] :=
        (congrArg Prod.fst hstep).symm.trans hnone
      exact absurd (List.append_eq_nil_iff.mp hpending).1 (ofWord_ne_nil _)
  | string points =>
    rw [step] at hnone ⊢
    split_ifs at hnone ⊢ <;> simp_all
  | escape points =>
    rw [step] at hnone ⊢
    split_ifs at hnone ⊢
    · simp
    · split at hnone
      · simp_all
      · simp at hnone
  | unit points left value =>
    rw [step] at hnone ⊢
    split at hnone
    · simp at hnone
    · split_ifs <;> simp_all

theorem tokens_ne_nil (h : scan ≠ .between) (s : List Char) : tokens scan s ≠ [] := by
  induction s generalizing scan with
  | nil =>
    cases scan with
    | between => exact absurd rfl h
    | word chars => exact ofWord_ne_nil _
    | _ => exact List.cons_ne_nil _ _
  | cons c s ih =>
    rw [tokens_cons]
    by_cases hnone : (scan.step c).1 = []
    · exact List.append_ne_nil_of_right_ne_nil _ (ih (step_ne_between h hnone))
    · exact List.append_ne_nil_of_left_ne_nil hnone _

/-- Just blanks leave no token. -/
theorem isSpace_of_tokens_eq_nil (h : tokens .between s = []) : ∀ c ∈ s, isSpace c = true := by
  induction s with
  | nil => simp
  | cons c s ih =>
    cases hspace : isSpace c with
    | true =>
      rw [tokens_space_cons hspace] at h
      exact List.forall_mem_cons.mpr ⟨hspace, ih h⟩
    | false =>
      -- The character is a token of its own, or begins one.
      have hne : tokens .between (c :: s) ≠ [] := by
        by_cases hquote : c = '"'
        · have hstring : tokens (.string []) s ≠ [] := tokens_ne_nil (by simp) s
          subst hquote
          exact hstring
        · cases hpunctuation : punctuation? c with
          | some token => simp [tokens_punctuation hpunctuation]
          | none =>
            have hstep : step .between c = ([], .word [c]) :=
              stepOutside_word (by simp [isWord, hspace, hquote, hpunctuation]) _
            rw [tokens_cons, hstep, List.nil_append]
            exact tokens_ne_nil (by simp) s
      exact absurd h hne

end Scan

namespace Reader

variable {depth : Nat} {r next : Reader} {first second : List Token} {token : Token} {v : Json}
  {members : Members}

theorem run_append (depth : Nat) (r : Reader) (first second : List Token) :
    run depth r (first ++ second) = (run depth r first).bind fun r => run depth r second := by
  induction first generalizing r with
  | nil => rfl
  | cons token first ih =>
    rw [List.cons_append, run, run]
    cases r.step token with
    | error fault => rfl
    | ok next =>
      simp only
      cases next.beyond? depth with
      | none => exact ih next
      | some container => rfl

theorem run_bad (depth : Nat) (r : Reader) (rest : List Token) :
    run depth r (.bad :: rest) = .error .notJson := by
  cases r <;> rfl

theorem run_done (h : first ≠ []) : run depth (.done v) first = .error .notJson := by
  cases first with
  | nil => exact absurd rfl h
  | cons token rest => rfl

theorem eq_of_finish_eq_done {found : Json} {stack : List Frame}
    (h : finish found stack = .done v) : found = v := by
  unfold finish at h
  split at h
  · exact Reader.done.inj h
  · cases h
  · cases h

theorem begin_ne_done_object (stack : List Frame) (token : Token) :
    begin stack token ≠ .ok (.done (.object members)) := by
  have hfinish {v : Json} (hv : ∀ members, v ≠ .object members) :
      Except.ok (ε := Fault) (finish v stack) ≠ .ok (.done (.object members)) :=
    fun h => hv members (eq_of_finish_eq_done (Except.ok.inj h))
  cases token with
  | null => exact hfinish (by simp)
  | bool b => exact hfinish (by simp)
  | float x => exact hfinish (by simp)
  | string s => exact hfinish (by simp)
  | integer negative digits =>
    rw [begin]
    split
    · simp
    · exact hfinish (by simp)
  | _ => simp [begin]

/-- Only a closing brace completes an object. -/
theorem eq_closeBrace_of_step (h : r.step token = .ok (.done (.object members))) :
    token = .closeBrace := by
  have harray (items : List Json) (stack : List Frame) :
      Except.ok (ε := Fault) (finish (.array items) stack) ≠ .ok (.done (.object members)) := by
    intro h
    cases eq_of_finish_eq_done (Except.ok.inj h)
  cases r with
  | value stack => exact absurd h (begin_ne_done_object stack token)
  | firstItem stack =>
    by_cases hclose : token = .closeBracket
    · subst hclose
      exact absurd h (harray [] stack)
    · exact absurd ((expects_firstItem stack token hclose).symm.trans h)
        (begin_ne_done_object _ token)
  | afterItem items stack =>
    cases token with
    | closeBracket => exact absurd h (harray items.reverse stack)
    | _ => cases h
  | firstKey stack => cases token <;> first | rfl | cases h
  | afterMember found stack => cases token <;> first | rfl | cases h
  | _ => cases token <;> cases h

theorem getLast?_of_run (hr : ∀ v, r ≠ .done v)
    (h : run depth r first = .ok (.done (.object members))) :
    first.getLast? = some .closeBrace := by
  induction first generalizing r with
  | nil => exact absurd (Except.ok.inj h) (hr _)
  | cons token rest ih =>
    rw [run] at h
    split at h
    · cases h
    · next next hstep =>
      split at h
      · cases h
      · cases rest with
        | nil =>
          obtain rfl := Except.ok.inj h
          rw [eq_closeBrace_of_step hstep, List.getLast?_singleton]
        | cons second rest =>
          have hnext : ∀ v, next ≠ .done v := by
            rintro v rfl
            cases h
          rw [List.getLast?_cons_cons]
          exact ih hnext h

end Reader

variable {depth : Nat} {s t before rest : List Char} {c : Char} {v : Json} {members : Members}

theorem readWithin_eq_ok_iff : readWithin depth s = .ok v ↔
    Reader.run depth (.value []) (Scan.tokens .between s) = .ok (.done v) := by
  rw [readWithin]
  split
  · next found hrun => simp [hrun]
  · next found hdone hrun =>
    refine iff_of_false (by simp) fun h => ?_
    exact hdone v (Except.ok.inj (hrun.symm.trans h))
  · next fault hrun => simp [hrun]

theorem ne_nil_of_readWithin (h : readWithin depth s = .ok v) : s ≠ [] := by
  rintro rfl
  cases h

theorem readWithin_spaces_append (h : ∀ c ∈ before, Scan.isSpace c = true) (s : List Char) :
    readWithin depth (before ++ s) = readWithin depth s := by
  rw [readWithin, Scan.tokens_spaces_append h, readWithin]

theorem readWithin_append_spaces (h : ∀ c ∈ rest, Scan.isSpace c = true) (s : List Char) :
    readWithin depth (s ++ rest) = readWithin depth s := by
  rw [readWithin, Scan.tokens_append_spaces h, readWithin]

/-- A text with another blank in front of it is refused. -/
theorem readWithin_of_foreign_front (hbefore : ∀ c ∈ before, Scan.isSpace c = true)
    (h : Scan.IsForeign c) (s : List Char) :
    readWithin depth (before ++ c :: s) = .error .notJson := by
  obtain ⟨tokens, htokens⟩ := h.exists_tokens_cons s
  rw [readWithin_spaces_append hbefore, readWithin, htokens, Reader.run_bad]

/-- The scan is between tokens after the text of an object. -/
theorem after_of_object (h : readWithin depth s = .ok (.object members)) :
    Scan.after .between s = .between := by
  have hlast := Reader.getLast?_of_run (by simp) (readWithin_eq_ok_iff.mp h)
  rw [Scan.tokens_eq] at hlast
  cases hafter : Scan.after .between s with
  | between => rfl
  | word chars =>
    rw [hafter, Scan.tokens] at hlast
    have hmem : Token.closeBrace ∈ Token.ofWord chars.reverse := by
      rw [List.getLast?_append_of_ne_nil _ (Scan.ofWord_ne_nil _)] at hlast
      exact List.mem_of_getLast? hlast
    exact absurd (Token.isWordToken_ofWord _ _ hmem) id
  | _ =>
    rw [hafter] at hlast
    simp [Scan.tokens] at hlast

/-- The text of an object with another blank after it is refused. -/
theorem readWithin_of_foreign_back (hs : readWithin depth s = .ok (.object members))
    (hrest : ∀ c ∈ rest, Scan.isSpace c = true) (h : Scan.IsForeign c) (t : List Char) :
    readWithin depth (s ++ (rest ++ c :: t)) = .error .notJson := by
  obtain ⟨tokens, htokens⟩ := h.exists_tokens_cons t
  have hall : Scan.tokens .between (s ++ (rest ++ c :: t)) =
      Scan.tokens .between s ++ .bad :: tokens := by
    rw [Scan.tokens_emitted_append, Scan.tokens_eq .between s, after_of_object hs,
      Scan.tokens_spaces_append hrest, htokens, List.append_assoc]
    rfl
  rw [readWithin, hall, Reader.run_append, readWithin_eq_ok_iff.mp hs]
  rfl

/-- What stands before a carriage return within the text of a value is refused. -/
theorem readWithin_of_append_return (h : readWithin depth (s ++ '\r' :: t) = .ok v)
    (ht : ∃ c ∈ t, Scan.isSpace c = false) : readWithin depth s = .error .notJson := by
  have hrest : Scan.tokens .between t ≠ [] := by
    intro hnil
    obtain ⟨c, hc, hplain⟩ := ht
    exact Bool.false_ne_true (hplain.symm.trans (Scan.isSpace_of_tokens_eq_nil hnil c hc))
  have hrun := readWithin_eq_ok_iff.mp h
  rw [Scan.tokens_append_return, Reader.run_append] at hrun
  rw [readWithin]
  cases hfirst : Reader.run depth (.value []) (Scan.tokens .between s) with
  | error fault =>
    rw [hfirst] at hrun
    cases hrun
  | ok r =>
    rw [hfirst] at hrun
    cases r with
    | done found =>
      have hmore : Reader.run depth (.done found) (Scan.tokens .between t) = .ok (.done v) := hrun
      rw [Reader.run_done hrest] at hmore
      cases hmore
    | _ => rfl

end Json

end Sqrl
