import Sqrl.Json.Reader
import Sqrl.Proofs.Json
import Sqrl.Proofs.NumberText

/-! The compact text of a value that can be recorded reads as that value, whatever is nested in it.
A word ends only where other text begins, so what may follow a value is part of what is said of its
text. -/
namespace Sqrl

namespace Json

open CodePoint (IsScalar)

namespace Scan

theorem stepOutside_punctuation {c : Char} {token : Token} (h : punctuation? c = some token)
    (scan : Scan) : scan.stepOutside c = (scan.pendingTokens ++ [token], .between) := by
  have hplain : isSpace c = false ∧ c ≠ '"' := by
    unfold punctuation? at h
    split at h <;> first | decide | cases h
  simp [stepOutside, hplain, h]

theorem tokens_punctuation {c : Char} {token : Token} (h : punctuation? c = some token)
    (s : List Char) : tokens .between (c :: s) = token :: tokens .between s := by
  rw [tokens, step, stepOutside_punctuation h]
  · rfl
  all_goals simp

def Breaks (s : List Char) : Prop := ∀ c ∈ s.head?, (punctuation? c).isSome = true

theorem breaks_nil : Breaks [] := by simp [Breaks]

theorem breaks_cons {c : Char} (h : (punctuation? c).isSome = true) (s : List Char) :
    Breaks (c :: s) := by
  simpa [Breaks] using h

def isWord (c : Char) : Bool := !isSpace c && c != '"' && (punctuation? c).isNone

theorem stepOutside_word {c : Char} (h : isWord c = true) (scan : Scan) :
    scan.stepOutside c =
      match scan with
      | .word chars => ([], .word (c :: chars))
      | _ => ([], .word [c]) := by
  simp only [isWord, Bool.and_eq_true, Bool.not_eq_true', bne_iff_ne, ne_eq,
    Option.isNone_iff_eq_none] at h
  cases scan <;> simp [stepOutside, h]

variable {word s : List Char}

theorem tokens_word_append (h : word.all isWord = true) (hs : Breaks s)
    (before : List Char) :
    tokens (.word before) (word ++ s) =
      Token.ofWord (before.reverse ++ word) ++ tokens .between s := by
  induction word generalizing before with
  | nil =>
    cases s with
    | nil => simp [tokens]
    | cons c s =>
      obtain ⟨token, htoken⟩ := Option.isSome_iff_exists.mp (hs c rfl)
      have hstep : step (.word before) c = (Token.ofWord before.reverse ++ [token], .between) :=
        stepOutside_punctuation htoken _
      rw [tokens_punctuation htoken, List.nil_append, tokens, hstep]
      simp
  | cons c word ih =>
    obtain ⟨hc, hword⟩ := Bool.and_eq_true_iff.mp h
    have hstep : step (.word before) c = ([], .word (c :: before)) := stepOutside_word hc _
    rw [List.cons_append, tokens, hstep, List.nil_append, ih hword]
    simp

theorem tokens_append (hword : word ≠ []) (h : word.all isWord = true) (hs : Breaks s) :
    tokens .between (word ++ s) = Token.ofWord word ++ tokens .between s := by
  cases word with
  | nil => exact absurd rfl hword
  | cons c word =>
    obtain ⟨hc, hrest⟩ := Bool.and_eq_true_iff.mp h
    have hstep : step .between c = ([], .word [c]) := stepOutside_word hc _
    rw [List.cons_append, tokens, hstep, List.nil_append, tokens_word_append hrest hs]
    rfl

end Scan

/-! Numbers. -/

def Scan.IsPlain (c : Char) : Prop := isWord c = true ∧ 0x20 ≤ c.toNat

instance (c : Char) : Decidable (Scan.IsPlain c) := inferInstanceAs (Decidable (_ ∧ _))

theorem Scan.isPlain_of_isNumeral {c : Char} (h : Token.isNumeral c = true) : IsPlain c := by
  have hne (d : Char) (hd : Token.isNumeral d = false) : c ≠ d := by
    rintro rfl
    rw [h] at hd
    cases hd
  have hpunctuation : punctuation? c = none := by
    unfold punctuation?
    split <;> first | rfl | exact absurd rfl (hne _ (by decide))
  have hcontrol : ∀ n < 0x20, Token.isNumeral (Char.ofNat n) = false := by decide
  constructor
  · simp [isWord, isSpace, hpunctuation, hne ' ' (by decide), hne '\t' (by decide),
      hne '\n' (by decide), hne '\r' (by decide), hne '"' (by decide)]
  · by_contra hlow
    exact hne _ (hcontrol c.toNat (Nat.not_le.mp hlow)) (Char.ofNat_toNat c).symm

theorem Scan.isPlain_of_all {s : List Char} (h : s.all (fun c => decide (IsPlain c)) = true) :
    ∀ c ∈ s, IsPlain c :=
  fun c hc => of_decide_eq_true (List.all_eq_true.mp h c hc)

/-- The text of a number is a word. -/
theorem Scan.isPlain_numberText (n : Number) : ∀ c ∈ n.text Binary64.dataWords, IsPlain c := by
  cases n with
  | int n => exact fun c hc => isPlain_of_isNumeral (Token.isNumeral_intText n c hc)
  | float x =>
    cases x with
    | nan => exact isPlain_of_all (by decide)
    | infinite negative => exact isPlain_of_all (by cases negative <;> decide)
    | negativeZero => exact isPlain_of_all (by decide)
    | finite u =>
      by_cases hu : u = 0
      · subst hu
        exact isPlain_of_all (by decide)
      · exact fun c hc => isPlain_of_isNumeral (Token.isNumeral_text_finite hu c hc)

/-! Strings. -/

namespace Scan

variable {points : List CodePoint} {s : List Char}

theorem tokens_escape {p : CodePoint} {c e : Char} (hc : c ≠ 'u') (he : escaped? c = some e)
    (hp : p = CodePoint.ofChar e) :
    tokens (.string points) ((CodePoint.ofChars ['\\', c]).map CodePoint.toChar ++ s) =
      tokens (.string (p :: points)) s := by
  simp [tokens, step, hc, he, hp]

theorem addUnit_of_lt {n : Nat} (h : n < 0xDC00) :
    addUnit points n = CodePoint.ofNat n :: points := by
  cases points with
  | nil => rfl
  | cons p points =>
    rw [addUnit, if_neg]
    omega

theorem hex_bigEndian_of_lt : ∀ n < 0x20, Bytes.hex (Bytes.bigEndian 2 n) =
    [Bytes.hexDigit 0, Bytes.hexDigit 0, Bytes.hexDigit (n / 16), Bytes.hexDigit (n % 16)] := by
  decide

theorem tokens_escapeUnit {n : Nat} (h : n < 0x20) :
    tokens (.string points) (escapeUnit n ++ s) =
      tokens (.string (CodePoint.ofNat n :: points)) s := by
  have hzero := Bytes.hexValue?_hexDigit 0 (by decide)
  have hhigh := Bytes.hexValue?_hexDigit (n / 16) (by omega)
  have hlow := Bytes.hexValue?_hexDigit (n % 16) (Nat.mod_lt _ (by decide))
  have hvalue : 16 * (n / 16) + n % 16 = n := Nat.div_add_mod n 16
  rw [escapeUnit, hex_bigEndian_of_lt n h]
  simp [tokens, step, hzero, hhigh, hlow, hvalue, addUnit_of_lt (Nat.lt_trans h (by decide))]

/-- A code point that has been written inside quotes is read there. -/
theorem tokens_writePoint {p : CodePoint} (h : p.isSurrogate = false) :
    tokens (.string points) ((writePoint .compact p).map CodePoint.toChar ++ s) =
      tokens (.string (p :: points)) s := by
  simp only [writePoint, Style.compact, Bool.false_and, Bool.false_eq_true, if_false]
  split_ifs with hquote hbackslash hfeed hreturn htab hform hback hcontrol
  · exact tokens_escape (by decide) rfl (Fin.ext hquote)
  · exact tokens_escape (by decide) rfl (Fin.ext hbackslash)
  · exact tokens_escape (by decide) rfl (Fin.ext hfeed)
  · exact tokens_escape (by decide) rfl (Fin.ext hreturn)
  · exact tokens_escape (by decide) rfl (Fin.ext htab)
  · exact tokens_escape (by decide) rfl (Fin.ext hform)
  · exact tokens_escape (by decide) rfl (Fin.ext hback)
  · have hp : CodePoint.ofNat p.val = p := Fin.ext (Nat.mod_eq_of_lt p.isLt)
    rw [CodePoint.map_toChar_ofChars, tokens_escapeUnit hcontrol, hp]
  · have hchar : p.toChar.toNat = p.val := CodePoint.toNat_toChar h
    have hne (c : Char) (hc : p.val ≠ c.toNat) : p.toChar ≠ c := by
      rintro rfl
      exact hc hchar.symm
    have hplain : ¬ p.toChar.toNat < 0x20 := hchar ▸ hcontrol
    simp [tokens, step, hne '"' hquote, hne '\\' hbackslash, hplain, CodePoint.ofChar_toChar h]

theorem tokens_points {t : List CodePoint} (h : IsScalar t) :
    tokens (.string points)
        ((t.flatMap (writePoint .compact)).map CodePoint.toChar ++ '"' :: s) =
      .string (points.reverse ++ t) :: tokens .between s := by
  induction t generalizing points with
  | nil => simp [tokens, step]
  | cons p t ih =>
    obtain ⟨hp, ht⟩ := List.forall_mem_cons.mp h
    rw [List.flatMap_cons, List.map_append, List.append_assoc, tokens_writePoint hp, ih ht]
    simp

theorem tokens_writeString {t : List CodePoint} (h : IsScalar t) (s : List Char) :
    tokens .between ((writeString .compact t).map CodePoint.toChar ++ s) =
      .string t :: tokens .between s := by
  have hstep : step .between '"' = ([], .string []) := rfl
  have htext : (writeString .compact t).map CodePoint.toChar ++ s =
      '"' :: ((t.flatMap (writePoint .compact)).map CodePoint.toChar ++ '"' :: s) := by
    simp [writeString]
  rw [htext, tokens, hstep, List.nil_append, tokens_points h]
  rfl

end Scan

/-! Values. -/

def compactText (v : Json) : List Char := (write .compact v).map CodePoint.toChar

def itemsText (items : List Json) : List Char :=
  (writeItems .compact items).map CodePoint.toChar

def membersText (members : List (List CodePoint × Json)) : List Char :=
  (writeMembers .compact members).map CodePoint.toChar

def stringText (s : List CodePoint) : List Char :=
  (writeString .compact s).map CodePoint.toChar

section Text

variable (v : Json) (items : List Json) (key : List CodePoint)
  (members : List (List CodePoint × Json))

theorem compactText_number (n : Number) :
    compactText (.number n) = n.text Binary64.dataWords := by
  simp [compactText, write]

theorem compactText_array_cons :
    compactText (.array (v :: items)) = '[' :: (compactText v ++ itemsText items) := by
  simp [compactText, itemsText, write]

theorem compactText_object_cons :
    compactText (.object ((key, v) :: members)) =
      '\x7b' :: (stringText key ++ ':' :: (compactText v ++ membersText members)) := by
  simp [compactText, membersText, stringText, write, Style.compact]

theorem itemsText_nil : itemsText [] = [']'] := by
  simp [itemsText, writeItems]

theorem itemsText_cons : itemsText (v :: items) = ',' :: (compactText v ++ itemsText items) := by
  simp [compactText, itemsText, writeItems, Style.compact]

theorem membersText_nil : membersText [] = ['\x7d'] := by
  simp [membersText, writeMembers]

theorem membersText_cons :
    membersText ((key, v) :: members) =
      ',' :: (stringText key ++ ':' :: (compactText v ++ membersText members)) := by
  simp [compactText, membersText, stringText, writeMembers, Style.compact]

theorem breaks_itemsText (s : List Char) : Scan.Breaks (itemsText items ++ s) := by
  cases items with
  | nil =>
    rw [itemsText_nil]
    exact Scan.breaks_cons rfl s
  | cons v items =>
    rw [itemsText_cons]
    exact Scan.breaks_cons rfl _

theorem breaks_membersText (s : List Char) : Scan.Breaks (membersText members ++ s) := by
  cases members with
  | nil =>
    rw [membersText_nil]
    exact Scan.breaks_cons rfl s
  | cons e members =>
    rw [membersText_cons]
    exact Scan.breaks_cons rfl _

end Text

namespace Reader

variable {depth : Nat} {r after : Reader} {stack : List Frame} {token : Token} {rest : List Token}

/-- Must a value stand next, to be put on the stack? -/
def Expects (r : Reader) (stack : List Frame) : Prop :=
  ∀ token, token ≠ .closeBracket → r.step token = begin stack token

theorem expects_value (stack : List Frame) : Expects (.value stack) stack := fun _ _ => rfl

theorem expects_firstItem (stack : List Frame) :
    Expects (.firstItem stack) (.items [] :: stack) := by
  intro token htoken
  cases token <;> first | rfl | exact absurd rfl htoken

theorem run_cons (hstep : r.step token = .ok after) (hdepth : after.beyond? depth = none) :
    run depth r (token :: rest) = run depth after rest := by
  rw [run, hstep]
  simp only [hdepth]

theorem beyond?_finish (v : Json) (stack : List Frame) : (finish v stack).beyond? depth = none := by
  unfold finish
  split <;> rfl

/-- Is the text of the value read as the value, wherever a value must stand? What is open before it
and what comes after it are left open, as both differ for the values within. -/
def ReadsBack (v : Json) : Prop :=
  ∀ ⦃depth : Nat⦄ ⦃r : Reader⦄ ⦃stack : List Frame⦄ ⦃s : List Char⦄, r.Expects stack →
    Scan.Breaks s → stack.length + v.nesting ≤ depth →
      run depth r (Scan.tokens .between (compactText v ++ s)) =
        run depth (finish v stack) (Scan.tokens .between s)

theorem readsBack_of_token {v : Json} (hplain : token ≠ .closeBracket)
    (htokens : ∀ ⦃s⦄, Scan.Breaks s →
      Scan.tokens .between (compactText v ++ s) = token :: Scan.tokens .between s)
    (hbegin : ∀ stack, begin stack token = .ok (finish v stack)) : ReadsBack v := by
  intro depth r stack s hexpects hs _
  rw [htokens hs, run_cons ((hexpects _ hplain).trans (hbegin stack)) (beyond?_finish v stack)]

theorem tokens_number {n : Number} {s : List Char} (hs : Scan.Breaks s)
    (hword : Token.ofWord (n.text Binary64.dataWords) = [token]) (hgood : token ≠ .bad) :
    Scan.tokens .between (compactText (.number n) ++ s) = token :: Scan.tokens .between s := by
  have hne : n.text Binary64.dataWords ≠ [] := by
    intro hnil
    rw [hnil] at hword
    exact hgood (List.cons.inj hword).1.symm
  have hplain := List.all_eq_true.mpr fun c hc => (Scan.isPlain_numberText n c hc).1
  rw [compactText_number, Scan.tokens_append hne hplain hs, hword]
  rfl

theorem readsBack_number {n : Number} (h : IsWritable (.number n)) : ReadsBack (.number n) := by
  cases n with
  | float x =>
    have hdouble : x.IsDouble := by simpa [IsWellFormed] using h.isWellFormed
    have hplain : Token.float x ≠ .closeBracket := by simp
    have hword : Token.ofWord ((Number.float x).text Binary64.dataWords) = [.float x] :=
      Token.ofWord_text hdouble
    exact readsBack_of_token hplain (fun _ hs => tokens_number hs hword (by simp)) fun _ => rfl
  | int n =>
    have hplain : Token.integer (decide (n < 0)) (Nat.toDigits 10 n.natAbs) ≠ .closeBracket := by
      simp
    have hword : Token.ofWord ((Number.int n).text Binary64.dataWords) =
        [.integer (decide (n < 0)) (Nat.toDigits 10 n.natAbs)] := Token.ofWord_intText n
    refine readsBack_of_token hplain (fun _ hs => tokens_number hs hword (by simp)) ?_
    intro stack
    have hshort : n.natAbs < 10 ^ Number.maxDigits := by
      simpa [HasShortNumbers] using h.hasShortNumbers
    have hdigits : (Nat.toDigits 10 n.natAbs).length ≤ Number.maxDigits :=
      (Nat.length_toDigits_le_iff (by decide) (by decide)).mpr hshort
    have hsign : (if decide (n < 0) = true then -(n.natAbs : Int) else n.natAbs) = n := by
      split_ifs with hn
      · have := of_decide_eq_true hn
        omega
      · have := of_decide_eq_false (Bool.not_eq_true _ ▸ hn)
        omega
    rw [begin, if_neg (Nat.not_lt.mpr hdigits), Token.value_toDigits]
    simp only [hsign]

theorem run_itemsText {items seen : List Json} {s : List Char}
    (h : ∀ v ∈ items, ReadsBack v ∧ stack.length + 1 + v.nesting ≤ depth) :
    run depth (.afterItem seen stack) (Scan.tokens .between (itemsText items ++ s)) =
      run depth (finish (.array (seen.reverse ++ items)) stack) (Scan.tokens .between s) := by
  induction items generalizing seen with
  | nil =>
    rw [itemsText_nil, List.append_nil]
    exact (congrArg _ (Scan.tokens_punctuation rfl s)).trans
      (run_cons rfl (beyond?_finish _ stack))
  | cons v items ih =>
    obtain ⟨⟨hread, hdepth⟩, hitems⟩ := List.forall_mem_cons.mp h
    have hcomma : step (.afterItem seen stack) .comma = .ok (.value (.items seen :: stack)) := rfl
    rw [itemsText_cons, List.cons_append, Scan.tokens_punctuation rfl, run_cons hcomma rfl,
      List.append_assoc, hread (expects_value _) (breaks_itemsText items s) hdepth]
    exact (ih hitems).trans (by rw [List.reverse_cons, List.append_assoc]; rfl)

theorem run_member {r : Reader} {seen : Members} {key : List CodePoint} {v : Json} {s : List Char}
    (hstep : r.step (.string key) = .ok (.colon seen key stack)) (hkey : IsScalar key)
    (hread : ReadsBack v) (hdepth : stack.length + 1 + v.nesting ≤ depth) (hs : Scan.Breaks s) :
    run depth r (Scan.tokens .between (stringText key ++ ':' :: (compactText v ++ s))) =
      run depth (.afterMember (Dictionary.put key v seen) stack) (Scan.tokens .between s) := by
  have hcolon : step (.colon seen key stack) .colon = .ok (.value (.member seen key :: stack)) :=
    rfl
  rw [stringText, Scan.tokens_writeString hkey, run_cons hstep rfl, Scan.tokens_punctuation rfl,
    run_cons hcolon rfl, hread (expects_value _) hs hdepth]
  rfl

theorem run_membersText {members seen : List (List CodePoint × Json)} {s : List Char}
    (hkeys : ((seen ++ members).map Prod.fst).Nodup)
    (h : ∀ e ∈ members, IsScalar e.1 ∧ ReadsBack e.2 ∧ stack.length + 1 + e.2.nesting ≤ depth) :
    run depth (.afterMember seen stack) (Scan.tokens .between (membersText members ++ s)) =
      run depth (finish (.object (seen ++ members)) stack) (Scan.tokens .between s) := by
  induction members generalizing seen with
  | nil =>
    rw [membersText_nil, List.append_nil]
    exact (congrArg _ (Scan.tokens_punctuation rfl s)).trans
      (run_cons rfl (beyond?_finish _ stack))
  | cons e members ih =>
    obtain ⟨⟨hkey, hread, hdepth⟩, hmembers⟩ := List.forall_mem_cons.mp h
    have hnew : e.1 ∉ seen.map Prod.fst := by
      rw [List.map_append, List.nodup_append] at hkeys
      exact fun hmem => hkeys.2.2 _ hmem e.1 List.mem_cons_self rfl
    have hcomma : step (.afterMember seen stack) .comma = .ok (.nextKey seen stack) := rfl
    rw [membersText_cons, List.cons_append, Scan.tokens_punctuation rfl, run_cons hcomma rfl,
      List.append_assoc, List.cons_append, List.append_assoc,
      run_member rfl hkey hread hdepth (breaks_membersText members s),
      Dictionary.put_of_not_mem hnew, ih (by simpa using hkeys) hmembers, List.append_assoc]
    rfl

theorem readsBack_array {items : List Json} (h : ∀ v ∈ items, ReadsBack v) :
    ReadsBack (.array items) := by
  intro depth r stack s hexpects _ hdepth
  rw [nesting] at hdepth
  have hopen : r.step .openBracket = .ok (.firstItem stack) := hexpects _ (by decide)
  have hroom : beyond? depth (.firstItem stack) = none := if_neg (by omega)
  have hitems : ∀ v ∈ items, ReadsBack v ∧ stack.length + 1 + v.nesting ≤ depth := by
    intro v hv
    have hle : v.nesting ≤ itemsNesting items := itemsNesting_le_iff.mp le_rfl v hv
    exact ⟨h v hv, by omega⟩
  cases items with
  | nil =>
    have htext : compactText (.array []) ++ s = '[' :: ']' :: s := rfl
    rw [htext, Scan.tokens_punctuation rfl, Scan.tokens_punctuation rfl, run_cons hopen hroom]
    exact run_cons rfl (beyond?_finish _ stack)
  | cons v items =>
    obtain ⟨⟨hread, hfirst⟩, hrest⟩ := List.forall_mem_cons.mp hitems
    rw [compactText_array_cons, List.cons_append, Scan.tokens_punctuation rfl,
      run_cons hopen hroom, List.append_assoc,
      hread (expects_firstItem stack) (breaks_itemsText items s) hfirst]
    exact run_itemsText hrest

theorem readsBack_object {members : List (List CodePoint × Json)}
    (hkeys : (members.map Prod.fst).Nodup)
    (h : ∀ e ∈ members, IsScalar e.1 ∧ ReadsBack e.2) : ReadsBack (.object members) := by
  intro depth r stack s hexpects _ hdepth
  rw [nesting] at hdepth
  have hopen : r.step .openBrace = .ok (.firstKey stack) := hexpects _ (by decide)
  have hroom : beyond? depth (.firstKey stack) = none := if_neg (by omega)
  have hmembers : ∀ e ∈ members,
      IsScalar e.1 ∧ ReadsBack e.2 ∧ stack.length + 1 + e.2.nesting ≤ depth := by
    intro e he
    have hle : e.2.nesting ≤ membersNesting members := membersNesting_le_iff.mp le_rfl e he
    exact ⟨(h e he).1, (h e he).2, by omega⟩
  cases members with
  | nil =>
    have htext : compactText (.object []) ++ s = '\x7b' :: '\x7d' :: s := rfl
    rw [htext, Scan.tokens_punctuation rfl, Scan.tokens_punctuation rfl, run_cons hopen hroom]
    exact run_cons rfl (beyond?_finish _ stack)
  | cons e members =>
    obtain ⟨⟨hkey, hread, hfirst⟩, hrest⟩ := List.forall_mem_cons.mp hmembers
    rw [compactText_object_cons, List.cons_append, Scan.tokens_punctuation rfl,
      run_cons hopen hroom, List.append_assoc, List.cons_append, List.append_assoc,
      run_member rfl hkey hread hfirst (breaks_membersText members s)]
    exact run_membersText hkeys hrest

/-- A value that can be written is read back from its text. -/
theorem readsBack {v : Json} (h : v.IsWritable) : ReadsBack v := by
  induction v using rec_mem with
  | null =>
    have hplain : Token.null ≠ .closeBracket := by decide
    refine readsBack_of_token hplain (fun _ hs => ?_) fun _ => rfl
    exact Scan.tokens_append (by decide) (by decide) hs
  | bool b =>
    have hplain : Token.bool b ≠ .closeBracket := by simp
    refine readsBack_of_token hplain (fun _ hs => ?_) fun _ => rfl
    cases b with
    | false => exact Scan.tokens_append (by decide) (by decide) hs
    | true => exact Scan.tokens_append (by decide) (by decide) hs
  | number n => exact readsBack_number h
  | string s =>
    have hplain : Token.string s ≠ .closeBracket := by simp
    have htext := hasText_string_iff.mp h.hasText
    exact readsBack_of_token hplain (fun s _ => Scan.tokens_writeString htext s) fun _ => rfl
  | array items ih => exact readsBack_array fun v hv => ih v hv (h.item hv)
  | object members ih =>
    refine readsBack_object (isWellFormed_object_iff.mp h.isWellFormed).1 fun e he => ?_
    exact ⟨(hasText_object_iff.mp h.hasText e he).1, ih e he (h.member he)⟩

end Reader

theorem IsWritable.readWithin_compactText {depth : Nat} {v : Json} (h : v.IsWritable)
    (hdepth : v.nesting ≤ depth) : readWithin depth (compactText v) = .ok v := by
  have hstack : ([] : List Frame).length + v.nesting ≤ depth := by simpa using hdepth
  have hrun := Reader.readsBack h (Reader.expects_value []) Scan.breaks_nil hstack
  rw [List.append_nil] at hrun
  rw [readWithin, hrun]
  rfl

/-! What a text is made of. -/

def HasNoControl (s : List Char) : Prop := s.all (fun c => decide (0x20 ≤ c.toNat)) = true

instance (s : List Char) : Decidable (HasNoControl s) := inferInstanceAs (Decidable (_ = true))

theorem hasNoControl_iff {s : List Char} : HasNoControl s ↔ ∀ c ∈ s, 0x20 ≤ c.toNat := by
  simp [HasNoControl]

theorem HasNoControl.append {s t : List Char} (hs : HasNoControl s) (ht : HasNoControl t) :
    HasNoControl (s ++ t) := by
  rw [HasNoControl, List.all_append, hs, ht]
  rfl

theorem HasNoControl.cons {s : List Char} {c : Char} (hc : 0x20 ≤ c.toNat) (hs : HasNoControl s) :
    HasNoControl (c :: s) :=
  hasNoControl_iff.mpr (List.forall_mem_cons.mpr ⟨hc, hasNoControl_iff.mp hs⟩)

theorem hasNoControl_escapeUnit (n : Nat) : HasNoControl (escapeUnit n) := by
  have hdigit : ∀ n < 16, 0x20 ≤ (Bytes.hexDigit n).toNat := by decide
  refine .cons (by decide) (.cons (by decide) (hasNoControl_iff.mpr fun c hc => ?_))
  obtain ⟨digit, hlt, rfl⟩ := Bytes.mem_hex hc
  exact hdigit digit hlt

theorem hasNoControl_stringText {t : List CodePoint} (h : IsScalar t) :
    HasNoControl (stringText t) := by
  have hshort (s : List Char) (hs : HasNoControl s) :
      HasNoControl ((CodePoint.ofChars s).map CodePoint.toChar) := by
    rwa [CodePoint.map_toChar_ofChars]
  have hpoint : ∀ p ∈ t, HasNoControl ((writePoint .compact p).map CodePoint.toChar) := by
    intro p hp
    simp only [writePoint, Style.compact, Bool.false_and, Bool.false_eq_true, if_false]
    split_ifs with hquote hbackslash hfeed hreturn htab hform hback hcontrol
    · exact hshort _ (by decide)
    · exact hshort _ (by decide)
    · exact hshort _ (by decide)
    · exact hshort _ (by decide)
    · exact hshort _ (by decide)
    · exact hshort _ (by decide)
    · exact hshort _ (by decide)
    · exact hshort _ (hasNoControl_escapeUnit _)
    · refine .cons ?_ (by decide)
      rw [CodePoint.toNat_toChar (h p hp)]
      exact Nat.not_lt.mp hcontrol
  refine hasNoControl_iff.mpr fun c hc => ?_
  simp only [stringText, writeString, List.map_cons, List.map_append, List.mem_cons,
    List.mem_append, List.map_flatMap, List.mem_flatMap, List.map_nil, CodePoint.toChar_ofChar,
    List.not_mem_nil, or_false] at hc
  rcases hc with rfl | ⟨p, hp, hc⟩ | rfl
  · decide
  · exact hasNoControl_iff.mp (hpoint p hp) c hc
  · decide

theorem hasNoControl_itemsText {items : List Json} (h : ∀ v ∈ items, HasNoControl (compactText v)) :
    HasNoControl (itemsText items) := by
  induction items with
  | nil =>
    rw [itemsText_nil]
    decide
  | cons v items ih =>
    obtain ⟨hv, hitems⟩ := List.forall_mem_cons.mp h
    rw [itemsText_cons]
    exact .cons (by decide) (hv.append (ih hitems))

theorem hasNoControl_membersText {members : List (List CodePoint × Json)}
    (h : ∀ e ∈ members, HasNoControl (stringText e.1) ∧ HasNoControl (compactText e.2)) :
    HasNoControl (membersText members) := by
  induction members with
  | nil =>
    rw [membersText_nil]
    decide
  | cons e members ih =>
    obtain ⟨⟨hkey, hvalue⟩, hmembers⟩ := List.forall_mem_cons.mp h
    rw [membersText_cons]
    exact .cons (by decide) (hkey.append (.cons (by decide) (hvalue.append (ih hmembers))))

theorem HasText.hasNoControl_compactText {v : Json} (h : v.HasText) :
    HasNoControl (compactText v) := by
  induction v using rec_mem with
  | null => decide
  | bool b => cases b <;> decide
  | number n =>
    rw [compactText_number]
    exact hasNoControl_iff.mpr fun c hc => (Scan.isPlain_numberText n c hc).2
  | string s => exact hasNoControl_stringText (hasText_string_iff.mp h)
  | array items ih =>
    have hitems := fun v hv => ih v hv (hasText_array_iff.mp h v hv)
    cases items with
    | nil => decide
    | cons v items =>
      obtain ⟨hv, hrest⟩ := List.forall_mem_cons.mp hitems
      rw [compactText_array_cons]
      exact .cons (by decide) (hv.append (hasNoControl_itemsText hrest))
  | object members ih =>
    have hmembers : ∀ e ∈ members,
        HasNoControl (stringText e.1) ∧ HasNoControl (compactText e.2) := by
      intro e he
      obtain ⟨hkey, hvalue⟩ := hasText_object_iff.mp h e he
      exact ⟨hasNoControl_stringText hkey, ih e he hvalue⟩
    cases members with
    | nil => decide
    | cons e members =>
      obtain ⟨⟨hkey, hvalue⟩, hrest⟩ := List.forall_mem_cons.mp hmembers
      rw [compactText_object_cons]
      exact .cons (by decide)
        (hkey.append (.cons (by decide) (hvalue.append (hasNoControl_membersText hrest))))

theorem exists_membersText_eq (members : List (List CodePoint × Json)) :
    ∃ s, membersText members = s ++ ['\x7d'] := by
  induction members with
  | nil => exact ⟨[], membersText_nil⟩
  | cons e members ih =>
    obtain ⟨s, hs⟩ := ih
    exact ⟨',' :: (stringText e.1 ++ ':' :: (compactText e.2 ++ s)), by
      rw [membersText_cons, hs]
      simp⟩

/-- The text of an object stands between braces. -/
theorem exists_compactText_object_eq (members : List (List CodePoint × Json)) :
    ∃ s, compactText (.object members) = '\x7b' :: (s ++ ['\x7d']) := by
  cases members with
  | nil => exact ⟨[], rfl⟩
  | cons e members =>
    obtain ⟨s, hs⟩ := exists_membersText_eq members
    exact ⟨stringText e.1 ++ ':' :: (compactText e.2 ++ s), by
      rw [compactText_object_cons, hs]
      simp⟩

end Json

end Sqrl
