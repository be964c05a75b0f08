import Sqrl.Proofs.Ascii
import Sqrl.Proofs.AuditAppend
import Sqrl.Proofs.JsonBlank

/-! What is read of a log that verifies. The check cuts the log at line feeds only and passes over
all blanks of ASCII around a line. The reader also cuts it at carriage returns, and what it leaves
around the text of a value is for the reader of JSON, which knows fewer blanks. So the two agree on
lines whose value is in one piece, with just blanks of JSON beside it. At any other line the reader
stops. -/
namespace Sqrl.Audit

variable {depth : Nat} {head next last : String} {event : Event} {line : Bytes}
  {u s x part : List Char} {lines blanks more : List (List Char)}

def isAsciiBlank (c : Char) : Bool := c = ' ' || ('\t' ≤ c && c ≤ '\r')

def isSpaceByte (b : UInt8) : Bool := b = 0x20 || b = 0x09 || b = 0x0A || b = 0x0D

/-- Does the value of a line stand between two carriage returns, or the ends of the line, with just
blanks of JSON beside it, and nothing but blanks elsewhere? -/
def IsWhole (line : Bytes) : Prop :=
  ∀ part ∈ Text.splitOn 0x0D line,
    IsBlank part ∨ Text.trim isSpaceByte part = Text.trim isBlankByte line

/-- The same of the text of a line. -/
def IsWholeText (u : List Char) : Prop :=
  ∀ part ∈ Text.splitOn '\r' u, Text.trim isAsciiBlank part = [] ∨
    Text.trim Json.Scan.isSpace part = Text.trim isAsciiBlank u

theorem isAscii_blank : Utf8.IsAscii isBlankByte isAsciiBlank where
  ascii _ hc := Text.of_codes (p := fun c => isBlankByte (UInt8.ofNat c.toNat) = isAsciiBlank c)
    (by decide) hc
  byte b hb := by
    simp only [isBlankByte, Bool.or_eq_true, Bool.and_eq_true, decide_eq_true_eq,
      UInt8.le_iff_toNat_le] at hb
    rcases hb with rfl | ⟨-, hb⟩
    · decide
    · exact Nat.lt_of_le_of_lt hb (by decide)
  char c hc := by
    simp only [isAsciiBlank, Bool.or_eq_true, Bool.and_eq_true, decide_eq_true_eq] at hc
    rcases hc with rfl | ⟨-, hc⟩
    · decide
    · exact Nat.lt_of_le_of_lt (Text.toNat_le_toNat hc) (by decide)

theorem isAscii_space : Utf8.IsAscii isSpaceByte Json.Scan.isSpace where
  ascii _ hc :=
    Text.of_codes (p := fun c => isSpaceByte (UInt8.ofNat c.toNat) = Json.Scan.isSpace c)
      (by decide) hc
  byte b hb := by
    simp only [isSpaceByte, Bool.or_eq_true, decide_eq_true_eq] at hb
    rcases hb with ((rfl | rfl) | rfl) | rfl <;> decide
  char c hc := by
    simp only [Json.Scan.isSpace, Bool.or_eq_true, decide_eq_true_eq] at hc
    rcases hc with ((rfl | rfl) | rfl) | rfl <;> decide

theorem isAsciiBlank_of_isSpace {c : Char} (h : Json.Scan.isSpace c = true) :
    isAsciiBlank c = true := by
  simp only [Json.Scan.isSpace, Bool.or_eq_true, decide_eq_true_eq] at h
  rcases h with ((rfl | rfl) | rfl) | rfl <;> decide

theorem isSpace_eq_of_isAsciiBlank {c : Char} (h : isAsciiBlank c = false) :
    Json.Scan.isSpace c = false := by
  by_contra hspace
  exact Bool.false_ne_true (h.symm.trans (isAsciiBlank_of_isSpace (by simpa using hspace)))

theorem isBlank_of_isAsciiBlank {c : Char} (h : isAsciiBlank c = true) :
    Text.isBlank c = true :=
  Text.of_codes (p := fun c => isAsciiBlank c = true → Text.isBlank c = true) (by decide)
    (isAscii_blank.char c h) h

theorem isForeign_of_isAsciiBlank {c : Char} (h : isAsciiBlank c = true)
    (hspace : Json.Scan.isSpace c = false) : Json.Scan.IsForeign c :=
  ⟨isBlank_of_isAsciiBlank h, hspace⟩

theorem isWhole_encode_iff (u : List Char) : IsWhole (Utf8.encode u) ↔ IsWholeText u := by
  have hnil (s : List Char) : Utf8.encode s = [] ↔ s = [] :=
    ⟨fun h => Utf8.encode_injective (t := []) h, fun h => h ▸ rfl⟩
  have hreturn : Text.splitOn 0x0D (Utf8.encode u) = (Text.splitOn '\r' u).map Utf8.encode :=
    Utf8.splitOn_encode u (c := '\r') (by decide)
  rw [IsWhole, IsWholeText, hreturn, List.forall_mem_map]
  refine forall₂_congr fun part _ => ?_
  rw [IsBlank, Utf8.trim_encode isAscii_blank, Utf8.trim_encode isAscii_space,
    Utf8.trim_encode isAscii_blank, hnil]
  exact or_congr_right ⟨fun h => Utf8.encode_injective h, fun h => h ▸ rfl⟩

/-! Lines. -/

namespace Trail

theorem readLines_append (depth : Nat) (lines more : List (List Char)) :
    readLines depth (lines ++ more) =
      (readLines depth lines).bind fun values => (values ++ ·) <$> readLines depth more := by
  induction lines with
  | nil =>
    cases h : readLines depth more <;> simp [h, readLines, Except.bind, Functor.map, Except.map]
  | cons line lines ih =>
    rw [List.cons_append, readLines, readLines, ih]
    split
    · rfl
    · cases Json.readWithin depth line with
      | error fault => rfl
      | ok v =>
        simp only
        cases readLines depth lines with
        | error fault => rfl
        | ok values => cases readLines depth more <;> rfl

theorem readLines_blanks_append (h : ∀ line ∈ blanks, Text.strip line = [])
    (lines : List (List Char)) : readLines depth (blanks ++ lines) = readLines depth lines := by
  induction blanks with
  | nil => rfl
  | cons line blanks ih =>
    obtain ⟨hline, hblanks⟩ := List.forall_mem_cons.mp h
    rw [List.cons_append, readLines, if_pos hline, ih hblanks]

theorem readLines_blanks (h : ∀ line ∈ blanks, Text.strip line = []) :
    readLines depth blanks = .ok [] := by
  have hskip : readLines depth (blanks ++ []) = readLines depth [] := readLines_blanks_append h []
  rw [← List.append_nil blanks, hskip]
  rfl

theorem readLines_cons_of_ok {line : List Char} {v : Json} {values : List Json}
    (hline : Text.strip line ≠ []) (h : Json.readWithin depth line = .ok v)
    (hlines : readLines depth lines = .ok values) :
    readLines depth (line :: lines) = .ok (v :: values) := by
  rw [readLines, if_neg hline, h, hlines]
  rfl

theorem readLines_cons_of_error {line : List Char} {fault : Json.Fault}
    (hline : Text.strip line ≠ []) (h : Json.readWithin depth line = .error fault)
    (lines : List (List Char)) : readLines depth (line :: lines) = .error (.line fault) := by
  rw [readLines, if_neg hline, h]

def Alike (lines more : List (List Char)) : Prop :=
  lines.filter (fun line => line ≠ []) = more.filter fun line => line ≠ []

theorem Alike.cons (h : Alike lines more) (line : List Char) :
    Alike (line :: lines) (line :: more) := by
  rw [Alike, List.filter_cons, List.filter_cons, h]

theorem Alike.empty_cons (h : Alike lines more) : Alike lines ([] :: more) := by
  rw [Alike, List.filter_cons_of_neg (by simp)]
  exact h

theorem Alike.readLines_eq (depth : Nat) (h : Alike lines more) :
    readLines depth lines = readLines depth more := by
  have hempty (lines : List (List Char)) :
      readLines depth (lines.filter fun line => line ≠ []) = readLines depth lines := by
    induction lines with
    | nil => rfl
    | cons line lines ih =>
      by_cases hline : line = []
      · subst hline
        rw [List.filter_cons_of_neg (by simp), ih]
        rfl
      · rw [List.filter_cons_of_pos (by simpa using hline), readLines, readLines, ih]
  rw [← hempty lines, h, hempty]

def pieces (s : List Char) : List (List Char) :=
  (Text.splitOn '\n' s).flatMap (Text.splitOn '\r')

theorem pieces_feed (s : List Char) : pieces ('\n' :: s) = [] :: pieces s := rfl

theorem pieces_return (s : List Char) : pieces ('\r' :: s) = [] :: pieces s := by
  obtain ⟨line, lines, hs⟩ := List.exists_cons_of_ne_nil (Text.splitOn_ne_nil '\n' s)
  simp [pieces, Text.splitOn, hs, Text.consHead]

theorem pieces_cons {c : Char} (hfeed : c ≠ '\n') (hreturn : c ≠ '\r') (s : List Char) :
    pieces (c :: s) = Text.consHead c (pieces s) := by
  obtain ⟨line, lines, hs⟩ := List.exists_cons_of_ne_nil (Text.splitOn_ne_nil '\n' s)
  obtain ⟨part, parts, hline⟩ :=
    List.exists_cons_of_ne_nil (Text.splitOn_ne_nil '\r' line)
  simp [pieces, Text.splitOn, hs, hline, Text.consHead, hfeed, hreturn]

/-- With the ends of lines unified a text has the same lines but for empty ones. -/
theorem exists_splitOn_unifyLineEnds (s : List Char) : ∃ line lines more,
    Text.splitOn '\n' (unifyLineEnds s) = line :: lines ∧ pieces s = line :: more ∧
      Alike lines more := by
  -- A line that is still open must not get an empty one before it, so the first ones are the same.
  induction s using unifyLineEnds.induct with
  | case1 rest ih =>
    obtain ⟨line, lines, more, hunified, hpieces, hempty⟩ := ih
    refine ⟨[], line :: lines, [] :: line :: more, ?_, ?_, (hempty.cons line).empty_cons⟩
    · rw [unifyLineEnds, Text.splitOn, if_pos rfl, hunified]
    · rw [pieces_return, pieces_feed, hpieces]
  | case2 => exact ⟨[], [], [], rfl, rfl, rfl⟩
  | case3 c rest hpair ih =>
    obtain ⟨line, lines, more, hunified, hpieces, hempty⟩ := ih
    have hstep : unifyLineEnds (c :: rest) =
        (if c = '\r' then '\n' else c) :: unifyLineEnds rest := by
      rw [unifyLineEnds]
      exact hpair
    by_cases hreturn : c = '\r'
    · refine ⟨[], line :: lines, line :: more, ?_, ?_, hempty.cons line⟩
      · rw [hstep, if_pos hreturn, Text.splitOn, if_pos rfl, hunified]
      · rw [hreturn, pieces_return, hpieces]
    · rw [if_neg hreturn] at hstep
      by_cases hfeed : c = '\n'
      · refine ⟨[], line :: lines, line :: more, ?_, ?_, hempty.cons line⟩
        · rw [hstep, Text.splitOn, if_pos hfeed, hunified]
        · rw [hfeed, pieces_feed, hpieces]
      · refine ⟨c :: line, lines, more, ?_, ?_, hempty⟩
        · rw [hstep, Text.splitOn, if_neg hfeed, hunified, Text.consHead]
        · rw [pieces_cons hfeed hreturn, hpieces, Text.consHead]

theorem readLines_unifyLineEnds (depth : Nat) (s : List Char) :
    readLines depth (Text.splitOn '\n' (unifyLineEnds s)) = readLines depth (pieces s) := by
  obtain ⟨line, lines, more, hunified, hpieces, hempty⟩ := exists_splitOn_unifyLineEnds s
  rw [hunified, hpieces, (hempty.cons line).readLines_eq]

end Trail

/-! The text of an event in its line. -/

theorem isSpace_or_readWithin_eq (depth : Nat) {before : List Char}
    (h : ∀ c ∈ before, isAsciiBlank c = true) (s : List Char) :
    (∀ c ∈ before, Json.Scan.isSpace c = true) ∨
      Json.readWithin depth (before ++ s) = .error .notJson := by
  cases hfound : before.find? fun c => !Json.Scan.isSpace c with
  | none => exact .inl fun c hc => by simpa using List.find?_eq_none.mp hfound c hc
  | some c =>
    obtain ⟨hc, spaces, rest, rfl, hspaces⟩ := List.find?_eq_some_iff_append.mp hfound
    rw [List.append_assoc, List.cons_append]
    exact .inr (Json.readWithin_of_foreign_front (fun d hd => by simpa using hspaces d hd)
      (isForeign_of_isAsciiBlank (h c (by simp)) (by simpa using hc)) _)

theorem isSpace_or_readWithin_eq_of_object {after : List Char}
    (h : ∀ c ∈ after, isAsciiBlank c = true)
    (hs : Json.readWithin depth s = .ok (.object event)) :
    (∀ c ∈ after, Json.Scan.isSpace c = true) ∨
      Json.readWithin depth (s ++ after) = .error .notJson := by
  cases hfound : after.find? fun c => !Json.Scan.isSpace c with
  | none => exact .inl fun c hc => by simpa using List.find?_eq_none.mp hfound c hc
  | some c =>
    obtain ⟨hc, spaces, rest, rfl, hspaces⟩ := List.find?_eq_some_iff_append.mp hfound
    exact .inr (Json.readWithin_of_foreign_back hs (fun d hd => by simpa using hspaces d hd)
      (isForeign_of_isAsciiBlank (h c (by simp)) (by simpa using hc)) _)

/-- Text with no blank of ASCII at its ends has none of JSON there. -/
theorem trim_isSpace_eq_self (h : Text.trim isAsciiBlank s = s) :
    Text.trim Json.Scan.isSpace s = s := by
  obtain ⟨hfirst, hlast⟩ := Text.trim_eq_self_iff.mp h
  exact Text.trim_eq_self_iff.mpr ⟨fun c hc => isSpace_eq_of_isAsciiBlank (hfirst c hc),
    fun c hc => isSpace_eq_of_isAsciiBlank (hlast c hc)⟩

/-- The text of an event is read with blanks of JSON beside it, and refused with others. -/
theorem readWithin_part
    (hs : Json.readWithin depth (Text.trim isAsciiBlank x) = .ok (.object event)) :
    (Text.trim Json.Scan.isSpace x = Text.trim isAsciiBlank x →
      Json.readWithin depth x = .ok (.object event)) ∧
    (Text.trim Json.Scan.isSpace x ≠ Text.trim isAsciiBlank x →
      Json.readWithin depth x = .error .notJson) := by
  constructor
  · intro htrim
    obtain ⟨before, after, hx, hbefore, hafter⟩ := Text.exists_eq_trim Json.Scan.isSpace x
    rw [hx, Json.readWithin_append_spaces hafter, Json.readWithin_spaces_append hbefore, htrim, hs]
  · intro htrim
    obtain ⟨before, after, hx, hbefore, hafter⟩ := Text.exists_eq_trim isAsciiBlank x
    rw [List.append_assoc] at hx
    obtain hfront | hrefused := isSpace_or_readWithin_eq depth hbefore
      (Text.trim isAsciiBlank x ++ after)
    · obtain hback | hrefused := isSpace_or_readWithin_eq_of_object hafter hs
      · refine absurd ?_ htrim
        have hself := trim_isSpace_eq_self (Text.trim_trim isAsciiBlank x)
        have hall := Text.trim_append_append hfront hself (Json.ne_nil_of_readWithin hs) hback
        rwa [List.append_assoc, ← hx] at hall
      · rw [hx, Json.readWithin_spaces_append hfront, hrefused]
    · rw [hx, hrefused]

theorem trim_eq_nil_iff_parts : Text.trim isAsciiBlank u = [] ↔
    ∀ part ∈ Text.splitOn '\r' u, Text.trim isAsciiBlank part = [] := by
  simp only [Text.trim_eq_nil_iff]
  conv_lhs => rw [← Text.join_splitOn '\r' u]
  exact Text.forall_mem_join (by decide)

theorem trim_join_blanks_append (h : ∀ part ∈ blanks, Text.trim isAsciiBlank part = [])
    (x : List Char) (more : List (List Char)) :
    Text.trim isAsciiBlank (Text.join ['\r'] (blanks ++ x :: more)) =
      Text.trim isAsciiBlank (Text.join ['\r'] (x :: more)) := by
  induction blanks with
  | nil => rfl
  | cons part blanks ih =>
    obtain ⟨hpart, hrest⟩ := List.forall_mem_cons.mp h
    have hjoin : Text.join ['\r'] (part :: blanks ++ x :: more) =
        part ++ ['\r'] ++ Text.join ['\r'] (blanks ++ x :: more) := by
      rw [List.cons_append, Text.join]
      simp
    have hreturn : ∀ c ∈ part ++ ['\r'], isAsciiBlank c = true :=
      List.forall_mem_append.mpr ⟨Text.trim_eq_nil_iff.mp hpart,
        List.forall_mem_singleton.mpr (by decide)⟩
    rw [hjoin, Text.trim_blanks_append hreturn, ih hrest]

theorem exists_first_part (h : Text.trim isAsciiBlank u ≠ []) : ∃ blanks x more,
    Text.splitOn '\r' u = blanks ++ x :: more ∧
      (∀ part ∈ blanks, Text.trim isAsciiBlank part = []) ∧ Text.trim isAsciiBlank x ≠ [] ∧
      Text.trim isAsciiBlank u = Text.trim isAsciiBlank (Text.join ['\r'] (x :: more)) := by
  cases hfound : (Text.splitOn '\r' u).find? fun part => Text.trim isAsciiBlank part ≠ [] with
  | none =>
    refine absurd (trim_eq_nil_iff_parts.mpr fun part hpart => ?_) h
    simpa using List.find?_eq_none.mp hfound part hpart
  | some x =>
    obtain ⟨hx, blanks, more, hsplit, hblanks⟩ := List.find?_eq_some_iff_append.mp hfound
    have hnil : ∀ part ∈ blanks, Text.trim isAsciiBlank part = [] :=
      fun part hpart => by simpa using hblanks part hpart
    refine ⟨blanks, x, more, hsplit, hnil, by simpa using hx, ?_⟩
    rw [← Text.join_splitOn '\r' u, hsplit]
    exact trim_join_blanks_append hnil x more

theorem strip_eq_nil_of_trim (h : Text.trim isAsciiBlank s = []) : Text.strip s = [] :=
  Text.trim_eq_nil_iff.mpr fun c hc => isBlank_of_isAsciiBlank (Text.trim_eq_nil_iff.mp h c hc)

/-- A value does not begin with a blank of any kind. -/
theorem isBlank_eq_of_readWithin {c : Char} {v : Json}
    (h : Json.readWithin depth (c :: s) = .ok v) (hc : isAsciiBlank c = false) :
    Text.isBlank c = false := by
  by_contra hblank
  have hforeign : Json.Scan.IsForeign c :=
    ⟨by simpa using hblank, isSpace_eq_of_isAsciiBlank hc⟩
  cases h.symm.trans (Json.readWithin_of_foreign_front (List.forall_mem_nil _) hforeign s)

/-- After its first part a line has nothing, or its value goes on after a carriage return. -/
theorem trim_join_cons (x : List Char) (more : List (List Char)) :
    ((∀ part ∈ more, Text.trim isAsciiBlank part = []) ∧
      Text.trim isAsciiBlank (Text.join ['\r'] (x :: more)) = Text.trim isAsciiBlank x) ∨
    ∃ after, Text.trim isAsciiBlank after ≠ [] ∧
      Text.join ['\r'] (x :: more) = x ++ '\r' :: after := by
  cases more with
  | nil => exact .inl ⟨by simp, rfl⟩
  | cons part more =>
    have hjoin : Text.join ['\r'] (x :: part :: more) =
        x ++ '\r' :: Text.join ['\r'] (part :: more) := by
      rw [Text.join, List.append_assoc, List.singleton_append]
      exact List.cons_ne_nil part more
    by_cases hnil : Text.trim isAsciiBlank (Text.join ['\r'] (part :: more)) = []
    · have hblank := Text.trim_eq_nil_iff.mp hnil
      refine .inl ⟨fun other hother => Text.trim_eq_nil_iff.mpr ?_, ?_⟩
      · exact (Text.forall_mem_join (by decide)).mp hblank other hother
      · rw [hjoin, Text.trim_append_blanks (List.forall_mem_cons.mpr ⟨by decide, hblank⟩)]
    · exact .inr ⟨_, hnil, hjoin⟩

/-- A value that goes on after a carriage return is cut by it, and what stands before is refused. -/
theorem readWithin_of_cut {v : Json} {before rest after : List Char} {c : Char}
    (hbefore : ∀ d ∈ before, isAsciiBlank d = true) (hc : isAsciiBlank c = false)
    (hafter : Text.trim isAsciiBlank after ≠ [])
    (hs : Json.readWithin depth
      (Text.trim isAsciiBlank (before ++ c :: rest ++ '\r' :: after)) = .ok v) :
    '\r' ∈ Text.trim isAsciiBlank (before ++ c :: rest ++ '\r' :: after) ∧
      Json.readWithin depth (before ++ c :: rest) = .error .notJson := by
  have hend : Text.trimEnd isAsciiBlank after ≠ [] := fun hnil =>
    hafter (Text.trim_eq_nil_iff.mpr (Text.trimEnd_eq_nil_iff.mp hnil))
  have htrim : Text.trim isAsciiBlank (before ++ c :: rest ++ '\r' :: after) =
      c :: rest ++ '\r' :: Text.trimEnd isAsciiBlank after := by
    have hreturn : rest ++ '\r' :: after = rest ++ ['\r'] ++ after := by simp
    rw [List.append_assoc, Text.trim_blanks_append hbefore, List.cons_append, Text.trim_cons hc,
      hreturn, Text.trimEnd_append hend]
    simp
  rw [htrim] at hs ⊢
  obtain ⟨d, hd, hplain⟩ := Text.exists_of_trimEnd_ne_nil hend
  have hcut := Json.readWithin_of_append_return hs ⟨d, hd, isSpace_eq_of_isAsciiBlank hplain⟩
  refine ⟨by simp, ?_⟩
  obtain hspaces | hrefused := isSpace_or_readWithin_eq depth hbefore (c :: rest)
  · rw [Json.readWithin_spaces_append hspaces, hcut]
  · exact hrefused

/-- The parts of a line that holds an event are read as the event if its text is left whole. -/
theorem readLines_of_object
    (hs : Json.readWithin depth (Text.trim isAsciiBlank u) = .ok (.object event)) :
    (IsWholeText u → Trail.readLines depth (Text.splitOn '\r' u) = .ok [.object event]) ∧
    (¬ IsWholeText u →
      Trail.readLines depth (Text.splitOn '\r' u) = .error (.line .notJson)) := by
  obtain ⟨blanks, x, more, hsplit, hblanks, hx, htrim⟩ :=
    exists_first_part (Json.ne_nil_of_readWithin hs)
  obtain ⟨before, c, rest, rfl, hbefore, hc⟩ := Text.exists_of_trim_ne_nil hx
  have hskip : Trail.readLines depth (Text.splitOn '\r' u) =
      Trail.readLines depth ((before ++ c :: rest) :: more) := by
    rw [hsplit]
    exact Trail.readLines_blanks_append (fun part hpart =>
      strip_eq_nil_of_trim (hblanks part hpart)) _
  have hstrip (hplain : Text.isBlank c = false) : Text.strip (before ++ c :: rest) ≠ [] :=
    fun hnil => Bool.false_ne_true
      (hplain.symm.trans (Text.trim_eq_nil_iff.mp hnil c (by simp)))
  have hmem : before ++ c :: rest ∈ Text.splitOn '\r' u := by simp [hsplit]
  obtain ⟨hmore, hjoin⟩ | ⟨after, hafter, hjoin⟩ := trim_join_cons (before ++ c :: rest) more
  · have hsame := htrim.trans hjoin
    rw [hsame] at hs
    have hplain : Text.isBlank c = false := by
      rw [Text.trim_blanks_append hbefore, Text.trim_cons hc] at hs
      exact isBlank_eq_of_readWithin hs hc
    obtain ⟨hread, hrefused⟩ := readWithin_part hs
    have hnone : Trail.readLines depth more = .ok [] :=
      Trail.readLines_blanks fun part hpart => strip_eq_nil_of_trim (hmore part hpart)
    have hwhole : IsWholeText u ↔ Text.trim Json.Scan.isSpace (before ++ c :: rest) =
        Text.trim isAsciiBlank (before ++ c :: rest) := by
      refine ⟨fun h => ((h _ hmem).resolve_left hx).trans hsame, fun h part hpart => ?_⟩
      rw [hsplit, List.mem_append, List.mem_cons] at hpart
      rcases hpart with hpart | rfl | hpart
      · exact .inl (hblanks part hpart)
      · exact .inr (h.trans hsame.symm)
      · exact .inl (hmore part hpart)
    rw [hwhole, hskip]
    exact ⟨fun h => Trail.readLines_cons_of_ok (hstrip hplain) (hread h) hnone,
      fun h => Trail.readLines_cons_of_error (hstrip hplain) (hrefused h) more⟩
  · rw [hjoin] at htrim
    rw [htrim] at hs
    obtain ⟨hreturn, hrefused⟩ := readWithin_of_cut hbefore hc hafter hs
    have hplain : Text.isBlank c = false := by
      rw [List.append_assoc, Text.trim_blanks_append hbefore, List.cons_append,
        Text.trim_cons hc] at hs
      exact isBlank_eq_of_readWithin hs hc
    have hcut : ¬ IsWholeText u := by
      intro hwhole
      have hpiece := (hwhole _ hmem).resolve_left hx
      rw [← htrim, ← hpiece] at hreturn
      exact Text.not_mem_of_mem_splitOn hmem (Text.trim_subset _ _ hreturn)
    rw [hskip]
    exact ⟨fun hwhole => absurd hwhole hcut,
      fun _ => Trail.readLines_cons_of_error (hstrip hplain) hrefused more⟩

/-! The lines of a log that verifies. -/

theorem isWholeText_of_blank (h : Text.trim isAsciiBlank u = []) : IsWholeText u :=
  fun part hpart => .inl (trim_eq_nil_iff_parts.mp h part hpart)

theorem readLines_of_blank (h : Text.trim isAsciiBlank u = []) :
    Trail.readLines depth (Text.splitOn '\r' u) = .ok [] :=
  Trail.readLines_blanks fun part hpart =>
    strip_eq_nil_of_trim (trim_eq_nil_iff_parts.mp h part hpart)

theorem isBlank_encode_iff : IsBlank (Utf8.encode u) ↔ Text.trim isAsciiBlank u = [] := by
  rw [IsBlank, Utf8.trim_encode isAscii_blank]
  exact ⟨fun h => Utf8.encode_injective (t := []) h, fun h => h ▸ rfl⟩

theorem holdsValue_encode_iff {v : Json} : HoldsValue depth (Utf8.encode u) v ↔
    Json.readWithin depth (Text.trim isAsciiBlank u) = .ok v := by
  rw [HoldsValue, Utf8.trim_encode isAscii_blank, Utf8.decode_encode]
  simp

/-- A line that goes on with the chain is read as its event, if it is whole. -/
theorem Extends.readLines_eq (h : Extends depth head (Utf8.encode u) next) :
    (IsWholeText u → Trail.readLines depth (Text.splitOn '\r' u) =
      .ok ((lineEvent? depth (Utf8.encode u)).toList.map Json.object)) ∧
    (¬ IsWholeText u →
      Trail.readLines depth (Text.splitOn '\r' u) = .error (.line .notJson)) := by
  cases h with
  | blank h =>
    have hnone : lineEvent? depth (Utf8.encode u) = none := by
      rw [lineEvent?, h]
    have hblank := isBlank_encode_iff.mp h
    rw [hnone, readLines_of_blank hblank]
    exact ⟨fun _ => rfl, fun hcut => absurd (isWholeText_of_blank hblank) hcut⟩
  | event hline h =>
    rw [lineEvent?_of_holdsValue hline]
    exact readLines_of_object (holdsValue_encode_iff.mp hline)

/-- The lines of a chain, cut at carriage returns, are read as its events if all are whole. -/
theorem IsChain.readLines_eq {texts : List (List Char)}
    (h : IsChain depth head (texts.map Utf8.encode) last) :
    ((∀ u ∈ texts, IsWholeText u) →
      Trail.readLines depth (texts.flatMap (Text.splitOn '\r')) =
        .ok (((texts.map Utf8.encode).filterMap (lineEvent? depth)).map Json.object)) ∧
    ((∃ u ∈ texts, ¬ IsWholeText u) →
      Trail.readLines depth (texts.flatMap (Text.splitOn '\r')) = .error (.line .notJson)) := by
  induction texts generalizing head with
  | nil => exact ⟨fun _ => rfl, by simp⟩
  | cons u texts ih =>
    obtain ⟨next, hline, hrest⟩ := h
    obtain ⟨hread, hrefused⟩ := hline.readLines_eq
    obtain ⟨hreadRest, hrefusedRest⟩ := ih hrest
    rw [List.flatMap_cons, Trail.readLines_append, List.map_cons]
    refine ⟨fun hwhole => ?_, fun hcut => ?_⟩
    · obtain ⟨hu, htexts⟩ := List.forall_mem_cons.mp hwhole
      rw [hread hu, hreadRest htexts]
      cases hevent : lineEvent? depth (Utf8.encode u) <;>
        simp [hevent, Except.bind, Functor.map, Except.map]
    · by_cases hu : IsWholeText u
      · obtain ⟨other, hother, hcutOther⟩ := hcut
        have hmem : other ∈ texts :=
          (List.mem_cons.mp hother).resolve_left fun heq => hcutOther (heq ▸ hu)
        rw [hread hu, hrefusedRest ⟨other, hmem, hcutOther⟩]
        rfl
      · rw [hrefused hu]
        rfl

theorem Extends.exists_eq_encode (h : Extends depth head line next) :
    ∃ u, line = Utf8.encode u := by
  have hascii {bytes : Bytes} (h : ∀ b ∈ bytes, isBlankByte b = true) :
      ∃ u, bytes = Utf8.encode u :=
    Utf8.exists_eq_encode fun b hb => isAscii_blank.byte b (h b hb)
  cases h with
  | blank h => exact hascii (Text.trim_eq_nil_iff.mp h)
  | event hline h =>
    obtain ⟨s, hs, -⟩ := hline
    obtain ⟨before, after, heq, hbefore, hafter⟩ := Text.exists_eq_trim isBlankByte line
    obtain ⟨t, rfl⟩ := hascii hbefore
    obtain ⟨u, rfl⟩ := hascii hafter
    refine ⟨t ++ s ++ u, ?_⟩
    rw [heq, Utf8.decode_eq_ok_iff.mp hs, Utf8.encode_append, Utf8.encode_append]

theorem IsChain.exists_eq_map_encode {lines : List Bytes} (h : IsChain depth head lines last) :
    ∃ texts : List (List Char), lines = texts.map Utf8.encode := by
  induction lines generalizing head with
  | nil => exact ⟨[], rfl⟩
  | cons line lines ih =>
    obtain ⟨next, hline, hrest⟩ := h
    obtain ⟨u, rfl⟩ := hline.exists_eq_encode
    obtain ⟨texts, rfl⟩ := ih hrest
    exact ⟨u :: texts, rfl⟩

/-- A log that is a chain is a text, whose lines are those of the log. -/
theorem exists_eq_encode_of_isChain {bytes : Bytes}
    (h : IsChain depth head (Text.splitOn 0x0A bytes) last) : ∃ s, bytes = Utf8.encode s ∧
      Text.splitOn 0x0A bytes = (Text.splitOn '\n' s).map Utf8.encode := by
  obtain ⟨texts, htexts⟩ := h.exists_eq_map_encode
  have hbytes : bytes = Utf8.encode (Text.join ['\n'] texts) := by
    rw [← Text.join_splitOn 0x0A bytes, htexts]
    exact (Utf8.encode_join texts (c := '\n') (by decide)).symm
  exact ⟨_, hbytes, hbytes ▸ Utf8.splitOn_encode _ (c := '\n') (by decide)⟩

namespace Trail

variable {t : Trail}

/-- Of a log that verifies just the events that were checked are read, in their order, as long as
each line is whole. Otherwise nothing is read of it. -/
theorem read_verified (h : t.verifyWithin depth = .ok true) :
    ((∀ line ∈ Text.splitOn 0x0A (t.log.getD []), IsWhole line) →
      t.readWithin depth = .ok ((t.events depth).map Json.object)) ∧
    ((∃ line ∈ Text.splitOn 0x0A (t.log.getD []), ¬ IsWhole line) →
      t.readWithin depth = .error (.line .notJson)) := by
  rw [verifyWithin_eq] at h
  obtain ⟨last, hchain⟩ := verifyFrom_eq_true_iff.mp h
  obtain ⟨s, hlog, hlines⟩ := exists_eq_encode_of_isChain hchain
  have hread : t.readWithin depth =
      readLines depth ((Text.splitOn '\n' s).flatMap (Text.splitOn '\r')) := by
    rw [readWithin_eq, hlog, readLog, Utf8.decode_encode]
    exact readLines_unifyLineEnds depth s
  rw [hlines] at hchain
  obtain ⟨hwhole, hcut⟩ := hchain.readLines_eq
  rw [hread, events, hlines]
  simp only [List.forall_mem_map, isWhole_encode_iff]
  refine ⟨hwhole, ?_⟩
  rintro ⟨line, hline, hbroken⟩
  obtain ⟨u, hu, rfl⟩ := List.mem_map.mp hline
  exact hcut ⟨u, hu, mt (isWhole_encode_iff u).mpr hbroken⟩

section Sample

def sampleText : List Char :=
  "\x7b\"hash\":\"".toList ++
    "4d6f4c1284c54019042a37a7330dea921744596fb0be73ebb18f1e203900fa29".toList ++
    "\",\"prev_hash\":\"".toList ++ List.replicate 64 '0' ++ "\",\"result\":\"denied\"\x7d".toList

def sampleLine (before after : String) : List Char := before.toList ++ sampleText ++ after.toList

def ofLine (line : List Char) : Trail := { empty with log := some (Utf8.encode (line ++ ['\n'])) }

theorem splitOn_ofLine (h : '\n' ∉ u) :
    Text.splitOn 0x0A ((ofLine u).log.getD []) = [u, []].map Utf8.encode := by
  have hsplit := Utf8.splitOn_encode (u ++ ['\n']) (c := '\n') (by decide)
  rwa [Text.splitOn_append_cons h] at hsplit

theorem lineText_sample : lineText (chained genesis
    "4d6f4c1284c54019042a37a7330dea921744596fb0be73ebb18f1e203900fa29" sampleEvents[0]) =
      sampleText := by
  decide +kernel

/-- Blanks around the line do not matter to the check. -/
theorem verify_sampleLine {before after : String}
    (hbefore : before.toList.all isAsciiBlank = true)
    (hafter : after.toList.all isAsciiBlank = true) (hline : '\n' ∉ sampleLine before after) :
    (ofLine (sampleLine before after)).verify = .ok true := by
  have hevent : (Json.object sampleEvents[0]).IsWellFormed :=
    (isData_sampleEvents _ (List.getElem_mem _)).isWritable.isWellFormed
  have htrim : Text.trim isBlankByte (Utf8.encode (sampleLine before after)) =
      Text.trim isBlankByte (Utf8.encode sampleText) := by
    rw [Utf8.trim_encode isAscii_blank, Utf8.trim_encode isAscii_blank, sampleLine,
      Text.trim_append_blanks (List.all_eq_true.mp hafter),
      Text.trim_blanks_append (List.all_eq_true.mp hbefore)]
  have hverify := verifyFrom_cons hevent digest_sampleEvents.1 [[]]
  rw [lineText_sample, verifyFrom, ← htrim, ← verifyFrom] at hverify
  rw [verify, verifyWithin_eq, splitOn_ofLine hline]
  exact hverify

theorem isWholeText_sampleLine :
    (IsWholeText (sampleLine "\x0c\r " "\t\r") ∧ '\n' ∉ sampleLine "\x0c\r " "\t\r") ∧
      ¬ IsWholeText (sampleLine "\x0b" "") ∧ '\n' ∉ sampleLine "\x0b" "" := by
  unfold IsWholeText
  decide +kernel

/-- With blanks of JSON around it, in a part of its line, the event is read; with another blank
before it nothing is read. -/
theorem read_verified_sampleLine :
    (ofLine (sampleLine "\x0c\r " "\t\r")).read =
        .ok (((ofLine (sampleLine "\x0c\r " "\t\r")).events Json.maxDepth).map Json.object) ∧
      (ofLine (sampleLine "\x0b" "")).read = .error (.line .notJson) := by
  obtain ⟨⟨hwhole, hline⟩, hcut, hline'⟩ := isWholeText_sampleLine
  constructor
  · refine (read_verified (verify_sampleLine (by decide) (by decide) hline)).1 ?_
    rw [splitOn_ofLine hline, List.forall_mem_map]
    simp only [isWhole_encode_iff, List.forall_mem_cons]
    exact ⟨hwhole, isWholeText_of_blank rfl, List.forall_mem_nil _⟩
  · refine (read_verified (verify_sampleLine (by decide) (by decide) hline')).2 ?_
    rw [splitOn_ofLine hline']
    exact ⟨_, List.mem_map_of_mem List.mem_cons_self, mt (isWhole_encode_iff _).mp hcut⟩

/-- A log that verifies is not read if a vertical tab stands before its only event. -/
theorem not_forall_read_eq_events : ¬ ∀ t : Trail, t.verify = .ok true →
    t.read = .ok ((t.events Json.maxDepth).map Json.object) := by
  intro h
  have hread := h (ofLine (sampleLine "\x0b" ""))
    (verify_sampleLine (by decide) (by decide) isWholeText_sampleLine.2.2)
  have hrefused : (ofLine (sampleLine "\x0b" "")).read.isOk = false := by decide +kernel
  rw [hread] at hrefused
  cases hrefused

end Sample

end Trail

end Sqrl.Audit
