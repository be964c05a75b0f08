import Sqrl.Proofs.Base64
import Sqrl.Proofs.Request

/-! The parameters that are read as a request, and what each of its fields is read from. The block
of the client has one field on a line, and of two lines with one name the last counts. -/
namespace Sqrl

namespace ParameterBlock

variable {text name value : List Char} {lines : List (List Char)} {block : ParameterBlock}
  {entry other : List Char × List Char} {entries : List (List Char × List Char)}

def fieldLine (entry : List Char × List Char) : List Char := entry.1 ++ '=' :: entry.2

/-- The lines of a text that are not blank, without the blanks at their ends. -/
def fieldLines (text : List Char) : List (List Char) :=
  ((Text.splitCrLf text).map Text.strip).filter fun line => line ≠ []

def Gives (text name value : List Char) : Prop :=
  ∃ before after, fieldLines text = before ++ fieldLine (name, value) :: after ∧
    ∀ line ∈ after, ∀ other, line ≠ fieldLine (name, other)

theorem parseLine_eq_ok_iff {line : List Char} :
    parseLine line = .ok entry ↔ line = fieldLine entry ∧ '=' ∉ entry.1 := by
  rw [fieldLine, ← Text.cut?_eq_some_iff, parseLine]
  cases Text.cut? '=' line <;> simp

theorem fieldLine_inj (hentry : '=' ∉ entry.1) (hother : '=' ∉ other.1) :
    fieldLine entry = fieldLine other ↔ entry = other := by
  refine ⟨fun h => ?_, congrArg fieldLine⟩
  have hcut := congrArg (Text.cut? '=') h
  rw [fieldLine, fieldLine, Text.cut?_append_cons hentry, Text.cut?_append_cons hother] at hcut
  exact Option.some.inj hcut

theorem mapM_parseLine_eq_ok_iff : lines.mapM parseLine = .ok entries ↔
    lines = entries.map fieldLine ∧ ∀ entry ∈ entries, '=' ∉ entry.1 := by
  induction lines generalizing entries with
  | nil =>
    cases entries with
    | nil => simp [pure, Except.pure]
    | cons entry entries => simp [pure, Except.pure]
  | cons line lines ih =>
    rw [List.mapM_cons]
    constructor
    · intro h
      obtain ⟨entry, hline, h⟩ := Request.exists_of_bind_ok h
      obtain ⟨rest, hlines, h⟩ := Request.exists_of_bind_ok h
      obtain rfl := Except.ok.inj h
      obtain ⟨rfl, hentry⟩ := parseLine_eq_ok_iff.mp hline
      obtain ⟨rfl, hrest⟩ := ih.mp hlines
      exact ⟨rfl, List.forall_mem_cons.mpr ⟨hentry, hrest⟩⟩
    · rintro ⟨hlines, hentries⟩
      obtain ⟨entry, rest, rfl, rfl, rfl⟩ := List.map_eq_cons_iff.mp hlines.symm
      obtain ⟨hentry, hrest⟩ := List.forall_mem_cons.mp hentries
      rw [parseLine_eq_ok_iff.mpr ⟨rfl, hentry⟩, ih.mpr ⟨rfl, hrest⟩]
      rfl

theorem parse_eq_ok_iff : parse text = .ok block ↔ ∃ entries,
    fieldLines text = entries.map fieldLine ∧ (∀ entry ∈ entries, '=' ∉ entry.1) ∧
      Dictionary.ofEntries entries = block := by
  constructor
  · intro h
    obtain ⟨entries, hlines, h⟩ := Request.exists_of_bind_ok h
    obtain ⟨hentries, hnames⟩ := mapM_parseLine_eq_ok_iff.mp hlines
    exact ⟨entries, hentries, hnames, Except.ok.inj h⟩
  · rintro ⟨entries, hentries, hnames, rfl⟩
    have hlines := mapM_parseLine_eq_ok_iff.mpr ⟨hentries, hnames⟩
    rw [fieldLines] at hlines
    rw [parse, hlines]
    rfl

theorem exists_map_fieldLine (h : ∀ line ∈ lines, '=' ∈ line) :
    ∃ entries : List (List Char × List Char),
      lines = entries.map fieldLine ∧ ∀ entry ∈ entries, '=' ∉ entry.1 := by
  induction lines with
  | nil => exact ⟨[], rfl, by simp⟩
  | cons line lines ih =>
    obtain ⟨hline, hlines⟩ := List.forall_mem_cons.mp h
    obtain ⟨entry, hcut⟩ :=
      Option.ne_none_iff_exists'.mp (mt Text.cut?_eq_none_iff.mp (not_not.mpr hline))
    obtain ⟨heq, hname⟩ := Text.cut?_eq_some_iff.mp hcut
    obtain ⟨entries, rfl, hnames⟩ := ih hlines
    exact ⟨entry :: entries, by rw [heq]; rfl, List.forall_mem_cons.mpr ⟨hname, hnames⟩⟩

/-- A block is read if each of its lines names a value. -/
theorem exists_parse_iff : (∃ block, parse text = .ok block) ↔
    ∀ line ∈ fieldLines text, '=' ∈ line := by
  simp only [parse_eq_ok_iff]
  constructor
  · rintro ⟨block, entries, hentries, -, -⟩
    rw [hentries, List.forall_mem_map]
    exact fun entry _ => by simp [fieldLine]
  · intro h
    obtain ⟨entries, hlines, hnames⟩ := exists_map_fieldLine h
    exact ⟨_, entries, hlines, hnames, rfl⟩

/-- A block gives a name the value of its last line. -/
theorem get?_eq_some_iff_gives (h : parse text = .ok block) (hname : '=' ∉ name) :
    block.get? name = some value ↔ Gives text name value := by
  obtain ⟨entries, hentries, hnames, rfl⟩ := parse_eq_ok_iff.mp h
  rw [Dictionary.get?_ofEntries_eq_some_iff]
  constructor
  · rintro ⟨before, after, rfl, hlast⟩
    refine ⟨before.map fieldLine, after.map fieldLine, by simp [hentries], ?_⟩
    rw [List.forall_mem_map]
    intro entry hentry other heq
    obtain rfl := (fieldLine_inj (hnames entry (by simp [hentry])) hname).mp heq
    exact hlast (List.mem_map_of_mem hentry)
  · rintro ⟨before, after, hlines, hlast⟩
    rw [hentries] at hlines
    obtain ⟨first, rest, rfl, rfl, hrest⟩ := List.map_eq_append_iff.mp hlines
    obtain ⟨entry, last, rfl, hentry, rfl⟩ := List.map_eq_cons_iff.mp hrest
    obtain rfl := (fieldLine_inj (hnames entry (by simp)) hname).mp hentry
    refine ⟨first, last, rfl, fun hmem => ?_⟩
    obtain ⟨other, hother, hkey⟩ := List.mem_map.mp hmem
    exact hlast _ (List.mem_map_of_mem hother) other.2 (by rw [← hkey])

theorem fieldLines_join
    (h : ∀ line ∈ lines, Text.IsOneLine line ∧ Text.strip line = line ∧ line ≠ []) :
    fieldLines (Text.join ['\r', '\n'] lines) = lines := by
  by_cases hne : lines = []
  · subst hne
    decide
  · have hstrip : lines.map Text.strip = lines :=
      (List.map_congr_left fun line hline => (h line hline).2.1).trans (List.map_id lines)
    rw [fieldLines, Text.splitCrLf_join hne fun line hline => (h line hline).1, hstrip,
      List.filter_eq_self]
    exact fun line hline => by simpa using (h line hline).2.2

theorem given?_eq_some_iff {name : String} :
    block.given? name = some value ↔ block.get? name.toList = some value ∧ value ≠ [] := by
  rw [given?, Option.filter_eq_some_iff]
  simp

end ParameterBlock

namespace Request

open ParameterBlock

variable {params : Dictionary String (Option String)} {request : Request}
  {client server ids name value text : String} {block : ParameterBlock}

/-- Is this what a parameter says that is not empty? -/
def HasParameter (params : Dictionary String (Option String)) (name value : String) : Prop :=
  params.get? name = some (some value) ∧ value ≠ ""

theorem parameter_eq_ok_iff :
    parameter params name = .ok value ↔ HasParameter params name value := by
  rw [HasParameter, parameter]
  cases h : (params.get? name).join.filter fun v => v ≠ "" with
  | none =>
    refine iff_of_false (by simp) ?_
    rintro ⟨hvalue, hne⟩
    simp [hvalue, hne] at h
  | some found =>
    rw [Option.filter_eq_some_iff, Option.join_eq_some_iff] at h
    obtain ⟨hfound, hne⟩ := h
    simp only [hfound, Except.ok.injEq, Option.some.injEq]
    exact ⟨fun heq => ⟨heq, heq ▸ by simpa using hne⟩, fun heq => heq.1⟩

/-- Is this what the last line with the name says, and not empty? -/
def IsGiven (text name value : String) : Prop :=
  Gives text.toList name.toList value.toList ∧ value ≠ ""

/-- Are these the words of the last line of options? -/
def AreOptions (text : String) (words : List String) : Prop :=
  (∃ value, Gives text.toList "opt".toList value ∧
    words.map String.toList = (Text.splitOn '~' value).filter fun word => word ≠ []) ∨
  (¬ ∃ value, Gives text.toList "opt".toList value) ∧ words = []

/-- Do the parameters hold all that a request needs, with the text in the block of the client? -/
structure IsWellFormed (params : Dictionary String (Option String)) (text : String) : Prop where
  client : ∃ client, HasParameter params "client" client ∧
    Base64.Url.decode client = .ok (Utf8.encode text.toList)
  server : ∃ server, HasParameter params "server" server
  ids : ∃ ids, HasParameter params "ids" ids
  named : ∀ line ∈ fieldLines text.toList, '=' ∈ line
  ver : ∃ value, IsGiven text "ver" value
  cmd : ∃ value, IsGiven text "cmd" value
  idk : ∃ value, IsGiven text "idk" value

/-- Is a request what the parameters say, with the text in the block of the client? -/
structure IsReading (params : Dictionary String (Option String)) (text : String)
    (request : Request) : Prop where
  client : HasParameter params "client" request.client
  server : HasParameter params "server" request.server
  ids : HasParameter params "ids" request.ids
  block : Base64.Url.decode request.client = .ok (Utf8.encode text.toList)
  named : ∀ line ∈ fieldLines text.toList, '=' ∈ line
  ver : IsGiven text "ver" request.ver
  cmd : IsGiven text "cmd" request.cmd
  idk : IsGiven text "idk" request.idk
  pidk : ∀ value, request.pidk = some value ↔ IsGiven text "pidk" value
  suk : ∀ value, request.suk = some value ↔ IsGiven text "suk" value
  vuk : ∀ value, request.vuk = some value ↔ IsGiven text "vuk" value
  opt : AreOptions text request.opt

theorem readBlock_eq_ok_iff : readBlock client = .ok block ↔ ∃ text : String,
    Base64.Url.decode client = .ok (Utf8.encode text.toList) ∧ parse text.toList = .ok block := by
  simp only [← Base64.Url.decodeText_eq_ok_iff]
  rw [readBlock]
  cases htext : Base64.Url.decodeText client with
  | error fault => simp [Except.mapError, bind, Except.bind]
  | ok text =>
    simp only [Except.mapError, bind, Except.bind, Except.ok.injEq, exists_eq_left']
    cases parse text.toList <;> simp

theorem field_eq_ok_iff : field block name = .ok value ↔
    block.get? name.toList = some value.toList ∧ value ≠ "" := by
  have hgiven : block.given? name = some value.toList ↔ _ := given?_eq_some_iff
  have hempty : value.toList ≠ [] ↔ value ≠ "" := by simp
  rw [← hempty, ← hgiven, field]
  cases block.given? name with
  | none => simp
  | some found => simp [← String.toList_inj]

theorem optional_eq_some_iff : (block.given? name).map String.ofList = some value ↔
    block.get? name.toList = some value.toList ∧ value ≠ "" := by
  rw [← field_eq_ok_iff, field]
  cases block.given? name <;> simp

def optionWords (block : ParameterBlock) : List String :=
  ((Text.splitOn '~' ((block.get? "opt".toList).getD [])).filter fun w => w ≠ []).map String.ofList

theorem ofBlock_eq_ok_iff : ofBlock client server ids block = .ok request ↔
    request.client = client ∧ request.server = server ∧ request.ids = ids ∧
      field block "ver" = .ok request.ver ∧ field block "cmd" = .ok request.cmd ∧
      field block "idk" = .ok request.idk ∧
      request.pidk = (block.given? "pidk").map String.ofList ∧
      request.suk = (block.given? "suk").map String.ofList ∧
      request.vuk = (block.given? "vuk").map String.ofList ∧ request.opt = optionWords block := by
  constructor
  · intro h
    obtain ⟨ver, hver, h⟩ := exists_of_bind_ok h
    obtain ⟨cmd, hcmd, h⟩ := exists_of_bind_ok h
    obtain ⟨idk, hidk, h⟩ := exists_of_bind_ok h
    rw [← Except.ok.inj h]
    exact ⟨rfl, rfl, rfl, hver, hcmd, hidk, rfl, rfl, rfl, rfl⟩
  · rintro ⟨rfl, rfl, rfl, hver, hcmd, hidk, hpidk, hsuk, hvuk, hopt⟩
    rw [ofBlock, hver, hcmd, hidk]
    simp only [bind, Except.bind, pure, Except.pure, ← hpidk, ← hsuk, ← hvuk]
    rw [optionWords] at hopt
    rw [← hopt]

section Block

variable (h : parse text.toList = .ok block)

include h

theorem isGiven_iff_field (hname : '=' ∉ name.toList) :
    IsGiven text name value ↔ field block name = .ok value := by
  rw [IsGiven, field_eq_ok_iff, get?_eq_some_iff_gives h hname]

theorem isGiven_iff_optional (hname : '=' ∉ name.toList) :
    IsGiven text name value ↔ (block.given? name).map String.ofList = some value := by
  rw [IsGiven, optional_eq_some_iff, get?_eq_some_iff_gives h hname]

theorem areOptions_iff {words : List String} :
    AreOptions text words ↔ words = optionWords block := by
  have hwords (pieces : List (List Char)) :
      words.map String.toList = pieces ↔ words = pieces.map String.ofList := by
    constructor
    · rintro rfl
      simp
    · rintro rfl
      simp
  simp only [AreOptions, ← get?_eq_some_iff_gives h (by decide : '=' ∉ "opt".toList), hwords]
  rw [optionWords]
  cases block.get? "opt".toList with
  | none => simp [Text.splitOn]
  | some value => simp

theorem isReading_iff : IsReading params text request ↔
    HasParameter params "client" request.client ∧ HasParameter params "server" request.server ∧
      HasParameter params "ids" request.ids ∧
      Base64.Url.decode request.client = .ok (Utf8.encode text.toList) ∧
      ofBlock request.client request.server request.ids block = .ok request := by
  have hnamed : ∀ line ∈ fieldLines text.toList, '=' ∈ line := exists_parse_iff.mp ⟨block, h⟩
  have hfield (name value : String) (hname : '=' ∉ name.toList) :
      IsGiven text name value ↔ field block name = .ok value :=
    isGiven_iff_field h hname
  have hoptional (given : Option String) (name : String) (hname : '=' ∉ name.toList) :
      (∀ value, given = some value ↔ IsGiven text name value) ↔
        given = (block.given? name).map String.ofList := by
    simp only [isGiven_iff_optional h hname]
    exact Option.ext_iff.symm
  rw [ofBlock_eq_ok_iff, ← hfield _ _ (by decide : '=' ∉ "ver".toList),
    ← hfield _ _ (by decide : '=' ∉ "cmd".toList), ← hfield _ _ (by decide : '=' ∉ "idk".toList),
    ← hoptional _ _ (by decide : '=' ∉ "pidk".toList),
    ← hoptional _ _ (by decide : '=' ∉ "suk".toList),
    ← hoptional _ _ (by decide : '=' ∉ "vuk".toList), ← areOptions_iff h]
  constructor
  · rintro ⟨hclient, hserver, hids, htext, -, hver, hcmd, hidk, hpidk, hsuk, hvuk, hopt⟩
    exact ⟨hclient, hserver, hids, htext, rfl, rfl, rfl, hver, hcmd, hidk, hpidk, hsuk, hvuk, hopt⟩
  · rintro ⟨hclient, hserver, hids, htext, -, -, -, hver, hcmd, hidk, hpidk, hsuk, hvuk, hopt⟩
    exact ⟨hclient, hserver, hids, htext, hnamed, hver, hcmd, hidk, hpidk, hsuk, hvuk, hopt⟩

end Block

theorem ofParams_eq_ok_iff :
    ofParams params = .ok request ↔ ∃ text, IsReading params text request := by
  constructor
  · intro h
    obtain ⟨hclient, hserver, hids, block, hblock, hread⟩ := exists_of_ofParams h
    rw [parameter_eq_ok_iff] at hclient hserver hids
    obtain ⟨text, htext, hparse⟩ := readBlock_eq_ok_iff.mp hblock
    exact ⟨text, (isReading_iff hparse).mpr ⟨hclient, hserver, hids, htext, hread⟩⟩
  · rintro ⟨text, hreading⟩
    obtain ⟨block, hparse⟩ := exists_parse_iff.mpr hreading.named
    obtain ⟨hclient, hserver, hids, htext, hread⟩ := (isReading_iff hparse).mp hreading
    rw [← parameter_eq_ok_iff] at hclient hserver hids
    rw [ofParams_eq, hclient, hserver, hids]
    simp only [bind, Except.bind, readBlock_eq_ok_iff.mpr ⟨text, htext, hparse⟩]
    exact hread

theorem exists_ofParams_iff :
    (∃ request, ofParams params = .ok request) ↔ ∃ text, IsWellFormed params text := by
  simp only [ofParams_eq_ok_iff]
  constructor
  · rintro ⟨request, text, h⟩
    exact ⟨text, ⟨_, h.client, h.block⟩, ⟨_, h.server⟩, ⟨_, h.ids⟩, h.named, ⟨_, h.ver⟩, ⟨_, h.cmd⟩,
      ⟨_, h.idk⟩⟩
  · rintro ⟨text, h⟩
    obtain ⟨client, hclient, htext⟩ := h.client
    obtain ⟨server, hserver⟩ := h.server
    obtain ⟨ids, hids⟩ := h.ids
    obtain ⟨ver, hver⟩ := h.ver
    obtain ⟨cmd, hcmd⟩ := h.cmd
    obtain ⟨idk, hidk⟩ := h.idk
    obtain ⟨block, hparse⟩ := exists_parse_iff.mpr h.named
    let request : Request := {
      client, server, ids, ver, cmd, idk
      pidk := (block.given? "pidk").map String.ofList
      suk := (block.given? "suk").map String.ofList
      vuk := (block.given? "vuk").map String.ofList
      opt := optionWords block }
    refine ⟨request, text, (isReading_iff hparse).mpr ⟨hclient, hserver, hids, htext, ?_⟩⟩
    rw [isGiven_iff_field hparse (by decide)] at hver hcmd hidk
    exact ofBlock_eq_ok_iff.mpr ⟨rfl, rfl, rfl, hver, hcmd, hidk, rfl, rfl, rfl, rfl⟩

/-! What is written is read again. -/

structure Fields where
  ver : String
  cmd : String
  idk : String
  pidk : Option String
  suk : Option String
  vuk : Option String
  opt : Option (List String)

namespace Fields

variable {fields : Fields}

def entryOf (name : String) (value : Option (List Char)) : List (List Char × List Char) :=
  value.toList.map fun value => (name.toList, value)

def optText (words : List String) : List Char := Text.join ['~'] (words.map String.toList)

def entries (fields : Fields) : List (List Char × List Char) :=
  ("ver".toList, fields.ver.toList) :: ("cmd".toList, fields.cmd.toList) ::
    ("idk".toList, fields.idk.toList) ::
      (entryOf "pidk" (fields.pidk.map String.toList) ++
        entryOf "suk" (fields.suk.map String.toList) ++
        entryOf "vuk" (fields.vuk.map String.toList) ++ entryOf "opt" (fields.opt.map optText))

/-- Is each value one line without blanks at its ends, and none empty but for the options, whose
words are not empty? -/
structure IsPlain (fields : Fields) : Prop where
  lines : ∀ entry ∈ fields.entries, Text.IsOneLine entry.2 ∧ Text.strip entry.2 = entry.2
  needed : fields.ver ≠ "" ∧ fields.cmd ≠ "" ∧ fields.idk ≠ ""
  given : fields.pidk ≠ some "" ∧ fields.suk ≠ some "" ∧ fields.vuk ≠ some ""
  words : ∀ words ∈ fields.opt, ∀ word ∈ words, word ≠ "" ∧ '~' ∉ word.toList

def blockText (entries : List (List Char × List Char)) : String :=
  String.ofList (Text.join ['\r', '\n'] (entries.map fieldLine))

theorem map_fst_entryOf_sublist (name : String) (value : Option (List Char)) :
    ((entryOf name value).map Prod.fst).Sublist [name.toList] := by
  cases value <;> simp [entryOf]

theorem map_fst_entries_sublist (fields : Fields) : (fields.entries.map Prod.fst).Sublist
    ["ver".toList, "cmd".toList, "idk".toList, "pidk".toList, "suk".toList, "vuk".toList,
      "opt".toList] := by
  simp only [entries, List.map_cons, List.map_append]
  refine .cons_cons _ (.cons_cons _ (.cons_cons _ ?_))
  exact (((map_fst_entryOf_sublist "pidk" _).append (map_fst_entryOf_sublist "suk" _)).append
    (map_fst_entryOf_sublist "vuk" _)).append (map_fst_entryOf_sublist "opt" _)

theorem nodup_entries (fields : Fields) : (fields.entries.map Prod.fst).Nodup :=
  (map_fst_entries_sublist fields).nodup (by decide)

theorem name_of_mem_entries {entry : List Char × List Char} (h : entry ∈ fields.entries) :
    '=' ∉ entry.1 ∧ Text.IsOneLine entry.1 ∧ entry.1.head?.map Text.isBlank = some false := by
  have hmem := (map_fst_entries_sublist fields).subset (List.mem_map_of_mem h)
  have hnames : ∀ name ∈ ["ver".toList, "cmd".toList, "idk".toList, "pidk".toList, "suk".toList,
      "vuk".toList, "opt".toList],
      '=' ∉ name ∧ '\r' ∉ name ∧ name.head?.map Text.isBlank = some false := by
    decide
  obtain ⟨hequals, hreturn, hfirst⟩ := hnames _ hmem
  exact ⟨hequals, Text.isOneLine_of_not_mem hreturn, hfirst⟩

theorem fieldLine_plain {entry : List Char × List Char} (hname : Text.IsOneLine entry.1)
    (hfirst : entry.1.head?.map Text.isBlank = some false) (hvalue : Text.IsOneLine entry.2)
    (hstrip : Text.strip entry.2 = entry.2) :
    Text.IsOneLine (fieldLine entry) ∧ Text.strip (fieldLine entry) = fieldLine entry ∧
      fieldLine entry ≠ [] := by
  obtain ⟨c, hc, hplain⟩ := Option.map_eq_some_iff.mp hfirst
  have hlast := (Text.trim_eq_self_iff.mp hstrip).2
  refine ⟨(Text.isOneLine_append_cons (by decide) (by decide)).mpr ⟨hname, hvalue⟩, ?_, by
    simp [fieldLine]⟩
  refine Text.trim_eq_self_iff.mpr ⟨?_, ?_⟩
  · simpa [fieldLine, hc] using hplain
  · cases hvalue : entry.2 with
    | nil =>
      have hequals : Text.isBlank '=' = false := by decide
      simpa [fieldLine, hvalue] using hequals
    | cons d value => simpa [fieldLine, hvalue] using hlast

theorem parse_blockText {entries : List (List Char × List Char)} (h : entries.Perm fields.entries)
    (hplain : fields.IsPlain) : parse (blockText entries).toList = .ok entries := by
  have hnames : ∀ entry ∈ entries, '=' ∉ entry.1 := fun entry hentry =>
    (name_of_mem_entries (h.mem_iff.mp hentry)).1
  have hlines : fieldLines (blockText entries).toList = entries.map fieldLine := by
    rw [blockText, String.toList_ofList]
    refine fieldLines_join (List.forall_mem_map.mpr fun entry hentry => ?_)
    have hmem := h.mem_iff.mp hentry
    obtain ⟨-, hname, hfirst⟩ := name_of_mem_entries hmem
    obtain ⟨hvalue, hstrip⟩ := hplain.lines entry hmem
    exact fieldLine_plain hname hfirst hvalue hstrip
  have hkeys : (entries.map Prod.fst).Nodup :=
    (h.map Prod.fst).nodup_iff.mpr (nodup_entries fields)
  exact parse_eq_ok_iff.mpr ⟨entries, hlines, hnames, Dictionary.ofEntries_of_nodup hkeys⟩

theorem get?_entryOf (name : String) (value : Option (List Char)) (key : List Char) :
    Dictionary.get? (entryOf name value) key = if name.toList = key then value else none := by
  cases value with
  | none => simp [entryOf, Dictionary.get?]
  | some value =>
    rw [entryOf, Option.toList_some, List.map_singleton, Dictionary.get?_cons]
    rfl

theorem get?_entries (fields : Fields) :
    Dictionary.get? fields.entries "ver".toList = some fields.ver.toList ∧
      Dictionary.get? fields.entries "cmd".toList = some fields.cmd.toList ∧
      Dictionary.get? fields.entries "idk".toList = some fields.idk.toList ∧
      Dictionary.get? fields.entries "pidk".toList = fields.pidk.map String.toList ∧
      Dictionary.get? fields.entries "suk".toList = fields.suk.map String.toList ∧
      Dictionary.get? fields.entries "vuk".toList = fields.vuk.map String.toList ∧
      Dictionary.get? fields.entries "opt".toList = fields.opt.map optText := by
  simp [entries, Dictionary.get?_cons, Dictionary.get?_append, get?_entryOf]

theorem filter_splitOn_optText {words : List String}
    (h : ∀ word ∈ words, word ≠ "" ∧ '~' ∉ word.toList) :
    ((Text.splitOn '~' (optText words)).filter fun w => w ≠ []).map String.ofList = words := by
  by_cases hne : words = []
  · subst hne
    rfl
  · have hpieces : ∀ piece ∈ words.map String.toList, '~' ∉ piece :=
      List.forall_mem_map.mpr fun word hword => (h word hword).2
    rw [optText, Text.splitOn_join (by simpa using hne) hpieces, List.filter_eq_self.mpr]
    · simp
    · exact List.forall_mem_map.mpr fun word hword => by simpa using (h word hword).1

/-- The request of the fields. -/
def toRequest (fields : Fields) (client server ids : String) : Request where
  client := client
  server := server
  ids := ids
  ver := fields.ver
  cmd := fields.cmd
  idk := fields.idk
  pidk := fields.pidk
  suk := fields.suk
  vuk := fields.vuk
  opt := fields.opt.getD []

theorem ofBlock_entries {entries : List (List Char × List Char)} (h : entries.Perm fields.entries)
    (hplain : fields.IsPlain) :
    ofBlock client server ids entries = .ok (fields.toRequest client server ids) := by
  have hget (key : List Char) : Dictionary.get? entries key = Dictionary.get? fields.entries key :=
    (Dictionary.get?_eq_of_perm (nodup_entries fields) h.symm key).symm
  have hfield {name value : String} (hne : value ≠ "")
      (hvalue : Dictionary.get? fields.entries name.toList = some value.toList) :
      field entries name = .ok value := by
    rw [field_eq_ok_iff, hget]
    exact ⟨hvalue, hne⟩
  have hoptional {name : String} {value : Option String} (hne : value ≠ some "")
      (hvalue : Dictionary.get? fields.entries name.toList = value.map String.toList) :
      value = (ParameterBlock.given? entries name).map String.ofList := by
    refine Option.ext fun v => ?_
    rw [optional_eq_some_iff, hget, hvalue]
    cases value with
    | none => simp
    | some found =>
      simp only [Option.map_some, Option.some.injEq, String.toList_inj]
      exact ⟨fun heq => ⟨heq, fun hv => hne (congrArg some (heq.trans hv))⟩, fun heq => heq.1⟩
  obtain ⟨hver, hcmd, hidk, hpidk, hsuk, hvuk, hopt⟩ := get?_entries fields
  obtain ⟨hneedVer, hneedCmd, hneedIdk⟩ := hplain.needed
  obtain ⟨hgivenPidk, hgivenSuk, hgivenVuk⟩ := hplain.given
  have hwords : fields.opt.getD [] = optionWords entries := by
    rw [optionWords, hget, hopt]
    cases hfound : fields.opt with
    | none => rfl
    | some words => exact (filter_splitOn_optText (hplain.words words hfound)).symm
  exact ofBlock_eq_ok_iff.mpr ⟨rfl, rfl, rfl, hfield hneedVer hver, hfield hneedCmd hcmd,
    hfield hneedIdk hidk, hoptional hgivenPidk hpidk, hoptional hgivenSuk hsuk,
    hoptional hgivenVuk hvuk, hwords⟩

theorem ofParams_blockText {entries : List (List Char × List Char)}
    (h : entries.Perm fields.entries) (hplain : fields.IsPlain)
    (hclient : HasParameter params "client" (Base64.Url.encodeText (blockText entries)))
    (hserver : HasParameter params "server" server) (hids : HasParameter params "ids" ids) :
    ofParams params =
      .ok (fields.toRequest (Base64.Url.encodeText (blockText entries)) server ids) := by
  have hblock : readBlock (Base64.Url.encodeText (blockText entries)) = .ok entries :=
    readBlock_eq_ok_iff.mpr ⟨_, Base64.Url.decode_encode _, parse_blockText h hplain⟩
  rw [ofParams_eq, parameter_eq_ok_iff.mpr hclient, parameter_eq_ok_iff.mpr hserver,
    parameter_eq_ok_iff.mpr hids]
  simp only [bind, Except.bind, hblock]
  exact ofBlock_entries h hplain

end Fields

/-- Just the well-formed parameters are read as a request, the others are refused. A request says
what its parameters say, in the last line of each name, and the fields that were written are read
again in any order of their lines. -/
theorem ofParams_exact (params : Dictionary String (Option String)) :
    ((∃ request, ofParams params = .ok request) ↔ ∃ text, IsWellFormed params text) ∧
    ((∃ fault, ofParams params = .error fault) ↔ ¬ ∃ text, IsWellFormed params text) ∧
    (∀ request, ofParams params = .ok request ↔ ∃ text, IsReading params text request) ∧
    (∀ request, ofParams params = .ok request → request.signedMessage =
      Utf8.encode request.client.toList ++ Utf8.encode request.server.toList) ∧
    ∀ (fields : Fields) (entries : List (List Char × List Char)) (server ids : String),
      fields.IsPlain → entries.Perm fields.entries →
      HasParameter params "client" (Base64.Url.encodeText (Fields.blockText entries)) →
      HasParameter params "server" server → HasParameter params "ids" ids →
      ofParams params =
        .ok (fields.toRequest (Base64.Url.encodeText (Fields.blockText entries)) server ids) := by
  refine ⟨exists_ofParams_iff, ?_, fun request => ofParams_eq_ok_iff, fun request _ => ?_, ?_⟩
  · rw [← exists_ofParams_iff]
    cases ofParams params <;> simp
  · rw [signedMessage, String.toList_append, Utf8.encode_append]
  · intro fields entries server ids hplain hentries hclient hserver hids
    exact Fields.ofParams_blockText hentries hplain hclient hserver hids

def sampleFields : Fields where
  ver := "1"
  cmd := "query"
  idk := "a=b"
  pidk := none
  suk := some "c"
  vuk := none
  opt := some ["cps", "suk"]

theorem ofParams_exact_reversed :
    let client := Base64.Url.encodeText (Fields.blockText sampleFields.entries.reverse)
    let params := [("client", some client), ("server", some "qrl"), ("ids", some "d")]
    sampleFields.IsPlain ∧ ofParams params = .ok (sampleFields.toRequest client "qrl" "d") := by
  intro client params
  have hplain : sampleFields.IsPlain := {
    lines := by
      have hblank : ∀ entry ∈ sampleFields.entries,
          '\r' ∉ entry.2 ∧ Text.strip entry.2 = entry.2 := by decide
      exact fun entry hentry =>
        ⟨Text.isOneLine_of_not_mem (hblank entry hentry).1, (hblank entry hentry).2⟩
    needed := by decide
    given := by decide
    words := by decide }
  refine ⟨hplain, (ofParams_exact params).2.2.2.2 sampleFields _ "qrl" "d" hplain
    (List.reverse_perm _) ⟨rfl, ?_⟩ ⟨rfl, by decide⟩ ⟨rfl, by decide⟩⟩
  decide +kernel

end Request

end Sqrl
