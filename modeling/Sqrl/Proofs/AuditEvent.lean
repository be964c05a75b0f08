import Sqrl.Proofs.AuditChain
import Sqrl.Proofs.Protocol

/-! The fields of an event of a server, as they stand in the log. Of two fields with one name the
later one counts, so that no text of a client can take the place of a decision; the fields of the
chain and the order of the members change no other field. -/
namespace Sqrl

namespace Json

theorem IsPlain.sorted_eq {v : Json} (h : v.IsPlain) : v.sorted = v := by
  cases v with
  | array items => exact h.elim
  | object members => exact h.elim
  | null => rfl
  | bool b => rfl
  | number n => rfl
  | string s => rfl

theorem get?_sortedMembers {members : List (List CodePoint × Json)}
    (hkeys : (members.map Prod.fst).Nodup) (key : List CodePoint) :
    Dictionary.get? (sortedMembers members) key = (Dictionary.get? members key).map sorted := by
  refine Option.ext fun v => ?_
  constructor
  · intro h
    obtain ⟨⟨k, w⟩, hmem, heq⟩ := mem_sortedMembers.mp (Dictionary.mem_of_get? h)
    obtain ⟨rfl, rfl⟩ := Prod.mk.inj heq
    rw [Dictionary.get?_of_mem hkeys hmem, Option.map_some]
  · intro h
    obtain ⟨w, hw, rfl⟩ := Option.map_eq_some_iff.mp h
    exact Dictionary.get?_of_mem (nodup_sortedMembers hkeys)
      (mem_sortedMembers.mpr ⟨_, Dictionary.mem_of_get? hw, rfl⟩)

end Json

namespace Audit

variable {event : Event} {name key : String} {entries later : List (String × Json)}

def field? (event : Event) (name : String) : Option Json :=
  Dictionary.get? event (CodePoint.ofString name)

/-- A text as the value of a field that is left out where it would be empty. -/
def filled (s : String) : Option Json := if s = "" then none else some (.text s)

/-- An event in the log holds the fields with which it was appended. -/
theorem field?_read (head hash : String) (hplain : Json.ArePlain event)
    (hprevious : name ≠ "prev_hash") (hhash : name ≠ "hash") :
    field? (Json.sortedMembers (chained head hash event)) name = field? event name := by
  have hne : previousField ≠ CodePoint.ofString name :=
    fun h => hprevious (CodePoint.ofString_injective h).symm
  have hne' : hashField ≠ CodePoint.ofString name :=
    fun h => hhash (CodePoint.ofString_injective h).symm
  have hsame : Dictionary.get? (chained head hash event) (CodePoint.ofString name) =
      field? event name := by
    rw [chained, Dictionary.get?_put, if_neg hne', Dictionary.get?_put, if_neg hne, bare,
      Dictionary.get?_erase_of_ne hne', Dictionary.get?_erase_of_ne hne, field?]
  rw [field?, Json.get?_sortedMembers (isData_chained head hash hplain.isData).1, hsame]
  cases hvalue : field? event name with
  | none => rfl
  | some v =>
    rw [Option.map_some, (hplain.2 _ (Dictionary.mem_of_get? hvalue)).2.sorted_eq]

/-- The value of a name in a list of entries: of those with one name the last counts. -/
def last? (entries : List (String × Json)) (name : String) : Option Json :=
  Dictionary.get? entries.reverse name

@[simp] theorem last?_nil : last? [] name = none := rfl

@[simp] theorem last?_append :
    last? (entries ++ later) name = (last? later name).or (last? entries name) := by
  rw [last?, List.reverse_append, Dictionary.get?, List.lookup_append]
  rfl

@[simp] theorem last?_cons {e : String × Json} :
    last? (e :: entries) name =
      (last? entries name).or (if e.1 = name then some e.2 else none) := by
  have hsingle : last? [e] name = if e.1 = name then some e.2 else none := Dictionary.get?_cons ..
  rw [← List.singleton_append, last?_append, hsingle]

@[simp] theorem last?_given {value : Option String} :
    last? (given name value) key = if name = key then value.bind filled else none := by
  cases value with
  | none => simp [given]
  | some s =>
    by_cases hs : s = ""
    · simp [given, filled, hs]
    · simp [given, filled, hs]

theorem last?_digested {value : Option Bytes} (hlength : name ++ "_len" ≠ key)
    (hdigest : name ++ "_sha3_256" ≠ key) : last? (digested name value) key = none := by
  cases value with
  | none => rfl
  | some bytes => simp [digested, hlength, hdigest]

/-- What is known of a request comes into its event field by field, empty texts left out. -/
theorem Common.last?_fields (c : Common) (now : Number) :
    last? (c.fields now) "nut" = c.nut.bind filled ∧
      last? (c.fields now) "response_nut" = c.responseNut.bind filled ∧
      last? (c.fields now) "idk" = c.identityKey.bind filled ∧
      last? (c.fields now) "cmd" = (c.command.map (shortened commandLength)).bind filled := by
  -- A name with an ending is none of the four.
  have hdigested {name : String} (hname : name ∈ ["message", "signature"]) (value : Option Bytes)
      {key : String} (hkey : key ∈ ["nut", "response_nut", "idk", "cmd"]) :
      last? (digested name value) key = none := by
    have hall : ∀ name ∈ ["message", "signature"], ∀ key ∈ ["nut", "response_nut", "idk", "cmd"],
        name ++ "_len" ≠ key ∧ name ++ "_sha3_256" ≠ key := by
      decide
    exact last?_digested (hall name hname key hkey).1 (hall name hname key hkey).2
  simp [fields, time, hdigested]

end Audit

namespace Server

open Audit

variable (server : Server) {time : Number} {decision : Decision} {reason : Reason}
  {fields : List (String × Json)} {name : String}

theorem get?_map_ofString (entries : List (String × Json)) (name : String) :
    Dictionary.get? (entries.map fun (name, value) => (CodePoint.ofString name, value))
      (CodePoint.ofString name) = Dictionary.get? entries name := by
  induction entries with
  | nil => rfl
  | cons e entries ih =>
    rw [List.map_cons, Dictionary.get?_cons, Dictionary.get?_cons, ih]
    congr 1
    exact propext ⟨CodePoint.ofString_injective, congrArg CodePoint.ofString⟩

theorem field?_event : field? (server.event time decision reason fields) name =
    last? ([Audit.time time] ++ fields ++ [("result", .text decision.word),
      ("reason", .text reason.word), ("v", .text server.settings.version)]) name := by
  rw [field?, event, Dictionary.get?_ofEntries, ← List.map_reverse, get?_map_ofString, last?]

/-- Decision and reason are those of the server, whatever else the event holds. -/
theorem field?_event_decision :
    field? (server.event time decision reason fields) "result" = some (.text decision.word) ∧
      field? (server.event time decision reason fields) "reason" = some (.text reason.word) := by
  simp [field?_event]

/-- Every other field is the last of its name. -/
theorem field?_event_of_not_mem (h : name ∉ ["ts", "result", "reason", "v"]) :
    field? (server.event time decision reason fields) name = last? fields name := by
  simp only [List.mem_cons, List.not_mem_nil, or_false, not_or] at h
  obtain ⟨htime, hresult, hreason, hversion⟩ := h
  simp [field?_event, Audit.time, Ne.symm htime, Ne.symm hresult, Ne.symm hreason,
    Ne.symm hversion]

end Server

end Sqrl
