import Sqrl.Form
import Sqrl.Proofs.Protocol
import Sqrl.Proofs.Request

/-! The size of what is read from form data. No part of it is much longer than the body, so whatever
body fits a memory, its request can be recorded. -/
namespace Sqrl

namespace Utf8

theorem length_start (b : UInt8) : (start b).1.length + (start b).2.isSome.toNat = 1 := by
  rw [start]
  split
  · rfl
  · cases lead? b.toNat <;> rfl

/-- A byte adds one piece, if not at once, then with the character that it begins. -/
theorem length_step_le (pending : Pending) (b : UInt8) :
    (step pending b).1.length + (step pending b).2.isSome.toNat ≤ pending.isSome.toNat + 1 := by
  have hstart := length_start b
  cases pending with
  | none => exact hstart.le.trans (Nat.le_add_left 1 _)
  | some begun =>
    obtain ⟨run, lead⟩ := begun
    rw [step]
    split
    · dsimp only
      split <;> simp
    · simp only [List.length_cons, Option.isSome_some, Bool.toNat_true]
      omega

theorem length_readFrom_le (pending : Pending) (b : Bytes) :
    (readFrom pending b).length ≤ pending.isSome.toNat + b.length := by
  induction b generalizing pending with
  | nil => cases pending <;> simp [readFrom]
  | cons byte b ih =>
    have hstep := length_step_le pending byte
    have hrest := ih (step pending byte).2
    have hread : step pending byte = ((step pending byte).1, (step pending byte).2) := rfl
    rw [readFrom_of_step hread, List.length_append, List.length_cons]
    omega

theorem length_decodeReplacing_le (b : Bytes) : (decodeReplacing b).length ≤ b.length := by
  rw [decodeReplacing, List.length_map]
  exact (length_readFrom_le none b).trans (Nat.zero_add _).le

theorem length_encodeChar_le (c : Char) : (encodeChar c).length ≤ 4 := by
  simp only [encodeChar]
  split_ifs <;> simp

theorem length_encode_le (s : List Char) : (encode s).length ≤ 4 * s.length := by
  induction s with
  | nil => rfl
  | cons c s ih =>
    have hc := length_encodeChar_le c
    have hencode : encode (c :: s) = encodeChar c ++ encode s := List.flatMap_cons
    rw [hencode, List.length_append, List.length_cons]
    omega

end Utf8

namespace Form

theorem length_unescapeBytes_le (s : List Char) : (unescapeBytes s).length ≤ 4 * s.length := by
  induction s using unescapeBytes.induct with
  | case1 a b rest high low hlow hhigh ih =>
    rw [unescapeBytes, hhigh, hlow]
    simp only [List.length_cons]
    omega
  | case2 a b rest h ih =>
    have hpercent := Utf8.length_encodeChar_le '%'
    rw [unescapeBytes]
    split
    · next high low hhigh hlow => exact (h high low hhigh hlow).elim
    · rw [List.length_append, List.length_cons]
      omega
  | case3 c rest h ih =>
    have hc := Utf8.length_encodeChar_le c
    rw [unescapeBytes, List.length_append, List.length_cons]
    · omega
    · exact h
  | case4 => rfl

theorem length_readPart_le (s : List Char) : (readPart s).toList.length ≤ 4 * s.length := by
  rw [readPart, String.toList_ofList, unescape]
  refine (Utf8.length_decodeReplacing_le _).trans ?_
  simpa using length_unescapeBytes_le (s.map fun c => if c = '+' then ' ' else c)

theorem length_readPair_le (s : List Char) : (readPair s).2.toList.length ≤ 4 * s.length := by
  rw [readPair]
  split
  · next name value hcut =>
    have hlength := Text.length_of_cut? hcut
    have hpart := length_readPart_le value
    dsimp only
    omega
  · simp

theorem length_value_le {body : Bytes} {e : String × String} (h : e ∈ readBody body) :
    e.2.toList.length ≤ 4 * body.length := by
  obtain ⟨piece, hpiece, rfl⟩ := List.mem_map.mp (Dictionary.mem_of_mem_ofEntries h)
  have hpair := length_readPair_le piece
  have hsplit := Text.length_le_of_mem_splitOn (List.mem_of_mem_filter hpiece)
  have hdecoded := Utf8.length_decodeReplacing_le body
  omega

end Form

/-- The request of a body that fits a memory with addresses of 64 bits can be recorded. -/
theorem Request.isRecordable_of_readBody {body : Bytes} {request : Request}
    (hbody : body.length < 2 ^ 63)
    (h : ofParams ((Form.readBody body).map fun (name, value) => (name, some value)) =
      .ok request) : request.IsRecordable := by
  have hvalue {name value : String} (hparameter : parameter
      ((Form.readBody body).map fun (name, value) => (name, some value)) name = .ok value) :
      value.toList.length ≤ 4 * body.length := by
    obtain ⟨e, he, heq⟩ := List.mem_map.mp (mem_of_parameter hparameter)
    cases heq
    exact Form.length_value_le he
  obtain ⟨hclient, hserver, hids, -⟩ := exists_of_ofParams h
  have hclient := hvalue hclient
  have hserver := hvalue hserver
  have hids := hvalue hids
  constructor
  · have hmessage : request.signedMessage.length ≤
        4 * (request.client.toList.length + request.server.toList.length) := by
      simpa [signedMessage] using Utf8.length_encode_le (request.client ++ request.server).toList
    exact Number.lt_pow_maxDigits (by omega)
  · have hencode := Utf8.length_encode_le request.ids.toList
    exact Number.lt_pow_maxDigits (by omega)

end Sqrl
