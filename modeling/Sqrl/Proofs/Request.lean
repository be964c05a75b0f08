import Sqrl.Proofs.Text
import Sqrl.Request

/-! What a request is read from. Its parameters hold all that it says. -/
namespace Sqrl

namespace Request

variable {params others : Dictionary String (Option String)} {request other : Request}
  {client server ids : String} {block : ParameterBlock}

/-- The request of a block that has been read, with the parameters it came with. -/
def ofBlock (client server ids : String) (block : ParameterBlock) : Except Fault Request := do
  let ver ← field block "ver"
  let cmd ← field block "cmd"
  let idk ← field block "idk"
  let optional (name : String) : Option String := (block.given? name).map String.ofList
  let words := Text.splitOn '~' ((block.get? "opt".toList).getD [])
  return {
    client, server, ids, ver, cmd, idk
    pidk := optional "pidk"
    suk := optional "suk"
    vuk := optional "vuk"
    opt := (words.filter fun w => w ≠ []).map String.ofList }

theorem ofParams_eq (params : Dictionary String (Option String)) :
    ofParams params = (do
      let client ← parameter params "client"
      let server ← parameter params "server"
      let ids ← parameter params "ids"
      ofBlock client server ids (← readBlock client)) := rfl

theorem exists_of_bind_ok {ε α β : Type} {x : Except ε α} {f : α → Except ε β} {b : β}
    (h : x >>= f = .ok b) : ∃ a, x = .ok a ∧ f a = .ok b := by
  cases x with
  | error fault => cases h
  | ok a => exact ⟨a, rfl, h⟩

theorem parameters_of_ofBlock (h : ofBlock client server ids block = .ok request) :
    request.client = client ∧ request.server = server ∧ request.ids = ids := by
  obtain ⟨ver, -, h⟩ := exists_of_bind_ok h
  obtain ⟨cmd, -, h⟩ := exists_of_bind_ok h
  obtain ⟨idk, -, h⟩ := exists_of_bind_ok h
  rw [← Except.ok.inj h]
  exact ⟨rfl, rfl, rfl⟩

/-- A request that is read from parameters holds them, and is that of its own block. -/
theorem exists_of_ofParams (h : ofParams params = .ok request) :
    parameter params "client" = .ok request.client ∧
      parameter params "server" = .ok request.server ∧
      parameter params "ids" = .ok request.ids ∧
      ∃ block, readBlock request.client = .ok block ∧
        ofBlock request.client request.server request.ids block = .ok request := by
  rw [ofParams_eq] at h
  obtain ⟨client, hclient, h⟩ := exists_of_bind_ok h
  obtain ⟨server, hserver, h⟩ := exists_of_bind_ok h
  obtain ⟨ids, hids, h⟩ := exists_of_bind_ok h
  obtain ⟨block, hblock, h⟩ := exists_of_bind_ok h
  obtain ⟨rfl, rfl, rfl⟩ := parameters_of_ofBlock h
  exact ⟨hclient, hserver, hids, block, hblock, h⟩

structure SameParameters (request other : Request) : Prop where
  client : request.client = other.client
  server : request.server = other.server
  ids : request.ids = other.ids

/-- The parameters of a request hold all that it says. -/
theorem SameParameters.eq (h : request.SameParameters other)
    (hrequest : ofParams params = .ok request) (hother : ofParams others = .ok other) :
    request = other := by
  obtain ⟨-, -, -, block, hblock, hread⟩ := exists_of_ofParams hrequest
  obtain ⟨-, -, -, block', hblock', hread'⟩ := exists_of_ofParams hother
  obtain rfl : block = block' := by
    rw [h.client, hblock'] at hblock
    exact (Except.ok.inj hblock).symm
  rw [h.client, h.server, h.ids, hread'] at hread
  exact (Except.ok.inj hread).symm

theorem mem_of_parameter {name value : String} (h : parameter params name = .ok value) :
    (name, some value) ∈ params := by
  rw [parameter] at h
  split at h
  · next found hfound =>
    obtain rfl := Except.ok.inj h
    exact Dictionary.mem_of_get?
      (Option.join_eq_some_iff.mp (Option.eq_some_of_filter_eq_some hfound))
  · cases h

end Request

end Sqrl
