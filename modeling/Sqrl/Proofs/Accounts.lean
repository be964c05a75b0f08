import Sqrl.Proofs.Effect

/-! What a processed request does to the accounts and what its flags tell of them, said once for
all commands and all ways in which an account is found. -/
namespace Sqrl

theorem Command.mem_all (c : Command) : c ∈ all := by
  cases c <;> simp [all]

theorem Command.word_injective {c d : Command} (h : c.word = d.word) : c = d := by
  cases c <;> cases d <;> first | rfl | simp [word] at h

theorem Request.command_eq_some_iff (request : Request) (c : Command) :
    request.command = some c ↔ request.cmd = c.word := by
  constructor
  · intro h
    have hword := List.find?_some h
    exact (of_decide_eq_true hword).symm
  · intro h
    cases hfound : request.command with
    | none =>
      have hnone := List.find?_eq_none.mp hfound c c.mem_all
      simp [h] at hnone
    | some d =>
      have hword := List.find?_some hfound
      have hsame : d.word = c.word := (of_decide_eq_true hword).trans h
      rw [Command.word_injective hsame]

theorem Request.command_eq_none_iff (request : Request) :
    request.command = none ↔ ∀ c : Command, request.cmd ≠ c.word := by
  simp only [Option.eq_none_iff_forall_ne_some, ne_eq, command_eq_some_iff]

namespace Accounts

variable {accounts : Accounts} {request : Request} {previous key k : String} {account : Account}

theorem find?_eq_none_iff : accounts.find? key = none ↔ key ∉ accounts := by
  simp [find?]

theorem mem_iff_find?_ne_none : key ∈ accounts ↔ accounts.find? key ≠ none := by
  rw [ne_eq, find?_eq_none_iff, not_not]

theorem mem_of_find? (h : accounts.find? key = some account) : key ∈ accounts := by
  by_contra hkey
  rw [find?_eq_none_iff.mpr hkey] at h
  cases h

theorem exists_find? (h : key ∈ accounts) : ∃ account, accounts.find? key = some account :=
  ⟨_, Std.ExtTreeMap.getElem?_eq_some_getElem h⟩

theorem find?_insert (accounts : Accounts) (key : String) (account : Account) (k : String) :
    find? (accounts.insert key account) k = if k = key then some account else accounts.find? k := by
  by_cases hk : k = key
  · simp [find?, hk]
  · have hne : key ≠ k := fun h => hk h.symm
    simp [find?, Std.ExtTreeMap.getElem?_insert, hk, hne]

theorem find?_erase (accounts : Accounts) (key k : String) :
    find? (accounts.erase key) k = if k = key then none else accounts.find? k := by
  by_cases hk : k = key
  · simp [find?, hk]
  · have hne : key ≠ k := fun h => hk h.symm
    simp [find?, Std.ExtTreeMap.getElem?_erase, hk, hne]

theorem find?_rotate (haccount : accounts.find? previous = some account) (hkey : key ∉ accounts) :
    (accounts.rotate previous key).2.find? k =
      if k = key then some { account with identityKey := key }
      else if k = previous then none else accounts.find? k := by
  simp only [rotate, haccount, if_neg hkey, find?_insert, find?_erase]

theorem find?_register (hkey : accounts.find? key = none) (suk vuk : Option String) :
    (accounts.register key suk vuk).2.find? k =
      if k = key then some ⟨key, suk, vuk, true⟩ else accounts.find? k := by
  simp only [register, hkey, find?_insert]

theorem find?_setEnabled (accounts : Accounts) (key : String) (enabled : Bool) (k : String) :
    (accounts.setEnabled key enabled).2.find? k =
      if k = key then (accounts.find? key).map fun account => { account with enabled := enabled }
      else accounts.find? k := by
  rw [setEnabled]
  cases hkey : accounts.find? key with
  | none =>
    by_cases hk : k = key
    · simp [hk, hkey]
    · simp [hk]
  | some account => simp only [find?_insert, Option.map_some]

theorem find?_remove (accounts : Accounts) (key k : String) :
    (accounts.remove key).2.find? k = if k = key then none else accounts.find? k := by
  rw [remove]
  by_cases hkey : key ∈ accounts
  · simp only [if_pos hkey, find?_erase]
  · by_cases hk : k = key
    · simp [hk, hkey, find?_eq_none_iff]
    · simp [hk, hkey]

/-- The account that a request is about: the one under its key, or else the one under its previous
key. -/
def subject? (accounts : Accounts) (request : Request) : Option Account :=
  (accounts.find? request.idk).or (request.pidk.bind accounts.find?)

/-- The account under a key once the subject of a request stands under the key of the request. -/
def moved? (accounts : Accounts) (request : Request) (key : String) : Option Account :=
  if request.idk ∈ accounts then accounts.find? key
  else if key = request.idk then
    (request.pidk.bind accounts.find?).map fun account =>
      { account with identityKey := request.idk }
  else if request.pidk = some key then none
  else accounts.find? key

/-- The account under a key once a request is processed: after the move its command is carried out
under its own key. -/
def settled? (accounts : Accounts) (request : Request) (key : String) : Option Account :=
  let moved := accounts.moved? request key
  if key = request.idk then
    match request.command with
    | some .query => moved
    | some .ident => some (moved.getD ⟨request.idk, request.suk, request.vuk, true⟩)
    | some .disable => moved.map fun account => { account with enabled := false }
    | some .enable => moved.map fun account => { account with enabled := true }
    | some .remove => none
    | none => moved
  else moved

theorem resolve_account (accounts : Accounts) (request : Request) :
    (accounts.resolve request).1.1 = accounts.subject? request := by
  rw [resolve, subject?]
  cases accounts.find? request.idk with
  | some account => rfl
  | none =>
    cases request.pidk with
    | none => rfl
    | some previous => cases h : accounts.find? previous <;> simp [h]

theorem find?_resolve (accounts : Accounts) (request : Request) (key : String) :
    (accounts.resolve request).2.find? key = accounts.moved? request key := by
  rw [resolve, moved?]
  cases hidk : accounts.find? request.idk with
  | some account => simp only [if_pos (mem_of_find? hidk)]
  | none =>
    have hkey := find?_eq_none_iff.mp hidk
    simp only [if_neg hkey]
    cases hpidk : request.pidk with
    | none =>
      by_cases hk : key = request.idk
      · simp [hk, hidk]
      · simp [hk]
    | some previous =>
      cases hprevious : accounts.find? previous with
      | none =>
        by_cases hk : key = request.idk
        · simp [hk, hidk, hprevious]
        · by_cases hp : previous = key
          · subst hp
            simp [hk, hprevious]
          · simp [hk, hp, hprevious]
      | some account =>
        simp [find?_rotate hprevious hkey, hprevious, eq_comm]

theorem subject?_eq_none_iff : accounts.subject? request = none ↔
    accounts.moved? request request.idk = none := by
  rw [subject?, moved?]
  by_cases hidk : request.idk ∈ accounts
  · obtain ⟨account, haccount⟩ := exists_find? hidk
    simp [hidk, haccount]
  · simp [hidk, find?_eq_none_iff.mpr hidk]

/-- To move an account neither enables nor disables it. -/
theorem exists_moved? (h : accounts.subject? request = some account) :
    ∃ moved, accounts.moved? request request.idk = some moved ∧
      moved.enabled = account.enabled := by
  rw [subject?] at h
  rw [moved?]
  by_cases hidk : request.idk ∈ accounts
  · obtain ⟨found, hfound⟩ := exists_find? hidk
    rw [hfound, Option.some_or, Option.some.injEq] at h
    exact ⟨account, by rw [if_pos hidk, hfound, h], rfl⟩
  · rw [find?_eq_none_iff.mpr hidk, Option.none_or] at h
    exact ⟨{ account with identityKey := request.idk }, by simp [hidk, h], rfl⟩

/-- The flags of a processed request and the accounts after it are those of its command, after the
move of its subject. -/
theorem find?_serve (accounts : Accounts) (request : Request) (key : String) :
    (accounts.serve request).2.find? key = accounts.settled? request key := by
  have hmoved := accounts.find?_resolve request
  simp only [serve, settled?, resolve_account]
  rw [obey]
  cases hcommand : request.command with
  | none => simp [hmoved]
  | some command =>
    cases command with
    | query => simp [hmoved]
    | ident =>
      cases hsubject : accounts.subject? request with
      | none =>
        have hnone := subject?_eq_none_iff.mp hsubject
        have hfree : (accounts.resolve request).2.find? request.idk = none :=
          (hmoved request.idk).trans hnone
        by_cases hk : key = request.idk
        · simp [find?_register hfree, hk, hnone]
        · simp [find?_register hfree, hk, hmoved]
      | some account =>
        obtain ⟨moved, hstanding, -⟩ := exists_moved? hsubject
        by_cases hk : key = request.idk
        · simp [hk, hmoved, hstanding]
        · simp [hk, hmoved]
    | disable => simp only [find?_setEnabled, hmoved]; split <;> simp_all
    | enable => simp only [find?_setEnabled, hmoved]; split <;> simp_all
    | remove => simp only [find?_remove, hmoved]

/-- A request moves one account at most. -/
theorem mem_serve_accounts_of_ne (hkey : key ≠ request.idk) :
    key ∈ (accounts.serve request).2 ↔
      key ∈ accounts ∧ (request.idk ∈ accounts ∨ request.pidk ≠ some key) := by
  simp only [mem_iff_find?_ne_none, find?_serve, settled?, moved?, if_neg hkey]
  split
  · simp_all
  · split <;> simp_all

/-- An account stands under the key of a request that logs in, or that finds one and does not remove
it. -/
theorem idk_mem_serve_accounts : request.idk ∈ (accounts.serve request).2 ↔
    request.command = some .ident ∨
      request.command ≠ some .remove ∧ accounts.subject? request ≠ none := by
  simp only [mem_iff_find?_ne_none, find?_serve, settled?, ne_eq, subject?_eq_none_iff, if_true]
  cases request.command with
  | none => simp
  | some command => cases command <;> simp

/-- What the flags of a processed request tell of the accounts that it found. -/
def Tells (accounts : Accounts) (request : Request) : Flag → Prop
  | .idMatch => request.idk ∈ accounts ∨ request.command = some .ident
  | .previousIdMatch =>
    request.idk ∉ accounts ∧ ∃ previous, request.pidk = some previous ∧ previous ∈ accounts
  | .functionNotSupported => ∀ c : Command, request.cmd ≠ c.word
  | .sqrlDisabled => ∃ account, accounts.subject? request = some account ∧
      (request.command = some .disable ∨
        request.command ≠ some .enable ∧ account.enabled = false)
  | _ => False

theorem mem_resolve (accounts : Accounts) (request : Request) (f : Flag) :
    f ∈ (accounts.resolve request).1.2 ↔
      f = .idMatch ∧ request.idk ∈ accounts ∨
        f = .previousIdMatch ∧ accounts.Tells request .previousIdMatch := by
  rw [resolve, Tells]
  cases hidk : accounts.find? request.idk with
  | some account => simp [mem_of_find? hidk]
  | none =>
    have hkey := find?_eq_none_iff.mp hidk
    cases hpidk : request.pidk with
    | none => simp [hkey]
    | some previous =>
      cases hprevious : accounts.find? previous with
      | none => simp [hkey, hprevious, find?_eq_none_iff.mp hprevious]
      | some account => simp [hkey, hprevious, mem_of_find? hprevious]

theorem mem_obey (accounts : Accounts) (request : Request) (account : Option Account) (f : Flag) :
    f ∈ (accounts.obey request account).1 ↔
      f = .idMatch ∧ request.command = some .ident ∨
        f = .functionNotSupported ∧ request.command = none := by
  rw [obey]
  cases request.command with
  | none => simp
  | some command => cases command <;> simp

/-- The flag of a disabled account is read once the command has been carried out, from the record
that was found if that is gone by then. -/
theorem mem_disabledFlags (accounts : Accounts) (request : Request) (f : Flag) :
    f ∈ (accounts.serve request).2.disabledFlags request.idk (accounts.subject? request) ↔
      f = .sqrlDisabled ∧ accounts.Tells request .sqrlDisabled := by
  rw [Tells]
  cases hsubject : accounts.subject? request with
  | none => simp [disabledFlags]
  | some account =>
    obtain ⟨moved, hmoved, henabled⟩ := exists_moved? hsubject
    simp only [disabledFlags, find?_serve, settled?, hmoved, if_true]
    cases request.command with
    | none => cases h : account.enabled <;> simp [henabled, h]
    | some command => cases command <;> cases h : account.enabled <;> simp [henabled, h]

theorem mem_serve (accounts : Accounts) (request : Request) (f : Flag) :
    f ∈ (accounts.serve request).1 ↔ accounts.Tells request f := by
  have hdisabled := accounts.mem_disabledFlags request f
  have hserve : (accounts.serve request).1 = (accounts.resolve request).1.2 ++
      ((accounts.resolve request).2.obey request (accounts.resolve request).1.1).1 ++
        (accounts.serve request).2.disabledFlags request.idk (accounts.subject? request) := by
    rw [← resolve_account]
    rfl
  rw [hserve, List.mem_append, List.mem_append, mem_resolve, mem_obey, hdisabled]
  cases f <;> simp [Tells, Request.command_eq_none_iff]

end Accounts

end Sqrl
