import Sqrl.Proofs.Accounts

/-! The laws of the account store. Whatever is called and in whichever order, each account stands under
its own key, a call that is refused changes nothing, and every other one changes the accounts of the
keys that it names and no others. -/
namespace Sqrl.Accounts

variable {accounts : Accounts} {previous key : String} {account : Account}

inductive Call where
  | register (key : String) (suk vuk : Option String)
  | rotate (previous key : String)
  | disable (key : String)
  | enable (key : String)
  | remove (key : String)

inductive Answer where
  | account (account : Account)
  | outcome (done : Bool)

def perform (accounts : Accounts) : Call → Answer × Accounts
  | .register key suk vuk => (accounts.register key suk vuk).map .account id
  | .rotate previous key => (accounts.rotate previous key).map .outcome id
  | .disable key => (accounts.setEnabled key false).map .outcome id
  | .enable key => (accounts.setEnabled key true).map .outcome id
  | .remove key => (accounts.remove key).map .outcome id

def run : Accounts → List Call → Accounts
  | accounts, [] => accounts
  | accounts, call :: calls => run (accounts.perform call).2 calls

def IsKeyed (accounts : Accounts) : Prop :=
  ∀ key account, accounts.find? key = some account → account.identityKey = key

theorem isKeyed_empty : IsKeyed ∅ := by
  intro key account h
  simp [find?] at h

theorem rotate_iff : (accounts.rotate previous key).1 = true ↔ previous ∈ accounts ∧ key ∉ accounts := by
  rw [rotate]
  cases hprevious : accounts.find? previous with
  | none => simp [find?_eq_none_iff.mp hprevious]
  | some account =>
    have hmem := mem_of_find? hprevious
    by_cases hkey : key ∈ accounts <;> simp [hkey, hmem]

theorem rotate_refused (h : (accounts.rotate previous key).1 = false) :
    (accounts.rotate previous key).2 = accounts := by
  rw [rotate] at h ⊢
  cases hprevious : accounts.find? previous with
  | none => rfl
  | some account =>
    by_cases hkey : key ∈ accounts
    · simp [hkey]
    · simp [hprevious, hkey] at h

theorem size_rotate (accounts : Accounts) (previous key : String) :
    (accounts.rotate previous key).2.size = accounts.size := by
  cases hdone : (accounts.rotate previous key).1 with
  | false => rw [rotate_refused hdone]
  | true =>
    obtain ⟨hprevious, hkey⟩ := rotate_iff.mp hdone
    obtain ⟨account, haccount⟩ := exists_find? hprevious
    have hfree : key ∉ accounts.erase previous := fun hmem =>
      hkey (Std.ExtTreeMap.mem_of_mem_erase hmem)
    have hsome : accounts.size ≠ 0 := fun hzero =>
      Std.ExtTreeMap.not_mem_empty (Std.ExtTreeMap.eq_empty_iff_size_eq_zero.mpr hzero ▸ hprevious)
    simp only [rotate, haccount, if_neg hkey]
    rw [Std.ExtTreeMap.size_insert, if_neg (mt Std.ExtTreeMap.mem_iff_contains.mpr hfree),
      Std.ExtTreeMap.size_erase, if_pos (Std.ExtTreeMap.mem_iff_contains.mp hprevious)]
    omega

theorem setEnabled_iff (enabled : Bool) :
    (accounts.setEnabled key enabled).1 = true ↔ key ∈ accounts := by
  rw [setEnabled, mem_iff_find?_ne_none]
  cases accounts.find? key <;> simp

theorem setEnabled_refused {enabled : Bool} (h : (accounts.setEnabled key enabled).1 = false) :
    (accounts.setEnabled key enabled).2 = accounts := by
  rw [setEnabled] at h ⊢
  cases hkey : accounts.find? key with
  | none => rfl
  | some account => simp [hkey] at h

theorem remove_iff : (accounts.remove key).1 = true ↔ key ∈ accounts := by
  rw [remove]
  split <;> simp_all

theorem remove_refused (h : (accounts.remove key).1 = false) :
    (accounts.remove key).2 = accounts := by
  have hkey : key ∉ accounts := by rw [← remove_iff, h, Bool.not_eq_true]
  rw [remove, if_neg hkey]

theorem register_of_find? (h : accounts.find? key = some account) (suk vuk : Option String) :
    accounts.register key suk vuk = (account, accounts) := by
  rw [register, h]

/-- A call that is refused leaves the store as it was. -/
theorem perform_refused {call : Call} (h : (accounts.perform call).1 = .outcome false) :
    (accounts.perform call).2 = accounts := by
  cases call with
  | register key suk vuk => cases h
  | rotate previous key => exact rotate_refused (Answer.outcome.inj h)
  | disable key => exact setEnabled_refused (Answer.outcome.inj h)
  | enable key => exact setEnabled_refused (Answer.outcome.inj h)
  | remove key => exact remove_refused (Answer.outcome.inj h)

theorem IsKeyed.rotate (h : accounts.IsKeyed) (previous key : String) :
    (accounts.rotate previous key).2.IsKeyed := by
  cases hdone : (accounts.rotate previous key).1 with
  | false => rwa [rotate_refused hdone]
  | true =>
    obtain ⟨hprevious, hkey⟩ := rotate_iff.mp hdone
    obtain ⟨account, haccount⟩ := exists_find? hprevious
    intro k found hfound
    rw [find?_rotate haccount hkey] at hfound
    split_ifs at hfound with hk hgone
    · exact (congrArg Account.identityKey (Option.some.inj hfound)).symm.trans hk.symm
    · exact h k found hfound

theorem IsKeyed.register (h : accounts.IsKeyed) (key : String) (suk vuk : Option String) :
    (accounts.register key suk vuk).2.IsKeyed := by
  cases hkey : accounts.find? key with
  | some account => rwa [register_of_find? hkey]
  | none =>
    intro k found hfound
    rw [find?_register hkey] at hfound
    split_ifs at hfound with hk
    · exact (congrArg Account.identityKey (Option.some.inj hfound)).symm.trans hk.symm
    · exact h k found hfound

theorem IsKeyed.setEnabled (h : accounts.IsKeyed) (key : String) (enabled : Bool) :
    (accounts.setEnabled key enabled).2.IsKeyed := by
  intro k found hfound
  rw [find?_setEnabled] at hfound
  split_ifs at hfound with hk
  · obtain ⟨account, haccount, rfl⟩ := Option.map_eq_some_iff.mp hfound
    exact (h key account haccount).trans hk.symm
  · exact h k found hfound

theorem IsKeyed.remove (h : accounts.IsKeyed) (key : String) : (accounts.remove key).2.IsKeyed := by
  intro k found hfound
  rw [find?_remove] at hfound
  split_ifs at hfound
  exact h k found hfound

theorem IsKeyed.perform (h : accounts.IsKeyed) (call : Call) : (accounts.perform call).2.IsKeyed := by
  cases call with
  | register key suk vuk => exact h.register key suk vuk
  | rotate previous key => exact h.rotate previous key
  | disable key => exact h.setEnabled key false
  | enable key => exact h.setEnabled key true
  | remove key => exact h.remove key

theorem IsKeyed.run (h : accounts.IsKeyed) (calls : List Call) : (accounts.run calls).IsKeyed := by
  induction calls generalizing accounts with
  | nil => exact h
  | cons call calls ih => exact ih (h.perform call)

/-- What the next call returns and does, whichever it is. The look-ups after it say which accounts it
leaves as they were. -/
structure IsLawful (accounts : Accounts) : Prop where
  isKeyed : accounts.IsKeyed
  register_known : ∀ key account suk vuk, accounts.find? key = some account →
    accounts.register key suk vuk = (account, accounts)
  register_new : ∀ key suk vuk, key ∉ accounts →
    (accounts.register key suk vuk).1 = ⟨key, suk, vuk, true⟩ ∧
      ∀ k, (accounts.register key suk vuk).2.find? k =
        if k = key then some ⟨key, suk, vuk, true⟩ else accounts.find? k
  rotate_iff : ∀ previous key,
    (accounts.rotate previous key).1 = true ↔ previous ∈ accounts ∧ key ∉ accounts
  rotate_done : ∀ previous key, (accounts.rotate previous key).1 = true →
    ∃ account, accounts.find? previous = some account ∧
      (∀ k, (accounts.rotate previous key).2.find? k =
        if k = key then some { account with identityKey := key }
        else if k = previous then none else accounts.find? k) ∧
      (accounts.rotate previous key).2.size = accounts.size
  setEnabled_iff : ∀ key enabled, (accounts.setEnabled key enabled).1 = true ↔ key ∈ accounts
  setEnabled_done : ∀ key enabled k, (accounts.setEnabled key enabled).2.find? k =
    if k = key then (accounts.find? key).map fun account => { account with enabled := enabled }
    else accounts.find? k
  remove_iff : ∀ key, (accounts.remove key).1 = true ↔ key ∈ accounts
  remove_done : ∀ key k, (accounts.remove key).2.find? k =
    if k = key then none else accounts.find? k
  refused : ∀ call, (accounts.perform call).1 = .outcome false → (accounts.perform call).2 = accounts

theorem IsKeyed.isLawful (h : accounts.IsKeyed) : accounts.IsLawful where
  isKeyed := h
  register_known _ _ suk vuk hkey := register_of_find? hkey suk vuk
  register_new key suk vuk hkey := by
    have hnone := find?_eq_none_iff.mpr hkey
    exact ⟨by rw [Accounts.register, hnone], fun k => find?_register hnone suk vuk⟩
  rotate_iff _ _ := Accounts.rotate_iff
  rotate_done previous key hdone := by
    obtain ⟨hprevious, hkey⟩ := Accounts.rotate_iff.mp hdone
    obtain ⟨account, haccount⟩ := exists_find? hprevious
    exact ⟨account, haccount, fun k => find?_rotate haccount hkey, size_rotate accounts previous key⟩
  setEnabled_iff _ enabled := Accounts.setEnabled_iff enabled
  setEnabled_done := find?_setEnabled accounts
  remove_iff _ := Accounts.remove_iff
  remove_done := find?_remove accounts
  refused _ := perform_refused

/-- After any calls on an empty store the laws hold of the next call. -/
theorem isLawful_run (calls : List Call) : (run ∅ calls).IsLawful :=
  (isKeyed_empty.run calls).isLawful

end Sqrl.Accounts
