import Sqrl.Proofs.Clock
import Sqrl.Store.Sessions

/-! What the operations of the session store change: which consumed nuts it remembers, under which
root it finds a nut, and who has logged in there. -/
namespace Sqrl.Sessions

variable (s : Sessions) (now : Number) (nut old new identity m r : String)
  (address : Option String)

/-- Nothing is stale at once. -/
theorem isStale_self {s : Sessions} {ttl : Nat} (httl : s.ttl = .int ttl) (now : Number) :
    s.isStale now now = false := by
  rw [isStale, httl]
  exact Number.natCast_lt_sub_self ttl now

theorem used_prune :
    (s.prune now).2.used[m]? = s.used[m]?.filter fun time => !s.isStale now time := by
  simp [prune]

theorem used_consume {s : Sessions} {nut : String} (hunused : nut ∉ s.used) (now : Number) :
    (s.consume nut now).2.used[m]? = if nut = m then some now else s.used[m]? := by
  rw [consume, if_neg hunused]
  simp [Std.ExtTreeMap.getElem?_insert]

def login? (s : Sessions) (r : String) : Option String :=
  s.transactions[r]?.bind fun t => t.identity

theorem identity?_eq : s.identity? m = s.login? (s.root m) := rfl

theorem root_of_links {s : Sessions} {m r : String} (h : s.links[m]? = some r) : s.root m = r := by
  rw [root, h, Option.getD_some]

theorem root_of_not_mem {s : Sessions} {m : String} (h : s.links[m]? = none) : s.root m = m := by
  rw [root, h, Option.getD_none]

theorem links_of_prune {s : Sessions} {now : Number} {m r : String}
    (h : (s.prune now).2.links[m]? = some r) : s.links[m]? = some r := by
  simp only [prune, Std.ExtTreeMap.getElem?_filter'] at h
  exact (Option.filter_eq_some_iff.mp h).1

theorem links_prune_eq_none {s : Sessions} {m : String} (h : s.links[m]? = none) (now : Number) :
    (s.prune now).2.links[m]? = none := by
  rw [Option.eq_none_iff_forall_ne_some]
  intro r hr
  rw [links_of_prune hr] at h
  cases h

theorem transactions_of_prune {s : Sessions} {now : Number} {r : String} {t : Transaction}
    (h : (s.prune now).2.transactions[r]? = some t) : s.transactions[r]? = some t := by
  simp only [prune, Std.ExtTreeMap.getElem?_filter'] at h
  exact (Option.filter_eq_some_iff.mp h).1

theorem transactions_prune :
    (s.prune now).2.transactions[r]? =
      s.transactions[r]?.filter fun t => !s.isStale now t.issuedAt := by
  simp [prune]

theorem login?_of_prune {s : Sessions} {now : Number} {r key : String}
    (h : (s.prune now).2.login? r = some key) : s.login? r = some key := by
  obtain ⟨t, ht, hkey⟩ := Option.bind_eq_some_iff.mp h
  rw [login?, transactions_of_prune ht]
  exact hkey

theorem transactions_start :
    (s.start nut address now).transactions[r]? =
      if nut = r then some (fresh nut address now) else s.transactions[r]? := by
  simp [start, Std.ExtTreeMap.getElem?_insert]

theorem login?_start :
    (s.start nut address now).login? r = if nut = r then none else s.login? r := by
  rw [login?, transactions_start]
  split <;> rfl

theorem links_link :
    (s.link old new now).links[m]? = if new = m then some (s.root old) else s.links[m]? := by
  simp [link, Std.ExtTreeMap.getElem?_insert]

theorem root_link :
    (s.link old new now).root m = if new = m then s.root old else s.root m := by
  rw [root, links_link]
  split <;> rfl

theorem transactions_link :
    (s.link old new now).transactions[r]? =
      if s.root old = r then
        some { s.find old now with linked := (s.find old now).linked.insert new }
      else s.transactions[r]? := by
  simp [link, Std.ExtTreeMap.getElem?_insert]

theorem identity_find : (s.find nut now).identity = s.login? (s.root nut) := by
  rw [find, login?]
  cases s.transactions[s.root nut]? <;> rfl

theorem login?_link : (s.link old new now).login? r = s.login? r := by
  rw [login?, transactions_link]
  split
  · next h =>
    rw [← h, Option.bind_some]
    exact s.identity_find now old
  · rfl

theorem transactions_authenticate :
    (s.authenticate nut identity now).transactions[r]? =
      if s.root nut = r then
        some { s.find nut now with identity := some identity, authenticatedAt := some now }
      else s.transactions[r]? := by
  simp [authenticate, Std.ExtTreeMap.getElem?_insert]

theorem login?_authenticate :
    (s.authenticate nut identity now).login? r =
      if s.root nut = r then some identity else s.login? r := by
  rw [login?, transactions_authenticate]
  split <;> rfl

theorem root_authenticate : (s.authenticate nut identity now).root m = s.root m := rfl

theorem links_authenticate : (s.authenticate nut identity now).links = s.links := rfl

theorem used_start : (s.start nut address now).used = s.used := rfl

theorem consume_links : (s.consume nut now).2.links = s.links := by
  rw [consume]
  split <;> rfl

theorem consume_transactions : (s.consume nut now).2.transactions = s.transactions := by
  rw [consume]
  split <;> rfl

theorem identity?_consume : (s.consume nut now).2.identity? m = s.identity? m := by
  rw [consume]
  split <;> rfl

theorem consume_ttl : (s.consume nut now).2.ttl = s.ttl := by
  rw [consume]
  split <;> rfl

theorem identity?_start {s : Sessions} {nut m key : String} {address : Option String} {now : Number}
    (h : (s.start nut address now).identity? m = some key) : s.identity? m = some key := by
  rw [identity?_eq, login?_start] at h
  split at h
  · cases h
  · exact h

/-- A new nut takes part in the login of the nut that it is linked to, and no other nut does. -/
theorem identity?_link :
    (s.link old new now).identity? m = if new = m then s.identity? old else s.identity? m := by
  rw [identity?_eq, login?_link, root_link]
  split <;> rfl

/-- Linked nuts and roots are kept apart, and both are known. -/
structure IsTidy (s : Sessions) (known : String → Prop) : Prop where
  known_link : ∀ {m r : String}, s.links[m]? = some r → known m
  known_root : ∀ {m r : String}, s.links[m]? = some r → known r
  known_transaction : ∀ {r : String} {t : Transaction}, s.transactions[r]? = some t → known r
  root_unlinked : ∀ {m r : String}, s.links[m]? = some r → s.links[r]? = none
  unopened : ∀ {m r : String}, s.links[m]? = some r → s.transactions[m]? = none

namespace IsTidy

variable {s : Sessions} {known : String → Prop} {now : Number} {nut old new m : String}

theorem empty (ttl : Number) : (Sessions.empty ttl).IsTidy known := by
  constructor <;> simp [Sessions.empty]

theorem mono {known' : String → Prop} (h : s.IsTidy known) (hknown : ∀ m, known m → known' m) :
    s.IsTidy known' where
  known_link hm := hknown _ (h.known_link hm)
  known_root hm := hknown _ (h.known_root hm)
  known_transaction hr := hknown _ (h.known_transaction hr)
  root_unlinked := h.root_unlinked
  unopened := h.unopened

theorem congr {t : Sessions} (h : s.IsTidy known) (hlinks : t.links = s.links)
    (htransactions : t.transactions = s.transactions) : t.IsTidy known := by
  constructor
  · exact fun hm => h.known_link (hlinks ▸ hm)
  · exact fun hm => h.known_root (hlinks ▸ hm)
  · exact fun hr => h.known_transaction (htransactions ▸ hr)
  · exact fun hm => hlinks ▸ h.root_unlinked (hlinks ▸ hm)
  · exact fun hm => htransactions ▸ h.unopened (hlinks ▸ hm)

theorem prune (h : s.IsTidy known) (now : Number) : (s.prune now).2.IsTidy known where
  known_link hm := h.known_link (links_of_prune hm)
  known_root hm := h.known_root (links_of_prune hm)
  known_transaction hr := h.known_transaction (transactions_of_prune hr)
  root_unlinked hm := links_prune_eq_none (h.root_unlinked (links_of_prune hm)) now
  unopened {m r} hm := by
    have hnone := h.unopened (links_of_prune hm)
    rw [Option.eq_none_iff_forall_ne_some] at hnone ⊢
    exact fun t ht => hnone t (transactions_of_prune ht)

/-- To forget logs nobody in: a nut whose link is forgotten is no root. -/
theorem identity?_of_prune (h : s.IsTidy known) {key : String}
    (hkey : (s.prune now).2.identity? m = some key) : s.identity? m = some key := by
  rw [identity?_eq] at hkey ⊢
  cases hlink : s.links[m]? with
  | none =>
    rw [root_of_not_mem (links_prune_eq_none hlink now)] at hkey
    rw [root_of_not_mem hlink]
    exact login?_of_prune hkey
  | some r =>
    cases hpruned : (s.prune now).2.links[m]? with
    | none =>
      rw [root_of_not_mem hpruned] at hkey
      have hopened := login?_of_prune hkey
      rw [login?, h.unopened hlink] at hopened
      cases hopened
    | some r' =>
      obtain rfl : r' = r := Option.some.inj ((links_of_prune hpruned).symm.trans hlink)
      rw [root_of_links hpruned] at hkey
      rw [root_of_links hlink]
      exact login?_of_prune hkey

theorem links_root (h : s.IsTidy known) (nut : String) : s.links[s.root nut]? = none := by
  cases hlink : s.links[nut]? with
  | none => rwa [root_of_not_mem hlink]
  | some r =>
    rw [root_of_links hlink]
    exact h.root_unlinked hlink

theorem known_root_of (h : s.IsTidy known) (hnut : known nut) : known (s.root nut) := by
  cases hlink : s.links[nut]? with
  | none => rwa [root_of_not_mem hlink]
  | some r =>
    rw [root_of_links hlink]
    exact h.known_root hlink

theorem links_of_not_known (h : s.IsTidy known) (hm : ¬ known m) : s.links[m]? = none := by
  rw [Option.eq_none_iff_forall_ne_some]
  exact fun r hlink => hm (h.known_link hlink)

theorem root_eq_iff_of_not_known (h : s.IsTidy known) {r : String} (hr : ¬ known r) (m : String) :
    s.root m = r ↔ m = r := by
  constructor
  · intro hroot
    cases hlink : s.links[m]? with
    | none => rwa [root_of_not_mem hlink] at hroot
    | some r' =>
      rw [root_of_links hlink] at hroot
      exact absurd (hroot ▸ h.known_root hlink) hr
  · rintro rfl
    exact root_of_not_mem (h.links_of_not_known hr)

theorem start (h : s.IsTidy known) (hnut : ¬ known nut) (address : Option String) (now : Number) :
    (s.start nut address now).IsTidy fun m => known m ∨ m = nut where
  known_link hm := .inl (h.known_link hm)
  known_root hm := .inl (h.known_root hm)
  known_transaction {r t} hr := by
    rw [transactions_start] at hr
    split at hr
    · next heq => exact .inr heq.symm
    · exact .inl (h.known_transaction hr)
  root_unlinked hm := h.root_unlinked hm
  unopened {m r} hm := by
    rw [transactions_start, if_neg]
    · exact h.unopened hm
    · intro heq
      exact hnut (heq ▸ h.known_link hm)

theorem link (h : s.IsTidy known) (hold : known old) (hnew : ¬ known new) (now : Number) :
    (s.link old new now).IsTidy fun m => known m ∨ m = new := by
  have hroot : known (s.root old) := h.known_root_of hold
  -- A root is known, so it is not the new nut, and it was not linked before.
  have hunlinked {r : String} (hr : known r) (hnone : s.links[r]? = none) :
      (s.link old new now).links[r]? = none := by
    rw [links_link, if_neg]
    · exact hnone
    · intro heq
      exact hnew (heq ▸ hr)
  constructor
  · intro m r hm
    rw [links_link] at hm
    split at hm
    · next heq => exact .inr heq.symm
    · exact .inl (h.known_link hm)
  · intro m r hm
    rw [links_link] at hm
    split at hm
    · exact .inl (Option.some.inj hm ▸ hroot)
    · exact .inl (h.known_root hm)
  · intro r t hr
    rw [transactions_link] at hr
    split at hr
    · next heq => exact .inl (heq ▸ hroot)
    · exact .inl (h.known_transaction hr)
  · intro m r hm
    rw [links_link] at hm
    split at hm
    · rw [← Option.some.inj hm]
      exact hunlinked hroot (h.links_root old)
    · exact hunlinked (h.known_root hm) (h.root_unlinked hm)
  · intro m r hm
    rw [transactions_link, if_neg]
    · rw [links_link] at hm
      split at hm
      · next heq =>
        rw [Option.eq_none_iff_forall_ne_some]
        exact fun t ht => hnew (heq ▸ h.known_transaction ht)
      · exact h.unopened hm
    · intro heq
      rw [← heq, hunlinked hroot (h.links_root old)] at hm
      cases hm

theorem authenticate (h : s.IsTidy known) (hnut : known nut) (identity : String) (now : Number) :
    (s.authenticate nut identity now).IsTidy known where
  known_link hm := h.known_link hm
  known_root hm := h.known_root hm
  known_transaction {r t} hr := by
    rw [transactions_authenticate] at hr
    split at hr
    · next heq => exact heq ▸ h.known_root_of hnut
    · exact h.known_transaction hr
  root_unlinked hm := h.root_unlinked hm
  unopened {m r} hm := by
    rw [transactions_authenticate, if_neg]
    · exact h.unopened hm
    · intro heq
      rw [← heq, links_authenticate, h.links_root nut] at hm
      cases hm

end IsTidy

/-- Is every nut that a transaction has linked still linked to its root? -/
def IsLinked (s : Sessions) : Prop :=
  ∀ (r : String) (t : Transaction) (m : String), s.transactions[r]? = some t → m ∈ t.linked →
    s.links[m]? = some r

namespace IsLinked

variable {s : Sessions} {known : String → Prop} {now : Number} {nut old new m r : String}

theorem empty (ttl : Number) : (Sessions.empty ttl).IsLinked := by
  intro r t m ht
  simp [Sessions.empty] at ht

theorem congr {t : Sessions} (h : s.IsLinked) (hlinks : t.links = s.links)
    (htransactions : t.transactions = s.transactions) : t.IsLinked := by
  rw [IsLinked, hlinks, htransactions]
  exact h

/-- The link to a transaction that is kept is kept: whatever is forgotten with another one was
linked to that one. -/
theorem links_prune (h : s.IsLinked) {t : Transaction} (ht : s.transactions[r]? = some t)
    (hkept : s.isStale now t.issuedAt = false) (hlink : s.links[m]? = some r) :
    (s.prune now).2.links[m]? = some r := by
  simp only [Sessions.prune, Std.ExtTreeMap.getElem?_filter']
  refine Option.filter_eq_some_iff.mpr ⟨hlink, ?_⟩
  rw [Bool.not_eq_true', ← Bool.not_eq_true]
  intro hforgotten
  obtain ⟨linked, hlinked, hm⟩ := List.any_eq_true.mp hforgotten
  obtain ⟨⟨r', t'⟩, hstale, rfl⟩ := List.mem_map.mp hlinked
  rw [Std.ExtTreeMap.mem_toList_iff_getElem?_eq_some, Sessions.stale,
    Std.ExtTreeMap.getElem?_filter'] at hstale
  obtain ⟨ht', hstale⟩ := Option.filter_eq_some_iff.mp hstale
  obtain rfl : r' = r :=
    Option.some.inj ((h r' t' m ht' (Std.ExtTreeSet.contains_iff_mem.mp hm)).symm.trans hlink)
  obtain rfl : t' = t := Option.some.inj (ht'.symm.trans ht)
  rw [hkept] at hstale
  cases hstale

theorem prune (h : s.IsLinked) (now : Number) : (s.prune now).2.IsLinked := by
  intro r t m ht hm
  rw [transactions_prune] at ht
  obtain ⟨ht, hkept⟩ := Option.filter_eq_some_iff.mp ht
  exact h.links_prune ht (Bool.not_eq_true' _ ▸ hkept) (h r t m ht hm)

theorem start (h : s.IsLinked) (nut : String) (address : Option String) (now : Number) :
    (s.start nut address now).IsLinked := by
  intro r t m ht hm
  rw [transactions_start] at ht
  split at ht
  · rw [← Option.some.inj ht] at hm
    simp [fresh] at hm
  · exact h r t m ht hm

theorem find (h : s.IsLinked) (hm : m ∈ (s.find nut now).linked) :
    s.links[m]? = some (s.root nut) := by
  rw [Sessions.find] at hm
  cases ht : s.transactions[s.root nut]? with
  | none => simp [ht, fresh] at hm
  | some t =>
    rw [ht, Option.getD_some] at hm
    exact h _ t m ht hm

theorem link (h : s.IsLinked) (hnew : s.links[new]? = none) (old : String) (now : Number) :
    (s.link old new now).IsLinked := by
  intro r t m ht hm
  rw [transactions_link] at ht
  rw [links_link]
  split at ht
  · next hroot =>
    rw [← Option.some.inj ht, Std.ExtTreeSet.mem_insert, Std.compare_eq_iff_eq] at hm
    split
    · rw [hroot]
    · next hne =>
      rw [← hroot]
      exact h.find (hm.resolve_left hne)
  · have hlink := h r t m ht hm
    rw [if_neg]
    · exact hlink
    · intro heq
      rw [← heq, hnew] at hlink
      cases hlink

theorem authenticate (h : s.IsLinked) (nut identity : String) (now : Number) :
    (s.authenticate nut identity now).IsLinked := by
  intro r t m ht hm
  rw [transactions_authenticate] at ht
  split at ht
  · next hroot =>
    rw [← Option.some.inj ht] at hm
    exact hroot ▸ h.find hm
  · exact h r t m ht hm

end IsLinked

/-- Does a transaction stand under a root that was opened at a time? -/
def IsOpen (s : Sessions) (r : String) (time : Number) : Prop :=
  ∃ t, s.transactions[r]? = some t ∧ t.issuedAt = time

namespace IsOpen

variable {s : Sessions} {known : String → Prop} {now time : Number} {nut old new m r : String}

theorem root_self (h : s.IsOpen r time) (htidy : s.IsTidy known) : s.root r = r := by
  obtain ⟨t, ht, -⟩ := h
  cases hlink : s.links[r]? with
  | none => exact root_of_not_mem hlink
  | some r' =>
    rw [htidy.unopened hlink] at ht
    cases ht

theorem congr {t : Sessions} (h : s.IsOpen r time)
    (htransactions : t.transactions = s.transactions) : t.IsOpen r time := by
  rw [IsOpen, htransactions]
  exact h

theorem transactions_prune_eq (h : s.IsOpen r time) (hkept : s.isStale now time = false) :
    (s.prune now).2.transactions[r]? = s.transactions[r]? := by
  obtain ⟨t, ht, rfl⟩ := h
  rw [transactions_prune, ht, Option.filter_some, hkept]
  rfl

theorem prune (h : s.IsOpen r time) (hkept : s.isStale now time = false) :
    (s.prune now).2.IsOpen r time := by
  rw [IsOpen, h.transactions_prune_eq hkept]
  exact h

theorem login?_prune (h : s.IsOpen r time) (hkept : s.isStale now time = false) :
    (s.prune now).2.login? r = s.login? r := by
  rw [login?, h.transactions_prune_eq hkept, login?]

/-- The nuts of a transaction that is kept stay its nuts. -/
theorem root_prune_iff (h : s.IsOpen r time) (htidy : s.IsTidy known) (hlinked : s.IsLinked)
    (hkept : s.isStale now time = false) (m : String) :
    (s.prune now).2.root m = r ↔ s.root m = r := by
  have hself := h.root_self htidy
  obtain ⟨t, ht, rfl⟩ := h
  constructor
  · intro hm
    cases hpruned : (s.prune now).2.links[m]? with
    | none =>
      rw [root_of_not_mem hpruned] at hm
      rw [hm, hself]
    | some r' =>
      rw [root_of_links hpruned] at hm
      rw [root_of_links (links_of_prune hpruned), hm]
  · intro hm
    cases hlink : s.links[m]? with
    | none =>
      rw [root_of_not_mem (links_prune_eq_none hlink now), ← hm, root_of_not_mem hlink]
    | some r' =>
      obtain rfl : r' = r := (root_of_links hlink).symm.trans hm
      exact root_of_links (hlinked.links_prune ht hkept hlink)

theorem start (h : s.IsOpen r time) (hne : nut ≠ r) (address : Option String) (now : Number) :
    (s.start nut address now).IsOpen r time := by
  rw [IsOpen, transactions_start, if_neg hne]
  exact h

/-- The transaction of a nut that is found was opened when it was. -/
theorem issuedAt_find (h : s.IsOpen (s.root nut) time) (now : Number) :
    (s.find nut now).issuedAt = time := by
  obtain ⟨t, ht, rfl⟩ := h
  rw [find, ht, Option.getD_some]

theorem link (h : s.IsOpen r time) (old new : String) (now : Number) :
    (s.link old new now).IsOpen r time := by
  rw [IsOpen, transactions_link]
  split
  · next hroot => exact ⟨_, rfl, (hroot ▸ h).issuedAt_find now⟩
  · exact h

theorem authenticate (h : s.IsOpen r time) (nut identity : String) (now : Number) :
    (s.authenticate nut identity now).IsOpen r time := by
  rw [IsOpen, transactions_authenticate]
  split
  · next hroot => exact ⟨_, rfl, (hroot ▸ h).issuedAt_find now⟩
  · exact h

end IsOpen

end Sqrl.Sessions
