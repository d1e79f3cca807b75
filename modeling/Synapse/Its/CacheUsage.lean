import Synapse.Its.ITSCacheController

/-!
# The bytes of the synaptic cache

`current_usage_` over the calls of `access_resource` and `remove_resource`: an insertion
charges the bytes that are asked for, and what goes refunds the bytes that the size callback
reports then.

`Accounts` says what a call does to the counter and to the bytes that are charged in truth,
whatever is reported (`step_accounts`).  So the counter is exact as long as the reports of
each call add up to what was charged (`exact_iff_refunded`), and stays within the capacity
as long as what is too large is not asked for (`bounded_iff_accepted`).

### Two counters

The usage is what the code believes to be in the cache.  Beside it stands what has been
charged for each resource, which no part of the source remembers: it is written by the step,
and the sum over the cached ids is compared with the usage.  The two move apart by what the
callback reports differently when a resource goes, and by nothing else; `Accounts` puts this
as an equation modulo 2^64 that holds for every callback.

A callback may answer differently each time and may have a state of its own, so the condition
of a call is about what it answers during this call (`Refunded`, `Faithful`), added up in the
order of the evictions.
-/

namespace Synapse.Its

open LruOrder Runs

/-! ## Runs -/

/-- The cache, and the bytes that were charged for each id when it was inserted last. -/
structure UsageRun (σ : Type*) where
  cache : ITSCacheController σ
  charged : UInt64 → UInt64

namespace UsageRun

variable {σ : Type*} (lookup : σ → UInt64 → UInt64 × σ)

/-- The run before any call. -/
def start (capacity : UInt64) (callback : σ) : UsageRun σ where
  cache := .create capacity callback
  charged _ := 0

/-- One call, with what it charges and what goes with the ids. -/
def step (s : UsageRun σ) : Call → Option (UsageRun σ)
  | .access resourceId requiredBytes =>
      (s.cache.accessResource lookup resourceId requiredBytes).map fun r => {
        cache := r.2
        charged :=
          if r.1 then s.charged else Function.update s.charged resourceId requiredBytes }
  | .remove resourceId =>
      (s.cache.removeResource lookup resourceId).map fun c => { s with cache := c }

/-- The bytes charged for what is resident. -/
def total (s : UsageRun σ) : ℕ := bytes (s.cache.ids.map s.charged)

/-- The ids that a call takes out of the cache. -/
def gone (s : UsageRun σ) : Call → List UInt64
  | .access resourceId requiredBytes =>
      if resourceId ∈ s.cache.ids then []
      else if requiredBytes > s.cache.capacity then []
      else s.cache.leavingFor lookup requiredBytes
  | .remove resourceId => if resourceId ∈ s.cache.ids then [resourceId] else []

/-- The bytes that a call charges. -/
def added (s : UsageRun σ) : Call → UInt64
  | .access resourceId requiredBytes => if resourceId ∈ s.cache.ids then 0 else requiredBytes
  | .remove _ => 0

/-- The bytes that the callback reports in a call. -/
def refunded (s : UsageRun σ) (call : Call) : ℕ :=
  bytes (reports lookup s.cache.callback (s.gone lookup call))

/-- The bytes that were charged for what goes in a call. -/
def released (s : UsageRun σ) (call : Call) : ℕ :=
  bytes ((s.gone lookup call).map s.charged)

/-- The call is an access that adds what is not too large. -/
def Admits (s : UsageRun σ) : Call → Prop
  | .access resourceId requiredBytes =>
      resourceId ∉ s.cache.ids ∧ requiredBytes ≤ s.cache.capacity
  | .remove _ => False

/-- What a call does to the counter, and to what is charged in truth. -/
structure Accounts (s : UsageRun σ) (call : Call) (s' : UsageRun σ) : Prop where
  linked : s'.cache.IsLinked
  capacity : s'.cache.capacity = s.cache.capacity
  usage : s'.cache.currentUsage =
    s.cache.currentUsage - UInt64.ofNat (s.refunded lookup call) + s.added call
  released_le : s.released lookup call ≤ s.total
  total : s'.total + s.released lookup call = s.total + (s.added call).toNat
  room : s.Admits call → s'.cache.currentUsage ≤ s.cache.capacity ∨
    s'.total = (s.added call).toNat

variable {lookup} {s s' : UsageRun σ}

/-- Bytes charged for other ids do not matter. -/
theorem bytes_charged_update {ids : List UInt64} {resourceId : UInt64} (h : resourceId ∉ ids)
    (charged : UInt64 → UInt64) (requiredBytes : UInt64) :
    bytes (ids.map (Function.update charged resourceId requiredBytes)) =
      bytes (ids.map charged) := by
  refine congrArg bytes (List.map_congr_left fun id hid => ?_)
  exact Function.update_of_ne (ne_of_mem_of_not_mem hid h) _ _

/-- A hit charges nothing. -/
theorem accounts_hit (h : s.cache.IsLinked) {resourceId requiredBytes : UInt64}
    (hmem : resourceId ∈ s.cache.ids)
    (hs' : s.step lookup (.access resourceId requiredBytes) = some s') :
    s.Accounts lookup (.access resourceId requiredBytes) s' := by
  obtain ⟨it, hit⟩ := (h.mem_ids_iff resourceId).mp hmem
  obtain ⟨c', haccess, hlinked, -⟩ :=
    ITSCacheController.step_accessResource lookup h resourceId requiredBytes
  obtain ⟨lruList, herase, -, hids⟩ := h.eraseNode hit
  have hc' : c' = { ({ s.cache with lruList := lruList } : ITSCacheController σ).pushFront
      resourceId with hits := s.cache.hits + 1 } := by
    rw [ITSCacheController.accessResource] at haccess
    simp only [hit, herase, Option.map_some] at haccess
    exact congrArg Prod.snd (Option.some_injective _ haccess).symm
  rw [step, haccess, decide_eq_true hmem] at hs'
  obtain rfl := Option.some_injective _ hs'
  have hgone : s.gone lookup (.access resourceId requiredBytes) = [] := if_pos hmem
  have hadded : s.added (.access resourceId requiredBytes) = 0 := if_pos hmem
  refine ⟨hlinked, by rw [hc']; rfl, ?_, ?_, ?_, fun hadmits => absurd hmem hadmits.1⟩
  · rw [refunded, hgone, hadded, hc']
    exact (add_zero _).symm.trans (congrArg (· + 0) (sub_zero _).symm)
  · rw [released, hgone]
    exact Nat.zero_le s.total
  · have hids' : c'.ids = resourceId :: s.cache.ids.erase resourceId := by
      rw [hc', ← hids]
      rfl
    rw [released, hgone, hadded, total, total, hids']
    exact bytes_perm ((List.perm_cons_erase hmem).symm.map s.charged)

/-- A miss refunds what goes and charges the new bytes. -/
theorem accounts_miss (h : s.cache.IsLinked) {resourceId requiredBytes : UInt64}
    (hmem : resourceId ∉ s.cache.ids)
    (hs' : s.step lookup (.access resourceId requiredBytes) = some s') :
    s.Accounts lookup (.access resourceId requiredBytes) s' := by
  -- the cache after what has to go is gone, and before the new node
  obtain ⟨kept, hkept, hspent, hmiss⟩ :=
    ITSCacheController.accessResource_miss lookup h hmem requiredBytes
  obtain ⟨c', haccess, hlinked, -⟩ :=
    ITSCacheController.step_accessResource lookup h resourceId requiredBytes
  have hc' : c' = { kept.pushFront resourceId with
      currentUsage := kept.currentUsage + requiredBytes } :=
    congrArg Prod.snd (Option.some_injective _ (haccess.symm.trans hmiss))
  rw [step, haccess, decide_eq_false hmem] at hs'
  obtain rfl := Option.some_injective _ hs'
  have hgone : s.gone lookup (.access resourceId requiredBytes) =
      if requiredBytes > s.cache.capacity then []
      else s.cache.leavingFor lookup requiredBytes := if_neg hmem
  have hadded : s.added (.access resourceId requiredBytes) = requiredBytes := if_neg hmem
  have hids : s.cache.ids =
      kept.ids ++ (s.gone lookup (.access resourceId requiredBytes)).reverse := by
    rw [hgone]
    exact hspent.ids
  have hids' : c'.ids = resourceId :: kept.ids := by
    rw [hc']
    rfl
  have hnew : resourceId ∉ kept.ids := fun hin =>
    hmem (by rw [hids]; exact List.mem_append_left _ hin)
  have htotal : bytes (c'.ids.map (Function.update s.charged resourceId requiredBytes)) =
      requiredBytes.toNat + bytes (kept.ids.map s.charged) := by
    rw [hids', List.map_cons, bytes_cons, Function.update_self, bytes_charged_update hnew]
  have hbefore : s.total = bytes (kept.ids.map s.charged) +
      s.released lookup (.access resourceId requiredBytes) := by
    rw [total, released, hids, List.map_append, bytes_append, List.map_reverse, bytes_reverse]
  refine ⟨hlinked, by rw [hc']; exact hspent.capacity, ?_, hbefore ▸ Nat.le_add_left _ _, ?_, ?_⟩
  · rw [hadded, hc', refunded, hgone]
    exact congrArg (· + requiredBytes) hspent.usage
  · rw [hadded, hbefore]
    change bytes (c'.ids.map (Function.update s.charged resourceId requiredBytes)) + _ = _
    omega
  · rintro ⟨-, hfits⟩
    rw [hadded]
    change c'.currentUsage ≤ _ ∨
      bytes (c'.ids.map (Function.update s.charged resourceId requiredBytes)) = _
    rw [htotal, hc']
    refine (ITSCacheController.ensureCapacityLocked_room lookup (c := { s.cache with
      misses := s.cache.misses + 1 }) hfits).imp (fun hroom => ?_) fun hempty => ?_
    · rw [hkept]
      exact hroom
    · rw [hkept, hempty]
      rfl

/-- A removal refunds what goes. -/
theorem accounts_remove (h : s.cache.IsLinked) {resourceId : UInt64}
    (hs' : s.step lookup (.remove resourceId) = some s') :
    s.Accounts lookup (.remove resourceId) s' := by
  obtain ⟨c', hremove, hlinked, -⟩ :=
    ITSCacheController.step_removeResource lookup h resourceId
  rw [step, hremove] at hs'
  obtain rfl := Option.some_injective _ hs'
  by_cases hmem : resourceId ∈ s.cache.ids
  · obtain ⟨it, hit⟩ := (h.mem_ids_iff resourceId).mp hmem
    have hgone : s.gone lookup (.remove resourceId) = [resourceId] := if_pos hmem
    obtain ⟨lruList, herase, -, hids⟩ := ITSCacheController.IsLinked.eraseNode (c := { s.cache with
      currentUsage := s.cache.currentUsage - (lookup s.cache.callback resourceId).1
      callback := (lookup s.cache.callback resourceId).2 }) h hit
    rw [ITSCacheController.removeResource, hit] at hremove
    simp only [herase, Option.map_some] at hremove
    obtain rfl := Option.some_injective _ hremove
    have herased : s.total =
        (s.charged resourceId).toNat + bytes ((s.cache.ids.erase resourceId).map s.charged) := by
      rw [total, bytes_perm ((List.perm_cons_erase hmem).map s.charged), List.map_cons, bytes_cons]
    have hreleased : s.released lookup (.remove resourceId) = (s.charged resourceId).toNat := by
      rw [released, hgone]
      rfl
    refine ⟨hlinked, rfl, ?_, ?_, ?_, False.elim⟩
    · rw [refunded, hgone, reports, bytes_cons]
      exact (congrArg (_ - ·) (UInt64.ofNat_toNat).symm).trans (add_zero _).symm
    · rw [hreleased, herased]
      exact Nat.le_add_right _ _
    · rw [hreleased, herased, add_comm]
      change _ + bytes ((lruList.map Node.id).map s.charged) = _
      rw [hids]
      rfl
  · have hnone : s.cache.lruMap resourceId = none := by
      refine Option.eq_none_iff_forall_ne_some.mpr fun it hit => hmem ?_
      exact (h.mem_ids_iff resourceId).mpr ⟨it, hit⟩
    have hgone : s.gone lookup (.remove resourceId) = [] := if_neg hmem
    have hc' : c' = s.cache := by
      rw [ITSCacheController.removeResource, hnone] at hremove
      exact (Option.some_injective _ hremove).symm
    refine ⟨hlinked, by rw [hc'], ?_, ?_, ?_, False.elim⟩
    · rw [refunded, hgone, hc']
      exact (add_zero _).symm.trans (congrArg (· + 0) (sub_zero _).symm)
    · rw [released, hgone]
      exact Nat.zero_le s.total
    · rw [released, hgone, hc']
      rfl

/-- **One call**, whatever the callback reports. -/
theorem step_accounts (h : s.cache.IsLinked) (call : Call) (hs' : s.step lookup call = some s') :
    s.Accounts lookup call s' := by
  cases call with
  | access resourceId requiredBytes =>
      by_cases hmem : resourceId ∈ s.cache.ids
      · exact accounts_hit h hmem hs'
      · exact accounts_miss h hmem hs'
  | remove resourceId => exact accounts_remove h hs'

/-- No call fails. -/
theorem exists_step (lookup : σ → UInt64 → UInt64 × σ) (h : s.cache.IsLinked) (call : Call) :
    ∃ s', s.step lookup call = some s' := by
  cases call with
  | access resourceId requiredBytes =>
      obtain ⟨c', haccess, -⟩ :=
        ITSCacheController.step_accessResource lookup h resourceId requiredBytes
      exact ⟨_, congrArg (Option.map _) haccess⟩
  | remove resourceId =>
      obtain ⟨c', hremove, -⟩ := ITSCacheController.step_removeResource lookup h resourceId
      exact ⟨_, congrArg (Option.map _) hremove⟩

/-- So every sequence of calls is a run. -/
theorem exists_exec (lookup : σ → UInt64 → UInt64 × σ) (capacity : UInt64) (callback : σ)
    (calls : List Call) :
    ∃ s, exec (step lookup) (start capacity callback) calls = some s ∧ s.cache.IsLinked := by
  have hprogress : ∀ (s : UsageRun σ) (call : Call), s.cache.IsLinked →
      True ∧ ∃ s', s.step lookup call = some s' ∧ s'.cache.IsLinked := by
    intro s call h
    obtain ⟨s', hs'⟩ := exists_step lookup h call
    exact ⟨trivial, s', hs', (step_accounts h call hs').linked⟩
  have hstart : (start capacity callback).cache.IsLinked := Linked.nil
  exact (exec_of_progress _ hprogress hstart calls).2

/-! ## Exact accounting -/

/-- The counter is the sum of the bytes charged for what is resident. -/
def Exact (s : UsageRun σ) : Prop := s.cache.currentUsage.toNat = s.total

/-- Nothing is charged when nothing is resident. -/
theorem Exact.eq_zero (h : s.Exact) (hempty : s.cache.ids = []) : s.cache.currentUsage = 0 := by
  refine UInt64.toNat_inj.mp (h.trans ?_)
  rw [total, hempty]
  rfl

variable (lookup) in
/-- After the call the counter is exact, and it has not wrapped below zero in between. -/
def KeepsExact (s : UsageRun σ) (call : Call) : Prop :=
  ∀ s', s.step lookup call = some s' →
    s.refunded lookup call ≤ s.cache.currentUsage.toNat ∧ s'.Exact ∧
      (s'.cache.ids = [] → s'.cache.currentUsage = 0)

variable (lookup) in
/-- The bytes charged stay below `2 ^ 64`. -/
def Representable (s : UsageRun σ) (call : Call) : Prop :=
  ∀ s', s.step lookup call = some s' → s'.total < 2 ^ 64

variable (lookup) in
/-- What is reported for what goes adds up to what was charged for it. -/
def Refunded (s : UsageRun σ) (call : Call) : Prop :=
  s.refunded lookup call = s.released lookup call

/-- The counter after a call, in natural numbers. -/
theorem Accounts.toNat_usage {call : Call} (h : s.Accounts lookup call s') :
    s'.cache.currentUsage.toNat = ((2 ^ 64 - s.refunded lookup call % 2 ^ 64 +
      s.cache.currentUsage.toNat) % 2 ^ 64 + (s.added call).toNat) % 2 ^ 64 := by
  rw [h.usage, UInt64.toNat_add, UInt64.toNat_sub, UInt64.toNat_ofNat']

/-- Where the counter is exact, a call keeps it so exactly if the refunds are right. -/
theorem keepsExact_iff (h : s.cache.IsLinked) (hexact : s.Exact) {call : Call}
    (hs' : s.step lookup call = some s') (hsum : s.Representable lookup call) :
    s.KeepsExact lookup call ↔ s.Refunded lookup call := by
  have haccounts := step_accounts h call hs'
  have hafter : s'.total < 2 ^ 64 := hsum s' hs'
  have hbefore : s.total < 2 ^ 64 := hexact ▸ s.cache.currentUsage.toNat_lt
  have hreleased := haccounts.released_le
  have htotal := haccounts.total
  have husage := haccounts.toNat_usage
  rw [hexact] at husage
  constructor
  · intro hkeeps
    obtain ⟨hle, hexact', -⟩ := hkeeps s' hs'
    rw [Exact] at hexact hexact'
    rw [Refunded]
    omega
  · intro hrefunded s'' hs''
    obtain rfl := Option.some_injective _ (hs'.symm.trans hs'')
    rw [Refunded] at hrefunded
    have hexact' : s'.Exact := by
      rw [Exact, husage]
      omega
    exact ⟨by rw [hexact, hrefunded]; exact hreleased, hexact', hexact'.eq_zero⟩

/-- **Byte accounting is exact along a run exactly if every call refunds what was charged.** -/
theorem exact_iff_refunded (lookup : σ → UInt64 → UInt64 × σ) (capacity : UInt64) (callback : σ)
    (calls : List Call)
    (hsum : Along (step lookup) (Representable lookup) (start capacity callback) calls) :
    Along (step lookup) (KeepsExact lookup) (start capacity callback) calls ↔
      Along (step lookup) (Refunded lookup) (start capacity callback) calls := by
  have hiff : ∀ (s : UsageRun σ) (call : Call) (s' : UsageRun σ), s.cache.IsLinked ∧ s.Exact →
      s.step lookup call = some s' → s.Representable lookup call →
      (s.KeepsExact lookup call ↔ s.Refunded lookup call) :=
    fun s call s' h hs' hsum => keepsExact_iff h.1 h.2 hs' hsum
  have hstart : (start capacity callback).cache.IsLinked ∧ (start capacity callback).Exact :=
    ⟨Linked.nil, rfl⟩
  refine along_iff_of_assumed _ hiff (fun s call s' h hs' _ hkeeps => ?_) hstart hsum
  exact ⟨(step_accounts h.1 call hs').linked, (hkeeps s' hs').2.1⟩

instance (s : UsageRun σ) (call : Call) : Decidable (s.Refunded lookup call) :=
  inferInstanceAs (Decidable (_ = _))

/-- What can happen after the call can be checked on what does. -/
instance (s : UsageRun σ) (call : Call) : Decidable (s.Representable lookup call) :=
  match h : s.step lookup call with
  | none => isTrue fun _ hs' => nomatch h.symm.trans hs'
  | some s' => decidable_of_iff' (s'.total < 2 ^ 64) (forall_step_iff (step lookup) h _)

/-- A resource of 64 bytes, of which 40 were asked for, is refunded whole. -/
theorem wraps_below_zero :
    (exec (step fun _ _ => (64, ())) (start 100 ()) [.access 1 40, .remove 1]).map
      (fun s => (s.cache.ids, s.total, s.cache.currentUsage)) = some ([], 0, 2 ^ 64 - 24) := by
  decide +kernel

/-- Two resources are evicted for a third one, and reported as they were charged. -/
theorem exact_two_evicted :
    Along (step fun _ id => (id, ())) (KeepsExact fun _ id => (id, ())) (start 10 ())
      [.access 4 4, .access 5 5, .access 6 6, .access 5 5, .remove 5] :=
  (exact_iff_refunded _ 10 () _ (by decide +kernel)).mpr (by decide +kernel)

/-! ## The capacity -/

variable (lookup) in
/-- The callback reports for what goes what it was charged. -/
def Faithful (s : UsageRun σ) (call : Call) : Prop :=
  reports lookup s.cache.callback (s.gone lookup call) = (s.gone lookup call).map s.charged

/-- A request for more than the capacity. -/
def TooLarge (s : UsageRun σ) (call : Call) (resourceId : UInt64) : Prop :=
  ∃ requiredBytes, call = .access resourceId requiredBytes ∧
    requiredBytes > s.cache.capacity

variable (lookup) in
/-- After the call the usage is at most the capacity, and what is too large has not been made
resident. -/
def KeepsBounded (s : UsageRun σ) (call : Call) : Prop :=
  ∀ s', s.step lookup call = some s' →
    s'.cache.currentUsage ≤ s'.cache.capacity ∧
      ∀ resourceId, s.TooLarge call resourceId → resourceId ∉ s.cache.ids →
        resourceId ∉ s'.cache.ids

/-- What is not in the cache is only asked for if it fits into an empty one.  A capacity from
`2 ^ 63` on lets the sum in the loop condition wrap; there what is removed is also to have been
charged no more than the counter shows, or so much more that the counter wraps to at most the
capacity again. -/
def Accepted (s : UsageRun σ) : Call → Prop
  | .access resourceId requiredBytes =>
      resourceId ∈ s.cache.ids ∨ requiredBytes ≤ s.cache.capacity
  | .remove resourceId => 2 ^ 63 ≤ s.cache.capacity.toNat → resourceId ∈ s.cache.ids →
      s.charged resourceId ≤ s.cache.currentUsage ∨
        s.cache.currentUsage.toNat + 2 ^ 64 ≤
          (s.charged resourceId).toNat + s.cache.capacity.toNat

instance (s : UsageRun σ) (call : Call) : Decidable (s.Faithful lookup call) :=
  inferInstanceAs (Decidable (_ = _))

instance (s : UsageRun σ) : ∀ call, Decidable (s.Accepted call)
  | .access _ _ => inferInstanceAs (Decidable (_ ∨ _))
  | .remove _ => inferInstanceAs (Decidable (_ → _))

/-- What is known of the counter, which may have wrapped if the capacity lets it. -/
structure Bounded (s : UsageRun σ) : Prop where
  linked : s.cache.IsLinked
  usage : s.cache.currentUsage.toNat = s.total % 2 ^ 64
  le_capacity : s.cache.currentUsage ≤ s.cache.capacity
  exact : s.cache.capacity.toNat < 2 ^ 63 → s.Exact

/-- With faithful reports the counter is right up to multiples of `2 ^ 64`. -/
theorem Accounts.usage_mod {call : Call} (h : s.Accounts lookup call s')
    (hfaithful : s.Faithful lookup call)
    (husage : s.cache.currentUsage.toNat = s.total % 2 ^ 64) :
    s'.cache.currentUsage.toNat = s'.total % 2 ^ 64 := by
  have hrefunded : s.refunded lookup call = s.released lookup call := congrArg bytes hfaithful
  have hreleased := h.released_le
  have htotal := h.total
  rw [h.toNat_usage, hrefunded, husage]
  omega

/-- An accessed id is resident afterwards, however large the request. -/
theorem mem_of_access (h : s.cache.IsLinked) {resourceId requiredBytes : UInt64}
    (hs' : s.step lookup (.access resourceId requiredBytes) = some s') :
    resourceId ∈ s'.cache.ids := by
  obtain ⟨c', haccess, -, hstep, -⟩ :=
    ITSCacheController.step_accessResource lookup h resourceId requiredBytes
  rw [step, haccess] at hs'
  obtain rfl := Option.some_injective _ hs'
  exact hstep.mem_of_access

/-- Where nothing goes and nothing is added, the counter stays. -/
theorem Accounts.usage_same {call : Call} (h : s.Accounts lookup call s')
    (hgone : s.gone lookup call = []) (hadded : s.added call = 0) :
    s'.cache.currentUsage = s.cache.currentUsage := by
  rw [h.usage, refunded, hgone, hadded]
  exact (add_zero _).trans (sub_zero _)

/-- An access keeps the usage within the capacity unless it asks for too much. -/
theorem keepsBounded_access (h : s.Bounded) {resourceId requiredBytes : UInt64}
    (hs' : s.step lookup (.access resourceId requiredBytes) = some s')
    (hfaithful : s.Faithful lookup (.access resourceId requiredBytes)) :
    s.KeepsBounded lookup (.access resourceId requiredBytes) ↔
      s.Accepted (.access resourceId requiredBytes) := by
  have haccounts := step_accounts h.linked _ hs'
  constructor
  · intro hkeeps
    refine or_iff_not_imp_left.mpr fun hmem => UInt64.not_lt.mp fun hlarge => ?_
    exact (hkeeps s' hs').2 resourceId ⟨requiredBytes, rfl, hlarge⟩ hmem
      (mem_of_access h.linked hs')
  · intro haccepted s'' hs''
    obtain rfl := Option.some_injective _ (hs'.symm.trans hs'')
    rw [haccounts.capacity]
    by_cases hmem : resourceId ∈ s.cache.ids
    · rw [haccounts.usage_same (if_pos hmem) (if_pos hmem)]
      refine ⟨h.le_capacity, ?_⟩
      rintro _ ⟨_, ⟨⟩, -⟩ hnot
      exact absurd hmem hnot
    · have hfits : requiredBytes ≤ s.cache.capacity := haccepted.resolve_left hmem
      refine ⟨?_, ?_⟩
      · rcases haccounts.room ⟨hmem, hfits⟩ with hroom | halone
        · exact hroom
        -- what is left is the new resource alone
        · have husage := haccounts.usage_mod hfaithful h.usage
          have hadded : s.added (.access resourceId requiredBytes) = requiredBytes := if_neg hmem
          rw [halone, hadded, Nat.mod_eq_of_lt requiredBytes.toNat_lt] at husage
          exact (UInt64.toNat_inj.mp husage) ▸ hfits
      · rintro _ ⟨_, ⟨⟩, hlarge⟩
        exact absurd hfits (UInt64.not_le.mpr hlarge)

/-- A removal does unless the counter wraps. -/
theorem keepsBounded_remove (h : s.Bounded) {resourceId : UInt64}
    (hs' : s.step lookup (.remove resourceId) = some s')
    (hfaithful : s.Faithful lookup (.remove resourceId)) :
    s.KeepsBounded lookup (.remove resourceId) ↔ s.Accepted (.remove resourceId) := by
  have haccounts := step_accounts h.linked _ hs'
  have hsmall : s.KeepsBounded lookup (.remove resourceId) ↔
      s'.cache.currentUsage ≤ s.cache.capacity := by
    constructor
    · intro hkeeps
      exact haccounts.capacity ▸ (hkeeps s' hs').1
    · intro hle s'' hs''
      obtain rfl := Option.some_injective _ (hs'.symm.trans hs'')
      refine ⟨haccounts.capacity ▸ hle, ?_⟩
      rintro _ ⟨_, hcall, -⟩
      cases hcall
  rw [hsmall, Accepted]
  by_cases hmem : resourceId ∈ s.cache.ids
  · have hgone : s.gone lookup (.remove resourceId) = [resourceId] := if_pos hmem
    have hrefunded : s.refunded lookup (.remove resourceId) = (s.charged resourceId).toNat := by
      rw [refunded, hfaithful, hgone]
      rfl
    have hreleased := haccounts.released_le
    rw [released, hgone] at hreleased
    change (s.charged resourceId).toNat + 0 ≤ s.total at hreleased
    have hexact : s.cache.capacity.toNat < 2 ^ 63 →
        s.cache.currentUsage.toNat = s.total := h.exact
    have husage := haccounts.toNat_usage
    have hbefore : s.cache.currentUsage.toNat ≤ s.cache.capacity.toNat := h.le_capacity
    have hcharged := (s.charged resourceId).toNat_lt
    have hlt := s.cache.currentUsage.toNat_lt
    have hadded : (s.added (.remove resourceId)).toNat = 0 := rfl
    rw [hrefunded, hadded] at husage
    rw [imp_iff_right hmem, UInt64.le_iff_toNat_le, UInt64.le_iff_toNat_le, husage]
    omega
  · rw [haccounts.usage_same (if_neg hmem) rfl]
    exact iff_of_true h.le_capacity fun _ hin => absurd hin hmem

/-- Where the usage is at most the capacity, a call keeps it so exactly if it is accepted. -/
theorem keepsBounded_iff (h : s.Bounded) {call : Call} (hs' : s.step lookup call = some s')
    (hfaithful : s.Faithful lookup call) : s.KeepsBounded lookup call ↔ s.Accepted call := by
  cases call with
  | access resourceId requiredBytes => exact keepsBounded_access h hs' hfaithful
  | remove resourceId => exact keepsBounded_remove h hs' hfaithful

/-- The usage is 0 at the start. -/
theorem bounded_start (capacity : UInt64) (callback : σ) : (start capacity callback).Bounded where
  linked := Linked.nil
  usage := rfl
  le_capacity := Nat.zero_le capacity.toNat
  exact _ := rfl

/-- What an accepted call adds is not too large. -/
theorem added_le_capacity {call : Call} (h : s.Accepted call) :
    (s.added call).toNat ≤ s.cache.capacity.toNat := by
  cases call with
  | access resourceId requiredBytes =>
      by_cases hmem : resourceId ∈ s.cache.ids
      · rw [added, if_pos hmem]
        exact Nat.zero_le _
      · rw [added, if_neg hmem]
        exact h.resolve_left hmem
  | remove _ => exact Nat.zero_le _

/-- With a small capacity an accepted call cannot make the counter wrap. -/
theorem Bounded.exact_step (h : s.Bounded) {call : Call} (hs' : s.step lookup call = some s')
    (hfaithful : s.Faithful lookup call) (haccepted : s.Accepted call)
    (hcapacity : s.cache.capacity.toNat < 2 ^ 63) : s'.Exact := by
  have haccounts := step_accounts h.linked call hs'
  have hadded := added_le_capacity haccepted
  have hle : s.cache.currentUsage.toNat ≤ s.cache.capacity.toNat := h.le_capacity
  have hexact : s.cache.currentUsage.toNat = s.total := h.exact hcapacity
  have htotal := haccounts.total
  rw [Exact, haccounts.usage_mod hfaithful h.usage]
  exact Nat.mod_eq_of_lt (by omega)

/-- The step lemma. -/
theorem Bounded.step (h : s.Bounded) {call : Call} (hs' : s.step lookup call = some s')
    (hfaithful : s.Faithful lookup call) (hkeeps : s.KeepsBounded lookup call) : s'.Bounded where
  linked := (step_accounts h.linked call hs').linked
  usage := (step_accounts h.linked call hs').usage_mod hfaithful h.usage
  le_capacity := (hkeeps s' hs').1
  exact hcapacity := h.exact_step hs' hfaithful ((keepsBounded_iff h hs' hfaithful).mp hkeeps)
    ((step_accounts h.linked call hs').capacity ▸ hcapacity)

/-- **The usage is at most the capacity along a run exactly if every call is accepted**, if
the callback reports what was charged. -/
theorem bounded_iff_accepted (lookup : σ → UInt64 → UInt64 × σ) (capacity : UInt64) (callback : σ)
    (calls : List Call)
    (hfaithful : Along (step lookup) (Faithful lookup) (start capacity callback) calls) :
    Along (step lookup) (KeepsBounded lookup) (start capacity callback) calls ↔
      Along (step lookup) Accepted (start capacity callback) calls :=
  along_iff_of_assumed _ (fun _ _ _ h hs' hfaithful => keepsBounded_iff h hs' hfaithful)
    (fun _ _ _ h hs' hfaithful hkeeps => h.step hs' hfaithful hkeeps)
    (bounded_start capacity callback) hfaithful

/-- A request for 20 bytes is resident in a cache of 10. -/
theorem oversized_resident :
    ∃ s, exec (step fun _ _ => (20, ())) (start 10 ()) [.access 1 20] = some s ∧
      Along (step fun _ _ => (20, ())) (Faithful fun _ _ => (20, ())) (start 10 ())
        [.access 1 20] ∧
      1 ∈ s.cache.ids ∧ s.cache.capacity < s.cache.currentUsage :=
  ⟨_, rfl, by decide +kernel, by decide, by decide⟩

/-- The same calls stay within the capacity. -/
theorem bounded_two_evicted :
    Along (step fun _ id => (id, ())) (KeepsBounded fun _ id => (id, ())) (start 10 ())
      [.access 4 4, .access 5 5, .access 6 6, .access 5 5, .remove 5] :=
  (bounded_iff_accepted _ 10 () _ (by decide +kernel)).mpr (by decide +kernel)

/-! ### Capacities that no sum can wrap -/

/-- What is not in the cache is only asked for if it fits into an empty one. -/
def Fits (s : UsageRun σ) : Call → Prop
  | .access resourceId requiredBytes =>
      resourceId ∈ s.cache.ids ∨ requiredBytes ≤ s.cache.capacity
  | .remove _ => True

/-- Capacities for which no sum wraps. -/
structure Small (s : UsageRun σ) : Prop where
  bounded : s.Bounded
  capacity_lt : s.cache.capacity.toNat < 2 ^ 63

/-- For those, the condition is about the bytes that are asked for. -/
theorem accepted_iff_fits (hcapacity : s.cache.capacity.toNat < 2 ^ 63) (call : Call) :
    s.Accepted call ↔ s.Fits call := by
  cases call with
  | access resourceId requiredBytes => exact Iff.rfl
  | remove resourceId => exact iff_of_true (fun hle => absurd hcapacity hle.not_gt) trivial

/-- **Below `2 ^ 63` only requests matter that do not fit.** -/
theorem bounded_iff_fits (lookup : σ → UInt64 → UInt64 × σ) {capacity : UInt64}
    (hcapacity : capacity.toNat < 2 ^ 63) (callback : σ) (calls : List Call)
    (hfaithful : Along (step lookup) (Faithful lookup) (start capacity callback) calls) :
    Along (step lookup) (KeepsBounded lookup) (start capacity callback) calls ↔
      Along (step lookup) Fits (start capacity callback) calls :=
  along_iff_of_assumed _
    (fun _ call _ h hs' hfaithful =>
      (keepsBounded_iff h.bounded hs' hfaithful).trans (accepted_iff_fits h.capacity_lt call))
    (fun _ call _ h hs' hfaithful hkeeps => Small.mk (h.bounded.step hs' hfaithful hkeeps)
      ((step_accounts h.bounded.linked call hs').capacity ▸ h.capacity_lt))
    (Small.mk (bounded_start capacity callback) hcapacity) hfaithful

end UsageRun

end Synapse.Its
