import Synapse.Foundations.LruOrder
import Synapse.Foundations.Runs

/-!
# `ITSCacheController`

The cache of `its_cache_controller.h`: a list of nodes and a map from ids to nodes, which
three functions edit together.

`Linked` says that the two agree, and every operation keeps it.  Under it the list of ids
does what an LRU cache does (`step_accessResource`, `step_removeResource`), whatever the
sizes are that the callback reports: they only decide how long the evicted suffix is.

### A list, a map, and iterators

The source keeps an iterator into the list in its map.  In the model a node has an identity
(`Node.node`) and the map leads from an id to an identity, so an entry whose node is gone
would be as possible as it is in the source; that there is none is the invariant (`Linked`)
and not a matter of types.  Evicting takes the last node and erases its entry, and the size
that it gives back is what the callback says at that moment, not what was charged for it.

The counters of bytes are words that wrap.  So the two views are kept apart: which ids are
evicted, in which order, and how many, is `Serves`, without any arithmetic, and how the usage
moves is a matter of the sums modulo 2^64 (`Refunds`).  That the evicted suffix is the
shortest that makes room needs the sums, and is said of those that do not wrap.
-/

namespace Synapse.Its

open LruOrder Runs

/-- A node of `lru_list_`.  An iterator is the number of its node. -/
structure Node where
  node : ℕ
  id : UInt64
  deriving DecidableEq

/-- The cache.  `callback` is the state of the size callback and `nextNode` the number of
the next node. -/
structure ITSCacheController (σ : Type*) where
  capacity : UInt64
  currentUsage : UInt64
  lruList : List Node
  lruMap : UInt64 → Option ℕ
  nextNode : ℕ
  hits : UInt64
  misses : UInt64
  callback : σ

namespace ITSCacheController

variable {σ : Type*} (lookup : σ → UInt64 → UInt64 × σ) (c : ITSCacheController σ)

/-- The ids in the list, most recent first. -/
def ids : List UInt64 := c.lruList.map Node.id

/-- An empty cache of a capacity. -/
def create (capacity : UInt64) (callback : σ) : ITSCacheController σ where
  capacity := capacity
  currentUsage := 0
  lruList := []
  lruMap _ := none
  nextNode := 0
  hits := 0
  misses := 0
  callback := callback

/-- `lru_list_.erase(it)`; the iterator has to denote a node of the list. -/
def eraseNode (it : ℕ) : Option (ITSCacheController σ) :=
  if it ∈ c.lruList.map Node.node then
    some { c with lruList := c.lruList.filter fun n => n.node ≠ it }
  else none

/-- `lru_list_.push_front(id); lru_map_[id] = lru_list_.begin();`. -/
def pushFront (id : UInt64) : ITSCacheController σ :=
  { c with
    lruList := ⟨c.nextNode, id⟩ :: c.lruList
    lruMap := Function.update c.lruMap id (some c.nextNode)
    nextNode := c.nextNode + 1 }

/-- The body of the eviction loop. -/
def evictBack (last : Node) : ITSCacheController σ :=
  let evictSize := lookup c.callback last.id
  { c with
    currentUsage := c.currentUsage - evictSize.1
    lruMap := Function.update c.lruMap last.id none
    lruList := c.lruList.dropLast
    callback := evictSize.2 }

/-- The eviction loop: it ends, as every round takes a node from the list. -/
def evictWhile (requiredBytes : UInt64) (c : ITSCacheController σ) : ITSCacheController σ :=
  if c.currentUsage + requiredBytes > c.capacity then
    match _hlast : c.lruList.getLast? with
    | some last => evictWhile requiredBytes (c.evictBack lookup last)
    | none => c
  else c
termination_by c.lruList.length
decreasing_by
  have hpos : c.lruList ≠ [] := fun hnil => by simp [hnil] at _hlast
  change c.lruList.dropLast.length < c.lruList.length
  rw [List.length_dropLast]
  exact Nat.sub_lt (List.length_pos_iff.mpr hpos) Nat.one_pos

/-- `ensure_capacity_locked`, which gives up on what is larger than the whole cache. -/
def ensureCapacityLocked (requiredBytes : UInt64) : ITSCacheController σ :=
  if requiredBytes > c.capacity then c else c.evictWhile lookup requiredBytes

/-- `access_resource`: the answer and the cache after it, unless an iterator is invalid. -/
def accessResource (resourceId requiredBytes : UInt64) : Option (Bool × ITSCacheController σ) :=
  match c.lruMap resourceId with
  | some it =>
      (c.eraseNode it).map fun c =>
        (true, { c.pushFront resourceId with hits := c.hits + 1 })
  | none =>
      let c := { c with misses := c.misses + 1 }
      -- what does not fit at all is put in front all the same
      let c := (c.ensureCapacityLocked lookup requiredBytes).pushFront resourceId
      some (false, { c with currentUsage := c.currentUsage + requiredBytes })

/-- `remove_resource`. -/
def removeResource (resourceId : UInt64) : Option (ITSCacheController σ) :=
  match c.lruMap resourceId with
  | some it =>
      let freedBytes := lookup c.callback resourceId
      let c := { c with currentUsage := c.currentUsage - freedBytes.1, callback := freedBytes.2 }
      (c.eraseNode it).map fun c =>
        { c with lruMap := Function.update c.lruMap resourceId none }
  | none => some c

end ITSCacheController

/-! ## The list and the map -/

/-- The map has an iterator for each node under the node's id, and no others, and the
nodes have different numbers below the next one. -/
structure Linked (lruList : List Node) (lruMap : UInt64 → Option ℕ) (nextNode : ℕ) : Prop where
  map_iff : ∀ id it, lruMap id = some it ↔ ⟨it, id⟩ ∈ lruList
  nodup_nodes : (lruList.map Node.node).Nodup
  nodup_ids : (lruList.map Node.id).Nodup
  lt_next : ∀ n ∈ lruList, n.node < nextNode

namespace Linked

variable {lruList lruList' : List Node} {lruMap : UInt64 → Option ℕ} {nextNode : ℕ}

/-- An empty list and an empty map. -/
theorem nil : Linked [] (fun _ => none) 0 where
  map_iff _ _ := iff_of_false nofun List.not_mem_nil
  nodup_nodes := List.nodup_nil
  nodup_ids := List.nodup_nil
  lt_next := nofun

/-- Nodes of one id are one node. -/
theorem eq_of_id (h : Linked lruList lruMap nextNode) {n m : Node} (hn : n ∈ lruList)
    (hm : m ∈ lruList) (hid : n.id = m.id) : n = m :=
  List.inj_on_of_nodup_map h.nodup_ids hn hm hid

/-- A node's identity is its own. -/
theorem eq_of_node (h : Linked lruList lruMap nextNode) {n m : Node} (hn : n ∈ lruList)
    (hm : m ∈ lruList) (hnode : n.node = m.node) : n = m :=
  List.inj_on_of_nodup_map h.nodup_nodes hn hm hnode

/-- An id is in the map exactly if it is in the list. -/
theorem mem_ids_iff (h : Linked lruList lruMap nextNode) (id : UInt64) :
    id ∈ lruList.map Node.id ↔ ∃ it, lruMap id = some it := by
  rw [List.mem_map]
  constructor
  · rintro ⟨n, hn, rfl⟩
    exact ⟨n.node, (h.map_iff n.id n.node).mpr hn⟩
  · rintro ⟨it, hit⟩
    exact ⟨⟨it, id⟩, (h.map_iff id it).mp hit, rfl⟩

/-- An id without an entry is not in the list. -/
theorem not_mem_ids (h : Linked lruList lruMap nextNode) {id : UInt64} (hid : lruMap id = none) :
    id ∉ lruList.map Node.id := fun hmem => by
  obtain ⟨it, hit⟩ := (h.mem_ids_iff id).mp hmem
  rw [hid] at hit
  cases hit

/-- A node less, in the list and in the map. -/
theorem without (h : Linked lruList lruMap nextNode) {n : Node} (hn : n ∈ lruList)
    (hsub : lruList'.Sublist lruList) (hmem : ∀ m, m ∈ lruList' ↔ m ∈ lruList ∧ m ≠ n) :
    Linked lruList' (Function.update lruMap n.id none) nextNode where
  map_iff id it := by
    rw [hmem, ← h.map_iff, Function.update_apply]
    split
    · rename_i hid
      refine iff_of_false nofun fun ⟨hit, hne⟩ => hne ?_
      exact h.eq_of_id ((h.map_iff id it).mp hit) hn hid
    · rename_i hid
      refine (and_iff_left ?_).symm
      rintro rfl
      exact hid rfl
  nodup_nodes := h.nodup_nodes.sublist (hsub.map _)
  nodup_ids := h.nodup_ids.sublist (hsub.map _)
  lt_next m hm := h.lt_next m (hsub.subset hm)

/-- A new node for an id that is not in the list. -/
theorem push (h : Linked lruList lruMap nextNode) {id : UInt64}
    (hid : id ∉ lruList.map Node.id) :
    Linked (⟨nextNode, id⟩ :: lruList) (Function.update lruMap id (some nextNode))
      (nextNode + 1) where
  map_iff id' it := by
    rw [List.mem_cons, Function.update_apply, Node.mk.injEq, ← h.map_iff]
    split
    · rename_i heq
      subst heq
      have hnone : lruMap id' ≠ some it := fun hit => hid ((h.mem_ids_iff id').mpr ⟨it, hit⟩)
      rw [Option.some.injEq, eq_comm, and_iff_left rfl, or_iff_left hnone]
    · rename_i hne
      simp only [hne, and_false, false_or]
  nodup_nodes := by
    refine List.nodup_cons.mpr ⟨fun hmem => ?_, h.nodup_nodes⟩
    obtain ⟨n, hn, hnode⟩ := List.mem_map.mp hmem
    exact absurd (h.lt_next n hn) (hnode ▸ lt_irrefl _)
  nodup_ids := List.nodup_cons.mpr ⟨hid, h.nodup_ids⟩
  lt_next n hn := by
    rcases List.mem_cons.mp hn with rfl | hmem
    · exact Nat.lt_succ_self nextNode
    · exact (h.lt_next n hmem).trans (Nat.lt_succ_self nextNode)

end Linked

/-! ## Eviction -/

namespace ITSCacheController

variable {σ : Type*} (lookup : σ → UInt64 → UInt64 × σ) {c c' : ITSCacheController σ}

/-- The cache has its list and its map linked. -/
def IsLinked (c : ITSCacheController σ) : Prop := Linked c.lruList c.lruMap c.nextNode

variable (c c') in
/-- From one cache to the other a suffix of the list has been evicted. -/
structure Evicted : Prop where
  linked : c'.IsLinked
  front : c'.ids <+: c.ids
  hits : c'.hits = c.hits
  misses : c'.misses = c.misses

/-- Nothing evicted. -/
theorem Evicted.refl (h : c.IsLinked) : c.Evicted c := ⟨h, List.prefix_rfl, rfl, rfl⟩

/-- Evicting goes on. -/
theorem Evicted.trans {c'' : ITSCacheController σ} (h : c.Evicted c') (h' : c'.Evicted c'') :
    c.Evicted c'' where
  linked := h'.linked
  front := h'.front.trans h.front
  hits := h'.hits.trans h.hits
  misses := h'.misses.trans h.misses

/-- The last node leaves the list and the map. -/
theorem evicted_evictBack (h : c.IsLinked) {last : Node} (hlast : c.lruList.getLast? = some last) :
    c.Evicted (c.evictBack lookup last) := by
  obtain ⟨front, hfront⟩ := List.getLast?_eq_some_iff.mp hlast
  have hnodup : c.lruList.Nodup := List.Nodup.of_map _ h.nodup_ids
  rw [hfront, List.nodup_append_comm, List.singleton_append, List.nodup_cons] at hnodup
  have hdrop : c.lruList.dropLast = front := by rw [hfront, List.dropLast_concat]
  refine ⟨h.without (hfront ▸ List.mem_concat_self) (List.dropLast_sublist _) fun m => ?_, ?_,
    rfl, rfl⟩
  · change m ∈ c.lruList.dropLast ↔ _
    rw [hdrop, hfront, List.mem_append, List.mem_singleton]
    constructor
    · intro hm
      exact ⟨Or.inl hm, fun heq => hnodup.1 (heq ▸ hm)⟩
    · rintro ⟨hm | hm, hne⟩
      · exact hm
      · exact absurd hm hne
  · exact (List.dropLast_prefix c.lruList).map Node.id

/-- The loop evicts, whatever sizes are reported. -/
theorem evicted_evictWhile (requiredBytes : UInt64) (c : ITSCacheController σ) (h : c.IsLinked) :
    c.Evicted (c.evictWhile lookup requiredBytes) := by
  fun_induction evictWhile lookup requiredBytes c with
  | case1 c hover last hlast ih =>
      have hback := evicted_evictBack lookup h hlast
      exact hback.trans (ih hback.linked)
  | case2 c hover hlast => exact .refl h
  | case3 c hfits => exact .refl h

/-- However many nodes are evicted, what is left is a front part, linked. -/
theorem evicted_ensureCapacityLocked (h : c.IsLinked) (requiredBytes : UInt64) :
    c.Evicted (c.ensureCapacityLocked lookup requiredBytes) := by
  unfold ensureCapacityLocked
  split
  · exact .refl h
  · exact evicted_evictWhile lookup requiredBytes c h

/-! ## The three functions -/

/-- A new id goes in front. -/
theorem IsLinked.pushFront (h : c.IsLinked) {id : UInt64} (hid : id ∉ c.ids) :
    (c.pushFront id).IsLinked := h.push hid

/-- Erasing at a stored iterator succeeds, and takes the id out of the list. -/
theorem IsLinked.eraseNode (h : c.IsLinked) {id : UInt64} {it : ℕ} (hit : c.lruMap id = some it) :
    ∃ lruList, c.eraseNode it = some { c with lruList := lruList } ∧
      Linked lruList (Function.update c.lruMap id none) c.nextNode ∧
      lruList.map Node.id = c.ids.erase id := by
  have hn : ⟨it, id⟩ ∈ c.lruList := (h.map_iff id it).mp hit
  refine ⟨_, if_pos (List.mem_map_of_mem hn), h.without hn List.filter_sublist fun m => ?_, ?_⟩
  · rw [List.mem_filter, decide_eq_true_iff]
    refine and_congr_right fun hm => not_congr ⟨fun hnode => h.eq_of_node hm hn hnode, ?_⟩
    rintro rfl
    rfl
  · rw [ids, h.nodup_ids.erase_eq_filter, List.filter_map]
    refine congrArg (List.map Node.id) (List.filter_congr fun m hm => ?_)
    -- on the list, the number and the id of a node say the same
    have hsame : m.node = it ↔ m.id = id :=
      ⟨fun hnode => congrArg Node.id (h.eq_of_node hm hn hnode),
        fun hid => congrArg Node.node (h.eq_of_id hm hn hid)⟩
    rw [Function.comp_apply, decide_not, decide_eq_decide.mpr hsame]
    rfl

/-- The answer is counted. -/
def Counted (c c' : ITSCacheController σ) (hit : Bool) : Prop :=
  c'.hits = (if hit then c.hits + 1 else c.hits) ∧
    c'.misses = if hit then c.misses else c.misses + 1

/-- **An access** answers whether the id is in the list, and does to the list what an LRU
cache does. -/
theorem step_accessResource (h : c.IsLinked) (resourceId requiredBytes : UInt64) :
    ∃ c', c.accessResource lookup resourceId requiredBytes =
        some (decide (resourceId ∈ c.ids), c') ∧
      c'.IsLinked ∧ Step (.access resourceId) c.ids c'.ids ∧
      Counted c c' (decide (resourceId ∈ c.ids)) := by
  unfold accessResource
  cases hit : c.lruMap resourceId with
  | some it =>
      have hmem : resourceId ∈ c.ids := (h.mem_ids_iff resourceId).mpr ⟨it, hit⟩
      obtain ⟨lruList, herase, hlinked, hids⟩ := h.eraseNode hit
      -- the old node is gone before the new one is linked
      have hnot : resourceId ∉ lruList.map Node.id := hids ▸ h.nodup_ids.not_mem_erase
      have hpush := hlinked.push hnot
      rw [Function.update_idem] at hpush
      have hstep : Step (.access resourceId) c.ids (resourceId :: lruList.map Node.id) :=
        hids ▸ .hit hmem
      rw [decide_eq_true hmem]
      simp only [herase, Option.map_some]
      exact ⟨_, rfl, hpush, hstep, rfl, rfl⟩
  | none =>
      have hmem : resourceId ∉ c.ids := h.not_mem_ids hit
      have hevicted := evicted_ensureCapacityLocked lookup (c := { c with misses := c.misses + 1 })
        h requiredBytes
      obtain ⟨evicted, hids⟩ := hevicted.front
      rw [decide_eq_false hmem]
      refine ⟨_, rfl, hevicted.linked.pushFront fun hnew => hmem ?_, ?_, hevicted.hits,
        hevicted.misses⟩
      · exact hevicted.front.subset hnew
      · change Step _ (ids { c with misses := c.misses + 1 }) _
        rw [← hids]
        refine .miss fun hmem' => hmem ?_
        rw [hids] at hmem'
        exact hmem'

/-- **A removal** takes the id out of the list. -/
theorem step_removeResource (h : c.IsLinked) (resourceId : UInt64) :
    ∃ c', c.removeResource lookup resourceId = some c' ∧ c'.IsLinked ∧
      Step (.remove resourceId) c.ids c'.ids ∧ c'.hits = c.hits ∧ c'.misses = c.misses := by
  unfold removeResource
  cases hit : c.lruMap resourceId with
  | some it =>
      obtain ⟨lruList, herase, hlinked, hids⟩ := IsLinked.eraseNode (c := { c with
        currentUsage := c.currentUsage - (lookup c.callback resourceId).1
        callback := (lookup c.callback resourceId).2 }) h hit
      have hstep : Step (.remove resourceId) c.ids (lruList.map Node.id) := hids ▸ .remove
      simp only [herase, Option.map_some]
      exact ⟨_, rfl, hlinked, hstep, rfl, rfl⟩
  | none =>
      have hsame : c.ids.erase resourceId = c.ids := List.erase_of_not_mem (h.not_mem_ids hit)
      have hstep : Step (.remove resourceId) c.ids (c.ids.erase resourceId) := .remove
      rw [hsame] at hstep
      exact ⟨c, rfl, h, hstep, rfl, rfl⟩

end ITSCacheController

/-! ## Asking for sizes -/

section Reports

variable {σ : Type*} (lookup : σ → UInt64 → UInt64 × σ)

/-- What the callback reports for one id after the other. -/
def reports : σ → List UInt64 → List UInt64
  | _, [] => []
  | callback, id :: ids =>
      (lookup callback id).1 :: reports (lookup callback id).2 ids

/-- The ids that go for `requiredBytes`, of a list with the least recent first: one after the
other, until by what is reported there is room. -/
def leaving (capacity requiredBytes : UInt64) : UInt64 → σ → List UInt64 → List UInt64
  | _, _, [] => []
  | usage, callback, id :: ids =>
      if usage + requiredBytes > capacity then
        id :: leaving capacity requiredBytes (usage - (lookup callback id).1)
          (lookup callback id).2 ids
      else []

end Reports

/-- The sum of some numbers of bytes. -/
def bytes (sizes : List UInt64) : ℕ := (sizes.map UInt64.toNat).sum

/-- The sum of sizes, as numbers that do not wrap. -/
theorem bytes_cons (size : UInt64) (sizes : List UInt64) :
    bytes (size :: sizes) = size.toNat + bytes sizes := List.sum_cons

/-- Sizes in two parts. -/
theorem bytes_append (sizes sizes' : List UInt64) :
    bytes (sizes ++ sizes') = bytes sizes + bytes sizes' := by
  rw [bytes, List.map_append, List.sum_append]
  rfl

/-- Their order does not matter. -/
theorem bytes_perm {sizes sizes' : List UInt64} (h : sizes.Perm sizes') :
    bytes sizes = bytes sizes' := (h.map UInt64.toNat).sum_eq

/-- Nor whether they are read from the back. -/
theorem bytes_reverse (sizes : List UInt64) : bytes sizes.reverse = bytes sizes :=
  bytes_perm sizes.reverse_perm

/-! ## Eviction -/

namespace ITSCacheController

variable {σ : Type*} (lookup : σ → UInt64 → UInt64 × σ)

/-- The usage that the counter shows after the ids in `gone` have been refunded. -/
def usageWithout (c : ITSCacheController σ) (gone : List UInt64) : UInt64 :=
  c.currentUsage - UInt64.ofNat (bytes (reports lookup c.callback gone))

/-- By what is reported there is no room for `requiredBytes` before all ids in `gone` have
been refunded, and then there is, or nothing is left. -/
structure ShortestFor (c : ITSCacheController σ) (requiredBytes : UInt64) (gone : List UInt64) :
    Prop where
  needed : ∀ front, front <+: gone → front ≠ gone →
    c.capacity < c.usageWithout lookup front + requiredBytes
  enough : c.usageWithout lookup gone + requiredBytes ≤ c.capacity ∨ gone = c.ids.reverse

/-- From one cache to the other the ids in `gone` have been evicted and refunded. -/
structure Refunds (c c' : ITSCacheController σ) (gone : List UInt64) : Prop where
  ids : c.ids = c'.ids ++ gone.reverse
  usage : c'.currentUsage =
    c.currentUsage - UInt64.ofNat (bytes (reports lookup c.callback gone))
  capacity : c'.capacity = c.capacity

/-- The ids that go before `requiredBytes` are added. -/
def leavingFor (c : ITSCacheController σ) (requiredBytes : UInt64) : List UInt64 :=
  leaving lookup c.capacity requiredBytes c.currentUsage c.callback c.ids.reverse

/-- **No more goes than has to.** -/
theorem shortestFor_leavingFor (c : ITSCacheController σ) (requiredBytes : UInt64) :
    c.ShortestFor lookup requiredBytes (c.leavingFor lookup requiredBytes) := by
  have hrest : ∀ (ids : List UInt64) (usage : UInt64) (callback : σ),
      let gone := leaving lookup c.capacity requiredBytes usage callback ids
      (∀ front, front <+: gone → front ≠ gone → c.capacity <
        usage - UInt64.ofNat (bytes (reports lookup callback front)) + requiredBytes) ∧
      (usage - UInt64.ofNat (bytes (reports lookup callback gone)) + requiredBytes ≤ c.capacity ∨
        gone = ids) := by
    intro ids
    induction ids with
    | nil => exact fun _ _ => ⟨fun front hfront hne => absurd (List.prefix_nil.mp hfront) hne,
        Or.inr rfl⟩
    | cons id ids ih =>
        intro usage callback
        have hrefund : ∀ front, usage - UInt64.ofNat (bytes (reports lookup callback
            (id :: front))) = usage - (lookup callback id).1 -
              UInt64.ofNat (bytes (reports lookup (lookup callback id).2 front)) := by
          intro front
          rw [reports, bytes_cons, UInt64.ofNat_add, UInt64.ofNat_toNat, sub_sub]
        rw [leaving]
        split
        · rename_i hover
          obtain ⟨hneeded, henough⟩ := ih (usage - (lookup callback id).1) (lookup callback id).2
          refine ⟨fun front hfront hne => ?_, ?_⟩
          · cases front with
            | nil =>
                change c.capacity < usage - 0 + requiredBytes
                rwa [sub_zero]
            | cons id' front =>
                obtain ⟨rfl, hfront⟩ := List.cons_prefix_cons.mp hfront
                rw [hrefund]
                exact hneeded front hfront fun heq => hne (congrArg _ heq)
          · rw [hrefund]
            exact henough.imp_right fun heq => congrArg _ heq
        · rename_i hfits
          refine ⟨fun front hfront hne => absurd (List.prefix_nil.mp hfront) hne, Or.inl ?_⟩
          change usage - 0 + requiredBytes ≤ c.capacity
          rw [sub_zero]
          exact UInt64.not_lt.mp hfits
  obtain ⟨hneeded, henough⟩ := hrest c.ids.reverse c.currentUsage c.callback
  exact ⟨hneeded, henough⟩

/-- Nothing evicted, nothing refunded. -/
theorem refunds_nil (c : ITSCacheController σ) : c.Refunds lookup c [] where
  ids := (List.append_nil _).symm
  usage := (sub_zero c.currentUsage).symm
  capacity := rfl

/-- The last id is the one that goes. -/
theorem ids_evictBack {c : ITSCacheController σ} {last : Node}
    (hlast : c.lruList.getLast? = some last) :
    c.ids = (c.evictBack lookup last).ids ++ [last.id] := by
  obtain ⟨front, hfront⟩ := List.getLast?_eq_some_iff.mp hlast
  change c.lruList.map Node.id = c.lruList.dropLast.map Node.id ++ [last.id]
  rw [hfront, List.dropLast_concat, List.map_append]
  rfl

/-- **The loop** evicts and refunds what has to go. -/
theorem refunds_evictWhile (requiredBytes : UInt64) (c : ITSCacheController σ) :
    c.Refunds lookup (c.evictWhile lookup requiredBytes) (c.leavingFor lookup requiredBytes) := by
  fun_induction evictWhile lookup requiredBytes c with
  | case1 c hover last hlast ih =>
      have hids := ids_evictBack lookup hlast
      have hleaving : c.leavingFor lookup requiredBytes =
          last.id :: (c.evictBack lookup last).leavingFor lookup requiredBytes := by
        rw [leavingFor, hids, List.reverse_append, List.reverse_singleton, List.singleton_append,
          leaving, if_pos hover]
        rfl
      rw [hleaving]
      refine ⟨?_, ?_, ih.capacity⟩
      · rw [hids, ih.ids, List.reverse_cons, List.append_assoc]
      · rw [ih.usage, reports, bytes_cons, UInt64.ofNat_add, UInt64.ofNat_toNat, ← sub_sub]
        rfl
  | case2 c hover hlast =>
      have hids : c.ids = [] := by rw [ids, List.getLast?_eq_none_iff.mp hlast]; rfl
      rw [leavingFor, hids]
      exact refunds_nil lookup c
  | case3 c hfits =>
      have hleaving : c.leavingFor lookup requiredBytes = [] := by
        unfold leavingFor
        cases c.ids.reverse with
        | nil => rfl
        | cons id rest => rw [leaving, if_neg hfits]
      rw [hleaving]
      exact refunds_nil lookup c

/-- The loop ends with enough room, or with nothing in the cache. -/
theorem evictWhile_room (requiredBytes : UInt64) (c : ITSCacheController σ) :
    (c.evictWhile lookup requiredBytes).currentUsage + requiredBytes ≤ c.capacity ∨
      (c.evictWhile lookup requiredBytes).ids = [] := by
  fun_induction evictWhile lookup requiredBytes c with
  | case1 c hover last hlast ih => exact ih
  | case2 c hover hlast => exact Or.inr (by rw [ids, List.getLast?_eq_none_iff.mp hlast]; rfl)
  | case3 c hfits => exact Or.inl (UInt64.not_lt.mp hfits)

/-- Nothing goes for what is too large. -/
theorem refunds_ensureCapacityLocked (requiredBytes : UInt64) (c : ITSCacheController σ) :
    c.Refunds lookup (c.ensureCapacityLocked lookup requiredBytes)
      (if requiredBytes > c.capacity then [] else c.leavingFor lookup requiredBytes) := by
  unfold ensureCapacityLocked
  split
  · exact refunds_nil lookup c
  · exact refunds_evictWhile lookup requiredBytes c

/-- **A miss**: what has to go goes, and the new id is put in front. -/
theorem accessResource_miss {c : ITSCacheController σ} (h : c.IsLinked) {resourceId : UInt64}
    (hmem : resourceId ∉ c.ids) (requiredBytes : UInt64) :
    ∃ kept : ITSCacheController σ,
      kept = ({ c with misses := c.misses + 1 } : ITSCacheController σ).ensureCapacityLocked
        lookup requiredBytes ∧
      c.Refunds lookup kept
        (if requiredBytes > c.capacity then [] else c.leavingFor lookup requiredBytes) ∧
      c.accessResource lookup resourceId requiredBytes = some (false,
        { kept.pushFront resourceId with currentUsage := kept.currentUsage + requiredBytes }) := by
  have hmiss : c.lruMap resourceId = none :=
    Option.eq_none_iff_forall_ne_some.mpr fun it hit =>
      hmem ((h.mem_ids_iff resourceId).mpr ⟨it, hit⟩)
  have hspent := refunds_ensureCapacityLocked lookup requiredBytes
    { c with misses := c.misses + 1 }
  refine ⟨_, rfl, ⟨hspent.ids, hspent.usage, hspent.capacity⟩, ?_⟩
  rw [accessResource, hmiss]
  rfl

/-- Afterwards there is room, or nothing is left to evict. -/
theorem ensureCapacityLocked_room {requiredBytes : UInt64} {c : ITSCacheController σ}
    (h : requiredBytes ≤ c.capacity) :
    (c.ensureCapacityLocked lookup requiredBytes).currentUsage + requiredBytes ≤ c.capacity ∨
      (c.ensureCapacityLocked lookup requiredBytes).ids = [] := by
  rw [ensureCapacityLocked, if_neg (UInt64.not_lt.mpr h)]
  exact evictWhile_room lookup requiredBytes c

end ITSCacheController

/-! ## Runs -/

/-- An access or a removal. -/
inductive Call where
  | access (resourceId requiredBytes : UInt64)
  | remove (resourceId : UInt64)

/-- The operation on the list. -/
def Call.op : Call → Op UInt64
  | .access resourceId _ => .access resourceId
  | .remove resourceId => .remove resourceId

/-- The cache, the answers of `access_resource`, and when each id was accessed last. -/
structure CacheRun (σ : Type*) where
  cache : ITSCacheController σ
  answers : List Bool
  lastAccess : UInt64 → ℕ
  now : ℕ

namespace CacheRun

variable {σ : Type*} (lookup : σ → UInt64 → UInt64 × σ)

/-- The run before any call. -/
def start (capacity : UInt64) (callback : σ) : CacheRun σ where
  cache := .create capacity callback
  answers := []
  lastAccess _ := 0
  now := 0

/-- One call, with its answer. -/
def step (s : CacheRun σ) (call : Call) : Option (CacheRun σ) :=
  let lastAccess := stampAfter s.lastAccess s.now call.op
  match call with
  | .access resourceId requiredBytes =>
      (s.cache.accessResource lookup resourceId requiredBytes).map fun r => {
        cache := r.2
        answers := s.answers ++ [r.1]
        lastAccess := lastAccess
        now := s.now + 1 }
  | .remove resourceId =>
      (s.cache.removeResource lookup resourceId).map fun c => { s with
        cache := c
        lastAccess := lastAccess
        now := s.now + 1 }

/-- What holds of an LRU cache after any calls: list and map agree, the list is ordered by
the last accesses, and the counters count the answers. -/
structure IsLru (s : CacheRun σ) : Prop where
  linked : s.cache.IsLinked
  recentFirst : RecentFirst s.lastAccess s.now s.cache.ids
  hits : s.cache.hits = UInt64.ofNat (s.answers.count true)
  misses : s.cache.misses = UInt64.ofNat (s.answers.count false)
  accesses : s.cache.hits + s.cache.misses = UInt64.ofNat s.answers.length

/-- What a call of an LRU cache does.  An access answers whether the id is there, the list
changes as the list of an LRU cache, and what an access evicts was accessed less recently
than what stays.  A miss evicts no more than has to go, and nothing for what does not fit
into an empty cache. -/
def Serves (s : CacheRun σ) (call : Call) : Prop :=
  ∀ s', s.step lookup call = some s' →
    Step call.op s.cache.ids s'.cache.ids ∧
      (s'.answers = s.answers ++
        match call with
        | .access resourceId _ => [decide (resourceId ∈ s.cache.ids)]
        | .remove _ => []) ∧
      (∀ resourceId, call.op = .access resourceId → ∀ b ∈ s.cache.ids, b ∉ s'.cache.ids →
        ∀ a ∈ s'.cache.ids, a ≠ resourceId → s.lastAccess b < s.lastAccess a) ∧
      ∀ resourceId requiredBytes, call = .access resourceId requiredBytes →
        resourceId ∉ s.cache.ids → ∃ kept gone, s'.cache.ids = resourceId :: kept ∧
          s.cache.ids = kept ++ gone.reverse ∧
          if requiredBytes > s.cache.capacity then gone = []
          else s.cache.ShortestFor lookup requiredBytes gone

variable {s : CacheRun σ}

/-- The two counters together count all answers. -/
theorem isLru_of_counters (hlinked : s.cache.IsLinked)
    (hrecent : RecentFirst s.lastAccess s.now s.cache.ids)
    (hhits : s.cache.hits = UInt64.ofNat (s.answers.count true))
    (hmisses : s.cache.misses = UInt64.ofNat (s.answers.count false)) : s.IsLru := by
  refine ⟨hlinked, hrecent, hhits, hmisses, ?_⟩
  rw [hhits, hmisses, ← UInt64.ofNat_add, List.count_true_add_count_false]

/-- An empty cache is an LRU cache of no ids. -/
theorem isLru_start (capacity : UInt64) (callback : σ) : (start capacity callback).IsLru :=
  isLru_of_counters .nil (.nil 0) rfl rfl

/-- The counters count one more answer. -/
theorem counters_append {c c' : ITSCacheController σ} {hit : Bool} {answers : List Bool}
    (h : c.Counted c' hit) (hhits : c.hits = UInt64.ofNat (answers.count true))
    (hmisses : c.misses = UInt64.ofNat (answers.count false)) :
    c'.hits = UInt64.ofNat ((answers ++ [hit]).count true) ∧
      c'.misses = UInt64.ofNat ((answers ++ [hit]).count false) := by
  obtain ⟨hhits', hmisses'⟩ := h
  rw [hhits', hmisses', List.count_append, List.count_append, hhits, hmisses]
  cases hit with
  | true => exact ⟨(UInt64.ofNat_add _ _).symm, rfl⟩
  | false => exact ⟨rfl, (UInt64.ofNat_add _ _).symm⟩

/-- One call. -/
theorem IsLru.step (h : s.IsLru) (call : Call) :
    s.Serves lookup call ∧ ∃ s', s.step lookup call = some s' ∧ s'.IsLru := by
  cases call with
  | access resourceId requiredBytes =>
      obtain ⟨c', haccess, hlinked, hstep, hcounted⟩ :=
        ITSCacheController.step_accessResource lookup h.linked resourceId requiredBytes
      have hs : s.step lookup (.access resourceId requiredBytes) = some {
          cache := c'
          answers := s.answers ++ [decide (resourceId ∈ s.cache.ids)]
          lastAccess := stampAfter s.lastAccess s.now (.access resourceId)
          now := s.now + 1 } := by
        rw [CacheRun.step, haccess]
        rfl
      obtain ⟨hhits, hmisses⟩ := counters_append hcounted h.hits h.misses
      refine ⟨fun s' hs' => ?_, _, hs, isLru_of_counters hlinked (h.recentFirst.step hstep) hhits
        hmisses⟩
      obtain rfl := Option.some_injective _ (hs.symm.trans hs')
      refine ⟨hstep, rfl, ?_, ?_⟩
      · rintro _ ⟨⟩ b hb hgone a ha hne
        exact h.recentFirst.lt_of_evicted hstep hb hgone ha hne
      · rintro _ _ ⟨⟩ hmem
        obtain ⟨kept, -, hspent, hmiss⟩ :=
          ITSCacheController.accessResource_miss lookup h.linked hmem requiredBytes
        obtain rfl := congrArg Prod.snd (Option.some_injective _ (haccess.symm.trans hmiss))
        refine ⟨kept.ids, _, rfl, hspent.ids, ?_⟩
        split
        · rfl
        · exact ITSCacheController.shortestFor_leavingFor lookup s.cache requiredBytes
  | remove resourceId =>
      obtain ⟨c', hremove, hlinked, hstep, hhits, hmisses⟩ :=
        ITSCacheController.step_removeResource lookup h.linked resourceId
      have hs : s.step lookup (.remove resourceId) = some { s with
          cache := c'
          lastAccess := stampAfter s.lastAccess s.now (.remove resourceId)
          now := s.now + 1 } := by
        rw [CacheRun.step, hremove]
        rfl
      refine ⟨fun s' hs' => ?_, _, hs, isLru_of_counters hlinked (h.recentFirst.step hstep)
        (hhits.trans h.hits) (hmisses.trans h.misses)⟩
      obtain rfl := Option.some_injective _ (hs.symm.trans hs')
      refine ⟨hstep, (List.append_nil _).symm, nofun, ?_⟩
      rintro _ _ ⟨⟩

/-- **The synaptic cache is an LRU cache**: no call fails, each one does what an LRU cache
does, and after all of them list, map and counters are as they should be. -/
theorem isLru_run (capacity : UInt64) (callback : σ) (calls : List Call) :
    Along (step lookup) (Serves lookup) (start capacity callback) calls ∧
      ∃ s, exec (step lookup) (start capacity callback) calls = some s ∧ s.IsLru :=
  exec_of_progress _ (fun _ call hs => IsLru.step lookup hs call) (isLru_start capacity callback)
    calls

end CacheRun

end Synapse.Its
