import Mathlib

/-!
# Breadth-first search with a parent map

A queue, a map from each discovered vertex to the vertex it was discovered from,
and the walk back along that map once the target comes out of the queue.  The
graph is an adjacency function; it may have cycles, parallel edges and vertices
nobody reaches.

The search itself keeps no distances.  `Inv` supplies them: a depth for each
discovered vertex, one more than its parent's, that never decreases along the
queue and differs by at most one over it.  A vertex out of the queue has all its
neighbours discovered at most one deeper (`Inv.closed`), which is why a walk
from the start cannot overtake the front of the queue (`Inv.depth_le_of_walk`):
the target comes out at the length of a shortest walk.

Each iteration takes one vertex out of the queue and a vertex enters it once, so
`bound` iterations are enough (`search_spec`), and the depths bound the walk
back in the same way.
-/

namespace Bfs

variable {V : Type*}

/-! ## Walks -/

/-- `rest` continues `u` along edges up to `w`. -/
def Walk (adj : V → List V) : V → List V → V → Prop
  | u, [], w => u = w
  | u, v :: rest, w => v ∈ adj u ∧ Walk adj v rest w

/-- A walk without edges stays where it is. -/
@[simp] theorem walk_nil {adj : V → List V} {u w : V} : Walk adj u [] w ↔ u = w := Iff.rfl

/-- A walk goes on from its first edge. -/
@[simp] theorem walk_cons {adj : V → List V} {u v w : V} {rest : List V} :
    Walk adj u (v :: rest) w ↔ v ∈ adj u ∧ Walk adj v rest w := Iff.rfl

/-- A walk with one more edge at its end. -/
theorem walk_concat {adj : V → List V} {u v w : V} {rest : List V} :
    Walk adj u (rest ++ [w]) v ↔ w = v ∧ ∃ x, Walk adj u rest x ∧ w ∈ adj x := by
  induction rest generalizing u with
  | nil => simp [and_comm]
  | cons x rest ih =>
      rw [List.cons_append, walk_cons, ih]
      constructor
      · rintro ⟨hx, rfl, y, hwalk, hw⟩
        exact ⟨rfl, y, ⟨hx, hwalk⟩, hw⟩
      · rintro ⟨rfl, y, ⟨hx, hwalk⟩, hw⟩
        exact ⟨hx, rfl, y, hwalk, hw⟩

/-- A walk of least length. -/
def Shortest (adj : V → List V) (u : V) (rest : List V) (w : V) : Prop :=
  Walk adj u rest w ∧ ∀ rest', Walk adj u rest' w → rest.length ≤ rest'.length

/-! ## The search -/

variable [DecidableEq V]

/-- The queue and the parent map. -/
structure Search (V : Type*) where
  queue : List V
  parent : V → Option V

/-- The ways in which a search can fail to return. -/
inductive SearchError where
  | outOfRange
  | diverged
  deriving DecidableEq, Repr

/-- One neighbour of `u`: a new one gets `u` as its parent and joins the queue. -/
def discover (u : V) (s : Search V) (v : V) : Search V :=
  if s.parent v = none then
    { queue := s.queue ++ [v], parent := Function.update s.parent v (some u) }
  else s

/-- All neighbours of `u`. -/
def expand (adj : V → List V) (u : V) (s : Search V) : Search V :=
  (adj u).foldl (discover u) s

/-- The search that knows only its start. -/
def initial (start : V) : Search V where
  queue := [start]
  parent := Function.update (fun _ => none) start (some start)

/-- The walk back from `node` to `start`; `path` is what has been collected. -/
def walkBack (parent : V → Option V) (start : V) :
    ℕ → V → List V → Except SearchError (List V)
  | 0, _, _ => .error .diverged
  | fuel + 1, node, path =>
      if node = start then .ok (path ++ [start]).reverse
      else match parent node with
        | none => .error .outOfRange
        | some u => walkBack parent start fuel u (path ++ [node])

/-- The loop over the queue: the walk to the target, or no walk. -/
def search (adj : V → List V) (start target : V) (walkFuel : ℕ) :
    ℕ → Search V → Except SearchError (Option (List V))
  | 0, _ => .error .diverged
  | fuel + 1, s =>
      match s.queue with
      | [] => .ok none
      | u :: rest =>
          if u = target then (walkBack s.parent start walkFuel target []).map some
          else search adj start target walkFuel fuel (expand adj u { s with queue := rest })

/-- What the neighbours of `u` add: those not yet discovered, each once. -/
theorem foldl_discover (u : V) (vs : List V) (s : Search V) :
    ∃ new : List V, new.Nodup ∧ (∀ v, v ∈ new ↔ v ∈ vs ∧ s.parent v = none) ∧
      (vs.foldl (discover u) s).queue = s.queue ++ new ∧
      ∀ v, (vs.foldl (discover u) s).parent v = if v ∈ new then some u else s.parent v := by
  induction vs generalizing s with
  | nil => exact ⟨[], List.nodup_nil, by simp, by simp, by simp⟩
  | cons w vs ih =>
      rw [List.foldl_cons]
      by_cases hw : s.parent w = none
      · obtain ⟨new, hnodup, hmem, hqueue, hparent⟩ := ih (discover u s w)
        have hdisc : discover u s w =
            ⟨s.queue ++ [w], Function.update s.parent w (some u)⟩ := if_pos hw
        have hnone : ∀ v, (discover u s w).parent v = none ↔ v ≠ w ∧ s.parent v = none := by
          intro v
          rw [hdisc]
          by_cases hv : v = w <;> simp [hv]
        refine ⟨w :: new, List.nodup_cons.mpr ⟨fun h => ?_, hnodup⟩, fun v => ?_, ?_, fun v => ?_⟩
        · exact ((hnone w).mp ((hmem w).mp h).2).1 rfl
        · rw [List.mem_cons, List.mem_cons, hmem, hnone]
          by_cases hv : v = w <;> simp [hv, hw]
        · rw [hqueue, hdisc, List.append_assoc]
          rfl
        · rw [hparent, hdisc]
          by_cases hv : v = w <;> simp [hv]
      · obtain ⟨new, hnodup, hmem, hqueue, hparent⟩ := ih s
        have hdisc : discover u s w = s := if_neg hw
        rw [hdisc]
        refine ⟨new, hnodup, fun v => ?_, hqueue, hparent⟩
        rw [hmem, List.mem_cons]
        constructor
        · rintro ⟨hv, hnone⟩
          exact ⟨Or.inr hv, hnone⟩
        · rintro ⟨rfl | hv, hnone⟩
          · exact absurd hnone hw
          · exact ⟨hv, hnone⟩

/-! ## The invariant -/

/-- The vertices of `univ` not yet discovered. -/
def undiscovered (univ : Finset V) (s : Search V) : Finset V :=
  univ.filter fun v => s.parent v = none

/-- What holds before each iteration, for depths that the search does not
compute. -/
structure Inv (adj : V → List V) (start target : V) (univ : Finset V) (depth : V → ℕ)
    (s : Search V) : Prop where
  start_found : s.parent start ≠ none
  start_depth : depth start = 0
  tree : ∀ v u, s.parent v = some u → v ≠ start →
    s.parent u ≠ none ∧ v ∈ adj u ∧ depth v = depth u + 1
  queued : ∀ v ∈ s.queue, s.parent v ≠ none
  closed : ∀ u, s.parent u ≠ none → u ∉ s.queue →
    u ≠ target ∧ ∀ v ∈ adj u, s.parent v ≠ none ∧ depth v ≤ depth u + 1
  sorted : s.queue.Pairwise fun u v => depth u ≤ depth v
  span : ∀ u, s.parent u ≠ none → ∀ v ∈ s.queue, depth u ≤ depth v + 1
  room : ∀ v, s.parent v ≠ none → depth v + (undiscovered univ s).card ≤ univ.card

section Invariant

variable {adj : V → List V} {start target : V} {univ : Finset V} {depth : V → ℕ} {s : Search V}

/-- The start is discovered from itself, at depth 0. -/
theorem inv_initial (adj : V → List V) (start target : V) (univ : Finset V) :
    Inv adj start target univ (fun _ => 0) (initial start) := by
  have hfound : ∀ v, (initial start).parent v ≠ none ↔ v = start := by
    intro v
    by_cases hv : v = start <;> simp [initial, hv]
  refine ⟨by simp [initial], rfl, ?_, ?_, ?_, ?_, ?_, ?_⟩
  · intro v u hu hv
    exact absurd ((hfound v).mp (by simp [hu])) hv
  · intro v hv
    exact (hfound v).mpr (by simpa [initial] using hv)
  · intro u hu hqueue
    exact absurd (by simp [initial, (hfound u).mp hu]) hqueue
  · exact List.pairwise_singleton _ _
  · intro u _ v _
    exact Nat.zero_le 1
  · intro v _
    rw [Nat.zero_add]
    exact Finset.card_filter_le _ _

/-! ### One iteration -/

/-- The front `u` of the queue of `s` has been expanded, which has discovered `new`. -/
structure Expanded (adj : V → List V) (u : V) (rest new : List V) (s s' : Search V) : Prop where
  front : s.queue = u :: rest
  nodup : new.Nodup
  mem : ∀ v, v ∈ new ↔ v ∈ adj u ∧ s.parent v = none
  queue : s'.queue = rest ++ new
  parent : ∀ v, s'.parent v = if v ∈ new then some u else s.parent v

/-- What one iteration discovers, by induction on the neighbours. -/
theorem expanded_expand {u : V} {rest : List V} (hs : s.queue = u :: rest) :
    ∃ new, Expanded adj u rest new s (expand adj u ⟨rest, s.parent⟩) := by
  obtain ⟨new, hnodup, hmem, hqueue, hparent⟩ := foldl_discover u (adj u) ⟨rest, s.parent⟩
  exact ⟨new, hs, hnodup, hmem, hqueue, hparent⟩

/-- The depths after `u` has been expanded. -/
def deepen (depth : V → ℕ) (u : V) (new : List V) (v : V) : ℕ :=
  if v ∈ new then depth u + 1 else depth v

/-- The new vertices are one deeper. -/
theorem deepen_new {u v : V} {new : List V} (hv : v ∈ new) : deepen depth u new v = depth u + 1 :=
  if_pos hv

section Expanded

variable {u : V} {rest new : List V} {s' : Search V}

/-- What is discovered afterwards. -/
theorem Expanded.found (e : Expanded adj u rest new s s') (v : V) :
    s'.parent v ≠ none ↔ v ∈ new ∨ s.parent v ≠ none := by
  rw [e.parent]
  by_cases hv : v ∈ new <;> simp [hv]

/-- The others keep their depth. -/
theorem Expanded.deepen_old (e : Expanded adj u rest new s s') {v : V} (hv : s.parent v ≠ none) :
    deepen depth u new v = depth v :=
  if_neg fun hnew => hv ((e.mem v).mp hnew).2

/-- The new vertices are exactly what leaves `undiscovered`. -/
theorem Expanded.card_undiscovered (e : Expanded adj u rest new s s')
    (huniv : ∀ u, ∀ v ∈ adj u, v ∈ univ) :
    (undiscovered univ s').card + new.length = (undiscovered univ s).card := by
  have hleft : undiscovered univ s' = undiscovered univ s \ new.toFinset := by
    ext v
    have := e.found v
    simp only [undiscovered, Finset.mem_filter, Finset.mem_sdiff, List.mem_toFinset]
    tauto
  have hsub : new.toFinset ⊆ undiscovered univ s := by
    intro v hv
    obtain ⟨hadj, hnone⟩ := (e.mem v).mp (List.mem_toFinset.mp hv)
    exact Finset.mem_filter.mpr ⟨huniv u v hadj, hnone⟩
  rw [hleft, ← List.toFinset_card_of_nodup e.nodup]
  exact Finset.card_sdiff_add_card_eq_card hsub

/-- The vertex that is taken out is discovered. -/
theorem Inv.front_found (h : Inv adj start target univ depth s)
    (e : Expanded adj u rest new s s') : s.parent u ≠ none :=
  h.queued u (by rw [e.front]; exact List.mem_cons_self)

/-- So are those behind it. -/
theorem Inv.rest_found (h : Inv adj start target univ depth s)
    (e : Expanded adj u rest new s s') {v : V} (hv : v ∈ rest) : s.parent v ≠ none :=
  h.queued v (by rw [e.front]; exact List.mem_cons_of_mem _ hv)

/-- Nothing discovered is deeper than what is discovered next. -/
theorem Inv.depth_le_front (h : Inv adj start target univ depth s)
    (e : Expanded adj u rest new s s') {v : V} (hv : s.parent v ≠ none) :
    depth v ≤ depth u + 1 :=
  h.span v hv u (by rw [e.front]; exact List.mem_cons_self)

/-- The new vertices hang on the one that was taken out. -/
theorem Inv.tree_expanded (h : Inv adj start target univ depth s)
    (e : Expanded adj u rest new s s') {v x : V} (hx : s'.parent v = some x) (hv : v ≠ start) :
    s'.parent x ≠ none ∧ v ∈ adj x ∧ deepen depth u new v = deepen depth u new x + 1 := by
  rw [e.parent] at hx
  by_cases hnew : v ∈ new
  · rw [if_pos hnew] at hx
    obtain rfl := Option.some_injective _ hx
    have hufound := h.front_found e
    refine ⟨(e.found u).mpr (Or.inr hufound), ((e.mem v).mp hnew).1, ?_⟩
    rw [deepen_new hnew, e.deepen_old hufound]
  · rw [if_neg hnew] at hx
    obtain ⟨hxfound, hadj, heq⟩ := h.tree v x hx hv
    refine ⟨(e.found x).mpr (Or.inr hxfound), hadj, ?_⟩
    rw [e.deepen_old (by simp [hx]), e.deepen_old hxfound, heq]

/-- What is out of the queue was out of it before, or is what has been expanded. -/
theorem Inv.closed_expanded (h : Inv adj start target univ depth s)
    (e : Expanded adj u rest new s s') (hu : u ≠ target) {x : V} (hx : s'.parent x ≠ none)
    (hqueue : x ∉ s'.queue) : x ≠ target ∧ ∀ v ∈ adj x, s'.parent v ≠ none ∧
      deepen depth u new v ≤ deepen depth u new x + 1 := by
  rw [e.queue, List.mem_append, not_or] at hqueue
  have hxfound : s.parent x ≠ none := ((e.found x).mp hx).resolve_left hqueue.2
  by_cases hxu : x = u
  · subst hxu
    refine ⟨hu, fun v hadj => ?_⟩
    rw [e.deepen_old hxfound]
    by_cases hnew : v ∈ new
    · exact ⟨(e.found v).mpr (Or.inl hnew), (deepen_new hnew).le⟩
    · have hvfound : s.parent v ≠ none := fun hnone => hnew ((e.mem v).mpr ⟨hadj, hnone⟩)
      rw [e.deepen_old hvfound]
      exact ⟨(e.found v).mpr (Or.inr hvfound), h.depth_le_front e hvfound⟩
  · obtain ⟨hxt, hclosed⟩ := h.closed x hxfound (by simp [e.front, hxu, hqueue.1])
    refine ⟨hxt, fun v hadj => ?_⟩
    obtain ⟨hvfound, hle⟩ := hclosed v hadj
    rw [e.deepen_old hvfound, e.deepen_old hxfound]
    exact ⟨(e.found v).mpr (Or.inr hvfound), hle⟩

/-- They go to the end of the queue, and no vertex there is deeper. -/
theorem Inv.sorted_expanded (h : Inv adj start target univ depth s)
    (e : Expanded adj u rest new s s') :
    s'.queue.Pairwise fun v w => deepen depth u new v ≤ deepen depth u new w := by
  rw [e.queue, List.pairwise_append]
  refine ⟨(List.pairwise_cons.mp (e.front ▸ h.sorted)).2.imp_of_mem ?_, ?_, ?_⟩
  · intro a b ha hb hab
    rwa [e.deepen_old (h.rest_found e ha), e.deepen_old (h.rest_found e hb)]
  · refine List.pairwise_of_forall_mem_list fun a ha b hb => ?_
    rw [deepen_new ha, deepen_new hb]
  · intro a ha b hb
    have hafound := h.rest_found e ha
    rw [e.deepen_old hafound, deepen_new hb]
    exact h.depth_le_front e hafound

/-- Depths in the queue still differ by one at most. -/
theorem Inv.span_expanded (h : Inv adj start target univ depth s)
    (e : Expanded adj u rest new s s') {x v : V} (hx : s'.parent x ≠ none) (hv : v ∈ s'.queue) :
    deepen depth u new x ≤ deepen depth u new v + 1 := by
  have hufront : ∀ v ∈ rest, depth u ≤ depth v := (List.pairwise_cons.mp (e.front ▸ h.sorted)).1
  rcases List.mem_append.mp (e.queue ▸ hv) with hrest | hnew
  · rw [e.deepen_old (h.rest_found e hrest)]
    rcases (e.found x).mp hx with hxnew | hxfound
    · rw [deepen_new hxnew]
      exact Nat.succ_le_succ (hufront v hrest)
    · rw [e.deepen_old hxfound]
      exact h.span x hxfound v (by simp [e.front, hrest])
  · rw [deepen_new hnew]
    rcases (e.found x).mp hx with hxnew | hxfound
    · rw [deepen_new hxnew]
      exact Nat.le_succ _
    · rw [e.deepen_old hxfound]
      exact (h.depth_le_front e hxfound).trans (Nat.le_succ _)

/-- A deep vertex has as many others discovered before it. -/
theorem Inv.room_expanded (h : Inv adj start target univ depth s)
    (e : Expanded adj u rest new s s') (huniv : ∀ u, ∀ v ∈ adj u, v ∈ univ) {v : V}
    (hv : s'.parent v ≠ none) :
    deepen depth u new v + (undiscovered univ s').card ≤ univ.card := by
  have hcard := e.card_undiscovered huniv
  rcases (e.found v).mp hv with hnew | hvfound
  · have hroom := h.room u (h.front_found e)
    have hpos : 0 < new.length := List.length_pos_of_mem hnew
    rw [deepen_new hnew]
    omega
  · have hroom := h.room v hvfound
    rw [e.deepen_old hvfound]
    omega

/-- An iteration keeps the invariant. -/
theorem Inv.expanded (h : Inv adj start target univ depth s) (e : Expanded adj u rest new s s')
    (huniv : ∀ u, ∀ v ∈ adj u, v ∈ univ) (hu : u ≠ target) :
    Inv adj start target univ (deepen depth u new) s' where
  start_found := (e.found start).mpr (Or.inr h.start_found)
  start_depth := (e.deepen_old h.start_found).trans h.start_depth
  tree _ _ hx hv := h.tree_expanded e hx hv
  queued v hv := by
    rcases List.mem_append.mp (e.queue ▸ hv) with hrest | hnew
    · exact (e.found v).mpr (Or.inr (h.rest_found e hrest))
    · exact (e.found v).mpr (Or.inl hnew)
  closed _ hx hqueue := h.closed_expanded e hu hx hqueue
  sorted := h.sorted_expanded e
  span _ hx _ hv := h.span_expanded e hx hv
  room _ hv := h.room_expanded e huniv hv

end Expanded

/-- **One iteration.**  Expanding the front of the queue keeps the invariant and
uses up one unit of what is left to do. -/
theorem Inv.expand (h : Inv adj start target univ depth s)
    (huniv : ∀ u, ∀ v ∈ adj u, v ∈ univ) {u : V} {rest : List V} (hs : s.queue = u :: rest)
    (hu : u ≠ target) :
    ∃ depth', Inv adj start target univ depth' (expand adj u ⟨rest, s.parent⟩) ∧
      (expand adj u ⟨rest, s.parent⟩).queue.length +
          (undiscovered univ (expand adj u ⟨rest, s.parent⟩)).card + 1 =
        s.queue.length + (undiscovered univ s).card := by
  obtain ⟨new, e⟩ := expanded_expand hs
  refine ⟨deepen depth u new, h.expanded e huniv hu, ?_⟩
  have hcard := e.card_undiscovered huniv
  rw [e.queue, List.length_append, hs, List.length_cons]
  omega

/-- No walk from the start gets past the front of the queue. -/
theorem Inv.depth_le_of_walk (h : Inv adj start target univ depth s) {walk : List V} {w : V}
    (hwalk : Walk adj start walk w) :
    (s.parent w ≠ none ∧ depth w ≤ walk.length) ∨ ∃ u ∈ s.queue, depth u ≤ walk.length := by
  induction walk using List.reverseRecOn generalizing w with
  | nil =>
      obtain rfl := walk_nil.mp hwalk
      exact Or.inl ⟨h.start_found, h.start_depth.le⟩
  | append_singleton walk v ih =>
      obtain ⟨rfl, x, hx, hadj⟩ := walk_concat.mp hwalk
      rw [List.length_append, List.length_singleton]
      rcases ih hx with ⟨hxfound, hle⟩ | ⟨u, hu, hle⟩
      · by_cases hqueue : x ∈ s.queue
        · exact Or.inr ⟨x, hqueue, hle.trans (Nat.le_succ _)⟩
        · obtain ⟨hvfound, hv⟩ := (h.closed x hxfound hqueue).2 v hadj
          exact Or.inl ⟨hvfound, hv.trans (Nat.succ_le_succ hle)⟩
      · exact Or.inr ⟨u, hu, hle.trans (Nat.le_succ _)⟩

/-- At the front of the queue the target has the length of a shortest walk. -/
theorem Inv.depth_target_le (h : Inv adj start target univ depth s) {rest : List V}
    (hs : s.queue = target :: rest) {walk : List V} (hwalk : Walk adj start walk target) :
    depth target ≤ walk.length := by
  rcases h.depth_le_of_walk hwalk with ⟨-, hle⟩ | ⟨u, hu, hle⟩
  · exact hle
  · rcases List.mem_cons.mp (hs ▸ hu) with rfl | hrest
    · exact hle
    · exact ((List.pairwise_cons.mp (hs ▸ h.sorted)).1 u hrest).trans hle

/-- With an empty queue everything reachable has been expanded, and the target
has not. -/
theorem Inv.not_walk (h : Inv adj start target univ depth s) (hs : s.queue = [])
    (walk : List V) : ¬ Walk adj start walk target := by
  intro hwalk
  rcases h.depth_le_of_walk hwalk with ⟨hfound, -⟩ | ⟨u, hu, -⟩
  · exact (h.closed target hfound (by simp [hs])).1 rfl
  · simp [hs] at hu

/-- The walk back from a discovered vertex takes as many steps as it is deep. -/
theorem Inv.walkBack_eq (h : Inv adj start target univ depth s) {fuel : ℕ} {v : V}
    (hv : s.parent v ≠ none) (hfuel : depth v < fuel) (path : List V) :
    ∃ walk, Walk adj start walk v ∧ walk.length = depth v ∧
      walkBack s.parent start fuel v path = .ok (start :: walk ++ path.reverse) := by
  induction fuel generalizing v path with
  | zero => exact absurd hfuel (Nat.not_lt_zero _)
  | succ fuel ih =>
      by_cases hstart : v = start
      · subst hstart
        exact ⟨[], rfl, h.start_depth.symm, by simp [walkBack]⟩
      · obtain ⟨u, hu⟩ := Option.ne_none_iff_exists'.mp hv
        obtain ⟨hufound, hadj, heq⟩ := h.tree v u hu hstart
        obtain ⟨walk, hwalk, hlen, hback⟩ := ih hufound (by omega) (path ++ [v])
        refine ⟨walk ++ [v], walk_concat.mpr ⟨rfl, u, hwalk, hadj⟩, ?_, ?_⟩
        · rw [List.length_append, hlen, heq, List.length_singleton]
        · rw [walkBack, if_neg hstart, hu]
          simp only
          rw [hback]
          simp

/-- **The search.**  It returns a shortest walk to the target if there is a walk,
and reports that there is none otherwise. -/
theorem Inv.search_spec (h : Inv adj start target univ depth s)
    (huniv : ∀ u, ∀ v ∈ adj u, v ∈ univ) {walkFuel fuel : ℕ} (hwalkFuel : univ.card < walkFuel)
    (hfuel : s.queue.length + (undiscovered univ s).card < fuel) :
    (∃ walk, Shortest adj start walk target ∧
        search adj start target walkFuel fuel s = .ok (some (start :: walk))) ∨
      (∀ walk, ¬ Walk adj start walk target) ∧
        search adj start target walkFuel fuel s = .ok none := by
  induction fuel generalizing s depth with
  | zero => exact absurd hfuel (Nat.not_lt_zero _)
  | succ fuel ih =>
      rw [search]
      cases hs : s.queue with
      | nil => exact Or.inr ⟨h.not_walk hs, rfl⟩
      | cons u rest =>
          by_cases hu : u = target
          · subst hu
            have hfound : s.parent u ≠ none := h.queued u (by simp [hs])
            have hdeep : depth u < walkFuel := by
              have := h.room u hfound
              omega
            obtain ⟨walk, hwalk, hlen, hback⟩ := h.walkBack_eq hfound hdeep []
            refine Or.inl ⟨walk, ⟨hwalk, fun walk' hwalk' => ?_⟩, ?_⟩
            · rw [hlen]
              exact h.depth_target_le hs hwalk'
            · simp [hback, Except.map]
          · obtain ⟨depth', hinv, hmeasure⟩ := h.expand huniv hs hu
            simp only [if_neg hu]
            exact ih hinv (by omega)

end Invariant

/-- The search from its start, with one iteration for each vertex an edge leads
to, one for the start and one for the empty queue. -/
theorem search_initial {adj : V → List V} (start target : V) {univ : Finset V}
    (huniv : ∀ u, ∀ v ∈ adj u, v ∈ univ) {walkFuel fuel : ℕ} (hwalkFuel : univ.card < walkFuel)
    (hfuel : univ.card + 1 < fuel) :
    (∃ walk, Shortest adj start walk target ∧
        search adj start target walkFuel fuel (initial start) = .ok (some (start :: walk))) ∨
      (∀ walk, ¬ Walk adj start walk target) ∧
        search adj start target walkFuel fuel (initial start) = .ok none := by
  refine (inv_initial adj start target univ).search_spec huniv hwalkFuel ?_
  have hle : (undiscovered univ (initial start)).card ≤ univ.card := Finset.card_filter_le _ _
  have hone : (initial start).queue.length = 1 := rfl
  omega

end Bfs
