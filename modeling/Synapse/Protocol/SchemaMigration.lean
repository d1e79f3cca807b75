import Synapse.Foundations.Bfs
import Synapse.Foundations.ByteRecords

/-!
# Schema migration

The registry of `schema_migration.h`.  Its hash map is an association list
without repeated keys: the order of the list is the order in which the map is
iterated, and nothing below depends on it.  Each step is filed under the key
computed from its two versions, and `filed` keeps it so.

`migrate` looks for a path in the graph of the stored steps and then fetches
each step of the path through the map.  The two agree because a step filed under
a key is the only one there (`findStep_of_stored`).

The key is `from * 1000 + to` in 32-bit arithmetic, which is not injective: the
pairs `(a, b)` and `(a + 1, b - 1000)` always share a key (`versionKey_shift`).
`Unshadowed` says when a pair is found all the same.

### The order of iteration

`std::unordered_map` does not say in which order it is iterated, and the order decides which
of two shortest paths is taken.  So the order is that of an arbitrary list, and what is proved
about a path holds of every order.
-/

namespace Synapse.Protocol

open ByteRecords Bfs

/-- `MigrationFunc`. -/
abbrev MigrationFunc := Bytes → Bytes

/-- A registered step with the function that migrates a payload. -/
structure MigrationStep where
  fromVersion : UInt32
  toVersion : UInt32
  migrate : MigrationFunc

/-- The key of a pair of versions. -/
def versionKey (fromVer toVer : UInt32) : UInt32 := fromVer * 1000 + toVer

/-- The key under which a step is filed. -/
def MigrationStep.key (step : MigrationStep) : UInt32 :=
  versionKey step.fromVersion step.toVersion

/-- `steps_`, with every step under its own key. -/
structure SchemaMigration where
  steps : AList fun _ : UInt32 => MigrationStep
  filed : ∀ entry ∈ steps.entries, entry.1 = entry.2.key

/-- What `migrate` throws, and what would happen if its loops went wrong. -/
inductive MigrateError where
  | noMigrationPath (fromVer toVer : UInt32)
  | missingMigrationStep (fromVer toVer : UInt32)
  | search (error : SearchError)
  deriving DecidableEq, Repr

/-- The text of the exception. -/
def MigrateError.what : MigrateError → String
  | noMigrationPath fromVer toVer =>
      "No migration path from v" ++ toString fromVer ++ " to v" ++ toString toVer
  | missingMigrationStep fromVer toVer =>
      "Missing migration step v" ++ toString fromVer ++ " → v" ++ toString toVer
  | search .outOfRange => "map::at"
  | search .diverged => ""

namespace SchemaMigration

/-! ## The methods -/

/-- The constructor. -/
def create : SchemaMigration where
  steps := ∅
  filed := by simp

/-- `register_migration(from, to, func)`. -/
def registerMigration (fromVer toVer : UInt32) (func : MigrationFunc) (m : SchemaMigration) :
    SchemaMigration where
  steps := m.steps.insert (versionKey fromVer toVer) ⟨fromVer, toVer, func⟩
  filed := by
    intro entry hentry
    rw [AList.entries_insert, List.mem_cons] at hentry
    rcases hentry with rfl | hentry
    · rfl
    · exact m.filed entry ((List.kerase_sublist _ _).subset hentry)

/-- `find_step(from, to)`. -/
def findStep (m : SchemaMigration) (fromVer toVer : UInt32) : Option MigrationStep :=
  m.steps.lookup (versionKey fromVer toVer)

/-- One stored step in the adjacency list. -/
def addEdge (adj : UInt32 → List UInt32) (entry : (_ : UInt32) × MigrationStep) :
    UInt32 → List UInt32 :=
  Function.update adj entry.2.fromVersion (adj entry.2.fromVersion ++ [entry.2.toVersion])

/-- The adjacency list `find_path` builds.  A version that is not in it has no
neighbours. -/
def adjacency (m : SchemaMigration) : UInt32 → List UInt32 :=
  m.steps.entries.foldl addEdge fun _ => []

/-- `find_path(from, to)`, with `fuel` iterations for each of its loops. -/
def findPath (fuel : ℕ) (m : SchemaMigration) (fromVer toVer : UInt32) :
    Except SearchError (List UInt32) :=
  if fromVer = toVer then .ok [fromVer]
  else (search m.adjacency fromVer toVer fuel fuel (initial fromVer)).map (·.getD [])

/-- The loop of `migrate` over the path. -/
def applyPath (m : SchemaMigration) : List UInt32 → Bytes → Except MigrateError Bytes
  | u :: v :: rest, current =>
      match m.findStep u v with
      | none => .error (.missingMigrationStep u v)
      | some step => m.applyPath (v :: rest) (step.migrate current)
  | _, current => .ok current

/-- `migrate(data, from_ver, to_ver)`. -/
def migrate (fuel : ℕ) (m : SchemaMigration) (data : Bytes) (fromVer toVer : UInt32) :
    Except MigrateError Bytes :=
  if fromVer = toVer then .ok data
  else match m.findPath fuel fromVer toVer with
    | .error e => .error (.search e)
    | .ok path =>
        if path.isEmpty then .error (.noMigrationPath fromVer toVer)
        else m.applyPath path data

/-- `has_path(from, to)`. -/
def hasPath (fuel : ℕ) (m : SchemaMigration) (fromVer toVer : UInt32) :
    Except SearchError Bool :=
  (m.findPath fuel fromVer toVer).map fun path => !path.isEmpty

/-- `is_compatible(reader_ver, data_ver)`. -/
def isCompatible (readerVer dataVer : UInt32) : Bool :=
  if dataVer = 0 then decide (readerVer = 0) else decide (readerVer + 1 ≥ dataVer)

/-- `migration_count()`. -/
def migrationCount (m : SchemaMigration) : ℕ := m.steps.entries.length

/-! ## The stored steps as a graph -/

/-- The step is stored. -/
def Stored (m : SchemaMigration) (step : MigrationStep) : Prop :=
  ∃ key, ⟨key, step⟩ ∈ m.steps.entries

/-- Stored steps that lead from one version to another, in order. -/
def Chain (m : SchemaMigration) : UInt32 → List MigrationStep → UInt32 → Prop
  | u, [], w => u = w
  | u, step :: rest, w => m.Stored step ∧ step.fromVersion = u ∧ m.Chain step.toVersion rest w

/-- The step functions of a chain, one after the other. -/
def compose (chain : List MigrationStep) : MigrationFunc :=
  fun data => chain.foldl (fun current step => step.migrate current) data

/-- A new step hides what was filed under the same key, and nothing else. -/
theorem findStep_registerMigration (m : SchemaMigration) (u v a b : UInt32)
    (func : MigrationFunc) :
    (m.registerMigration u v func).findStep a b =
      if versionKey a b = versionKey u v then some ⟨u, v, func⟩ else m.findStep a b := by
  unfold findStep registerMigration
  split_ifs with hkey
  · rw [hkey]
    exact AList.lookup_insert _
  · exact AList.lookup_insert_ne hkey

/-- **Storage and lookup agree.** -/
theorem findStep_of_stored {m : SchemaMigration} {step : MigrationStep} (h : m.Stored step) :
    m.findStep step.fromVersion step.toVersion = some step := by
  obtain ⟨key, hmem⟩ := h
  obtain rfl : key = step.key := m.filed _ hmem
  exact AList.mem_lookup_iff.mpr hmem

/-- Edges are added to what is there already. -/
theorem mem_foldl_addEdge (entries : List ((_ : UInt32) × MigrationStep))
    (adj : UInt32 → List UInt32) (u v : UInt32) :
    v ∈ entries.foldl addEdge adj u ↔
      v ∈ adj u ∨ ∃ entry ∈ entries, entry.2.fromVersion = u ∧ entry.2.toVersion = v := by
  induction entries generalizing adj with
  | nil => simp
  | cons entry entries ih =>
      rw [List.foldl_cons, ih, addEdge]
      by_cases hu : entry.2.fromVersion = u
      · subst hu
        simp [or_assoc, eq_comm]
      · simp [hu, Ne.symm hu]

/-- The graph has exactly the edges of the stored steps. -/
theorem mem_adjacency_iff {m : SchemaMigration} {u v : UInt32} :
    v ∈ m.adjacency u ↔ ∃ step, m.Stored step ∧ step.fromVersion = u ∧ step.toVersion = v := by
  rw [adjacency, mem_foldl_addEdge]
  constructor
  · rintro (hnil | ⟨⟨key, step⟩, hmem, hfrom, hto⟩)
    · exact absurd hnil List.not_mem_nil
    · exact ⟨step, ⟨key, hmem⟩, hfrom, hto⟩
  · rintro ⟨step, ⟨key, hmem⟩, hfrom, hto⟩
    exact Or.inr ⟨⟨key, step⟩, hmem, hfrom, hto⟩

/-- The versions some step leads to. -/
def targets (m : SchemaMigration) : Finset UInt32 :=
  (m.steps.entries.map fun entry => entry.2.toVersion).toFinset

/-- The end of an edge is a target. -/
theorem mem_targets_of_mem_adjacency {m : SchemaMigration} {u v : UInt32}
    (h : v ∈ m.adjacency u) : v ∈ m.targets := by
  obtain ⟨step, ⟨key, hmem⟩, -, rfl⟩ := mem_adjacency_iff.mp h
  exact List.mem_toFinset.mpr (List.mem_map.mpr ⟨⟨key, step⟩, hmem, rfl⟩)

/-- There are at most as many targets as steps, which bounds the search. -/
theorem card_targets_le (m : SchemaMigration) : m.targets.card ≤ m.migrationCount := by
  refine (List.toFinset_card_le _).trans ?_
  rw [List.length_map]
  exact le_rfl

/-- A chain visits a walk of the graph. -/
theorem Chain.walk {m : SchemaMigration} {u w : UInt32} {chain : List MigrationStep}
    (h : m.Chain u chain w) : Walk m.adjacency u (chain.map MigrationStep.toVersion) w := by
  induction chain generalizing u with
  | nil => exact h
  | cons step chain ih =>
      obtain ⟨hstored, hfrom, hrest⟩ := h
      exact ⟨mem_adjacency_iff.mpr ⟨step, hstored, hfrom, rfl⟩, ih hrest⟩

/-- Along a walk the loop of `migrate` finds a step for each edge, and composes
them. -/
theorem exists_chain_of_walk {m : SchemaMigration} {u w : UInt32} {rest : List UInt32}
    (h : Walk m.adjacency u rest w) :
    ∃ chain, m.Chain u chain w ∧ chain.length = rest.length ∧
      ∀ data, m.applyPath (u :: rest) data = .ok (compose chain data) := by
  induction rest generalizing u with
  | nil => exact ⟨[], h, rfl, fun data => by simp [applyPath, compose]⟩
  | cons v rest ih =>
      obtain ⟨hadj, hrest⟩ := h
      obtain ⟨step, hstored, rfl, rfl⟩ := mem_adjacency_iff.mp hadj
      obtain ⟨chain, hchain, hlen, happly⟩ := ih hrest
      refine ⟨step :: chain, ⟨hstored, rfl, hchain⟩, by simp [hlen], fun data => ?_⟩
      rw [applyPath, findStep_of_stored hstored]
      exact happly _

/-! ## Migration -/

/-- A chain of least length. -/
def ShortestChain (m : SchemaMigration) (u : UInt32) (chain : List MigrationStep)
    (w : UInt32) : Prop :=
  m.Chain u chain w ∧ ∀ chain', m.Chain u chain' w → chain.length ≤ chain'.length

/-- What `find_path` gives between different versions: the versions along a
shortest chain, or an empty list where there is no chain. -/
theorem findPath_spec (m : SchemaMigration) {fuel : ℕ} (hfuel : m.migrationCount + 1 < fuel)
    {u w : UInt32} (hne : u ≠ w) :
    (∃ path chain, m.ShortestChain u chain w ∧ path ≠ [] ∧ m.findPath fuel u w = .ok path ∧
        ∀ data, m.applyPath path data = .ok (compose chain data)) ∨
      (∀ chain, ¬ m.Chain u chain w) ∧ m.findPath fuel u w = .ok [] := by
  have hcard := m.card_targets_le
  have huniv : ∀ u, ∀ v ∈ m.adjacency u, v ∈ m.targets :=
    fun _ _ h => mem_targets_of_mem_adjacency h
  have hwalkFuel : m.targets.card < fuel := by omega
  have hsearchFuel : m.targets.card + 1 < fuel := by omega
  rw [findPath, if_neg hne]
  rcases search_initial u w huniv hwalkFuel hsearchFuel with
    ⟨walk, ⟨hwalk, hshort⟩, hfound⟩ | ⟨hnone, hfound⟩
  · obtain ⟨chain, hchain, hlen, happly⟩ := exists_chain_of_walk hwalk
    refine Or.inl ⟨u :: walk, chain, ⟨hchain, fun chain' hchain' => ?_⟩, by simp, ?_, happly⟩
    · rw [hlen]
      simpa using hshort _ hchain'.walk
    · rw [hfound]
      rfl
  · refine Or.inr ⟨fun chain hchain => hnone _ hchain.walk, ?_⟩
    rw [hfound]
    rfl

/-- `has_path` answers, and `migrate` delivers where the answer is yes. -/
theorem exists_migrate_of_hasPath (m : SchemaMigration) {fuel : ℕ}
    (hfuel : m.migrationCount + 1 < fuel) (data : Bytes) (u w : UInt32) :
    (m.hasPath fuel u w = .ok true ∧ ∃ result, m.migrate fuel data u w = .ok result) ∨
      m.hasPath fuel u w = .ok false := by
  rw [hasPath]
  by_cases huw : u = w
  · refine Or.inl ⟨?_, data, by rw [migrate, if_pos huw]⟩
    rw [findPath, if_pos huw]
    rfl
  · rcases m.findPath_spec hfuel huw with ⟨path, chain, -, hne, hpath, happly⟩ | ⟨-, hpath⟩
    · refine Or.inl ⟨?_, compose chain data, ?_⟩
      · rw [hpath]
        simp [Except.map, hne]
      · rw [migrate, if_neg huw, hpath]
        simp [hne, happly]
    · rw [hpath]
      exact Or.inr rfl

/-- **Migration along a shortest chain**, for every stored graph, iteration order
and number of further iterations allowed.  No other error than the missing path
comes out. -/
theorem migrate_shortest (m : SchemaMigration) (extra : ℕ) (data : Bytes) (u w : UInt32) :
    let fuel := m.migrationCount + 2 + extra
    (u = w → m.migrate fuel data u w = .ok data) ∧
      (u ≠ w → (∃ chain, m.Chain u chain w) → ∃ chain, m.ShortestChain u chain w ∧
        m.migrate fuel data u w = .ok (compose chain data)) ∧
      (u ≠ w → (¬ ∃ chain, m.Chain u chain w) →
        m.migrate fuel data u w = .error (.noMigrationPath u w)) ∧
      m.hasPath fuel u w = .ok (m.migrate fuel data u w).isOk := by
  intro fuel
  have hfuel : m.migrationCount + 1 < fuel := by omega
  by_cases huw : u = w
  · subst huw
    refine ⟨fun _ => by rw [migrate, if_pos rfl], fun h => absurd rfl h,
      fun h => absurd rfl h, ?_⟩
    rw [hasPath, findPath, migrate, if_pos rfl, if_pos rfl]
    rfl
  · rcases m.findPath_spec hfuel huw with
      ⟨path, chain, hshort, hne, hpath, happly⟩ | ⟨hnone, hpath⟩
    · have hmigrate : m.migrate fuel data u w = .ok (compose chain data) := by
        rw [migrate, if_neg huw, hpath]
        simp [hne, happly]
      refine ⟨fun h => absurd h huw, fun _ _ => ⟨chain, hshort, hmigrate⟩,
        fun _ h => absurd ⟨chain, hshort.1⟩ h, ?_⟩
      rw [hmigrate, hasPath, hpath]
      simp [Except.map, Except.isOk, Except.toBool, hne]
    · have hmigrate : m.migrate fuel data u w = .error (.noMigrationPath u w) := by
        rw [migrate, if_neg huw, hpath]
        rfl
      refine ⟨fun h => absurd h huw, fun _ ⟨chain, hchain⟩ => absurd hchain (hnone chain),
        fun _ _ => hmigrate, ?_⟩
      rw [hmigrate, hasPath, hpath]
      rfl

/-! ## Registration -/

/-- One call of `register_migration`. -/
abbrev Registration := MigrationStep

/-- A registry after a sequence of calls. -/
def registerAll (regs : List Registration) : SchemaMigration :=
  regs.foldl (fun m r => m.registerMigration r.fromVersion r.toVersion r.migrate) create

end SchemaMigration

/-- The pair of versions a step is for. -/
def MigrationStep.versions (step : MigrationStep) : UInt32 × UInt32 :=
  (step.fromVersion, step.toVersion)

namespace SchemaMigration

/-- The last registration for exactly this pair. -/
def lastRegistered (regs : List Registration) (a b : UInt32) : Option Registration :=
  regs.reverse.find? fun r => r.versions = (a, b)

/-- Whenever another pair is registered under the key of this one, this one is
registered again later. -/
def Unshadowed (regs : List Registration) (a b : UInt32) : Prop :=
  ∀ front r back, regs = front ++ r :: back → r.key = versionKey a b → r.versions ≠ (a, b) →
    ∃ r' ∈ back, r'.versions = (a, b)

/-- The last registration comes on top of the others. -/
theorem registerAll_concat (regs : List Registration) (r : Registration) :
    registerAll (regs ++ [r]) =
      (registerAll regs).registerMigration r.fromVersion r.toVersion r.migrate :=
  List.foldl_concat ..

/-- Lookup finds the last registration under the key. -/
theorem findStep_registerAll (regs : List Registration) (a b : UInt32) :
    (registerAll regs).findStep a b = regs.reverse.find? fun r => r.key = versionKey a b := by
  induction regs using List.reverseRecOn with
  | nil => rfl
  | append_singleton regs r ih =>
      rw [registerAll_concat, findStep_registerMigration, List.reverse_concat, List.find?_cons, ih]
      change (if versionKey a b = r.key then some r else _) = _
      by_cases hkey : r.key = versionKey a b
      · rw [if_pos hkey.symm, decide_eq_true hkey]
      · rw [if_neg (Ne.symm hkey), decide_eq_false hkey]

/-- The key depends on the two versions only. -/
theorem key_of_versions {r : Registration} {a b : UInt32} (h : r.versions = (a, b)) :
    r.key = versionKey a b := by
  obtain ⟨rfl, rfl⟩ := Prod.mk.inj h
  rfl

/-- Nothing is shadowed where nothing is registered. -/
theorem unshadowed_nil (a b : UInt32) : Unshadowed [] a b := by
  intro front r back h
  exact absurd h.symm (List.append_ne_nil_of_right_ne_nil _ (List.cons_ne_nil _ _))

/-- What the last call does to a pair. -/
theorem unshadowed_concat (regs : List Registration) (r : Registration) (a b : UInt32) :
    Unshadowed (regs ++ [r]) a b ↔
      r.versions = (a, b) ∨ r.key ≠ versionKey a b ∧ Unshadowed regs a b := by
  constructor
  · intro h
    by_cases hr : r.versions = (a, b)
    · exact Or.inl hr
    refine Or.inr ⟨fun hkey => ?_, fun front r' back hregs hkey hother => ?_⟩
    · obtain ⟨r', hmem, -⟩ := h regs r [] rfl hkey hr
      exact absurd hmem List.not_mem_nil
    · obtain ⟨r'', hmem, hr''⟩ := h front r' (back ++ [r]) (by simp [hregs]) hkey hother
      rcases List.mem_append.mp hmem with hback | hlast
      · exact ⟨r'', hback, hr''⟩
      · exact absurd (List.mem_singleton.mp hlast ▸ hr'') hr
  · intro h front r' back hregs hkey hother
    rcases List.eq_nil_or_concat back with rfl | ⟨back, r'', rfl⟩
    · obtain ⟨-, hlast⟩ := List.append_inj' hregs rfl
      obtain rfl : r = r' := by simpa using hlast
      rcases h with hr | ⟨hr, -⟩
      · exact absurd hr hother
      · exact absurd hkey hr
    · rw [List.concat_eq_append, ← List.cons_append, ← List.append_assoc] at hregs
      obtain ⟨hfront, hlast⟩ := List.append_inj' hregs rfl
      obtain rfl : r = r'' := by simpa using hlast
      rcases h with hr | ⟨-, hun⟩
      · exact ⟨r, by simp, hr⟩
      · obtain ⟨r₂, hmem, hr₂⟩ := hun front r' back hfront hkey hother
        exact ⟨r₂, by simp [hmem], hr₂⟩

/-- A pair is found exactly while nothing else sits under its key. -/
theorem findStep_eq_lastRegistered_iff (regs : List Registration) (a b : UInt32) :
    (registerAll regs).findStep a b = lastRegistered regs a b ↔ Unshadowed regs a b := by
  rw [findStep_registerAll, lastRegistered]
  induction regs using List.reverseRecOn with
  | nil => exact iff_of_true rfl (unshadowed_nil a b)
  | append_singleton regs r ih =>
      rw [unshadowed_concat, ← ih, List.reverse_concat, List.find?_cons, List.find?_cons]
      by_cases hr : r.versions = (a, b)
      · rw [decide_eq_true hr, decide_eq_true (key_of_versions hr)]
        exact iff_of_true rfl (Or.inl hr)
      · rw [decide_eq_false hr]
        by_cases hkey : r.key = versionKey a b
        · rw [decide_eq_true hkey]
          -- the step found is for another pair
          refine iff_of_false (fun h => ?_) (by simp [hr, hkey])
          exact hr (by simpa using List.find?_some h.symm)
        · rw [decide_eq_false hkey]
          simp [hr, hkey]

/-- The keys in the map are those of the registrations. -/
theorem mem_keys_registerAll (regs : List Registration) (key : UInt32) :
    key ∈ (registerAll regs).steps.keys ↔ ∃ r ∈ regs, r.key = key := by
  induction regs using List.reverseRecOn with
  | nil => simp [registerAll, create]
  | append_singleton regs r ih =>
      rw [registerAll_concat, ← AList.mem_keys]
      change key ∈ AList.insert r.key _ _ ↔ _
      rw [AList.mem_insert, AList.mem_keys, ih]
      simp [or_and_right, exists_or, or_comm, eq_comm]

/-- The map has one step for each key that was registered. -/
theorem migrationCount_registerAll (regs : List Registration) :
    (registerAll regs).migrationCount = (regs.map MigrationStep.key).toFinset.card := by
  have hnodup : (registerAll regs).steps.keys.Nodup := (registerAll regs).steps.keys_nodup
  have hlen : (registerAll regs).migrationCount = (registerAll regs).steps.keys.length :=
    (List.length_map _).symm
  rw [hlen, ← List.toFinset_card_of_nodup hnodup]
  congr 1
  ext key
  rw [List.mem_toFinset, List.mem_toFinset, mem_keys_registerAll, List.mem_map]

/-- **The registry is faithful exactly as far as the keys are.**  A lookup gives
the last registration for its pair, or nothing if there is none, exactly when no
other pair took the key since; the count is that of the distinct pairs exactly
when no two of them share a key. -/
theorem registry_faithful_iff (regs : List Registration) :
    (∀ a b, (registerAll regs).findStep a b = lastRegistered regs a b ↔ Unshadowed regs a b) ∧
      ((registerAll regs).migrationCount = (regs.map MigrationStep.versions).toFinset.card ↔
        ∀ r ∈ regs, ∀ r' ∈ regs, r.key = r'.key → r.versions = r'.versions) := by
  refine ⟨findStep_eq_lastRegistered_iff regs, ?_⟩
  have himage : (regs.map MigrationStep.key).toFinset =
      (regs.map MigrationStep.versions).toFinset.image fun pair => versionKey pair.1 pair.2 := by
    ext key
    simp [MigrationStep.key, MigrationStep.versions]
  rw [migrationCount_registerAll, himage, Finset.card_image_iff]
  constructor
  · intro h r hr r' hr' hkey
    refine h ?_ ?_ hkey
    · exact List.mem_toFinset.mpr (List.mem_map.mpr ⟨r, hr, rfl⟩)
    · exact List.mem_toFinset.mpr (List.mem_map.mpr ⟨r', hr', rfl⟩)
  · intro h pair hpair pair' hpair' hkey
    obtain ⟨r, hr, rfl⟩ := List.mem_map.mp (List.mem_toFinset.mp hpair)
    obtain ⟨r', hr', rfl⟩ := List.mem_map.mp (List.mem_toFinset.mp hpair')
    exact h r hr r' hr' hkey

/-- Every pair shares its key with another. -/
theorem versionKey_shift (a b : UInt32) : versionKey (a + 1) (b - 1000) = versionKey a b := by
  unfold versionKey
  grind

/-- No registration leaves every lookup right. -/
theorem exists_not_unshadowed {regs : List Registration} (h : regs ≠ []) :
    ∃ a b, ¬ Unshadowed regs a b := by
  obtain ⟨regs, r, rfl⟩ := (List.eq_nil_or_concat regs).resolve_left h
  refine ⟨r.fromVersion + 1, r.toVersion - 1000, ?_⟩
  rw [List.concat_eq_append, unshadowed_concat, not_or, not_and_or, not_ne_iff]
  refine ⟨fun hr => ?_, Or.inl (versionKey_shift _ _).symm⟩
  have hfrom : r.fromVersion = r.fromVersion + 1 := (Prod.mk.inj hr).1
  grind

/-- A step down from version 1 takes the place of the step from 0 to 1000. -/
theorem step_down_replaces_step_up :
    let regs : List Registration := [⟨0, 1000, id⟩, ⟨1, 0, fun _ => []⟩]
    (registerAll regs).findStep 0 1000 ≠ lastRegistered regs 0 1000 ∧
      (registerAll regs).migrationCount ≠ (regs.map MigrationStep.versions).toFinset.card := by
  intro regs
  constructor
  · rw [findStep_registerAll]
    intro h
    have hfrom := congrArg (Option.map MigrationStep.fromVersion) h
    exact absurd hfrom (by decide)
  · decide

end SchemaMigration

end Synapse.Protocol
