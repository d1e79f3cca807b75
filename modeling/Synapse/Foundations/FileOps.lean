import Synapse.Foundations.ByteRecords

/-!
# File operations and the points at which a process can die

A program that only opens a file to append to it or to empty it is, as far as
the file is concerned, a list of `FileOp`s.  The file after a complete run is
`runOps`; after a run in which some opens fail it is `runAttempts`; and
`crashAt done torn` is the file left by a process that dies once `done`
operations are through and `torn` bytes of the next one are out.  Letting
`done` and `torn` range over all numbers covers every point of death.

For a run that never empties the file, all of this is about one byte string,
the `payload`: a complete run appends it (`runOps_eq`), a crash appends a prefix
of it (`crashAt_eq`, `crashPayload_prefix`).
-/

namespace FileOps

open ByteRecords

/-- One open of the file: in append mode with one write, or with truncation. -/
inductive FileOp where
  | append (bytes : Bytes)
  | truncate
  deriving DecidableEq, Repr

namespace FileOp

/-- The file after the operation.  A file that does not exist reads as an empty
one, and either open creates it. -/
def apply : FileOp → Bytes → Bytes
  | append bytes, file => file ++ bytes
  | truncate, _ => []

/-- The bytes the operation adds. -/
def written : FileOp → Bytes
  | append bytes => bytes
  | truncate => []

end FileOp

/-- The file after a run in which every open succeeds. -/
def runOps (ops : List FileOp) (file : Bytes) : Bytes :=
  ops.foldl (fun file op => op.apply file) file

/-- The file after a run in which open number `i` succeeds exactly when
`opens i`. -/
def runAttempts : (ℕ → Bool) → List FileOp → Bytes → Bytes
  | _, [], file => file
  | opens, op :: ops, file =>
      runAttempts (fun i => opens (i + 1)) ops (if opens 0 then op.apply file else file)

/-- The file left by a process that dies after `done` whole operations and
`torn` bytes of the next. -/
def crashAt (done torn : ℕ) (ops : List FileOp) (file : Bytes) : Bytes :=
  match ops[done]? with
  | some (.append bytes) => runOps (ops.take done) file ++ bytes.take torn
  | _ => runOps (ops.take done) file

/-- The bytes a run appends. -/
def payload (ops : List FileOp) : Bytes := ops.flatMap FileOp.written

/-- The bytes a process that dies after `done` operations and `torn` bytes of
the next has appended. -/
def crashPayload (done torn : ℕ) (ops : List FileOp) : Bytes :=
  match ops[done]? with
  | some (.append bytes) => payload (ops.take done) ++ bytes.take torn
  | _ => payload (ops.take done)

/-- The run never empties the file. -/
def AppendOnly (ops : List FileOp) : Prop := .truncate ∉ ops

/-! ## Complete runs -/

@[simp] theorem runOps_nil (file : Bytes) : runOps [] file = file := rfl

@[simp] theorem runOps_cons (op : FileOp) (ops : List FileOp) (file : Bytes) :
    runOps (op :: ops) file = runOps ops (op.apply file) := rfl

theorem runOps_append (ops ops' : List FileOp) (file : Bytes) :
    runOps (ops ++ ops') file = runOps ops' (runOps ops file) :=
  List.foldl_append

@[simp] theorem payload_nil : payload [] = [] := rfl

@[simp] theorem payload_cons (op : FileOp) (ops : List FileOp) :
    payload (op :: ops) = op.written ++ payload ops := rfl

@[simp] theorem payload_append (ops ops' : List FileOp) :
    payload (ops ++ ops') = payload ops ++ payload ops' :=
  List.flatMap_append

theorem appendOnly_cons {op : FileOp} {ops : List FileOp} :
    AppendOnly (op :: ops) ↔ op ≠ .truncate ∧ AppendOnly ops := by
  simp [AppendOnly, eq_comm]

@[simp] theorem appendOnly_append {ops ops' : List FileOp} :
    AppendOnly (ops ++ ops') ↔ AppendOnly ops ∧ AppendOnly ops' := by
  simp [AppendOnly]

theorem AppendOnly.take {ops : List FileOp} (h : AppendOnly ops) (n : ℕ) :
    AppendOnly (ops.take n) := fun hmem => h (List.mem_of_mem_take hmem)

/-- A run that never empties the file appends its payload. -/
theorem runOps_eq {ops : List FileOp} (h : AppendOnly ops) (file : Bytes) :
    runOps ops file = file ++ payload ops := by
  induction ops generalizing file with
  | nil => simp
  | cons op ops ih =>
      obtain ⟨hop, hops⟩ := appendOnly_cons.mp h
      cases op with
      | append bytes => simp [ih hops, FileOp.apply, FileOp.written]
      | truncate => exact absurd rfl hop

/-- Operations that write whole units keep a file a whole number of units long. -/
theorem dvd_length_runOps {n : ℕ} {ops : List FileOp} (h : ∀ op ∈ ops, n ∣ op.written.length)
    {file : Bytes} (hfile : n ∣ file.length) : n ∣ (runOps ops file).length := by
  induction ops generalizing file with
  | nil => exact hfile
  | cons op ops ih =>
      obtain ⟨hop, hops⟩ := List.forall_mem_cons.mp h
      rw [runOps_cons]
      refine ih hops ?_
      cases op with
      | append bytes =>
          rw [FileOp.apply, List.length_append]
          exact dvd_add hfile hop
      | truncate => exact dvd_zero _

/-! ## Runs with failing opens -/

theorem runAttempts_append (opens : ℕ → Bool) (ops ops' : List FileOp) (file : Bytes) :
    runAttempts opens (ops ++ ops') file =
      runAttempts (fun i => opens (i + ops.length)) ops' (runAttempts opens ops file) := by
  induction ops generalizing opens file with
  | nil => rfl
  | cons op ops ih =>
      rw [List.cons_append, runAttempts, runAttempts, ih]
      simp only [List.length_cons, Nat.add_assoc]

/-- Opens that all succeed. -/
theorem runAttempts_of_all {opens : ℕ → Bool} {ops : List FileOp}
    (h : ∀ i < ops.length, opens i = true) (file : Bytes) :
    runAttempts opens ops file = runOps ops file := by
  induction ops generalizing opens file with
  | nil => rfl
  | cons op ops ih =>
      have h0 : opens 0 = true := h 0 (by simp)
      rw [runAttempts, if_pos h0, runOps_cons]
      exact ih (fun i hi => h (i + 1) (by simpa using hi)) _

/-- A run never adds more than its payload, whichever opens fail. -/
theorem length_runAttempts_le (opens : ℕ → Bool) {ops : List FileOp} (file : Bytes) :
    (runAttempts opens ops file).length ≤ file.length + (payload ops).length := by
  induction ops generalizing opens file with
  | nil => simp [runAttempts]
  | cons op ops ih =>
      refine (ih _ _).trans ?_
      cases opens 0 <;> cases op <;> simp [FileOp.apply, FileOp.written]; omega

/-- One failed open of a non-empty append leaves the file short. -/
theorem length_runAttempts_lt {opens : ℕ → Bool} {ops : List FileOp} {i : ℕ}
    (hi : i < ops.length) (hfail : opens i = false) (hne : ops[i].written ≠ [])
    (file : Bytes) :
    (runAttempts opens ops file).length < file.length + (payload ops).length := by
  have hsplit : ops = ops.take i ++ ops[i] :: ops.drop (i + 1) := by simp
  have hlen : (ops.take i).length = i := by simp; omega
  have hpos : 0 < ops[i].written.length := List.length_pos_iff.mpr hne
  have hfront : (runAttempts opens (ops.take i) file).length ≤
      file.length + (payload (ops.take i)).length := length_runAttempts_le _ _
  rw [hsplit, runAttempts_append, hlen, runAttempts]
  simp only [Nat.zero_add, hfail, Bool.false_eq_true, if_false]
  refine lt_of_le_of_lt (length_runAttempts_le _ _) ?_
  simp only [payload_append, payload_cons, List.length_append]
  omega

/-! ## Death in the middle of a run -/

/-- What a dying process has appended is a prefix of what it would append. -/
theorem crashPayload_prefix (done torn : ℕ) (ops : List FileOp) :
    crashPayload done torn ops <+: payload ops := by
  have hsplit : payload ops = payload (ops.take done) ++ payload (ops.drop done) := by
    rw [← payload_append, List.take_append_drop]
  unfold crashPayload
  rcases hop : ops[done]? with _ | ⟨bytes⟩ | _
  · exact hsplit ▸ List.prefix_append _ _
  · obtain ⟨hlt, hget⟩ := List.getElem?_eq_some_iff.mp hop
    have hdrop : ops.drop done = .append bytes :: ops.drop (done + 1) := by
      rw [List.drop_eq_getElem_cons hlt, hget]
    rw [hsplit, hdrop, payload_cons, FileOp.written]
    exact (List.prefix_append_right_inj _).mpr
      ((List.take_prefix _ _).trans (List.prefix_append _ _))
  · exact hsplit ▸ List.prefix_append _ _

/-- A run that never empties the file leaves, at any death, the file with what
has been appended so far. -/
theorem crashAt_eq {ops : List FileOp} (h : AppendOnly ops) (done torn : ℕ)
    (file : Bytes) : crashAt done torn ops file = file ++ crashPayload done torn ops := by
  unfold crashAt crashPayload
  rw [runOps_eq (h.take done)]
  rcases ops[done]? with _ | ⟨bytes⟩ | _ <;> simp

/-- Death between operations. -/
theorem crashAt_untorn (done : ℕ) (ops : List FileOp) (file : Bytes) :
    crashAt done 0 ops file = runOps (ops.take done) file := by
  unfold crashAt
  rcases ops[done]? with _ | ⟨bytes⟩ | _ <;> simp

/-- Death after the first operation is death in the rest of the run. -/
theorem crashAt_succ_cons (done torn : ℕ) (op : FileOp) (ops : List FileOp)
    (file : Bytes) :
    crashAt (done + 1) torn (op :: ops) file = crashAt done torn ops (op.apply file) := by
  simp [crashAt]

theorem crashPayload_succ_cons (done torn : ℕ) (op : FileOp) (ops : List FileOp) :
    crashPayload (done + 1) torn (op :: ops) =
      op.written ++ crashPayload done torn ops := by
  unfold crashPayload
  rcases hop : ops[done]? with _ | ⟨bytes⟩ | _ <;> simp [hop]

/-- Death between two parts of a run. -/
theorem crashPayload_between (ops ops' : List FileOp) :
    crashPayload ops.length 0 (ops ++ ops') = payload ops := by
  unfold crashPayload
  rw [List.take_left]
  rcases (ops ++ ops')[ops.length]? with _ | ⟨bytes⟩ | _ <;> simp

end FileOps
