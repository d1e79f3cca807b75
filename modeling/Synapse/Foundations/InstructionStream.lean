import Mathlib

/-!
# Interpreting a stream of instructions

A loop that interprets a stream from a program counter on, and streams that hold the
encodings of a list of instructions back to back.

If each instruction is executed where its encoding begins, whatever stands before and
after it, then the loop executes the list (`run_flatMap`), and it visits the instructions
at their `positions`.

The loop has fuel, for the step function may stay where it is; if every step goes on, the
length of the stream is enough, and the statements are about that much.
-/

namespace InstructionStream

variable {β ι σ : Type*}

/-! ## The loop -/

section Loop

variable (step : List β → σ → Option σ) (pc : σ → ℕ)

/-- `while (pc < stream.size())`, with at most the given number of rounds. -/
def run (stream : List β) : ℕ → σ → Option σ
  | 0, s => if pc s < stream.length then none else some s
  | fuel + 1, s =>
      if pc s < stream.length then (step stream s).bind (run stream fuel) else some s

/-- The program counter goes on. -/
def Advances : Prop := ∀ stream s s', step stream s = some s' → pc s < pc s'

variable {step pc} {stream : List β}

/-- Behind the end nothing is done. -/
theorem run_of_le {s : σ} (h : stream.length ≤ pc s) (fuel : ℕ) :
    run step pc stream fuel s = some s := by
  cases fuel <;> rw [run, if_neg (Nat.not_lt.mpr h)]

/-- One step of the loop, where the stream has not ended. -/
theorem run_succ {s : σ} (h : pc s < stream.length) (fuel : ℕ) :
    run step pc stream (fuel + 1) s = (step stream s).bind (run step pc stream fuel) := by
  rw [run, if_pos h]

/-- **Rounds enough.**  A round for each element that is left is enough: more of them
change nothing. -/
theorem run_eq_run (hadvances : Advances step pc) {m n : ℕ} {s : σ}
    (hm : stream.length ≤ pc s + m) (hn : stream.length ≤ pc s + n) :
    run step pc stream m s = run step pc stream n s := by
  induction m generalizing n s with
  | zero =>
      have hle : stream.length ≤ pc s := hm
      rw [run_of_le hle, run_of_le hle]
  | succ m ih =>
      by_cases hlt : pc s < stream.length
      -- a round is used up for at least one element
      · cases n with
        | zero => exact absurd hn (Nat.not_le.mpr hlt)
        | succ n =>
            rw [run_succ hlt, run_succ hlt]
            refine Option.bind_congr fun s' hs' => ?_
            have hpc := hadvances stream s s' hs'
            exact ih (by omega) (by omega)
      · rw [run_of_le (Nat.not_lt.mp hlt), run_of_le (Nat.not_lt.mp hlt)]

/-- Invariants of the loop. -/
theorem invariant_of_run {Inv : σ → Prop}
    (hstep : ∀ s s', Inv s → step stream s = some s' → Inv s') {fuel : ℕ} {s s' : σ}
    (hs : Inv s) (h : run step pc stream fuel s = some s') : Inv s' := by
  induction fuel generalizing s with
  | zero =>
      rw [run] at h
      split at h
      · cases h
      · exact Option.some_injective _ h ▸ hs
  | succ fuel ih =>
      rw [run] at h
      split at h
      · obtain ⟨s₁, hs₁, hrest⟩ := Option.bind_eq_some_iff.mp h
        exact ih (hstep s s₁ hs hs₁) hrest
      · exact Option.some_injective _ h ▸ hs

/-- A state that the loop comes to. -/
def Reaches (step : List β → σ → Option σ) (pc : σ → ℕ) (stream : List β) : σ → σ → Prop :=
  Relation.ReflTransGen fun s s' => pc s < stream.length ∧ step stream s = some s'

/-- **The loop ends** behind the stream, if every round it comes to can be made. -/
theorem exists_run (hadvances : Advances step pc) {fuel : ℕ} {s : σ}
    (hfuel : stream.length ≤ pc s + fuel)
    (hprogress : ∀ s', Reaches step pc stream s s' → pc s' < stream.length →
      ∃ s'', step stream s' = some s'') :
    ∃ s', run step pc stream fuel s = some s' ∧ Reaches step pc stream s s' ∧
      stream.length ≤ pc s' := by
  induction fuel generalizing s with
  | zero =>
      have hle : stream.length ≤ pc s := hfuel
      exact ⟨s, run_of_le hle 0, .refl, hle⟩
  | succ fuel ih =>
      by_cases hlt : pc s < stream.length
      · obtain ⟨s₁, hs₁⟩ := hprogress s .refl hlt
        have hpc := hadvances stream s s₁ hs₁
        obtain ⟨s', hrun, hreaches, hend⟩ := ih (s := s₁) (by omega) fun s' hs' =>
          hprogress s' (.head ⟨hlt, hs₁⟩ hs')
        refine ⟨s', ?_, .head ⟨hlt, hs₁⟩ hreaches, hend⟩
        rw [run_succ hlt, hs₁]
        exact hrun
      · exact ⟨s, run_of_le (Nat.not_lt.mp hlt) _, .refl, Nat.not_lt.mp hlt⟩

/-- A loop that has ended has made all its rounds. -/
theorem Reaches.exists_step {fuel : ℕ} {s s' s'' : σ} (h : Reaches step pc stream s s')
    (hrun : run step pc stream fuel s = some s'') (hlt : pc s' < stream.length) :
    ∃ s₁, step stream s' = some s₁ := by
  induction h using Relation.ReflTransGen.head_induction_on generalizing fuel with
  | refl =>
      cases fuel with
      | zero =>
          rw [run, if_pos hlt] at hrun
          cases hrun
      | succ fuel =>
          rw [run_succ hlt, Option.bind_eq_some_iff] at hrun
          obtain ⟨s₁, hs₁, -⟩ := hrun
          exact ⟨s₁, hs₁⟩
  | head hround _ ih =>
      cases fuel with
      | zero =>
          rw [run, if_pos hround.1] at hrun
          cases hrun
      | succ fuel =>
          rw [run_succ hround.1, hround.2] at hrun
          exact ih hrun

/-- Invariants of the states that the loop comes to. -/
theorem Reaches.invariant {Inv : σ → Prop}
    (hstep : ∀ s s', Inv s → step stream s = some s' → Inv s') {s s' : σ}
    (h : Reaches step pc stream s s') (hs : Inv s) : Inv s' := by
  induction h with
  | refl => exact hs
  | tail _ hround ih => exact hstep _ _ ih hround.2

end Loop

/-! ## Encoded instructions -/

variable (encode : ι → List β)

/-- Where the instructions of a list begin, if the first one begins at `start`. -/
def positions : ℕ → List ι → List (ℕ × ι)
  | _, [] => []
  | start, i :: is => (start, i) :: positions (start + (encode i).length) is

variable {encode}

/-- Every instruction has its position. -/
theorem exists_mem_positions {i : ι} {is : List ι} (hi : i ∈ is) (start : ℕ) :
    ∃ p, (p, i) ∈ positions encode start is := by
  induction is generalizing start with
  | nil => cases hi
  | cons j is ih =>
      rcases List.mem_cons.mp hi with rfl | hmem
      · exact ⟨start, List.mem_cons_self⟩
      · obtain ⟨p, hp⟩ := ih hmem (start + (encode j).length)
        exact ⟨p, List.mem_cons_of_mem _ hp⟩

/-- No instruction is empty, so that there are at most as many as elements. -/
theorem length_le_length_flatMap (hencode : ∀ i, encode i ≠ []) (is : List ι) :
    is.length ≤ (is.flatMap encode).length := by
  induction is with
  | nil => exact le_rfl
  | cons i is ih =>
      have hpos : 0 < (encode i).length := List.length_pos_iff.mpr (hencode i)
      rw [List.flatMap_cons, List.length_append, List.length_cons]
      omega

section Execution

variable {step : List β → σ → Option σ} {pc : σ → ℕ} (execute : ι → σ → σ)

/-- **The loop executes the list**, if each instruction is executed where it stands and
takes the program counter behind itself. -/
theorem run_flatMap (hencode : ∀ i, encode i ≠ [])
    (hpc : ∀ i s, pc (execute i s) = pc s + (encode i).length) (is : List ι)
    (hstep : ∀ i ∈ is, ∀ front back s, pc s = front.length →
      step (front ++ (encode i ++ back)) s = some (execute i s))
    (front : List β) {s : σ} (hs : pc s = front.length) {fuel : ℕ} (hfuel : is.length ≤ fuel) :
    run step pc (front ++ is.flatMap encode) fuel s =
      some (is.foldl (fun s i => execute i s) s) := by
  induction is generalizing front s fuel with
  | nil =>
      rw [List.flatMap_nil, List.append_nil]
      exact run_of_le hs.ge fuel
  | cons i is ih =>
      cases fuel with
      | zero => exact absurd hfuel (Nat.not_succ_le_zero is.length)
      | succ fuel =>
          have hpos : 0 < (encode i).length := List.length_pos_iff.mpr (hencode i)
          have hlt : pc s < (front ++ (i :: is).flatMap encode).length := by
            rw [hs, List.length_append, List.flatMap_cons, List.length_append]
            omega
          rw [run_succ hlt, List.flatMap_cons, hstep i List.mem_cons_self front _ s hs,
            Option.bind_some, ← List.append_assoc, List.foldl_cons]
          refine ih (fun j hj => hstep j (List.mem_cons_of_mem i hj)) (front ++ encode i) ?_
            (Nat.le_of_succ_le_succ hfuel)
          rw [hpc, hs, List.length_append]

end Execution

/-- **What the loop gets through is a list of instructions**, if every round takes one. -/
theorem exists_flatMap_of_run {step : List β → σ → Option σ} {pc : σ → ℕ} {Takes : ι → Prop}
    {stream : List β}
    (hstep : ∀ s s', step stream s = some s' →
      ∃ i, Takes i ∧ stream.drop (pc s) = encode i ++ stream.drop (pc s'))
    {fuel : ℕ} {s s' : σ} (h : run step pc stream fuel s = some s') :
    ∃ is : List ι, (∀ i ∈ is, Takes i) ∧ stream.drop (pc s) = is.flatMap encode := by
  have hend : ∀ s, ¬ pc s < stream.length →
      ∃ is : List ι, (∀ i ∈ is, Takes i) ∧ stream.drop (pc s) = is.flatMap encode := by
    intro s hs
    refine ⟨[], List.forall_mem_nil _, ?_⟩
    exact List.drop_eq_nil_of_le (Nat.not_lt.mp hs)
  induction fuel generalizing s with
  | zero =>
      rw [run] at h
      split at h
      · cases h
      · rename_i hs
        exact hend s hs
  | succ fuel ih =>
      rw [run] at h
      split at h
      · obtain ⟨s₁, hs₁, hrest⟩ := Option.bind_eq_some_iff.mp h
        obtain ⟨i, hi, hdrop⟩ := hstep s s₁ hs₁
        obtain ⟨is, his, hflat⟩ := ih hrest
        refine ⟨i :: is, List.forall_mem_cons.mpr ⟨hi, his⟩, ?_⟩
        rw [hdrop, hflat, List.flatMap_cons]
      · rename_i hs
        exact hend s hs

end InstructionStream
