import Synapse.Foundations.DirtyWords
import Synapse.Foundations.Runs

/-!
# `PushConstantOptimizer`

The shadow of the push constants in `push_constant_optimizer.h`, and a receiver that
executes what the builder is told to emit.

The shadow starts with zeros, which the receiver need not have.  A zero that has never
been sent is taken for known: it is sent with a full update or not at all.  So sender and
receiver stay equal exactly as far as such zeros are zeros of the receiver
(`receiverEqual_iff_zerosKnown`).

### What has been sent

The optimizer sends the words that differ from its shadow, or all of them when it has been
invalidated or more than half have changed.  Its shadow is what it believes the receiver to
hold.  It starts with zeros, so a word that is zero and has never been sent counts as known,
and the invariant has to say of each word whether it has been sent (`Shadowed`): those that
have are equal on both sides, the others are what the receiver had at the start.

The builder is declared in a header that the repository does not have.  It is a parameter,
together with a receiver that executes what it emits, and its laws are those of an array of
words (`Builder.Lawful`).
-/

namespace Synapse.Optimizer

open DirtyWords Runs

/-! ## The builder -/

/-- The emitters of the builder, and the words of a receiver that executes what has been
emitted. -/
structure Builder (β : Type*) where
  emitSetPushConstant : (ℕ → UInt32) → UInt32 → β → β
  emitDeltaUpdate : UInt8 → UInt32 → List UInt32 → β → β
  word : β → ℕ → UInt32

/-- `MAX_PUSH_CONSTANT_WORDS` -/
def MAX_PUSH_CONSTANT_WORDS : ℕ := 32

/-- A full update overwrites the first bytes, a delta with target `0x12` the words whose
bit is set, in ascending order. -/
structure Builder.Lawful {β : Type*} (builder : Builder β) : Prop where
  word_set : ∀ (data : ℕ → UInt32) (size : UInt32) (b : β) (i : ℕ), size % 4 = 0 →
    i < MAX_PUSH_CONSTANT_WORDS → builder.word (builder.emitSetPushConstant data size b) i =
      if i < (size / 4).toNat then data i else builder.word b i
  word_delta : ∀ (mask : UInt32) (payload : List UInt32) (b : β) (i : ℕ),
    payload.length = Nat.count (fun j => bit mask j = true) MAX_PUSH_CONSTANT_WORDS →
    i < MAX_PUSH_CONSTANT_WORDS → builder.word (builder.emitDeltaUpdate 0x12 mask payload b) i =
      overwrite (bit mask) payload (builder.word b) i

/-! ## The optimizer -/

/-- The shadow of a command buffer; the array has the words below
`MAX_PUSH_CONSTANT_WORDS`. -/
structure PushConstantState where
  shadowMemory : ℕ → UInt32 := fun _ => 0
  isInvalidated : Bool := true

/-- `PushConstantOptimizer`: a shadow for each command buffer. -/
structure PushConstantOptimizer where
  contexts : UInt64 → Option PushConstantState := fun _ => none
  totalUpdates : UInt64 := 0
  totalChanges : UInt64 := 0

/-- What the loop of `process_update` collects. -/
structure Scan where
  shadowMemory : ℕ → UInt32
  dirtyMask : UInt32
  payload : List UInt32
  changedCount : UInt32

/-- The body of the loop. -/
def Scan.word (isInvalidated : Bool) (newValues : ℕ → UInt32) (scan : Scan) (i : ℕ) : Scan :=
  if isInvalidated || scan.shadowMemory i != newValues i then
    { shadowMemory := Function.update scan.shadowMemory i (newValues i)
      dirtyMask := scan.dirtyMask ||| (1 <<< UInt32.ofNat i)
      payload := scan.payload ++ [newValues i]
      changedCount := scan.changedCount + 1 }
  else scan

/-- The loop over the first words. -/
def PushConstantState.scan (state : PushConstantState) (newValues : ℕ → UInt32)
    (wordCount : ℕ) : Scan :=
  (List.range wordCount).foldl (Scan.word state.isInvalidated newValues) {
    shadowMemory := state.shadowMemory
    dirtyMask := 0
    payload := []
    changedCount := 0 }

namespace PushConstantOptimizer

variable {β : Type*} (builder : Builder β)

/-- `contexts_[cmdBuffer]`. -/
def context (o : PushConstantOptimizer) (cmdBuffer : UInt64) : PushConstantState :=
  (o.contexts cmdBuffer).getD {}

/-- `process_update`. -/
def processUpdate (o : PushConstantOptimizer) (cmdBuffer : UInt64) (data : ℕ → UInt32)
    (size : UInt32) (b : β) : PushConstantOptimizer × β :=
  let state := o.context cmdBuffer
  let wordCount := size / 4
  let scan := state.scan data wordCount.toNat
  let b :=
    if state.isInvalidated || scan.changedCount > wordCount / 2 then
      builder.emitSetPushConstant data size b
    else if scan.changedCount > 0 then builder.emitDeltaUpdate 0x12 scan.dirtyMask scan.payload b
    else b
  -- the flag is cleared for all words, also for those behind the size
  ({ contexts := Function.update o.contexts cmdBuffer
       (some { shadowMemory := scan.shadowMemory, isInvalidated := false })
     totalUpdates := o.totalUpdates + 1
     totalChanges := if scan.changedCount > 0 then o.totalChanges + 1 else o.totalChanges }, b)

/-- `invalidate`, which keeps the shadow. -/
def invalidate (o : PushConstantOptimizer) (cmdBuffer : UInt64) : PushConstantOptimizer :=
  { o with
    contexts := Function.update o.contexts cmdBuffer
      (some { o.context cmdBuffer with isInvalidated := true }) }

end PushConstantOptimizer

/-! ## The loop -/

namespace PushConstantState

variable (state : PushConstantState) (data : ℕ → UInt32)

/-- The word is collected. -/
def dirty (i : ℕ) : Bool := state.isInvalidated || state.shadowMemory i != data i

/-- What the loop has collected after the first words. -/
structure Scanned (n : ℕ) (scan : Scan) : Prop where
  shadowMemory : ∀ i, scan.shadowMemory i = if i < n then data i else state.shadowMemory i
  dirtyMask : ∀ i, bit scan.dirtyMask i = (decide (i < n) && state.dirty data i)
  payload : scan.payload = DirtyWords.payload (state.dirty data) data n
  changedCount : scan.changedCount.toNat = Nat.count (fun i => state.dirty data i = true) n

variable {state data}

/-- One more word. -/
theorem Scanned.word {n : ℕ} {scan : Scan} (h : state.Scanned data n scan)
    (hn : n < MAX_PUSH_CONSTANT_WORDS) :
    state.Scanned data (n + 1) (scan.word state.isInvalidated data n) := by
  have hshadow : scan.shadowMemory n = state.shadowMemory n := by
    rw [h.shadowMemory, if_neg (lt_irrefl n)]
  have hcond : (state.isInvalidated || scan.shadowMemory n != data n) = state.dirty data n := by
    rw [hshadow]
    rfl
  have hsucc : ∀ i, i < n + 1 ↔ i < n ∨ i = n := fun i => Nat.lt_succ_iff_lt_or_eq
  unfold Scan.word
  rw [hcond]
  cases hdirty : state.dirty data n with
  | true =>
      have hcount : scan.changedCount.toNat ≤ n := h.changedCount ▸ Nat.count_le _
      have hone : (scan.changedCount + 1).toNat = scan.changedCount.toNat + 1 := by
        rw [UInt32.toNat_add, UInt32.toNat_one]
        exact Nat.mod_eq_of_lt (by unfold MAX_PUSH_CONSTANT_WORDS at hn; omega)
      refine ⟨fun i => ?_, fun i => ?_, ?_, ?_⟩
      · change Function.update scan.shadowMemory n (data n) i = _
        rw [Function.update_apply, h.shadowMemory]
        by_cases hi : i = n
        · rw [if_pos hi, if_pos ((hsucc i).mpr (Or.inr hi)), hi]
        · simp only [hi, hsucc, or_false, if_false]
      · change bit (scan.dirtyMask ||| (1 <<< UInt32.ofNat n)) i = _
        rw [bit_or_shiftLeft _ hn, h.dirtyMask]
        by_cases hi : i = n
        · simp [hi, hdirty]
        · simp [hi, hsucc]
      · change scan.payload ++ [data n] = _
        rw [payload_succ, if_pos hdirty, h.payload]
      · change (scan.changedCount + 1).toNat = _
        rw [hone, h.changedCount, Nat.count_succ, if_pos hdirty]
  | false =>
      have hclean : ¬ state.dirty data n = true := hdirty ▸ Bool.false_ne_true
      refine ⟨fun i => ?_, fun i => ?_, ?_, ?_⟩
      · change scan.shadowMemory i = _
        -- a clean word has its new value already
        have hsame : state.shadowMemory n = data n := by
          simp only [dirty, Bool.or_eq_false_iff, bne_eq_false_iff_eq] at hdirty
          exact hdirty.2
        rw [h.shadowMemory]
        by_cases hi : i = n
        · rw [hi, if_neg (lt_irrefl n), if_pos (Nat.lt_succ_self n), hsame]
        · simp only [hi, hsucc, or_false]
      · change bit scan.dirtyMask i = _
        rw [h.dirtyMask]
        by_cases hi : i = n
        · simp [hi, hdirty]
        · simp [hi, hsucc]
      · change scan.payload = _
        rw [payload_succ, if_neg hclean, List.append_nil, h.payload]
      · change scan.changedCount.toNat = _
        rw [Nat.count_succ, if_neg hclean, h.changedCount, Nat.add_zero]

/-- The loop has compared the first words; by induction on their number. -/
theorem scanned_scan {n : ℕ} (hn : n ≤ MAX_PUSH_CONSTANT_WORDS) :
    state.Scanned data n (state.scan data n) := by
  induction n with
  | zero => exact ⟨fun i => (if_neg (Nat.not_lt_zero i)).symm, bit_zero, rfl, rfl⟩
  | succ n ih =>
      rw [scan, List.range_succ, List.foldl_append]
      exact (ih (Nat.le_of_succ_le hn)).word hn

/-! ## What is sent -/

variable (state data)

/-- All words are sent: after an invalidation, or when more than half of them differ from
the shadow. -/
def IsFull (wordCount : ℕ) : Prop :=
  state.isInvalidated = true ∨
    wordCount / 2 < Nat.count (fun i => state.shadowMemory i ≠ data i) wordCount

instance (wordCount : ℕ) : Decidable (state.IsFull data wordCount) :=
  inferInstanceAs (Decidable (_ ∨ _))

/-- The word is sent. -/
def Sends (wordCount i : ℕ) : Prop :=
  i < wordCount ∧ (state.IsFull data wordCount ∨ state.shadowMemory i ≠ data i)

instance (wordCount i : ℕ) : Decidable (state.Sends data wordCount i) :=
  inferInstanceAs (Decidable (_ ∧ _))

variable {state data}

/-- A word that is not sent has its new value in the shadow. -/
theorem shadowMemory_of_not_sends {wordCount i : ℕ} (h : ¬ state.Sends data wordCount i)
    (hi : i < wordCount) : state.shadowMemory i = data i :=
  by_contra fun hne => h ⟨hi, Or.inr hne⟩

/-- Without an invalidation the words that are collected are those that differ. -/
theorem dirty_iff (hvalid : state.isInvalidated = false) (i : ℕ) :
    state.dirty data i = true ↔ state.shadowMemory i ≠ data i := by
  rw [dirty, hvalid, Bool.false_or, bne_iff_ne]

/-- When all words are sent. -/
theorem Scanned.isFull_iff {wordCount : UInt32} {scan : Scan}
    (h : state.Scanned data wordCount.toNat scan) :
    (state.isInvalidated || decide (scan.changedCount > wordCount / 2)) = true ↔
      state.IsFull data wordCount.toNat := by
  unfold IsFull
  rw [Bool.or_eq_true, decide_eq_true_iff]
  cases hvalid : state.isInvalidated with
  | true => exact iff_of_true (Or.inl rfl) (Or.inl rfl)
  | false =>
      refine or_congr_right ?_
      rw [gt_iff_lt, UInt32.lt_iff_toNat_lt, h.changedCount, UInt32.toNat_div]
      simp only [dirty_iff hvalid]
      rfl

/-- The mask has the bits of the words that differ. -/
theorem Scanned.bit_dirtyMask {n : ℕ} {scan : Scan} (h : state.Scanned data n scan) :
    bit scan.dirtyMask = fun i => decide (i < n) && state.dirty data i := funext h.dirtyMask

end PushConstantState

namespace PushConstantOptimizer

variable {β : Type*} {builder : Builder β}

/-- **What an update does to the receiver**: the words that are sent become those of the
data, and the others stay. -/
theorem word_processUpdate (hlawful : builder.Lawful) (o : PushConstantOptimizer)
    (cmdBuffer : UInt64) (data : ℕ → UInt32) {size : UInt32} (haligned : size % 4 = 0)
    (hfits : (size / 4).toNat ≤ MAX_PUSH_CONSTANT_WORDS) (b : β) {i : ℕ}
    (hi : i < MAX_PUSH_CONSTANT_WORDS) :
    builder.word (o.processUpdate builder cmdBuffer data size b).2 i =
      if (o.context cmdBuffer).Sends data (size / 4).toNat i then data i else builder.word b i := by
  have hscan : (o.context cmdBuffer).Scanned data (size / 4).toNat
      ((o.context cmdBuffer).scan data (size / 4).toNat) :=
    PushConstantState.scanned_scan hfits
  unfold processUpdate
  dsimp only
  by_cases hfull : (o.context cmdBuffer).IsFull data (size / 4).toNat
  · rw [if_pos (hscan.isFull_iff.mpr hfull), hlawful.word_set _ _ _ _ haligned hi]
    exact if_congr (and_iff_left (Or.inl hfull)).symm rfl rfl
  · rw [if_neg (hscan.isFull_iff.not.mpr hfull)]
    have hvalid : (o.context cmdBuffer).isInvalidated = false :=
      Bool.eq_false_iff.mpr fun hinvalid => hfull (Or.inl hinvalid)
    split
    · have hpayload : ((o.context cmdBuffer).scan data (size / 4).toNat).payload =
          payload (bit ((o.context cmdBuffer).scan data (size / 4).toNat).dirtyMask) data
            MAX_PUSH_CONSTANT_WORDS := by
        rw [hscan.payload, hscan.bit_dirtyMask, payload_below hfits]
      rw [hlawful.word_delta _ _ _ _ (by rw [hpayload, length_payload]) hi, hpayload,
        overwrite_payload (fun j hj => ?_), hscan.dirtyMask]
      · refine if_congr ?_ rfl rfl
        rw [Bool.and_eq_true, decide_eq_true_iff, PushConstantState.dirty_iff hvalid,
          PushConstantState.Sends, or_iff_right hfull]
      · rw [hscan.dirtyMask, Bool.and_eq_true, decide_eq_true_iff] at hj
        exact hj.1.trans_le hfits
    · rename_i hnone
      -- nothing has been collected, so that nothing differs
      have hcount : Nat.count (fun j => (o.context cmdBuffer).dirty data j = true)
          (size / 4).toNat = 0 := by
        rw [← hscan.changedCount]
        exact Nat.eq_zero_of_not_pos fun hpos => hnone (UInt32.lt_iff_toNat_lt.mpr hpos)
      rw [if_neg]
      rintro ⟨hlt, hfull' | hdiffers⟩
      · exact hfull hfull'
      · exact Nat.count_iff_forall_not.mp hcount i hlt
          ((PushConstantState.dirty_iff hvalid i).mpr hdiffers)

/-- The shadow behind an update has its words. -/
theorem context_processUpdate (o : PushConstantOptimizer) (cmdBuffer : UInt64)
    (data : ℕ → UInt32) (size : UInt32) (b : β) :
    (o.processUpdate builder cmdBuffer data size b).1.context cmdBuffer = {
      shadowMemory := ((o.context cmdBuffer).scan data (size / 4).toNat).shadowMemory
      isInvalidated := false } := by
  unfold processUpdate context
  dsimp only
  rw [Function.update_self]
  rfl

/-- The shadow changes in the same way. -/
theorem shadowMemory_processUpdate (o : PushConstantOptimizer) (cmdBuffer : UInt64)
    (data : ℕ → UInt32) {size : UInt32} (hfits : (size / 4).toNat ≤ MAX_PUSH_CONSTANT_WORDS)
    (b : β) (i : ℕ) :
    ((o.processUpdate builder cmdBuffer data size b).1.context cmdBuffer).shadowMemory i =
      if (o.context cmdBuffer).Sends data (size / 4).toNat i then data i
      else (o.context cmdBuffer).shadowMemory i := by
  rw [context_processUpdate]
  refine ((PushConstantState.scanned_scan hfits).shadowMemory i).trans ?_
  by_cases hsends : (o.context cmdBuffer).Sends data (size / 4).toNat i
  · rw [if_pos hsends.1, if_pos hsends]
  · rw [if_neg hsends]
    split
    · rename_i hi
      exact (PushConstantState.shadowMemory_of_not_sends hsends hi).symm
    · rfl

/-- Invalidating leaves the shadow as it is. -/
theorem shadowMemory_invalidate (o : PushConstantOptimizer) (cmdBuffer : UInt64) :
    ((o.invalidate cmdBuffer).context cmdBuffer).shadowMemory =
      (o.context cmdBuffer).shadowMemory := by
  unfold invalidate context
  dsimp only
  rw [Function.update_self]
  rfl

end PushConstantOptimizer

/-! ## Runs on one command buffer -/

/-- The data of an update, with a size that Vulkan allows. -/
structure Update where
  data : ℕ → UInt32
  size : UInt32
  aligned : size % 4 = 0
  fits : size ≤ 128

/-- The number of words of an update. -/
def Update.wordCount (u : Update) : ℕ := (u.size / 4).toNat

/-- It is within the shadow. -/
theorem Update.wordCount_le (u : Update) : u.wordCount ≤ MAX_PUSH_CONSTANT_WORDS := by
  have hfits : u.size.toNat ≤ 128 := UInt32.le_iff_toNat_le.mp u.fits
  rw [wordCount, UInt32.toNat_div]
  exact Nat.div_le_div_right hfits

/-- A call for one command buffer. -/
inductive Call where
  | invalidate
  | processUpdate (u : Update)

/-- The optimizer, what the receiver has, and which words it has been sent. -/
structure Pushed (β : Type*) where
  optimizer : PushConstantOptimizer
  receiver : β
  sent : ℕ → Bool

namespace Pushed

variable {β : Type*} (builder : Builder β) (c : UInt64) (b₀ : β)

/-- Nothing has been sent, and the receiver has whatever it has. -/
def start : Pushed β where
  optimizer := {}
  receiver := b₀
  sent _ := false

/-- One call, executed by the receiver at once. -/
def step (s : Pushed β) : Call → Option (Pushed β)
  | .invalidate => some { s with optimizer := s.optimizer.invalidate c }
  | .processUpdate u =>
      let updated := s.optimizer.processUpdate builder c u.data u.size s.receiver
      some {
        optimizer := updated.1
        receiver := updated.2
        sent i := s.sent i || decide ((s.optimizer.context c).Sends u.data u.wordCount i) }

/-- After an update the receiver's first words are those of the data. -/
def ReceiverEqual (s : Pushed β) : Call → Prop
  | .invalidate => True
  | .processUpdate u => ∀ i < u.wordCount,
      builder.word (s.optimizer.processUpdate builder c u.data u.size s.receiver).2 i = u.data i

/-- A zero that has never been sent is a zero of the receiver from the beginning, unless
the update sends all words. -/
def ZerosKnown (s : Pushed β) : Call → Prop
  | .invalidate => True
  | .processUpdate u => ∀ i < u.wordCount, u.data i = 0 → s.sent i = false →
      (s.optimizer.context c).IsFull u.data u.wordCount ∨ builder.word b₀ i = 0

/-- The receiver has the shadow of the words that have been sent.  Of the others the
shadow is 0 and the receiver has what it had. -/
structure Shadowed (s : Pushed β) : Prop where
  sent : ∀ i < MAX_PUSH_CONSTANT_WORDS, s.sent i = true →
    builder.word s.receiver i = (s.optimizer.context c).shadowMemory i
  unsent : ∀ i < MAX_PUSH_CONSTANT_WORDS, s.sent i = false →
    (s.optimizer.context c).shadowMemory i = 0 ∧ builder.word s.receiver i = builder.word b₀ i

variable {builder c b₀} {s s' : Pushed β}

/-- Nothing has been sent, and the receiver has what it has. -/
theorem shadowed_start : (start b₀).Shadowed builder c b₀ where
  sent := nofun
  unsent _ _ _ := ⟨rfl, rfl⟩

/-- Invalidating sends nothing. -/
theorem Shadowed.invalidate (h : s.Shadowed builder c b₀) :
    Shadowed builder c b₀ { s with optimizer := s.optimizer.invalidate c } where
  sent i hi hsent := by
    rw [PushConstantOptimizer.shadowMemory_invalidate]
    exact h.sent i hi hsent
  unsent i hi hsent := by
    rw [PushConstantOptimizer.shadowMemory_invalidate]
    exact h.unsent i hi hsent

section Step

variable (hlawful : builder.Lawful)

include hlawful

/-- Words are sent with their shadow, and a word that is not sent keeps its shadow. -/
theorem Shadowed.step {call : Call} (h : s.Shadowed builder c b₀)
    (hstep : s.step builder c call = some s') : s'.Shadowed builder c b₀ := by
  cases call with
  | invalidate =>
      obtain rfl := Option.some_injective _ hstep
      exact h.invalidate
  | processUpdate u =>
      obtain rfl := Option.some_injective _ hstep
      have hword : ∀ i < MAX_PUSH_CONSTANT_WORDS, builder.word
          (s.optimizer.processUpdate builder c u.data u.size s.receiver).2 i =
            if (s.optimizer.context c).Sends u.data u.wordCount i then u.data i
            else builder.word s.receiver i :=
        fun i hi => s.optimizer.word_processUpdate hlawful c u.data u.aligned u.wordCount_le
          s.receiver hi
      have hshadow : ∀ i, ((s.optimizer.processUpdate builder c u.data u.size
          s.receiver).1.context c).shadowMemory i =
            if (s.optimizer.context c).Sends u.data u.wordCount i then u.data i
            else (s.optimizer.context c).shadowMemory i :=
        s.optimizer.shadowMemory_processUpdate c u.data u.wordCount_le s.receiver
      refine ⟨fun i hi hsent => ?_, fun i hi hunsent => ?_⟩
      · refine (hword i hi).trans (Eq.trans ?_ (hshadow i).symm)
        split
        · rfl
        · rename_i hsends
          refine h.sent i hi ((Bool.or_eq_true _ _).mp hsent |>.resolve_right fun hnew => ?_)
          exact hsends (of_decide_eq_true hnew)
      · obtain ⟨hold, hnew⟩ := Bool.or_eq_false_iff.mp hunsent
        have hsends := of_decide_eq_false hnew
        obtain ⟨hzero, hsame⟩ := h.unsent i hi hold
        refine ⟨(hshadow i).trans ?_, (hword i hi).trans ?_⟩
        · rw [if_neg hsends, hzero]
        · rw [if_neg hsends, hsame]

/-- One update. -/
theorem Shadowed.receiverEqual_iff (h : s.Shadowed builder c b₀) (call : Call) :
    s.ReceiverEqual builder c call ↔ s.ZerosKnown builder c b₀ call := by
  cases call with
  | invalidate => exact Iff.rfl
  | processUpdate u =>
      refine forall₂_congr fun i hi => ?_
      have hmax := hi.trans_le u.wordCount_le
      have hword := s.optimizer.word_processUpdate hlawful c u.data u.aligned u.wordCount_le
        s.receiver hmax
      change _ = if (s.optimizer.context c).Sends u.data u.wordCount i then _ else _ at hword
      rw [hword]
      by_cases hsends : (s.optimizer.context c).Sends u.data u.wordCount i
      · -- a word that is sent arrives; if it is a zero that is new, all words are sent
        refine iff_of_true (if_pos hsends) fun hzero hunsent => Or.inl ?_
        -- the shadow of a word that is new to the receiver is 0
        refine hsends.2.resolve_right fun hdiffers => hdiffers ?_
        rw [(h.unsent i hmax hunsent).1, hzero]
      · have hshadow := PushConstantState.shadowMemory_of_not_sends hsends hi
        have hfull : ¬ (s.optimizer.context c).IsFull u.data u.wordCount :=
          fun hfull => hsends ⟨hi, Or.inl hfull⟩
        rw [if_neg hsends, ← hshadow, or_iff_right hfull]
        cases hsent : s.sent i with
        | true => exact iff_of_true (h.sent i hmax hsent) nofun
        | false =>
            obtain ⟨hzero, hsame⟩ := h.unsent i hmax hsent
            rw [hzero, hsame]
            exact ⟨fun heq _ _ => heq, fun heq => heq rfl rfl⟩

end Step

/-- **Sender and receiver stay equal exactly if the zeros that are never sent are known.** -/
theorem receiverEqual_iff_zerosKnown (hlawful : builder.Lawful) (c : UInt64) (b₀ : β)
    (calls : List Call) :
    Along (step builder c) (ReceiverEqual builder c) (start b₀) calls ↔
      Along (step builder c) (ZerosKnown builder c b₀) (start b₀) calls :=
  along_iff_of_invariant _ (fun _ call _ (hs : Shadowed _ _ _ _) _ =>
      hs.receiverEqual_iff hlawful call)
    (fun _ _ _ hs hstep _ => hs.step hlawful hstep) shadowed_start calls

/-! ## A receiver of words -/

/-- A receiver that is nothing but its words. -/
def wordReceiver : Builder (ℕ → UInt32) where
  emitSetPushConstant data size words i := if i < (size / 4).toNat then data i else words i
  emitDeltaUpdate _ mask payload words := overwrite (bit mask) payload words
  word words := words

/-- An array of words is such a receiver. -/
theorem lawful_wordReceiver : wordReceiver.Lawful where
  word_set _ _ _ _ _ _ := rfl
  word_delta _ _ _ _ _ _ := rfl

/-- A 5, then a 5 and a 9: the 9 is sent as a delta. -/
theorem receiverEqual_delta :
    Along (step wordReceiver 1) (ReceiverEqual wordReceiver 1) (start fun _ => 7)
      [.processUpdate ⟨fun _ => 5, 4, rfl, by decide⟩,
        .processUpdate ⟨fun i => if i = 0 then 5 else 9, 8, rfl, by decide⟩] := by
  refine (receiverEqual_iff_zerosKnown lawful_wordReceiver 1 _ _).mpr ?_
  refine along_of_step _ rfl (fun i _ hzero => ?_) <| along_of_step _ rfl (fun i _ hzero => ?_) <|
    along_nil _ _ _
  · exact absurd hzero (show (5 : UInt32) ≠ 0 by decide)
  · refine absurd hzero (show (if i = 0 then 5 else 9 : UInt32) ≠ 0 from ?_)
    split <;> decide

/-- A 5, then a 5 and a 0: the shadow has the 0 already, and the receiver keeps its 7. -/
theorem zero_never_sent :
    ¬ Along (step wordReceiver 1) (ReceiverEqual wordReceiver 1) (start fun _ => 7)
      [.processUpdate ⟨fun _ => 5, 4, rfl, by decide⟩,
        .processUpdate ⟨fun i => if i = 0 then 5 else 0, 8, rfl, by decide⟩] := by
  obtain ⟨s, hrun, hword⟩ : ∃ s, exec (step wordReceiver 1) (start fun _ => 7)
      [.processUpdate ⟨fun _ => 5, 4, rfl, by decide⟩] = some s ∧
      wordReceiver.word (s.optimizer.processUpdate wordReceiver 1
        (fun i => if i = 0 then 5 else 0) 8 s.receiver).2 1 = 7 := ⟨_, rfl, by decide⟩
  refine not_along _ hrun rfl (fun hequal => ?_) []
  have hseven := (hequal 1 (by decide)).symm.trans hword
  exact absurd hseven (show (0 : UInt32) ≠ 7 by decide)

end Pushed

end Synapse.Optimizer
