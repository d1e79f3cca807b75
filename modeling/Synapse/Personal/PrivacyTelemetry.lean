import Synapse.Foundations.ByteRecords
import Synapse.Foundations.LastValue
import Synapse.Foundations.Numerals
import Synapse.Foundations.Runs

/-!
# `privacy_telemetry.h`

Noised values with a budget, and a local storage with consents.

The budget is only spent and never looked at.  Every release of a noised value costs the
same, so the budget is a bound exactly for as many releases as it covers
(`budget_bound_iff`).

The storage keeps entries and consents as it should (`export_parts_right`), but `export_data`
asks for the consent while it holds the mutex that `has_consent` waits for, and never
returns (`never_exports`).

### Two ways not to hold

The budget is a number that is subtracted from and compared with nothing, so the statement
about it is a sum: what a release costs is fixed by epsilon, and the budget covers that many
and no more.  The arithmetic is exact here, and the noise is an argument, since nothing
depends on it.

The storage has one mutex, which is not recursive, and a function that locks it twice.  In the
model a locked section is a function that needs the lock free (`underLock`); inside one,
another has no result.  That is all there is of the threads, for a call that waits for itself
waits whatever the others do.
-/

namespace Synapse

open Runs LastValue Numerals ByteRecords

/-- `DataClass` -/
inductive DataClass where
  | Public
  | Personal
  | Sensitive
  | Derived
  deriving DecidableEq, Repr

/-! ## `DifferentialPrivacy` -/

/-- `DifferentialPrivacy`, with its budget. -/
structure DifferentialPrivacy where
  epsilon : ℚ
  budgetRemaining : ℚ

namespace DifferentialPrivacy

/-- The whole of epsilon is the budget. -/
def create (epsilon : ℚ) : DifferentialPrivacy where
  epsilon := epsilon
  budgetRemaining := epsilon

/-- The L1 sensitivity. -/
def sensitivity : ℚ := 1

/-- What a release takes from the budget. -/
def cost (d : DifferentialPrivacy) : ℚ := sensitivity / d.epsilon

/-- `privatize`, with the noise that `laplace_noise` has drawn and the conversion to the
type of the value. -/
def privatize (staticCast : ℚ → ℚ) (value noise : ℚ) (classification : DataClass)
    (d : DifferentialPrivacy) : ℚ × DifferentialPrivacy :=
  match classification with
  | .Public => (value, d)
  | .Sensitive => (0, d)
  | .Personal | .Derived =>
      (staticCast (value + noise), { d with budgetRemaining := d.budgetRemaining - d.cost })

end DifferentialPrivacy

/-- A call of `privatize` for values of some type, with the noise that is drawn. -/
structure PrivatizeCall where
  staticCast : ℚ → ℚ
  value : ℚ
  noise : ℚ
  classification : DataClass

/-- The call releases a noised value. -/
def PrivatizeCall.IsRelease (a : PrivatizeCall) : Prop :=
  a.classification = .Personal ∨ a.classification = .Derived

instance (a : PrivatizeCall) : Decidable a.IsRelease := inferInstanceAs (Decidable (_ ∨ _))

/-- The mechanism, and the cost of all releases so far. -/
structure PrivacyRun where
  privacy : DifferentialPrivacy
  spent : ℚ

namespace PrivacyRun

/-- Nothing has been spent. -/
def start (epsilon : ℚ) : PrivacyRun where
  privacy := .create epsilon
  spent := 0

/-- One call, with what the releases have cost so far. -/
def step (s : PrivacyRun) (a : PrivatizeCall) : Option PrivacyRun := some {
  privacy := (s.privacy.privatize a.staticCast a.value a.noise a.classification).2
  spent := if a.IsRelease then s.spent + s.privacy.cost else s.spent }

/-- The budget does not become negative, a release is covered by it, and all releases
together do not cost more than the budget at first, which is epsilon. -/
def BudgetIsBound (s : PrivacyRun) (a : PrivatizeCall) : Prop :=
  (a.IsRelease → s.privacy.cost ≤ s.privacy.budgetRemaining) ∧
    ∀ s', s.step a = some s' →
      0 ≤ s'.privacy.budgetRemaining ∧ s'.spent ≤ s'.privacy.epsilon

/-- The number of releases. -/
def releases (calls : List PrivatizeCall) : ℕ := calls.countP fun a => a.IsRelease

/-- The state after a number of releases. -/
def afterReleases (epsilon : ℚ) (n : ℕ) : PrivacyRun where
  privacy := {
    epsilon := epsilon
    budgetRemaining := epsilon - n * (1 / epsilon) }
  spent := n * (1 / epsilon)

variable {epsilon : ℚ}

/-- A call is a release, or leaves everything as it is. -/
theorem step_afterReleases (n : ℕ) (a : PrivatizeCall) :
    (afterReleases epsilon n).step a =
      some (afterReleases epsilon (if a.IsRelease then n + 1 else n)) := by
  obtain ⟨staticCast, value, noise, classification⟩ := a
  have hrelease : ((n + 1 : ℕ) : ℚ) * (1 / epsilon) = n * (1 / epsilon) + 1 / epsilon := by
    push_cast
    ring
  cases classification with
  | Public | Sensitive => rfl
  | Personal | Derived =>
      show some (PrivacyRun.mk ⟨epsilon, epsilon - n * (1 / epsilon) - 1 / epsilon⟩
        (n * (1 / epsilon) + 1 / epsilon)) =
          some (PrivacyRun.mk ⟨epsilon, epsilon - ((n + 1 : ℕ) : ℚ) * (1 / epsilon)⟩
            (((n + 1 : ℕ) : ℚ) * (1 / epsilon)))
      rw [hrelease, sub_sub]

/-- The budget covers as many releases as the square of epsilon. -/
theorem covered_iff (hepsilon : 0 < epsilon) (n : ℕ) :
    (n : ℚ) * (1 / epsilon) ≤ epsilon ↔ (n : ℚ) ≤ epsilon ^ 2 := by
  rw [mul_one_div, div_le_iff₀ hepsilon, sq]

/-- **One call.** -/
theorem budgetIsBound_iff (hepsilon : 0 < epsilon) (n : ℕ) (a : PrivatizeCall) :
    (afterReleases epsilon n).BudgetIsBound a ↔
      (((if a.IsRelease then n + 1 else n : ℕ) : ℚ) ≤ epsilon ^ 2) := by
  unfold BudgetIsBound
  rw [forall_step_iff step (step_afterReleases n a) fun s' =>
    0 ≤ s'.privacy.budgetRemaining ∧ s'.spent ≤ s'.privacy.epsilon]
  have hcover : ((if a.IsRelease then n + 1 else n : ℕ) : ℚ) * (1 / epsilon) ≤ epsilon ↔
      ((if a.IsRelease then n + 1 else n : ℕ) : ℚ) ≤ epsilon ^ 2 := covered_iff hepsilon _
  constructor
  · rintro ⟨-, -, hspent⟩
    exact hcover.mp hspent
  · intro hle
    have hspent := hcover.mpr hle
    refine ⟨fun hrelease => ?_, sub_nonneg.mpr hspent, hspent⟩
    rw [if_pos hrelease] at hspent
    show 1 / epsilon ≤ epsilon - n * (1 / epsilon)
    push_cast at hspent
    linarith

/-- The bound on the rest of a run, by induction on its calls. -/
theorem along_afterReleases (hepsilon : 0 < epsilon) {n : ℕ} (hn : (n : ℚ) ≤ epsilon ^ 2)
    (calls : List PrivatizeCall) :
    Along step BudgetIsBound (afterReleases epsilon n) calls ↔
      ((n + releases calls : ℕ) : ℚ) ≤ epsilon ^ 2 := by
  induction calls generalizing n with
  | nil => exact iff_of_true (along_nil _ _ _) hn
  | cons a calls ih =>
      rw [along_cons, forall_step_iff step (step_afterReleases n a) fun s' =>
        BudgetIsBound _ a ∧ Along step BudgetIsBound s' calls, budgetIsBound_iff hepsilon n]
      have hcount : n + releases (a :: calls) =
          (if a.IsRelease then n + 1 else n) + releases calls := by
        unfold releases
        rw [List.countP_cons]
        by_cases hrelease : a.IsRelease
        · rw [if_pos (decide_eq_true hrelease), if_pos hrelease]
          omega
        · rw [if_neg (by simpa using hrelease), if_neg hrelease]
          rfl
      rw [hcount]
      constructor
      · rintro ⟨hfirst, hrest⟩
        exact (ih hfirst).mp hrest
      · intro hall
        -- the releases of the rest come on top
        have hfirst : (((if a.IsRelease then n + 1 else n : ℕ)) : ℚ) ≤ epsilon ^ 2 :=
          (Nat.cast_le.mpr (Nat.le_add_right _ _)).trans hall
        exact ⟨hfirst, (ih hfirst).mpr hall⟩

/-- **The budget is a bound** exactly for as many releases as it covers. -/
theorem budget_bound_iff (hepsilon : 0 < epsilon) (calls : List PrivatizeCall) :
    Along step BudgetIsBound (start epsilon) calls ↔ (releases calls : ℚ) ≤ epsilon ^ 2 := by
  have hstart : start epsilon = afterReleases epsilon 0 := by
    simp [start, afterReleases, DifferentialPrivacy.create]
  rw [hstart, along_afterReleases hepsilon (by positivity), Nat.zero_add]

/-- A release of personal data without noise. -/
def release : PrivatizeCall := ⟨id, 0, 0, .Personal⟩

/-- With an epsilon of two, four releases are covered. -/
theorem four_releases_covered :
    Along step BudgetIsBound (start 2) [release, release, release, release] := by
  refine (budget_bound_iff two_pos _).mpr ?_
  show ((4 : ℕ) : ℚ) ≤ 2 ^ 2
  norm_num

/-- With the default epsilon, the second release is not covered. -/
theorem second_release_overdraws : ¬ Along step BudgetIsBound (start 1) [release, release] := by
  intro h
  have hbound := (h [release] release [] rfl _ _ rfl rfl).2 _ rfl
  have hnonneg : (0 : ℚ) ≤ 1 - 1 / 1 - 1 / 1 := hbound.1
  norm_num at hnonneg

end PrivacyRun

/-! ## `LocalStorage` -/

/-- An entry of the storage. -/
structure Entry where
  data : Bytes
  classification : DataClass
  deriving DecidableEq

/-- The storage, and whether its mutex is held. -/
structure LocalStorage where
  locked : Bool := false
  entries : List Entry := []
  consents : Text → Option Bool := fun _ => none

namespace LocalStorage

/-- What is done under a `lock_guard`, which never comes to it if the mutex is held already:
the mutex is not recursive, and there is one thread. -/
def underLock {α : Type} (body : LocalStorage → Option (α × LocalStorage)) (s : LocalStorage) :
    Option (α × LocalStorage) :=
  if s.locked then none
  else (body { s with locked := true }).map fun r => (r.1, { r.2 with locked := false })

/-- `store`, which refuses what is sensitive. -/
def store (data : Bytes) (classification : DataClass) (s : LocalStorage) :
    Option (Bool × LocalStorage) :=
  if classification = .Sensitive then some (false, s)
  else underLock
    (fun s => some (true, { s with entries := s.entries ++ [⟨data, classification⟩] })) s

/-- `has_consent`, false for a purpose without one. -/
def hasConsent (purpose : Text) : LocalStorage → Option (Bool × LocalStorage) :=
  underLock fun s => some ((s.consents purpose).getD false, s)

/-- What is exported once there is consent. -/
def exported (s : LocalStorage) : List Bytes :=
  (s.entries.filter fun e => e.classification ≠ .Sensitive).map Entry.data

/-- `export_data`, which asks for the consent inside its own section. -/
def exportData (purpose : Text) : LocalStorage → Option (List Bytes × LocalStorage) :=
  underLock fun s => (hasConsent purpose s).map fun consent =>
    if !consent.1 then ([], consent.2) else (consent.2.exported, consent.2)

/-- `grant_consent` -/
def grantConsent (purpose : Text) : LocalStorage → Option (Unit × LocalStorage) :=
  underLock fun s =>
    some ((), { s with consents := Function.update s.consents purpose (some true) })

/-- `revoke_consent` -/
def revokeConsent (purpose : Text) : LocalStorage → Option (Unit × LocalStorage) :=
  underLock fun s =>
    some ((), { s with consents := Function.update s.consents purpose (some false) })

/-! ### Runs -/

/-- The calls that change the storage. -/
inductive Call where
  | store (data : Bytes) (classification : DataClass)
  | grantConsent (purpose : Text)
  | revokeConsent (purpose : Text)

/-- One call. -/
def step (s : LocalStorage) : Call → Option LocalStorage
  | .store data classification => (s.store data classification).map Prod.snd
  | .grantConsent purpose => (s.grantConsent purpose).map Prod.snd
  | .revokeConsent purpose => (s.revokeConsent purpose).map Prod.snd

/-- What a call stores. -/
def Call.entry : Call → Option Entry
  | .store data classification =>
      if classification = .Sensitive then none else some ⟨data, classification⟩
  | _ => none

/-- What a call says about the consent for a purpose. -/
def Call.consent (purpose : Text) : Call → Option Bool
  | .grantConsent purpose' => if purpose = purpose' then some true else none
  | .revokeConsent purpose' => if purpose = purpose' then some false else none
  | .store _ _ => none

/-- The data that may be exported for a purpose after some calls. -/
def allowed (purpose : Text) (calls : List Call) : List Bytes :=
  if lastSome (Call.consent purpose) calls = some true then
    (calls.filterMap Call.entry).map Entry.data
  else []

/-- After the calls, `export_data` returns what may be exported. -/
def ExportFollowsConsent (purpose : Text) (calls : List Call) : Prop :=
  ∃ s s', exec step {} calls = some s ∧ s.exportData purpose = some (allowed purpose calls, s')

/-! ### What is stored -/

/-- The mutex is free, and entries and consents are those of the calls. -/
structure Keeps (calls : List Call) (s : LocalStorage) : Prop where
  free : s.locked = false
  entries : s.entries = calls.filterMap Call.entry
  consents : ∀ purpose, s.consents purpose = lastSome (Call.consent purpose) calls

/-- A section that gets the lock, runs, and gives it back. -/
theorem underLock_of_free {α : Type} {body : LocalStorage → Option (α × LocalStorage)}
    {s : LocalStorage} (h : s.locked = false) :
    underLock body s =
      (body { s with locked := true }).map fun r => (r.1, { r.2 with locked := false }) :=
  if_neg (by rw [h]; exact Bool.false_ne_true)

variable {calls : List Call} {s : LocalStorage}

/-- A consent is replaced by a later one for the same purpose. -/
theorem lastSome_consent_concat (purpose : Text) (calls : List Call) (call : Call) :
    lastSome (Call.consent purpose) (calls ++ [call]) =
      (call.consent purpose).or (lastSome (Call.consent purpose) calls) :=
  lastSome_concat _ _ _

/-- Storing adds an entry unless it is sensitive. -/
theorem Keeps.step_store (h : Keeps calls s) (data : Bytes) (classification : DataClass) :
    ∃ s', s.step (.store data classification) = some s' ∧
      Keeps (calls ++ [.store data classification]) s' := by
  have hconsents : ∀ purpose, s.consents purpose =
      lastSome (Call.consent purpose) (calls ++ [.store data classification]) := by
    intro purpose
    rw [lastSome_consent_concat]
    exact h.consents purpose
  by_cases hsensitive : classification = .Sensitive
  · have hentry : Call.entry (.store data classification) = none := if_pos hsensitive
    refine ⟨s, ?_, h.free, ?_, hconsents⟩
    · rw [LocalStorage.step, LocalStorage.store, if_pos hsensitive]
      rfl
    · rw [List.filterMap_append, h.entries, List.filterMap_cons_none hentry]
      exact (List.append_nil _).symm
  · have hentry : Call.entry (.store data classification) = some ⟨data, classification⟩ :=
      if_neg hsensitive
    refine ⟨{ s with locked := false, entries := s.entries ++ [⟨data, classification⟩] },
      ?_, rfl, ?_, hconsents⟩
    · rw [LocalStorage.step, LocalStorage.store, if_neg hsensitive, underLock_of_free h.free]
      rfl
    · rw [List.filterMap_append, List.filterMap_cons_some hentry]
      exact congrArg (· ++ _) h.entries

/-- A consent is granted and revoked in the same way. -/
theorem Keeps.set_consent (h : Keeps calls s) {call : Call} (purpose : Text) (consent : Bool)
    (hentry : call.entry = none)
    (hconsent : ∀ other, call.consent other = if other = purpose then some consent else none) :
    Keeps (calls ++ [call]) { s with
      locked := false, consents := Function.update s.consents purpose (some consent) } where
  free := rfl
  entries := by
    rw [List.filterMap_append, List.filterMap_cons_none hentry]
    exact h.entries.trans (List.append_nil _).symm
  consents other := by
    rw [lastSome_consent_concat, ← h.consents other, hconsent other]
    show Function.update s.consents purpose (some consent) other = _
    rw [Function.update_apply]
    split <;> rfl

/-- The step lemma. -/
theorem Keeps.step (h : Keeps calls s) (call : Call) :
    ∃ s', s.step call = some s' ∧ Keeps (calls ++ [call]) s' := by
  cases call with
  | store data classification => exact h.step_store data classification
  | grantConsent purpose =>
      refine ⟨_, ?_, h.set_consent purpose true rfl fun _ => rfl⟩
      rw [LocalStorage.step, LocalStorage.grantConsent, underLock_of_free h.free]
      rfl
  | revokeConsent purpose =>
      refine ⟨_, ?_, h.set_consent purpose false rfl fun _ => rfl⟩
      rw [LocalStorage.step, LocalStorage.revokeConsent, underLock_of_free h.free]
      rfl

/-- **The storage keeps what it is told**, and every call returns. -/
theorem keeps_exec (calls : List Call) : ∃ s, exec step {} calls = some s ∧ Keeps calls s := by
  induction calls using List.reverseRecOn with
  | nil => exact ⟨{}, rfl, rfl, rfl, fun _ => rfl⟩
  | append_singleton calls call ih =>
      obtain ⟨s, hexec, hkeeps⟩ := ih
      obtain ⟨s', hstep, hkeeps'⟩ := hkeeps.step call
      refine ⟨s', ?_, hkeeps'⟩
      rw [exec_append, hexec, Option.bind_some, exec, hstep]
      rfl

/-- The answer of `has_consent` is the last one given for the purpose. -/
theorem Keeps.hasConsent (h : Keeps calls s) (purpose : Text) :
    s.hasConsent purpose = some (decide (lastSome (Call.consent purpose) calls = some true),
      { s with locked := false }) := by
  rw [LocalStorage.hasConsent, underLock_of_free h.free]
  show some ((s.consents purpose).getD false, _) = _
  rw [h.consents purpose]
  rcases lastSome (Call.consent purpose) calls with _ | _ | _ <;> rfl

/-- No stored entry is sensitive. -/
theorem Keeps.exported (h : Keeps calls s) :
    s.exported = (calls.filterMap Call.entry).map Entry.data := by
  rw [LocalStorage.exported, h.entries]
  refine congrArg (List.map _) (List.filter_eq_self.mpr fun e he => ?_)
  obtain ⟨call, -, hentry⟩ := List.mem_filterMap.mp he
  cases call with
  | store data classification =>
      rw [Call.entry] at hentry
      split at hentry
      · cases hentry
      · rename_i hsensitive
        obtain rfl := Option.some_injective _ hentry
        exact decide_eq_true hsensitive
  | grantConsent purpose | revokeConsent purpose => cases hentry

/-- **What an export is made of is right** after any calls: the consent, and the data. -/
theorem export_parts_right (purpose : Text) (calls : List Call) :
    ∃ s, exec step {} calls = some s ∧
      (s.hasConsent purpose).map Prod.fst =
        some (decide (lastSome (Call.consent purpose) calls = some true)) ∧
      s.exported = (calls.filterMap Call.entry).map Entry.data := by
  obtain ⟨s, hexec, hkeeps⟩ := keeps_exec calls
  exact ⟨s, hexec, congrArg _ (hkeeps.hasConsent purpose), hkeeps.exported⟩

/-! ### The export -/

/-- `has_consent` waits for the mutex that `export_data` holds. -/
theorem exportData_eq_none (purpose : Text) (s : LocalStorage) : s.exportData purpose = none := by
  unfold exportData underLock
  split <;> rfl

/-- **An export never returns**, whatever has been stored and whoever has consented. -/
theorem never_exports (purpose : Text) (calls : List Call) :
    ¬ ExportFollowsConsent purpose calls := by
  rintro ⟨s, s', -, hreturned⟩
  rw [exportData_eq_none] at hreturned
  cases hreturned

/-- One public entry, and a consent. -/
theorem export_with_consent_hangs :
    allowed (ascii "analytics") [.store [42] .Public, .grantConsent (ascii "analytics")] = [[42]] ∧
      ¬ ExportFollowsConsent (ascii "analytics")
        [.store [42] .Public, .grantConsent (ascii "analytics")] := by
  refine ⟨by decide, ?_⟩
  rintro ⟨s, s', -, hreturned⟩
  rw [exportData_eq_none] at hreturned
  cases hreturned

end LocalStorage

end Synapse
