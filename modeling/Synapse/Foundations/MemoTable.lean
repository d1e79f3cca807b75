import Synapse.Foundations.Runs

/-!
# Memo tables

Values that are made for requests and kept in a table: a value is filed under one key of its
request and looked up under another.  A request for which nothing is found has a value made,
if it comes with what the value is made from.

A request should be answered with the value it was answered with before, and never with the
value of another request.  This is so exactly as long as the key of each request is the key
that an earlier one was filed under just if the two are the same (`foundAgain_iff_keysAgree`).

### Two keys of one request

A memo table is right if the key that a value is filed under and the key that it is looked up
under are the same function of the request.  Where they are two functions the table may still
be right in every case that occurs, and that is the condition here, on the requests made so
far: a request finds the value of an earlier one exactly if it is that request again.  Values
carry the request they were made for, so a wrong answer is a statement about the answer and
not about the table.
-/

namespace MemoTable

open Runs

/-- A value, the request it was made for, and how many had been made before. -/
structure Made (κ β : Type*) where
  request : κ
  number : ℕ
  value : β

/-- The table, the number of values made, the requests so far that came with a source, and
the answers to requests so far. -/
structure Memo (κ ι β : Type*) where
  table : ι → Option (Made κ β)
  made : ℕ
  provided : List κ
  answers : List (κ × Made κ β)

variable {κ ι β : Type*} (key file : κ → ι)

/-- No values and no answers. -/
def start : Memo κ ι β where
  table _ := none
  made := 0
  provided := []
  answers := []

/-- What is found for a request, or made from its source. -/
def answer (m : Memo κ ι β) (a : κ × Option β) : Option (Made κ β) :=
  (m.table (key a.1)).or (a.2.map fun value => ⟨a.1, m.made, value⟩)

/-- Whether a value is made. -/
def makes (m : Memo κ ι β) (a : κ × Option β) : Bool :=
  (m.table (key a.1)).isNone && a.2.isSome

/-- The table and the requests after a request. -/
def ask [DecidableEq ι] (m : Memo κ ι β) (a : κ × Option β) : Memo κ ι β where
  table :=
    if makes key m a then Function.update m.table (file a.1) (answer key m a) else m.table
  made := if makes key m a then m.made + 1 else m.made
  provided := m.provided ++ a.2.toList.map fun _ => a.1
  answers := m.answers ++ (answer key m a).toList.map fun e => (a.1, e)

/-- One request, with what a value could be made from. -/
def step [DecidableEq ι] (m : Memo κ ι β) (a : κ × Option β) : Option (Memo κ ι β) :=
  some (ask key file m a)

/-! ## What is asked -/

/-- A request that has been answered before gets the same value again, without one being
made, and no request gets the value of another. -/
def FoundAgain (m : Memo κ ι β) (a : κ × Option β) : Prop :=
  (∀ e, (a.1, e) ∈ m.answers → answer key m a = some e ∧ makes key m a = false) ∧
    ∀ e, answer key m a = some e → e.request = a.1

/-- The key of the request is one that an earlier request has been filed under just if it
is the same request. -/
def KeysAgree (m : Memo κ ι β) (a : κ × Option β) : Prop :=
  ∀ k ∈ m.provided, key a.1 = file k ↔ k = a.1

/-! ## What is in the table -/

variable {key file} {m : Memo κ ι β} {a : κ × Option β}

variable (key) in
/-- Either something is found, or a value is made, or neither. -/
theorem answer_cases (m : Memo κ ι β) (a : κ × Option β) :
    (∃ e, m.table (key a.1) = some e ∧ answer key m a = some e ∧ makes key m a = false) ∨
      (∃ value, a.2 = some value ∧ m.table (key a.1) = none ∧
        answer key m a = some ⟨a.1, m.made, value⟩ ∧ makes key m a = true) ∨
      (a.2 = none ∧ m.table (key a.1) = none ∧ answer key m a = none ∧
        makes key m a = false) := by
  unfold answer makes
  cases hfound : m.table (key a.1) with
  | some e => exact Or.inl ⟨e, rfl, rfl, rfl⟩
  | none =>
      cases hsource : a.2 with
      | some value => exact Or.inr (Or.inl ⟨value, rfl, rfl, rfl, rfl⟩)
      | none => exact Or.inr (Or.inr ⟨rfl, rfl, rfl, rfl⟩)

variable (key file) in
/-- Requests that came with a source have a value in the table, and those are the requests
that have been answered. -/
structure Consistent (m : Memo κ ι β) : Prop where
  filed : ∀ i e, m.table i = some e → file e.request = i ∧ e.request ∈ m.provided
  present : ∀ k ∈ m.provided, ∃ e, m.table (file k) = some e
  answered : ∀ k, (∃ e, (k, e) ∈ m.answers) ↔ k ∈ m.provided
  alone : ∀ i e, m.table i = some e → key e.request = i →
    ∀ k ∈ m.provided, file k = i → k = e.request
  same : ∀ k e, (k, e) ∈ m.answers → key k = file k →
    ∀ e', m.table (file k) = some e' → e'.request = k → e' = e

/-- An empty table is consistent. -/
theorem consistent_start : Consistent key file (start : Memo κ ι β) where
  filed := nofun
  present := nofun
  answered _ := iff_of_false (fun ⟨_, h⟩ => List.not_mem_nil h) List.not_mem_nil
  alone := nofun
  same := nofun

namespace Consistent

/-- **What is found again.** -/
theorem foundAgain_iff (h : Consistent key file m) (a : κ × Option β) :
    FoundAgain key m a ↔ KeysAgree key file m a := by
  constructor
  · rintro ⟨hagain, hown⟩ k hk
    constructor
    · intro hkey
      obtain ⟨e, he⟩ := h.present k hk
      rw [← hkey] at he
      have hrequest : e.request = a.1 := hown e (by rw [answer, he]; rfl)
      have hself : key e.request = key a.1 := by rw [hrequest]
      exact (h.alone _ e he hself k hk hkey.symm).trans hrequest
    · rintro rfl
      obtain ⟨e, he⟩ := (h.answered a.1).mpr hk
      obtain ⟨hanswer, hnone⟩ := hagain e he
      rcases answer_cases key m a with ⟨e', hfound, -, -⟩ | ⟨_, -, -, -, hmakes⟩ |
        ⟨-, -, hno, -⟩
      · have hrequest : e'.request = a.1 := hown e' (by rw [answer, hfound]; rfl)
        rw [← (h.filed _ e' hfound).1, hrequest]
      · exact absurd (hmakes.symm.trans hnone) Bool.true_eq_false.mp
      · exact absurd (hanswer.symm.trans hno) nofun
  · intro hagree
    -- an entry under the key of the request is its own
    have hown : ∀ e, m.table (key a.1) = some e → e.request = a.1 := by
      intro e he
      obtain ⟨hfile, hmem⟩ := h.filed _ e he
      exact (hagree e.request hmem).mp hfile.symm
    constructor
    · intro e he
      have hmem : a.1 ∈ m.provided := (h.answered a.1).mp ⟨e, he⟩
      have hkey : key a.1 = file a.1 := (hagree a.1 hmem).mpr rfl
      obtain ⟨e', he'⟩ := h.present a.1 hmem
      rw [← hkey] at he'
      have hsame : e' = e := h.same a.1 e he hkey e' (hkey ▸ he') (hown e' he')
      rw [answer, makes, he', hsame]
      exact ⟨rfl, rfl⟩
    · intro e he
      rcases answer_cases key m a with ⟨e', hfound, hanswer, -⟩ |
        ⟨value, -, -, hanswer, -⟩ | ⟨-, -, hno, -⟩
      · obtain rfl := Option.some_injective _ (hanswer.symm.trans he)
        exact hown e' hfound
      · obtain rfl := Option.some_injective _ (hanswer.symm.trans he)
        rfl
      · exact absurd (he.symm.trans hno) nofun

end Consistent

/-! ## What a request leaves -/

variable [DecidableEq ι]

/-- The requests for which a value could be made. -/
theorem mem_provided_ask {k : κ} :
    k ∈ (ask key file m a).provided ↔ k ∈ m.provided ∨ k = a.1 ∧ a.2.isSome = true := by
  show k ∈ m.provided ++ _ ↔ _
  rw [List.mem_append]
  refine or_congr_right ?_
  cases a.2 <;> simp

/-- The answers, this one last. -/
theorem mem_answers_ask {k : κ} {e : Made κ β} :
    (k, e) ∈ (ask key file m a).answers ↔
      (k, e) ∈ m.answers ∨ k = a.1 ∧ answer key m a = some e := by
  show (k, e) ∈ m.answers ++ _ ↔ _
  rw [List.mem_append]
  refine or_congr_right ?_
  cases answer key m a <;> simp [eq_comm]

/-- Without a value being made the table stays as it is. -/
theorem table_ask (h : makes key m a = false) : (ask key file m a).table = m.table :=
  if_neg (by rw [h]; exact Bool.false_ne_true)

/-- A value that is made is filed. -/
theorem table_ask_eq_some_iff (h : makes key m a = true) {i : ι} {e : Made κ β} :
    (ask key file m a).table i = some e ↔
      i = file a.1 ∧ answer key m a = some e ∨ i ≠ file a.1 ∧ m.table i = some e := by
  show (if makes key m a = true then Function.update m.table _ _ else m.table) i = some e ↔ _
  rw [if_pos h, Function.update_apply, ite_eq_iff]

namespace Consistent

/-- A request for which no value is made. -/
theorem ask_kept (h : Consistent key file m) (hfound : FoundAgain key m a)
    (hmakes : makes key m a = false) : Consistent key file (ask key file m a) := by
  have hanswer : ∀ e, answer key m a = some e → m.table (key a.1) = some e := by
    intro e he
    rcases answer_cases key m a with ⟨e', htable, hanswer, -⟩ | ⟨_, -, -, -, hmade⟩ |
      ⟨-, -, hno, -⟩
    · rw [htable, ← hanswer, he]
    · exact absurd (hmade.symm.trans hmakes) Bool.true_eq_false.mp
    · exact absurd (he.symm.trans hno) nofun
  have hmem : ∀ e, answer key m a = some e → a.1 ∈ m.provided := by
    intro e he
    rw [← hfound.2 e he]
    exact (h.filed _ e (hanswer e he)).2
  have hprovided : ∀ k, k ∈ (ask key file m a).provided ↔ k ∈ m.provided := by
    intro k
    rw [mem_provided_ask, or_iff_left_of_imp]
    rintro ⟨rfl, hsource⟩
    -- with a source there is always an answer
    rcases answer_cases key m a with ⟨e, -, he, -⟩ | ⟨_, -, -, he, -⟩ | ⟨hnone, -, -, -⟩
    · exact hmem _ he
    · exact hmem _ he
    · rw [hnone] at hsource
      cases hsource
  refine ⟨?_, ?_, ?_, ?_, ?_⟩
  · intro i e he
    rw [table_ask hmakes] at he
    exact ⟨(h.filed i e he).1, (hprovided _).mpr (h.filed i e he).2⟩
  · intro k hk
    rw [table_ask hmakes]
    exact h.present k ((hprovided k).mp hk)
  · intro k
    rw [hprovided, ← h.answered k]
    constructor
    · rintro ⟨e, he⟩
      rcases mem_answers_ask.mp he with hold | ⟨rfl, hnew⟩
      · exact ⟨e, hold⟩
      · exact (h.answered a.1).mpr (hmem e hnew)
    · rintro ⟨e, he⟩
      exact ⟨e, mem_answers_ask.mpr (Or.inl he)⟩
  · intro i e he hself k hk hfile
    rw [table_ask hmakes] at he
    exact h.alone i e he hself k ((hprovided k).mp hk) hfile
  · intro k e hk hkey e' he' hown
    rw [table_ask hmakes] at he'
    rcases mem_answers_ask.mp hk with hold | ⟨rfl, hnew⟩
    · exact h.same k e hold hkey e' he' hown
    · rw [← hkey, hanswer e hnew] at he'
      exact (Option.some_injective _ he').symm

/-- A request for which a value is made. -/
theorem ask_made (h : Consistent key file m) (hmakes : makes key m a = true) :
    Consistent key file (ask key file m a) := by
  obtain ⟨hsource, hnone, e₀, hanswer, hrequest⟩ : a.2.isSome = true ∧
      m.table (key a.1) = none ∧ ∃ e, answer key m a = some e ∧ e.request = a.1 := by
    rcases answer_cases key m a with ⟨_, -, -, hno⟩ | ⟨_, hsource, hnone, hanswer, -⟩ |
      ⟨-, -, -, hno⟩
    · exact absurd (hmakes.symm.trans hno) Bool.true_eq_false.mp
    · exact ⟨by rw [hsource]; rfl, hnone, _, hanswer, rfl⟩
    · exact absurd (hmakes.symm.trans hno) Bool.true_eq_false.mp
  have hnew : ∀ e, answer key m a = some e → e = e₀ := by
    intro e he
    exact Option.some_injective _ (he.symm.trans hanswer)
  -- a request that is looked up where it is filed has not been answered before
  have hfresh : key a.1 = file a.1 → ∀ k ∈ m.provided, file k ≠ file a.1 := by
    intro hkey k hk hfile
    obtain ⟨e, he⟩ := h.present k hk
    rw [hfile, ← hkey, hnone] at he
    cases he
  refine ⟨?_, ?_, ?_, ?_, ?_⟩
  · intro i e he
    rcases (table_ask_eq_some_iff hmakes).mp he with ⟨rfl, hmade⟩ | ⟨-, hold⟩
    · obtain rfl := hnew e hmade
      rw [hrequest]
      exact ⟨rfl, mem_provided_ask.mpr (Or.inr ⟨rfl, hsource⟩)⟩
    · exact ⟨(h.filed i e hold).1, mem_provided_ask.mpr (Or.inl (h.filed i e hold).2)⟩
  · intro k hk
    by_cases hfile : file k = file a.1
    · exact ⟨e₀, (table_ask_eq_some_iff hmakes).mpr (Or.inl ⟨hfile, hanswer⟩)⟩
    · rcases mem_provided_ask.mp hk with hold | ⟨rfl, -⟩
      · obtain ⟨e, he⟩ := h.present k hold
        exact ⟨e, (table_ask_eq_some_iff hmakes).mpr (Or.inr ⟨hfile, he⟩)⟩
      · exact absurd rfl hfile
  · intro k
    rw [mem_provided_ask, ← h.answered k]
    constructor
    · rintro ⟨e, he⟩
      rcases mem_answers_ask.mp he with hold | ⟨rfl, -⟩
      · exact Or.inl ⟨e, hold⟩
      · exact Or.inr ⟨rfl, hsource⟩
    · rintro (⟨e, he⟩ | ⟨rfl, -⟩)
      · exact ⟨e, mem_answers_ask.mpr (Or.inl he)⟩
      · exact ⟨e₀, mem_answers_ask.mpr (Or.inr ⟨rfl, hanswer⟩)⟩
  · intro i e he hself k hk hfile
    rcases (table_ask_eq_some_iff hmakes).mp he with ⟨rfl, hmade⟩ | ⟨hne, hold⟩
    · obtain rfl := hnew e hmade
      rw [hrequest] at hself ⊢
      rcases mem_provided_ask.mp hk with hold | ⟨rfl, -⟩
      · exact absurd hfile (hfresh hself k hold)
      · rfl
    · rcases mem_provided_ask.mp hk with hprovided | ⟨rfl, -⟩
      · exact h.alone i e hold hself k hprovided hfile
      · exact absurd hfile.symm hne
  · intro k e hk hkey e' he' hown
    rcases mem_answers_ask.mp hk with hold | ⟨rfl, he⟩
    · rcases (table_ask_eq_some_iff hmakes).mp he' with ⟨-, hmade⟩ | ⟨-, hkept⟩
      · -- the value is new, and its request would be an old one
        obtain rfl := hnew e' hmade
        obtain rfl : a.1 = k := hrequest.symm.trans hown
        exact absurd rfl (hfresh hkey a.1 ((h.answered a.1).mp ⟨e, hold⟩))
      · exact h.same k e hold hkey e' hkept hown
    · rcases (table_ask_eq_some_iff hmakes).mp he' with ⟨-, hmade⟩ | ⟨hne, -⟩
      · exact (hnew e' hmade).trans (hnew e he).symm
      · exact absurd rfl hne

/-- A request that is answered rightly keeps the table right. -/
theorem ask (h : Consistent key file m) (hfound : FoundAgain key m a) :
    Consistent key file (ask key file m a) := by
  cases hmakes : makes key m a with
  | false => exact h.ask_kept hfound hmakes
  | true => exact h.ask_made hmakes

end Consistent

variable (key file) in
/-- **Values are found again** exactly as long as the keys agree. -/
theorem foundAgain_iff_keysAgree (as : List (κ × Option β)) :
    Along (step key file) (FoundAgain key) start as ↔
      Along (step key file) (KeysAgree key file) start as := by
  refine along_iff_of_invariant _ (fun _ a _ h _ => h.foundAgain_iff a) ?_ consistent_start as
  intro m a m' h hstep hfound
  obtain rfl := Option.some_injective _ hstep
  exact h.ask hfound

end MemoTable
