import Synapse.Foundations.Numerals
import Synapse.Foundations.Runs

/-!
# Edits and polls

The loop of `ConfigWatcher` on a file that is edited at any times.  A modification
time is a number of seconds with a fraction, in any ordered number system, and
`get_mtime` cuts the fraction off.  A poll looks at the file and delivers its content
if the second has changed.

So of the edits in one second the watcher delivers only what it finds at the first
poll in that second, and nothing of the second in which it started
(`final_edit_delivered_iff`).

### When an edit is found

A file is known to the watcher by a whole second, so what it finds depends on when it looks:
the first poll in a second takes the content at that moment and is blind to the rest of the
second.  The statement is about the last edit of a run, and its condition is a property of the
schedule alone, the times of edits and polls, and not of what the watcher has done
(`FoundFinished`).  Times are elements of any ordered number system with floors.
-/

namespace Synapse.Hotreload.Timed

open Numerals Runs

variable {T : Type*} [Semiring T] [LinearOrder T] [FloorSemiring T]

/-- The content of the file and when it was written. -/
structure TimedFile (T : Type*) [Semiring T] [LinearOrder T] where
  content : Text
  mtime : T
  mtime_pos : 0 < mtime

/-- `get_mtime()`: 0 if there is no file. -/
def getMtime : Option (TimedFile T) → ℕ
  | none => 0
  | some f => ⌊f.mtime⌋₊

/-- `read_file()`: empty if there is no file. -/
def readFile : Option (TimedFile T) → Text
  | none => []
  | some f => f.content

/-- `validate(content)`. -/
def validate (validators : List (Text → Bool)) (content : Text) : Bool :=
  validators.all fun v => v content

/-- The file, `last_modified_`, and the contents passed to the callbacks, the last one
first. -/
structure Watcher (T : Type*) [Semiring T] [LinearOrder T] where
  file : Option (TimedFile T)
  lastModified : ℕ
  notified : List Text

/-- An edit, or a poll. -/
inductive Event (T : Type*) [Semiring T] [LinearOrder T] where
  | edit (file : TimedFile T)
  | poll

/-- `watch_loop()` before its first iteration. -/
def capture (file : Option (TimedFile T)) : Watcher T where
  file := file
  lastModified := getMtime file
  notified := []

/-- One iteration of the loop. -/
def poll (validators : List (Text → Bool)) (s : Watcher T) : Watcher T :=
  let current := getMtime s.file
  if current ≠ s.lastModified ∧ current ≠ 0 then
    let content := readFile s.file
    if validate validators content then
      { s with lastModified := current, notified := content :: s.notified }
    else s
  else s

/-- A poll, or an edit that is not earlier than the one before it. -/
def step (validators : List (Text → Bool)) (s : Watcher T) : Event T → Option (Watcher T)
  | .edit file =>
      if ∀ f ∈ s.file, f.mtime ≤ file.mtime then some { s with file := some file } else none
  | .poll => some (poll validators s)

/-- The file at each poll, in order. -/
def looks : Option (TimedFile T) → List (Event T) → List (Option (TimedFile T))
  | _, [] => []
  | _, .edit file :: events => looks (some file) events
  | file, .poll :: events => file :: looks file events

/-- A last edit, and polls after it. -/
def schedule (before : List (Event T)) (last : TimedFile T) (n : ℕ) : List (Event T) :=
  before ++ Event.edit last :: List.replicate (n + 1) Event.poll

/-- The first poll that finds the file at the second of the last edit finds the
last edit, and the watcher did not start in that second. -/
def FoundFinished (file₀ : Option (TimedFile T)) (events : List (Event T)) (last : TimedFile T) :
    Prop :=
  getMtime file₀ ≠ getMtime (some last) ∧
    ∃ g, (looks file₀ events).find? (fun f => getMtime f = getMtime (some last)) = some g ∧
      readFile g = last.content

/-! ## One event -/

section Steps

variable {validators : List (Text → Bool)} {s s' : Watcher T}

/-- What was seen last is not later than the file. -/
def Behind (s : Watcher T) : Prop := s.lastModified ≤ getMtime s.file

/-- The watcher has seen no later second than that of the file. -/
theorem behind_capture (file : Option (TimedFile T)) : Behind (capture file) := le_rfl

/-- **A poll**, if every content is accepted: it delivers a second that has not been
seen. -/
theorem Behind.poll_cases (hvalid : ∀ content, validate validators content = true)
    (h : Behind s) :
    (getMtime s.file = s.lastModified ∧ poll validators s = s) ∨
    (s.lastModified < getMtime s.file ∧ poll validators s =
      { s with lastModified := getMtime s.file, notified := readFile s.file :: s.notified }) := by
  unfold poll
  simp only [hvalid, if_true]
  rcases h.lt_or_eq with hlater | hsame
  · exact .inr ⟨hlater, if_pos ⟨hlater.ne', (Nat.zero_le _).trans_lt hlater |>.ne'⟩⟩
  · exact .inl ⟨hsame.symm, if_neg fun hchanged => hchanged.1 hsame.symm⟩

/-- After a poll the file's second has been seen. -/
theorem Behind.poll (hvalid : ∀ content, validate validators content = true) (h : Behind s) :
    (Timed.poll validators s).file = s.file ∧
      (Timed.poll validators s).lastModified = getMtime s.file ∧
      Behind (Timed.poll validators s) := by
  rcases h.poll_cases hvalid with ⟨hsame, hpoll⟩ | ⟨-, hpoll⟩
  · rw [hpoll]
    exact ⟨rfl, hsame.symm, h⟩
  · rw [hpoll]
    exact ⟨rfl, rfl, le_rfl⟩

variable [IsStrictOrderedRing T]

/-- An edit only makes the file newer. -/
theorem Behind.edit (h : Behind s) {file : TimedFile T}
    (hstep : step validators s (.edit file) = some s') :
    s' = { s with file := some file } ∧ Behind s' := by
  obtain ⟨hlater, hs'⟩ := Option.ite_none_right_eq_some.mp hstep
  obtain rfl := Option.some_injective _ hs'
  refine ⟨rfl, h.trans ?_⟩
  cases hfile : s.file with
  | none => exact Nat.zero_le _
  | some f => exact Nat.floor_mono (hlater f hfile)

end Steps

/-! ## Runs -/

section Runs

variable {validators : List (Text → Bool)}
  (hvalid : ∀ content, validate validators content = true)
include hvalid

/-- Polls after the last edit. -/
theorem exec_polls {s s' : Watcher T} (h : Behind s) (n : ℕ)
    (hrun : exec (step validators) s (List.replicate (n + 1) .poll) = some s') :
    s'.file = s.file ∧ s'.lastModified = getMtime s.file := by
  obtain ⟨hfile, hlast, hbehind⟩ := h.poll hvalid
  induction n generalizing s with
  | zero =>
      obtain rfl := Option.some_injective _ hrun
      exact ⟨hfile, hlast⟩
  | succ n ih =>
      obtain ⟨hfile₁, hlast₁, hbehind₁⟩ := hbehind.poll hvalid
      obtain ⟨hfile', hlast'⟩ := ih hbehind hrun hfile₁ hlast₁ hbehind₁
      rw [hfile] at hfile' hlast'
      exact ⟨hfile', hlast'⟩

variable [IsStrictOrderedRing T]

/-- **What a run delivers.**  If the second seen last has changed, its first poll has
delivered what it found. -/
theorem exec_notified {s s' : Watcher T} (h : Behind s) {events : List (Event T)}
    (hrun : exec (step validators) s events = some s') :
    Behind s' ∧ s.lastModified ≤ s'.lastModified ∧
      s'.notified.head? =
        if s'.lastModified = s.lastModified then s.notified.head?
        else ((looks s.file events).find? fun f => getMtime f = s'.lastModified).map readFile := by
  induction events generalizing s with
  | nil =>
      obtain rfl := Option.some_injective _ hrun
      exact ⟨h, le_rfl, (if_pos rfl).symm⟩
  | cons event events ih =>
      rw [exec, Option.bind_eq_some_iff] at hrun
      obtain ⟨s₁, hstep, hrest⟩ := hrun
      cases event with
      | edit file =>
          obtain ⟨rfl, hbehind⟩ := h.edit hstep
          exact ih hbehind hrest
      | poll =>
          obtain rfl := Option.some_injective _ hstep
          obtain ⟨-, hseen, hbehind₁⟩ := h.poll hvalid
          obtain ⟨hbehind, hgrown, hhead⟩ := ih hbehind₁ hrest
          rw [hseen] at hgrown hhead
          refine ⟨hbehind, h.trans hgrown, ?_⟩
          rw [hhead, looks]
          rcases h.poll_cases hvalid with ⟨hsame, hpoll⟩ | ⟨hlater, hpoll⟩
          · -- a second that has been seen
            rw [hpoll, hsame]
            split_ifs with hend
            · rfl
            · rw [List.find?_cons_of_neg]
              rw [hsame, decide_eq_true_eq]
              exact fun heq => hend heq.symm
          · rw [hpoll, if_neg (hlater.trans_le hgrown).ne']
            split_ifs with hend
            · have hfound : (s.file :: looks s.file events).find?
                  (fun f => getMtime f = s'.lastModified) = some s.file :=
                List.find?_cons_of_pos (decide_eq_true hend.symm)
              rw [hfound]
              rfl
            · rw [List.find?_cons_of_neg]
              rw [decide_eq_true_eq]
              exact fun heq => hend heq.symm

end Runs

/-- **The final edit is delivered** once the file has been polled, exactly if the first
poll in its second found it. -/
theorem final_edit_delivered_iff [IsStrictOrderedRing T] {validators : List (Text → Bool)}
    (hvalid : ∀ v ∈ validators, ∀ content, v content = true) {file₀ : Option (TimedFile T)}
    {before : List (Event T)} {last : TimedFile T} {n : ℕ} {s : Watcher T}
    (hrun : exec (step validators) (capture file₀) (schedule before last n) = some s) :
    s.notified.head? = some (readFile s.file) ↔
      FoundFinished file₀ (schedule before last n) last := by
  have haccepting : ∀ content, validate validators content = true := fun content =>
    List.all_eq_true.mpr fun v hv => hvalid v hv content
  obtain ⟨-, -, hhead⟩ := exec_notified haccepting (behind_capture file₀) hrun
  rw [schedule, exec_append, Option.bind_eq_some_iff] at hrun
  obtain ⟨s₁, hbefore, hafter⟩ := hrun
  obtain ⟨s₂, hedit, hpolls⟩ := Option.bind_eq_some_iff.mp hafter
  obtain ⟨hbehind, -, -⟩ := exec_notified haccepting (behind_capture file₀) hbefore
  obtain ⟨rfl, hbehind₂⟩ := hbehind.edit hedit
  obtain ⟨hfile, hlast⟩ := exec_polls haccepting hbehind₂ n hpolls
  replace hfile : s.file = some last := hfile
  replace hlast : s.lastModified = getMtime (some last) := hlast
  replace hhead : s.notified.head? = if s.lastModified = getMtime file₀ then none else
      ((looks file₀ (schedule before last n)).find? fun f =>
        getMtime f = s.lastModified).map readFile := hhead
  rw [hhead, hfile, hlast, FoundFinished]
  by_cases hstart : getMtime file₀ = getMtime (some last)
  · rw [if_pos hstart.symm]
    exact iff_of_false nofun fun h => h.1 hstart
  · rw [if_neg (Ne.symm hstart), and_iff_right hstart, Option.map_eq_some_iff]
    rfl

/-- A poll in the next second after an edit. -/
theorem edit_delivered :
    ∃ s : Watcher ℝ, exec (step []) (capture none)
        (schedule [] ⟨ascii "epsilon = 0.1\n", 1, one_pos⟩ 0) = some s ∧
      (s.notified.head? = some (readFile s.file) ↔ FoundFinished none
        (schedule [] (⟨ascii "epsilon = 0.1\n", 1, one_pos⟩ : TimedFile ℝ) 0)
        ⟨ascii "epsilon = 0.1\n", 1, one_pos⟩) := by
  have hrun : exec (step []) (capture none)
      (schedule [] (⟨ascii "epsilon = 0.1\n", 1, one_pos⟩ : TimedFile ℝ) 0) =
        some (poll [] ⟨some ⟨ascii "epsilon = 0.1\n", 1, one_pos⟩, 0, []⟩) := by
    rw [schedule, List.nil_append, exec, step, if_pos fun f hf => by cases hf]
    rfl
  exact ⟨_, hrun, final_edit_delivered_iff (List.forall_mem_nil _) hrun⟩

/-- Half a second after one that is delivered, an edit is missed. -/
theorem second_edit_missed :
    ∃ s : Watcher ℝ, exec (step []) (capture none)
        [.edit ⟨ascii "epsilon = 0.1\n", 5 / 4, by norm_num⟩, .poll,
          .edit ⟨ascii "epsilon = 0.2\n", 7 / 4, by norm_num⟩, .poll] = some s ∧
      s.notified.head? ≠ some (readFile s.file) := by
  have hfirst : ⌊(5 / 4 : ℝ)⌋₊ = 1 := by
    rw [Nat.floor_eq_iff (by norm_num)]
    norm_num
  have hsecond : ⌊(7 / 4 : ℝ)⌋₊ = 1 := by
    rw [Nat.floor_eq_iff (by norm_num)]
    norm_num
  have hordered : (5 / 4 : ℝ) ≤ 7 / 4 := by norm_num
  have hcontent : ascii "epsilon = 0.1\n" ≠ ascii "epsilon = 0.2\n" := by decide
  simp [exec, step, poll, capture, getMtime, readFile, validate, hfirst, hsecond, hordered,
    hcontent]

end Synapse.Hotreload.Timed
