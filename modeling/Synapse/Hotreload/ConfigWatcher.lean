import Synapse.Foundations.Runs
import Synapse.Hotreload.DefaultFile

/-!
# The watcher of `config.toml`

The core's constructor writes the file if there is none and starts a thread that
compares the file's time with the last one it has seen.  Runs are made of the four
steps of that thread and of edits by the user, each at a second of its own.

The first time is captured without reading the file, so what the file says at that
moment is never applied.  After a later edit the configuration is the one the file
says, as soon as the watcher has polled (`configuration_reflects_file_iff`).

### Seconds

The watcher compares times in whole seconds, so two edits in one second may look like one.
Here every edit has a second of its own; `Hotreload.TimedEdits` is about those that do not.
The other source of trouble stays: the thread takes the file's time when it starts, without
reading the file, so an edit before that moment is seen as known.

The file is read and applied in two steps, and an edit between them makes the applied content
out of date; the next poll sees its time.  The invariant (`Follows`) tells for each position
of the thread which content it holds, and whether the configuration is that of the last
content that was read.
-/

namespace Synapse.Hotreload

open Numerals Atomic LastValue Runs

/-! ## The file -/

/-- The content of the file and the second it was written at. -/
structure ConfigFile where
  content : Text
  mtime : ℕ
  mtime_pos : 0 < mtime

/-- `get_mtime()`: 0 if there is no file. -/
def getMtime : Option ConfigFile → ℕ
  | none => 0
  | some f => f.mtime

/-- `read_file()`: empty if there is no file. -/
def readFile : Option ConfigFile → Text
  | none => []
  | some f => f.content

/-! ## The thread -/

/-- Where the thread is in `watch_loop()`. -/
inductive Phase where
  | starting
  | polling (lastModified : ℕ)
  | reading (lastModified current : ℕ)
  | applying (lastModified current : ℕ) (content : Text)

/-- The core, the file and the thread.  Besides, the seconds at which the file has
been written, whether the thread has polled since the last edit, and whether there
was an edit after the first time was captured. -/
structure Watched where
  core : ConfiguredCore
  file : Option ConfigFile
  phase : Phase
  seconds : List ℕ
  polled : Bool
  edited : Bool

/-- What happens next: an edit, or a step of the thread. -/
inductive Event where
  | edit (file : ConfigFile)
  | capture
  | poll
  | read
  | apply

namespace Watched

/-- The constructor, on a directory with the given file; without one it creates it,
at the given second, if it can. -/
def start (orig : OrigPointers) (existing : Option ConfigFile)
    (createdAt : Option {second : ℕ // 0 < second}) : Watched :=
  let core := ConfiguredCore.create orig
  let file := existing.or (createdAt.map fun second =>
    ⟨defaultContent core.config.current, second.val, second.property⟩)
  { core := core
    file := file
    phase := .starting
    seconds := (file.map ConfigFile.mtime).toList
    polled := false
    edited := false }

/-- One step.  An edit is not possible in a second in which the file was written
before; a content that cannot be applied ends the run. -/
def step (platform : Platform) (s : Watched) : Event → Option Watched
  | .edit file =>
      if file.mtime ∈ s.seconds then none
      else some { s with
        file := some file
        seconds := file.mtime :: s.seconds
        polled := false
        edited := match s.phase with
          | .starting => s.edited
          | _ => true }
  | .capture =>
      match s.phase with
      | .starting => some { s with phase := .polling (getMtime s.file) }
      | _ => none
  | .poll =>
      match s.phase with
      | .polling lastModified => some { s with
          phase := if getMtime s.file ≠ lastModified ∧ getMtime s.file ≠ 0 then
              .reading lastModified (getMtime s.file)
            else .polling lastModified
          polled := true }
      | _ => none
  | .read =>
      match s.phase with
      | .reading lastModified current =>
          some { s with phase := .applying lastModified current (readFile s.file) }
      | _ => none
  | .apply =>
      match s.phase with
      | .applying _ current content =>
          (s.core.applyConfigContent platform content).toOption.map fun core =>
            { s with core := core, phase := .polling current }
      | _ => none

/-- The thread has polled since the last edit, and has done what followed. -/
def Settled (s : Watched) : Prop :=
  s.polled = true ∧ ∃ lastModified, s.phase = .polling lastModified

end Watched

/-! ## What the file says -/

/-- Every setting the file states a value for has that value. -/
def Reflects (platform : Platform) (file : Option ConfigFile)
    (snap : Atomic.ConfigSnapshot) : Prop :=
  ∀ (setting : Setting) (v : setting.Value),
    lastSome (setting.stated platform) (textsFor setting (assignments (readFile file))) = some v →
      setting.read snap = v

/-- Every setting has the value of its last acceptable text in the content. -/
def Applied (platform : Platform) (content : Text) (snap : Atomic.ConfigSnapshot) : Prop :=
  ∀ (setting : Setting) (v : setting.Value),
    lastSome (setting.accepted platform) (textsFor setting (assignments content)) = some v →
      setting.read snap = v

/-- Of each setting the content states a value for, its last acceptable text has that
value. -/
def Outright (platform : Platform) (content : Text) : Prop :=
  ∀ (setting : Setting) (v : setting.Value),
    lastSome (setting.stated platform) (textsFor setting (assignments content)) = some v →
      lastSome (setting.accepted platform) (textsFor setting (assignments content)) = some v

variable {platform : Platform}

/-- A content that is applied without an error leaves what its lines say. -/
theorem applied_applyConfigContent {content : Text} {c c' : ConfiguredCore}
    (h : c.applyConfigContent platform content = .ok c') :
    Applied platform content c'.config.current := by
  intro setting v hv
  rw [ConfiguredCore.read_applyConfigContent h, settled, hv]
  rfl

/-- Where a value is stated, one is acceptable. -/
theorem exists_accepted_of_stated {setting : Setting} {texts : List Text} {v : setting.Value}
    (h : lastSome (setting.stated platform) texts = some v) :
    ∃ w, lastSome (setting.accepted platform) texts = some w := by
  cases hlast : lastEntry (setting.accepted platform) texts with
  | none =>
      rw [Setting.stated, (lastSome_of_lastEntry_none setting.isWhole hlast).2] at h
      cases h
  | some text =>
      obtain ⟨w, -, hw, -⟩ := lastSome_of_lastEntry hlast
      exact ⟨w, hw⟩

/-- The configuration is the one the file says if the file says it outright. -/
theorem reflects_iff_outright {file : ConfigFile} {snap : Atomic.ConfigSnapshot}
    (h : Applied platform file.content snap) :
    Reflects platform (some file) snap ↔ Outright platform file.content := by
  refine forall₃_congr fun setting v hv => ?_
  obtain ⟨w, hw⟩ := exists_accepted_of_stated hv
  rw [h setting w hw]
  constructor
  · rintro rfl
    exact hw
  · intro heq
    exact Option.some_injective _ (hw.symm.trans heq)

/-! ## The invariant -/

namespace Watched

/-- What the thread knows about the file, by where it is. -/
def Knows (platform : Platform) (snap₀ : Atomic.ConfigSnapshot) (s : Watched) : Prop :=
  match s.phase with
  | .starting => s.edited = false ∧ s.core.config.current = snap₀
  | .polling lastModified =>
      (lastModified ∈ s.seconds ∨ lastModified = 0) ∧
      (s.edited = false → s.core.config.current = snap₀ ∧ lastModified = getMtime s.file) ∧
      (s.edited = true → ∃ file, s.file = some file ∧
        (lastModified = file.mtime → Applied platform file.content s.core.config.current) ∧
        (s.polled = true → lastModified = file.mtime))
  | .reading _ current =>
      s.edited = true ∧ current ∈ s.seconds ∧
        ∃ file, s.file = some file ∧ (s.polled = true → current = file.mtime)
  | .applying _ current content =>
      s.edited = true ∧ current ∈ s.seconds ∧
        ∃ file, s.file = some file ∧ (s.polled = true → current = file.mtime) ∧
          (current = file.mtime → content = file.content)

/-- The file's time is one of those recorded, and the thread knows what it should. -/
structure Follows (platform : Platform) (snap₀ : Atomic.ConfigSnapshot) (s : Watched) : Prop where
  recorded : ∀ file, s.file = some file → file.mtime ∈ s.seconds
  knows : s.Knows platform snap₀

variable {snap₀ : Atomic.ConfigSnapshot} {s s' : Watched}

/-- An edit makes the file newer than anything the thread has seen. -/
theorem follows_edit {file' : ConfigFile} (h : s.Follows platform snap₀)
    (hstep : s.step platform (.edit file') = some s') : s'.Follows platform snap₀ := by
  obtain ⟨core, file, phase, seconds, polled, edited⟩ := s
  obtain ⟨-, hknows⟩ := h
  simp only [step, Option.ite_none_left_eq_some, Option.some.injEq] at hstep
  obtain ⟨hnew, rfl⟩ := hstep
  refine ⟨?_, ?_⟩
  · rintro file'' ⟨⟩
    exact List.mem_cons_self
  · -- the time seen last, if any, is not the new one
    cases phase with
    | starting => exact hknows
    | polling lastModified =>
        obtain ⟨hlast, -, -⟩ := hknows
        refine ⟨hlast.imp_left (List.mem_cons_of_mem _), nofun, fun _ => ⟨file', rfl, ?_, nofun⟩⟩
        rintro rfl
        rcases hlast with hold | hzero
        · exact absurd hold hnew
        · exact absurd hzero file'.mtime_pos.ne'
    | reading lastModified current =>
        obtain ⟨-, hcurrent, -⟩ := hknows
        exact ⟨rfl, List.mem_cons_of_mem _ hcurrent, file', rfl, nofun⟩
    | applying lastModified current content =>
        obtain ⟨-, hcurrent, -⟩ := hknows
        refine ⟨rfl, List.mem_cons_of_mem _ hcurrent, file', rfl, nofun, ?_⟩
        rintro rfl
        exact absurd hcurrent hnew

/-- The first time is taken without the content. -/
theorem follows_capture (h : s.Follows platform snap₀)
    (hstep : s.step platform .capture = some s') : s'.Follows platform snap₀ := by
  obtain ⟨core, file, phase, seconds, polled, edited⟩ := s
  obtain ⟨hrecorded, hknows⟩ := h
  cases phase with
  | starting =>
      obtain rfl := Option.some_injective _ hstep
      obtain ⟨hedited, hcore⟩ := hknows
      refine ⟨hrecorded, ?_, fun _ => ⟨hcore, rfl⟩,
        fun htrue => absurd (hedited.symm.trans htrue) (by decide)⟩
      cases file with
      | none => exact Or.inr rfl
      | some f => exact Or.inl (hrecorded f rfl)
  | polling => cases hstep
  | reading => cases hstep
  | applying => cases hstep

/-- A newer time is noticed. -/
theorem follows_poll (h : s.Follows platform snap₀) (hstep : s.step platform .poll = some s') :
    s'.Follows platform snap₀ := by
  obtain ⟨core, file, phase, seconds, polled, edited⟩ := s
  obtain ⟨hrecorded, hknows⟩ := h
  cases phase with
  | polling lastModified =>
      obtain rfl := Option.some_injective _ hstep
      obtain ⟨hlast, hcaptured, hseen⟩ := hknows
      refine ⟨hrecorded, ?_⟩
      cases edited with
      | false =>
          obtain ⟨hcore, hsame⟩ := hcaptured rfl
          rw [if_neg fun hchanged => hchanged.1 hsame.symm]
          exact ⟨hlast, fun _ => ⟨hcore, hsame⟩, nofun⟩
      | true =>
          obtain ⟨f, hfile, happlied, -⟩ := hseen rfl
          obtain rfl : file = some f := hfile
          by_cases hsame : f.mtime = lastModified
          · rw [if_neg fun hchanged => hchanged.1 hsame]
            exact ⟨hlast, nofun, fun _ => ⟨f, rfl, happlied, fun _ => hsame.symm⟩⟩
          · rw [if_pos ⟨hsame, f.mtime_pos.ne'⟩]
            exact ⟨rfl, hrecorded f rfl, f, rfl, fun _ => rfl⟩
  | starting => cases hstep
  | reading => cases hstep
  | applying => cases hstep

/-- The content is that of the file at this moment. -/
theorem follows_read (h : s.Follows platform snap₀) (hstep : s.step platform .read = some s') :
    s'.Follows platform snap₀ := by
  obtain ⟨core, file, phase, seconds, polled, edited⟩ := s
  obtain ⟨hrecorded, hknows⟩ := h
  cases phase with
  | reading lastModified current =>
      obtain rfl := Option.some_injective _ hstep
      obtain ⟨hedited, hcurrent, f, hfile, hpolled⟩ := hknows
      obtain rfl : file = some f := hfile
      exact ⟨hrecorded, hedited, hcurrent, f, rfl, hpolled, fun _ => rfl⟩
  | starting => cases hstep
  | polling => cases hstep
  | applying => cases hstep

/-- It is applied, or refused. -/
theorem follows_apply (h : s.Follows platform snap₀) (hstep : s.step platform .apply = some s') :
    s'.Follows platform snap₀ := by
  obtain ⟨core, file, phase, seconds, polled, edited⟩ := s
  obtain ⟨hrecorded, hknows⟩ := h
  cases phase with
  | applying lastModified current content =>
      cases hcontent : core.applyConfigContent platform content with
      | error e =>
          simp only [step, hcontent] at hstep
          cases hstep
      | ok core' =>
          simp only [step, hcontent] at hstep
          obtain rfl := Option.some_injective _ hstep
          obtain ⟨hedited, hcurrent, f, hfile, hpolled, hsame⟩ := hknows
          refine ⟨hrecorded, Or.inl hcurrent,
            fun hfalse => absurd (hedited.symm.trans hfalse) (by decide),
            fun _ => ⟨f, hfile, fun heq => ?_, hpolled⟩⟩
          rw [← hsame heq]
          exact applied_applyConfigContent hcontent
  | starting => cases hstep
  | polling => cases hstep
  | reading => cases hstep

/-- The step lemma. -/
theorem follows_step {event : Event} (h : s.Follows platform snap₀)
    (hstep : s.step platform event = some s') : s'.Follows platform snap₀ := by
  cases event with
  | edit file => exact follows_edit h hstep
  | capture => exact follows_capture h hstep
  | poll => exact follows_poll h hstep
  | read => exact follows_read h hstep
  | apply => exact follows_apply h hstep

/-- The constructor's own file, or the one that was there. -/
theorem follows_start (platform : Platform) (orig : OrigPointers) (existing : Option ConfigFile)
    (createdAt : Option {second : ℕ // 0 < second}) :
    (start orig existing createdAt).Follows platform
      (ConfiguredCore.create orig).config.current where
  recorded file hfile := by
    change (start orig existing createdAt).file = some file at hfile
    have hseconds : (start orig existing createdAt).seconds =
        ((start orig existing createdAt).file.map ConfigFile.mtime).toList := rfl
    rw [hseconds, hfile]
    exact List.mem_singleton_self _
  knows := ⟨rfl, rfl⟩

/-! ## Runs -/

/-- What the thread knows when it has settled. -/
theorem Follows.reflects_iff (h : s.Follows platform snap₀) (hsettled : s.Settled) :
    Reflects platform s.file s.core.config.current ↔
      s.edited = true ∧ Outright platform (readFile s.file) ∨
        s.edited = false ∧ Reflects platform s.file snap₀ := by
  obtain ⟨core, file, phase, seconds, polled, edited⟩ := s
  obtain ⟨hpolled, lastModified, hphase⟩ := hsettled
  obtain rfl : phase = .polling lastModified := hphase
  obtain ⟨-, -, hcaptured, hseen⟩ := h
  cases edited with
  | false =>
      obtain ⟨hcore, -⟩ := hcaptured rfl
      simp only [Bool.false_eq_true, false_and, true_and, false_or]
      exact iff_of_eq (congrArg (Reflects platform file) hcore)
  | true =>
      obtain ⟨f, hfile, happlied, hcurrent⟩ := hseen rfl
      obtain rfl : file = some f := hfile
      simp only [Bool.true_eq_false, false_and, true_and, or_false]
      exact reflects_iff_outright (happlied (hcurrent hpolled))

/-- **The configuration reflects the file** of a run in which the thread has settled
exactly if there was an edit after the first time was captured, and the file states
its values outright; or if there was none, and the file states what the settings
were at the start. -/
theorem configuration_reflects_file_iff (platform : Platform) (orig : OrigPointers)
    (existing : Option ConfigFile) (createdAt : Option {second : ℕ // 0 < second})
    (events : List Event) (s : Watched)
    (hrun : exec (step platform) (start orig existing createdAt) events = some s)
    (hsettled : s.Settled) :
    Reflects platform s.file s.core.config.current ↔
      s.edited = true ∧ Outright platform (readFile s.file) ∨
        s.edited = false ∧
          Reflects platform s.file (ConfiguredCore.create orig).config.current := by
  have hfollows : s.Follows platform (ConfiguredCore.create orig).config.current :=
    invariant_of_exec (step platform) (fun _ _ _ h hstep => follows_step h hstep)
      (follows_start platform orig existing createdAt) hrun
  exact hfollows.reflects_iff hsettled

/-- The default file is reflected from the start. -/
theorem reflects_default (platform : Platform) (orig : OrigPointers)
    (createdAt : Option {second : ℕ // 0 < second}) :
    Reflects platform (start orig none createdAt).file
      (ConfiguredCore.create orig).config.current := by
  intro setting v hv
  obtain ⟨text, htext, hstated⟩ := mem_of_lastSome hv
  rw [mem_textsFor] at htext
  cases createdAt with
  | none =>
      have hnothing : assignments [] = [] := rfl
      change (setting, text) ∈ assignments [] at htext
      rw [hnothing] at htext
      exact absurd htext List.not_mem_nil
  | some second =>
      have hwritten := stated_defaultContent platform (ConfiguredCore.create orig).config.valid
        rfl rfl rfl htext
      exact Option.some_injective _ (hwritten.symm.trans hstated)

/-- A file from an earlier session. -/
def savedFile : ConfigFile where
  content := ascii "power_budget = 25\n"
  mtime := 1
  mtime_pos := by decide

/-- The file of the example sets one value. -/
theorem assignments_savedFile :
    assignments savedFile.content = [(.powerBudget, ascii "25")] := by decide

/-- And says it outright. -/
theorem outright_savedFile : Outright .quiet64 savedFile.content := by
  intro setting v hv
  obtain ⟨text, htext, -⟩ := mem_of_lastSome hv
  rw [mem_textsFor, assignments_savedFile, List.mem_singleton] at htext
  obtain ⟨rfl, rfl⟩ := Prod.mk.inj htext
  rw [assignments_savedFile] at hv ⊢
  -- the one text is a value within the bounds
  exact hv

/-- The default file is written at the start; two seconds later the user replaces it. -/
def userEdits : List Event :=
  [.capture, .poll, .edit { savedFile with mtime := 3, mtime_pos := by decide }, .poll, .read,
    .apply]

/-- The user's power budget is in force. -/
theorem edited_file_reflected :
    ∃ s, exec (step .quiet64)
        (start ⟨true, true, true, true, true⟩ none (some ⟨1, by decide⟩)) userEdits = some s ∧
      Setting.powerBudget.read s.core.config.current = (25 : UInt32) ∧
      Reflects .quiet64 s.file s.core.config.current := by
  obtain ⟨s, hrun, hsettled, hedited, hfile, hbudget⟩ : ∃ s,
      exec (step .quiet64)
        (start ⟨true, true, true, true, true⟩ none (some ⟨1, by decide⟩)) userEdits = some s ∧
      s.Settled ∧ s.edited = true ∧ readFile s.file = savedFile.content ∧
      Setting.powerBudget.read s.core.config.current = (25 : UInt32) :=
    ⟨_, rfl, ⟨rfl, _, rfl⟩, rfl, rfl, rfl⟩
  refine ⟨s, hrun, hbudget, (configuration_reflects_file_iff .quiet64 _ none _ userEdits s hrun
    hsettled).mpr (Or.inl ⟨hedited, ?_⟩)⟩
  rw [hfile]
  exact outright_savedFile

/-- What was saved before a restart is not in force after it. -/
theorem saved_settings_not_in_force :
    ∃ s, exec (step .quiet64)
        (start ⟨true, true, true, true, true⟩ (some savedFile) none) [.capture, .poll] = some s ∧
      s.Settled ∧
      ¬ Reflects .quiet64 s.file s.core.config.current := by
  refine ⟨_, rfl, ⟨rfl, _, rfl⟩, fun h => ?_⟩
  have hstated : lastSome (Setting.powerBudget.stated .quiet64)
      (textsFor .powerBudget (assignments savedFile.content)) = some (25 : UInt32) := by
    rw [assignments_savedFile]
    rfl
  exact absurd (h .powerBudget 25 hstated) (by decide)

end Watched

end Synapse.Hotreload
