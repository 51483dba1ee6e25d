/-
# The journal over whole histories

A program configures the journal again and again: each module that asks for a logger does, each
run does with the level of its configuration, and a caller may at any time, with a level or
without.  Runs are entered and left in between, and a run may fail anywhere.  A history is a row
of such calls (`Call`), and a session is the journal together with the tokens of the runs that
were entered and not yet left.

Three numbers make up the settings of a journal, and a call either configures them
(`Settings.configured`) or leaves them alone (`settings_step`).  What a run writes, enters and
leaves does not count among them (`Job.Keeps`).  The run in progress is told by the ids of the
runs that are open (`Call.opened`): a token holds the id that was in progress outside of its
run (`Session.Tracks`).
-/

import Mathlib.Data.List.Induction
import SampleShape.Proofs.RunEffects

namespace SampleShape

/-! ### Levels by name -/

theorem CodePoint.toUpper_of_toLower_eq {c d : CodePoint} (hd : 0x41 ≤ d.val ∧ d.val ≤ 0x5A)
    (h : c.toLower = d.toLower) : c.toUpper = [d] := by
  have hsmall : (CodePoint.ofNat (d.val + 0x20)).val = d.val + 0x20 := by
    rw [CodePoint.ofNat, dif_pos (by omega)]
  have hlower : d.toLower.val = d.val + 0x20 := by
    rw [toLower, if_pos (by simpa using hd), hsmall]
  have hval := (congrArg CodePoint.val h).trans hlower
  unfold toLower at hval
  split at hval
  · -- a capital is the same capital, and has no others
    rename_i hc
    simp only [Bool.and_eq_true, decide_eq_true_eq] at hc
    rw [CodePoint.ofNat, dif_pos (by omega)] at hval
    have hcd : c = d := by
      obtain ⟨c, _⟩ := c
      obtain ⟨d, _⟩ := d
      simp only [mk.injEq]
      dsimp only at hval
      omega
    have hforeign : foreignCapitals.lookup c.val = none := by
      have hfar : ∀ p ∈ foreignCapitals, 0xDF ≤ p.1 := by decide
      rw [List.lookup_eq_none_iff]
      intro p hp
      have hle := hfar p hp
      simp only [bne_iff_ne]
      omega
    have hnot : ¬ (decide (0x61 ≤ c.val) && decide (c.val ≤ 0x7A)) = true := by
      simp only [Bool.and_eq_true, decide_eq_true_eq]
      omega
    rw [toUpper, if_neg hnot, hforeign, hcd]
  · have hin : (decide (0x61 ≤ c.val) && decide (c.val ≤ 0x7A)) = true := by
      simp only [Bool.and_eq_true, decide_eq_true_eq]
      omega
    rw [toUpper, if_pos hin, hval, Nat.add_sub_cancel]
    congr 1
    rw [CodePoint.ofNat, dif_pos d.isLt]

theorem Text.toUpper_of_toLower_eq {t n : Text} (hn : ∀ d ∈ n, 0x41 ≤ d.val ∧ d.val ≤ 0x5A)
    (h : t.toLower = n.toLower) : t.toUpper = n := by
  induction n generalizing t with
  | nil =>
    obtain rfl : t = [] := List.map_eq_nil_iff.1 h
    rfl
  | cons d n ih =>
    cases t with
    | nil => cases h
    | cons c t =>
      rw [toLower, toLower, List.map_cons, List.map_cons, List.cons.injEq] at h
      rw [List.forall_mem_cons] at hn
      rw [toUpper, List.flatMap_cons, CodePoint.toUpper_of_toLower_eq hn.1 h.1]
      exact congrArg (d :: ·) (ih hn.2 h.2)

namespace Level

/-- The threshold of a level that is named in letters of any case. -/
def ofSpelling? (t : Text) : Option Nat :=
  (thresholds.find? fun e => e.1.toLower == t.toLower).map Prod.snd

/-- **A level's name stands for its threshold,** whatever the case of its letters. -/
theorem threshold_of_ofSpelling? {t : Text} {n : Nat} (h : ofSpelling? t = some n) :
    threshold t = .ok n := by
  obtain ⟨e, he, rfl⟩ := Option.map_eq_some_iff.1 h
  have hcase : e.1.toLower = t.toLower := by simpa using List.find?_some he
  have htable : ∀ e ∈ thresholds, (∀ d ∈ e.1, 0x41 ≤ d.val ∧ d.val ≤ 0x5A) ∧
      e.1 ≠ Text.ofString "BASIC_FORMAT" ∧ e.1 ≠ Text.ofString "_STYLES" ∧
      thresholds.lookup e.1 = some e.2 := by decide
  obtain ⟨hcapitals, hformat, hstyles, hlookup⟩ := htable e (List.mem_of_find?_eq_some he)
  rw [threshold, Text.toUpper_of_toLower_eq hcapitals hcase.symm, if_neg hformat, if_neg hstyles,
    hlookup]
  rfl

end Level

/-! ### Settings -/

/-- What is configured of a journal: its two thresholds and the number of its handlers. -/
structure Settings where
  rootThreshold : Nat
  familyThreshold : Nat
  handlers : Nat

namespace Settings

/-- The root threshold that goes with a handler: `info`, or what is set below it. -/
def lowered (rootThreshold : Nat) : Nat :=
  if rootThreshold = Level.unset ∨ Level.info.rank < rootThreshold then Level.info.rank
  else rootThreshold

/-- The settings after a configuring call, which may give a threshold. -/
def configured (given : Option Nat) (s : Settings) : Settings :=
  if s.handlers = 0 then ⟨lowered s.rootThreshold, given.getD Level.info.rank, 1⟩
  else { s with familyThreshold := given.getD s.familyThreshold }

end Settings

namespace Journal

/-- The settings of a journal. -/
def settings (j : Journal) : Settings := ⟨j.rootThreshold, j.familyThreshold, j.handlers⟩

theorem settings_configure (j : Journal) : j.configure.settings = j.settings.configured none := by
  unfold configure install Settings.configured
  by_cases h : j.handlers = 0 <;> simp [settings, h, Settings.lowered]

theorem settings_install (familyThreshold : Nat) (j : Journal) :
    settings { j.install with familyThreshold } = j.settings.configured (some familyThreshold) := by
  unfold install Settings.configured
  by_cases h : j.handlers = 0 <;> simp [settings, h, Settings.lowered]

theorem settings_configureAt (level : Level) (j : Journal) :
    (j.configureAt level).settings = j.settings.configured (some level.rank) :=
  settings_install level.rank j

theorem settings_configureNamed {name : Text} {n : Nat} (h : Level.ofSpelling? name = some n)
    (j : Journal) : (j.configureNamed name).2.settings = j.settings.configured (some n) := by
  rw [configureNamed, Level.threshold_of_ofSpelling? h]
  exact settings_install n j

theorem settings_record (logger : Text) (level : Level) (message : Text) (j : Journal) :
    (j.record logger level message).settings = j.settings := by
  unfold record
  split
  · rfl
  · split
    · split <;> rfl
    · rfl

theorem settings_push (runId : Text) (j : Journal) : (j.push runId).2.settings = j.settings := by
  unfold push
  split <;> rfl

theorem settings_reset (token : Option Text) (j : Journal) :
    (j.reset token).settings = j.settings := by
  cases token <;> rfl

theorem runId_configure (j : Journal) : j.configure.runId = j.runId := by
  unfold configure install
  split <;> rfl

theorem runId_configureNamed (name : Text) (j : Journal) :
    (j.configureNamed name).2.runId = j.runId := by
  unfold configureNamed install
  split <;> split <;> rfl

/-- With one handler a record is written once, if at all. -/
theorem output_record {j : Journal} (h : j.handlers = 1) (logger : Text) (level : Level)
    (message : Text) : (j.record logger level message).output =
      j.output ++ if level.rank < j.threshold logger then [] else j.line logger level message := by
  unfold record
  rw [h]
  split
  · simp
  · simp [Text.times]

end Journal

/-! ### What a run keeps -/

namespace Job

variable {α β : Type}

/-- Whether a job leaves the settings of the journal as they are. -/
def Keeps (job : Job α) : Prop := ∀ w, (job.run w).2.journal.settings = w.journal.settings

theorem Keeps.bind {job : Job α} {next : α → Job β} (h : job.Keeps) (hnext : ∀ a, (next a).Keeps) :
    (job >>= next).Keeps := by
  intro w
  have hjob := h w
  rcases hrun : job.run w with ⟨x, w'⟩
  rw [hrun] at hjob
  cases x with
  | error fault => rw [run_bind_of_error hrun, hjob]
  | ok a => rw [run_bind_of_ok hrun, hnext a w', hjob]

theorem keeps_pure (a : α) : (pure a : Job α).Keeps := fun _ => rfl

theorem keeps_throw (fault : Fault) : (throw fault : Job α).Keeps := fun _ => rfl

theorem keeps_ofExcept {ε : Type} (fault : ε → Fault) (x : Except ε α) :
    (ofExcept fault x).Keeps := by
  cases x with
  | error e => exact keeps_throw (fault e)
  | ok a => exact keeps_pure a

theorem keeps_tree : tree.Keeps := fun _ => rfl

theorem keeps_log (logger : Text) (level : Level) (message : Text) :
    (log logger level message).Keeps := fun w =>
  Journal.settings_record logger level message w.journal

theorem keeps_readFileText (p : Path) : (readFileText p).Keeps :=
  keeps_tree.bind fun _ => (keeps_ofExcept _ _).bind fun _ =>
    (keeps_ofExcept _ _).bind fun _ => keeps_pure _

theorem keeps_readSamples (path : Text) : (readSamples path).Keeps := by
  refine (keeps_log _ _ _).bind fun _ => (keeps_readFileText _).bind fun _ => ?_
  refine (keeps_ofExcept _ _).bind fun v => ?_
  cases v with
  | sequence fixed items =>
    cases fixed with
    | false => exact (keeps_log _ _ _).bind fun _ => keeps_pure _
    | true => exact keeps_throw _
  | _ => exact keeps_throw _

theorem keeps_inferDeclaration (style : Style) (samples : List Value) :
    (inferDeclaration style samples).Keeps := by
  have hshape : (inferShape samples).Keeps :=
    (keeps_ofExcept _ _).bind fun _ => (keeps_log _ _ _).bind fun _ => keeps_pure _
  exact hshape.bind fun _ => (keeps_log _ _ _).bind fun _ => keeps_pure _

theorem keeps_writeDeclaration (path declaration : Text) :
    (writeDeclaration path declaration).Keeps := by
  have hmake : (makePath (Path.ofText path).parent).Keeps :=
    Keeps.bind (fun _ => rfl) fun _ => keeps_ofExcept _ _
  have hwrite : ∀ content, (writeFile (Path.ofText path) content).Keeps := fun content =>
    keeps_tree.bind fun _ => (keeps_ofExcept _ _).bind fun _ _ => rfl
  exact hmake.bind fun _ => (keeps_ofExcept _ _).bind fun content =>
    (hwrite content).bind fun _ => (keeps_log _ _ _).bind fun _ => keeps_pure _

theorem keeps_runSteps (runId : Text) (config : Config) : (runSteps runId config).Keeps :=
  (keeps_log _ _ _).bind fun _ => (keeps_readSamples _).bind fun _ =>
    (keeps_inferDeclaration _ _).bind fun _ => (keeps_writeDeclaration _ _).bind fun _ =>
      (keeps_log _ _ _).bind fun _ => keeps_pure _

theorem keeps_underRun {runId : Text} {job : Job α} (h : job.Keeps) :
    (underRun runId job).Keeps := by
  have hpush : (pushRun runId).Keeps := fun w => Journal.settings_push runId w.journal
  have houtcome : (outcome job).Keeps := by
    intro w
    have hjob := h w
    rcases hrun : job.run w with ⟨x, w'⟩
    rw [hrun] at hjob
    rw [run_outcome hrun, hjob]
  have hreset : ∀ token, (journal (·.reset token)).Keeps := fun token w =>
    Journal.settings_reset token w.journal
  exact hpush.bind fun token => houtcome.bind fun _ => (hreset token).bind fun _ =>
    keeps_ofExcept _ _

/-- **A run configures the journal with its level,** however it ends. -/
theorem settings_runConfig (runId : Text) (config : Config) (w : Workspace) :
    ((runConfig runId config).run w).2.journal.settings =
      w.journal.settings.configured (some config.level.rank) := by
  have hconfigure : (journal (·.configureAt config.level)).run w =
      (.ok (), ⟨w.tree, w.journal.configureAt config.level⟩) := rfl
  unfold runConfig
  rw [run_bind_of_ok hconfigure, keeps_underRun (keeps_runSteps runId config)]
  exact Journal.settings_configureAt config.level w.journal

end Job

/-! ### Calls -/

/-- A call on the journal.  A run is given with the files that it finds, and with a
configuration that is yet to be read or has been. -/
inductive Call where
  | configure (level : Option Text)
  | getLogger (name : Text)
  | push (runId : Option Text)
  | reset
  | run (files : Tree) (runId : Text) (config : Value)
  | runConfig (files : Tree) (runId : Text) (config : Config)

/-- The journal, and the tokens of the runs that are open, the innermost first. -/
structure Session where
  journal : Journal
  tokens : List (Option Text)

namespace Session

/-- What a call does.  A run is left with the token that it was entered with; where no run is
open, there is no token and nothing to leave. -/
def step (s : Session) : Call → Session
  | .configure none => { s with journal := s.journal.configure }
  | .configure (some name) => { s with journal := (s.journal.configureNamed name).2 }
  | .getLogger _ => { s with journal := s.journal.configure }
  | .push runId =>
    let (token, journal) := s.journal.push (runId.getD [])
    ⟨journal, token :: s.tokens⟩
  | .reset =>
    match s.tokens with
    | [] => s
    | token :: tokens => ⟨s.journal.reset token, tokens⟩
  | .run files runId config =>
    { s with journal := ((SampleShape.run runId config).run ⟨files, s.journal⟩).2.journal }
  | .runConfig files runId config =>
    { s with journal := ((SampleShape.runConfig runId config).run ⟨files, s.journal⟩).2.journal }

/-- A journal after a row of calls, none of its runs being open before. -/
def after (j : Journal) (calls : List Call) : Session := calls.foldl step ⟨j, []⟩

theorem after_concat (j : Journal) (calls : List Call) (c : Call) :
    after j (calls ++ [c]) = (after j calls).step c := by
  rw [after, List.foldl_append]
  rfl

end Session

namespace Call

/-- Whether a level that is given by name is one of the standard levels. -/
def isStandard : Call → Bool
  | .configure (some name) => (Level.ofSpelling? name).isSome
  | _ => true

/-- Whether a call configures the journal.  A run does if its configuration is accepted. -/
def configures : Call → Bool
  | .configure _ => true
  | .getLogger _ => true
  | .run _ _ config => (Config.ofValue config).isOk
  | .runConfig .. => true
  | _ => false

/-- The threshold that a call gives explicitly. -/
def given? : Call → Option Nat
  | .configure level => level.bind Level.ofSpelling?
  | .run _ _ config => (Config.ofValue config).toOption.map (·.level.rank)
  | .runConfig _ _ config => some config.level.rank
  | _ => none

theorem given?_of_not_configures {c : Call} (h : c.configures = false) :
    c.given? = none := by
  cases c with
  | run files runId config =>
    rw [configures] at h
    rw [given?]
    cases hconfig : Config.ofValue config with
    | error report => rfl
    | ok c =>
      rw [hconfig] at h
      cases h
  | push runId => rfl
  | reset => rfl
  | _ => cases h

/-- The ids of the open runs after a call, the innermost first; `ids` are those before it. -/
def opened (ids : List Text) : Call → List Text
  | .push runId => runId.getD [] :: ids
  | .reset => ids.tail
  | _ => ids

end Call

/-! ### One call -/

namespace Session

/-- **A call configures the journal or leaves its settings alone.** -/
theorem settings_step (s : Session) {c : Call} (hc : c.isStandard) :
    (s.step c).journal.settings =
      if c.configures then s.journal.settings.configured c.given? else s.journal.settings := by
  cases c with
  | configure level =>
    cases level with
    | none => exact Journal.settings_configure s.journal
    | some name =>
      obtain ⟨n, hn⟩ := Option.isSome_iff_exists.1 hc
      have hgiven : (Call.configure (some name)).given? = some n := hn
      rw [hgiven]
      exact Journal.settings_configureNamed hn s.journal
  | getLogger name => exact Journal.settings_configure s.journal
  | push runId => exact Journal.settings_push (runId.getD []) s.journal
  | reset =>
    rw [step]
    cases s.tokens with
    | nil => rfl
    | cons token tokens => exact Journal.settings_reset token s.journal
  | run files runId config =>
    rw [step]
    cases h : Config.ofValue config with
    | error report =>
      rw [run_of_error h, Call.configures, h]
      rfl
    | ok c =>
      have hgiven : (Call.run files runId config).given? = some c.level.rank := by
        rw [Call.given?, h]
        rfl
      rw [run_of_ok h, hgiven, Call.configures, h]
      exact Job.settings_runConfig runId c ⟨files, s.journal⟩
  | runConfig files runId config => exact Job.settings_runConfig runId config ⟨files, s.journal⟩

/-- The id of the innermost open run that has one, or else the id outside of all. -/
def innermost (outside : Text) (ids : List Text) : Text :=
  (ids.find? fun id => !id.isEmpty).getD outside

/-- The tokens of open runs: that of a run with an id holds the id in progress outside of it. -/
def tokensOf (outside : Text) : List Text → List (Option Text)
  | [] => []
  | id :: ids => (if id.isEmpty then none else some (innermost outside ids)) :: tokensOf outside ids

/-- Whether a session has runs of the given ids open, in a journal whose own id is `outside`. -/
structure Tracks (outside : Text) (ids : List Text) (s : Session) : Prop where
  runId : s.journal.runId = innermost outside ids
  tokens : s.tokens = tokensOf outside ids

theorem innermost_cons (outside id : Text) (ids : List Text) :
    innermost outside (id :: ids) = if id.isEmpty then innermost outside ids else id := by
  unfold innermost
  cases h : id.isEmpty <;> simp [h]

variable {outside : Text} {ids : List Text} {s : Session}

theorem Tracks.push (h : s.Tracks outside ids) (runId : Option Text) :
    (s.step (.push runId)).Tracks outside (runId.getD [] :: ids) := by
  show Tracks outside (runId.getD [] :: ids)
    ⟨(s.journal.push (runId.getD [])).2, (s.journal.push (runId.getD [])).1 :: s.tokens⟩
  refine ⟨?_, ?_⟩
  · rw [innermost_cons, ← h.runId, Journal.push]
    split <;> rfl
  · rw [tokensOf, ← h.tokens, ← h.runId, Journal.push]
    split <;> rfl

theorem Tracks.reset (h : s.Tracks outside ids) : (s.step .reset).Tracks outside ids.tail := by
  unfold step
  rw [h.tokens]
  cases ids with
  | nil => exact h
  | cons id ids =>
    have hid := h.runId
    rw [innermost_cons] at hid
    rw [tokensOf]
    dsimp only
    cases hempty : id.isEmpty with
    | true =>
      -- nothing was entered, so the id outside is in progress already
      rw [hempty] at hid
      exact ⟨hid, rfl⟩
    | false => exact ⟨rfl, rfl⟩

/-- A call that leaves the run in progress alone leaves the open runs alone. -/
theorem Tracks.congr (h : s.Tracks outside ids) {s' : Session}
    (hid : s'.journal.runId = s.journal.runId) (htokens : s'.tokens = s.tokens) :
    s'.Tracks outside ids :=
  ⟨hid.trans h.runId, htokens.trans h.tokens⟩

/-- **The open runs are followed call by call.** -/
theorem Tracks.step (h : s.Tracks outside ids) (c : Call) :
    (s.step c).Tracks outside (c.opened ids) := by
  cases c with
  | configure level =>
    cases level with
    | none => exact h.congr (Journal.runId_configure s.journal) rfl
    | some name => exact h.congr (Journal.runId_configureNamed name s.journal) rfl
  | getLogger name => exact h.congr (Journal.runId_configure s.journal) rfl
  | push runId => exact h.push runId
  | reset => exact h.reset
  | run files runId config =>
    refine h.congr ?_ rfl
    rw [Session.step]
    cases hconfig : Config.ofValue config with
    | error report =>
      rw [run_of_error hconfig]
      rfl
    | ok config =>
      rw [run_of_ok hconfig]
      exact (runConfig_effects runId config ⟨files, s.journal⟩).inProgress
  | runConfig files runId config =>
    exact h.congr (runConfig_effects runId config ⟨files, s.journal⟩).inProgress rfl

/-! ### Whole histories -/

theorem tracks_after (j : Journal) (calls : List Call) :
    (after j calls).Tracks j.runId (calls.foldl Call.opened []) := by
  induction calls using List.reverseRecOn with
  | nil => exact ⟨rfl, rfl⟩
  | append_singleton calls c ih =>
    rw [after_concat, List.foldl_append]
    exact ih.step c

/-- The settings after calls: once one of them has configured the journal, there is one handler,
and the family threshold is the last that was given. -/
theorem settings_after {j : Journal} (hj : j.handlers = 0) {calls : List Call}
    (h : ∀ c ∈ calls, c.isStandard) :
    (after j calls).journal.settings =
      if calls.any Call.configures then
        ⟨Settings.lowered j.rootThreshold,
          (calls.filterMap Call.given?).getLast?.getD Level.info.rank, 1⟩
      else j.settings := by
  induction calls using List.reverseRecOn with
  | nil => rfl
  | append_singleton calls c ih =>
    rw [List.forall_mem_append, List.forall_mem_singleton] at h
    have ih := ih h.1
    rw [after_concat, settings_step _ h.2, ih, List.any_append, List.filterMap_append]
    cases hc : c.configures with
    | false => simp [hc, Call.given?_of_not_configures hc]
    | true =>
      cases hcalls : calls.any Call.configures with
      | false =>
        -- this call installs the handler, and no threshold was given before
        have hnone : calls.filterMap Call.given? = [] := by
          rw [List.filterMap_eq_nil_iff]
          intro c hc
          refine Call.given?_of_not_configures ?_
          simpa using List.any_eq_false.1 hcalls c hc
        cases hgiven : c.given? <;>
          simp [hnone, hc, hgiven, Settings.configured, Journal.settings, hj]
      | true =>
        -- the handler is there, so only a threshold that is given counts
        cases hgiven : c.given? <;> simp [Settings.configured, hc, hgiven]

/-- The root threshold changes only with the call that installs the handler. -/
theorem handlers_of_rootThreshold_ne (s : Session) {c : Call} (hc : c.isStandard)
    (h : (s.step c).journal.rootThreshold ≠ s.journal.rootThreshold) :
    s.journal.handlers = 0 ∧ (s.step c).journal.handlers = 1 := by
  have hstep := settings_step s hc
  cases hconfigures : c.configures with
  | false =>
    rw [hconfigures] at hstep
    exact absurd (congrArg Settings.rootThreshold hstep) h
  | true =>
    rw [hconfigures, if_pos rfl, Settings.configured] at hstep
    split at hstep
    · rename_i hnone
      exact ⟨hnone, congrArg Settings.handlers hstep⟩
    · exact absurd (congrArg Settings.rootThreshold hstep) h

end Session

/-- The state of the journal after a history that began with `j`. -/
structure JournalState (j : Journal) (calls : List Call) (s : Session) : Prop where
  /-- Before the first configuring call nothing is configured. -/
  unconfigured : calls.any Call.configures = false → s.journal.settings = j.settings
  /-- From then on there is one handler. -/
  handlers : calls.any Call.configures = true → s.journal.handlers = 1
  /-- So no record is written twice. -/
  writtenOnce : calls.any Call.configures = true → ∀ logger level message,
    (s.journal.record logger level message).output = s.journal.output ++
      if level.rank < s.journal.threshold logger then [] else s.journal.line logger level message
  /-- The family threshold is the last that was given, or that of `info`. -/
  familyThreshold : calls.any Call.configures = true →
    s.journal.familyThreshold = (calls.filterMap Call.given?).getLast?.getD Level.info.rank
  /-- The root threshold is what it was, or what goes with a handler. -/
  rootThreshold : s.journal.rootThreshold =
    if calls.any Call.configures then Settings.lowered j.rootThreshold else j.rootThreshold
  /-- It changes only with the call that installs the handler. -/
  rootChanges : ∀ c : Call, c.isStandard →
    (s.step c).journal.rootThreshold ≠ s.journal.rootThreshold →
      s.journal.handlers = 0 ∧ (s.step c).journal.handlers = 1
  /-- The run in progress is the innermost open one that has an id. -/
  runId : s.journal.runId =
    ((calls.foldl Call.opened []).find? fun id => !id.isEmpty).getD j.runId

/-- **The journal over whole histories.**  Whatever calls a program makes, in whatever order,
and however its runs end, a journal without a handler comes to the state that `JournalState`
describes. -/
theorem journalState_after {j : Journal} (hj : j.handlers = 0) {calls : List Call}
    (hcalls : ∀ c ∈ calls, c.isStandard) : JournalState j calls (Session.after j calls) := by
  have hsettings := Session.settings_after hj hcalls
  have hhandlers : calls.any Call.configures = true →
      (Session.after j calls).journal.handlers = 1 := by
    intro h
    rw [if_pos h] at hsettings
    exact congrArg Settings.handlers hsettings
  refine ⟨fun h => ?_, hhandlers, fun h => Journal.output_record (hhandlers h), fun h => ?_, ?_,
    fun c => Session.handlers_of_rootThreshold_ne _, (Session.tracks_after j calls).runId⟩
  · rwa [h] at hsettings
  · rw [if_pos h] at hsettings
    exact congrArg Settings.familyThreshold hsettings
  · refine (congrArg Settings.rootThreshold hsettings).trans ?_
    split <;> rfl

/-- A history with a run that is refused, one that fails, and levels in letters of both cases. -/
def mixedCalls : List Call :=
  [.push (some "outer"), .run .empty "r" .null, .getLogger "typeshape.tests", .push none,
    .configure (some "waRNing"),
    .runConfig .empty "r" { inputPath := "in.json", outputPath := "out.ts", level := .error },
    .configure none, .push (some "inner"), .reset, .configure (some "Debug"), .getLogger "other"]

theorem journalState_after_mixedCalls :
    let j := Journal.initial.bare Level.warning.rank
    let s := Session.after j mixedCalls
    j.handlers = 0 ∧ (∀ c ∈ mixedCalls, c.isStandard) ∧ s.journal.handlers = 1 ∧
    s.journal.familyThreshold = Level.debug.rank ∧ s.journal.rootThreshold = Level.info.rank ∧
    s.journal.runId = Text.ofString "outer" := by
  intro j s
  have hcalls : ∀ c ∈ mixedCalls, c.isStandard := by decide
  have h := journalState_after (j := j) rfl hcalls
  exact ⟨rfl, hcalls, h.handlers rfl, h.familyThreshold rfl, h.rootThreshold, h.runId⟩

end SampleShape
