import AdaptiveConsensus.Proofs.Episode.Books
import AdaptiveConsensus.Proofs.Snapshot.ReadBack
import AdaptiveConsensus.Proofs.Strategy.Bucketing
import AdaptiveConsensus.Proofs.TrainingLog.Written

/-!
# Starting again from the log

The log of a run has the format of a snapshot, so that it can be the history of a later run. All but the
last two decisions of the run have their row in it, and these rows make the records that the strategy
has learned. So a strategy that is built on the earlier history followed by the log has the same
records, bucket by bucket, as the strategy had at the end of the run: what was learned online is learned
again offline. Only the decisions that still waited are missing, as no throughput was known for them.

- `RestartLaws`: what the run, its log and the strategy built anew have to do with one another.
- `restart_of_run`: every run whose steps succeed obeys them.
-/

namespace AdaptiveConsensus

open AdaptiveConsensus.Random Handling

variable {L : Learner} {γ : Type}

/-! ## The log of a successful run -/

namespace Controller

/-- The lines of rows. -/
def linesOf (rows : List TrainingRow) : List Char :=
  rows.flatMap fun row => row.toLine ++ ['\n']

theorem linesOf_append (rows more : List TrainingRow) :
    linesOf (rows ++ more) = linesOf rows ++ linesOf more :=
  List.flatMap_append

/-- A decision that was credited and shown without error has its row in the log. -/
theorem logRow_text {c : Controller L γ} {d : PendingDecision} {throughput : Float}
    (h : (c.logRow d throughput).2.isOk = true) :
    (c.logRow d throughput).1.log.text =
      c.log.text ++ linesOf ((c.logRowEffects d throughput).filterMap Effect.row?) := by
  rw [logRow] at h ⊢
  rw [logRowEffects]
  cases hshown : c.strategy.previousFeatures d.previous d.chosen with
  | none => exact (List.append_nil _).symm
  | some features =>
    rw [hshown] at h
    dsimp only at h ⊢
    rcases hwrite : c.log.writeRow (rowOf d features throughput) with ⟨log, e | ⟨⟩⟩
    · rw [hwrite] at h
      cases h
    · show log.text = c.log.text ++ (((rowOf d features throughput).toLine ++ ['\n']) ++ [])
      rw [TrainingLog.text_writeRow hwrite, List.append_nil]

theorem resolve_text {c : Controller L γ} {throughput : Float}
    (h : (c.resolve throughput).2.isOk = true) :
    (c.resolve throughput).1.log.text =
      c.log.text ++ linesOf ((c.resolveEffects throughput).filterMap Effect.row?) := by
  rw [resolve] at h ⊢
  rw [resolveEffects]
  rcases hpending : c.pending with - | ⟨d, - | ⟨next, rest⟩⟩
  · exact (List.append_nil _).symm
  · exact (List.append_nil _).symm
  · rw [hpending] at h
    dsimp only [credit, creditEffects] at h ⊢
    rcases hreward : c.strategy.recordReward d.previous d.chosen throughput with ⟨strategy, e | ⟨⟩⟩
    · rw [hreward] at h
      cases h
    · rw [hreward] at h
      exact logRow_text h

variable [Dice γ]

theorem answer_log (c : Controller L γ) (r : StateReport) (measured : Cost) :
    (c.answer r measured).controller.log = c.log := by
  rw [answer]
  by_cases hw : c.inWarmup
  · rw [if_pos hw]
  · rw [if_neg hw, choose]
    dsimp only
    cases (c.strategy.decide r.state r.current measured).outcome <;> rfl

/-- A report that was answered has its rows in the log. -/
theorem handleReport_text {c : Controller L γ} {r : StateReport} {measured : Cost}
    (h : (c.handleReport r measured).outcome.isOk = true) :
    (c.handleReport r measured).controller.log.text =
      c.log.text ++ linesOf ((c.effects r measured).filterMap Effect.row?) := by
  have htext : (c.resolve r.reward).2.isOk = true → (c.resolve r.reward).1.log.text =
      c.log.text ++ linesOf ((c.resolveEffects r.reward).filterMap Effect.row?) := resolve_text
  rw [handleReport] at h ⊢
  rw [effects]
  rcases hresolve : c.resolve r.reward with ⟨c', e | ⟨⟩⟩ <;> rw [hresolve] at h htext
  · cases h
  · dsimp only at h ⊢
    rw [answer_log, List.filterMap_append, answerEffects_row?, List.append_nil]
    exact htext rfl

/-- Whether all steps of a run succeed: every report is answered and every flush goes through. -/
def succeeds (c : Controller L γ) : List Event → Bool
  | [] => true
  | .report r measured :: rest =>
    (c.handleReport r measured).outcome.isOk && (c.step (.report r measured)).succeeds rest
  | .flush :: rest => c.log.flush.2.isOk && (c.step .flush).succeeds rest
  | .malformed _ :: _ | .relog _ :: _ => false

theorem succeeds_concat_flush {c : Controller L γ} {events : List Event}
    (h : c.succeeds (events ++ [.flush]) = true) :
    c.succeeds events = true ∧ (c.after events).log.flush.2.isOk = true := by
  induction events generalizing c with
  | nil =>
    rw [List.nil_append, succeeds, Bool.and_eq_true] at h
    exact ⟨rfl, h.1⟩
  | cons e rest ih =>
    cases e with
    | report r measured =>
      rw [List.cons_append, succeeds, Bool.and_eq_true] at h
      rw [succeeds, h.1, Bool.true_and]
      exact ih h.2
    | flush =>
      rw [List.cons_append, succeeds, Bool.and_eq_true] at h
      rw [succeeds, h.1, Bool.true_and]
      exact ih h.2
    | malformed cause => cases h
    | relog log => cases h

/-- In a successful run every report is answered. -/
theorem accepted_of_succeeds {c : Controller L γ} {events : List Event} (h : c.succeeds events = true) :
    ∀ g ∈ c.handlings events, g.Accepted := by
  induction events generalizing c with
  | nil => exact fun g hg => (List.not_mem_nil hg).elim
  | cons e rest ih =>
    cases e with
    | report r measured =>
      rw [succeeds, Bool.and_eq_true] at h
      intro g hg
      rcases List.mem_cons.mp hg with rfl | hg
      · exact h.1
      · exact ih h.2 g hg
    | flush =>
      rw [succeeds, Bool.and_eq_true] at h
      exact ih h.2
    | malformed cause => cases h
    | relog log => cases h

/-- After a successful run the log holds what it held before and then the rows of the run. -/
theorem succeeds_text {c : Controller L γ} {events : List Event} (h : c.succeeds events = true) :
    (c.after events).log.text = c.log.text ++ linesOf (rows (c.handlings events)) := by
  induction events generalizing c with
  | nil => exact (List.append_nil _).symm
  | cons e rest ih =>
    cases e with
    | report r measured =>
      rw [succeeds, Bool.and_eq_true] at h
      obtain ⟨hok, hrest⟩ := h
      show ((c.step (.report r measured)).after rest).log.text = c.log.text ++
        linesOf ((c.effects r measured).filterMap Effect.row? ++
          rows ((c.step (.report r measured)).handlings rest))
      rw [ih hrest, linesOf_append, ← List.append_assoc]
      exact congrArg (· ++ _) (handleReport_text hok)
    | flush =>
      rw [succeeds, Bool.and_eq_true] at h
      obtain ⟨hok, hrest⟩ := h
      -- a flush moves text to the device and changes none
      show ((c.step .flush).after rest).log.text = _
      rw [ih hrest]
      rcases hflush : c.log.flush with ⟨log, e | ⟨⟩⟩
      · rw [hflush] at hok
        cases hok
      · have htext : (c.step .flush).log.text = c.log.text := by
          rw [step, hflush]
          exact (TrainingLog.content_flush hflush).2
        rw [htext]
        rfl
    | malformed cause => cases h
    | relog log => cases h

end Controller

/-! ## What a logged row files -/

namespace StrategyKind

/-- A state as its row in the log tells it: without the two flags where the strategy drops them. -/
def loggedState (settings : StrategySettings) (kind : StrategyKind) (state : StateVector) :
    StateVector :=
  if kind = perAction ∧ settings.oneHot then
    { state with hasFastPath := droppedFlag, hasLeaderRotation := droppedFlag }
  else state

theorem columnsOf_eq (settings : StrategySettings) (kind : StrategyKind) (state : StateVector) :
    kind.columnsOf settings state = (kind.loggedState settings state).toList := by
  rw [columnsOf, loggedState]
  split <;> rfl

end StrategyKind

namespace Resolution

/-- The history row that the log tells of a resolved decision. -/
def loggedRow (kind : StrategyKind) (settings : StrategySettings) (r : Resolution) : HistoryRow :=
  { r.row with state := kind.loggedState settings r.issue.report.state }

theorem logRow?_eq {kind : StrategyKind} (hkind : kind.learnsOnline = true)
    (settings : StrategySettings) (history : List HistoryRow) (r : Resolution) :
    r.logRow? kind settings history =
      some ((r.loggedRow kind settings).logged r.issue.choice.cost) := by
  rw [logRow?, StrategyKind.shown_of_learnsOnline hkind, StrategyKind.columnsOf_eq]
  rfl

/-- What is dropped in the log plays no part in the record. -/
theorem record_loggedRow (kind : StrategyKind) (settings : StrategySettings) (r : Resolution) :
    kind.record settings (r.loggedRow kind settings) = kind.record settings r.row := by
  rw [loggedRow, StrategyKind.loggedState]
  by_cases hdropped : kind = .perAction ∧ settings.oneHot
  · rw [if_pos hdropped, hdropped.1, StrategyKind.record, StrategyKind.record, StrategyKind.encode,
      StrategyKind.encode, actionFiling, hdropped.2]
    rfl
  · rw [if_neg hdropped]
    rfl

/-- In every bucket, the rows of the log make the records of the decisions that they tell. -/
theorem records_loggedRows (kind : StrategyKind) (settings : StrategySettings)
    (history : List HistoryRow) (resolved : List Resolution) (previous chosen : Protocol) :
    (kind.rowsAt previous chosen (history ++ resolved.map (loggedRow kind settings))).map
        (kind.record settings) =
      (kind.rowsAt previous chosen (history ++ resolved.map row)).map (kind.record settings) := by
  rw [StrategyKind.rowsAt, StrategyKind.rowsAt, List.filter_append, List.filter_append, List.map_append,
    List.map_append, List.filter_map, List.filter_map, List.map_map, List.map_map]
  refine congrArg (_ ++ ·) (List.map_congr_left ?_)
  intro r _
  exact record_loggedRow kind settings r

end Resolution

/-! ## The decisions of a run in which every report is answered -/

variable [Dice γ]

section

variable {kind : StrategyKind} {settings : StrategySettings} {history : List HistoryRow} {rng : γ}
  {log : TrainingLog} {warmup : Nat} {events : List Event}

/-- Each resolved decision answered the report of its episode, and the report of the second episode
after that tells its throughput. -/
theorem mem_resolutions
    (haccepted : ∀ h ∈ (runStart (L := L) kind settings history rng log warmup).handlings events,
      h.Accepted)
    {r : Resolution}
    (hr : r ∈ resolutions ((runStart (L := L) kind settings history rng log warmup).handlings events)) :
    ∃ own later : Handling L γ,
      ((runStart kind settings history rng log warmup).handlings events)[r.issue.episode]? = some own ∧
      own.report = r.issue.report ∧ own.reply = .ok (.switch r.issue.choice.protocol) ∧
      ((runStart kind settings history rng log warmup).handlings events)[r.issue.episode + 2]? =
        some later ∧
      later.report = r.report := by
  obtain ⟨resolved, waiting, hb⟩ := Books.of_run (L := L) kind settings history rng log warmup events
  rw [← hb.resolved_eq] at hr
  have hissue : r.issue ∈ issues ((runStart (L := L) kind settings history rng log warmup).handlings
      events) := by
    rw [hb.issues]
    exact List.mem_append_left _ (List.mem_map_of_mem hr)
  have hdeparture : r.departure ∈ departures ((runStart (L := L) kind settings history rng log
      warmup).handlings events) := by
    rw [hb.departures]
    exact List.mem_map_of_mem hr
  have hepisode := hb.episode_eq (Ledger.of_run _ log warmup events) r hr
  -- both reports met the counter that is their place in the run
  obtain ⟨e, own, he, hmade⟩ := mem_issues hissue
  obtain ⟨hown, hreport⟩ := episode_of_issue? hmade
  obtain ⟨later, hmem, hleft⟩ := List.mem_filterMap.mp hdeparture
  obtain ⟨e', he'⟩ := List.mem_iff_getElem?.mp hmem
  rw [departure?] at hleft
  obtain ⟨d, -, hd⟩ := Option.map_eq_some_iff.mp hleft
  have hcounter : later.before.episode = r.episode := congrArg Departure.episode hd
  have hlater : later.report = r.report := congrArg Departure.report hd
  rw [(ledger_before haccepted he).2.1] at hown
  rw [(ledger_before haccepted he').2.1, hepisode] at hcounter
  refine ⟨own, later, ?_, hreport.symm, ?_, ?_, hlater⟩
  · rw [hown]
    exact he
  · exact (own.traced.answered _).mpr ⟨r.issue, hmade, rfl⟩
  · rw [← hcounter]
    exact he'

end

/-! ## The restart -/

/-- What a run, the rows of its log and a strategy built on these rows have to do with one another, if
the first decision of the run comes in episode `e₀`. -/
structure RestartLaws (e₀ : Nat) (kind : StrategyKind) (settings : StrategySettings)
    (history : List HistoryRow) (c : Controller L γ) (calls : List (Handling L γ))
    (rows : List HistoryRow) : Prop where
  /-- From `e₀` on every report is answered by a decision. -/
  decided : (issues calls).map Issue.episode = List.range' e₀ (calls.length - e₀)
  /-- The decisions are those resolved, in order, followed by those that are not. -/
  split : issues calls = (resolutions calls).map Resolution.issue ++ unresolved calls
  /-- Only the last two decisions are not resolved. -/
  missing : (unresolved calls).length = min 2 (calls.length - e₀)
  /-- They are those that wait in the queue. -/
  queue : c.pending = (unresolved calls).map Issue.decision
  /-- Each other decision answered the report of its episode, and the report of the second episode
  after that told its throughput. -/
  resolved : ∀ r ∈ resolutions calls, ∃ own later : Handling L γ,
    calls[r.issue.episode]? = some own ∧ own.report = r.issue.report ∧
      own.reply = .ok (.switch r.issue.choice.protocol) ∧
      calls[r.issue.episode + 2]? = some later ∧ later.report = r.report
  /-- The log has one row for each of these, in order. -/
  written : rows = (resolutions calls).map (Resolution.loggedRow kind settings)
  /-- The strategy of the run holds the records of its history and of these, each in its bucket. -/
  learned : ∀ previous chosen, (c.strategy.bucketAt previous chosen).store.labelled =
    (kind.rowsAt previous chosen (history ++ (resolutions calls).map Resolution.row)).map
      (kind.record settings)
  /-- Behind them wait the feature rows of the unresolved decisions, and nothing else. -/
  waits : ∀ previous chosen, (c.strategy.bucketAt previous chosen).store.pending =
    (kind.decisionsAt previous chosen ((unresolved calls).map Issue.filed)).map
      (kind.encodeDecision settings)
  /-- A strategy built on the history followed by the rows of the log holds the same records, and in it
  nothing waits. -/
  rebuilt : ∀ (rng : γ) (previous chosen : Protocol),
    ((Strategy.build (L := L) kind settings (history ++ rows) rng).strategy.bucketAt
        previous chosen).store.labelled = (c.strategy.bucketAt previous chosen).store.labelled ∧
      ((Strategy.build (L := L) kind settings (history ++ rows) rng).strategy.bucketAt
        previous chosen).store.pending = []

/-- If every report is answered, the run, the rows that its resolved decisions are logged as and a
strategy built on these obey the laws of a restart. -/
theorem RestartLaws.of_accepted {kind : StrategyKind} (hkind : kind.learnsOnline = true)
    (settings : StrategySettings) (history : List HistoryRow) (rng : γ) (log : TrainingLog)
    (warmup : Nat) {events : List Event}
    (haccepted : ∀ h ∈ (runStart (L := L) kind settings history rng log warmup).handlings events,
      h.Accepted) :
    RestartLaws (firstDecision warmup) kind settings history
      ((runStart (L := L) kind settings history rng log warmup).after events)
      ((runStart kind settings history rng log warmup).handlings events)
      ((resolutions ((runStart (L := L) kind settings history rng log warmup).handlings events)).map
        (Resolution.loggedRow kind settings)) := by
  obtain ⟨resolved, waiting, hb⟩ := Books.of_run (L := L) kind settings history rng log warmup events
  have hl : Ledger (firstDecision warmup) ((runStart kind settings history rng log warmup).after events)
    ((runStart (L := L) kind settings history rng log warmup).handlings events) := Ledger.of_run ..
  have hf : Ledger.Full (firstDecision warmup)
    ((runStart (L := L) kind settings history rng log warmup).after events)
    ((runStart kind settings history rng log warmup).handlings events) := Ledger.full_of_run _ _ _ _ haccepted
  have hmem := fun r => mem_resolutions haccepted (r := r)
  obtain rfl := hb.resolved_eq
  obtain rfl := hb.waiting_eq
  have hfixed : kind ≠ .ruleBased := by
    rintro rfl
    cases hkind
  have hlearned : ∀ previous chosen,
      (((runStart (L := L) kind settings history rng log warmup).after events).strategy.bucketAt
        previous chosen).store.labelled = _ :=
    hb.account.labelled_bucketAt (by rwa [hb.same_kind])
  have hwaits : ∀ previous chosen,
      (((runStart (L := L) kind settings history rng log warmup).after events).strategy.bucketAt
        previous chosen).store.pending = _ := hb.account.pending_bucketAt
  rw [hb.same_kind, if_pos hkind] at hlearned hwaits
  constructor
  · rw [hl.issued, hf.episode]
  · exact hb.issues
  · rw [← hf.episode, ← hf.filled, hb.queue, List.length_map]
  · exact hb.queue
  · exact hmem
  · rfl
  · exact hlearned
  · exact hwaits
  · intro rng' previous chosen
    refine ⟨?_, Strategy.pending_build _ rng' previous chosen⟩
    rw [Strategy.labelled_build hfixed, hlearned, Resolution.records_loggedRows]

/-- Let every step of a run succeed, from a new log on an empty device up to a last flush. Then the log
is read back as a snapshot of the decisions of the run, all but the last two, and a strategy of the same
kind and settings that is built on the earlier history followed by this snapshot holds, in every bucket,
the records that the strategy of the run holds at its end, in the same order. Only what waits in the
buckets of that strategy, the rows of the last two decisions, is missing. -/
theorem restart_of_run {kind : StrategyKind} (hkind : kind.learnsOnline = true)
    (settings : StrategySettings) (history : List HistoryRow) (rng : γ) {device : Device}
    (hempty : device.content = "") {log : TrainingLog} (hlog : TrainingLog.onDevice device = .ok log)
    (name : Option String) (warmup : Nat) {events : List Event}
    (hsucceeds : (runStart (L := L) kind settings history rng { log with name := name }
      warmup).succeeds events = true)
    {final : TrainingLog}
    (hflush : ((runStart (L := L) kind settings history rng { log with name := name }
      warmup).after events).log.flush = (final, .ok ())) :
    ∃ rows, Snapshot.parse final.content.toList = .ok rows ∧
      RestartLaws (firstDecision warmup) kind settings history
        ((runStart (L := L) kind settings history rng { log with name := name } warmup).after events)
        ((runStart kind settings history rng { log with name := name } warmup).handlings events)
        rows := by
  have haccepted := Controller.accepted_of_succeeds hsucceeds
  refine ⟨_, ?_, RestartLaws.of_accepted hkind settings history rng _ warmup haccepted⟩
  obtain ⟨resolved, waiting, hb⟩ :=
    Books.of_run (L := L) kind settings history rng { log with name := name } warmup events
  rw [← hb.resolved_eq]
  -- a strategy that learns online shows every resolved decision, so that each has its line
  have hrows : rows ((runStart (L := L) kind settings history rng { log with name := name }
      warmup).handlings events) =
      resolved.map fun r => (r.loggedRow kind settings).logged r.issue.choice.cost := by
    have hshown : Resolution.logRow? kind settings history =
        some ∘ fun r => (r.loggedRow kind settings).logged r.issue.choice.cost :=
      funext fun r => r.logRow?_eq hkind settings history
    rw [hb.rows, hshown, List.filterMap_eq_map]
  have htext : final.content.toList = TrainingRow.header ++ ['\n'] ++
      Controller.linesOf (resolved.map fun r =>
        (r.loggedRow kind settings).logged r.issue.choice.cost) := by
    rw [(TrainingLog.content_flush hflush).1, Controller.succeeds_text hsucceeds, hrows]
    show log.text ++ _ = _
    rw [TrainingLog.text_onDevice hempty hlog]
  rw [htext, Controller.linesOf, List.flatMap_map]
  exact Snapshot.parse_log (Resolution.loggedRow kind settings) (fun r => r.issue.choice.cost) resolved

/-- A new log on an empty device. -/
def newLog : TrainingLog :=
  (TrainingLog.onDevice Device.reliable).toOption.getD ⟨BufferedDevice.ofDevice Device.reliable, 0, none⟩

theorem onDevice_reliable : TrainingLog.onDevice Device.reliable = .ok newLog := by
  have hok : (TrainingLog.onDevice Device.reliable).isOk = true := by decide +kernel
  rw [newLog]
  cases h : TrainingLog.onDevice Device.reliable with
  | ok log => rfl
  | error e =>
    rw [h] at hok
    cases hok

/-- A history of one row. -/
def restartHistory : List HistoryRow :=
  [⟨⟨0.75, 21, 256, 6, 0, 1⟩, .pbft, .cheapBft, 800⟩]

/-- Four reports, with a flush in between. -/
def restartEvents : List Event :=
  [.report ⟨⟨1, 30, 256, 6, 0, 1⟩, .prime, 900⟩ Cost.free,
    .report ⟨⟨0.5, 10, 256, 6, 1, 0⟩, .prime, 1200.25⟩ Cost.free,
    .flush,
    .report ⟨⟨0.25, 10, 256, 6, 1, 0⟩, .zyzzyva, 0.1⟩ Cost.free,
    .report ⟨⟨0.75, 4, 512, 6, 0, 0⟩, .prime, 1500⟩ Cost.free]

/-- The controller of the strategy with one model per protocol, under the one-hot option. -/
def restartStart : Controller (Forest.learner ⟨1, 1⟩) ChaCha :=
  runStart .perAction ⟨.unlimited, true⟩ restartHistory (ChaCha.ofSeed 0) { newLog with name := none } 0

/-- What the log tells of the first two decisions; under the one-hot option it drops two flags. -/
def restartRows : List HistoryRow :=
  [⟨⟨1, 30, 256, 6, -1, -1⟩, .prime, .prime, 0.1⟩, ⟨⟨0.5, 10, 256, 6, -1, -1⟩, .prime, .zyzzyva, 1500⟩]

/-- The log of the four reports tells the first two decisions. The other two wait, each in its bucket. -/
theorem restart_of_restartEvents :
    Snapshot.parse (restartStart.after restartEvents).log.flush.1.content.toList = .ok restartRows ∧
      RestartLaws 0 .perAction ⟨.unlimited, true⟩ restartHistory (restartStart.after restartEvents)
        (restartStart.handlings restartEvents) restartRows ∧
      (restartStart.after restartEvents).pending =
        [⟨.zyzzyva, .sbft, Cost.free⟩, ⟨.prime, .pbft, Cost.free⟩] ∧
      ((restartStart.after restartEvents).strategy.bucketAt .zyzzyva .sbft).store.pending =
        [[0.25, 10, 256, 6, 0, 1, 0, 0, 0, 0]] := by
  have hsucceeds : restartStart.succeeds (restartEvents ++ [.flush]) = true := by decide +kernel
  obtain ⟨hrun, hflush⟩ := Controller.succeeds_concat_flush hsucceeds
  obtain ⟨rows, hparse, hlaws⟩ := restart_of_run rfl ⟨.unlimited, true⟩ restartHistory
    (ChaCha.ofSeed 0) rfl onDevice_reliable none 0 hrun (TrainingLog.flush_of_isOk hflush)
  obtain ⟨hresolved, hwaiting⟩ :
      (resolutions (restartStart.handlings restartEvents)).map
          (Resolution.loggedRow .perAction ⟨.unlimited, true⟩) = restartRows ∧
        unresolved (restartStart.handlings restartEvents) =
          [⟨2, ⟨⟨0.25, 10, 256, 6, 1, 0⟩, .zyzzyva, 0.1⟩, ⟨.sbft, Cost.free⟩⟩,
            ⟨3, ⟨⟨0.75, 4, 512, 6, 0, 0⟩, .prime, 1500⟩, ⟨.pbft, Cost.free⟩⟩] := by
    decide +kernel
  obtain rfl : rows = restartRows := hlaws.written.trans hresolved
  refine ⟨hparse, hlaws, ?_, ?_⟩
  · exact hlaws.queue.trans (congrArg (List.map Issue.decision) hwaiting)
  · refine (hlaws.waits .zyzzyva .sbft).trans ?_
    show (StrategyKind.perAction.decisionsAt .zyzzyva .sbft
      ((unresolved (restartStart.handlings restartEvents)).map Issue.filed)).map _ = _
    rw [hwaiting]
    rfl

end AdaptiveConsensus
