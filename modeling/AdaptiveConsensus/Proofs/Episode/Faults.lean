import AdaptiveConsensus.Proofs.Episode.Consultations
import AdaptiveConsensus.Proofs.Forest.Answers
import AdaptiveConsensus.Proofs.Strategy.Readiness
import AdaptiveConsensus.Proofs.TrainingLog.Written
import AdaptiveConsensus.Random.ChaCha

/-!
# What can fail in a run

Handling a report fails if the strategy refuses a throughput, if the log refuses a row, if a set cannot
be fitted, or if a model does not answer. Given a learner that fits and answers what is well-formed, only
the log is left: no throughput comes for a bucket in which no row waits, and no bucket is asked that was
not trained on its records. A call that fails on the log leaves a strategy of which this is still true.

- `prepared_carried`: what the strategy needs to decide is carried along by runs.
- `faults_of_run`: a call that fails is one whose log refused a row.
-/

namespace AdaptiveConsensus

open AdaptiveConsensus.Random Handling

variable {L : Learner} {γ : Type} [Dice γ]

namespace Handling

/-- The sets handed to the learner in a sequence of handlings. -/
def sets (calls : List (Handling L γ)) : List TrainingSet :=
  calls.flatMap fun h => h.handled.work.fits

theorem sets_concat (calls : List (Handling L γ)) (h : Handling L γ) :
    sets (calls ++ [h]) = sets calls ++ h.handled.work.fits := by
  rw [sets, List.flatMap_append, List.flatMap_singleton, sets]

end Handling

variable {kind : StrategyKind} {settings : StrategySettings} {history : List HistoryRow}

/-- The sets handed to the learner can be fitted, when the strategy is built and in the run. -/
structure RunFits (L : Learner) (kind : StrategyKind) (settings : StrategySettings)
    (history : List HistoryRow) (rng : γ) (log : TrainingLog) (warmup : Nat) (events : List Event) :
    Prop where
  built : L.Fits (Strategy.build (L := L) kind settings history rng).fits
  handed : L.Fits (sets ((runStart (L := L) kind settings history rng log warmup).handlings events))

namespace RunFits

variable {rng : γ} {log : TrainingLog} {warmup : Nat} {events : List Event}

theorem before (hrun : RunFits L kind settings history rng log warmup events) (n : Nat) :
    L.Fits (sets (((runStart (L := L) kind settings history rng log warmup).handlings events).take
      n)) := by
  refine hrun.handed.subset fun set hset => ?_
  obtain ⟨h, hh, hset⟩ := List.mem_flatMap.mp hset
  exact List.mem_flatMap.mpr ⟨h, List.mem_of_mem_take hh, hset⟩

/-- The sets that the strategy hands over when it is asked are among them. -/
theorem now (hrun : RunFits L kind settings history rng log warmup events) {n : Nat}
    {h : Handling L γ} {c : Controller L γ}
    (hn : ((runStart kind settings history rng log warmup).handlings events)[n]? = some h)
    (hasking : h.asking? = some c) : L.Fits (c.ask h.report h.measured).work.fits := by
  refine hrun.handed.subset fun set hset => ?_
  refine List.mem_flatMap.mpr ⟨h, List.mem_of_getElem? hn, ?_⟩
  rwa [h.work_eq, hasking]

end RunFits

/-- What the strategy needs to decide is carried along, as long as sets can be fitted. -/
theorem prepared_carried (hcap : ∀ n, 0 < n → 0 < settings.cap.window n) (hL : L.Answers)
    (kind : StrategyKind) (history : List HistoryRow) :
    Carried (L := L) (γ := γ) kind settings history fun s waiting calls _ =>
      L.Fits (sets calls) → s.Prepared settings waiting where
  reward := fun _ _ _ _ _ _ hone hok hs hfits => (hs hfits).recordReward hone hok
  shown := fun _ _ _ _ _ _ hs => hs
  quiet := by
    rintro s waiting calls trace h - hwork hs hfits
    rw [sets_concat, hwork] at hfits
    exact hs (Learner.Fits.append.mp hfits).1
  failed := by
    rintro h calls trace c resolved waiting e hm - - hs hanswer hwork hfits
    rw [sets_concat, hwork] at hfits
    obtain ⟨hbefore, hnow⟩ := Learner.Fits.append.mp hfits
    -- a strategy that has what it needs does not fail
    obtain ⟨choice, hchoice⟩ := ((hs hbefore).decide hcap hL hm.account hnow).1
    cases hanswer.symm.trans hchoice
  decided := by
    rintro h calls trace c resolved waiting choice hm - - hs - hwork hfits
    rw [sets_concat, hwork] at hfits
    obtain ⟨hbefore, hnow⟩ := Learner.Fits.append.mp hfits
    exact (((hs hbefore).decide hcap hL hm.account hnow).2 _).recordDecision _ _ _

namespace Controller

omit [Dice γ] in
/-- Crediting an accepted throughput fails only on the log. -/
theorem credit_error {c : Controller L γ} {d : PendingDecision} {raw : Float} {e : EpisodeError}
    (hok : (c.strategy.recordReward d.previous d.chosen raw).2 = .ok ())
    (he : (c.credit d raw).2 = .error e) :
    ∃ row cause, e = .log cause ∧ .write row (.error cause) ∈ c.creditEffects d raw := by
  rw [credit] at he
  rw [creditEffects]
  rcases hrec : c.strategy.recordReward d.previous d.chosen raw with ⟨strategy, e' | ⟨⟩⟩
  · rw [hrec] at hok
    cases hok
  rw [hrec] at he
  dsimp only [logRow, logRowEffects] at he ⊢
  cases hshown : strategy.previousFeatures d.previous d.chosen with
  | none =>
    rw [hshown] at he
    cases he
  | some features =>
    rw [hshown] at he
    dsimp only at he
    rcases hwrite : c.log.writeRow (rowOf d features raw) with ⟨log, cause | ⟨⟩⟩ <;>
      rw [hwrite] at he
    · obtain rfl := Except.error.inj he
      refine ⟨rowOf d features raw, cause, rfl, ?_⟩
      have hanswer : (c.log.writeRow (rowOf d features raw)).2 = .error cause := by rw [hwrite]
      refine List.mem_cons_of_mem _ (List.mem_cons_of_mem _ (List.mem_singleton.mpr ?_))
      rw [hanswer]
    · cases he

/-- Resolving what is due fails only on the log. -/
theorem resolve_error {c : Controller L γ} {calls : List (Handling L γ)} {resolved : List Resolution}
    {waiting : List Issue} (hb : Books kind settings history c calls resolved waiting) {raw : Float}
    {e : EpisodeError} (he : (c.resolve raw).2 = .error e) :
    ∃ row cause, e = .log cause ∧ .write row (.error cause) ∈ c.resolveEffects raw := by
  rw [resolve] at he
  rw [resolveEffects]
  rcases hpending : c.pending with - | ⟨d, - | ⟨next, rest⟩⟩ <;> rw [hpending] at he
  · cases he
  · cases he
  · refine credit_error ?_ he
    exact hb.accepts hpending raw

end Controller

/-- Given a learner that fits and answers what is well-formed, a strategy can be built, and handling a
report fails only if the log refused a row in that call, also after calls that failed. -/
theorem faults_of_run (hL : L.Answers) (kind : StrategyKind) (limit : Int) (oneHot : Bool)
    (history : List HistoryRow) (rng : γ) (log : TrainingLog) (warmup : Nat) (events : List Event)
    (hrun : RunFits L kind ⟨.ofLimit limit, oneHot⟩ history rng log warmup events) :
    (Strategy.build (L := L) kind ⟨.ofLimit limit, oneHot⟩ history rng).outcome = .ok () ∧
      ∀ h ∈ (runStart (L := L) kind ⟨.ofLimit limit, oneHot⟩ history rng log warmup).handlings events,
        ∀ e, h.reply = .error e →
          ∃ row cause, e = .log cause ∧ Effect.write row (.error cause) ∈ h.effects := by
  have hcap : ∀ n, 0 < n → 0 < (ReplayCap.ofLimit limit).window n :=
    fun _ hn => ReplayCap.window_pos limit hn
  obtain ⟨hok, hstart⟩ := Strategy.prepared_build kind hcap hrun.built
  refine ⟨hok, fun h hh e he => ?_⟩
  obtain ⟨n, hn⟩ := List.mem_iff_getElem?.mp hh
  rcases h.course with ⟨e', hresolve, heffects, -, hhandled, -⟩ | ⟨-, -, hhandled, -⟩ |
    ⟨c, e', hresolve, heffects, hasking, hanswer, hhandled, -⟩ |
    ⟨c, choice, -, -, -, -, hhandled, -⟩ <;> rw [reply, hhandled] at he
  · obtain ⟨resolved, waiting, hb⟩ := Controller.before_of_run
      (P := fun c calls => ∃ resolved waiting,
        Books kind ⟨.ofLimit limit, oneHot⟩ history c calls resolved waiting)
      (Books.of_run (L := L) kind ⟨.ofLimit limit, oneHot⟩ history rng log warmup) hn
    obtain rfl := Except.error.inj he
    rw [heffects]
    exact Controller.resolve_error hb hresolve
  · cases he
  · -- a strategy that is asked has what it needs
    obtain ⟨⟨resolved, waiting, hm⟩, -, hprepared⟩ :=
      (prepared_carried hcap hL kind history).asked (fun _ => hstart) hn hasking
    obtain ⟨choice, hchoice⟩ :=
      ((hprepared (hrun.before n)).decide hcap hL hm.account (hrun.now hn hasking)).1
    cases hanswer.symm.trans hchoice
  · cases he

/-! ## A run with a refused row -/

namespace Controller

omit [Dice γ] in
/-- What resolving leaves differs with the log in the log alone. -/
theorem resolve_relog (c : Controller L γ) (full log : TrainingLog) (raw : Float) :
    ({ ({ c with log := full }.resolve raw).1 with log := log } : Controller L γ) =
      { (c.resolve raw).1 with log := log } := by
  obtain ⟨strategy, pending, own, warmup, episode⟩ := c
  rw [resolve, resolve]
  dsimp only
  rcases pending with - | ⟨d, - | ⟨next, rest⟩⟩
  · rfl
  · rfl
  · dsimp only [credit]
    rcases strategy.recordReward d.previous d.chosen raw with ⟨strategy, e | ⟨⟩⟩
    · rfl
    · dsimp only [logRow]
      cases strategy.previousFeatures d.previous d.chosen with
      | none => rfl
      | some features =>
        dsimp only
        rcases full.writeRow (rowOf d features raw) with ⟨_, _ | ⟨⟩⟩ <;>
          rcases own.writeRow (rowOf d features raw) with ⟨_, _ | ⟨⟩⟩ <;> rfl

omit [Dice γ] in
/-- A decision that is shown in the log cannot be resolved with a log that takes no row. -/
theorem resolve_refused {c : Controller L γ} {full : TrainingLog} {cause : LogError}
    (hfull : ∀ row, (full.writeRow row).2 = .error cause) {raw : Float}
    (hshown : (c.resolveEffects raw).filterMap Effect.row? ≠ []) :
    ({ c with log := full }.resolve raw).2 = .error (.log cause) := by
  rw [resolveEffects] at hshown
  rw [resolve]
  dsimp only
  rcases hpending : c.pending with - | ⟨d, - | ⟨next, rest⟩⟩ <;> rw [hpending] at hshown
  · exact (hshown rfl).elim
  · exact (hshown rfl).elim
  · dsimp only [creditEffects, credit] at hshown ⊢
    rcases hrec : c.strategy.recordReward d.previous d.chosen raw with ⟨strategy, e | ⟨⟩⟩ <;>
      rw [hrec] at hshown
    · exact (hshown rfl).elim
    · dsimp only [logRowEffects, logRow] at hshown ⊢
      cases hfeatures : strategy.previousFeatures d.previous d.chosen with
      | none =>
        rw [hfeatures] at hshown
        exact (hshown rfl).elim
      | some features =>
        have hwrite := hfull (rowOf d features raw)
        dsimp only
        rcases hrow : full.writeRow (rowOf d features raw) with ⟨log, e | ⟨⟩⟩ <;> rw [hrow] at hwrite
        · cases hwrite
          rfl
        · cases hwrite

/-- A report comes while no row can be written, and then the log is exchanged. The decision that was due
is credited, nothing is decided, and the run goes on. -/
theorem handlings_refused (c : Controller L γ) (before after : List Event) {full : TrainingLog}
    {cause : LogError} (hfull : ∀ row, (full.writeRow row).2 = .error cause) {r : StateReport}
    (measured : Cost)
    (hshown : ((c.after before).resolveEffects r.reward).filterMap Effect.row? ≠ [])
    (log : TrainingLog) :
    ∃ h : Handling L γ, h.reply = .error (.log cause) ∧ h.handled.work = Work.none ∧
      c.handlings (before ++ .relog full :: .report r measured :: .relog log :: after) =
        c.handlings before ++ h ::
          ({ ((c.after before).resolve r.reward).1 with log := log } : Controller L γ).handlings
            after := by
  let h : Handling L γ := ⟨{ c.after before with log := full }, r, measured⟩
  have hresolve := resolve_refused hfull hshown
  have hrelog := resolve_relog (c.after before) full log r.reward
  have hhandled : h.handled =
      ⟨(({ c.after before with log := full } : Controller L γ).resolve r.reward).1, Work.none,
        .error (.log cause)⟩ := by
    rw [handled, handleReport]
    rcases hleft : ({ c.after before with log := full } : Controller L γ).resolve r.reward with
      ⟨c', e | ⟨⟩⟩ <;> rw [hleft] at hresolve <;> cases hresolve
    rfl
  refine ⟨h, by rw [reply, hhandled], by rw [hhandled], ?_⟩
  rw [handlings_append, ← hrelog]
  show _ ++ h :: ({ h.handled.controller with log := log } : Controller L γ).handlings after = _
  rw [hhandled]

end Controller

/-- Two history rows. -/
def faultHistory : List HistoryRow :=
  [⟨⟨0.75, 21, 256, 6, 0, 1⟩, .pbft, .cheapBft, 800⟩, ⟨⟨1, 3, 512, 6, 1, 0⟩, .sbft, .prime, 950⟩]

/-- A log on a device that refuses every write. Its buffer takes rows nevertheless, as long as there is
room. -/
def brokenLog (buffer : String) : TrainingLog :=
  ⟨⟨buffer, Device.broken "disk full"⟩, 0, none⟩

theorem writeRow_brokenLog {buffer : String} (hfull : BufferedDevice.capacity ≤ buffer.utf8ByteSize)
    (row : TrainingRow) : ((brokenLog buffer).writeRow row).2 = .error (.row "disk full") :=
  TrainingLog.writeRow_of_full hfull rfl row

/-- A text of `2 ^ n` bytes. -/
def padding : Nat → String
  | 0 => "-"
  | n + 1 => padding n ++ padding n

theorem utf8ByteSize_padding (n : Nat) : (padding n).utf8ByteSize = Nat.pow 2 n := by
  induction n with
  | zero => rfl
  | succ n ih =>
    rw [padding, String.utf8ByteSize_append, ih, ← Nat.mul_two]
    rfl

/-- The log before there is a row. -/
def faultLog : TrainingLog := brokenLog ""

/-- The log when there is no more room. -/
def fullLog : TrainingLog := brokenLog (padding 13)

theorem writeRow_fullLog (row : TrainingRow) :
    (fullLog.writeRow row).2 = .error (.row "disk full") :=
  writeRow_brokenLog (Nat.le_of_eq (utf8ByteSize_padding 13).symm) row

/-- A report of one state. -/
def faultReport (current : Protocol) (throughput : Float) : StateReport :=
  ⟨⟨0.5, 12, 1024, 6, 0, 1⟩, current, throughput⟩

/-- Two reports that credit nothing yet. -/
def firstReports : List Event :=
  [.report (faultReport .pbft 900) Cost.free, .report (faultReport .sbft 1200) Cost.free]

/-- Three more, with a log that cannot be written out. -/
def lastReports : List Event :=
  [.report (faultReport .pbft 1100) Cost.free, .flush, .report (faultReport .pbft 1300) Cost.free,
    .report (faultReport .prime 1250) Cost.free]

/-- In between comes a report whose row the log refuses. -/
def faultEvents : List Event :=
  firstReports ++ .relog fullLog :: .report (faultReport .prime 700) Cost.free :: .relog faultLog ::
    lastReports

/-- The controller of a strategy on the two history rows. -/
def faultStart (kind : StrategyKind) : Controller (Forest.learner ⟨1, 1⟩) ChaCha :=
  runStart kind ⟨.ofLimit 2, true⟩ faultHistory (ChaCha.ofSeed 0) faultLog 1

/-- How the last reports find it. -/
def faultResumed (kind : StrategyKind) : Controller (Forest.learner ⟨1, 1⟩) ChaCha :=
  { (((faultStart kind).after firstReports).resolve 700).1 with log := faultLog }

/-- The report in between fails, and hands nothing to the learner. -/
theorem handlings_faultEvents {kind : StrategyKind}
    (hshown : (((faultStart kind).after firstReports).resolveEffects 700).filterMap Effect.row? ≠ []) :
    ∃ h : Handling (Forest.learner ⟨1, 1⟩) ChaCha, h.reply = .error (.log (.row "disk full")) ∧
      h.handled.work = Work.none ∧
      (faultStart kind).handlings faultEvents =
        (faultStart kind).handlings firstReports ++ h :: (faultResumed kind).handlings lastReports :=
  Controller.handlings_refused (faultStart kind) firstReports lastReports writeRow_fullLog
    (r := faultReport .prime 700) Cost.free hshown faultLog

/-- With few records a forest can be fitted to all of them. -/
theorem runFits_faultEvents {kind : StrategyKind}
    (hshown : (((faultStart kind).after firstReports).resolveEffects 700).filterMap Effect.row? ≠ [])
    (hbuilt : ∀ set ∈ (Strategy.build (L := Forest.learner ⟨1, 1⟩) kind ⟨.ofLimit 2, true⟩ faultHistory
      (ChaCha.ofSeed 0)).fits, set.x.length < 8)
    (hfew : ∀ set ∈ sets ((faultStart kind).handlings firstReports ++
      (faultResumed kind).handlings lastReports), set.x.length < 8) :
    RunFits (Forest.learner ⟨1, 1⟩) kind ⟨.ofLimit 2, true⟩ faultHistory (ChaCha.ofSeed 0) faultLog 1
      faultEvents := by
  refine ⟨Forest.fits_of_few _ hbuilt, Forest.fits_of_few _ ?_⟩
  obtain ⟨h, -, hwork, hcalls⟩ := handlings_faultEvents hshown
  show ∀ set ∈ sets ((faultStart kind).handlings faultEvents), set.x.length < 8
  rw [sets, List.flatMap_append] at hfew
  rw [hcalls, sets, List.flatMap_append, List.flatMap_cons, hwork, show Work.none.fits = [] from rfl,
    List.nil_append]
  exact hfew

/-- The report in between fails on the log, which does not keep the strategy with one model per protocol
from answering the next ones. -/
theorem faults_of_faultEvents :
    (Forest.learner ⟨1, 1⟩).Answers ∧
      RunFits (Forest.learner ⟨1, 1⟩) .perAction ⟨.ofLimit 2, true⟩ faultHistory (ChaCha.ofSeed 0)
        faultLog 1 faultEvents ∧
      (∀ h ∈ (faultStart .perAction).handlings faultEvents, ∀ e, h.reply = .error e →
        ∃ row cause, e = .log cause ∧ Effect.write row (.error cause) ∈ h.effects) ∧
      ∃ first h later, (faultStart .perAction).handlings faultEvents = first ++ h :: later ∧
        h.reply = .error (.log (.row "disk full")) ∧ later.length = 3 ∧ ∀ g ∈ later, g.Accepted := by
  have hshown : (((faultStart .perAction).after firstReports).resolveEffects 700).filterMap
      Effect.row? ≠ [] := by decide +kernel
  have hrun := runFits_faultEvents hshown (by decide +kernel) (by decide +kernel)
  obtain ⟨h, hreply, -, hcalls⟩ := handlings_faultEvents hshown
  refine ⟨Forest.answers _, hrun, ?_, _, h, _, hcalls, hreply, by decide +kernel, by decide +kernel⟩
  exact (faults_of_run (Forest.answers _) .perAction 2 true faultHistory (ChaCha.ofSeed 0) faultLog 1
    faultEvents hrun).2

end AdaptiveConsensus
