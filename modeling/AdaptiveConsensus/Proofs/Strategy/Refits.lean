import AdaptiveConsensus.Proofs.Strategy.Readiness

/-!
# Which records a model was fitted to

A model is as good as the records it was fitted to, and a bucket does not remember them. A `Refit` is one
training pass over one bucket, with the bucket as it was at that time. The passes of a run, in order, are
a log in which the model of every bucket can be found: a bucket is *up to date* if its model was fitted in
a pass of the log, made when the bucket held the records that it holds now.

- `Buckets.fits_trainEach`, `Grid.fits_refit`: the passes account for every set handed to the learner.
- `Buckets.upToDate_trainEach`: training buckets in turn leaves them up to date.
- `Grid.UpToDate.refit`: so does refitting, for a grid in which no other bucket is out of date.
- `Grid.UpToDate.reward`, `Grid.UpToDate.file`: a throughput makes one bucket stale, filing a decision
  none.
-/

namespace AdaptiveConsensus

open AdaptiveConsensus.Random

/-- A training pass over one bucket: its key, the bucket at that time, and the source of randomness. -/
structure Refit (κ : Type) (L : Learner) (γ : Type) where
  key : κ
  bucket : Bucket L
  rng : γ

variable {κ : Type} {L : Learner} {γ : Type} [Dice γ] {cap : ReplayCap} {log : List (Refit κ L γ)}

namespace Refit

/-- What the pass left. -/
def training (cap : ReplayCap) (t : Refit κ L γ) : Training L γ :=
  t.bucket.train cap t.rng

/-- The sets handed to the learner in some passes. -/
def sets (cap : ReplayCap) (log : List (Refit κ L γ)) : List TrainingSet :=
  log.flatMap fun t => (t.training cap).fits

end Refit

namespace Bucket

variable {b : Bucket L} {k : κ}

/-- If the bucket of a key has records, its model was fitted in some pass over the bucket of that key to
what was drawn from the records, and these were the records that it holds now. -/
def UpToDate (cap : ReplayCap) (log : List (Refit κ L γ)) (k : κ) (b : Bucket L) : Prop :=
  b.count ≠ 0 → ∃ t ∈ log, t.key = k ∧ t.bucket.store.labelled = b.store.labelled ∧
    ∃ seed model, L.fit (t.bucket.store.sample cap t.rng).1 seed = .ok model ∧ b.model = some model

theorem UpToDate.append (h : b.UpToDate cap log k) (more : List (Refit κ L γ)) :
    b.UpToDate cap (log ++ more) k := by
  intro hcount
  obtain ⟨t, ht, hpass⟩ := h hcount
  exact ⟨t, List.mem_append_left _ ht, hpass⟩

/-- Rows that wait make no difference. -/
theorem UpToDate.of_labelled {b' : Bucket L} (h : b.UpToDate cap log k)
    (hlabelled : b'.store.labelled = b.store.labelled) (hmodel : b'.model = b.model) :
    b'.UpToDate cap log k := by
  rw [UpToDate, count_of_labelled hlabelled, hlabelled, hmodel]
  exact h

/-- A pass over a bucket leaves it up to date. -/
theorem upToDate_train {rng : γ} (hok : (b.train cap rng).outcome = .ok ()) :
    (b.train cap rng).bucket.UpToDate cap (log ++ [⟨k, b, rng⟩]) k := by
  intro htrained
  have hcount : b.count ≠ 0 := by
    rwa [count, store_train] at htrained
  refine ⟨⟨k, b, rng⟩, List.mem_append_right _ (List.mem_singleton_self _), rfl, ?_, ?_⟩
  · rw [store_train]
  · rw [train, if_neg hcount] at hok ⊢
    dsimp only at hok ⊢
    rw [fitTo] at hok ⊢
    cases hfit : L.fit (b.store.sample cap rng).1 (Dice.seed (b.store.sample cap rng).2).1 with
    | ok model => exact ⟨_, model, hfit, rfl⟩
    | error cause =>
      rw [hfit] at hok
      cases hok

end Bucket

namespace Buckets

variable [Indexed κ] {b : Buckets κ L} {rng : γ}

/-- The passes made when the buckets of some keys are trained in turn. -/
def passes (cap : ReplayCap) : List κ → Buckets κ L → γ → List (Refit κ L γ)
  | [], _, _ => []
  | k :: rest, b, rng =>
    let first := b.trainOne (fun b rng => b.train cap rng) k rng
    ⟨k, b.get k, rng⟩ ::
      match first.outcome with
      | .ok () => passes cap rest first.buckets first.rng
      | .error _ => []

/-- The passes account for the sets handed to the learner. -/
theorem fits_trainEach (keys : List κ) (b : Buckets κ L) (rng : γ) :
    (trainEach (fun b rng => b.train cap rng) keys b rng).fits =
      Refit.sets cap (passes cap keys b rng) := by
  induction keys generalizing b rng with
  | nil => rfl
  | cons k rest ih =>
    rw [trainEach, passes, Refit.sets, List.flatMap_cons]
    dsimp only
    cases (b.trainOne (fun b rng => b.train cap rng) k rng).outcome with
    | ok _ =>
      dsimp only
      rw [ih]
      rfl
    | error e => exact (List.append_nil _).symm

variable [DecidableEq κ]

/-- Training one bucket leaves it up to date, and no other bucket less than it was. -/
theorem upToDate_trainOne {k : κ}
    (hok : (b.trainOne (fun b rng => b.train cap rng) k rng).outcome = .ok ()) :
    ∀ j, j = k ∨ (b.get j).UpToDate cap log j →
      ((b.trainOne (fun b rng => b.train cap rng) k rng).buckets.get j).UpToDate cap
        (log ++ [⟨k, b.get k, rng⟩]) j := by
  rintro j hj
  show ((b.set k _).get j).UpToDate cap _ j
  rw [Table.get_set]
  split
  · next heq =>
    rw [heq]
    exact Bucket.upToDate_train hok
  · next hne => exact (hj.resolve_left hne).append _

/-- Training buckets in turn leaves those up to date that are trained or were up to date. -/
theorem upToDate_trainEach {keys : List κ}
    (hok : (trainEach (fun b rng => b.train cap rng) keys b rng).outcome = .ok ()) :
    ∀ j, j ∈ keys ∨ (b.get j).UpToDate cap log j →
      ((trainEach (fun b rng => b.train cap rng) keys b rng).buckets.get j).UpToDate cap
        (log ++ passes cap keys b rng) j := by
  induction keys generalizing b rng log with
  | nil =>
    intro j hj
    rw [passes, List.append_nil]
    exact hj.resolve_left List.not_mem_nil
  | cons k rest ih =>
    rw [trainEach] at hok ⊢
    rw [passes]
    dsimp only at hok ⊢
    cases hfirst : (b.trainOne (fun b rng => b.train cap rng) k rng).outcome with
    | error e =>
      rw [hfirst] at hok
      dsimp only at hok
      rw [hfirst] at hok
      cases hok
    | ok _ =>
      rw [hfirst] at hok
      dsimp only at hok ⊢
      intro j hj
      rw [List.append_cons]
      refine ih hok j ?_
      rcases hj with hj | hj
      · exact (List.mem_cons.mp hj).symm.imp_right fun heq => upToDate_trainOne hfirst j (.inl heq)
      · exact .inr (upToDate_trainOne hfirst j (.inr hj))

end Buckets

namespace Grid

variable [Indexed κ] {g : Grid κ L γ}

/-- The pass made when the stale bucket is refitted. -/
def refits (g : Grid κ L γ) : List (Refit κ L γ) :=
  g.stale.toList.map fun k => ⟨k, g.buckets.get k, g.rng⟩

omit [Dice γ] in
theorem keys_refits (g : Grid κ L γ) : g.refits.map Refit.key = g.stale.toList := by
  rw [refits, List.map_map]
  exact List.map_id _

/-- The pass accounts for the set handed to the learner. -/
theorem fits_refit (g : Grid κ L γ) : g.refit.fits = Refit.sets g.cap g.refits := by
  rw [refit, refits, Refit.sets]
  cases g.stale with
  | none => rfl
  | some k => exact (List.append_nil _).symm

/-- Only the stale bucket is refitted. -/
theorem get_refit_of_ne {k : κ} (hk : g.stale ≠ some k) : g.refit.buckets.get k = g.buckets.get k := by
  unfold refit
  cases hstale : g.stale with
  | none => rfl
  | some j =>
    rw [hstale] at hk
    exact Table.get_set_ne _ _ fun h => hk (congrArg some h.symm)

/-- All buckets but the stale one are up to date. -/
def UpToDate (cap : ReplayCap) (log : List (Refit κ L γ)) (g : Grid κ L γ) : Prop :=
  ∀ k, g.stale ≠ some k → (g.buckets.get k).UpToDate cap log k

/-- A throughput makes the bucket of its decision stale, if no other bucket was. -/
theorem UpToDate.reward {f : Filing κ} {previous chosen : Protocol} {raw : Float} {b : Buckets κ L}
    (hg : g.UpToDate cap log) (hstale : g.stale = none)
    (hb : f.recordReward? g.buckets previous chosen raw = some b) :
    UpToDate cap log { g with buckets := b, stale := some (f.key previous chosen) } := by
  intro k hk
  show (b.get k).UpToDate cap log k
  rw [(Filing.recordReward?_eq_some hb).2 k fun heq => hk (congrArg some heq.symm)]
  refine hg k ?_
  rw [hstale]
  exact fun h => by cases h

variable [DecidableEq κ]

/-- Filing a decision touches no record and no model. -/
theorem UpToDate.file (f : Filing κ) (hg : g.UpToDate cap log) (previous chosen : Protocol)
    (state : StateVector) :
    UpToDate cap log { g with buckets := f.recordDecision g.buckets previous chosen state } := by
  intro k hk
  refine (hg k hk).of_labelled ?_ ?_
  · exact Filing.labelled_recordDecision ..
  · exact Filing.model_recordDecision ..

/-- If refitting succeeds, all buckets are up to date. -/
theorem UpToDate.refit (hg : g.UpToDate g.cap log) (hok : g.refit.outcome = .ok ()) (k : κ) :
    (g.refit.buckets.get k).UpToDate g.cap (log ++ g.refits) k := by
  unfold UpToDate at hg
  unfold Grid.refit at hok ⊢
  unfold refits
  cases hstale : g.stale with
  | none =>
    rw [hstale] at hg
    exact (hg k fun h => by cases h).append _
  | some j =>
    rw [hstale] at hg hok
    refine Buckets.upToDate_trainOne hok k ?_
    by_cases hk : k = j
    · exact .inl hk
    · exact .inr (hg k fun h => hk (Option.some.inj h).symm)

end Grid

end AdaptiveConsensus
