import AdaptiveConsensus.Bucket
import AdaptiveConsensus.Reward
import AdaptiveConsensus.Table

/-!
# Filing experience

A learned strategy keeps its experience in buckets (rl/strategy/mod.rs:162-176 and the constructors and
hooks of the strategies). How it does so is a `Filing`: which bucket a decision belongs to, which
feature row stands for it, and how the state columns are recovered from such a row. History rows,
decisions and rewards are all filed by these three rules, so that a history row `(state, previous,
action)` and a decision taken in the same situation make the same row in the same bucket.

* `seed`: files a history, in order.
* `recordDecision`, `recordReward?`, `latest?`: the online side.
-/

namespace AdaptiveConsensus

open AdaptiveConsensus.Random

/-- Where experience goes and how it is encoded; `κ` numbers the buckets. -/
structure Filing (κ : Type) where
  /-- The bucket of a decision, from the protocol that ran and the protocol chosen. -/
  key : (previous chosen : Protocol) → κ
  /-- The feature row of a decision. -/
  encode : StateVector → (previous chosen : Protocol) → Features
  /-- The state columns of a feature row, as the training log shows them. -/
  restore : Features → Features

/-- One bucket for each key. -/
abbrev Buckets (κ : Type) [Indexed κ] (L : Learner) := Table κ (Bucket L)

namespace Buckets

variable {κ : Type} [Indexed κ] {L : Learner} {γ : Type}

/-- Empty buckets. -/
def empty : Buckets κ L :=
  Table.ofFn fun _ => Bucket.empty

/-- What training some buckets leaves. -/
structure Pass (κ : Type) [Indexed κ] (L : Learner) (γ : Type) where
  buckets : Buckets κ L
  rng : γ
  fits : List TrainingSet
  outcome : Except BucketError Unit

/-- Trains one bucket. -/
def trainOne (buckets : Buckets κ L) (train : Bucket L → γ → Training L γ) (k : κ) (rng : γ) :
    Pass κ L γ :=
  let t := train (buckets.get k) rng
  ⟨buckets.set k t.bucket, t.rng, t.fits, t.outcome⟩

/-- Trains the buckets of some keys in turn and stops at the first failure. -/
def trainEach (train : Bucket L → γ → Training L γ) :
    List κ → Buckets κ L → γ → Pass κ L γ
  | [], buckets, rng => ⟨buckets, rng, [], .ok ()⟩
  | k :: rest, buckets, rng =>
    let first := buckets.trainOne train k rng
    match first.outcome with
    | .ok () =>
      let others := trainEach train rest first.buckets first.rng
      { others with fits := first.fits ++ others.fits }
    | .error _ => first

/-- Trains all buckets in the order of their keys. -/
def trainAll (buckets : Buckets κ L) (train : Bucket L → γ → Training L γ) (rng : γ) : Pass κ L γ :=
  trainEach train (Indexed.keys κ) buckets rng

/-- Trains the bucket that has been rewarded since the last pass, if there is one. -/
def trainStale [Dice γ] (buckets : Buckets κ L) (stale : Option κ) (cap : ReplayCap) (rng : γ) :
    Pass κ L γ :=
  match stale with
  | some k => buckets.trainOne (fun b rng => b.train cap rng) k rng
  | none => ⟨buckets, rng, [], .ok ()⟩

end Buckets

namespace Filing

variable {κ : Type} [Indexed κ] {L : Learner} (f : Filing κ)

/-- Files one history row. -/
def seedRow (buckets : Buckets κ L) (row : HistoryRow) : Buckets κ L :=
  buckets.modify (f.key row.previous row.action) fun b => b.mapStore fun s =>
    s.append (f.encode row.state row.previous row.action) (shapeReward row.throughput)

/-- Files a history, first row first. -/
def seed (buckets : Buckets κ L) (history : List HistoryRow) : Buckets κ L :=
  history.foldl f.seedRow buckets

/-- Files a decision whose reward is not known yet. -/
def recordDecision (buckets : Buckets κ L) (previous chosen : Protocol) (state : StateVector) :
    Buckets κ L :=
  buckets.modify (f.key previous chosen) fun b => b.mapStore fun s =>
    s.pushPending (f.encode state previous chosen)

/-- Files the throughput of the oldest decision of its bucket that waits for one. -/
def recordReward? (buckets : Buckets κ L) (previous chosen : Protocol) (raw : Float) :
    Option (Buckets κ L) :=
  let k := f.key previous chosen
  (((buckets.get k).store).assignReward? (shapeReward raw)).map fun s =>
    buckets.set k { buckets.get k with store := s }

/-- The state columns of the row labelled last in the bucket of a decision. -/
def latest? (buckets : Buckets κ L) (previous chosen : Protocol) : Option Features :=
  (buckets.get (f.key previous chosen)).store.latest?.map f.restore

end Filing

end AdaptiveConsensus
