import AdaptiveConsensus.Experience.Store

/-!
# Regression buckets

A bucket is a store with a model of it (rl/bucket.rs:15-95). Training fits a new model to a resample of
the store or to all of it; an empty store is not trained on. Each training pass reports the set it
handed to the learner.
-/

namespace AdaptiveConsensus

open AdaptiveConsensus.Random

/-- Why a bucket could not do what it was asked. -/
inductive BucketError where
  /-- A reward came for a bucket in which no row waits for one. -/
  | nothingPending
  /-- An estimate was asked of a bucket without a model. -/
  | untrained
  /-- A model gave no estimate for a row. -/
  | noPrediction
  /-- A model could not be fitted. -/
  | fit (cause : LearnerError)
  /-- A model could not be asked. -/
  | predict (cause : LearnerError)
  deriving DecidableEq, Repr

namespace BucketError

/-- The wording of a cause. -/
def message : BucketError → String
  | .nothingPending => "Reward arrived for a bucket with no pending feature vector"
  | .untrained => "Queried a bucket that has never been trained"
  | .noPrediction => "Forest returned no prediction"
  | .fit cause => s!"Failed to fit random forest: {cause.message}"
  | .predict cause => s!"Forest prediction failed: {cause.message}"

/-- The wording of a fault in the shape of the input, which ends the program. -/
def fault? : BucketError → Option String
  | .fit cause => if cause.isFault then some cause.message else none
  | .predict cause => if cause.isFault then some cause.message else none
  | _ => none

end BucketError

/-- A store and the model fitted to it last. -/
structure Bucket (L : Learner) where
  store : Store
  model : Option L.Model

/-- What a training pass leaves: the bucket and the source of randomness after it, the sets handed
to the learner, and whether it succeeded. -/
structure Training (L : Learner) (γ : Type) where
  bucket : Bucket L
  rng : γ
  fits : List TrainingSet
  outcome : Except BucketError Unit

namespace Bucket

variable {L : Learner} {γ : Type}

/-- A bucket without records and without a model. -/
def empty : Bucket L := ⟨Store.empty, none⟩

/-- The number of labelled records. -/
def count (b : Bucket L) : Nat :=
  b.store.count

/-- The bucket with its store changed. -/
def mapStore (b : Bucket L) (f : Store → Store) : Bucket L :=
  { b with store := f b.store }

/-- Fits a new model. If that fails the old model stays. -/
def fitTo (b : Bucket L) (set : TrainingSet) (seed : UInt64) (rng : γ) : Training L γ :=
  match L.fit set seed with
  | .ok model => ⟨{ b with model := some model }, rng, [set], .ok ()⟩
  | .error cause => ⟨b, rng, [set], .error (.fit cause)⟩

/-- Fits a new model to a resample of the recent records; does nothing while there are none. -/
def train [Dice γ] (b : Bucket L) (cap : ReplayCap) (rng : γ) : Training L γ :=
  if b.count = 0 then ⟨b, rng, [], .ok ()⟩
  else
    let (set, rng) := b.store.sample cap rng
    let (seed, rng) := Dice.seed rng
    b.fitTo set seed rng

/-- Fits a new model to all records; does nothing while there are none. -/
def trainFull [Dice γ] (b : Bucket L) (rng : γ) : Training L γ :=
  if b.count = 0 then ⟨b, rng, [], .ok ()⟩
  else
    let (seed, rng) := Dice.seed rng
    b.fitTo b.store.fullHistory seed rng

/-- The model's estimates for the rows of a matrix. -/
def predictAll (b : Bucket L) (rows : List Features) : Except BucketError (List Float) :=
  match b.model with
  | none => .error .untrained
  | some model =>
    match L.predict model rows with
    | .ok estimates => .ok estimates
    | .error cause => .error (.predict cause)

/-- The model's estimate for one row. -/
def predict (b : Bucket L) (row : Features) : Except BucketError Float :=
  match b.predictAll [row] with
  | .ok (estimate :: _) => .ok estimate
  | .ok [] => .error .noPrediction
  | .error e => .error e

end Bucket

end AdaptiveConsensus
