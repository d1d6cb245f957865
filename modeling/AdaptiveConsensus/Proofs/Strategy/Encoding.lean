import AdaptiveConsensus.Proofs.Strategy.Asking

/-!
# Models are asked in the encoding they were fitted to

A feature row is made in three places: when a history is seeded, when a decision is filed, and when
candidates are scored. After any calls the three places agree, in the row and in the bucket; nothing of
an earlier state is left in a row that is asked about.

- `Strategy.recordDecision_bucketAt`: a decision waits at the end of its bucket, and no other changes.
- `Strategy.labelled_build_matches`: where construction puts a history row.
- `Strategy.encodings_of_calls`: the three places agree.
-/

namespace AdaptiveConsensus

open AdaptiveConsensus.Random

variable {κ : Type} [Indexed κ] [DecidableEq κ] {L : Learner} {γ : Type}

/-! ## What is filed and what is seeded -/

namespace Filing

variable {f : Filing κ}

theorem get_recordDecision (b : Buckets κ L) (previous chosen : Protocol) (state : StateVector)
    (k : κ) : (f.recordDecision b previous chosen state).get k =
      if k = f.key previous chosen then
        (b.get k).mapStore fun store => store.pushPending (f.encode state previous chosen)
      else b.get k := by
  rw [recordDecision]
  split
  · next hk => rw [hk, Table.get_modify_self]
  · next hk => exact Table.get_modify_ne _ _ hk

/-- What a decision does to the bucket of any pair, by the rules of the kind. -/
theorem Follows.get_recordDecision {kind : StrategyKind} {settings : StrategySettings}
    (hf : f.Follows kind settings) (b : Buckets κ L) (previous chosen : Protocol)
    (state : StateVector) (previous' chosen' : Protocol) :
    (f.recordDecision b previous chosen state).get (f.key previous' chosen') =
      if kind.key previous' chosen' = kind.key previous chosen then
        (b.get (f.key previous' chosen')).mapStore fun store =>
          store.pushPending (kind.encode settings state previous chosen)
      else b.get (f.key previous' chosen') := by
  rw [Filing.get_recordDecision, hf.encode_eq]
  simp only [hf.key_iff]

end Filing

namespace Strategy

variable {settings : StrategySettings} {s : Strategy L γ}

/-- A decision waits at the end of its bucket, and no other bucket changes. -/
theorem recordDecision_bucketAt (h : s.Keeps settings) (hkind : s.kind.learnsOnline = true)
    (previous chosen : Protocol) (state : StateVector) (previous' chosen' : Protocol) :
    (s.recordDecision previous chosen state).bucketAt previous' chosen' =
      if s.kind.key previous' chosen' = s.kind.key previous chosen then
        (s.bucketAt previous' chosen').mapStore fun store =>
          store.pushPending (s.kind.encode settings state previous chosen)
      else s.bucketAt previous' chosen' := by
  cases s with
  | quadratic q =>
    exact (Filing.pair_follows_quadratic settings).get_recordDecision q.buckets previous chosen state
      previous' chosen'
  | perAction p =>
    have hfiled := (Filing.action_follows settings).get_recordDecision p.buckets previous chosen state
      previous' chosen'
    rwa [← h.2] at hfiled
  | single s =>
    exact (Filing.joint_follows settings).get_recordDecision s.buckets previous chosen state
      previous' chosen'
  | staticOffline s => cases hkind
  | reduced r => cases hkind
  | ruleBased => cases hkind

end Strategy

namespace StrategyKind

/-- A history row of the situation in which a candidate was scored: the kind sees no difference between
the two. -/
def Matches (kind : StrategyKind) (state : StateVector) (previous c : Protocol) (row : HistoryRow) :
    Prop :=
  match kind with
  | quadratic | staticOffline | perAction | single =>
    row.state = state ∧ row.previous = previous ∧ row.action = c
  | reduced => row.state.requestSize = state.requestSize ∧ row.action = c
  | ruleBased => False

theorem Matches.ne_ruleBased {kind : StrategyKind} {state : StateVector} {previous c : Protocol}
    {row : HistoryRow} (h : kind.Matches state previous c row) : kind ≠ .ruleBased := by
  rintro rfl
  exact h

theorem Matches.key_eq {kind : StrategyKind} {state : StateVector} {previous c : Protocol}
    {row : HistoryRow} (h : kind.Matches state previous c row) :
    kind.key row.previous row.action = kind.key previous c := by
  cases kind with
  | reduced => rfl
  | ruleBased => exact h.elim
  | _ =>
    obtain ⟨-, rfl, rfl⟩ := h
    rfl

theorem Matches.record_eq {kind : StrategyKind} {state : StateVector} {previous c : Protocol}
    {row : HistoryRow} (h : kind.Matches state previous c row) (settings : StrategySettings) :
    kind.record settings row = (kind.encode settings state previous c, shapeReward row.throughput) := by
  cases kind with
  | reduced =>
    obtain ⟨hsize, rfl⟩ := h
    simp only [record, encode, sizeFiling, hsize]
  | ruleBased => exact h.elim
  | _ =>
    obtain ⟨rfl, rfl, rfl⟩ := h
    rfl

theorem rowsAt_append (kind : StrategyKind) (previous chosen : Protocol)
    (before after : List HistoryRow) : kind.rowsAt previous chosen (before ++ after) =
      kind.rowsAt previous chosen before ++ kind.rowsAt previous chosen after :=
  List.filter_append ..

end StrategyKind

namespace Strategy

/-- Construction puts the row of a matching history row into the bucket of the candidate, at its place
among the other records. -/
theorem labelled_build_matches [Dice γ] {kind : StrategyKind} {state : StateVector}
    {previous c : Protocol} {row : HistoryRow} (h : kind.Matches state previous c row)
    (settings : StrategySettings) (before after : List HistoryRow) (rng : γ) :
    ((build (L := L) kind settings (before ++ row :: after) rng).strategy.bucketAt previous
        c).store.labelled =
      (kind.rowsAt previous c before).map (kind.record settings) ++
        (kind.encode settings state previous c, shapeReward row.throughput) ::
          (kind.rowsAt previous c after).map (kind.record settings) := by
  have hrow : kind.rowsAt previous c (row :: after) = row :: kind.rowsAt previous c after :=
    List.filter_cons_of_pos (by simpa using h.key_eq)
  rw [labelled_build h.ne_ruleBased, StrategyKind.rowsAt_append, List.map_append, hrow, List.map_cons,
    h.record_eq]

/-! ## The three places agree -/

/-- A candidate is scored, filed and seeded by one row, `kind.encode settings state previous c`, and in
one bucket. -/
structure EncodingLaws [Dice γ] (kind : StrategyKind) (settings : StrategySettings) (s : Strategy L γ)
    (state : StateVector) (previous : Protocol) (measured : Cost) (c : Protocol) : Prop where
  /-- In every matrix handed to a model the candidate's position has the row. -/
  asked : ∀ matrix ∈ (s.decide state previous measured).work.queries,
    matrix[kind.position c]? = some (kind.encode settings state previous c)
  /-- If the candidate's bucket has records, its score is what the bucket's model says of the row at
  that position in one of these matrices. -/
  scored : ((s.decide state previous measured).state.bucketAt previous c).count ≠ 0 →
    ∀ scores x, (s.decide state previous measured).work.scores = some scores →
      scores[c.index.val]? = some x → ∃ matrix ∈ (s.decide state previous measured).work.queries,
        ((s.decide state previous measured).state.bucketAt previous c).Estimates matrix
          (kind.position c) x
  /-- A decision for the candidate waits in that bucket as the row, and in no other. -/
  filed : kind.learnsOnline = true → ∀ previous' chosen',
    (s.recordDecision previous c state).bucketAt previous' chosen' =
      if kind.key previous' chosen' = kind.key previous c then
        (s.bucketAt previous' chosen').mapStore fun store =>
          store.pushPending (kind.encode settings state previous c)
      else s.bucketAt previous' chosen'
  /-- A history row of the same situation is seeded in that bucket as the row. -/
  seeded : ∀ (before after : List HistoryRow) (row : HistoryRow) (rng : γ),
    kind.Matches state previous c row →
    ((build (L := L) kind settings (before ++ row :: after) rng).strategy.bucketAt previous
        c).store.labelled =
      (kind.rowsAt previous c before).map (kind.record settings) ++
        (kind.encode settings state previous c, shapeReward row.throughput) ::
          (kind.rowsAt previous c after).map (kind.record settings)

/-- After any calls, earlier decisions among them, the three places agree. -/
theorem encodings_of_calls [Dice γ] (kind : StrategyKind) (settings : StrategySettings)
    (history : List HistoryRow) (rng : γ) (calls : List Call) (state : StateVector)
    (previous : Protocol) (measured : Cost) (c : Protocol) :
    EncodingLaws kind settings ((build (L := L) kind settings history rng).strategy.after calls) state
      previous measured c := by
  have hkeeps := keeps_of_calls (L := L) kind settings history rng calls
  have hkind : ((build (L := L) kind settings history rng).strategy.after calls).kind = kind :=
    (kind_after _ calls).trans (kind_build kind settings history rng)
  constructor
  · intro matrix hmatrix
    rw [asked_decide hkeeps hmatrix c, hkind]
    exact kind.asked_getElem? settings state previous c
  · intro hcount scores x hscores hx
    obtain ⟨hasked, hestimate⟩ := scored_decide hkeeps hscores hx hcount
    rw [hkind] at hasked hestimate
    exact ⟨_, hasked, hestimate⟩
  · intro honline previous' chosen'
    have hfiled := recordDecision_bucketAt hkeeps (by rwa [hkind]) previous c state previous' chosen'
    rwa [hkind] at hfiled
  · intro before after row rng' hrow
    exact labelled_build_matches hrow settings before after rng'

end Strategy

end AdaptiveConsensus
