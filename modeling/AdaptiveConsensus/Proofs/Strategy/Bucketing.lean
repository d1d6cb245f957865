import AdaptiveConsensus.Proofs.Experience.Strategies

/-!
# Which bucket, which row

A kind of strategy sends a decision to one bucket and makes one feature row of it. `StrategyKind.key`
and `StrategyKind.encode` put the rules of all kinds side by side, `Strategy.bucketAt` is the bucket
itself, and `Filing.Follows` says that a filing rule is that of a kind, so that what is known of filing
rules is known of strategies without another case distinction.

- `Strategy.Accounts.labelled_bucketAt`, `Strategy.Accounts.pending_bucketAt`: what a strategy holds of
  the rows and decisions it accounts for, each in its bucket; `Strategy.labelled_build` and
  `Strategy.pending_build` for a new one.
- `Filing.get_seed`: what seeding leaves in a bucket depends only on the rows of its key.
- `Strategy.build_congr`: so histories with the same rows in every bucket build the same strategy.
-/

namespace AdaptiveConsensus

open AdaptiveConsensus.Random

variable {κ : Type} [Indexed κ] [DecidableEq κ] {L : Learner} {γ : Type}

namespace StrategyKind

/-- What tells the buckets of a kind apart: the protocol that ran and the one chosen, as far as they
matter. -/
def key (kind : StrategyKind) (previous chosen : Protocol) : Option Protocol × Option Protocol :=
  match kind with
  | quadratic | staticOffline => (some previous, some chosen)
  | perAction => (none, some chosen)
  | single | reduced | ruleBased => (none, none)

/-- The feature row that stands for a decision; the fixed rule makes none. -/
def encode (settings : StrategySettings) (kind : StrategyKind) (state : StateVector)
    (previous chosen : Protocol) : Features :=
  match kind with
  | quadratic | staticOffline => pairFiling.encode state previous chosen
  | perAction => (actionFiling settings.oneHot).encode state previous chosen
  | single => jointFiling.encode state previous chosen
  | reduced => sizeFiling.encode state previous chosen
  | ruleBased => []

/-- The record that a history row becomes. -/
def record (settings : StrategySettings) (kind : StrategyKind) (row : HistoryRow) : Features × Float :=
  (kind.encode settings row.state row.previous row.action, shapeReward row.throughput)

/-- The rows of a history that go to the bucket of a decision. -/
def rowsAt (kind : StrategyKind) (previous chosen : Protocol) (rows : List HistoryRow) :
    List HistoryRow :=
  rows.filter fun row => kind.key row.previous row.action = kind.key previous chosen

/-- The decisions that go to the bucket of a decision. -/
def decisionsAt (kind : StrategyKind) (previous chosen : Protocol) (filed : List FiledDecision) :
    List FiledDecision :=
  filed.filter fun d => kind.key d.previous d.chosen = kind.key previous chosen

/-- The feature row that a decision is filed as. -/
def encodeDecision (settings : StrategySettings) (kind : StrategyKind) (d : FiledDecision) : Features :=
  kind.encode settings d.state d.previous d.chosen

end StrategyKind

/-! ## The filing rule of a kind -/

namespace Filing

/-- A filing rule buckets and encodes as a kind of strategy does, and uses all its keys. -/
structure Follows (f : Filing κ) (kind : StrategyKind) (settings : StrategySettings) : Prop where
  key_iff : ∀ previous chosen previous' chosen',
    f.key previous chosen = f.key previous' chosen' ↔
      kind.key previous chosen = kind.key previous' chosen'
  onto : ∀ k, ∃ previous chosen, f.key previous chosen = k
  encode_eq : ∀ state previous chosen,
    f.encode state previous chosen = kind.encode settings state previous chosen

variable {f : Filing κ} {kind : StrategyKind} {settings : StrategySettings}

omit [Indexed κ] [DecidableEq κ] in
theorem Follows.record_eq (hf : f.Follows kind settings) (row : HistoryRow) :
    f.record row = kind.record settings row := by
  rw [record, hf.encode_eq, StrategyKind.record]

omit [Indexed κ] in
theorem Follows.rowsAt_eq (hf : f.Follows kind settings) (previous chosen : Protocol)
    (rows : List HistoryRow) :
    f.rowsAt (f.key previous chosen) rows = kind.rowsAt previous chosen rows := by
  rw [rowsAt, StrategyKind.rowsAt]
  refine List.filter_congr fun row _ => ?_
  rw [decide_eq_decide]
  exact hf.key_iff ..

omit [Indexed κ] in
theorem Follows.decisionsAt_eq (hf : f.Follows kind settings) (previous chosen : Protocol)
    (waiting : List FiledDecision) :
    f.decisionsAt (f.key previous chosen) waiting = kind.decisionsAt previous chosen waiting := by
  rw [decisionsAt, StrategyKind.decisionsAt]
  refine List.filter_congr fun d _ => ?_
  rw [decide_eq_decide]
  exact hf.key_iff ..

/-- What the bucket of a decision holds, of a strategy that accounts for some rows. -/
theorem Accounts.labelled_of_follows {b : Buckets κ L} {rows : List HistoryRow}
    {waiting : List FiledDecision} (h : f.Accounts b rows waiting) (hf : f.Follows kind settings)
    (previous chosen : Protocol) :
    (b.get (f.key previous chosen)).store.labelled =
      (kind.rowsAt previous chosen rows).map (kind.record settings) := by
  rw [h.labelled, hf.rowsAt_eq]
  exact List.map_congr_left fun row _ => hf.record_eq row

/-- What waits in the bucket of a decision, of a strategy that accounts for some decisions. -/
theorem Accounts.pending_of_follows {b : Buckets κ L} {rows : List HistoryRow}
    {waiting : List FiledDecision} (h : f.Accounts b rows waiting) (hf : f.Follows kind settings)
    (previous chosen : Protocol) :
    (b.get (f.key previous chosen)).store.pending =
      (kind.decisionsAt previous chosen waiting).map (kind.encodeDecision settings) := by
  rw [h.pending, hf.decisionsAt_eq]
  exact List.map_congr_left fun d _ => hf.encode_eq d.state d.previous d.chosen

theorem pair_follows_quadratic (settings : StrategySettings) :
    pairFiling.Follows .quadratic settings where
  key_iff _ _ _ _ := by simp [pairFiling, StrategyKind.key]
  onto k := ⟨k.1, k.2, rfl⟩
  encode_eq _ _ _ := rfl

theorem pair_follows_staticOffline (settings : StrategySettings) :
    pairFiling.Follows .staticOffline settings where
  key_iff _ _ _ _ := by simp [pairFiling, StrategyKind.key]
  onto k := ⟨k.1, k.2, rfl⟩
  encode_eq _ _ _ := rfl

theorem action_follows (settings : StrategySettings) :
    (actionFiling settings.oneHot).Follows .perAction settings where
  key_iff _ _ _ _ := by simp [actionFiling, StrategyKind.key]
  onto k := ⟨k, k, rfl⟩
  encode_eq _ _ _ := rfl

theorem joint_follows (settings : StrategySettings) : jointFiling.Follows .single settings where
  key_iff _ _ _ _ := iff_of_true rfl rfl
  onto _ := ⟨.pbft, .pbft, rfl⟩
  encode_eq _ _ _ := rfl

theorem size_follows (settings : StrategySettings) : sizeFiling.Follows .reduced settings where
  key_iff _ _ _ _ := iff_of_true rfl rfl
  onto _ := ⟨.pbft, .pbft, rfl⟩
  encode_eq _ _ _ := rfl

end Filing

/-! ## The bucket of a decision -/

namespace Strategy

/-- The bucket of a decision; the fixed rule has none. -/
def bucketAt (previous chosen : Protocol) : Strategy L γ → Bucket L
  | quadratic q => q.buckets.get (previous, chosen)
  | staticOffline s => s.buckets.get (previous, chosen)
  | perAction p => p.buckets.get chosen
  | single s => s.buckets.get ()
  | reduced r => r.buckets.get ()
  | ruleBased => Bucket.empty

variable {kind : StrategyKind} {settings : StrategySettings}

/-- What the bucket of a decision holds: the records of the history, and if the strategy learns online
those of the decisions resolved since, each in its bucket and in order. -/
theorem Accounts.labelled_bucketAt {s : Strategy L γ} {history rows : List HistoryRow}
    {waiting : List FiledDecision} (h : s.Accounts settings history rows waiting)
    (hkind : s.kind ≠ .ruleBased) (previous chosen : Protocol) :
    (s.bucketAt previous chosen).store.labelled =
      (s.kind.rowsAt previous chosen (history ++ if s.kind.learnsOnline then rows else [])).map
        (s.kind.record settings) := by
  cases s with
  | quadratic q =>
    exact Filing.Accounts.labelled_of_follows h (Filing.pair_follows_quadratic settings) previous chosen
  | perAction p =>
    exact h.2.labelled_of_follows (Filing.action_follows settings) previous chosen
  | single s =>
    exact Filing.Accounts.labelled_of_follows h (Filing.joint_follows settings) previous chosen
  | staticOffline s =>
    refine (Filing.Accounts.labelled_of_follows h (Filing.pair_follows_staticOffline settings) previous
      chosen).trans ?_
    rw [if_neg (by exact Bool.false_ne_true), List.append_nil]
    rfl
  | reduced r =>
    refine (Filing.Accounts.labelled_of_follows h (Filing.size_follows settings) previous chosen).trans ?_
    rw [if_neg (by exact Bool.false_ne_true), List.append_nil]
    rfl
  | ruleBased => exact (hkind rfl).elim

/-- What waits in the bucket of a decision: if the strategy learns online, the feature rows of the
decisions that are not resolved, each in its bucket and in order. -/
theorem Accounts.pending_bucketAt {s : Strategy L γ} {history rows : List HistoryRow}
    {waiting : List FiledDecision} (h : s.Accounts settings history rows waiting)
    (previous chosen : Protocol) :
    (s.bucketAt previous chosen).store.pending =
      (s.kind.decisionsAt previous chosen (if s.kind.learnsOnline then waiting else [])).map
        (s.kind.encodeDecision settings) := by
  cases s with
  | quadratic q =>
    exact Filing.Accounts.pending_of_follows h (Filing.pair_follows_quadratic settings) previous chosen
  | perAction p =>
    exact h.2.pending_of_follows (Filing.action_follows settings) previous chosen
  | single s =>
    exact Filing.Accounts.pending_of_follows h (Filing.joint_follows settings) previous chosen
  | staticOffline s => exact Filing.Accounts.pending h (previous, chosen)
  | reduced r => exact Filing.Accounts.pending h ()
  | ruleBased => rfl

/-- A new strategy holds the records of its history. -/
theorem labelled_build [Dice γ] (hkind : kind ≠ .ruleBased) (history : List HistoryRow) (rng : γ)
    (previous chosen : Protocol) :
    ((build (L := L) kind settings history rng).strategy.bucketAt previous chosen).store.labelled =
      (kind.rowsAt previous chosen history).map (kind.record settings) := by
  have h := (accounts_build (L := L) kind settings history rng).labelled_bucketAt
    (by rwa [kind_build]) previous chosen
  rwa [kind_build, ite_self, List.append_nil] at h

/-- No decision waits in a new strategy. -/
theorem pending_build [Dice γ] (history : List HistoryRow) (rng : γ) (previous chosen : Protocol) :
    ((build (L := L) kind settings history rng).strategy.bucketAt previous chosen).store.pending =
      [] := by
  rw [(accounts_build kind settings history rng).pending_bucketAt, ite_self]
  rfl

end Strategy

/-! ## Regrouping a history -/

namespace Filing

variable {f : Filing κ}

/-- What seeding leaves in a bucket: the rows of its key, filed in their order. -/
theorem get_seed (b : Buckets κ L) (history : List HistoryRow) (k : κ) :
    (f.seed b history).get k = (f.rowsAt k history).foldl
      (fun bucket row => bucket.mapStore fun s => s.append (f.record row).1 (f.record row).2)
      (b.get k) := by
  induction history generalizing b with
  | nil => rfl
  | cons row rest ih =>
    rw [seed, List.foldl_cons]
    refine (ih _).trans ?_
    by_cases hk : f.key row.previous row.action = k
    · rw [seedRow, rowsAt, rowsAt, List.filter_cons_of_pos (by simpa using hk), List.foldl_cons, hk,
        Table.get_modify_self]
      rfl
    · rw [seedRow, rowsAt, rowsAt, List.filter_cons_of_neg (by simpa using hk),
        Table.get_modify_ne _ _ (Ne.symm hk)]

/-- Histories with the same rows under every key seed the same buckets, however the rows of different
keys are mixed. -/
theorem seed_congr {history history' : List HistoryRow} {kind : StrategyKind}
    {settings : StrategySettings} (hf : f.Follows kind settings)
    (h : ∀ previous chosen,
      kind.rowsAt previous chosen history' = kind.rowsAt previous chosen history)
    (b : Buckets κ L) : f.seed b history' = f.seed b history := by
  refine Table.ext fun k => ?_
  obtain ⟨previous, chosen, rfl⟩ := hf.onto k
  rw [get_seed, get_seed, hf.rowsAt_eq, hf.rowsAt_eq, h]

end Filing

namespace Strategy

/-- Such histories build the same strategy: the same stores, models and flags, and the same source of
randomness, which every training pass has drawn from. -/
theorem build_congr [Dice γ] {kind : StrategyKind} (settings : StrategySettings)
    {history history' : List HistoryRow}
    (h : ∀ previous chosen,
      kind.rowsAt previous chosen history' = kind.rowsAt previous chosen history) (rng : γ) :
    build (L := L) kind settings history' rng = build kind settings history rng := by
  cases kind with
  | quadratic =>
    rw [build, build, Quadratic.build, Quadratic.build, Quadratic.filing,
      Filing.seed_congr (Filing.pair_follows_quadratic settings) h]
  | staticOffline =>
    rw [build, build, StaticOffline.build, StaticOffline.build,
      Filing.seed_congr (Filing.pair_follows_staticOffline settings) h]
  | perAction =>
    rw [build, build, PerAction.build, PerAction.build,
      Filing.seed_congr (Filing.action_follows settings) h]
  | single =>
    rw [build, build, Single.build, Single.build,
      Filing.seed_congr (Filing.joint_follows settings) h]
  | reduced =>
    rw [build, build, Reduced.build, Reduced.build,
      Filing.seed_congr (Filing.size_follows settings) h]
  | ruleBased => rfl

end Strategy

end AdaptiveConsensus
