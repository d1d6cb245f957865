import AdaptiveConsensus.Proofs.Decimal.Arithmetic
import AdaptiveConsensus.Proofs.Snapshot.ReadBack
import AdaptiveConsensus.Proofs.Strategy.Calls
import AdaptiveConsensus.Proofs.Wire.Codec

/-!
# Training targets

Of two throughputs that are not negative the better one has the better target, below the threshold, from
it on and across it, and rounding leaves it so. Nothing keeps a report or a snapshot from telling a
throughput below zero, and there the square turns the order round: the worse throughput has the better
target.

- `shape_le_shape_iff`: which throughputs have targets in their own order, exactly.
- `shapeReward_le`: the targets that are computed of throughputs that are not negative.
- `Told`: the throughputs that can be told, those below zero among them.
- `Strategy.targetsAt_of_calls`: the targets that a bucket holds after any calls.
- `Strategy.targets_of_told`: all of this of the targets of a bucket.
-/

namespace AdaptiveConsensus

open AdaptiveConsensus.Random
open Decimal

/-! ## The order of targets -/

theorem shape_of_lt {a : ℚ} (h : a < 1000) : shape a = a * a / 1000 := by
  rw [shape, if_pos h]
  ring

theorem shape_of_ge {a : ℚ} (h : 1000 ≤ a) : shape a = a := by
  rw [shape, if_neg (not_lt.mpr h)]

/-- No target is negative. -/
theorem shape_nonneg (a : ℚ) : 0 ≤ shape a := by
  obtain h | h := lt_or_ge a 1000
  · rw [shape_of_lt h]
    exact div_nonneg (mul_self_nonneg a) (by norm_num)
  · rw [shape_of_ge h]
    linarith

/-- Targets keep the order of two throughputs if the smaller one is no farther below zero than the
larger one is above it, or than the target of the larger one tells. -/
theorem shape_le_shape_iff {a b : ℚ} (h : a ≤ b) :
    shape a ≤ shape b ↔ if b < 1000 then a = b ∨ 0 ≤ a + b else 0 ≤ a ∨ a * a ≤ 1000 * b := by
  split
  · rename_i hb
    rw [shape_of_lt (h.trans_lt hb), shape_of_lt hb, div_le_div_iff_of_pos_right (by norm_num)]
    constructor
    · intro hsquares
      by_contra hout
      obtain ⟨hne, hsum⟩ := not_or.mp hout
      have hlt : a < b := lt_of_le_of_ne h hne
      nlinarith [mul_pos (sub_pos.mpr hlt) (neg_pos.mpr (not_le.mp hsum))]
    · rintro (rfl | hsum)
      · exact le_rfl
      · nlinarith [mul_nonneg (sub_nonneg.mpr h) hsum]
  · rename_i hb
    rw [shape_of_ge (not_lt.mp hb)]
    obtain ha | ha := lt_or_ge a 1000
    · rw [shape_of_lt ha, div_le_iff₀ (by norm_num), mul_comm b]
      refine ⟨.inr, fun hor => hor.elim (fun hnonneg => ?_) id⟩
      nlinarith
    · rw [shape_of_ge ha]
      exact iff_of_true h (.inl (by linarith))

/-- A better throughput has a better target, from zero upwards. -/
theorem strictMonoOn_shape : StrictMonoOn (shape (α := ℚ)) (Set.Ici 0) := by
  intro a ha b hb hlt
  rw [Set.mem_Ici] at ha hb
  rw [← not_le]
  obtain hb' | hb' := lt_or_ge b 1000
  · rw [shape_of_lt hb', shape_of_lt (hlt.trans hb'), div_le_div_iff_of_pos_right (by norm_num), not_le]
    nlinarith
  · rw [shape_of_ge hb', not_le]
    obtain ha' | ha' := lt_or_ge a 1000
    · rw [shape_of_lt ha', div_lt_iff₀ (by norm_num)]
      nlinarith
    · rwa [shape_of_ge ha']

/-- Below zero a better throughput has a worse target. -/
theorem strictAntiOn_shape : StrictAntiOn (shape (α := ℚ)) (Set.Iic 0) := by
  intro a ha b hb hlt
  rw [Set.mem_Iic] at ha hb
  rw [shape_of_lt (by linarith), shape_of_lt (by linarith), div_lt_div_iff_of_pos_right (by norm_num)]
  nlinarith

/-! ## Targets as they are computed -/

/-- The target of a throughput below the threshold is computed in three steps, each of which rounds. -/
def Computes (a t : ℚ) : Prop :=
  ∃ q s, Rounds (a / 1000) q ∧ Rounds (q * q) s ∧ Rounds (s * 1000) t

theorem exists_computes {a : ℚ} (ha : 0 ≤ a) : ∃ t, Computes a t := by
  obtain ⟨q, hq⟩ := exists_rounds (div_nonneg ha (by norm_num : (0 : ℚ) ≤ 1000))
  obtain ⟨s, hs⟩ := exists_rounds (mul_self_nonneg q)
  obtain ⟨t, ht⟩ := exists_rounds (mul_nonneg hs.nonneg (by norm_num : (0 : ℚ) ≤ 1000))
  exact ⟨t, q, s, hq, hs, ht⟩

theorem value?_one : value? 1 = some 1 := by decide +kernel

theorem value?_thousand : value? 1000 = some 1000 := by decide +kernel

theorem rounds_one : Rounds 1 1 :=
  rounds_self (hasValue_unpack value?_one) (by norm_num)

theorem rounds_thousand : Rounds 1000 1000 :=
  rounds_self (hasValue_unpack value?_thousand) (by norm_num)

/-- At the threshold nothing is rounded. -/
theorem computes_thousand : Computes 1000 1000 := by
  refine ⟨1, 1, ?_, ?_, ?_⟩
  · rw [div_self (by norm_num)]
    exact rounds_one
  · rw [mul_one]
    exact rounds_one
  · rw [one_mul]
    exact rounds_thousand

/-- Each step keeps the order. -/
theorem Computes.mono {a b t t' : ℚ} (h : Computes a t) (h' : Computes b t') (hle : a ≤ b) :
    t ≤ t' := by
  obtain ⟨q, s, hq, hs, ht⟩ := h
  obtain ⟨q', s', hq', hs', ht'⟩ := h'
  have hquotient : q ≤ q' := hq.mono hq' (div_le_div_of_nonneg_right hle (by norm_num))
  have hsquare : s ≤ s' := hs.mono hs' (mul_self_le_mul_self hq.nonneg hquotient)
  exact ht.mono ht' (mul_le_mul_of_nonneg_right hsquare (by norm_num))

/-- The target that is stored of a throughput below the threshold is the one that the three steps
compute. -/
theorem value?_shapeReward_of_lt {x : Float} {a t : ℚ} (hx : value? x = some a) (ha : 0 ≤ a)
    (hlt : a < 1000) (h : Computes a t) : value? (shapeReward x) = some t := by
  obtain ⟨q, s, hq, hs, ht⟩ := h
  -- nothing grows beyond what it is at the threshold
  have hquotient : q ≤ 1 := hq.mono rounds_one (by linarith)
  have hsquare : s ≤ 1 := hs.mono rounds_one (mul_le_one₀ hquotient hq.nonneg hquotient)
  have htarget : t ≤ 1000 := ht.mono rounds_thousand (by linarith)
  have hfinite (c : ℚ) (hc : c ≤ 2 ^ (10 : ℤ)) : c < 2 ^ (1024 : ℤ) :=
    hc.trans_lt (zpow_lt_zpow_right₀ one_lt_two (by decide))
  have hquotient' := value?_div hx value?_thousand ha (by norm_num) hq (hfinite q (by linarith))
  have hsquare' := value?_mul hquotient' hquotient' hq.nonneg hq.nonneg hs (hfinite s (by linarith))
  have hbelow : x < 1000 := (lt_iff_value hx value?_thousand).mpr hlt
  rw [shapeReward, shape, if_pos hbelow]
  exact value?_mul hsquare' value?_thousand hs.nonneg (by norm_num) ht (hfinite t (by linarith))

theorem shapeReward_of_ge {x : Float} {a : ℚ} (hx : value? x = some a) (ha : 1000 ≤ a) :
    shapeReward x = x := by
  rw [shapeReward, shape, if_neg]
  rw [lt_iff_value hx value?_thousand]
  exact not_lt.mpr ha

/-- The targets that are stored of throughputs that are not negative keep their order, too. -/
theorem shapeReward_le {x y : Float} {a b : ℚ} (hx : value? x = some a) (hy : value? y = some b)
    (ha : 0 ≤ a) (hle : a ≤ b) : shapeReward x ≤ shapeReward y := by
  obtain ⟨t, ht⟩ := exists_computes ha
  obtain ⟨t', ht'⟩ := exists_computes (ha.trans hle)
  obtain hb | hb := lt_or_ge b 1000
  · rw [le_iff_value (value?_shapeReward_of_lt hx ha (hle.trans_lt hb) ht)
      (value?_shapeReward_of_lt hy (ha.trans hle) hb ht')]
    exact ht.mono ht' hle
  · rw [shapeReward_of_ge hy hb]
    obtain ha' | ha' := lt_or_ge a 1000
    · rw [le_iff_value (value?_shapeReward_of_lt hx ha ha' ht) hy]
      exact (ht.mono computes_thousand ha'.le).trans hb
    · rwa [shapeReward_of_ge hx ha', le_iff_value hx hy]

/-! ## Throughputs that are told -/

/-- A report or a row of a snapshot can tell a throughput. -/
def Told (a : ℚ) : Prop :=
  (∃ (m : Message) (r : StateReport), m.toReport = .ok r ∧ value? r.reward = some a) ∨
    ∃ (columns : Snapshot.ColumnMap) (line : List Char) (row : HistoryRow),
      columns.parseRow line = .ok row ∧ value? row.throughput = some a

/-- Every value of a number can be told. -/
theorem told_iff {a : ℚ} : Told a ↔ ∃ x, value? x = some a := by
  constructor
  · rintro (⟨m, r, -, h⟩ | ⟨columns, line, row, -, h⟩)
    · exact ⟨_, h⟩
    · exact ⟨_, h⟩
  · rintro ⟨x, h⟩
    exact .inr ⟨_, _, ⟨⟨0, 0, 0, 0, 0, 0⟩, .pbft, .pbft, x⟩, Snapshot.parseRow_toLine _ Cost.free, h⟩

/-- Nothing keeps a throughput with the other sign from being told. -/
theorem Told.neg {a : ℚ} (h : Told a) : Told (-a) := by
  obtain ⟨x, hx⟩ := told_iff.mp h
  exact told_iff.mpr (exists_value_neg hx)

/-! ## The targets of a bucket -/

/-- The throughputs that the bucket of a decision has learnt from: those of the history, and if the
strategy learns online those accepted since. The fixed rule learns from none. -/
def StrategyKind.throughputsAt (kind : StrategyKind) (previous chosen : Protocol)
    (history : List HistoryRow) (credits : List Credit) : List Float :=
  (if kind = .ruleBased then [] else (kind.rowsAt previous chosen history).map HistoryRow.throughput) ++
    if kind.learnsOnline then (kind.creditsAt previous chosen credits).map Credit.raw else []

theorem StrategyKind.throughputsAt_append (kind : StrategyKind) (previous chosen : Protocol)
    (history : List HistoryRow) (credits new : List Credit) :
    kind.throughputsAt previous chosen history (credits ++ new) =
      kind.throughputsAt previous chosen history credits ++
        if kind.learnsOnline then (kind.creditsAt previous chosen new).map Credit.raw else [] := by
  rw [throughputsAt, throughputsAt, List.append_assoc, creditsAt, List.filter_append, List.map_append]
  by_cases h : kind.learnsOnline = true
  · rw [if_pos h, if_pos h, if_pos h]
    rfl
  · rw [if_neg h, if_neg h, if_neg h]
    rfl

variable {L : Learner} {γ : Type}

/-- A label adds a target to its bucket and to no other. -/
theorem Buckets.Labels.map_snd {κ : Type} [Indexed κ] {b b' : Buckets κ L} {k j : κ} {x : Features}
    {y : Float} (h : b.Labels b' k x y) {p : Prop} [Decidable p] (hp : k = j ↔ p) :
    (b'.get j).store.labelled.map Prod.snd =
      (b.get j).store.labelled.map Prod.snd ++ if p then [y] else [] := by
  by_cases hk : k = j
  · rw [if_pos (hp.mp hk), ← hk, h.labelled, List.map_append]
    rfl
  · rw [if_neg (mt hp.mpr hk), h.others j (Ne.symm hk), List.append_nil]

namespace Strategy

variable {settings : StrategySettings} {history rows : List HistoryRow}
  {waiting waiting' : List FiledDecision} {s s' : Strategy L γ} {previous chosen : Protocol}

/-- The targets that the bucket of a decision holds. -/
def targetsAt (previous chosen : Protocol) (s : Strategy L γ) : List Float :=
  (s.bucketAt previous chosen).store.rewards

theorem targetsAt_eq_map (previous chosen : Protocol) (s : Strategy L γ) :
    s.targetsAt previous chosen = (s.bucketAt previous chosen).store.labelled.map Prod.snd :=
  (s.bucketAt previous chosen).store.rewards_eq

/-- Strategies that account for the same rows hold the same targets. -/
theorem Accounts.targetsAt_eq (h : s.Accounts settings history rows waiting)
    (h' : s'.Accounts settings history rows waiting') (hsame : s'.kind = s.kind)
    (hkind : s.kind ≠ .ruleBased) (previous chosen : Protocol) :
    s'.targetsAt previous chosen = s.targetsAt previous chosen := by
  rw [targetsAt_eq_map, targetsAt_eq_map, h.labelled_bucketAt hkind,
    h'.labelled_bucketAt (hsame ▸ hkind), hsame]

/-- An accepted throughput adds its target to its bucket. -/
theorem Credited.targetsAt_eq {x : Features} {y : Float} (h : s.Credited previous chosen x y s')
    (previous' chosen' : Protocol) : s'.targetsAt previous' chosen' =
      s.targetsAt previous' chosen' ++
        if s.kind.key previous chosen = s.kind.key previous' chosen' then [y] else [] := by
  rw [targetsAt_eq_map, targetsAt_eq_map]
  cases s with
  | quadratic q =>
    obtain ⟨b, hlabels, rfl⟩ := h
    exact hlabels.map_snd (by simp [kind, StrategyKind.key])
  | perAction p =>
    obtain ⟨b, hlabels, rfl⟩ := h
    exact hlabels.map_snd (by simp [kind, StrategyKind.key])
  | single s =>
    obtain ⟨b, hlabels, rfl⟩ := h
    exact hlabels.map_snd (by simp [kind, StrategyKind.key])
  | staticOffline _ => exact h.elim
  | reduced _ => exact h.elim
  | ruleBased => exact h.elim

variable [Dice γ] {kind : StrategyKind} {filed : List FiledDecision} {credits : List Credit}

omit [Dice γ] in
/-- A throughput that is refused adds no target; one that is accepted adds its own. -/
theorem Tally.targetsAt_recordReward
    (h : s.Tally kind settings history filed credits rows waiting) (hkind : kind.learnsOnline = true)
    (previous chosen : Protocol) (raw : Float) (previous' chosen' : Protocol) :
    (s.recordReward previous chosen raw).1.targetsAt previous' chosen' =
      s.targetsAt previous' chosen' ++
        (kind.creditsAt previous' chosen' (s.credit? (.reward previous chosen raw)).toList).map
          fun c => shapeReward c.raw := by
  rcases h.recordReward hkind previous chosen raw with
    ⟨-, hrefused⟩ | ⟨d, s', rows', waiting', -, hs', hcredited, -⟩
  · rw [credit?, hrefused]
    exact (List.append_nil _).symm
  · rw [credit?, hs', hcredited.targetsAt_eq, h.same_kind]
    congr 1
    by_cases hkey : kind.key previous chosen = kind.key previous' chosen' <;>
      simp [StrategyKind.creditsAt, hkey]

/-- What a call does to the targets of a bucket: an accepted throughput adds one, and nothing else
does. -/
theorem Tally.targetsAt_call (h : s.Tally kind settings history filed credits rows waiting)
    (hkind : kind ≠ .ruleBased) (c : Call) (previous chosen : Protocol) :
    (s.call c).targetsAt previous chosen = s.targetsAt previous chosen ++
      if kind.learnsOnline then
        (kind.creditsAt previous chosen (s.credit? c).toList).map fun c => shapeReward c.raw
      else [] := by
  have hsame := h.same_kind
  have hnone : (if kind.learnsOnline then ([] : List Float) else []) = [] := ite_self _
  cases c with
  | file d =>
    refine ((h.account.targetsAt_eq (h.file d).account ((h.file d).same_kind.trans hsame.symm)
      (hsame ▸ hkind) previous chosen).trans ?_)
    exact (List.append_nil _).symm.trans (congrArg _ hnone.symm)
  | lookUp previous' chosen' => exact (List.append_nil _).symm.trans (congrArg _ hnone.symm)
  | decide state previous' measured =>
    refine (h.account.targetsAt_eq (h.account.decide state previous' measured) (s.kind_decide ..)
      (hsame ▸ hkind) previous chosen).trans ?_
    exact (List.append_nil _).symm.trans (congrArg _ hnone.symm)
  | reward previous' chosen' raw =>
    by_cases honline : kind.learnsOnline = true
    · rw [if_pos honline]
      exact h.targetsAt_recordReward honline previous' chosen' raw previous chosen
    · rw [if_neg honline, List.append_nil, Strategy.call,
        recordReward_of_offline (by rw [hsame]; simpa using honline)]

omit [Dice γ] in
/-- The fixed rule holds no target. -/
theorem targetsAt_ruleBased (hkind : s.kind = .ruleBased) (previous chosen : Protocol) :
    s.targetsAt previous chosen = [] := by
  cases s with
  | ruleBased => rfl
  | quadratic _ => nomatch hkind
  | perAction _ => nomatch hkind
  | single _ => nomatch hkind
  | staticOffline _ => nomatch hkind
  | reduced _ => nomatch hkind

/-- After any calls of a new strategy the targets of a bucket are the shaped throughputs that it has
learnt from, in order. -/
theorem targetsAt_of_calls (kind : StrategyKind) (settings : StrategySettings)
    (history : List HistoryRow) (rng : γ) (calls : List Call) (previous chosen : Protocol) :
    ((build (L := L) kind settings history rng).strategy.after calls).targetsAt previous chosen =
      (kind.throughputsAt previous chosen history
        ((build (L := L) kind settings history rng).strategy.credits calls)).map shapeReward := by
  by_cases hkind : kind = .ruleBased
  · obtain ⟨rows, waiting, h⟩ := tally_of_calls (L := L) kind settings history rng calls
    rw [targetsAt_ruleBased (h.same_kind.trans hkind), hkind]
    rfl
  induction calls using List.reverseRecOn with
  | nil =>
    rw [after, List.foldl_nil, targetsAt_eq_map, labelled_build hkind, credits,
      StrategyKind.throughputsAt, StrategyKind.creditsAt, if_neg hkind]
    simp [StrategyKind.record]
  | append_singleton calls c ih =>
    obtain ⟨rows, waiting, h⟩ := tally_of_calls (L := L) kind settings history rng calls
    rw [after_concat, h.targetsAt_call hkind, ih, credits_concat, StrategyKind.throughputsAt_append,
      List.map_append]
    split <;> simp

/-- The targets of a bucket are the shaped throughputs that it has learnt from. Exactly, no target is
negative; from zero upwards a better throughput has a better target and below zero a worse one, and two
throughputs on both sides of zero keep their order as far as the worse one does not outweigh the better
one. A report or a snapshot can tell throughputs of both signs alike. Rounding does not disturb the order
from zero upwards. -/
theorem targets_of_told (kind : StrategyKind) (settings : StrategySettings) (history : List HistoryRow)
    (rng : γ) (calls : List Call) (previous chosen : Protocol) :
    ((build (L := L) kind settings history rng).strategy.after calls).targetsAt previous chosen =
      (kind.throughputsAt previous chosen history
        ((build (L := L) kind settings history rng).strategy.credits calls)).map shapeReward ∧
    (∀ a b : ℚ, a ≤ b →
      0 ≤ shape a ∧
      (0 ≤ a → a < b → shape a < shape b) ∧
      (b ≤ 0 → a < b → shape b < shape a) ∧
      (shape a ≤ shape b ↔ if b < 1000 then a = b ∨ 0 ≤ a + b else 0 ≤ a ∨ a * a ≤ 1000 * b)) ∧
    (∀ a : ℚ, Told a → Told (-a)) ∧
    ∀ (x y : Float) (a b : ℚ), value? x = some a → value? y = some b → 0 ≤ a → a ≤ b →
      shapeReward x ≤ shapeReward y := by
  refine ⟨targetsAt_of_calls kind settings history rng calls previous chosen, fun a b hle => ?_,
    fun a => Told.neg, fun x y a b => shapeReward_le⟩
  refine ⟨shape_nonneg a, fun ha hlt => ?_, fun hb hlt => ?_, shape_le_shape_iff hle⟩
  · exact strictMonoOn_shape ha (ha.trans hle) hlt
  · exact strictAntiOn_shape (hle.trans hb) hb hlt

/-- Two rows, the first of which tells a throughput below zero. -/
def lossHistory : List HistoryRow :=
  [⟨⟨0.5, 12, 1024, 6, 0, 1⟩, .pbft, .cheapBft, -2000⟩,
    ⟨⟨0.5, 12, 1024, 6, 0, 1⟩, .pbft, .hotStuff, 500⟩]

/-- The strategy that learns from the two rows once and for all. -/
def lossStrategy : Strategy (Forest.learner ⟨1, 1⟩) ChaCha :=
  (build .staticOffline ⟨.ofLimit 2, true⟩ lossHistory (ChaCha.ofSeed 0)).strategy

/-- The throughput below zero has the better target of the two, and so its protocol is chosen. A report
could have told it as well. -/
theorem lossStrategy_misled :
    lossHistory.map (fun row => value? row.throughput) = [some (-2000), some 500] ∧
      Told (-2000) ∧ Told 500 ∧ shape (500 : ℚ) < shape (-2000) ∧
      lossStrategy.targetsAt .pbft .cheapBft = [4000] ∧ lossStrategy.targetsAt .pbft .hotStuff = [250] ∧
      (lossStrategy.decide ⟨0.5, 12, 1024, 6, 0, 1⟩ .pbft Cost.free).outcome.toOption.map
        Choice.protocol = some .cheapBft ∧
      ∃ (m : Message) (r : StateReport), m.toReport = .ok r ∧ value? r.reward = some (-2000) := by
  have hloss : value? (-2000) = some (-2000) := by decide +kernel
  have hgain : value? 500 = some 500 := by decide +kernel
  refine ⟨by decide +kernel, told_iff.mpr ⟨_, hloss⟩, told_iff.mpr ⟨_, hgain⟩, ?_, by decide +kernel,
    by decide +kernel, by decide +kernel, ?_⟩
  · rw [shape_of_lt (by norm_num), shape_of_lt (by norm_num)]
    norm_num
  · exact ⟨_, _, Message.toReport_ofReport ⟨⟨0.5, 12, 1024, 6, 0, 1⟩, .pbft, -2000⟩,
      (by decide +kernel : value? (widen (narrow (-2000))) = some (-2000))⟩

/-- One of two throughputs is accepted after the two rows, and it is better than that of its row. -/
theorem targets_of_lossHistory :
    let calls : List Call := [.file ⟨⟨0.5, 12, 1024, 6, 0, 1⟩, .pbft, .hotStuff⟩,
      .reward .pbft .hotStuff 900, .reward .pbft .hotStuff 1100]
    let s := (build (L := Forest.learner ⟨1, 1⟩) .quadratic ⟨.ofLimit 2, true⟩ lossHistory
      (ChaCha.ofSeed 0)).strategy
    (s.after calls).targetsAt .pbft .hotStuff = [500, 900].map shapeReward ∧
      shape (500 : ℚ) < shape 900 ∧ shapeReward 500 ≤ shapeReward 900 := by
  intro calls s
  obtain ⟨htargets, horder, -, hrounded⟩ := targets_of_told (L := Forest.learner ⟨1, 1⟩) .quadratic
    ⟨.ofLimit 2, true⟩ lossHistory (ChaCha.ofSeed 0) calls .pbft .hotStuff
  refine ⟨htargets.trans (by decide +kernel), (horder 500 900 (by norm_num)).2.1 (by norm_num) (by norm_num),
    hrounded 500 900 500 900 ?_ ?_ (by norm_num) (by norm_num)⟩
  · decide +kernel
  · decide +kernel

end Strategy

end AdaptiveConsensus
