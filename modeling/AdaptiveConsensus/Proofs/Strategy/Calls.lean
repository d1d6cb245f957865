import AdaptiveConsensus.Forest.Basic
import AdaptiveConsensus.Proofs.Strategy.Bucketing
import AdaptiveConsensus.Random.ChaCha
import Mathlib.Data.List.Induction

/-!
# Calls of a strategy in any order

The controller calls its strategy in one order only. A strategy does not rely on it: here its four calls
come in any order, with throughputs that are refused and decisions that fail among them. Each bucket is
a queue of its own. The throughputs accepted for it, in order, belong to the decisions filed in it, in
order, whatever happens to other buckets in between.

- `Strategy.call_induction`: what each call keeps holds after any calls.
- `Strategy.Accounts.reward`, `Strategy.Accounts.refuses`: what a throughput does, whichever decision it
  is for.
- `Strategy.tally_of_calls`: after any calls, the decisions that wait in a bucket are those filed in it
  but for as many of the oldest as throughputs were accepted.
- `Strategy.rewards_of_calls`: so a throughput is refused exactly when the two numbers are equal, and
  otherwise labels the oldest row of its bucket and changes nothing else.
-/

namespace AdaptiveConsensus

open AdaptiveConsensus.Random

/-- A call of a strategy. -/
inductive Call where
  /-- A throughput is attributed to a decision. -/
  | reward (previous chosen : Protocol) (raw : Float)
  /-- A decision is filed. -/
  | file (d : FiledDecision)
  /-- The state columns of a decision are asked for. -/
  | lookUp (previous chosen : Protocol)
  /-- A decision is asked for. -/
  | decide (state : StateVector) (previous : Protocol) (measured : Cost)

namespace Call

/-- The decision that a call files, if it files one. -/
def filed? : Call → Option FiledDecision
  | file d => some d
  | _ => none

/-- The decisions filed in a sequence of calls, in order. -/
def filings (calls : List Call) : List FiledDecision :=
  calls.filterMap filed?

theorem filings_concat (calls : List Call) (c : Call) :
    filings (calls ++ [c]) = filings calls ++ c.filed?.toList := by
  rw [filings, List.filterMap_append]
  cases hc : c.filed? <;> simp [filings, hc]

end Call

/-- A throughput that was accepted, with the decision that it was given for. -/
structure Credit where
  previous : Protocol
  chosen : Protocol
  raw : Float

namespace StrategyKind

/-- The throughputs that went to the bucket of a decision. -/
def creditsAt (kind : StrategyKind) (previous chosen : Protocol) (credits : List Credit) :
    List Credit :=
  credits.filter fun c => kind.key c.previous c.chosen = kind.key previous chosen

theorem decisionsAt_concat (kind : StrategyKind) (previous chosen : Protocol)
    (filed : List FiledDecision) (d : FiledDecision) :
    kind.decisionsAt previous chosen (filed ++ [d]) = kind.decisionsAt previous chosen filed ++
      if kind.key d.previous d.chosen = kind.key previous chosen then [d] else [] := by
  rw [decisionsAt, List.filter_append, decisionsAt]
  by_cases h : kind.key d.previous d.chosen = kind.key previous chosen <;> simp [h]

theorem length_creditsAt_concat (kind : StrategyKind) (previous chosen : Protocol)
    (credits : List Credit) (c : Credit) :
    (kind.creditsAt previous chosen (credits ++ [c])).length =
      (kind.creditsAt previous chosen credits).length +
        if kind.key c.previous c.chosen = kind.key previous chosen then 1 else 0 := by
  rw [creditsAt, List.filter_append, List.length_append, creditsAt]
  by_cases h : kind.key c.previous c.chosen = kind.key previous chosen <;> simp [h]

/-- The first decision of a bucket leaves a list of decisions: its bucket loses its head, and no other
bucket changes. -/
theorem decisionsAt_remove {kind : StrategyKind} {previous chosen : Protocol}
    {front back : List FiledDecision} {d : FiledDecision}
    (hfront : ∀ e ∈ front, kind.key e.previous e.chosen ≠ kind.key d.previous d.chosen) :
    kind.decisionsAt previous chosen (front ++ back) =
      (kind.decisionsAt previous chosen (front ++ d :: back)).drop
        (if kind.key d.previous d.chosen = kind.key previous chosen then 1 else 0) := by
  rw [decisionsAt, decisionsAt, List.filter_append, List.filter_append, List.filter_cons]
  by_cases h : kind.key d.previous d.chosen = kind.key previous chosen
  · have hnone : front.filter (fun e => kind.key e.previous e.chosen = kind.key previous chosen) = [] :=
      List.filter_eq_nil_iff.mpr fun e he => by simpa [← h] using hfront e he
    simp [h, hnone]
  · simp [h]

end StrategyKind

variable {L : Learner} {γ : Type}

namespace Strategy

/-! ## One throughput -/

/-- The strategy `s'` is `s` after it learned that the oldest row of a bucket, `x`, has the target `y`:
the row is labelled, the strategies that refit late note the key, and the pairwise one ends the hold of
the pair. Nothing else changes. -/
def Credited (s : Strategy L γ) (previous chosen : Protocol) (x : Features) (y : Float)
    (s' : Strategy L γ) : Prop :=
  match s with
  | quadratic q => ∃ b, q.buckets.Labels b (previous, chosen) x y ∧
      s' = quadratic { q with
        buckets := b
        stale := some (previous, chosen)
        onHold := q.onHold.set (previous, chosen) false }
  | perAction p => ∃ b, p.buckets.Labels b chosen x y ∧
      s' = perAction { p with buckets := b, stale := some chosen }
  | single s => ∃ b, s.buckets.Labels b () x y ∧ s' = single { s with buckets := b }
  | staticOffline _ | reduced _ | ruleBased => False

variable {settings : StrategySettings} {history rows : List HistoryRow}
  {waiting front back : List FiledDecision} {s : Strategy L γ} {previous chosen : Protocol}

/-- A strategy that does not learn online takes no notice. -/
theorem recordReward_of_offline (hkind : s.kind.learnsOnline = false) (previous chosen : Protocol)
    (raw : Float) : s.recordReward previous chosen raw = (s, .ok ()) := by
  cases s <;> first | rfl | cases hkind

/-- A throughput is refused if no decision of its bucket waits, and then changes nothing. -/
theorem Accounts.refuses (h : s.Accounts settings history rows waiting)
    (hkind : s.kind.learnsOnline = true)
    (hnone : ∀ d ∈ waiting, s.kind.key d.previous d.chosen ≠ s.kind.key previous chosen)
    (raw : Float) : s.recordReward previous chosen raw = (s, .error .nothingPending) := by
  cases s with
  | quadratic q =>
    have hrefused := Filing.Accounts.refuses (f := pairFiling) h
      (fun d hd hkey => hnone d hd (((Filing.pair_follows_quadratic settings).key_iff ..).mp hkey)) raw
    simp only [Strategy.recordReward, Quadratic.recordReward, Quadratic.filing, hrefused]
  | perAction p =>
    obtain ⟨hone, hp⟩ := h
    have hrefused := hp.refuses
      (fun d hd hkey => hnone d hd (((Filing.action_follows settings).key_iff ..).mp hkey)) raw
    simp only [Strategy.recordReward, PerAction.recordReward, PerAction.filing, hone, hrefused]
  | single s =>
    have hrefused := Filing.Accounts.refuses (f := jointFiling) h
      (fun d hd hkey => hnone d hd (((Filing.joint_follows settings).key_iff ..).mp hkey)) raw
    simp only [Strategy.recordReward, Single.recordReward, hrefused]
  | staticOffline _ => cases hkind
  | reduced _ => cases hkind
  | ruleBased => cases hkind

/-- A throughput for a bucket in which decisions wait is accepted and resolves the oldest of them. -/
theorem Accounts.reward {d : FiledDecision}
    (h : s.Accounts settings history rows (front ++ d :: back)) (hkind : s.kind.learnsOnline = true)
    (hfront : ∀ e ∈ front, s.kind.key e.previous e.chosen ≠ s.kind.key previous chosen)
    (hd : s.kind.key d.previous d.chosen = s.kind.key previous chosen) (raw : Float) :
    ∃ s', s.recordReward previous chosen raw = (s', .ok ()) ∧
      s.Credited previous chosen (s.kind.encode settings d.state d.previous d.chosen)
        (shapeReward raw) s' ∧
      s'.Accounts settings history (rows ++ [d.resolved raw]) (front ++ back) := by
  cases s with
  | quadratic q =>
    have hfollows := Filing.pair_follows_quadratic settings
    obtain ⟨b, hb, hlabels, hacc⟩ := Filing.Accounts.labels (f := pairFiling) h
      (fun e he hkey => hfront e he ((hfollows.key_iff ..).mp hkey)) ((hfollows.key_iff ..).mpr hd) raw
    rw [List.append_assoc] at hacc
    refine ⟨_, ?_, ⟨b, hlabels, rfl⟩, hacc⟩
    simp only [Strategy.recordReward, Quadratic.recordReward, Quadratic.filing, hb]
  | perAction p =>
    have hfollows := Filing.action_follows settings
    obtain ⟨hone, hp⟩ := h
    obtain ⟨b, hb, hlabels, hacc⟩ := hp.labels
      (fun e he hkey => hfront e he ((hfollows.key_iff ..).mp hkey)) ((hfollows.key_iff ..).mpr hd) raw
    rw [List.append_assoc] at hacc
    refine ⟨_, ?_, ⟨b, hlabels, rfl⟩, hone, hacc⟩
    simp only [Strategy.recordReward, PerAction.recordReward, PerAction.filing, hone, hb]
  | single s =>
    have hfollows := Filing.joint_follows settings
    obtain ⟨b, hb, hlabels, hacc⟩ := Filing.Accounts.labels (f := jointFiling) h
      (fun e he hkey => hfront e he ((hfollows.key_iff ..).mp hkey)) ((hfollows.key_iff ..).mpr hd) raw
    rw [List.append_assoc] at hacc
    refine ⟨_, ?_, ⟨b, hlabels, rfl⟩, hacc⟩
    simp only [Strategy.recordReward, Single.recordReward, hb]
  | staticOffline _ => cases hkind
  | reduced _ => cases hkind
  | ruleBased => cases hkind

/-! ## Sequences of calls -/

variable [Dice γ]

/-- What a call leaves, whether or not it succeeds. -/
def call (s : Strategy L γ) : Call → Strategy L γ
  | .reward previous chosen raw => (s.recordReward previous chosen raw).1
  | .file d => s.recordDecision d.previous d.chosen d.state
  | .lookUp _ _ => s
  | .decide state previous measured => (s.decide state previous measured).state

/-- What a sequence of calls leaves. -/
def after (s : Strategy L γ) (calls : List Call) : Strategy L γ :=
  calls.foldl call s

theorem after_concat (s : Strategy L γ) (calls : List Call) (c : Call) :
    s.after (calls ++ [c]) = (s.after calls).call c := by
  rw [after, List.foldl_append]
  rfl

/-- What each call keeps holds after any calls. -/
theorem call_induction {P : Strategy L γ → Prop} (hstep : ∀ s c, P s → P (s.call c))
    {s : Strategy L γ} (hs : P s) (calls : List Call) : P (s.after calls) := by
  induction calls generalizing s with
  | nil => exact hs
  | cons c rest ih => exact ih (hstep s c hs)

/-- The throughput that a call brings, if it is accepted. -/
def credit? (s : Strategy L γ) : Call → Option Credit
  | .reward previous chosen raw =>
    match (s.recordReward previous chosen raw).2 with
    | .ok () => some ⟨previous, chosen, raw⟩
    | .error _ => none
  | _ => none

/-- The throughputs accepted in a sequence of calls, in order. -/
def credits (s : Strategy L γ) : List Call → List Credit
  | [] => []
  | c :: rest => (s.credit? c).toList ++ (s.call c).credits rest

theorem credits_concat (s : Strategy L γ) (calls : List Call) (c : Call) :
    s.credits (calls ++ [c]) = s.credits calls ++ ((s.after calls).credit? c).toList := by
  induction calls generalizing s with
  | nil => exact List.append_nil _
  | cons d rest ih =>
    rw [List.cons_append, credits, credits, ih, List.append_assoc]
    rfl

/-- After some calls, the strategy accounts for `rows` that were resolved and for decisions that wait.
In each bucket those are the decisions filed in it, but for as many of the oldest as throughputs were
accepted for it. -/
structure Tally (kind : StrategyKind) (settings : StrategySettings) (history : List HistoryRow)
    (filed : List FiledDecision) (credits : List Credit) (s : Strategy L γ) (rows : List HistoryRow)
    (waiting : List FiledDecision) : Prop where
  same_kind : s.kind = kind
  account : s.Accounts settings history rows waiting
  waits : kind.learnsOnline = true → ∀ previous chosen,
    kind.decisionsAt previous chosen waiting =
      (kind.decisionsAt previous chosen filed).drop (kind.creditsAt previous chosen credits).length
  short : kind.learnsOnline = true → ∀ previous chosen,
    (kind.creditsAt previous chosen credits).length ≤ (kind.decisionsAt previous chosen filed).length

variable {kind : StrategyKind} {filed : List FiledDecision} {credits : List Credit}

omit [Dice γ] in
/-- A filed decision waits behind all others. -/
theorem Tally.file (h : s.Tally kind settings history filed credits rows waiting) (d : FiledDecision) :
    (s.recordDecision d.previous d.chosen d.state).Tally kind settings history (filed ++ [d]) credits
      rows (waiting ++ [d]) where
  same_kind := (s.kind_recordDecision ..).trans h.same_kind
  account := h.account.recordDecision d
  waits hkind previous chosen := by
    rw [StrategyKind.decisionsAt_concat, StrategyKind.decisionsAt_concat, h.waits hkind,
      List.drop_append_of_le_length (h.short hkind previous chosen)]
  short hkind previous chosen := by
    rw [StrategyKind.decisionsAt_concat, List.length_append]
    exact Nat.le_add_right_of_le (h.short hkind previous chosen)

omit [Dice γ] in
/-- A throughput for a bucket in which a decision waits takes the oldest one of it. -/
theorem Tally.split (h : s.Tally kind settings history filed credits rows waiting)
    (hkind : kind.learnsOnline = true) {d : FiledDecision}
    (hd : (kind.decisionsAt previous chosen filed)[(kind.creditsAt previous chosen credits).length]? =
      some d) :
    ∃ front back, waiting = front ++ d :: back ∧
      (∀ e ∈ front, kind.key e.previous e.chosen ≠ kind.key previous chosen) ∧
      kind.key d.previous d.chosen = kind.key previous chosen := by
  have hhead : kind.decisionsAt previous chosen waiting =
      d :: (kind.decisionsAt previous chosen filed).drop
        ((kind.creditsAt previous chosen credits).length + 1) := by
    rw [h.waits hkind, List.drop_eq_getElem?_toList_append, hd]
    rfl
  obtain ⟨front, back, hsplit, hfront, hkey, -⟩ := List.filter_eq_cons_iff.mp hhead
  exact ⟨front, back, hsplit, fun e he => by simpa using hfront e he, by simpa using hkey⟩

omit [Dice γ] in
/-- A throughput finds as many decisions filed in its bucket as throughputs accepted, and is refused; or
there is a decision whose turn it is. -/
theorem Tally.recordReward (h : s.Tally kind settings history filed credits rows waiting)
    (hkind : kind.learnsOnline = true) (previous chosen : Protocol) (raw : Float) :
    ((kind.decisionsAt previous chosen filed).length = (kind.creditsAt previous chosen credits).length ∧
      s.recordReward previous chosen raw = (s, .error .nothingPending)) ∨
    ∃ d s' rows' waiting',
      (kind.decisionsAt previous chosen filed)[(kind.creditsAt previous chosen credits).length]? =
        some d ∧
      s.recordReward previous chosen raw = (s', .ok ()) ∧
      s.Credited previous chosen (kind.encode settings d.state d.previous d.chosen)
        (shapeReward raw) s' ∧
      s'.Tally kind settings history filed (credits ++ [⟨previous, chosen, raw⟩]) rows' waiting' := by
  have hsame := h.same_kind
  subst hsame
  cases hd : (s.kind.decisionsAt previous chosen filed)[(s.kind.creditsAt previous chosen
      credits).length]? with
  | none =>
    have hshort := h.short hkind previous chosen
    have hlong := List.getElem?_eq_none_iff.mp hd
    have hnone : s.kind.decisionsAt previous chosen waiting = [] := by
      rw [h.waits hkind, List.drop_eq_nil_iff]
      exact hlong
    refine .inl ⟨Nat.le_antisymm hlong hshort, h.account.refuses hkind (fun e he => ?_) raw⟩
    simpa using List.filter_eq_nil_iff.mp hnone e he
  | some d =>
    obtain ⟨front, back, rfl, hfront, hkey⟩ := h.split hkind hd
    obtain ⟨s', hs', hcredited, haccount⟩ := h.account.reward hkind hfront hkey raw
    have hkind' : s'.kind = s.kind := by
      rw [← s.kind_recordReward previous chosen raw, hs']
    refine .inr ⟨d, s', _, _, rfl, hs', hcredited, hkind', haccount, ?_, ?_⟩
    · intro _ previous' chosen'
      rw [StrategyKind.decisionsAt_remove (by rwa [hkey]), h.waits hkind, List.drop_drop,
        StrategyKind.length_creditsAt_concat, hkey]
    · intro _ previous' chosen'
      rw [StrategyKind.length_creditsAt_concat]
      by_cases hk : s.kind.key previous chosen = s.kind.key previous' chosen'
      · -- the decision of the throughput is one more than those credited before
        have hlt := (List.getElem?_eq_some_iff.mp hd).1
        rw [StrategyKind.decisionsAt, StrategyKind.creditsAt, hk] at hlt
        rw [if_pos hk]
        exact hlt
      · rw [if_neg hk]
        exact h.short hkind previous' chosen'

/-- Every call keeps the tally. -/
theorem Tally.call (h : s.Tally kind settings history filed credits rows waiting) (c : Call) :
    ∃ rows' waiting', (s.call c).Tally kind settings history (filed ++ c.filed?.toList)
      (credits ++ (s.credit? c).toList) rows' waiting' := by
  cases c with
  | file d =>
    refine ⟨rows, waiting ++ [d], ?_⟩
    simp only [credit?, Option.toList_none, List.append_nil]
    exact h.file d
  | lookUp previous chosen =>
    refine ⟨rows, waiting, ?_⟩
    simp only [credit?, Call.filed?, Option.toList_none, List.append_nil]
    exact h
  | decide state previous measured =>
    refine ⟨rows, waiting, ?_⟩
    simp only [credit?, Call.filed?, Option.toList_none, List.append_nil]
    exact ⟨(s.kind_decide ..).trans h.same_kind, h.account.decide state previous measured, h.waits,
      h.short⟩
  | reward previous chosen raw =>
    simp only [Call.filed?, Option.toList_none, List.append_nil, credit?, Strategy.call]
    by_cases hkind : kind.learnsOnline = true
    · rcases h.recordReward hkind previous chosen raw with
        ⟨-, hrefused⟩ | ⟨d, s', rows', waiting', -, hs', -, htally⟩
      · rw [hrefused]
        refine ⟨rows, waiting, ?_⟩
        rwa [Option.toList_none, List.append_nil]
      · rw [hs']
        exact ⟨rows', waiting', htally⟩
    · -- a strategy that does not learn online keeps no tally
      rw [recordReward_of_offline (by rw [h.same_kind]; simpa using hkind)]
      exact ⟨rows, waiting, h.same_kind, h.account, fun hon => (hkind hon).elim,
        fun hon => (hkind hon).elim⟩

/-- After any calls of a new strategy the tally is right. -/
theorem tally_of_calls (kind : StrategyKind) (settings : StrategySettings)
    (history : List HistoryRow) (rng : γ) (calls : List Call) : ∃ rows waiting,
    ((build (L := L) kind settings history rng).strategy.after calls).Tally kind settings history
      (Call.filings calls) ((build (L := L) kind settings history rng).strategy.credits calls) rows
      waiting := by
  induction calls using List.reverseRecOn with
  | nil =>
    exact ⟨[], [], kind_build .., accounts_build .., fun _ _ _ => rfl, fun _ _ _ => Nat.le_refl 0⟩
  | append_singleton calls c ih =>
    obtain ⟨rows, waiting, h⟩ := ih
    rw [after_concat, Call.filings_concat, credits_concat]
    exact h.call c

/-- What a throughput does to a strategy that learns online, after the decisions `filed` were filed and
the throughputs `credits` accepted. -/
structure RewardLaws (kind : StrategyKind) (settings : StrategySettings)
    (filed : List FiledDecision) (credits : List Credit) (s : Strategy L γ)
    (previous chosen : Protocol) (raw : Float) : Prop where
  /-- It is refused exactly when as many throughputs were accepted for its bucket as decisions were
  filed in it. -/
  refused_iff : (∃ e, (s.recordReward previous chosen raw).2 = .error e) ↔
    (kind.decisionsAt previous chosen filed).length = (kind.creditsAt previous chosen credits).length
  /-- A refused one changes nothing. -/
  refused : ∀ e, (s.recordReward previous chosen raw).2 = .error e →
    e = .nothingPending ∧ (s.recordReward previous chosen raw).1 = s
  /-- An accepted one labels the oldest row that waits in its bucket, the one of the first decision
  filed in it that was not credited before. -/
  accepted : (s.recordReward previous chosen raw).2 = .ok () → ∃ d,
    (kind.decisionsAt previous chosen filed)[(kind.creditsAt previous chosen credits).length]? =
      some d ∧
    s.Credited previous chosen (kind.encode settings d.state d.previous d.chosen) (shapeReward raw)
      (s.recordReward previous chosen raw).1

/-- After any calls in any order, refused throughputs and failed decisions among them, a throughput
follows these laws. -/
theorem rewards_of_calls {kind : StrategyKind} (hkind : kind.learnsOnline = true)
    (settings : StrategySettings) (history : List HistoryRow) (rng : γ) (calls : List Call)
    (previous chosen : Protocol) (raw : Float) :
    RewardLaws kind settings (Call.filings calls)
      ((build (L := L) kind settings history rng).strategy.credits calls)
      ((build (L := L) kind settings history rng).strategy.after calls) previous chosen raw := by
  obtain ⟨rows, waiting, h⟩ := tally_of_calls (L := L) kind settings history rng calls
  rcases h.recordReward hkind previous chosen raw with
    ⟨heven, hrefused⟩ | ⟨d, s', rows', waiting', hd, hs', hcredited, -⟩
  · constructor
    · rw [hrefused]
      exact iff_of_true ⟨_, rfl⟩ heven
    · intro e he
      rw [hrefused] at he ⊢
      exact ⟨(Except.error.inj he).symm, rfl⟩
    · intro hok
      rw [hrefused] at hok
      cases hok
  · have hlt := (List.getElem?_eq_some_iff.mp hd).1
    constructor
    · rw [hs']
      refine iff_of_false ?_ (Nat.ne_of_gt hlt)
      rintro ⟨e, he⟩
      cases he
    · intro e he
      rw [hs'] at he
      cases he
    · intro _
      rw [hs']
      exact ⟨d, hd, hcredited⟩

/-- One history row. -/
def mixedHistory : List HistoryRow :=
  [⟨⟨0.75, 21, 256, 6, 0, 1⟩, .pbft, .cheapBft, 800⟩]

/-- Calls as the controller never makes them: a throughput before any decision, and two decisions of one
bucket of which the second came while the first already had its throughput. -/
def mixedCalls : List Call :=
  let state : StateVector := ⟨0.5, 12, 1024, 6, 0, 1⟩
  [.reward .pbft .prime 900, .file ⟨state, .pbft, .prime⟩, .file ⟨state, .sbft, .cheapBft⟩,
    .decide state .pbft Cost.free, .reward .hotStuff .cheapBft 700, .lookUp .pbft .cheapBft,
    .file ⟨state, .zyzzyva, .cheapBft⟩]

/-- One of the two throughputs was accepted, so that a next one for its bucket labels the second of the
bucket's decisions. -/
theorem rewards_of_mixedCalls :
    StrategyKind.perAction.learnsOnline = true ∧
      ((build (L := Forest.learner ⟨1, 1⟩) .perAction ⟨.ofLimit 2, true⟩ mixedHistory
        (ChaCha.ofSeed 0)).strategy.credits mixedCalls).map Credit.chosen = [.cheapBft] ∧
      RewardLaws .perAction ⟨.ofLimit 2, true⟩ (Call.filings mixedCalls)
        ((build (L := Forest.learner ⟨1, 1⟩) .perAction ⟨.ofLimit 2, true⟩ mixedHistory
          (ChaCha.ofSeed 0)).strategy.credits mixedCalls)
        ((build (L := Forest.learner ⟨1, 1⟩) .perAction ⟨.ofLimit 2, true⟩ mixedHistory
          (ChaCha.ofSeed 0)).strategy.after mixedCalls) .pbft .cheapBft 1100 := by
  refine ⟨rfl, by decide +kernel, ?_⟩
  exact rewards_of_calls rfl ⟨.ofLimit 2, true⟩ mixedHistory (ChaCha.ofSeed 0) mixedCalls .pbft .cheapBft
    1100

end Strategy

end AdaptiveConsensus
