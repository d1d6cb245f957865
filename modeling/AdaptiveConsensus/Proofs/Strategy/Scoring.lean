import AdaptiveConsensus.Strategy.Decision

/-!
# What scores tell

A candidate without records is scored by a stand-in, every other one by its model. `Scored.Tells` is
this relation between a candidate and a score.

- `Scored.tells_of_ok`: if scoring succeeds, there is one score for each candidate, and it tells of it.
- `Scored.queries_of_ok`: then each candidate with records was asked about.
- `Scored.ok_of_predicts`: scoring succeeds if every model that is asked answers.
- `Scored.tells_candidate`: positions in the pool's scores and candidates correspond.
-/

namespace AdaptiveConsensus

variable {L : Learner}

/-- The pool lists each protocol at its position. -/
theorem Protocol.pool_getElem?_index (c : Protocol) : Protocol.pool[c.index.val]? = some c := by
  cases c <;> rfl

theorem pool_getElem?_eq_some {k : Nat} (h : k < Protocol.pool.length) :
    Protocol.pool[k]? = some (candidate k) := by
  rw [candidate, List.getElem?_eq_getElem h]
  rfl

namespace Scored

/-- A score tells of a candidate: it is the stand-in if the candidate has no records, and otherwise what
the candidate's model estimates. -/
def Tells (bucket : Protocol → Bucket L) (row : Features) (unknown : Protocol → Float) (c : Protocol)
    (score : Float) : Prop :=
  ((bucket c).count = 0 → score = unknown c) ∧
    ((bucket c).count ≠ 0 → (bucket c).predict row = .ok score)

variable {bucket : Protocol → Bucket L} {row : Features} {unknown : Protocol → Float}

/-- A candidate without records is scored by the stand-in. -/
theorem ofCandidates_unasked {c : Protocol} (hcount : (bucket c).count = 0)
    (candidates : List Protocol) :
    ofCandidates bucket row unknown (c :: candidates) =
      consUnasked (unknown c) (ofCandidates bucket row unknown candidates) := by
  rw [ofCandidates, if_pos hcount]

/-- A candidate with records is scored by its model, if that answers. -/
theorem ofCandidates_asked {c : Protocol} {score : Float} (hcount : (bucket c).count ≠ 0)
    (hscore : (bucket c).predict row = .ok score) (candidates : List Protocol) :
    ofCandidates bucket row unknown (c :: candidates) =
      consAsked row score (ofCandidates bucket row unknown candidates) := by
  rw [ofCandidates, if_neg hcount, hscore]

theorem map_cons_eq_ok {score : Float} {rest : Except BucketError (List Float)} {scores : List Float}
    (h : rest.map (score :: ·) = .ok scores) : ∃ others, rest = .ok others ∧ scores = score :: others := by
  cases rest with
  | error e => cases h
  | ok others => exact ⟨others, rfl, (Except.ok.inj h).symm⟩

/-- If scoring succeeds, there is one score for each candidate, and it tells of the candidate. -/
theorem tells_of_ok {candidates : List Protocol} {scores : List Float}
    (h : (ofCandidates bucket row unknown candidates).outcome = .ok scores) :
    scores.length = candidates.length ∧ ∀ (k : Nat) (c : Protocol), candidates[k]? = some c →
      ∃ score, scores[k]? = some score ∧ Tells bucket row unknown c score := by
  induction candidates generalizing scores with
  | nil =>
    obtain rfl : [] = scores := Except.ok.inj h
    refine ⟨rfl, fun k c hk => ?_⟩
    rw [List.getElem?_nil] at hk
    cases hk
  | cons c rest ih =>
    -- whichever way the first candidate is scored, the others are scored behind it
    obtain ⟨score, others, hscore, hrest, rfl⟩ : ∃ score others, Tells bucket row unknown c score ∧
        (ofCandidates bucket row unknown rest).outcome = .ok others ∧ scores = score :: others := by
      rw [ofCandidates] at h
      by_cases hcount : (bucket c).count = 0
      · rw [if_pos hcount] at h
        obtain ⟨others, hrest, hscores⟩ := map_cons_eq_ok h
        exact ⟨_, others, ⟨fun _ => rfl, fun hne => (hne hcount).elim⟩, hrest, hscores⟩
      · rw [if_neg hcount] at h
        cases hpredict : (bucket c).predict row with
        | error e =>
          rw [hpredict] at h
          cases h
        | ok score =>
          rw [hpredict] at h
          obtain ⟨others, hrest, hscores⟩ := map_cons_eq_ok h
          exact ⟨score, others, ⟨fun h0 => (hcount h0).elim, fun _ => hpredict⟩, hrest, hscores⟩
    obtain ⟨hlength, htells⟩ := ih hrest
    refine ⟨by rw [List.length_cons, List.length_cons, hlength], fun k c' hk => ?_⟩
    cases k with
    | zero =>
      obtain rfl : c = c' := Option.some.inj hk
      exact ⟨score, rfl, hscore⟩
    | succ k => exact htells k c' hk

/-- If scoring succeeds, each candidate with records was asked about, by the one row. -/
theorem queries_of_ok {candidates : List Protocol} {scores : List Float}
    (h : (ofCandidates bucket row unknown candidates).outcome = .ok scores) :
    (ofCandidates bucket row unknown candidates).queries =
      (candidates.filter fun c => (bucket c).count ≠ 0).map fun _ => [row] := by
  induction candidates generalizing scores with
  | nil => rfl
  | cons c rest ih =>
    rw [ofCandidates] at h ⊢
    by_cases hcount : (bucket c).count = 0
    · rw [if_pos hcount] at h ⊢
      obtain ⟨others, hrest, -⟩ := map_cons_eq_ok h
      rw [List.filter_cons_of_neg (by simpa using hcount)]
      exact ih hrest
    · rw [if_neg hcount] at h ⊢
      rw [List.filter_cons_of_pos (by simpa using hcount)]
      cases hpredict : (bucket c).predict row with
      | error e =>
        rw [hpredict] at h
        cases h
      | ok score =>
        rw [hpredict] at h
        obtain ⟨others, hrest, -⟩ := map_cons_eq_ok h
        exact congrArg (List.cons [row]) (ih hrest)

/-- Scoring succeeds if every model that is asked answers. -/
theorem ok_of_predicts {candidates : List Protocol}
    (h : ∀ c ∈ candidates, (bucket c).count ≠ 0 → ∃ score, (bucket c).predict row = .ok score) :
    ∃ scores, (ofCandidates bucket row unknown candidates).outcome = .ok scores := by
  induction candidates with
  | nil => exact ⟨[], rfl⟩
  | cons c rest ih =>
    obtain ⟨others, hrest⟩ := ih fun c' hc' => h c' (List.mem_cons_of_mem _ hc')
    by_cases hcount : (bucket c).count = 0
    · rw [ofCandidates_unasked hcount, consUnasked, hrest]
      exact ⟨_, rfl⟩
    · obtain ⟨score, hscore⟩ := h c (List.mem_cons_self ..) hcount
      rw [ofCandidates_asked hcount hscore, consAsked, hrest]
      exact ⟨_, rfl⟩

/-- In the scores of the whole pool, the score at a protocol's position tells of the protocol. -/
theorem tells_index {scores : List Float}
    (h : (ofCandidates bucket row unknown Protocol.pool).outcome = .ok scores) (c : Protocol) :
    ∃ score, scores[c.index.val]? = some score ∧ Tells bucket row unknown c score :=
  (tells_of_ok h).2 _ c c.pool_getElem?_index

/-- In the scores of the whole pool, a score tells of the candidate at its position. -/
theorem tells_candidate {scores : List Float}
    (h : (ofCandidates bucket row unknown Protocol.pool).outcome = .ok scores) {k : Nat} {score : Float}
    (hk : scores[k]? = some score) : Tells bucket row unknown (candidate k) score := by
  obtain ⟨hlength, htells⟩ := tells_of_ok h
  obtain ⟨hlt, -⟩ := List.getElem?_eq_some_iff.mp hk
  obtain ⟨score', hscore', htell⟩ := htells k _ (pool_getElem?_eq_some (hlength ▸ hlt))
  rw [hk] at hscore'
  rwa [Option.some.inj hscore']

end Scored

end AdaptiveConsensus
