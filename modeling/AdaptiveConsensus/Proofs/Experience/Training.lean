import AdaptiveConsensus.Proofs.Experience.Filing

/-!
# Training and asking models

A bucket is trained on rows of one width and asked about rows of that width. Of the learner two things
are used, both about such input: that the sets it is handed can be fitted (`Learner.Fits`), and that a
fitted model gives one estimate for each row (`Learner.Answers`). A bucket that has records and was
trained is then `Ready`: it can be asked.

- `Store.drawn_sample`, `Store.drawn_fullHistory`: what a store hands to the learner are records of it.
- `Store.Uniform.wellFormed`: so it is well-formed.
- `Bucket.ready_train`, `Bucket.ready_trainFull`: a training pass succeeds and leaves a bucket ready.
- `Bucket.predictAll_ok`, `Bucket.predict_ok`: a ready bucket answers.
- `Buckets.ready_trainEach`: so do all buckets that are trained in turn.
-/

namespace AdaptiveConsensus

open AdaptiveConsensus.Random

namespace Learner

variable (L : Learner)

/-- A model that was fitted to rows of a width. -/
def Fitted (width : Nat) (model : L.Model) : Prop :=
  ∃ set seed, set.WellFormed width ∧ L.fit set seed = .ok model

/-- The well-formed ones of these sets can be fitted, whatever the seed. -/
def Fits (sets : List TrainingSet) : Prop :=
  ∀ set ∈ sets, ∀ width seed, set.WellFormed width → ∃ model, L.fit set seed = .ok model

/-- A model that was fitted to rows of a width gives one estimate for each row of a matrix of that
width. -/
def Answers : Prop :=
  ∀ (width : Nat) (model : L.Model) (rows : List Features), L.Fitted width model → rows ≠ [] →
    (∀ row ∈ rows, row.length = width) →
    ∃ estimates, L.predict model rows = .ok estimates ∧ estimates.length = rows.length

variable {L}

theorem Fits.subset {sets sets' : List TrainingSet} (h : L.Fits sets)
    (hsub : ∀ set ∈ sets', set ∈ sets) : L.Fits sets' :=
  fun set hset => h set (hsub set hset)

theorem Fits.append {sets more : List TrainingSet} :
    L.Fits (sets ++ more) ↔ L.Fits sets ∧ L.Fits more := by
  constructor
  · rintro h
    exact ⟨fun set hset => h set (List.mem_append_left _ hset),
      fun set hset => h set (List.mem_append_right _ hset)⟩
  · rintro ⟨h, hmore⟩ set hset
    exact (List.mem_append.mp hset).elim (h set) (hmore set)

end Learner

/-- A limit as it is given bounds the window from one on, and not at all below. -/
theorem ReplayCap.window_ofLimit (limit : Int) (n : Nat) :
    ((ReplayCap.ofLimit limit).window n : Int) = if limit ≤ 0 then (n : Int) else min limit n := by
  unfold ofLimit
  by_cases h : limit ≤ 0
  · rw [if_pos h, if_pos h]
    rfl
  · rw [if_neg h, if_neg h]
    show ((min limit.toNat n : Nat) : Int) = _
    omega

/-- A limit as it is given leaves room for a record. -/
theorem ReplayCap.window_pos (limit : Int) {n : Nat} (hn : 0 < n) :
    0 < (ReplayCap.ofLimit limit).window n := by
  have hwindow := window_ofLimit limit n
  split at hwindow <;> omega

/-! ## What a store hands to the learner -/

/-- A set is made of records of a store, each target with its row, and of at least one. The rows that
wait behind the records are not among them. -/
def TrainingSet.DrawnFrom (set : TrainingSet) (s : Store) : Prop :=
  ∃ records, records ≠ [] ∧ set = ofRecords records ∧ ∀ record ∈ records, record ∈ s.labelled

namespace Store

variable {s : Store} {width : Nat}

/-- The rows of the records have a width. -/
def Uniform (width : Nat) (s : Store) : Prop :=
  ∀ record ∈ s.labelled, record.1.length = width

/-- What is drawn from rows of a width is well-formed. -/
theorem Uniform.wellFormed {set : TrainingSet} (hs : s.Uniform width) (hset : set.DrawnFrom s) :
    set.WellFormed width := by
  obtain ⟨records, hne, rfl, hmem⟩ := hset
  refine ⟨?_, ?_, ?_⟩
  · intro hnil
    exact hne (List.map_eq_nil_iff.mp hnil)
  · show (records.map Prod.fst).length = (records.map Prod.snd).length
    rw [List.length_map, List.length_map]
  · intro row hrow
    obtain ⟨record, hrecord, rfl⟩ := List.mem_map.mp hrow
    exact hs record (hmem record hrecord)

/-- A drawn position is one of a record. -/
theorem getElem_labelled {k : Nat} (hk : k < s.count) :
    (s.features.get ⟨k, Nat.lt_of_lt_of_le hk s.rewards_le⟩, s.rewards.get ⟨k, hk⟩) ∈ s.labelled :=
  List.mem_of_getElem? (getElem?_labelled hk)

theorem drawn_sampleAt {cap : ReplayCap} {draws : List (Fin (cap.window s.count))}
    (hdraws : draws ≠ []) : (s.sampleAt cap draws).DrawnFrom s := by
  refine ⟨draws.map fun k => (s.features.get ⟨s.windowStart cap + k.val,
      Nat.lt_of_lt_of_le (s.windowStart_add_lt cap k) s.rewards_le⟩,
    s.rewards.get ⟨s.windowStart cap + k.val, s.windowStart_add_lt cap k⟩), ?_, ?_, ?_⟩
  · intro hnil
    exact hdraws (List.map_eq_nil_iff.mp hnil)
  · rw [sampleAt, TrainingSet.ofRecords, List.map_map, List.map_map]
    rfl
  · intro record hrecord
    obtain ⟨k, -, rfl⟩ := List.mem_map.mp hrecord
    exact getElem_labelled (s.windowStart_add_lt cap k)

/-- A resample of a store with records is drawn from it if the cap leaves room for one. -/
theorem drawn_sample {γ : Type} [Dice γ] {cap : ReplayCap} (hcap : 0 < cap.window s.count) (rng : γ) :
    (s.sample cap rng).1.DrawnFrom s := by
  rw [sample, dif_pos hcap]
  refine drawn_sampleAt ?_
  intro hnil
  have hlength := length_positions (cap.window s.count) hcap (cap.window s.count) rng
  rw [hnil, List.length_nil] at hlength
  omega

/-- All records of a store that has some are drawn from it. -/
theorem drawn_fullHistory (hcount : s.count ≠ 0) : s.fullHistory.DrawnFrom s := by
  refine ⟨s.labelled, ?_, s.fullHistory_eq, fun record hrecord => hrecord⟩
  intro hnil
  rw [← s.length_labelled, hnil] at hcount
  exact hcount rfl

end Store

/-! ## Training and asking one bucket -/

namespace Bucket

variable {L : Learner} {γ : Type} [Dice γ] {b : Bucket L} {width : Nat}

/-- If a bucket has records it has a model that was fitted to rows of a width. -/
def Ready (width : Nat) (b : Bucket L) : Prop :=
  b.count ≠ 0 → ∃ model, b.model = some model ∧ L.Fitted width model

omit [Dice γ] in
theorem ready_of_count {b' : Bucket L} (h : b.Ready width) (hmodel : b'.model = b.model)
    (hcount : b'.count = b.count) : b'.Ready width := by
  rwa [Ready, hmodel, hcount]

omit [Dice γ] in
theorem ready_fitTo {set : TrainingSet} (hset : set.WellFormed width)
    (hfits : L.Fits [set]) (seed : UInt64) (rng : γ) :
    (b.fitTo set seed rng).outcome = .ok () ∧ (b.fitTo set seed rng).bucket.Ready width := by
  obtain ⟨model, hmodel⟩ := hfits set (List.mem_singleton_self _) width seed hset
  rw [fitTo, hmodel]
  exact ⟨rfl, fun _ => ⟨model, rfl, set, seed, hset, hmodel⟩⟩

omit [Dice γ] in
theorem fits_fitTo (set : TrainingSet) (seed : UInt64) (rng : γ) :
    (b.fitTo set seed rng).fits = [set] := by
  rw [fitTo]
  split <;> rfl

/-- A bucket without records is not trained. -/
theorem train_of_count_eq_zero (hcount : b.count = 0) (cap : ReplayCap) (rng : γ) :
    b.train cap rng = ⟨b, rng, [], .ok ()⟩ :=
  if_pos hcount

/-- Of a bucket with records one set is handed to the learner. -/
theorem length_fits_train (hcount : b.count ≠ 0) (cap : ReplayCap) (rng : γ) :
    (b.train cap rng).fits.length = 1 := by
  rw [train, if_neg hcount]
  dsimp only
  rw [fits_fitTo]
  rfl

/-- Training on a resample succeeds and leaves the bucket ready. -/
theorem ready_train {cap : ReplayCap} {rng : γ} (hb : b.store.Uniform width)
    (hcap : ∀ n, 0 < n → 0 < cap.window n) (hfits : L.Fits (b.train cap rng).fits) :
    (b.train cap rng).outcome = .ok () ∧ (b.train cap rng).bucket.Ready width := by
  by_cases hcount : b.count = 0
  · rw [train_of_count_eq_zero hcount]
    exact ⟨rfl, fun hne => (hne hcount).elim⟩
  · have hset := hb.wellFormed (Store.drawn_sample (hcap _ (Nat.pos_of_ne_zero hcount)) rng)
    rw [train, if_neg hcount] at hfits ⊢
    dsimp only at hfits ⊢
    rw [fits_fitTo] at hfits
    exact ready_fitTo hset hfits _ _

/-- Training on all records succeeds and leaves the bucket ready. -/
theorem ready_trainFull {rng : γ} (hb : b.store.Uniform width)
    (hfits : L.Fits (b.trainFull rng).fits) :
    (b.trainFull rng).outcome = .ok () ∧ (b.trainFull rng).bucket.Ready width := by
  by_cases hcount : b.count = 0
  · rw [trainFull, if_pos hcount]
    exact ⟨rfl, fun hne => (hne hcount).elim⟩
  · rw [trainFull, if_neg hcount] at hfits ⊢
    dsimp only at hfits ⊢
    rw [fits_fitTo] at hfits
    exact ready_fitTo (hb.wellFormed (Store.drawn_fullHistory hcount)) hfits _ _

omit [Dice γ] in
/-- A ready bucket with records answers for a matrix. -/
theorem predictAll_ok (hL : L.Answers) (hb : b.Ready width) (hcount : b.count ≠ 0)
    {rows : List Features} (hrows : rows ≠ []) (hwidth : ∀ row ∈ rows, row.length = width) :
    ∃ estimates, b.predictAll rows = .ok estimates ∧ estimates.length = rows.length := by
  obtain ⟨model, hmodel, hfitted⟩ := hb hcount
  obtain ⟨estimates, hpredict, hlength⟩ := hL width model rows hfitted hrows hwidth
  refine ⟨estimates, ?_, hlength⟩
  rw [predictAll, hmodel]
  dsimp only
  rw [hpredict]

omit [Dice γ] in
/-- A ready bucket with records answers for a row. -/
theorem predict_ok (hL : L.Answers) (hb : b.Ready width) (hcount : b.count ≠ 0) {row : Features}
    (hwidth : row.length = width) : ∃ estimate, b.predict row = .ok estimate := by
  obtain ⟨estimates, hpredict, hlength⟩ := predictAll_ok hL hb hcount (List.cons_ne_nil row [])
    (fun x hx => by rw [List.mem_singleton.mp hx]; exact hwidth)
  obtain ⟨estimate, rfl⟩ := List.length_eq_one_iff.mp hlength
  exact ⟨estimate, by rw [predict, hpredict]⟩

end Bucket

/-! ## Training buckets in turn -/

namespace Buckets

variable {κ : Type} [Indexed κ] [DecidableEq κ] {L : Learner} {γ : Type}
  {train : Bucket L → γ → Training L γ} {width : Nat}

/-- A training pass that keeps the store, and on rows of a width succeeds and leaves a bucket ready. -/
structure Readies (width : Nat) (train : Bucket L → γ → Training L γ) : Prop where
  store : ∀ b rng, (train b rng).bucket.store = b.store
  ready : ∀ b rng, b.store.Uniform width → L.Fits (train b rng).fits →
    (train b rng).outcome = .ok () ∧ (train b rng).bucket.Ready width

theorem ready_trainOne (htrain : Readies width train) {b : Buckets κ L} {k : κ} {rng : γ}
    (hb : (b.get k).store.Uniform width) (hfits : L.Fits (b.trainOne train k rng).fits) :
    (b.trainOne train k rng).outcome = .ok () ∧
      ∀ j, j = k ∨ (b.get j).Ready width → ((b.trainOne train k rng).buckets.get j).Ready width := by
  obtain ⟨hok, hready⟩ := htrain.ready (b.get k) rng hb hfits
  refine ⟨hok, ?_⟩
  rintro j hj
  show ((b.set k _).get j).Ready width
  rw [Table.get_set]
  split
  · exact hready
  · next hne => exact hj.resolve_left hne

/-- Training buckets in turn succeeds, and leaves those ready that are trained or were ready. -/
theorem ready_trainEach (htrain : Readies width train) {keys : List κ} {b : Buckets κ L} {rng : γ}
    (hb : ∀ k, (b.get k).store.Uniform width) (hfits : L.Fits (trainEach train keys b rng).fits) :
    (trainEach train keys b rng).outcome = .ok () ∧
      ∀ j, j ∈ keys ∨ (b.get j).Ready width →
        ((trainEach train keys b rng).buckets.get j).Ready width := by
  induction keys generalizing b rng with
  | nil => exact ⟨rfl, fun j hj => hj.resolve_left List.not_mem_nil⟩
  | cons k rest ih =>
    rw [trainEach] at hfits ⊢
    dsimp only at hfits ⊢
    have hsame := sameStores_trainOne htrain.store b k rng
    -- the first set is handed over whether or not it can be fitted
    have hfirst : L.Fits (b.trainOne train k rng).fits := by
      cases hok : (b.trainOne train k rng).outcome with
      | error e => rwa [hok] at hfits
      | ok _ =>
        rw [hok] at hfits
        exact (Learner.Fits.append.mp hfits).1
    obtain ⟨hok, hready⟩ := ready_trainOne htrain (hb k) hfirst
    rw [hok] at hfits ⊢
    have hothers := (Learner.Fits.append.mp hfits).2
    obtain ⟨hrest, hreadyRest⟩ := ih (fun j => by rw [hsame j]; exact hb j) hothers
    refine ⟨hrest, ?_⟩
    rintro j hj
    refine hreadyRest j ?_
    rcases hj with hj | hj
    · exact (List.mem_cons.mp hj).symm.imp_right fun heq => hready j (.inl heq)
    · exact .inr (hready j (.inr hj))

end Buckets

/-! ## Widths of filed rows -/

namespace Filing

variable {κ : Type} [Indexed κ] [DecidableEq κ] {L : Learner} {f : Filing κ} {width : Nat}

/-- The feature rows of a filing rule have a width. -/
def Width (f : Filing κ) (width : Nat) : Prop :=
  ∀ state previous chosen, (f.encode state previous chosen).length = width

theorem Accounts.uniform (hf : f.Width width) {b : Buckets κ L} {rows : List HistoryRow}
    {waiting : List FiledDecision} (h : f.Accounts b rows waiting) (k : κ) :
    (b.get k).store.Uniform width := by
  intro record hrecord
  rw [h.labelled] at hrecord
  obtain ⟨row, -, rfl⟩ := List.mem_map.mp hrecord
  exact hf row.state row.previous row.action

end Filing

end AdaptiveConsensus
