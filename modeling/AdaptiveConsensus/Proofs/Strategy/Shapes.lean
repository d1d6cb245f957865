import AdaptiveConsensus.Proofs.Forest.Answers
import AdaptiveConsensus.Proofs.Strategy.Handover

/-!
# Shapes of training sets and matrices

A matrix can be packed into columns if it has a row and no row is shorter than the first. A strategy
has one width for all its rows. They enter its stores by three ways, as history rows, as decisions that
wait, and as rewarded decisions, and the matrix it keeps is written over again and again; through any
calls nothing of another width comes in, and what is drawn for training is never one of the rows that
wait. So whatever a strategy hands to a learner or to a model can be packed.

- `Strategy.Accounts.width_rows`: all rows of the stores have the strategy's width.
- `Strategy.inShape_of_calls`: so have those of the matrix, after any calls.
- `Strategy.shapes_of_calls`: all sets and matrices that are handed over can be packed. Those are the
  reported ones, by `Strategy.handsOver_build` and `Strategy.handsOver_decide`.
-/

namespace AdaptiveConsensus

open AdaptiveConsensus.Random

variable {κ : Type} [Indexed κ] [DecidableEq κ] {L : Learner} {γ : Type}

/-! ## Widths -/

/-- How many columns the rows of a kind have; the fixed rule has no rows. -/
def StrategyKind.width (oneHot : Bool) : StrategyKind → Nat
  | quadratic | staticOffline => 6
  | perAction => if oneHot then 10 else 6
  | single => 12
  | reduced => 7
  | ruleBased => 0

theorem StrategyKind.length_encode (settings : StrategySettings) (kind : StrategyKind)
    (state : StateVector) (previous c : Protocol) :
    (kind.encode settings state previous c).length = kind.width settings.oneHot := by
  cases kind with
  | perAction => exact width_action settings.oneHot state previous c
  | _ => rfl

theorem StrategyKind.rectangular_asked (settings : StrategySettings) (kind : StrategyKind)
    (state : StateVector) (previous c : Protocol) :
    Rectangular (kind.width settings.oneHot) (kind.asked settings state previous c) := by
  have hone : Rectangular (kind.width settings.oneHot) [kind.encode settings state previous c] :=
    ⟨List.cons_ne_nil _ _, fun x hx => by
      rw [List.mem_singleton.mp hx]
      exact kind.length_encode settings state previous c⟩
  have hall : Rectangular (kind.width settings.oneHot)
      (Protocol.pool.map (kind.encode settings state previous)) := by
    refine ⟨List.cons_ne_nil _ _, fun x hx => ?_⟩
    obtain ⟨c, -, rfl⟩ := List.mem_map.mp hx
    exact kind.length_encode settings state previous c
  cases kind <;> assumption

/-- All rows of buckets that account for some rows and decisions have the width of the kind, those of
the records and those that wait. -/
theorem Filing.Accounts.width_rows {f : Filing κ} {b : Buckets κ L} {rows : List HistoryRow}
    {waiting : List FiledDecision} {kind : StrategyKind} {settings : StrategySettings}
    (h : f.Accounts b rows waiting) (hf : f.Follows kind settings) (k : κ) :
    ∀ x ∈ (b.get k).store.features, x.length = kind.width settings.oneHot := by
  intro x hx
  rw [Store.features_eq, h.labelled, h.pending] at hx
  rcases List.mem_append.mp hx with hrecord | hwaits
  · obtain ⟨record, hmem, rfl⟩ := List.mem_map.mp hrecord
    obtain ⟨row, -, rfl⟩ := List.mem_map.mp hmem
    rw [hf.record_eq]
    exact kind.length_encode settings row.state row.previous row.action
  · obtain ⟨d, -, rfl⟩ := List.mem_map.mp hwaits
    rw [encodeDecision, hf.encode_eq]
    exact kind.length_encode settings d.state d.previous d.chosen

namespace Store

variable {s : Store} {width : Nat}

theorem uniform_of_features (h : ∀ x ∈ s.features, x.length = width) : s.Uniform width :=
  fun _ hrecord => h _ (List.of_mem_zip hrecord).1

/-- The row labelled last is there if there are records. -/
theorem latest?_mem (hcount : s.count ≠ 0) : ∃ x ∈ s.features, s.latest? = some x := by
  have hlt : s.count - 1 < s.features.length := by
    have := s.count_le
    omega
  refine ⟨s.features[s.count - 1], List.getElem_mem hlt, ?_⟩
  rw [latest?, if_neg hcount, List.getElem?_eq_getElem hlt]

theorem mem_of_latest? {x : Features} (h : s.latest? = some x) : x ∈ s.features := by
  rw [latest?] at h
  split at h
  · cases h
  · exact List.mem_of_getElem? h

end Store

namespace Strategy

variable {settings : StrategySettings} {history rows : List HistoryRow}
  {waiting : List FiledDecision} {s : Strategy L γ}

theorem Accounts.width_rows (h : s.Accounts settings history rows waiting) (previous chosen : Protocol) :
    ∀ x ∈ (s.bucketAt previous chosen).store.features, x.length = s.kind.width settings.oneHot := by
  cases s with
  | quadratic q => exact Filing.Accounts.width_rows h (Filing.pair_follows_quadratic settings) _
  | staticOffline s => exact Filing.Accounts.width_rows h (Filing.pair_follows_staticOffline settings) _
  | perAction p => exact h.2.width_rows (Filing.action_follows settings) _
  | single s => exact Filing.Accounts.width_rows h (Filing.joint_follows settings) _
  | reduced r => exact Filing.Accounts.width_rows h (Filing.size_follows settings) _
  | ruleBased => exact fun _ hx => by cases hx

/-- The columns that the log is shown are those of a state. -/
theorem Accounts.length_previousFeatures (h : s.Accounts settings history rows waiting)
    {previous chosen : Protocol} {columns : Features}
    (hcolumns : s.previousFeatures previous chosen = some columns) :
    columns.length = StateVector.width := by
  have hrows := h.width_rows previous chosen
  cases s with
  | quadratic q =>
    obtain ⟨x, hx, rfl⟩ := Option.map_eq_some_iff.mp hcolumns
    exact hrows x (Store.mem_of_latest? hx)
  | staticOffline s =>
    obtain ⟨x, hx, rfl⟩ := Option.map_eq_some_iff.mp hcolumns
    exact hrows x (Store.mem_of_latest? hx)
  | perAction p =>
    obtain ⟨x, hx, rfl⟩ := Option.map_eq_some_iff.mp hcolumns
    have hlength := hrows x (Store.mem_of_latest? hx)
    rw [PerAction.filing, h.1]
    rw [kind, StrategyKind.width] at hlength
    cases hone : settings.oneHot with
    | false =>
      rw [hone] at hlength
      exact hlength
    | true =>
      -- four columns are kept of ten, and two stand-ins follow
      rw [hone] at hlength
      show (x.take 4 ++ [droppedFlag, droppedFlag]).length = 6
      rw [List.length_append, List.length_take, hlength]
      rfl
  | single s =>
    obtain ⟨x, hx, rfl⟩ := Option.map_eq_some_iff.mp hcolumns
    have hlength := hrows x (Store.mem_of_latest? hx)
    show (x.take StateVector.width).length = StateVector.width
    rw [List.length_take, hlength]
    rfl
  | reduced r => cases hcolumns
  | ruleBased => cases hcolumns

end Strategy

/-! ## All calls -/

namespace Strategy

/-- The set was drawn from one of the strategy's stores. -/
def Supplies (s : Strategy L γ) (set : TrainingSet) : Prop :=
  ∃ previous chosen, set.DrawnFrom (s.bucketAt previous chosen).store

/-- The matrix of candidates' rows, of the strategies that keep one. -/
def matrix : Strategy L γ → List Features
  | single s => s.matrix
  | reduced r => r.matrix
  | _ => []

/-- All rows that a strategy keeps are there in full: wherever a call reads an entry of a store or the
first columns of a row, it finds them. -/
structure InShape (width : Nat) (s : Strategy L γ) : Prop where
  /-- The rows of the stores, of records and waiting ones. -/
  rows : ∀ previous chosen, ∀ x ∈ (s.bucketAt previous chosen).store.features, x.length = width
  /-- The row of the last record. -/
  latest : ∀ previous chosen, (s.bucketAt previous chosen).count ≠ 0 →
    ∃ x ∈ (s.bucketAt previous chosen).store.features,
      (s.bucketAt previous chosen).store.latest? = some x
  /-- The columns of it that the log is shown. -/
  shown : ∀ previous chosen columns, s.previousFeatures previous chosen = some columns →
    columns.length = StateVector.width
  /-- The rows of the candidates, whose first columns are written over. -/
  matrix : ∀ x ∈ s.matrix, x.length = width

/-- Sets and matrices that can be packed into columns. The sets are made of records of the strategy. -/
structure Packs (width : Nat) (s : Strategy L γ) (fits : List TrainingSet)
    (queries : List (List Features)) : Prop where
  fits : ∀ set ∈ fits, s.Supplies set ∧ set.WellFormed width ∧
    ∃ m, Forest.Columns.ofRows set.x = .ok m
  queries : ∀ matrix ∈ queries, Rectangular width matrix ∧
    ∃ m, Forest.Columns.ofRows matrix = .ok m

variable {settings : StrategySettings} {history rows : List HistoryRow}
  {waiting : List FiledDecision} {s : Strategy L γ} {fits : List TrainingSet}
  {queries : List (List Features)}

theorem Keeps.width_matrix (h : s.Keeps settings) :
    ∀ x ∈ s.matrix, x.length = s.kind.width settings.oneHot := by
  intro x hx
  cases s with
  | single s =>
    obtain ⟨-, columns, hcolumns, hkept⟩ := h
    rw [matrix, hkept] at hx
    obtain ⟨c, -, rfl⟩ := List.mem_map.mp hx
    rw [List.length_append, hcolumns]
    rfl
  | reduced r =>
    obtain ⟨columns, hcolumns, hkept⟩ := h
    rw [matrix, hkept] at hx
    obtain ⟨c, -, rfl⟩ := List.mem_map.mp hx
    rw [List.length_append, hcolumns]
    rfl
  | _ => cases hx

theorem Accounts.inShape (h : s.Accounts settings history rows waiting) (hkeeps : s.Keeps settings) :
    s.InShape (s.kind.width settings.oneHot) where
  rows := h.width_rows
  latest _ _ := Store.latest?_mem
  shown _ _ _ := h.length_previousFeatures
  matrix := hkeeps.width_matrix

/-- What a strategy's stores supply, and the rows of candidates, can be packed. -/
theorem Accounts.packs (h : s.Accounts settings history rows waiting)
    (hfits : ∀ set ∈ fits, s.Supplies set)
    (hqueries : ∀ matrix ∈ queries, ∃ state previous c,
      matrix = s.kind.asked settings state previous c) :
    s.Packs (s.kind.width settings.oneHot) fits queries where
  fits set hset := by
    obtain ⟨previous, chosen, hdrawn⟩ := hfits set hset
    have hwell := (Store.uniform_of_features (h.width_rows previous chosen)).wellFormed hdrawn
    obtain ⟨m, hm, -⟩ := Forest.Columns.ofRows_ok hwell.1 hwell.2.2
    exact ⟨⟨previous, chosen, hdrawn⟩, hwell, m, hm⟩
  queries matrix hmatrix := by
    obtain ⟨state, previous, c, rfl⟩ := hqueries matrix hmatrix
    have hrect := s.kind.rectangular_asked settings state previous c
    obtain ⟨m, hm, -⟩ := Forest.Columns.ofRows_ok hrect.1 hrect.2
    exact ⟨hrect, m, hm⟩

/-- What a decision hands over was drawn from the strategy's own stores. -/
theorem HandsOver.supplies {previous : Protocol} {passed : Except BucketError Unit}
    {d : Decided (Strategy L γ)} (h : s.HandsOver previous passed d) :
    ∀ set ∈ d.work.fits, s.Supplies set := by
  intro set hset
  obtain ⟨p, c, hdrawn⟩ := h.fits.drawn set hset
  exact ⟨p, c, by rwa [← h.fits.store_eq p c]⟩

variable [Dice γ]

/-- After any calls, whether they succeeded or not, every row is in shape. -/
theorem inShape_of_calls (kind : StrategyKind) (settings : StrategySettings)
    (history : List HistoryRow) (rng : γ) (calls : List Call) :
    ((build (L := L) kind settings history rng).strategy.after calls).InShape
      (kind.width settings.oneHot) := by
  obtain ⟨rows, waiting, htally⟩ := tally_of_calls (L := L) kind settings history rng calls
  have hshape := htally.account.inShape (keeps_of_calls kind settings history rng calls)
  rwa [htally.same_kind] at hshape

/-- Everything handed to a learner or a model can be packed into columns: what a new strategy is fitted
to, and what a decision fits and asks after any calls. What was built and decided reports these sets and
matrices, and its models, failures and scores come of handing over just them. -/
theorem shapes_of_calls (kind : StrategyKind) (limit : Int) (oneHot : Bool)
    (history : List HistoryRow) (rng : γ) (calls : List Call) (state : StateVector)
    (previous : Protocol) (measured : Cost) :
    let built := build (L := L) kind ⟨.ofLimit limit, oneHot⟩ history rng
    let s := built.strategy.after calls
    built.strategy.Packs (kind.width oneHot) built.fits [] ∧ s.InShape (kind.width oneHot) ∧
      s.Packs (kind.width oneHot) (s.decide state previous measured).work.fits
        (s.decide state previous measured).work.queries ∧
      built.HandsOver ∧ ∃ passed, s.HandsOver previous passed (s.decide state previous measured) := by
  intro built s
  let settings : StrategySettings := ⟨.ofLimit limit, oneHot⟩
  have hcap : ∀ n, 0 < n → 0 < settings.cap.window n := fun _ hn => ReplayCap.window_pos limit hn
  have hkeeps : s.Keeps settings := keeps_of_calls kind settings history rng calls
  obtain ⟨rows, waiting, htally⟩ := tally_of_calls (L := L) kind settings history rng calls
  have hbuilt : built.HandsOver := handsOver_build kind hcap history rng
  obtain ⟨passed, hdecided⟩ := handsOver_decide hkeeps hcap state previous measured
  refine ⟨?_, inShape_of_calls kind settings history rng calls, ?_, hbuilt, passed, hdecided⟩
  · obtain ⟨seeded, -, hhanded⟩ := hbuilt
    have hpacks : built.strategy.Packs _ built.fits [] :=
      (accounts_build kind settings history rng).packs hhanded.drawn fun _ hnone => by cases hnone
    rwa [kind_build] at hpacks
  · have hpacks : s.Packs _ (s.decide state previous measured).work.fits
        (s.decide state previous measured).work.queries :=
      htally.account.packs (fun set hset => hdecided.supplies set hset)
        fun _ hmatrix => ⟨state, previous, .pbft, asked_decide hkeeps hmatrix .pbft⟩
    rwa [htally.same_kind] at hpacks

end Strategy

end AdaptiveConsensus
