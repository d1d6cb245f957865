import AdaptiveConsensus.Proofs.Snapshot.ReadBack
import AdaptiveConsensus.Snapshot.Directory
import Mathlib.Data.List.Perm.Basic

/-!
# The history that a directory holds

The history of a unit is put together from the snapshots that concern it, in the order of the bytes of
their names. As the names in a directory are distinct, there is one such order, however the directory
is listed. A file that is refused leaves no trace in the history, and a file that is read adds its rows
at the place of its name.

- `replays_filesFor`, `Replays.unique`: the order in which snapshots are read.
- `loadSnapshots_rows`: what is loaded, file by file.
- `exists_replays_cons`: where one more file is read.
- `loadSnapshots_history`: the history of a directory under changes of the directory.
-/

namespace AdaptiveConsensus

open Text

namespace FileName

/-- Names are ordered by their bytes. -/
instance : LT FileName := ⟨fun a b => a.bytes < b.bytes⟩

instance (a b : FileName) : Decidable (a < b) := inferInstanceAs (Decidable (a.bytes < b.bytes))

variable {a b c : FileName}

theorem lt_trans (h : a < b) (h' : b < c) : a < c := List.lt_trans h h'

theorem lt_asymm (h : a < b) : ¬ b < a := List.lt_asymm h

/-- Names of which neither comes first are equal. -/
theorem eq_of_not_lt (h : ¬ a < b) (h' : ¬ b < a) : a = b := by
  obtain ⟨a⟩ := a
  obtain ⟨b⟩ := b
  rw [mk.injEq]
  exact List.le_antisymm h' h

theorem lt_or_lt (h : a ≠ b) : a < b ∨ b < a := by
  by_cases hlt : a < b
  · exact .inl hlt
  · by_cases hgt : b < a
    · exact .inr hgt
    · exact absurd (eq_of_not_lt hlt hgt) h

end FileName

/-- A file is read as the text that its bytes stand for. -/
theorem Content.readText_toUTF8 (text : String) : (Content.file text.toUTF8).readText = .ok text := by
  change Content.textOfBytes text.toUTF8 = .ok text
  rw [textOfBytes, fromUTF8?_toUTF8]

/-- The history that an entry holds: that of a snapshot, if it is a file with the text of one. -/
def Entry.history (e : Entry) : List HistoryRow :=
  match e.content.readText with
  | .error _ => []
  | .ok text =>
    match Snapshot.parse text.toList with
    | .error _ => []
    | .ok rows => rows

namespace Directory

/-- The histories of entries are read one after the other. -/
theorem readEntries_rows (d : Directory) (es : List Entry) :
    (d.readEntries es).rows = es.flatMap Entry.history := by
  induction es with
  | nil => rfl
  | cons e rest ih =>
    rw [readEntries, readEntry, List.flatMap_cons, Entry.history, ← ih]
    cases e.content.readText with
    | error cause => rfl
    | ok text =>
      dsimp only
      cases Snapshot.parse text.toList with
      | error cause => rfl
      | ok rows => rfl

end Directory

namespace Snapshot

/-! ## The order in which files are read -/

/-- The snapshots of a directory that concern a unit, in the order of their names. -/
structure Replays (unit : UInt32) (entries ordered : List Entry) : Prop where
  concerned : ordered.Perm (entries.filter fun e => concerns unit e.name)
  ascending : ordered.Pairwise fun a b => a.name < b.name

variable {unit : UInt32} {entries entries' others ordered ordered' : List Entry} {e : Entry}

/-- There is one order. -/
theorem Replays.unique (h : Replays unit entries ordered) (h' : Replays unit entries ordered') :
    ordered = ordered' := by
  apply List.Perm.eq_of_pairwise _ h.ascending h'.ascending (h.concerned.trans h'.concerned.symm)
  intro a b _ _ hab hba
  exact absurd hba (FileName.lt_asymm hab)

/-- It does not depend on how the directory is listed. -/
theorem Replays.of_perm (h : Replays unit entries ordered) (hperm : entries.Perm entries') :
    Replays unit entries' ordered :=
  ⟨h.concerned.trans (hperm.filter _), h.ascending⟩

theorem nameLe_iff {a b : Entry} : nameLe a b = true ↔ ¬ b.name < a.name := by
  rw [nameLe, Bool.not_eq_true', decide_eq_false_iff_not]
  rfl

/-- Files are read in the order of their names. -/
theorem replays_filesFor (hnames : (entries.map Entry.name).Nodup) :
    Replays unit entries (filesFor unit entries) := by
  have hperm := List.mergeSort_perm (entries.filter fun e => concerns unit e.name) nameLe
  have hsorted : (filesFor unit entries).Pairwise fun a b => nameLe a b = true := by
    apply List.pairwise_mergeSort
    · intro a b c hab hbc
      rw [nameLe_iff] at hab hbc ⊢
      exact List.le_trans (α := UInt8) hab hbc
    · intro a b
      rw [Bool.or_eq_true, nameLe_iff, nameLe_iff]
      exact List.le_total (α := UInt8) _ _
  have hdistinct : (filesFor unit entries).Pairwise fun a b => a.name ≠ b.name := by
    have hfiltered : ((entries.filter fun e => concerns unit e.name).map Entry.name).Nodup :=
      (List.filter_sublist.map Entry.name).nodup hnames
    exact List.pairwise_map.mp ((hperm.map Entry.name).nodup_iff.mpr hfiltered)
  refine ⟨hperm, (hsorted.and hdistinct).imp fun {a b} h => ?_⟩
  obtain ⟨hle, hne⟩ := h
  rcases FileName.lt_or_lt hne with hlt | hgt
  · exact hlt
  · exact absurd hgt (nameLe_iff.mp hle)

/-- A file that concerns the unit is read between those with smaller and those with larger names. -/
theorem exists_replays_cons (hnames : ((e :: others).map Entry.name).Nodup)
    (he : concerns unit e.name = true) :
    ∃ smaller larger, Replays unit (others.filter fun o => o.name < e.name) smaller ∧
      Replays unit (others.filter fun o => e.name < o.name) larger ∧
      Replays unit others (smaller ++ larger) ∧
      Replays unit (e :: others) (smaller ++ e :: larger) := by
  obtain ⟨hfresh, hrest⟩ := List.nodup_cons.mp hnames
  have hreplays : ∀ p : Entry → Bool,
      Replays unit (others.filter p) (filesFor unit (others.filter p)) :=
    fun p => replays_filesFor ((List.filter_sublist.map Entry.name).nodup hrest)
  have hsmaller := hreplays fun o => o.name < e.name
  have hlarger := hreplays fun o => e.name < o.name
  refine ⟨_, _, hsmaller, hlarger, ?_⟩
  generalize filesFor unit (others.filter fun o => o.name < e.name) = smaller at hsmaller
  generalize filesFor unit (others.filter fun o => e.name < o.name) = larger at hlarger
  -- the others are those with smaller and those with larger names
  have hsplit : (others.filter (fun o => o.name < e.name) ++
      others.filter fun o => e.name < o.name).Perm others := by
    have hrest : (others.filter fun o => e.name < o.name) =
        others.filter fun o => !decide (o.name < e.name) := by
      apply List.filter_congr
      intro o ho
      have hne : o.name ≠ e.name := fun heq => hfresh (heq ▸ List.mem_map_of_mem ho)
      rcases FileName.lt_or_lt hne with hlt | hgt
      · rw [decide_eq_true hlt, decide_eq_false (FileName.lt_asymm hlt)]
        rfl
      · rw [decide_eq_true hgt, decide_eq_false (FileName.lt_asymm hgt)]
        rfl
    rw [hrest]
    exact List.filter_append_perm _ others
  have hperm : (smaller ++ larger).Perm (others.filter fun o => concerns unit o.name) := by
    refine (hsmaller.concerned.append hlarger.concerned).trans ?_
    rw [← List.filter_append]
    exact hsplit.filter _
  have hbefore : ∀ o ∈ smaller, o.name < e.name := fun o ho =>
    of_decide_eq_true (List.mem_filter.mp (List.mem_filter.mp (hsmaller.concerned.mem_iff.mp ho)).1).2
  have hafter : ∀ o ∈ larger, e.name < o.name := fun o ho =>
    of_decide_eq_true (List.mem_filter.mp (List.mem_filter.mp (hlarger.concerned.mem_iff.mp ho)).1).2
  constructor
  · refine ⟨hperm, List.pairwise_append.mpr ⟨hsmaller.ascending, hlarger.ascending, ?_⟩⟩
    intro a ha b hb
    exact FileName.lt_trans (hbefore a ha) (hafter b hb)
  · constructor
    · rw [List.filter_cons, if_pos he]
      exact List.perm_middle.trans (hperm.cons e)
    · refine List.pairwise_append.mpr
        ⟨hsmaller.ascending, List.pairwise_cons.mpr ⟨hafter, hlarger.ascending⟩, ?_⟩
      intro a ha b hb
      rcases List.mem_cons.mp hb with rfl | hb
      · exact hbefore a ha
      · exact FileName.lt_trans (hbefore a ha) (hafter b hb)

end Snapshot

/-! ## What is loaded -/

namespace Directory

/-- The rows that a unit loads from a directory with the given entries. -/
def loadedRows (path : String) (unit : UInt32) (entries : List Entry) : List HistoryRow :=
  ((⟨path, .ok entries⟩ : Directory).loadSnapshots unit).rows

variable {path : String} {unit : UInt32} {entries others ordered : List Entry} {e : Entry}

/-- What is loaded is what the snapshots of the unit hold, in the order of their names. -/
theorem loadedRows_eq (hnames : (entries.map Entry.name).Nodup)
    (h : Snapshot.Replays unit entries ordered) :
    loadedRows path unit entries = ordered.flatMap Entry.history := by
  rw [h.unique (Snapshot.replays_filesFor hnames)]
  exact readEntries_rows _ _

theorem loadedRows_of_perm (hnames : (entries.map Entry.name).Nodup) (hperm : others.Perm entries) :
    loadedRows path unit others = loadedRows path unit entries := by
  have hreplays : Snapshot.Replays unit entries (Snapshot.filesFor unit entries) :=
    Snapshot.replays_filesFor hnames
  rw [loadedRows_eq hnames hreplays,
    loadedRows_eq ((hperm.map Entry.name).nodup_iff.mpr hnames) (hreplays.of_perm hperm.symm)]

end Directory

/-! ## Accepted and rejected files -/

/-- A unit accepts an entry with some rows: the name belongs to a snapshot that it reads, and the entry
is a file with a text that tells the rows. -/
structure Entry.Accepted (unit : UInt32) (e : Entry) (rows : List HistoryRow) : Prop where
  concerned : Snapshot.concerns unit e.name = true
  told : ∃ text, e.content.readText = .ok text ∧ Snapshot.parse text.toList = .ok rows

/-- A unit rejects an entry: it has another extension or the number of another unit, it cannot be read
as a file, its bytes are no text, or its text is no snapshot. -/
inductive Entry.Rejected (unit : UInt32) (e : Entry) : Prop where
  | extension (h : (Snapshot.splitExtension e.name).2 ≠ some (.ofText "csv"))
  | otherUnit (u : UInt32) (h : Snapshot.unitSuffix e.name = some u) (hne : u ≠ unit)
  | unreadable (cause : SystemError) (h : e.content.bytes = .error cause)
  | notText (bytes : ByteArray) (h : e.content.bytes = .ok bytes)
    (hbytes : String.fromUTF8? bytes = none)
  | malformed (text : String) (cause : SnapshotError) (h : e.content.readText = .ok text)
    (hcause : Snapshot.parse text.toList = .error cause)

namespace Snapshot

/-- A name belongs to a snapshot that a unit reads if its extension is `csv` and it does not carry the
number of another unit. -/
theorem concerns_iff {unit : UInt32} {name : FileName} :
    concerns unit name = true ↔ (splitExtension name).2 = some (.ofText "csv") ∧
      ∀ u, unitSuffix name = some u → u = unit := by
  rw [concerns, Bool.and_eq_true, beq_iff_eq]
  cases unitSuffix name <;> simp

end Snapshot

namespace Entry

variable {unit : UInt32} {e : Entry} {rows : List HistoryRow}

/-- An entry is accepted unless it is rejected. -/
theorem accepted_or_rejected (unit : UInt32) (e : Entry) :
    (∃ rows, e.Accepted unit rows) ∨ e.Rejected unit := by
  by_cases hconcerns : Snapshot.concerns unit e.name = true
  · cases hbytes : e.content.bytes with
    | error cause => exact .inr (.unreadable cause hbytes)
    | ok bytes =>
      cases htext : String.fromUTF8? bytes with
      | none => exact .inr (.notText bytes hbytes htext)
      | some text =>
        have hread : e.content.readText = .ok text := by
          rw [Content.readText, hbytes]
          dsimp only [Except.bind]
          rw [Content.textOfBytes, htext]
        cases hrows : Snapshot.parse text.toList with
        | error cause => exact .inr (.malformed text cause hread hrows)
        | ok rows => exact .inl ⟨rows, hconcerns, text, hread, hrows⟩
  · rw [Snapshot.concerns_iff, not_and_or] at hconcerns
    rcases hconcerns with hextension | hunit
    · exact .inr (.extension hextension)
    · obtain ⟨u, hu⟩ := not_forall.mp hunit
      obtain ⟨hu, hne⟩ := Classical.not_imp.mp hu
      exact .inr (.otherUnit u hu hne)

/-- An accepted entry holds the rows that it is accepted with. -/
theorem Accepted.history_eq (h : e.Accepted unit rows) : e.history = rows := by
  obtain ⟨-, text, htext, hrows⟩ := h
  rw [history, htext]
  dsimp only
  rw [hrows]

/-- A rejected entry is not looked at, or it holds nothing. -/
theorem Rejected.not_concerns_or (h : e.Rejected unit) :
    Snapshot.concerns unit e.name = false ∨ e.history = [] := by
  cases h with
  | extension h =>
    rw [← Bool.not_eq_true, Snapshot.concerns_iff]
    exact .inl fun hconcerns => h hconcerns.1
  | otherUnit u h hne =>
    rw [← Bool.not_eq_true, Snapshot.concerns_iff]
    exact .inl fun hconcerns => hne (hconcerns.2 u h)
  | unreadable cause h =>
    rw [history, Content.readText, h]
    exact .inr rfl
  | notText bytes h hbytes =>
    rw [history, Content.readText, h]
    dsimp only [Except.bind]
    rw [Content.textOfBytes, hbytes]
    exact .inr rfl
  | malformed text cause h hcause =>
    rw [history, h]
    dsimp only
    rw [hcause]
    exact .inr rfl

end Entry

namespace Directory

variable {path : String} {unit : UInt32} {entries others : List Entry} {e : Entry}
  {rows : List HistoryRow}

/-- A rejected entry leaves no trace in what is loaded. -/
theorem loadedRows_cons_of_rejected (hnames : ((e :: others).map Entry.name).Nodup)
    (h : e.Rejected unit) : loadedRows path unit (e :: others) = loadedRows path unit others := by
  obtain ⟨-, hothers⟩ := List.nodup_cons.mp hnames
  cases hconcerns : Snapshot.concerns unit e.name with
  | false =>
    have hreplays : Snapshot.Replays unit (e :: others) (Snapshot.filesFor unit (e :: others)) :=
      Snapshot.replays_filesFor hnames
    have hsame : Snapshot.Replays unit others (Snapshot.filesFor unit (e :: others)) := by
      refine ⟨hreplays.concerned.trans ?_, hreplays.ascending⟩
      rw [List.filter_cons, if_neg (Bool.eq_false_iff.mp hconcerns)]
    rw [loadedRows_eq hnames hreplays, loadedRows_eq hothers hsame]
  | true =>
    have hempty : e.history = [] := by
      rcases h.not_concerns_or with hskipped | hempty
      · rw [hconcerns] at hskipped
        cases hskipped
      · exact hempty
    obtain ⟨smaller, larger, -, -, hwithout, hwith⟩ := Snapshot.exists_replays_cons hnames hconcerns
    rw [loadedRows_eq hnames hwith, loadedRows_eq hothers hwithout, List.flatMap_append,
      List.flatMap_append, List.flatMap_cons, hempty, List.nil_append]

/-- The rows of an accepted entry stand between those of the smaller and those of the larger names. -/
theorem loadedRows_cons_of_accepted (hnames : ((e :: others).map Entry.name).Nodup)
    (h : e.Accepted unit rows) :
    loadedRows path unit others = loadedRows path unit (others.filter fun o => o.name < e.name) ++
        loadedRows path unit (others.filter fun o => e.name < o.name) ∧
      loadedRows path unit (e :: others) =
        loadedRows path unit (others.filter fun o => o.name < e.name) ++ (rows ++
          loadedRows path unit (others.filter fun o => e.name < o.name)) := by
  obtain ⟨-, hothers⟩ := List.nodup_cons.mp hnames
  have hfiltered : ∀ p : Entry → Bool, ((others.filter p).map Entry.name).Nodup :=
    fun p => (List.filter_sublist.map Entry.name).nodup hothers
  obtain ⟨smaller, larger, hsmaller, hlarger, hwithout, hwith⟩ :=
    Snapshot.exists_replays_cons hnames h.concerned
  rw [loadedRows_eq hnames hwith, loadedRows_eq hothers hwithout,
    loadedRows_eq (hfiltered _) hsmaller, loadedRows_eq (hfiltered _) hlarger, List.flatMap_append,
    List.flatMap_append, List.flatMap_cons, h.history_eq]
  exact ⟨rfl, rfl⟩

/-- The history that a unit loads from a directory whose entries have distinct names: the rows of the
snapshots that concern it, in the one order of their names, however the directory is listed. Each entry
is accepted or rejected. One that is rejected may be removed, added, or replaced by another one, without
any effect. One that is accepted adds its rows between those of the smaller and those of the larger
names. -/
theorem loadedRows_history (path : String) (unit : UInt32)
    (hnames : (entries.map Entry.name).Nodup) :
    (∃! ordered, Snapshot.Replays unit entries ordered) ∧
    (∀ ordered, Snapshot.Replays unit entries ordered →
      loadedRows path unit entries = ordered.flatMap Entry.history) ∧
    (∀ listing, listing.Perm entries →
      loadedRows path unit listing = loadedRows path unit entries) ∧
    (∀ e : Entry, (∃ rows, e.Accepted unit rows) ∨ e.Rejected unit) ∧
    (∀ e others, entries.Perm (e :: others) → e.Rejected unit →
      loadedRows path unit others = loadedRows path unit entries ∧
      ∀ e' listing, e'.name ∉ others.map Entry.name → e'.Rejected unit → listing.Perm (e' :: others) →
        loadedRows path unit listing = loadedRows path unit entries) ∧
    (∀ e listing, e.name ∉ entries.map Entry.name → e.Rejected unit → listing.Perm (e :: entries) →
      loadedRows path unit listing = loadedRows path unit entries) ∧
    (∀ e rows listing, e.name ∉ entries.map Entry.name → e.Accepted unit rows →
      listing.Perm (e :: entries) → ∃ smaller larger,
        smaller = loadedRows path unit (entries.filter fun o => o.name < e.name) ∧
        larger = loadedRows path unit (entries.filter fun o => e.name < o.name) ∧
        loadedRows path unit entries = smaller ++ larger ∧
        loadedRows path unit listing = smaller ++ (rows ++ larger)) := by
  have hadded : ∀ {e es}, e.name ∉ es.map Entry.name → (es.map Entry.name).Nodup →
      ((e :: es).map Entry.name).Nodup := fun hfresh hes => List.nodup_cons.mpr ⟨hfresh, hes⟩
  refine ⟨⟨_, Snapshot.replays_filesFor hnames, fun ordered h =>
    h.unique (Snapshot.replays_filesFor hnames)⟩, fun ordered => loadedRows_eq hnames,
    fun listing => loadedRows_of_perm hnames, Entry.accepted_or_rejected unit, ?_, ?_, ?_⟩
  · intro e others hperm he
    have hcons : ((e :: others).map Entry.name).Nodup :=
      (hperm.map Entry.name).nodup_iff.mp hnames
    have hremoved : loadedRows path unit others = loadedRows path unit entries := by
      rw [loadedRows_of_perm hcons hperm, loadedRows_cons_of_rejected hcons he]
    refine ⟨hremoved, fun e' listing hfresh he' hlisting => ?_⟩
    have hreplaced := hadded hfresh (List.nodup_cons.mp hcons).2
    rw [loadedRows_of_perm hreplaced hlisting, loadedRows_cons_of_rejected hreplaced he', hremoved]
  · intro e listing hfresh he hlisting
    rw [loadedRows_of_perm (hadded hfresh hnames) hlisting,
      loadedRows_cons_of_rejected (hadded hfresh hnames) he]
  · intro e rows listing hfresh he hlisting
    obtain ⟨hwithout, hwith⟩ := loadedRows_cons_of_accepted (hadded hfresh hnames) he
    refine ⟨_, _, rfl, rfl, hwithout, ?_⟩
    rw [loadedRows_of_perm (hadded hfresh hnames) hlisting, hwith]

/-- The history of a run that took one decision. -/
def oneDecision : HistoryRow :=
  ⟨⟨0, 0, 0, 0, 0, 0⟩, .pbft, .sbft, 1⟩

/-- Its log. -/
def oneDecisionLog : Entry where
  name := "b.csv"
  content := .file (String.ofList (TrainingRow.header ++ ['\n'] ++
    [oneDecision].flatMap fun row => (row.logged ⟨0, 0⟩).toLine ++ ['\n'])).toUTF8

/-- The log is loaded from a directory that holds, beside it, only a directory with the name of a
snapshot. -/
theorem loadedRows_history_oneDecision :
    loadedRows "data" 3 [⟨"a.csv", .directory⟩, oneDecisionLog] = [oneDecision] := by
  have hrejected : Entry.Rejected 3 ⟨"a.csv", .directory⟩ := .unreadable .isDirectory rfl
  have haccepted : oneDecisionLog.Accepted 3 [oneDecision] := by
    refine ⟨by decide +kernel, _, Content.readText_toUTF8 _, ?_⟩
    rw [String.toList_ofList]
    exact Snapshot.parse_log id (fun _ => ⟨0, 0⟩) [oneDecision]
  have hnames : ([⟨"a.csv", .directory⟩].map Entry.name).Nodup := List.nodup_singleton _
  obtain ⟨-, -, -, -, hremoved, -, hadded⟩ := loadedRows_history "data" 3 hnames
  have hempty := (hremoved _ [] (.refl _) hrejected).1
  obtain ⟨smaller, larger, -, -, hwithout, hwith⟩ := hadded oneDecisionLog [oneDecision]
    [⟨"a.csv", .directory⟩, oneDecisionLog] (by decide +kernel) haccepted (.swap _ _ _)
  have hnone : loadedRows "data" 3 [] = [] :=
    loadedRows_eq (show ([].map Entry.name).Nodup from List.nodup_nil) ⟨.nil, .nil⟩
  rw [← hempty, hnone] at hwithout
  obtain ⟨rfl, rfl⟩ := List.append_eq_nil_iff.mp hwithout.symm
  exact hwith

end Directory

end AdaptiveConsensus
