import AdaptiveConsensus.Proofs.Snapshot.Replay
import AdaptiveConsensus.Proofs.TrainingLog.Stamps
import AdaptiveConsensus.Proofs.TrainingLog.Written
import Mathlib.Data.List.Sort

/-!
# Logs among the snapshots

The log of a run is named by a time stamp and a unit. That name is taken for a snapshot of this unit and
of no other, and names with earlier stamps come first. So the logs of a unit are read in the order in
which their runs began, whatever else the directory holds.

- `concerns_fileName`: whom the name of a log concerns.
- `fileName_lt`: the log with the earlier stamp has the smaller name.
- `replay_of_logs`: the logs of a unit among the files that it reads, and the history that they give.
-/

namespace AdaptiveConsensus

open Decimal Text

namespace Text

variable {α : Type} [DecidableEq α] {first : α} {others : List α}

/-- What does not have the first symbol of a mark does not have the mark. -/
theorem splitLast_eq_none {text : List α} (h : first ∉ text) :
    splitLast (first :: others) text = none := by
  induction text with
  | nil => rfl
  | cons c text ih =>
    have hc : (first :: others).isPrefixOf (c :: text) = false := by
      have hne : first ≠ c := fun heq => h (heq ▸ List.mem_cons_self)
      rw [List.isPrefixOf_cons_cons, beq_eq_false_iff_ne.mpr hne, Bool.false_and]
    rw [splitLast, ih fun hmem => h (List.mem_cons_of_mem c hmem)]
    dsimp only
    rw [hc]
    rfl

/-- A text is split at a mark if nothing behind it begins like the mark. -/
theorem splitLast_append {before after : List α} (h : first ∉ others ++ after) :
    splitLast (first :: others) (before ++ (first :: others ++ after)) = some (before, after) := by
  induction before with
  | nil =>
    have hprefix : (first :: others).isPrefixOf (first :: (others ++ after)) = true :=
      List.isPrefixOf_iff_prefix.mpr ⟨after, rfl⟩
    rw [List.nil_append, List.cons_append, splitLast, splitLast_eq_none h]
    dsimp only
    rw [if_pos hprefix, List.length_cons, List.drop_succ_cons, List.drop_left]
  | cons c before ih =>
    rw [List.cons_append, splitLast, ih]

end Text

namespace Decimal

/-- Digits are read as their value. -/
theorem readNat_of_digits {largest : Nat} {digits : List Char} (hne : digits ≠ [])
    (hdigits : ∀ c ∈ digits, c.isDigit = true) (hbound : digitsValue digits ≤ largest) :
    readNat largest digits = some (digitsValue digits) := by
  have hempty : digits.isEmpty = false := List.isEmpty_eq_false_iff.mpr hne
  have hall : digits.all Char.isDigit = true := List.all_eq_true.mpr hdigits
  rw [readNat]
  · rw [hempty, hall]
    exact if_pos hbound
  · -- no plus sign is a digit
    rintro rest rfl
    cases hdigits '+' List.mem_cons_self

/-- A 32-bit word is read back from its digits. -/
theorem readWord32_natText (u : UInt32) : readWord32 (natText u.toNat) = some u := by
  have hvalue : digitsValue (natText u.toNat) = u.toNat := digitsValue_toDigits u.toNat
  have hbound : digitsValue (natText u.toNat) ≤ twoTo 32 - 1 := by
    rw [hvalue]
    exact Nat.le_pred_of_lt u.toNat_lt
  have hread : readNat (twoTo 32 - 1) (natText u.toNat) = some (digitsValue (natText u.toNat)) :=
    readNat_of_digits Nat.toDigits_ne_nil (fun c => isDigit_of_mem_toDigits) hbound
  rw [readWord32, hread, hvalue, Option.map_some, UInt32.ofNat_toNat]

end Decimal

namespace FileName

/-- The bytes of the characters of a text. -/
theorem bytes_ofText (text : List Char) :
    (ofText (String.ofList text)).bytes = text.flatMap String.utf8EncodeChar :=
  List.toList_data_toByteArray

/-- An ASCII character has one byte. -/
theorem utf8EncodeChar_of_lt {c : Char} (h : c.toNat < 128) :
    String.utf8EncodeChar c = [UInt8.ofNat c.toNat] := by
  rw [String.utf8EncodeChar]
  exact if_pos (Nat.le_of_lt_succ h)

/-- Texts of ASCII characters are ordered as their bytes. -/
theorem lt_of_text_lt {a b : List Char} (ha : ∀ c ∈ a, c.toNat < 128) (hb : ∀ c ∈ b, c.toNat < 128)
    (h : a < b) : ofText (String.ofList a) < ofText (String.ofList b) := by
  change (ofText (String.ofList a)).bytes < (ofText (String.ofList b)).bytes
  rw [bytes_ofText, bytes_ofText]
  induction a generalizing b with
  | nil =>
    cases b with
    | nil => exact absurd h (List.not_lt_nil _)
    | cons d b =>
      rw [List.flatMap_cons, utf8EncodeChar_of_lt (hb d List.mem_cons_self)]
      exact List.nil_lt_cons _ _
  | cons c a ih =>
    cases b with
    | nil => exact absurd h (List.not_lt_nil _)
    | cons d b =>
      obtain ⟨hc, htail⟩ := List.forall_mem_cons.mp ha
      obtain ⟨hd, htail'⟩ := List.forall_mem_cons.mp hb
      rw [List.flatMap_cons, List.flatMap_cons, utf8EncodeChar_of_lt hc, utf8EncodeChar_of_lt hd,
        List.singleton_append, List.singleton_append, List.cons_lt_cons_iff]
      rcases List.cons_lt_cons_iff.mp h with hlt | ⟨rfl, hrest⟩
      · have hbytes : UInt8.ofNat c.toNat < UInt8.ofNat d.toNat := by
          rw [UInt8.lt_iff_toNat_lt, UInt8.toNat_ofNat_of_lt' (Nat.lt_trans hc (by decide)),
            UInt8.toNat_ofNat_of_lt' (Nat.lt_trans hd (by decide))]
          exact hlt
        exact .inl hbytes
      · exact .inr ⟨rfl, ih htail htail' hrest⟩

end FileName

namespace TrainingLog

/-! ## The name of a log -/

variable {stamp stamp' : Timestamp} {unit unit' : UInt32}

/-- The stem of the name. -/
def stem (stamp : Timestamp) (unit : UInt32) : List Char :=
  stamp.text ++ ([' ', 'u'] ++ natText unit.toNat)

theorem fileName_eq (stamp : Timestamp) (unit : UInt32) :
    fileName stamp unit = String.ofList (stem stamp unit ++ ".csv".toList) := by
  rw [fileName, stem]
  simp

/-- The name of a log has the extension of a snapshot. -/
theorem splitExtension_fileName (stamp : Timestamp) (unit : UInt32) :
    Snapshot.splitExtension (fileName stamp unit) =
      (.ofText (String.ofList (stem stamp unit)), some (.ofText "csv")) := by
  have hbytes : (FileName.ofText (fileName stamp unit)).bytes =
      (FileName.ofText (String.ofList (stem stamp unit))).bytes ++
        ([Snapshot.point] ++ (FileName.ofText "csv").bytes) := by
    rw [fileName_eq, FileName.bytes_ofText, FileName.bytes_ofText, List.flatMap_append]
    rfl
  have hstem : (FileName.ofText (String.ofList (stem stamp unit))).bytes ≠ [] := by
    rw [FileName.bytes_ofText, Ne, List.flatMap_eq_nil_iff]
    intro hempty
    cases hempty ' ' (List.mem_append_right _ List.mem_cons_self)
  rw [Snapshot.splitExtension, hbytes, splitLast_append (by decide)]
  cases hcase : (FileName.ofText (String.ofList (stem stamp unit))).bytes with
  | nil => exact absurd hcase hstem
  | cons b rest =>
    dsimp only
    rw [← hcase]

/-- It carries the number of its unit. -/
theorem unitSuffix_fileName (stamp : Timestamp) (unit : UInt32) :
    Snapshot.unitSuffix (fileName stamp unit) = some unit := by
  have hblank : ' ' ∉ ['u'] ++ natText unit.toNat := by
    intro hmem
    rcases List.mem_cons.mp hmem with hu | hdigit
    · cases hu
    · cases isDigit_of_mem_toDigits hdigit
  have hsplit : splitLast [' ', 'u'] (stem stamp unit) = some (stamp.text, natText unit.toNat) :=
    splitLast_append hblank
  rw [Snapshot.unitSuffix, splitExtension_fileName, FileName.text?_ofText]
  dsimp only
  rw [String.toList_ofList, hsplit]
  exact readWord32_natText unit

/-- So it is the name of a snapshot for its own unit only. -/
theorem concerns_fileName (stamp : Timestamp) (unit unit' : UInt32) :
    Snapshot.concerns unit' (fileName stamp unit) = true ↔ unit = unit' := by
  rw [Snapshot.concerns_iff, splitExtension_fileName, unitSuffix_fileName]
  constructor
  · rintro ⟨-, hunit⟩
    exact hunit unit rfl
  · rintro rfl
    refine ⟨rfl, fun u hu => ?_⟩
    exact (Option.some.inj hu).symm

/-! ## The order of logs -/

theorem toNat_lt_of_isDigit {c : Char} (hc : c.isDigit = true) : c.toNat < 128 :=
  Nat.lt_of_le_of_lt (Char.isDigit_iff_toNat.mp hc).2 (by decide)

/-- The name of a log is written in ASCII. -/
theorem toNat_lt_of_mem_fileName : ∀ c ∈ (fileName stamp unit).toList, c.toNat < 128 := by
  have hpadded : ∀ width n, ∀ c ∈ Timestamp.padded width n, c.toNat < 128 :=
    fun width n c hc => toNat_lt_of_isDigit (Timestamp.isDigit_of_mem_padded hc)
  have hunit : ∀ c ∈ natText unit.toNat, c.toNat < 128 :=
    fun c hc => toNat_lt_of_isDigit (isDigit_of_mem_toDigits hc)
  have hstamp : ∀ c ∈ stamp.text, c.toNat < 128 := by
    have hblank : ' '.toNat < 128 := by decide
    have hdash : '-'.toNat < 128 := by decide
    have hcolon : ':'.toNat < 128 := by decide
    simp only [Timestamp.text, List.forall_mem_append, List.forall_mem_cons]
    exact ⟨⟨⟨⟨⟨hpadded _ _, hdash, hpadded _ _⟩, hdash, hpadded _ _⟩, hblank, hpadded _ _⟩,
      hcolon, hpadded _ _⟩, hcolon, hpadded _ _⟩
  have hmark : ∀ c ∈ [' ', 'u'], c.toNat < 128 := by simp
  have hextension : ∀ c ∈ ['.', 'c', 's', 'v'], c.toNat < 128 := by simp
  rw [fileName, String.toList_ofList]
  simp only [List.forall_mem_append]
  exact ⟨⟨⟨hstamp, hmark⟩, hunit⟩, hextension⟩

/-- The log with the earlier stamp has the smaller name. -/
theorem fileName_lt (hstamp : stamp.Written) (hstamp' : stamp'.Written) (h : stamp < stamp') :
    FileName.ofText (fileName stamp unit) < FileName.ofText (fileName stamp' unit') := by
  have hlength : stamp.text.length = stamp'.text.length := by
    rw [Timestamp.length_text hstamp, Timestamp.length_text hstamp']
  have hnames : (fileName stamp unit).toList < (fileName stamp' unit').toList := by
    simp only [fileName, String.toList_ofList, List.append_assoc]
    exact append_lt_append (Timestamp.text_lt hstamp hstamp' h) hlength _ _
  have hbytes := FileName.lt_of_text_lt toNat_lt_of_mem_fileName toNat_lt_of_mem_fileName hnames
  rwa [String.ofList_toList, String.ofList_toList] at hbytes

/-! ## The text of a log -/

/-- A log that could be made begins with the header on its device and knows the name of its file. -/
theorem exists_onDevice_of_create {directory : String} {makeDirectory : Except SystemError Unit}
    {makeFile : Except SystemError Device} {log : TrainingLog}
    (h : create directory stamp unit makeDirectory makeFile = .ok log) :
    ∃ device begun, makeFile = .ok device ∧ onDevice device = .ok begun ∧
      log = { begun with name := some (fileName stamp unit) } := by
  cases makeDirectory with
  | error cause => cases h
  | ok _ =>
    cases makeFile with
    | error cause => cases h
    | ok device =>
      rw [create] at h
      cases hbegun : onDevice device with
      | error cause =>
        rw [hbegun] at h
        cases h
      | ok begun =>
        rw [hbegun] at h
        cases h
        exact ⟨device, begun, rfl, hbegun, rfl⟩

/-- A log takes rows one after the other. -/
inductive Takes : TrainingLog → List TrainingRow → TrainingLog → Prop where
  | nil (log : TrainingLog) : Takes log [] log
  | cons {log next last : TrainingLog} {row : TrainingRow} {rows : List TrainingRow}
    (hrow : log.writeRow row = (next, .ok ())) (hrows : Takes next rows last) :
    Takes log (row :: rows) last

/-- The rows that a log takes are its last lines. -/
theorem Takes.text_eq {log last : TrainingLog} {rows : List TrainingRow} (h : Takes log rows last) :
    last.text = log.text ++ rows.flatMap fun row => row.toLine ++ ['\n'] := by
  induction h with
  | nil log => rw [List.flatMap_nil, List.append_nil]
  | cons hrow _ ih => rw [ih, text_writeRow hrow, List.flatMap_cons, List.append_assoc]

end TrainingLog

namespace Snapshot

variable {unit : UInt32} {entries ordered files : List Entry}

/-- Whether a file of the directory is read depends on its name alone. -/
theorem mem_filesFor {e : Entry} :
    e ∈ filesFor unit entries ↔ e ∈ entries ∧ concerns unit e.name = true := by
  rw [filesFor, List.mem_mergeSort, List.mem_filter]

/-- Files of the directory that are in the order of their names are read in this order. -/
theorem Replays.sublist (h : Replays unit entries ordered) (hmem : ∀ f ∈ files, f ∈ ordered)
    (hsorted : files.Pairwise fun a b => a.name < b.name) : files.Sublist ordered := by
  have hantisymm : Std.Antisymm fun a b : Entry => a.name < b.name :=
    ⟨fun a b hab hba => absurd hba (FileName.lt_asymm hab)⟩
  have hnodup : files.Nodup := hsorted.imp fun {a b} hlt heq => by
    subst b
    exact FileName.lt_asymm hlt hlt
  exact List.sublist_of_subperm_of_pairwise (hnodup.subperm hmem) hsorted h.ascending

end Snapshot

/-! ## The history of logs -/

/-- The log of a run: its stamp, its unit, and the decisions that it tells with their costs. -/
structure RunLog where
  stamp : Timestamp
  unit : UInt32
  decisions : List (HistoryRow × Cost)

namespace RunLog

/-- The history of the run. -/
def rows (log : RunLog) : List HistoryRow :=
  log.decisions.map Prod.fst

/-- The text that the run leaves behind. -/
def text (log : RunLog) : List Char :=
  TrainingRow.header ++ ['\n'] ++ log.decisions.flatMap fun d => (d.1.logged d.2).toLine ++ ['\n']

/-- The file that the log is kept in. -/
def entry (log : RunLog) : Entry where
  name := .ofText (TrainingLog.fileName log.stamp log.unit)
  content := .file (String.ofList log.text).toUTF8

/-- A log that is made, takes the decisions of the run and is flushed leaves this text behind. -/
theorem content_eq (log : RunLog) {directory : String} {makeDirectory : Except SystemError Unit}
    {device : Device} {begun last flushed : TrainingLog} (hempty : device.content = "")
    (hcreate : TrainingLog.create directory log.stamp log.unit makeDirectory (.ok device) = .ok begun)
    (htakes : begun.Takes (log.decisions.map fun d => d.1.logged d.2) last)
    (hflush : last.flush = (flushed, .ok ())) : flushed.content.toList = log.text := by
  obtain ⟨device', new, hdevice, hnew, rfl⟩ := TrainingLog.exists_onDevice_of_create hcreate
  cases hdevice
  have hbegun : new.text = TrainingRow.header ++ ['\n'] := TrainingLog.text_onDevice hempty hnew
  have hheader : TrainingLog.text { new with name := some (TrainingLog.fileName log.stamp log.unit) } =
      TrainingRow.header ++ ['\n'] := hbegun
  rw [(TrainingLog.content_flush hflush).1, htakes.text_eq, hheader, List.flatMap_map, text]

/-- The logs of one unit. -/
def ofUnit (unit : UInt32) (logs : List RunLog) : List RunLog :=
  logs.filter fun log => log.unit == unit

theorem name_entry (log : RunLog) :
    log.entry.name = .ofText (TrainingLog.fileName log.stamp log.unit) := rfl

/-- The file holds the history of the run. -/
theorem history_entry (log : RunLog) : log.entry.history = log.rows := by
  have haccepted : log.entry.Accepted log.unit log.rows := by
    refine ⟨(TrainingLog.concerns_fileName _ _ _).mpr rfl, _, Content.readText_toUTF8 _, ?_⟩
    rw [String.toList_ofList]
    exact Snapshot.parse_log Prod.fst Prod.snd log.decisions
  exact haccepted.history_eq

end RunLog

namespace Directory

variable {path : String} {unit : UInt32} {logs : List RunLog} {others entries : List Entry}

theorem loadedRows_append_of_rejected (hnames : ((others ++ entries).map Entry.name).Nodup)
    (h : ∀ o ∈ others, o.Rejected unit) :
    loadedRows path unit (others ++ entries) = loadedRows path unit entries := by
  induction others with
  | nil => rfl
  | cons o others ih =>
    obtain ⟨ho, hothers⟩ := List.forall_mem_cons.mp h
    rw [List.cons_append] at hnames ⊢
    rw [loadedRows_cons_of_rejected hnames ho]
    exact ih (List.nodup_cons.mp hnames).2 hothers

/-- The logs of one unit, in the order of their stamps, are what this unit reads of logs. -/
theorem replays_logs (hwritten : ∀ log ∈ logs, log.stamp.Written)
    (hordered : logs.Pairwise fun a b => ¬ b.stamp < a.stamp)
    (hnames : ((logs.map RunLog.entry).map Entry.name).Nodup) :
    Snapshot.Replays unit (logs.map RunLog.entry)
      ((RunLog.ofUnit unit logs).map RunLog.entry) := by
  constructor
  · have hconcerns : ∀ log ∈ logs, ((fun e => Snapshot.concerns unit e.name) ∘ RunLog.entry) log =
        (log.unit == unit) := by
      intro log _
      rw [Function.comp_apply, Bool.eq_iff_iff, beq_iff_eq, RunLog.name_entry,
        TrainingLog.concerns_fileName]
    rw [List.filter_map, List.filter_congr hconcerns, RunLog.ofUnit]
  · rw [List.map_map] at hnames
    rw [RunLog.ofUnit]
    have hpairs := (hordered.and (List.pairwise_map.mp hnames)).filter fun log => log.unit == unit
    rw [List.pairwise_map]
    refine hpairs.imp_of_mem fun {a b} ha hb h => ?_
    obtain ⟨hmemA, hunitA⟩ := List.mem_filter.mp ha
    obtain ⟨hmemB, hunitB⟩ := List.mem_filter.mp hb
    obtain ⟨hnotlater, hname⟩ := h
    have hstamp : a.stamp ≠ b.stamp := by
      intro hstamp
      apply hname
      rw [Function.comp_apply, Function.comp_apply, RunLog.name_entry, RunLog.name_entry, hstamp,
        beq_iff_eq.mp hunitA, beq_iff_eq.mp hunitB]
    rcases Timestamp.lt_or_lt hstamp with hlt | hgt
    · rw [RunLog.name_entry, RunLog.name_entry]
      exact TrainingLog.fileName_lt (hwritten a hmemA) (hwritten b hmemB) hlt
    · exact absurd hgt hnotlater

/-- Whatever else a directory holds, the logs of one unit are read in the order of their stamps. -/
theorem sublist_filesFor_logs (hwritten : ∀ log ∈ logs, log.stamp.Written)
    (hordered : logs.Pairwise fun a b => ¬ b.stamp < a.stamp)
    (hmem : ∀ log ∈ logs, log.entry ∈ entries) (hnames : (entries.map Entry.name).Nodup)
    (hlogs : ((logs.map RunLog.entry).map Entry.name).Nodup) :
    ((RunLog.ofUnit unit logs).map RunLog.entry).Sublist (Snapshot.filesFor unit entries) := by
  have hreplays : Snapshot.Replays unit (logs.map RunLog.entry)
      ((RunLog.ofUnit unit logs).map RunLog.entry) := replays_logs hwritten hordered hlogs
  apply (Snapshot.replays_filesFor hnames).sublist _ hreplays.ascending
  intro f hf
  obtain ⟨hentry, hconcerns⟩ := List.mem_filter.mp (hreplays.concerned.mem_iff.mp hf)
  obtain ⟨log, hlog, rfl⟩ := List.mem_map.mp hentry
  exact Snapshot.mem_filesFor.mpr ⟨hmem log hlog, hconcerns⟩

/-- A unit loads of logs those of its own runs, in the order in which the runs began. -/
theorem loadedRows_logs (hwritten : ∀ log ∈ logs, log.stamp.Written)
    (hordered : logs.Pairwise fun a b => ¬ b.stamp < a.stamp)
    (hnames : ((logs.map RunLog.entry).map Entry.name).Nodup) :
    loadedRows path unit (logs.map RunLog.entry) = (RunLog.ofUnit unit logs).flatMap RunLog.rows := by
  rw [loadedRows_eq hnames (replays_logs hwritten hordered hnames), List.flatMap_map]
  exact congrArg (List.flatMap · _) (funext RunLog.history_entry)

/-- The logs of a unit among the files that it reads. A log that could be made has a name with its stamp
and its unit, and if it takes the decisions of a run and is flushed, its file is the one of this run.
Whatever else is in a directory, a file of that name is listed for a unit if and only if it is the unit
of the name, and of two such files of one unit the one with the earlier stamp comes first. So the logs
of a unit are read in the order of their stamps, among whatever else is read; and if nothing else is
accepted, the unit loads the rows of its own runs in this order. -/
theorem replay_of_logs :
    (∀ directory stamp unit makeDirectory makeFile begun,
      TrainingLog.create directory stamp unit makeDirectory makeFile = .ok begun →
        begun.name = some (TrainingLog.fileName stamp unit)) ∧
    (∀ (log : RunLog) directory makeDirectory device begun last flushed, device.content = "" →
      TrainingLog.create directory log.stamp log.unit makeDirectory (.ok device) = .ok begun →
      begun.Takes (log.decisions.map fun d => d.1.logged d.2) last →
      last.flush = (flushed, .ok ()) → log.entry.content = .file flushed.content.toUTF8) ∧
    (∀ stamp unit unit' entries, ∀ e ∈ entries,
      e.name = .ofText (TrainingLog.fileName stamp unit) →
        (e ∈ Snapshot.filesFor unit' entries ↔ unit = unit')) ∧
    (∀ unit entries, (entries.map Entry.name).Nodup → ∀ e ∈ entries, ∀ e' ∈ entries,
      ∀ stamp stamp' : Timestamp, stamp.Written → stamp'.Written → stamp ≠ stamp' →
        e.name = .ofText (TrainingLog.fileName stamp unit) →
        e'.name = .ofText (TrainingLog.fileName stamp' unit) →
          (stamp < stamp' ∧ [e, e'].Sublist (Snapshot.filesFor unit entries)) ∨
            (stamp' < stamp ∧ [e', e].Sublist (Snapshot.filesFor unit entries))) ∧
    (∀ path unit (logs : List RunLog) others listing, (∀ log ∈ logs, log.stamp.Written) →
      logs.Pairwise (fun a b => ¬ b.stamp < a.stamp) →
      listing.Perm (others ++ logs.map RunLog.entry) → (listing.map Entry.name).Nodup →
        loadedRows path unit listing = (Snapshot.filesFor unit listing).flatMap Entry.history ∧
        ((RunLog.ofUnit unit logs).map RunLog.entry).Sublist (Snapshot.filesFor unit listing) ∧
        ((∀ o ∈ others, o.Rejected unit) →
          loadedRows path unit listing = (RunLog.ofUnit unit logs).flatMap RunLog.rows)) := by
  have hlisted : ∀ stamp unit unit' entries, ∀ e ∈ entries,
      e.name = .ofText (TrainingLog.fileName stamp unit) →
        (e ∈ Snapshot.filesFor unit' entries ↔ unit = unit') := by
    intro stamp unit unit' entries e he hname
    rw [Snapshot.mem_filesFor, hname, TrainingLog.concerns_fileName]
    exact and_iff_right he
  refine ⟨?_, ?_, hlisted, ?_, ?_⟩
  · intro directory stamp unit makeDirectory makeFile begun hcreate
    obtain ⟨device, new, -, -, rfl⟩ := TrainingLog.exists_onDevice_of_create hcreate
    rfl
  · intro log directory makeDirectory device begun last flushed hempty hcreate htakes hflush
    have htext := log.content_eq hempty hcreate htakes hflush
    change Content.file (String.ofList log.text).toUTF8 = .file flushed.content.toUTF8
    rw [← htext, String.ofList_toList]
  · intro unit entries hnames e he e' he' stamp stamp' hstamp hstamp' hne hname hname'
    have hread := (hlisted stamp unit unit entries e he hname).mpr rfl
    have hread' := (hlisted stamp' unit unit entries e' he' hname').mpr rfl
    have hsublist : ∀ {f f' : Entry}, f ∈ Snapshot.filesFor unit entries →
        f' ∈ Snapshot.filesFor unit entries → f.name < f'.name →
          [f, f'].Sublist (Snapshot.filesFor unit entries) := by
      intro f f' hf hf' hlt
      apply (Snapshot.replays_filesFor hnames).sublist
      · exact List.forall_mem_cons.mpr ⟨hf, List.forall_mem_singleton.mpr hf'⟩
      · exact List.pairwise_pair.mpr hlt
    rcases Timestamp.lt_or_lt hne with hlt | hgt
    · refine .inl ⟨hlt, hsublist hread hread' ?_⟩
      rw [hname, hname']
      exact TrainingLog.fileName_lt hstamp hstamp' hlt
    · refine .inr ⟨hgt, hsublist hread' hread ?_⟩
      rw [hname, hname']
      exact TrainingLog.fileName_lt hstamp' hstamp hgt
  · intro path unit logs others listing hwritten hordered hlisting hnames
    have hjoined := (hlisting.map Entry.name).nodup_iff.mp hnames
    have hlogs : ((logs.map RunLog.entry).map Entry.name).Nodup := by
      rw [List.map_append] at hjoined
      exact hjoined.of_append_right
    refine ⟨loadedRows_eq hnames (Snapshot.replays_filesFor hnames), ?_, fun hrejected => ?_⟩
    · refine sublist_filesFor_logs hwritten hordered (fun log hlog => ?_) hnames hlogs
      exact hlisting.mem_iff.mpr (List.mem_append_right _ (List.mem_map_of_mem hlog))
    · rw [loadedRows_of_perm hjoined hlisting, loadedRows_append_of_rejected hjoined hrejected,
        loadedRows_logs hwritten hordered hlogs]

/-- The log of a run of the third unit. -/
def morningLog : RunLog := ⟨⟨2024, 1, 1, 9, 59, 59⟩, 3, [(oneDecision, ⟨0, 0⟩)]⟩

/-- The log of a run of another unit. -/
def foreignLog : RunLog := ⟨⟨2024, 1, 1, 10, 0, 0⟩, 30, [(oneDecision, ⟨0, 0⟩)]⟩

/-- The log of a later run of the third unit. -/
def noonLog : RunLog := ⟨⟨2024, 1, 1, 12, 0, 0⟩, 3, [({ oneDecision with throughput := 2 }, ⟨0, 0⟩)]⟩

/-- The two runs of the third unit are read in their order, from a directory that lists them in another
one, and the run of the other unit is not read. -/
theorem replay_of_logs_third :
    [morningLog.entry, noonLog.entry].Sublist
      (Snapshot.filesFor 3 [noonLog.entry, foreignLog.entry, morningLog.entry]) ∧
    foreignLog.entry ∉ Snapshot.filesFor 3 [noonLog.entry, foreignLog.entry, morningLog.entry] ∧
    loadedRows "data" 3 [noonLog.entry, foreignLog.entry, morningLog.entry] =
      [oneDecision, { oneDecision with throughput := 2 }] := by
  have hnames : ([noonLog.entry, foreignLog.entry, morningLog.entry].map Entry.name).Nodup := by
    decide +kernel
  obtain ⟨-, -, hlisted, hordered, hloaded⟩ := replay_of_logs
  refine ⟨?_, ?_, ?_⟩
  · rcases hordered 3 _ hnames morningLog.entry (by simp) noonLog.entry (by simp) morningLog.stamp
      noonLog.stamp (by decide) (by decide) (by decide) rfl rfl with ⟨-, hsublist⟩ | ⟨hgt, -⟩
    · exact hsublist
    · exact absurd hgt (by decide)
  · intro hmem
    have hunit := (hlisted foreignLog.stamp 30 3 _ foreignLog.entry (by simp) rfl).mp hmem
    exact absurd hunit (by decide)
  · obtain ⟨-, -, hrows⟩ := hloaded "data" 3 [morningLog, foreignLog, noonLog] [] _ (by decide)
      (by decide) (List.reverse_perm [morningLog.entry, foreignLog.entry, noonLog.entry]) hnames
    exact hrows nofun

end Directory

end AdaptiveConsensus
