import AdaptiveConsensus.Proofs.Text.Lines
import AdaptiveConsensus.TrainingLog.Basic

/-!
# What a log holds

A buffered device holds the text that has reached it, followed by the text in its buffer. Whenever
the buffer is written out, this text stays the same: pieces reach the device in the order in which
they were put, each once.

- `BufferedDevice.text_putLine`: a line that was taken is at the end of the text.
- `TrainingLog.text_onDevice`, `TrainingLog.text_writeRow`: a log is its header and its rows, a line
  each.
- `TrainingLog.content_flush`: after a flush all of it is on the device.
- `TrainingLog.writeRow_of_full`: with a full buffer and a device that refuses a write no row is taken.
-/

namespace AdaptiveConsensus

namespace BufferedDevice

/-- The text of a device and its buffer. -/
def text (b : BufferedDevice) : List Char :=
  b.device.content.toList ++ b.buffer.toList

theorem eq_empty_of_isEmpty {s : String} (h : s.isEmpty = true) : s = "" := by
  rw [String.isEmpty, beq_iff_eq] at h
  exact String.utf8ByteSize_eq_zero_iff.mp h

/-- A piece that the device takes is at its end. -/
theorem content_write {d d' : Device} {piece : String} (h : d.write piece = (d', none)) :
    d'.content = d.content ++ piece := by
  rw [Device.write] at h
  cases hrefuse : d.refuses d.writes with
  | some reason => rw [hrefuse] at h; cases h
  | none => rw [hrefuse] at h; cases h; rfl

/-- Writing out moves the buffer to the device. -/
theorem flush_spec {b b' : BufferedDevice} (h : b.flush = (b', none)) :
    b'.buffer = "" ∧ b'.device.content.toList = b.text := by
  rw [flush] at h
  by_cases hempty : b.buffer.isEmpty
  · rw [if_pos hempty] at h
    cases h
    have := eq_empty_of_isEmpty hempty
    refine ⟨this, ?_⟩
    rw [text, this, String.toList_empty, List.append_nil]
  · rw [if_neg hempty] at h
    rcases hwrite : b.device.write b.buffer with ⟨device, - | reason⟩ <;> rw [hwrite] at h
    · cases h
      refine ⟨rfl, ?_⟩
      rw [content_write hwrite, String.toList_append]
      rfl
    · cases h

/-- Room is made without loss; afterwards the buffer is empty or the piece fits. -/
theorem makeRoom_spec {b b' : BufferedDevice} {piece : String} (h : b.makeRoom piece = (b', none)) :
    b'.text = b.text ∧
      (b'.buffer = "" ∨ b'.buffer.utf8ByteSize + piece.utf8ByteSize ≤ capacity) := by
  rw [makeRoom] at h
  by_cases hfull : capacity < b.buffer.utf8ByteSize + piece.utf8ByteSize
  · rw [if_pos hfull] at h
    obtain ⟨hbuffer, hcontent⟩ := flush_spec h
    refine ⟨?_, .inl hbuffer⟩
    rw [text, hbuffer, String.toList_empty, List.append_nil, hcontent]
  · rw [if_neg hfull] at h
    cases h
    exact ⟨rfl, .inr (Nat.le_of_not_lt hfull)⟩

/-- A piece that was taken is at the end of the text. -/
theorem text_put {b b' : BufferedDevice} {piece : String} (h : b.put piece = (b', none)) :
    b'.text = b.text ++ piece.toList := by
  rw [put] at h
  rcases hroom : b.makeRoom piece with ⟨r, - | reason⟩ <;> rw [hroom] at h
  · obtain ⟨htext, hfits⟩ := makeRoom_spec hroom
    dsimp only at h
    by_cases hlarge : capacity ≤ piece.utf8ByteSize
    · rw [if_pos hlarge] at h
      -- a piece that goes straight through finds the buffer empty
      have hbuffer : r.buffer = "" := by
        refine hfits.elim id fun hle => ?_
        rw [← String.utf8ByteSize_eq_zero_iff]
        omega
      rcases hwrite : r.device.write piece with ⟨device, - | reason⟩ <;> rw [hwrite] at h
      · cases h
        rw [← htext, text, text, content_write hwrite, hbuffer, String.toList_append,
          String.toList_empty, List.append_nil, List.append_nil]
      · cases h
    · rw [if_neg hlarge] at h
      cases h
      rw [← htext, text, text, String.toList_append, List.append_assoc]
  · cases h

/-- A line that was taken is at the end of the text, with its line feed. -/
theorem text_putLine {b b' : BufferedDevice} {line : String} (h : b.putLine line = (b', none)) :
    b'.text = b.text ++ (line.toList ++ ['\n']) := by
  rw [putLine] at h
  rcases hput : b.put line with ⟨r, - | reason⟩ <;> rw [hput] at h
  · rw [text_put h, text_put hput, List.append_assoc]
    rfl
  · cases h

end BufferedDevice

namespace TrainingLog

/-- The text of a log. -/
def text (log : TrainingLog) : List Char :=
  log.out.text

/-- A new log on an empty device is its header. -/
theorem text_onDevice {device : Device} {log : TrainingLog} (hempty : device.content = "")
    (h : onDevice device = .ok log) : log.text = TrainingRow.header ++ ['\n'] := by
  unfold onDevice at h
  generalize TrainingRow.header = line at h ⊢
  rcases hput : (BufferedDevice.ofDevice device).putLine (String.ofList line) with
    ⟨out, - | reason⟩ <;> rw [hput] at h
  · cases h
    have hbegin : (BufferedDevice.ofDevice device).text = [] := by
      rw [BufferedDevice.text, BufferedDevice.ofDevice, hempty]
      rfl
    rw [text, BufferedDevice.text_putLine hput, hbegin, String.toList_ofList, List.nil_append]
  · cases h

/-- A row that was written is the last line. -/
theorem text_writeRow {log log' : TrainingLog} {row : TrainingRow}
    (h : log.writeRow row = (log', .ok ())) : log'.text = log.text ++ (row.toLine ++ ['\n']) := by
  rw [writeRow] at h
  rcases hput : log.out.putLine (String.ofList row.toLine) with ⟨out, - | reason⟩ <;> rw [hput] at h
  · cases h
    rw [text, BufferedDevice.text_putLine hput, String.toList_ofList]
    rfl
  · cases h

theorem flush_of_isOk {log : TrainingLog} (h : log.flush.2.isOk = true) :
    log.flush = (log.flush.1, .ok ()) := by
  rcases hflush : log.flush with ⟨log', e | ⟨⟩⟩
  · rw [hflush] at h
    cases h
  · rfl

/-- A flush changes no text and leaves all of it on the device. -/
theorem content_flush {log log' : TrainingLog} (h : log.flush = (log', .ok ())) :
    log'.content.toList = log.text ∧ log'.text = log.text := by
  rw [flush] at h
  rcases hflush : log.out.flush with ⟨out, - | reason⟩ <;> rw [hflush] at h
  · cases h
    obtain ⟨hbuffer, hcontent⟩ := BufferedDevice.flush_spec hflush
    refine ⟨hcontent, ?_⟩
    rw [text, BufferedDevice.text, hbuffer, String.toList_empty, List.append_nil]
    exact hcontent
  · cases h

end TrainingLog

/-! ## Refused rows -/

/-- A full buffer has to be written out before it takes anything, which the device may refuse. -/
theorem BufferedDevice.put_of_full {b : BufferedDevice} {reason piece : String}
    (hfull : capacity ≤ b.buffer.utf8ByteSize)
    (hrefused : b.device.refuses b.device.writes = some reason) (hpiece : piece ≠ "") :
    (b.put piece).2 = some reason := by
  have hsize : piece.utf8ByteSize ≠ 0 := by
    rwa [Ne, String.utf8ByteSize_eq_zero_iff]
  have hroom : capacity < b.buffer.utf8ByteSize + piece.utf8ByteSize := by omega
  have hbuffer : ¬ b.buffer.isEmpty = true := by
    intro hempty
    rw [eq_empty_of_isEmpty hempty] at hfull
    exact absurd hfull (by decide)
  rw [put, makeRoom, if_pos hroom, flush, if_neg hbuffer, Device.write, hrefused]

theorem TrainingRow.toLine_ne_nil (row : TrainingRow) : row.toLine ≠ [] := by
  obtain ⟨c, hc⟩ : ∃ c, c ∈ row.previous.name.toList := by
    cases row.previous <;> exact ⟨_, List.mem_cons_self⟩
  have hcell : row.previous.name.toList ∈ row.toCells := List.mem_append_right _ List.mem_cons_self
  exact List.ne_nil_of_mem (Text.mem_intercalate_of_mem hcell hc)

theorem TrainingLog.writeRow_of_full {log : TrainingLog} {reason : String}
    (hfull : BufferedDevice.capacity ≤ log.out.buffer.utf8ByteSize)
    (hrefused : log.out.device.refuses log.out.device.writes = some reason) (row : TrainingRow) :
    (log.writeRow row).2 = .error (.row reason) := by
  have hline : String.ofList row.toLine ≠ "" := by
    intro hempty
    rw [← String.toList_inj, String.toList_ofList] at hempty
    exact row.toLine_ne_nil hempty
  have hput := BufferedDevice.put_of_full hfull hrefused hline
  rw [writeRow, BufferedDevice.putLine]
  rcases hout : log.out.put (String.ofList row.toLine) with ⟨out, - | reason'⟩
  · rw [hout] at hput
    cases hput
  · rw [hout] at hput
    cases hput
    rfl

end AdaptiveConsensus
