/-
  **ON TAPE BEFORE REPORTED** (`TapeWriteSingleThread.cpp`, `TapeWriteTask.cpp`,
  `MigrationReportPacker.cpp`).

      write thread:  … close ─ ReportSuccessful … flush ─ ReportFlush …
                                     │                        │
      packer:                 remember the job       hand over all remembered jobs
                                                     unless an error was reported

  The drive keeps a log of what returned without an error; a task is known by its
  number.
-/
import TapeArchive.Tapeserver.MigrationPipeline

namespace TapeArchive.Tapeserver.WriteSession

open Lib List

/-! ## The reports and the drive -/

/-- `MigrationReportPacker::Report` and its classes. -/
inductive Report where
  | successful (task : Nat)
  | skipped (task : Nat)
  | error (task : Nat)
  /-- `ReportFlush`, with the number of the flush it reports. -/
  | flush (number : Nat)
  | tapeFull
  | driveStatus
  | endOfSession
  | endOfSessionWithErrors
  | testGoingToEnd

/-- The classes that other threads push too. -/
def Report.fromAnyThread : Report → Bool
  | .tapeFull | .driveStatus | .endOfSession | .endOfSessionWithErrors | .testGoingToEnd => true
  | _ => false

inductive DriveLog where
  /-- `WriteFile::close` of the file of a task returned. -/
  | closed (task : Nat)
  | flushStarted (number : Nat)
  | flushReturned (number : Nat)

def ENOSPC : Int := 28

/-- The end of the tape, which is not an error. -/
def isTapeFull : TaskExn → Bool
  | .exception _ (some errno) => errno == ENOSPC
  | _ => false

/-! ## The write thread -/

/-- The control states of `TapeWriteSingleThread::run` and of the task it executes. -/
inductive Writer where
  | popping
  /-- Somewhere before the close of the file. -/
  | executing (task : Nat) (fileSize : UInt64)
  | closing (task : Nat) (fileSize : UInt64)
  /-- The file is closed, `reportCompletedJob` comes next. -/
  | closed (task : Nat) (fileSize : UInt64)
  /-- `reportSkippedJob` comes next. -/
  | skipping (task : Nat) (fileSize : UInt64)
  /-- `reportFailedJob` comes next; the exception, if any, is thrown again after it. -/
  | failing (task : Nat) (fileSize : UInt64) (rethrown : Option TaskExn)
  /-- `reportTapeFull` comes next, and the exception is thrown again. -/
  | taskTapeFull (e : TaskExn)
  | counting (fileSize : UInt64)
  /-- In `m_drive.flush()`; the last flush comes after the last task. -/
  | flushing (number : Nat) (last : Bool)
  /-- The flush returned, `reportFlush` comes next. -/
  | flushed (number : Nat) (last : Bool)
  /-- In `m_drive.clearCompressionStats()`. -/
  | clearing (last : Bool)
  /-- In the `catch` clause of `run`. -/
  | caught (e : TaskExn)
  | draining
  | finishing
  | ended

structure Thresholds where
  (filesBeforeFlush bytesBeforeFlush : UInt64)

/-- What the queue of tasks, the execution of a task and the drive answer to the thread. -/
inductive Answer where
  | task (fileSize : UInt64)
  | noMoreTasks
  /-- All the blocks of the file are written. -/
  | written
  /-- The placeholder is written and closed. -/
  | skip
  /-- `RecoverableMigrationErrorException`. -/
  | recoverable
  /-- `validateNextFSeq` threw. -/
  | refused (e : TaskExn)
  | ok
  | threw (e : TaskExn)

/-- The answer of the report packer's environment to the execution of a report. -/
inductive PackerAnswer where
  | returned
  /-- An exception left `execute`; so many successful jobs are still in the queue. -/
  | threw (left : Nat)
  deriving DecidableEq

/-! ## The world -/

/-- A job handed over, and the position of the flush report that did it. -/
structure HandOver where
  (task report : Nat)
  deriving DecidableEq

/-- The write thread, the drive, the FIFO and the report packer. -/
structure World where
  writer : Writer
  /-- Tasks popped so far. -/
  tasks : Nat
  (files bytes : UInt64)
  /-- Flushes started so far. -/
  flushes : Nat
  log : List DriveLog
  fifo : List Report
  /-- The worker thread of the packer is in its loop, and has tested `m_continue`. -/
  (running waiting m_continue m_errorHappened : Bool)
  (m_successfulArchiveJobs m_skippedFiles : List Nat)
  executed : List Report
  handedOver : List HandOver

def World.initial : World where
  writer := .popping
  tasks := 0
  files := 0
  bytes := 0
  flushes := 0
  log := []
  fifo := []
  running := true
  waiting := false
  m_continue := true
  m_errorHappened := false
  m_successfulArchiveJobs := []
  m_skippedFiles := []
  executed := []
  handedOver := []

namespace World

variable (w : World)

/-- `m_fifo.push`, and on to the next control state. -/
def push (r : Report) (next : Writer) : World :=
  { w with fifo := w.fifo ++ [r], writer := next }

def logged (entry : DriveLog) (next : Writer) : World :=
  { w with log := w.log ++ [entry], writer := next }

/-- `tapeFlush` calls the drive. -/
def startFlush (last : Bool) : World :=
  { w with
    flushes := w.flushes + 1
    log := w.log ++ [.flushStarted w.flushes]
    writer := .flushing w.flushes last }

/-- The `catch` clause for a CTA exception; any other one takes the thread down. -/
def fatal (task : Nat) (fileSize : UInt64) : TaskExn → World
  | .exception message errno =>
      if isTapeFull (.exception message errno) then
        { w with writer := .taskTapeFull (.exception message errno) }
      else { w with writer := .failing task fileSize (some (.exception message errno)) }
  | .std _ => { w with writer := .ended }

/-- `files++`, `bytes += …`, and the comparison with the thresholds. -/
def count (limits : Thresholds) (w : World) (fileSize : UInt64) : World :=
  let w := { w with files := w.files + 1, bytes := w.bytes + fileSize }
  if w.files ≥ limits.filesBeforeFlush ∨ w.bytes ≥ limits.bytesBeforeFlush then
    w.startFlush false
  else { w with writer := .popping }

/-- One step of the write thread; an answer to another question changes nothing. -/
def writerStep (limits : Thresholds) (w : World) (a : Answer) : World :=
  match w.writer with
  | .popping =>
      match a with
      | .task fileSize =>
          { w with tasks := w.tasks + 1, writer := .executing w.tasks fileSize }
      | .noMoreTasks => w.startFlush true
      | _ => w
  | .executing task fileSize =>
      match a with
      | .written => { w with writer := .closing task fileSize }
      | .skip => { w with writer := .skipping task fileSize }
      | .recoverable => { w with writer := .failing task fileSize none }
      | .refused e => { w with writer := .caught e }
      | .threw e => w.fatal task fileSize e
      | _ => w
  | .closing task fileSize =>
      match a with
      | .ok => w.logged (.closed task) (.closed task fileSize)
      | .threw e => w.fatal task fileSize e
      | _ => w
  | .closed task fileSize => w.push (.successful task) (.counting fileSize)
  | .skipping task fileSize => w.push (.skipped task) (.counting fileSize)
  | .failing task fileSize none => w.push (.error task) (.counting fileSize)
  | .failing task _ (some e) => w.push (.error task) (.caught e)
  | .taskTapeFull e => w.push .tapeFull (.caught e)
  | .counting fileSize => w.count limits fileSize
  | .flushing number last =>
      match a with
      | .ok => w.logged (.flushReturned number) (.flushed number last)
      | .threw e => { w with writer := .caught e }
      | _ => w
  | .flushed number last =>
      match a with
      | .ok => w.push (.flush number) (.clearing last)
      -- `getCompression` threw
      | .threw e => { w with writer := .caught e }
      | _ => w
  | .clearing last =>
      match a with
      | .ok =>
          if last then { w with writer := .finishing }
          else { w with files := 0, bytes := 0, writer := .popping }
      | .threw e => { w with writer := .caught e }
      | _ => w
  | .caught e =>
      if isTapeFull e then w.push .tapeFull .draining else { w with writer := .draining }
  | .draining => w.push .endOfSessionWithErrors .ended
  | .finishing => w.push .endOfSession .ended
  | .ended => w

/-- `ReportFlush::execute`. -/
def flushReport (a : PackerAnswer) : World :=
  if w.m_errorHappened then w
  else if w.m_successfulArchiveJobs = [] ∧ w.m_skippedFiles = [] then w
  else
    let w := { w with
      handedOver := w.handedOver
        ++ w.m_successfulArchiveJobs.map (fun task => HandOver.mk task w.executed.length) }
    match a with
    | .returned => { w with m_successfulArchiveJobs := [], m_skippedFiles := [] }
    | .threw left =>
        { w with
          m_successfulArchiveJobs :=
            w.m_successfulArchiveJobs.drop (w.m_successfulArchiveJobs.length - left)
          running := false }

/-- `Report::execute` of each class. -/
def executeReport (r : Report) (a : PackerAnswer) : World :=
  match r with
  | .successful task =>
      { w with m_successfulArchiveJobs := w.m_successfulArchiveJobs ++ [task] }
  | .skipped task => { w with m_skippedFiles := w.m_skippedFiles ++ [task] }
  | .error _ => { w with m_errorHappened := true }
  | .flush _ => w.flushReport a
  | .tapeFull => w
  | .driveStatus => w
  | .endOfSession => { w with m_continue := false }
  | .endOfSessionWithErrors => { w with m_continue := false }
  | .testGoingToEnd => { w with m_continue := false }

/-- One step of `WorkerThread::run`; an exception of a report ends the loop. -/
def packerStep (a : PackerAnswer) : World :=
  if !w.running then { w with fifo := w.fifo.tail }
  else if !w.waiting then { w with waiting := w.m_continue, running := w.m_continue }
  else
    -- `pop` blocks while there is no report, and does not look at `m_continue` again
    match w.fifo with
    | [] => w
    | r :: rest =>
        let done := { w with fifo := rest }.executeReport r a
        { done with
          executed := w.executed ++ [r]
          running := done.running && a == .returned
          waiting := false }

end World

/-! ## Runs -/

inductive Event where
  | writer (a : Answer)
  | packer (a : PackerAnswer)
  /-- Another thread pushes a report. -/
  | other (r : Report)
  /-- `synchronousReportEndWithErrors` from another thread. -/
  | stop

def World.step (limits : Thresholds) (w : World) : Event → World
  | .writer a => w.writerStep limits a
  | .packer a => w.packerStep a
  | .other r => if r.fromAnyThread then { w with fifo := w.fifo ++ [r] } else w
  | .stop => { w with m_continue := false }

/-- The file of the task was closed, and then the flush started and returned. -/
def FlushedAfterClose (log : List DriveLog) (task number : Nat) : Prop :=
  ∃ before after, log = before ++ .flushStarted number :: .flushReturned number :: after ∧
    .closed task ∈ before

def OnTape (w : World) (h : HandOver) : Prop :=
  ∃ number, w.executed[h.report]? = some (.flush number) ∧
    FlushedAfterClose w.log h.task number ∧
    ∀ i < h.report, ∀ task, w.executed[i]? ≠ some (.error task)

variable {log : List DriveLog}

theorem FlushedAfterClose.append {task number : Nat}
    (h : FlushedAfterClose log task number) (more : List DriveLog) :
    FlushedAfterClose (log ++ more) task number := by
  obtain ⟨before, after, hl, hm⟩ := h
  refine ⟨before, after ++ more, ?_, hm⟩
  rw [hl]
  simp

/-! ## The invariant -/

/-- The reports pushed so far, as long as the packer executes what it pops. -/
def World.history (w : World) : List Report := w.executed ++ w.fifo

/-- Every success that stands before a flush report in `reports` is on tape by that flush. -/
def Ordered (log : List DriveLog) (reports : List Report) : Prop :=
  ∀ before after number, reports = before ++ .flush number :: after →
    ∀ task, .successful task ∈ before → FlushedAfterClose log task number

/-- What a control state says about the drive log and the successes reported. -/
def WriterLog (log : List DriveLog) (reports : List Report) : Writer → Prop
  | .closed task _ => .closed task ∈ log
  | .flushing number _ =>
      ∃ before, log = before ++ [.flushStarted number] ∧
        ∀ task, .successful task ∈ reports → .closed task ∈ before
  | .flushed number _ =>
      ∃ before, log = before ++ [.flushStarted number, .flushReturned number] ∧
        ∀ task, .successful task ∈ reports → .closed task ∈ before
  | _ => True

/-- A control state that says nothing about them. -/
def Quiet (writer : Writer) : Prop := ∀ log reports, WriterLog log reports writer

/-- The part of the invariant about the write thread and the reports on their way. -/
structure Written (log : List DriveLog) (reports : List Report) (writer : Writer) : Prop where
  successes_closed : ∀ task, .successful task ∈ reports → .closed task ∈ log
  ordered : Ordered log reports
  writer : WriterLog log reports writer

structure Inv (w : World) : Prop where
  written : Written w.log w.history w.writer
  remembered : w.running = true → ∀ task ∈ w.m_successfulArchiveJobs,
    .successful task ∈ w.executed
  no_error : w.m_errorHappened = false → ∀ task, .error task ∉ w.executed
  on_tape : ∀ h ∈ w.handedOver, OnTape w h

theorem Inv.initial : Inv World.initial where
  written := by
    refine ⟨by simp [World.history, World.initial], ?_, trivial⟩
    intro before after number h
    simp [World.history, World.initial] at h
  remembered := by simp [World.initial]
  no_error := by simp [World.initial]
  on_tape := by simp [World.initial]

/-! ### Lists of reports -/

variable {reports : List Report} {r : Report}

/-- A report that is no flush keeps the order. -/
theorem Ordered.concat (h : Ordered log reports) (hr : ∀ number, r ≠ .flush number) :
    Ordered log (reports ++ [r]) := by
  intro before after number heq task hta
  -- the flush report is not the last one
  obtain rfl | ⟨init, last, rfl⟩ := eq_nil_or_concat after
  · rw [append_eq_append_iff_of_size_eq_right (by simp)] at heq
    exact absurd (List.cons.inj heq.2).1 (hr number)
  rw [concat_eq_append, ← cons_append, ← append_assoc] at heq
  obtain ⟨hinit, _⟩ := append_inj' heq rfl
  exact h before init number hinit task hta

/-- A flush report after which every success is on tape keeps the order. -/
theorem Ordered.concat_flush (h : Ordered log reports) {n : Nat}
    (hn : ∀ task, .successful task ∈ reports → FlushedAfterClose log task n) :
    Ordered log (reports ++ [.flush n]) := by
  intro before after number heq task hta
  obtain rfl | ⟨init, last, rfl⟩ := eq_nil_or_concat after
  · obtain ⟨hb, hlast⟩ := append_inj' heq rfl
    obtain ⟨hnu, _⟩ := List.cons.inj hlast
    cases hnu
    exact hn task (hb ▸ hta)
  · rw [concat_eq_append, ← cons_append, ← append_assoc] at heq
    obtain ⟨hinit, _⟩ := append_inj' heq rfl
    exact h before init number hinit task hta

theorem Ordered.log_append (h : Ordered log reports) (more : List DriveLog) :
    Ordered (log ++ more) reports :=
  fun before after number heq task hta => (h before after number heq task hta).append more

/-- Reports that are taken away keep the order of the others. -/
theorem Ordered.sublist {reports fewer : List Report}
    (h : Ordered log reports) (hsu : fewer.Sublist reports) : Ordered log fewer := by
  intro before after number heq task hta
  rw [heq] at hsu
  obtain ⟨front, back, hs, hf, hb⟩ := append_sublist_iff.mp hsu
  obtain ⟨upto, rest, hrest, hm, _⟩ := cons_sublist_iff.mp hb
  obtain ⟨pre, post, hp⟩ := append_of_mem hm
  refine h (front ++ pre) (post ++ rest) number ?_ task ?_
  · rw [hs, hrest, hp]
    simp
  · exact mem_append_left _ (hf.subset hta)

/-! ### The write thread -/

/-- A report that carries no promise. -/
def Report.plain : Report → Bool
  | .successful _ => false
  | .flush _ => false
  | _ => true

variable {task : Nat}

theorem mem_concat_plain (hr : r.plain = true) :
    .successful task ∈ reports ++ [r] ↔ .successful task ∈ reports := by
  rw [mem_append, mem_singleton]
  refine or_iff_left ?_
  rintro rfl
  cases hr

/-- What the write thread promises holds for fewer reported successes. -/
theorem WriterLog.mono {writer : Writer} {fewer : List Report} (h : WriterLog log reports writer)
    (hs : ∀ task, .successful task ∈ fewer → .successful task ∈ reports) :
    WriterLog log fewer writer := by
  cases writer with
  | flushing | flushed =>
    obtain ⟨before, hl, ha⟩ := h
    exact ⟨before, hl, fun task hta => ha task (hs task hta)⟩
  | _ => exact h

namespace Written

variable {log : List DriveLog} {reports : List Report} {writer : Writer}

/-- A plain report is pushed, by whatever thread. -/
theorem concat (h : Written log reports writer) (hr : r.plain = true) :
    Written log (reports ++ [r]) writer := by
  refine ⟨fun task hta => h.successes_closed task ((mem_concat_plain hr).mp hta),
    h.ordered.concat ?_, h.writer.mono fun _ => (mem_concat_plain hr).mp⟩
  rintro number rfl
  cases hr

variable {next : Writer}

theorem move (h : Written log reports writer) (hq : Quiet next) : Written log reports next :=
  ⟨h.successes_closed, h.ordered, hq _ _⟩

theorem concat_success {fileSize : UInt64}
    (h : Written log reports (.closed task fileSize)) (hq : Quiet next) :
    Written log (reports ++ [.successful task]) next := by
  refine ⟨?_, h.ordered.concat (by simp), hq _ _⟩
  intro task' ht'
  rw [mem_append, mem_singleton] at ht'
  obtain hold | hnew := ht'
  · exact h.successes_closed task' hold
  · cases hnew
    exact h.writer

/-- A flush that returned is reported: it started after all the closes reported so far. -/
theorem concat_flush {number : Nat} {last : Bool} (h : Written log reports (.flushed number last))
    (hq : Quiet next) : Written log (reports ++ [.flush number]) next := by
  obtain ⟨before, hl, ha⟩ := h.writer
  refine ⟨?_, h.ordered.concat_flush ?_, hq _ _⟩
  · intro task hta
    rw [mem_append, mem_singleton] at hta
    obtain hold | hnew := hta
    · exact h.successes_closed task hold
    · cases hnew
  · intro task hta
    exact ⟨before, [], hl, ha task hta⟩

theorem log_concat (h : Written log reports writer) (entry : DriveLog)
    (hw : WriterLog (log ++ [entry]) reports next) : Written (log ++ [entry]) reports next :=
  ⟨fun task hta => mem_append_left _ (h.successes_closed task hta), h.ordered.log_append _, hw⟩

/-- Reports are taken away. -/
theorem sublist (h : Written log reports writer) {fewer : List Report}
    (hs : fewer.Sublist reports) : Written log fewer writer :=
  ⟨fun task hta => h.successes_closed task (hs.subset hta), h.ordered.sublist hs,
    h.writer.mono fun _ hta => hs.subset hta⟩

end Written

namespace Inv

variable {w : World} {next : Writer}

/-- The write thread moves on to a state that promises nothing. -/
theorem quiet (h : Inv w) (hq : Quiet next) (tasks : Nat) (files bytes : UInt64) :
    Inv { w with tasks := tasks, files := files, bytes := bytes, writer := next } :=
  ⟨h.written.move hq, h.remembered, h.no_error, h.on_tape⟩

theorem moves (h : Inv w) (hq : Quiet next) : Inv { w with writer := next } :=
  h.quiet hq w.tasks w.files w.bytes

/-- The write thread pushes a report. -/
theorem push (h : Inv w) (hw : Written w.log (w.history ++ [r]) next) : Inv (w.push r next) := by
  refine ⟨?_, h.remembered, h.no_error, h.on_tape⟩
  show Written w.log (w.executed ++ (w.fifo ++ [r])) next
  rw [← append_assoc]
  exact hw

theorem report (h : Inv w) (hr : r.plain = true) (hq : Quiet next) : Inv (w.push r next) :=
  h.push ((h.written.concat hr).move hq)

/-- The drive log grows; what is on tape stays there. -/
theorem logged (h : Inv w) {entry : DriveLog}
    (hw : WriterLog (w.log ++ [entry]) w.history next) (flushes : Nat) :
    Inv { w with flushes := flushes, log := w.log ++ [entry], writer := next } := by
  refine ⟨h.written.log_concat entry hw, h.remembered, h.no_error, ?_⟩
  intro ha hm
  obtain ⟨number, hf, hta, he⟩ := h.on_tape ha hm
  exact ⟨number, hf, hta.append _, he⟩

theorem startFlush (h : Inv w) (last : Bool) : Inv (w.startFlush last) := by
  refine h.logged ?_ _
  exact ⟨w.log, rfl, h.written.successes_closed⟩

theorem fatal (h : Inv w) (task : Nat) (fileSize : UInt64) (e : TaskExn) :
    Inv (w.fatal task fileSize e) := by
  cases e with
  | exception message errno =>
    show Inv (if _ then _ else _)
    split <;> exact h.moves (fun _ _ => by trivial)
  | std what => exact h.moves (fun _ _ => by trivial)

theorem count (h : Inv w) (limits : Thresholds) (fileSize : UInt64) (hq : Quiet w.writer) :
    Inv (w.count limits fileSize) := by
  have ha : Inv { w with files := w.files + 1, bytes := w.bytes + fileSize } :=
    h.quiet hq w.tasks _ _
  unfold World.count
  simp only
  split
  · exact ha.startFlush false
  · exact h.quiet (fun _ _ => by trivial) w.tasks _ _

theorem writerStep (limits : Thresholds) (h : Inv w) (a : Answer) :
    Inv (w.writerStep limits a) := by
  have hw := h.written
  unfold World.writerStep
  cases hs : w.writer with
  | popping =>
    cases a with
    | task fileSize => exact h.quiet (fun _ _ => by trivial) _ w.files w.bytes
    | noMoreTasks => exact h.startFlush true
    | _ => exact h
  | executing task fileSize =>
    cases a with
    | threw e => exact h.fatal task fileSize e
    | written | skip | recoverable | refused => exact h.moves (fun _ _ => by trivial)
    | _ => exact h
  | closing task fileSize =>
    cases a with
    | ok =>
      refine h.logged ?_ w.flushes
      exact mem_append_right _ (mem_singleton_self _)
    | threw e => exact h.fatal task fileSize e
    | _ => exact h
  | closed task fileSize =>
    rw [hs] at hw
    exact h.push (hw.concat_success (fun _ _ => by trivial))
  | skipping | taskTapeFull | draining | finishing => exact h.report rfl (fun _ _ => by trivial)
  | failing task fileSize rethrown =>
    cases rethrown <;> exact h.report rfl (fun _ _ => by trivial)
  | counting fileSize =>
    refine h.count limits fileSize ?_
    rw [hs]
    exact fun _ _ => trivial
  | flushing number last =>
    rw [hs] at hw
    cases a with
    | ok =>
      obtain ⟨before, hl, ha⟩ := hw.writer
      refine h.logged ?_ w.flushes
      refine ⟨before, ?_, ha⟩
      rw [hl]
      simp
    | threw e => exact h.moves (fun _ _ => by trivial)
    | _ => exact h
  | flushed number last =>
    rw [hs] at hw
    cases a with
    | ok => exact h.push (hw.concat_flush (fun _ _ => by trivial))
    | threw e => exact h.moves (fun _ _ => by trivial)
    | _ => exact h
  | clearing last =>
    cases a with
    | ok =>
      show Inv (if last then _ else _)
      split
      · exact h.moves (fun _ _ => by trivial)
      · exact h.quiet (fun _ _ => by trivial) w.tasks 0 0
    | threw e => exact h.moves (fun _ _ => by trivial)
    | _ => exact h
  | caught e =>
    show Inv (if _ then _ else _)
    split
    · exact h.report rfl (fun _ _ => by trivial)
    · exact h.moves (fun _ _ => by trivial)
  | ended => exact h

/-! ### The report packer -/

/-- What was promised stays promised while the packer executes more reports. -/
theorem onTape_concat {ha : HandOver} (h : OnTape w ha) (r : Report) (w' : World)
    (hl : w'.log = w.log) (he : w'.executed = w.executed ++ [r]) : OnTape w' ha := by
  obtain ⟨number, hf, hta, her⟩ := h
  have hlt : ha.report < w.executed.length := (List.getElem?_eq_some_iff.mp hf).1
  refine ⟨number, ?_, hl ▸ hta, ?_⟩
  · rw [he, List.getElem?_append_left hlt]
    exact hf
  intro i hi task
  rw [he, List.getElem?_append_left (by omega)]
  exact her i hi task

variable {rest : List Report} {number : Nat}

/-- **The flush report**: what it hands over was remembered before it, so it is on tape. -/
theorem onTape_flush (h : Inv w) (hr : w.running = true) (her : w.m_errorHappened = false)
    (hf : w.fifo = .flush number :: rest)
    (hta : task ∈ w.m_successfulArchiveJobs) (w' : World) (hl : w'.log = w.log)
    (hex : w'.executed = w.executed ++ [.flush number]) :
    OnTape w' ⟨task, w.executed.length⟩ := by
  refine ⟨number, ?_, ?_, ?_⟩
  · rw [hex]
    simp
  · rw [hl]
    refine h.written.ordered w.executed rest number ?_ task (h.remembered hr task hta)
    unfold World.history
    rw [hf]
  · intro i hi task' he
    have hi' : i < w.executed.length := hi
    rw [hex, List.getElem?_append_left hi'] at he
    exact h.no_error her task' (mem_of_getElem? he)

/-- A report that neither remembers a job nor hands one over; after that of a failed job nothing
is handed over. -/
theorem executePlain (h : Inv w) (hf : w.fifo = r :: rest) (skipped : List Nat)
    (goOn failed running : Bool)
    (hr : failed = false → w.m_errorHappened = false ∧ ∀ task, r ≠ .error task)
    (hru : running = true → w.running = true) :
    Inv { w with
      fifo := rest, m_skippedFiles := skipped, m_continue := goOn, m_errorHappened := failed
      running := running, executed := w.executed ++ [r] } := by
  refine ⟨?_, ?_, ?_, ?_⟩
  · show Written w.log (w.executed ++ [r] ++ rest) w.writer
    rw [append_assoc, singleton_append, ← hf]
    exact h.written
  · intro hr' task hta
    exact mem_append_left _ (h.remembered (hru hr') task hta)
  · intro he task hm
    obtain hold | hnew := mem_append.mp (show _ ∈ w.executed ++ [r] from hm)
    · exact h.no_error (hr he).1 task hold
    · exact (hr he).2 task (mem_singleton.mp hnew).symm
  · intro ha hm
    exact onTape_concat (h.on_tape ha hm) r _ rfl rfl

/-- One that reports no failed job. -/
theorem executeNoError (h : Inv w) (hf : w.fifo = r :: rest) (hr : ∀ task, r ≠ .error task)
    (skipped : List Nat) (goOn running : Bool) (hru : running = true → w.running = true) :
    Inv { w with
      fifo := rest, m_skippedFiles := skipped, m_continue := goOn, running := running
      executed := w.executed ++ [r] } :=
  h.executePlain hf skipped goOn _ running (fun he => ⟨he, hr⟩) hru

/-- A successful job is remembered. -/
theorem executeSuccess (h : Inv w) (hf : w.fifo = .successful task :: rest) (running : Bool)
    (hru : running = true → w.running = true) :
    Inv { w with
      fifo := rest
      m_successfulArchiveJobs := w.m_successfulArchiveJobs ++ [task], running := running
      executed := w.executed ++ [.successful task] } := by
  have hp := h.executeNoError hf (by simp) w.m_skippedFiles w.m_continue running hru
  refine ⟨hp.written, ?_, hp.no_error, hp.on_tape⟩
  intro hr task' ht'
  have ht'' : task' ∈ w.m_successfulArchiveJobs ++ [task] := ht'
  rw [mem_append, mem_singleton] at ht''
  obtain hold | hnew := ht''
  · exact mem_append_left _ (h.remembered (hru hr) task' hold)
  · rw [hnew]
    exact mem_append_right _ (mem_singleton_self _)

/-- A flush report hands over the remembered jobs, and keeps some of them or none. -/
theorem executeHandOver (h : Inv w) (hru : w.running = true) (he : w.m_errorHappened = false)
    (hf : w.fifo = .flush number :: rest) (kept skipped : List Nat) (running : Bool)
    (hk : running = true → ∀ task ∈ kept, task ∈ w.m_successfulArchiveJobs) :
    Inv { w with
      fifo := rest
      handedOver := w.handedOver
        ++ w.m_successfulArchiveJobs.map (fun task => HandOver.mk task w.executed.length)
      m_successfulArchiveJobs := kept, m_skippedFiles := skipped, running := running
      executed := w.executed ++ [.flush number] } := by
  have hp := h.executeNoError hf (by simp) skipped w.m_continue running (fun _ => hru)
  refine ⟨hp.written, ?_, hp.no_error, ?_⟩
  · intro hr task hta
    exact mem_append_left _ (h.remembered hru task (hk hr task hta))
  intro ha hm
  have hm' : ha ∈ w.handedOver
      ++ w.m_successfulArchiveJobs.map (fun task => HandOver.mk task w.executed.length) := hm
  rw [mem_append, mem_map] at hm'
  obtain hold | ⟨task, hta, hnew⟩ := hm'
  · exact onTape_concat (h.on_tape ha hold) _ _ rfl rfl
  · rw [← hnew]
    exact h.onTape_flush hru he hf hta _ rfl rfl

theorem executeFlush (h : Inv w) (hr : w.running = true)
    (hf : w.fifo = .flush number :: rest) (a : PackerAnswer) :
    Inv { ({ w with fifo := rest } : World).flushReport a with
      executed := w.executed ++ [.flush number]
      running := (({ w with fifo := rest } : World).flushReport a).running && a == .returned } := by
  unfold World.flushReport
  split
  · exact h.executeNoError hf (by simp) w.m_skippedFiles w.m_continue _ (fun _ => hr)
  next he =>
  have he' : w.m_errorHappened = false := by simpa using he
  split
  · exact h.executeNoError hf (by simp) w.m_skippedFiles w.m_continue _ (fun _ => hr)
  cases a with
  | returned =>
    exact h.executeHandOver hr he' hf [] [] _ (by simp)
  | threw left =>
    exact h.executeHandOver hr he' hf _ w.m_skippedFiles _ (by simp)

theorem waits (h : Inv w) (waiting : Bool) : Inv { w with waiting := waiting } :=
  ⟨h.written, h.remembered, h.no_error, h.on_tape⟩

theorem packerStep (h : Inv w) (a : PackerAnswer) : Inv (w.packerStep a) := by
  unfold World.packerStep
  split
  · -- drained without being executed
    exact ⟨h.written.sublist ((tail_sublist _).append_left _), h.remembered, h.no_error, h.on_tape⟩
  next hgo =>
  have hr : w.running = true := by simpa using hgo
  split
  · exact ⟨h.written, fun _ => h.remembered hr, h.no_error, h.on_tape⟩
  cases hf : w.fifo with
  | nil => exact h
  | cons r rest =>
    cases r with
    | successful task => exact (h.executeSuccess hf _ (fun _ => hr)).waits false
    | error task => exact (h.executePlain hf _ _ true _ (by simp) (fun _ => hr)).waits false
    | flush number => exact (h.executeFlush hr hf a).waits false
    | _ => exact (h.executeNoError hf (by simp) _ _ _ (fun _ => hr)).waits false

theorem step (limits : Thresholds) (h : Inv w) (e : Event) : Inv (w.step limits e) := by
  cases e with
  | writer a => exact h.writerStep limits a
  | packer a => exact h.packerStep a
  | other r =>
    show Inv (if r.fromAnyThread then _ else w)
    split
    · next hr =>
      have hp : r.plain = true := by
        cases r <;> first | rfl | cases hr
      exact h.push (h.written.concat hp)
    · exact h
  | stop => exact ⟨h.written, h.remembered, h.no_error, h.on_tape⟩

end Inv

/-! ## Whole runs -/

/-- **On tape before reported**: a job handed over as successful has its file closed and then a
flush that returned, and no report of a failed job was executed before. -/
theorem reported_after_flush (limits : Thresholds) (es : List Event) :
    ∀ h ∈ (run (World.step limits) World.initial es).handedOver,
      OnTape (run (World.step limits) World.initial es) h := by
  have hi : Inv (run (World.step limits) World.initial es) :=
    run_preserves (fun w e h => h.step limits e) Inv.initial
  exact hi.on_tape

def twoFiles : List Event :=
  [.writer (.task 10), .writer .written, .writer .ok, .writer .ok, .writer .ok,
   .packer .returned, .writer (.task 20), .writer .written, .packer .returned, .writer .ok,
   .writer .ok, .writer .ok, .packer .returned, .writer .noMoreTasks, .packer .returned,
   .writer .ok, .packer .returned, .writer .ok, .packer .returned]

/-- Both jobs are handed over by the third report, which is that of the flush. -/
theorem two_files_on_tape :
    (run (World.step ⟨100, 1000⟩) World.initial twoFiles).handedOver = [⟨0, 2⟩, ⟨1, 2⟩] ∧
    OnTape (run (World.step ⟨100, 1000⟩) World.initial twoFiles) ⟨0, 2⟩ ∧
    OnTape (run (World.step ⟨100, 1000⟩) World.initial twoFiles) ⟨1, 2⟩ :=
  ⟨by decide, reported_after_flush ⟨100, 1000⟩ twoFiles ⟨0, 2⟩ (by decide),
    reported_after_flush ⟨100, 1000⟩ twoFiles ⟨1, 2⟩ (by decide)⟩

end TapeArchive.Tapeserver.WriteSession
