import Wasmline.Proofs.Run.Drain
import Wasmline.Source.Session

/-!
# Reporting to a stream that runs out

What there is to report of a queue is one text: every diagnostic with its line end, in order
(`reportOf`). A stream that takes `n` bytes takes the first `n` of that text, wherever they end. If this
is all of it, the queue is empty, and the report has its tally unless the flush behind it fails.
Otherwise the report fails, and the diagnostic at which the bytes ran out is lost: it was taken from the
queue before it was written, so what still waits is what stood behind it.

* **A queue is reported front first** (`reporting_append`): as long as its front fits, reporting goes on
  behind the front, with the room that is left.
* The first diagnostic that does not fit ends the report (`reporting_cons_of_not_fits`), and there is
  one unless the whole text fits (`exists_overflow`).
* **How a text is cut up does not matter** (`writePieces_eq_write`). A text and its line end may be
  written apart, and the stream may take less of a write than it has room for and be offered the rest
  again; all of this is writing in pieces, and comes to the same as writing at once.

`report_fills_stream` says it of the diagnostics that wait in a session. `Session.reportInPieces` is the
same loop in small steps: take the next diagnostic, count it, and write its pieces.
-/

namespace Wasmline

/-! ### The text of a report and its tally -/

/-- All that there is to report of a queue: every diagnostic with its line end, in order. -/
def reportOf (format : Diagnostic → String) (queue : List Diagnostic) : List UInt8 :=
  queue.flatMap (reportBytes format)

namespace Tally

/-- How many diagnostics of each severity are in a queue. -/
def ofQueue (queue : List Diagnostic) : Tally where
  errors := queue.countP fun d => d.severity == .error
  warnings := queue.countP fun d => d.severity == .warning
  infos := queue.countP fun d => d.severity == .info

/-- Some more diagnostics. -/
def recordAll (t : Tally) (queue : List Diagnostic) : Tally :=
  queue.foldl (fun t d => t.record d.severity) t

theorem recordAll_eq (t : Tally) (queue : List Diagnostic) :
    t.recordAll queue =
      ⟨t.errors + (ofQueue queue).errors, t.warnings + (ofQueue queue).warnings,
        t.infos + (ofQueue queue).infos⟩ := by
  induction queue generalizing t with
  | nil => rfl
  | cons d queue ih =>
      refine (ih (t.record d.severity)).trans ?_
      simp only [ofQueue, List.countP_cons]
      cases d.severity <;> simp [record] <;> omega

/-- The tally, unless the stream failed. -/
def orFailure (t : Tally) : Option IoFailure → Except Failure Tally
  | none => .ok t
  | some cause => .error (.io cause)

/-- Recording a queue from the start counts it. -/
theorem recordAll_zero (queue : List Diagnostic) : Tally.zero.recordAll queue = ofQueue queue := by
  simp [recordAll_eq, zero]

end Tally

section Text

variable (format : Diagnostic → String)

theorem reportOf_cons (d : Diagnostic) (queue : List Diagnostic) :
    reportOf format (d :: queue) = reportBytes format d ++ reportOf format queue := rfl

theorem reportOf_append (front queue : List Diagnostic) :
    reportOf format (front ++ queue) = reportOf format front ++ reportOf format queue :=
  List.flatMap_append

/-- If a text does not fit, there is a first diagnostic that does not fit behind those in front. -/
theorem exists_overflow : (queue : List Diagnostic) → (n : Nat) →
    n < (reportOf format queue).length →
      ∃ front d after, queue = front ++ d :: after ∧ (reportOf format front).length ≤ n ∧
        n < (reportOf format (front ++ [d])).length
  | [], n, h => absurd h (Nat.not_lt_zero n)
  | d :: queue, n, h => by
      by_cases hfirst : n < (reportBytes format d).length
      · exact ⟨[], d, queue, rfl, Nat.zero_le n, by simpa [reportOf] using hfirst⟩
      · rw [reportOf_cons, List.length_append] at h
        obtain ⟨front, d', after, rfl, hfits, hexceeds⟩ :=
          exists_overflow queue (n - (reportBytes format d).length) (by omega)
        refine ⟨d :: front, d', after, rfl, ?_, ?_⟩
        · rw [reportOf_cons, List.length_append]
          omega
        · rw [List.cons_append, reportOf_cons, List.length_append]
          omega

end Text

/-- Bytes fit if there is room for all of them. -/
theorem ErrorStream.fits_iff {n : Nat} {closed : IoFailure} {flushes : List (Option IoFailure)}
    {bytes : List UInt8} :
    ErrorStream.fits ⟨some n, closed, flushes⟩ bytes = true ↔ bytes.length ≤ n := by
  simp [ErrorStream.fits]

/-! ### Reporting from a session -/

/-- What reporting from a session comes to. -/
structure Reporting where
  /-- The tally, or how the stream failed. -/
  result : Except Failure Tally
  /-- The bytes that the stream took. -/
  reported : List UInt8
  /-- The session with what still waits. -/
  session : Session

/-- The same with these bytes taken in front. -/
def Reporting.behind (bytes : List UInt8) (r : Reporting) : Reporting :=
  { r with reported := bytes ++ r.reported }

namespace Session

/-- The end of a report, as it is seen from the session. -/
def reporting (s : Session) (drained : Drained) : Reporting where
  result := drained.tally.orFailure drained.failure
  reported := drained.events.flatMap Event.reported
  session := s.keepWaiting drained.rest

/-- Reports the diagnostics that wait in a session. -/
def report (format : Diagnostic → String) (stream : ErrorStream) (s : Session) : Reporting :=
  s.reporting (drain format stream s.waiting)

variable (s : Session) (format : Diagnostic → String) {stream : ErrorStream} {closed : IoFailure}
  {flushes : List (Option IoFailure)} {n : Nat} {d : Diagnostic} {front queue : List Diagnostic}

/-- Nothing waits: the report is done, unless the flush fails. -/
theorem reporting_nil (stream : ErrorStream) (tally : Tally) :
    s.reporting (drainFrom format stream tally []) =
      ⟨tally.orFailure stream.flushFailure?, [], s.keepWaiting []⟩ := by
  have hsilent : ∀ notes : List Note, (notes.map Event.note).flatMap Event.reported = [] := by
    simp [List.flatMap_map, Event.reported]
  unfold reporting drainFrom
  rw [List.flatMap_cons, hsilent]
  rfl

/-- A diagnostic that fits is reported, and the others behind it. -/
theorem reporting_cons_of_fits (hfits : stream.fits (reportBytes format d) = true) (tally : Tally)
    (queue : List Diagnostic) :
    s.reporting (drainFrom format stream tally (d :: queue)) =
      (s.reporting (drainFrom format (stream.push (reportBytes format d))
        (tally.record d.severity) queue)).behind (stream.taken (reportBytes format d)) := by
  rw [drainFrom_cons_of_fits format hfits]
  rfl

/-- A diagnostic that does not fit ends the report; it waits no longer. -/
theorem reporting_cons_of_not_fits (hfits : ¬ stream.fits (reportBytes format d) = true)
    (tally : Tally) (queue : List Diagnostic) :
    s.reporting (drainFrom format stream tally (d :: queue)) =
      ⟨.error (.io stream.closed), stream.taken (reportBytes format d), s.keepWaiting queue⟩ := by
  rw [drainFrom_cons_of_not_fits format hfits]
  unfold reporting
  simp [Event.reported, Tally.orFailure]

/-- **A queue is reported front first.** If its front fits, reporting goes on behind it. -/
theorem reporting_append (tally : Tally) (hfits : (reportOf format front).length ≤ n) :
    s.reporting (drainFrom format ⟨some n, closed, flushes⟩ tally (front ++ queue)) =
      (s.reporting (drainFrom format ⟨some (n - (reportOf format front).length), closed, flushes⟩
        (tally.recordAll front) queue)).behind (reportOf format front) := by
  induction front generalizing n tally with
  | nil => rfl
  | cons d front ih =>
      rw [reportOf_cons, List.length_append] at hfits
      have hfirst : (reportBytes format d).length ≤ n := by omega
      have hwhole : ErrorStream.fits ⟨some n, closed, flushes⟩ (reportBytes format d) = true :=
        ErrorStream.fits_iff.mpr hfirst
      have htaken : ErrorStream.taken ⟨some n, closed, flushes⟩ (reportBytes format d) =
          reportBytes format d := List.take_of_length_le hfirst
      have hpushed : ErrorStream.push ⟨some n, closed, flushes⟩ (reportBytes format d) =
          ⟨some (n - (reportBytes format d).length), closed, flushes⟩ := rfl
      rw [List.cons_append, reporting_cons_of_fits s format hwhole, htaken, hpushed,
        ih (tally.record d.severity) (by omega), reportOf_cons, List.length_append, Nat.sub_sub]
      simp [Reporting.behind, Tally.recordAll]

/-- A text that fits is reported whole; then the stream is flushed. -/
theorem report_of_fits (hfits : (reportOf format s.waiting).length ≤ n) :
    s.report format ⟨some n, closed, flushes⟩ =
      ⟨(Tally.ofQueue s.waiting).orFailure flushes.head?.join, reportOf format s.waiting,
        s.keepWaiting []⟩ := by
  have hwhole : s.report format ⟨some n, closed, flushes⟩ =
      s.reporting (drainFrom format ⟨some n, closed, flushes⟩ .zero (s.waiting ++ [])) := by
    rw [List.append_nil]
    rfl
  rw [hwhole, reporting_append s format .zero hfits, reporting_nil, Tally.recordAll_zero]
  simp [Reporting.behind, ErrorStream.flushFailure?]

/-- Reporting ends in the diagnostic with which the text does not fit any more. -/
theorem report_of_overflow {after : List Diagnostic} (hwaiting : s.waiting = front ++ d :: after)
    (hfits : (reportOf format front).length ≤ n)
    (hexceeds : n < (reportOf format (front ++ [d])).length) :
    s.report format ⟨some n, closed, flushes⟩ =
      ⟨.error (.io closed), (reportOf format s.waiting).take n, s.keepWaiting after⟩ := by
  rw [reportOf_append, List.length_append] at hexceeds
  have hsingle : reportOf format [d] = reportBytes format d := List.append_nil _
  rw [hsingle] at hexceeds
  have hrefused : ¬ ErrorStream.fits ⟨some (n - (reportOf format front).length), closed, flushes⟩
      (reportBytes format d) = true := by
    rw [ErrorStream.fits_iff]
    omega
  have htext : (reportOf format (front ++ d :: after)).take n =
      reportOf format front ++
        (reportBytes format d).take (n - (reportOf format front).length) := by
    rw [reportOf_append, reportOf_cons, List.take_append, List.take_of_length_le hfits,
      List.take_append_of_le_length (by omega)]
  unfold report drain
  rw [hwaiting, htext, reporting_append s format .zero hfits,
    reporting_cons_of_not_fits s format hrefused]
  rfl

end Session

/-! ### Writing in pieces -/

/-- What came of writing to a stream. -/
structure Written where
  /-- The bytes that the stream took. -/
  taken : List UInt8
  /-- The stream after them. -/
  stream : ErrorStream
  /-- Whether these were all. -/
  whole : Bool

namespace ErrorStream

/-- Writes all of these bytes at once. -/
def write (s : ErrorStream) (bytes : List UInt8) : Written :=
  ⟨s.taken bytes, s.push bytes, s.fits bytes⟩

/-- Writes pieces one by one, up to the first that the stream does not take whole. -/
def writePieces (s : ErrorStream) : List (List UInt8) → Written
  | [] => ⟨[], s, true⟩
  | piece :: pieces =>
    if s.fits piece then
      let rest := (s.push piece).writePieces pieces
      { rest with taken := s.taken piece ++ rest.taken }
    else s.write piece

variable (s : ErrorStream) (a b : List UInt8)

theorem write_nil : s.write [] = ⟨[], s, true⟩ := by
  obtain ⟨_ | n, closed, flushes⟩ := s
  · rfl
  · simp [write, taken, push, fits]

/-- Behind bytes that fit, the stream takes of more bytes what it takes of them then. -/
theorem write_append_of_fits (h : s.fits a = true) :
    s.write (a ++ b) =
      ⟨s.taken a ++ ((s.push a).write b).taken, ((s.push a).write b).stream,
        ((s.push a).write b).whole⟩ := by
  obtain ⟨_ | n, closed, flushes⟩ := s
  · rfl
  · have hfirst : a.length ≤ n := fits_iff.mp h
    have hboth : a.length + b.length ≤ n ↔ b.length ≤ n - a.length := by omega
    simp [write, taken, push, fits, List.take_append, hboth, Nat.sub_sub]

/-- Behind bytes that do not fit, the stream takes nothing more. -/
theorem write_append_of_not_fits (h : ¬ s.fits a = true) : s.write (a ++ b) = s.write a := by
  obtain ⟨_ | n, closed, flushes⟩ := s
  · exact absurd rfl h
  · have hexceeds : n < a.length := Nat.lt_of_not_le fun hfirst => h (fits_iff.mpr hfirst)
    have hnothing : n - a.length = 0 := by omega
    have hnone_left : n - (a.length + b.length) = 0 := by omega
    have hrefused : ¬ a.length + b.length ≤ n := by omega
    simp [write, taken, push, fits, List.take_append, hnothing, hnone_left, hrefused, hexceeds]

/-- **Writing in pieces is writing at once**, wherever the cuts are. -/
theorem writePieces_eq_write (pieces : List (List UInt8)) :
    s.writePieces pieces = s.write pieces.flatten := by
  induction pieces generalizing s with
  | nil => exact (write_nil s).symm
  | cons piece pieces ih =>
      unfold writePieces
      by_cases hfits : s.fits piece = true
      · rw [if_pos hfits, ih, List.flatten_cons, write_append_of_fits s _ _ hfits]
      · rw [if_neg hfits, List.flatten_cons, write_append_of_not_fits s _ _ hfits]

end ErrorStream

namespace Session

variable {s s' : Session} {d : Diagnostic} {queue : List Diagnostic}

theorem nextDiagnostic_of_nil (h : s.waiting = []) : s.nextDiagnostic = (none, s.keepWaiting []) := by
  obtain ⟨files, requested, pending, waiting⟩ := s
  cases h
  rfl

theorem nextDiagnostic_of_cons (h : s.waiting = d :: queue) :
    s.nextDiagnostic = (some d, s.keepWaiting queue) := by
  unfold nextDiagnostic
  rw [h]
  rfl

/-- A diagnostic that has been asked for waits no longer. -/
theorem waiting_of_nextDiagnostic (h : s.nextDiagnostic = (some d, s')) :
    s.waiting = d :: s'.waiting := by
  rcases hw : s.waiting with _ | ⟨e, rest⟩
  · rw [nextDiagnostic_of_nil hw] at h
    cases h
  · rw [nextDiagnostic_of_cons hw] at h
    cases h
    rfl

/-- Reports diagnostics after those of `tally`: each is taken from the session, counted, and then
written in pieces. When there are no more the stream is flushed. -/
def reportInPieces (pieces : Diagnostic → List (List UInt8)) (stream : ErrorStream) (tally : Tally)
    (s : Session) : Reporting :=
  match _hnext : s.nextDiagnostic with
  | (none, s') => ⟨tally.orFailure stream.flushFailure?, [], s'⟩
  | (some d, s') =>
    let written := stream.writePieces (pieces d)
    if written.whole then
      (s'.reportInPieces pieces written.stream (tally.record d.severity)).behind written.taken
    else ⟨.error (.io stream.closed), written.taken, s'⟩
termination_by s.waiting.length
decreasing_by
  rw [waiting_of_nextDiagnostic _hnext]
  exact Nat.lt_succ_self _

theorem reportInPieces_of_nil (pieces : Diagnostic → List (List UInt8)) (stream : ErrorStream)
    (tally : Tally) (h : s.waiting = []) :
    s.reportInPieces pieces stream tally =
      ⟨tally.orFailure stream.flushFailure?, [], s.keepWaiting []⟩ := by
  rw [reportInPieces]
  split
  next s' hnext =>
    rw [nextDiagnostic_of_nil h] at hnext
    cases hnext
    rfl
  next d s' hnext =>
    rw [nextDiagnostic_of_nil h] at hnext
    cases hnext

theorem reportInPieces_of_cons (pieces : Diagnostic → List (List UInt8)) (stream : ErrorStream)
    (tally : Tally) (h : s.waiting = d :: queue) :
    s.reportInPieces pieces stream tally =
      if (stream.write (pieces d).flatten).whole then
        ((s.keepWaiting queue).reportInPieces pieces (stream.push (pieces d).flatten)
          (tally.record d.severity)).behind (stream.taken (pieces d).flatten)
      else
        ⟨.error (.io stream.closed), stream.taken (pieces d).flatten, s.keepWaiting queue⟩ := by
  rw [reportInPieces]
  split
  next s' hnext =>
    rw [nextDiagnostic_of_cons h] at hnext
    cases hnext
  next d' s' hnext =>
    rw [nextDiagnostic_of_cons h] at hnext
    cases hnext
    rw [ErrorStream.writePieces_eq_write]
    rfl

/-- **Reporting in pieces is reporting**: the loop takes the queue as it is, whatever the pieces of its
texts are. -/
theorem reportInPieces_eq_reporting {format : Diagnostic → String}
    {pieces : Diagnostic → List (List UInt8)} (hcut : ∀ d, (pieces d).flatten = reportBytes format d)
    (stream : ErrorStream) (tally : Tally) (h : s.waiting = queue) :
    s.reportInPieces pieces stream tally = s.reporting (drainFrom format stream tally queue) := by
  induction queue generalizing s stream tally with
  | nil => rw [reportInPieces_of_nil pieces stream tally h, reporting_nil]
  | cons d queue ih =>
      rw [reportInPieces_of_cons pieces stream tally h, hcut]
      by_cases hfits : stream.fits (reportBytes format d) = true
      · rw [reporting_cons_of_fits s format hfits]
        refine (if_pos hfits).trans ?_
        have hlater : (s.keepWaiting queue).waiting = queue := rfl
        rw [ih _ _ hlater]
        rfl
      · rw [reporting_cons_of_not_fits s format hfits]
        exact if_neg hfits

end Session

/-- **A report fills its stream.** Of a stream that takes `n` bytes and then fails, a report uses all of
them that it needs. If its whole text fits, the stream has that text, nothing waits any more, and the
report returns how many errors, warnings and infos waited, unless the flush behind the text fails, which
is then how the report fails. If the text does not fit, the report fails as the stream does, the stream
has the first `n` bytes of the text, and what stood behind the first diagnostic that did not fit still
waits. This is so in whatever pieces the text of a diagnostic is written. -/
theorem report_fills_stream (format : Diagnostic → String) (closed : IoFailure)
    (flushes : List (Option IoFailure)) (n : Nat) (s : Session) :
    let stream : ErrorStream := ⟨some n, closed, flushes⟩
    ((reportOf format s.waiting).length ≤ n →
      (stream.flushFailure? = none → s.report format stream =
        ⟨.ok (Tally.ofQueue s.waiting), reportOf format s.waiting, s.keepWaiting []⟩) ∧
      ∀ cause, stream.flushFailure? = some cause → s.report format stream =
        ⟨.error (.io cause), reportOf format s.waiting, s.keepWaiting []⟩) ∧
    (n < (reportOf format s.waiting).length →
      ∃ front d after, s.waiting = front ++ d :: after ∧
        (reportOf format front).length ≤ n ∧ n < (reportOf format (front ++ [d])).length ∧
        s.report format stream =
          ⟨.error (.io closed), (reportOf format s.waiting).take n, s.keepWaiting after⟩) ∧
    ∀ pieces : Diagnostic → List (List UInt8), (∀ d, (pieces d).flatten = reportBytes format d) →
      s.reportInPieces pieces stream .zero = s.report format stream := by
  intro stream
  refine ⟨fun hfits => ⟨fun hfine => ?_, fun cause hfailed => ?_⟩, ?_, ?_⟩
  · rw [s.report_of_fits format hfits, show flushes.head?.join = none from hfine]
    rfl
  · rw [s.report_of_fits format hfits, show flushes.head?.join = some cause from hfailed]
    rfl
  · intro hexceeds
    obtain ⟨front, d, after, hwaiting, hfits, hexceeds⟩ := exists_overflow format s.waiting n hexceeds
    exact ⟨front, d, after, hwaiting, hfits, hexceeds,
      s.report_of_overflow format hwaiting hfits hexceeds⟩
  · intro pieces hcut
    exact Session.reportInPieces_eq_reporting hcut _ _ rfl

/-- A session in which a diagnostic of each severity waits. -/
def mixedSession : Session :=
  { Session.empty with
    waiting := [⟨.warning, "W1", "", none⟩, ⟨.error, "E22", "", none⟩, ⟨.info, "I3", "", none⟩] }

-- Ten bytes are room for all of it, and six for the second text but not for its line end.
theorem mixedSession_reported :
    mixedSession.report Diagnostic.code ⟨some 10, .other "closed", []⟩ =
      ⟨.ok ⟨1, 1, 1⟩, Text.utf8 "W1\nE22\nI3\n".toList, Session.empty⟩ ∧
    mixedSession.report Diagnostic.code ⟨some 10, .other "closed", [some (.other "full")]⟩ =
      ⟨.error (.io (.other "full")), Text.utf8 "W1\nE22\nI3\n".toList, Session.empty⟩ ∧
    mixedSession.reportInPieces
        (fun d => [Text.utf8 d.code.toList, Text.utf8 ['\n']]) ⟨some 6, .other "closed", []⟩ .zero =
      ⟨.error (.io (.other "closed")), Text.utf8 "W1\nE22".toList,
        mixedSession.keepWaiting [⟨.info, "I3", "", none⟩]⟩ := by
  have hcut : ∀ d : Diagnostic, [Text.utf8 d.code.toList, Text.utf8 ['\n']].flatten =
      reportBytes Diagnostic.code d := by
    intro d
    simp [reportBytes]
  have hroom : (reportOf Diagnostic.code mixedSession.waiting).length ≤ 10 := by decide
  have hshort : 6 < (reportOf Diagnostic.code mixedSession.waiting).length := by decide
  refine ⟨((report_fills_stream Diagnostic.code (.other "closed") [] 10 mixedSession).1 hroom).1 rfl,
    ((report_fills_stream Diagnostic.code (.other "closed") [some (.other "full")] 10
      mixedSession).1 hroom).2 _ rfl, ?_⟩
  obtain ⟨-, hstopped, hinPieces⟩ :=
    report_fills_stream Diagnostic.code (.other "closed") [] 6 mixedSession
  obtain ⟨front, d, after, hwaiting, hfits, hexceeds, hreported⟩ := hstopped hshort
  rw [hinPieces _ hcut, hreported]
  -- the first text alone fits, and the first two do not
  rcases front with _ | ⟨first, _ | ⟨second, front⟩⟩
  · cases hwaiting
    exact absurd hexceeds (by decide)
  · cases hwaiting
    rfl
  · injection hwaiting with hsame hrest
    injection hrest with hsame'
    subst hsame hsame'
    rw [reportOf_cons, reportOf_cons, ← List.append_assoc, List.length_append] at hfits
    exact absurd (Nat.le_of_add_right_le hfits) (by decide)

end Wasmline
