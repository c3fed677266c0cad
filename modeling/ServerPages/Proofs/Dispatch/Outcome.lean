import Mathlib.Data.List.Forall2
import Mathlib.Data.List.Induction
import ServerPages.Dispatch
import ServerPages.Proofs.Page.Course
import ServerPages.Proofs.Response.Encoding
import ServerPages.Proofs.Text.Ruled

/-!
# The outcome of a request

A request for a page in a directory that exists is answered. The header of the response tells the
events of the course that the page takes, behind the event that names the request; the body follows
if the last status among them is that of success. A fault that escapes while the channel is open is
reported, and then the response has the status of a failed page and no body, unless the fault cannot
be put in words or its report cannot be encoded. None of this depends on the form of the header
beyond its own text, and nothing behind the first close counts (`Dispatcher.dispatch_course`).
-/

namespace ServerPages

/-! ### The last status -/

namespace Header

/-- The last status that some events set, that of success if they set none. -/
def lastStatus (events : List Event) : Text :=
  ((events.filter (·.key = "http-status".toList)).getLast?.map Event.value).getD Event.statusOk

private theorem status_concat (events : List Event) (e : Event) :
    status (events ++ [e]) = if e.key = "http-status".toList then e.value else status events := by
  rw [status, List.foldl_append]
  rfl

private theorem status_eq_lastStatus (events : List Event) : status events = lastStatus events := by
  induction events using List.reverseRecOn with
  | nil => rfl
  | append_singleton events e ih =>
    rw [status_concat, lastStatus, List.filter_append, List.filter_cons, List.filter_nil]
    by_cases h : e.key = "http-status".toList
    · rw [if_pos h, if_pos (decide_eq_true h), List.getLast?_concat]
      rfl
    · rw [if_neg h, if_neg (mt of_decide_eq_true h), List.append_nil]
      exact ih

private theorem statusOf_append_of_forall {signals later : List Signal}
    (h : ∀ s ∈ later, s.hasKey "http-status" = false) :
    statusOf (signals ++ later) = statusOf signals := by
  rw [statusOf, List.foldl_append, ← statusOf]
  generalize statusOf signals = first
  induction later with
  | nil => rfl
  | cons s later ih =>
    obtain ⟨hs, hlater⟩ := List.forall_mem_cons.mp h
    rw [List.foldl_cons, hs]
    exact ih hlater

/-- A report sets the status of a failed page, and no other status after it. -/
theorem statusOf_failure (signals : List Signal) (f : Fault) (text : List Letter) :
    statusOf (signals ++ Signal.failure f text) = Letter.ofText Event.statusFailed := by
  obtain ⟨lines, hlines⟩ : ∃ lines : List (List Letter), Signal.failure f text =
      Signal.status Event.statusFailed :: lines.map Signal.error := ⟨_, rfl⟩
  have herror : ∀ s ∈ lines.map Signal.error, s.hasKey "http-status" = false := by
    intro s hs
    obtain ⟨line, -, rfl⟩ := List.mem_map.mp hs
    have hkey : Signal.hasKey "http-status" ⟨Letter.ofText "error-message".toList, []⟩ = false := by
      decide
    exact hkey
  rw [hlines, List.append_cons, statusOf_append_of_forall herror, statusOf, List.foldl_append]
  rfl

end Header

/-! ### Directories -/

namespace Dispatcher

variable {d : Dispatcher} {around : Surroundings} {request : Option Request}

/-- A directory that exists is found, and entered if it is to be entered. -/
theorem exists_directory_eq (h : ∀ dir, request.bind (·.baseDir? around.cwd.path) = some dir →
    around.tree.isDirectory around.cwd dir = true) : ∃ cwd, d.directory around request = .ok cwd := by
  unfold directory
  cases hdir : request.bind (·.baseDir? around.cwd.path) with
  | none => exact ⟨around.cwd, rfl⟩
  | some dir =>
    have hd := h dir hdir
    dsimp only
    by_cases hc : d.changeDirectory = true
    · rw [if_pos hc]
      rw [FileTree.isDirectory, Bool.and_eq_true, decide_eq_true_iff] at hd
      rw [if_neg hd.1]
      cases hr : around.tree.reachDirectory around.cwd dir with
      | ok loc => exact ⟨loc, rfl⟩
      | error e => rw [hr] at hd; cases hd.2
    · rw [if_neg hc, if_pos hd]
      exact ⟨around.cwd, rfl⟩

/-! ### Responses -/

variable {c : Course} {format : Format} {cwd : Location}

private theorem finished_events (c : Course) : (Performance.ofAct c.act).finished.events = c.events := by
  rw [Course.ofAct_act, Course.events_finished_open c rfl]
  rfl

private theorem finished_body (hc : c.IsQuiet) : (Performance.ofAct c.act).finished.body = c.body := by
  rw [Course.ofAct_act, Course.body_finished hc rfl]
  rfl

theorem signals_ofAct (request : Option Request) (c : Course) :
    signals request (Performance.ofAct c.act) = (opening request).signal :: c.events := by
  rw [signals, finished_events]

/-- The response of a course whose header can be encoded. -/
theorem response_of_course (hc : c.IsQuiet) {header : Bytes} (h : Header.encode?
    (Header.linesOf format ((opening request).signal :: c.events)) = some header) :
    ∃ notes, response format request (Performance.ofAct c.act) =
      ⟨Header.statusOf ((opening request).signal :: c.events), header ++
        if Header.statusOf ((opening request).signal :: c.events) = Letter.ofText Event.statusOk then
          c.body else [], notes, none⟩ := by
  rw [← signals_ofAct request c] at h ⊢
  exact ⟨_, by rw [response_of_encode? h, finished_body hc]⟩

/-- The response of a course that sends events. -/
theorem response_of_events (request : Option Request) {events : List Event} (hc : c.IsQuiet)
    (hevents : c.events = events.map Event.signal) (format : Format) :
    let told := opening request :: events
    ∃ notes, response format request (Performance.ofAct c.act) =
      ⟨Letter.ofText (Header.lastStatus told), Utf8.encode (Header.text format told) ++
        if Header.lastStatus told = Event.statusOk then c.body else [], notes, none⟩ := by
  intro told
  have htold : (opening request).signal :: c.events = told.map Event.signal := by
    rw [hevents]
    rfl
  have hheader := Header.encode?_signals format told
  rw [← htold] at hheader
  obtain ⟨notes, hresponse⟩ := response_of_course hc hheader
  refine ⟨notes, hresponse.trans ?_⟩
  rw [htold, Header.statusOf_signals, Header.status_eq_lastStatus]
  simp only [Letter.ofText_inj]

/-- A page whose fault is reported answers with the status of a failed page, without a body. -/
theorem response_of_failure {f : Fault} {text : List Letter} {sent : List Signal} {header : Bytes}
    (hevents : c.events = sent ++ Signal.failure f text) (h : Header.encode?
      (Header.linesOf format ((opening request).signal :: c.events)) = some header) :
    ∃ notes, response format request (Performance.ofAct c.act) =
      ⟨Letter.ofText Event.statusFailed, header, notes, none⟩ := by
  have hstatus : Header.statusOf ((opening request).signal :: c.events) =
      Letter.ofText Event.statusFailed := by
    rw [hevents, ← List.cons_append]
    exact Header.statusOf_failure _ f text
  rw [← signals_ofAct request c] at h hstatus
  refine ⟨notes request (Performance.ofAct c.act), ?_⟩
  rw [response_of_encode? h, hstatus, if_neg (by decide), List.append_nil]

/-- The answer to a request once the page's course is known. -/
theorem dispatch_ofCourse {course : Surroundings → Option Request → Course}
    (hcwd : d.directory around request = .ok cwd) (hc : course { around with cwd } request = c)
    (format : Format) : { d with page := .ofCourse course, format }.dispatch around request =
      .ok (response format request (Performance.ofAct c.act), cwd) := by
  show (d.directory around request).map _ = _
  rw [hcwd, ← hc]
  rfl

end Dispatcher

/-! ### Courses -/

namespace Course

variable {c : Course} {f : Fault}

/-- A fault escapes while the channel is open. -/
def Escapes (c : Course) (f : Fault) : Prop := c.ending = some f ∧ .close ∉ c.deeds

private theorem events_of_escapes (h : c.Escapes f) : c.events = c.sent ++ Signal.report f := by
  rw [events, report, if_neg h.2, h.1]
  rfl

private theorem events_of_not_escapes (h : ∀ f, ¬ c.Escapes f) : c.events = c.sent := by
  have hreport : c.report = [] := by
    rw [report]
    split
    · rfl
    · next hopen =>
      cases hending : c.ending with
      | none => rfl
      | some f => exact absurd ⟨hending, hopen⟩ (h f)
  rw [events, hreport, List.append_nil]

private theorem AgreeToClose.sent_eq {c' : Course} (h : c.AgreeToClose c') : c.sent = c'.sent := by
  obtain ⟨before, after, after', hds, hds'⟩ := h
  have htake (after : List Deed) : (before ++ .close :: after).takeWhile (· ≠ .close) =
      before.takeWhile (· ≠ .close) := by
    rw [List.takeWhile_append]
    split
    · next hlength =>
      rw [List.takeWhile_cons_of_neg (by simp), List.append_nil]
      exact (List.takeWhile_prefix _).eq_of_length hlength |>.symm
    · rfl
  rw [sent, sent, hds, hds', htake, htake]

private theorem AgreeToClose.not_escapes {c' : Course} (h : c.AgreeToClose c') (f : Fault) :
    ¬ c.Escapes f ∧ ¬ c'.Escapes f := by
  obtain ⟨before, after, after', hds, hds'⟩ := h
  exact ⟨fun hc => hc.2 (by rw [hds]; simp), fun hc => hc.2 (by rw [hds']; simp)⟩

end Course

namespace Dispatcher

variable {d : Dispatcher} {around : Surroundings} {request : Option Request}

/-- A dispatch of a course in some form of header is answered with a status and with bytes. -/
def Answers (d : Dispatcher) (around : Surroundings) (request : Option Request) (cwd : Location)
    (course : Surroundings → Option Request → Course) (format : Format) (status : List Letter)
    (content : Bytes) : Prop :=
  ∃ notes, { d with page := .ofCourse course, format }.dispatch around request =
    .ok (⟨status, content, notes, none⟩, cwd)

/-- A course that sends events is answered with them, and with its body if the last status is that of
success. -/
private theorem answers_of_events {course : Surroundings → Option Request → Course} {c : Course}
    {cwd : Location} {events : List Event} (hcwd : d.directory around request = .ok cwd)
    (hc : course { around with cwd } request = c) (hquiet : c.IsQuiet)
    (hevents : c.events = events.map Event.signal) (format : Format) :
    let told := opening request :: events
    d.Answers around request cwd course format (Letter.ofText (Header.lastStatus told))
      (Utf8.encode (Header.text format told) ++
        if Header.lastStatus told = Event.statusOk then c.body else []) := by
  intro told
  obtain ⟨notes, hresponse⟩ := response_of_events request hquiet hevents format
  exact ⟨notes, (dispatch_ofCourse hcwd hc format).trans (by rw [hresponse])⟩

/-- A course that ends with the report of a fault is answered with the status of a failed page
exactly if the report can be encoded where it is told; if the header cannot be encoded, the response
is broken off. -/
private theorem answers_of_failure {course : Surroundings → Option Request → Course} {c : Course}
    {cwd : Location} {sent : List Event} {f : Fault} {text : List Letter}
    (hcwd : d.directory around request = .ok cwd)
    (hc : course { around with cwd } request = c)
    (hevents : c.events = sent.map Event.signal ++ Signal.failure f text) (format : Format) :
    let lines := Header.linesOf format
      ((opening request :: sent).map Event.signal ++ Signal.failure f text)
    ((∃ header, Header.encode? lines = some header ∧
        d.Answers around request cwd course format (Letter.ofText Event.statusFailed) header) ↔
      (format = .structured → ∀ s ∈ Signal.failure f text, s.IsPlain)) ∧
    (Header.encode? lines = none → ∃ response, response.broken ≠ none ∧
      { d with page := .ofCourse course, format }.dispatch around request = .ok (response, cwd)) := by
  intro lines
  have hlines : Header.linesOf format ((opening request).signal :: c.events) = lines := by
    rw [hevents]
    rfl
  have hwritten := Header.isSome_encode?_failure format (opening request :: sent) f text
  refine ⟨⟨fun ⟨_, hheader, _⟩ => hwritten.mp (Option.isSome_of_mem hheader), fun hplain => ?_⟩,
    fun hnone => ?_⟩
  · obtain ⟨header, hheader⟩ := Option.isSome_iff_exists.mp (hwritten.mpr hplain)
    obtain ⟨notes, hresponse⟩ :=
      response_of_failure hevents ((congrArg Header.encode? hlines).trans hheader)
    exact ⟨header, hheader, notes, (dispatch_ofCourse hcwd hc format).trans (by rw [hresponse])⟩
  · have hnone := (congrArg Header.encode? hlines).trans hnone
    rw [← signals_ofAct request c] at hnone
    obtain ⟨fault, hbroken⟩ := broken_of_encode?_eq_none hnone
    exact ⟨_, by rw [hbroken]; exact Option.some_ne_none _, dispatch_ofCourse hcwd hc format⟩

/-- **Requests are answered by the course of the page.** The events are those that the page sends
before its first close. If no fault escapes while the channel is open, the header tells them, and
the body follows if the last status is that of success. A fault that escapes is reported, and the
page answers with the status of a failed page and no body, exactly if the fault can be put in words
and, in the structured form, the report can be encoded; a fault without words leaves no trace, and a
report that cannot be encoded breaks the answer off. The last part says that an answer does not
depend on what the page does behind a close. -/
theorem dispatch_course (d : Dispatcher) (around : Surroundings) (request : Option Request)
    (course : Surroundings → Option Request → Course)
    (hdir : ∀ dir, request.bind (·.baseDir? around.cwd.path) = some dir →
      around.tree.isDirectory around.cwd dir = true) :
    ∃ cwd, d.directory around request = .ok cwd ∧
      ∀ (c : Course) (sent : List Event), course { around with cwd } request = c → c.IsQuiet →
        c.sent = sent.map Event.signal →
        let told := opening request :: sent
        let status := Header.lastStatus told
        let body := if status = "200".toList then c.body else []
        let asIfWell (course : Surroundings → Option Request → Course) : Prop :=
          ∀ format, d.Answers around request cwd course format (Letter.ofText status)
            (Utf8.encode (Header.text format told) ++ body)
        ((∀ f, ¬ c.Escapes f) → asIfWell course) ∧
        (∀ f, c.Escapes f →
          (f.text = none → asIfWell course) ∧
          ∀ text, f.text = some text → ∃ traced, List.Forall₂ Letter.AreLines f.trace traced ∧
            let line (s : List Letter) : Signal := ⟨Letter.ofText "error-message".toList, s⟩
            let dashes := line (List.replicate 60 (.char '-'))
            let report : List Signal :=
              ⟨Letter.ofText "http-status".toList, Letter.ofText "500".toList⟩ ::
                line (Letter.ofText (f.kind ++ ": ".toList) ++ text) :: dashes ::
                  traced.flatten.map (fun l => line (Letter.ofText "  | ".toList ++ l)) ++ [dashes]
            ∀ format,
              let lines := Header.linesOf format (told.map Event.signal ++ report)
              ((∃ header, Header.encode? lines = some header ∧
                  d.Answers around request cwd course format (Letter.ofText "500".toList) header) ↔
                (format = .structured → ∀ s ∈ report, s.IsPlain)) ∧
              (Header.encode? lines = none → ∃ response, response.broken ≠ none ∧
                { d with page := .ofCourse course, format }.dispatch around request =
                  .ok (response, cwd))) ∧
        ∀ course' c', course' { around with cwd } request = c' → c'.IsQuiet → c.AgreeToClose c' →
          asIfWell course' := by
  obtain ⟨cwd, hcwd⟩ := exists_directory_eq hdir
  refine ⟨cwd, hcwd, fun c sent hc hquiet hsent => ?_⟩
  intro told status body asIfWell
  refine ⟨fun hnone => ?_, fun f hf => ⟨fun hwordless => ?_, fun text htext => ?_⟩, ?_⟩
  · exact answers_of_events hcwd hc hquiet ((Course.events_of_not_escapes hnone).trans hsent)
  · refine answers_of_events hcwd hc hquiet ?_
    rw [Course.events_of_escapes hf, Signal.report, hwordless, hsent]
    exact List.append_nil _
  · have htraced : List.Forall₂ Letter.AreLines f.trace (f.trace.map Letter.lines) :=
      List.forall₂_map_right_iff.mpr (List.forall₂_same.mpr fun s _ => Letter.areLines_lines s)
    refine ⟨_, htraced, ?_⟩
    intro line dashes report
    have hreport : Signal.failure f text = report := by
      simp only [Signal.failure, List.map_append, List.map_cons, List.map_map]
      rfl
    have hevents : c.events = sent.map Event.signal ++ Signal.failure f text := by
      rw [Course.events_of_escapes hf, Signal.report, htext, hsent]
      rfl
    rw [← hreport]
    exact answers_of_failure hcwd hc hevents
  · intro course' c' hc' hquiet' hagree
    have hevents : c'.events = sent.map Event.signal := by
      rw [Course.events_of_not_escapes fun f => (hagree.not_escapes f).2, ← hagree.sent_eq, hsent]
    have hbody : body = if status = Event.statusOk then c'.body else [] := by
      rw [← hagree.body_eq hquiet hquiet']
      rfl
    intro format
    rw [hbody]
    exact answers_of_events hcwd hc' hquiet' hevents format

/-- A page that closes its channel, sends another event and does not recover from the refusal
still answers with its body. -/
theorem dispatch_lateEvent : ∃ notes,
    ({ page := .ofCourse fun _ _ => ⟨[.write [0x6f, 0x6b], .close, .send ⟨[], []⟩], none⟩,
       format := .bare } : Dispatcher).dispatch ⟨⟨[]⟩, []⟩ (some { filename := "/page".toList }) =
      .ok (⟨Letter.ofText "200".toList, [0x6f, 0x6b], notes, none⟩, []) := by
  have hbase : (some ({ filename := "/page".toList } : Request)).bind (·.baseDir? ['/']) =
      some ['/'] := by cbv
  obtain ⟨cwd, hcwd, hanswer⟩ := dispatch_course { page := .ofCourse fun _ _ => ⟨[], none⟩ }
    ⟨⟨[]⟩, []⟩ (some { filename := "/page".toList })
    (fun _ _ => ⟨[.write [0x6f, 0x6b], .close, .send ⟨[], []⟩], none⟩) (by
      intro dir hdir
      obtain rfl : ['/'] = dir := Option.some.inj (hbase.symm.trans hdir)
      cbv)
  have hquiet : (⟨[.write [0x6f, 0x6b], .close, .send ⟨[], []⟩], none⟩ : Course).IsQuiet := by
    simp [Course.isQuiet_cons_iff, Course.isQuiet_nil, Deed.bytes]
  obtain rfl : [] = cwd := Except.ok.inj ((show _ = Except.ok [] by cbv).symm.trans hcwd)
  exact (hanswer _ [] rfl hquiet rfl).1 (fun f hf => Option.some_ne_none f hf.1.symm) .bare

/-- A page that ends in a fault without words is not answered as a failed page: what it has written
by then is served, with the status of success. -/
theorem dispatch_wordless :
    let fault := Fault.raisedAs "UnicodeTranslateError".toList
      [.text "abc".toList, .int (-5), .int (-4), .text "r".toList]
    let course : Course := ⟨[.write [0x78]], some fault⟩
    let answer (format : Format) := ({ page := .ofCourse fun _ _ => course, format } :
      Dispatcher).dispatch ⟨⟨[]⟩, []⟩ none
    course.IsQuiet ∧ course.Escapes fault ∧
      answer .bare = .ok (⟨Letter.ofText "200".toList, [0x78],
        [⟨3, "Page debug: Handling None".toList⟩], none⟩, []) ∧
      ¬ ∃ notes, answer .bare = .ok (⟨Letter.ofText "500".toList, [], notes, none⟩, []) := by
  intro fault course answer
  have hanswer : answer .bare = .ok (⟨Letter.ofText "200".toList, [0x78],
      [⟨3, "Page debug: Handling None".toList⟩], none⟩, []) := by decide +kernel
  refine ⟨?_, ⟨rfl, by simp [course]⟩, hanswer, fun ⟨notes, h⟩ => ?_⟩
  · simp [course, Course.isQuiet_cons_iff, Course.isQuiet_nil]
  · rw [hanswer] at h
    exact absurd (congrArg Response.content (Prod.mk.inj (Except.ok.inj h)).1) (List.cons_ne_nil _ _)

end Dispatcher

end ServerPages
