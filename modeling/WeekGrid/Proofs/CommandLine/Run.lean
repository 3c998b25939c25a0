import Mathlib.Control.Monad.Basic
import WeekGrid.CommandLine.Run
import WeekGrid.Proofs.Page.DepthFirst
import WeekGrid.Proofs.Published.Retrieval

/-!
What a run prints. Its text comes last: a run that fails anywhere before has written nothing to its output. And
a document that is fetched is read as one in a file would be.
-/
namespace WeekGrid.CommandLine

open Published (YearOfStudy Publishes Omits)
open Text (Bytes)
open Timetable (CourseTable)

/-- A request comes upon a document, by the name that messages call it and its content. -/
inductive Request.Obtains (r : Request) (s : Surroundings) : String → Bytes → Prop where
  | file {name content} (hsource : r.source = .ok (.file name)) (hfile : s.file? name = some content) :
      Obtains r s name content
  | published {year week content} (hsource : r.source = .ok (.published year week))
      (hfile : Publishes s.web r.listingUrl year week content) :
      Obtains r s (Page.sourceOfBytes content) content

/-- A request comes to a timetable: it is read from the document with the course table and the line advance
that are asked for. -/
def Request.Reads (r : Request) (s : Surroundings) (t : Timetable.Schedule) : Prop :=
  ∃ source content table, r.Obtains s source content ∧ r.courses s = .ok table ∧
    readDocument r.leading table source content = .ok t

/-- A request is refused, for a reason that has a wording. -/
inductive Request.Refuses (r : Request) (s : Surroundings) : String → Prop where
  | missingWeek {year week} (hsource : r.source = .ok (.published year week))
      (homits : Omits s.web r.listingUrl year week) :
      Refuses r s ("no timetable published for " ++ year.name ++ " week " ++ toString week)
  | missingFile {name table} (hsource : r.source = .ok (.file name)) (hfile : s.file? name = none)
      (htable : r.courses s = .ok table) : Refuses r s (Page.missingFile name).message
  | unreadable {source content table refusal} (hcontent : r.Obtains s source content)
      (htable : r.courses s = .ok table)
      (hread : readDocument r.leading table source content = .error (.refused refusal)) :
      Refuses r s refusal.message

section Answers

variable {r : Request} {s : Surroundings} {table : CourseTable} {source : String} {content : Bytes}

theorem answer_ok (htable : r.courses s = .ok table) :
    r.answer s source (.ok content) = (readDocument r.leading table source content).map r.write := by
  rw [Request.answer, htable]
  change (do return r.write (← readDocument r.leading table source content)) = _
  cases readDocument r.leading table source content <;> rfl

theorem answer_error (htable : r.courses s = .ok table) (refusal : Refusal) :
    r.answer s source (.error refusal) = .error (.refused refusal) := by
  rw [Request.answer, htable]
  rfl

theorem answer_of_fault {fault : Fault} (hfault : r.courses s = .error fault)
    (content : Except Refusal Bytes) : r.answer s source content = .error (.faulted fault) := by
  rw [Request.answer, hfault]
  rfl

theorem run_of_obtains (h : r.Obtains s source content) :
    ∃ requests, r.run s = .ofResult (r.answer s source (.ok content)) requests := by
  cases h with
  | file hsource hfile =>
    refine ⟨[], ?_⟩
    simp only [Request.run, hsource, Surroundings.document, hfile]
    rfl
  | @published year week _ hsource hfile =>
    obtain ⟨hfault, hcontent⟩ := hfile.fetched
    refine ⟨(Published.retrieveYear s.web year week r.listingUrl).requests, ?_⟩
    simp only [Request.run, hsource, Request.runPublished, hfault, hcontent]

theorem run_of_reads {t : Timetable.Schedule} (h : r.Reads s t) :
    ∃ requests, r.run s = ⟨.ok 0, r.write t, "", requests⟩ := by
  obtain ⟨source, content, table, hcontent, htable, hread⟩ := h
  obtain ⟨requests, hrun⟩ := run_of_obtains hcontent
  refine ⟨requests, ?_⟩
  rw [hrun, answer_ok htable, hread]
  rfl

theorem run_of_refuses {message : String} (h : r.Refuses s message) :
    ∃ requests, r.run s = .refused message requests := by
  cases h with
  | @missingWeek year week hsource homits =>
    obtain ⟨hfault, hnone⟩ := homits.fetched
    refine ⟨(Published.retrieveYear s.web year week r.listingUrl).requests, ?_⟩
    simp only [Request.run, hsource, Request.runPublished, hfault, hnone]
  | missingFile hsource hfile htable =>
    refine ⟨[], ?_⟩
    simp only [Request.run, hsource, Surroundings.document, hfile]
    exact congrArg (Outcome.ofResult · []) (answer_error htable _)
  | unreadable hcontent htable hread =>
    obtain ⟨requests, hrun⟩ := run_of_obtains hcontent
    refine ⟨requests, ?_⟩
    rw [hrun, answer_ok htable, hread]
    rfl

inductive Request.Ends (r : Request) (s : Surroundings) : Outcome → Prop where
  | printed {t requests} (ht : r.Reads s t) : Ends r s ⟨.ok 0, r.write t, "", requests⟩
  | refused {message requests} (hmessage : r.Refuses s message) : Ends r s (.refused message requests)
  | misused {error} (herror : r.source = .error error) : Ends r s (.ofUsage error)
  | broken {fault requests} : Ends r s ⟨.error fault, "", "", requests⟩

namespace Request.Ends

variable {o : Outcome}

theorem reads (h : r.Ends s o) (hending : o.ending = .ok 0) : ∃ t, r.Reads s t := by
  cases h with
  | printed ht => exact ⟨_, ht⟩
  | _ => cases hending

theorem refuses (h : r.Ends s o) (hending : o.ending = .ok 1) : ∃ message, r.Refuses s message := by
  cases h with
  | refused hmessage => exact ⟨_, hmessage⟩
  | _ => cases hending

theorem silent (h : r.Ends s o) (hending : o.ending ≠ .ok 0) : o.output = "" := by
  cases h with
  | printed => exact absurd rfl hending
  | _ => rfl

end Request.Ends

theorem ends_of_obtains (h : r.Obtains s source content) : r.Ends s (r.run s) := by
  obtain ⟨requests, hrun⟩ := run_of_obtains h
  cases htable : r.courses s with
  | error fault =>
    rw [hrun, answer_of_fault htable]
    exact .broken
  | ok table =>
    rw [hrun, answer_ok htable]
    cases hread : readDocument r.leading table source content with
    | ok t => exact .printed ⟨source, content, table, h, htable, hread⟩
    | error failure =>
      cases failure with
      | refused refusal => exact .refused (.unreadable h htable hread)
      | faulted fault => exact .broken

theorem ends_run (r : Request) (s : Surroundings) : r.Ends s (r.run s) := by
  cases hsource : r.source with
  | error error =>
    simp only [Request.run, hsource]
    exact .misused hsource
  | ok place =>
    cases place with
    | file name =>
      cases hfile : s.file? name with
      | some content => exact ends_of_obtains (.file hsource hfile)
      | none =>
        simp only [Request.run, hsource, Surroundings.document, hfile]
        cases htable : r.courses s with
        | error fault =>
          rw [answer_of_fault htable]
          exact .broken
        | ok table =>
          rw [show throw (Page.missingFile name) = Except.error (Page.missingFile name) from rfl,
            answer_error htable]
          exact .refused (.missingFile hsource hfile htable)
    | published year week =>
      cases hfault : (Published.retrieveYear s.web year week r.listingUrl).fault with
      | some fault =>
        simp only [Request.run, hsource, Request.runPublished, hfault]
        exact .broken
      | none =>
        obtain ⟨content, hfile⟩ | homits := Published.published_or_omitted_of_fetch hfault
        · exact ends_of_obtains (.published hsource hfile)
        · obtain ⟨requests, hrun⟩ := run_of_refuses (.missingWeek hsource homits)
          rw [hrun]
          exact .refused (.missingWeek hsource homits)

/-- What a request promises of its run: a timetable is printed as a whole, or nothing is. -/
structure Request.Promises (r : Request) (s : Surroundings) (o : Outcome) : Prop where
  succeeds : o.ending = .ok 0 ↔ ∃ t, r.Reads s t
  prints : ∀ t, r.Reads s t → o.output = if r.json then t.toJson.render ++ "\n" else t.report
  /-- However a run fails, nothing has been printed. -/
  silent : o.ending ≠ .ok 0 → o.output = ""
  refused : o.ending = .ok 1 ↔ ∃ message, r.Refuses s message
  reports : ∀ message, r.Refuses s message → o.errors = "Error: " ++ message ++ "\n"

theorem promises_run (r : Request) (s : Surroundings) : r.Promises s (r.run s) where
  succeeds := by
    refine ⟨(ends_run r s).reads, fun ⟨t, ht⟩ => ?_⟩
    obtain ⟨requests, hrun⟩ := run_of_reads ht
    rw [hrun]
  prints := by
    intro t ht
    obtain ⟨requests, hrun⟩ := run_of_reads ht
    rw [hrun, Request.write]
  silent := (ends_run r s).silent
  refused := by
    refine ⟨(ends_run r s).refuses, fun ⟨message, hmessage⟩ => ?_⟩
    obtain ⟨requests, hrun⟩ := run_of_refuses hmessage
    rw [hrun]
    rfl
  reports := by
    intro message hmessage
    obtain ⟨requests, hrun⟩ := run_of_refuses hmessage
    rw [hrun]
    rfl

end Answers

theorem extract_eq_ok_of_source {leading : Binary64} {source : String} {content : Bytes}
    {elements : Page.Elements} (h : Page.extract leading source content = .ok elements) (other : String) :
    Page.extract leading other content = .ok elements := by
  unfold Page.extract at h ⊢
  dsimp only at h ⊢
  cases hroot : Pdf.get? "Root" (Pdf.Document.ofFile content).trailer with
  | none =>
    rw [hroot] at h
    cases h
  | some root =>
    rw [hroot] at h
    exact h

theorem readDocument_eq_ok_of_source {leading : Binary64} {table : CourseTable} {source : String}
    {content : Bytes} {t : Timetable.Schedule} (h : readDocument leading table source content = .ok t)
    (other : String) : readDocument leading table other content = .ok t := by
  obtain ⟨elements, helements, h⟩ := Outcome.bind_eq_ok_iff.1 h
  exact Outcome.bind_eq_ok_iff.2 ⟨elements, extract_eq_ok_of_source helements other, h⟩

/-- A request for a file with some content, otherwise as another request: with the same line advance and form of
output, and with the same course table, from a file of the same name and content or from none. -/
structure Request.IsForFile (r' : Request) (s' : Surroundings) (content : Bytes) (r : Request)
    (s : Surroundings) : Prop where
  source : ∃ name, r'.source = .ok (.file name) ∧ s'.file? name = some content
  leading : r'.leading = r.leading
  json : r'.json = r.json
  courseFile : r'.courseFile? = r.courseFile?
  courseTable : ∀ name, r.courseFile? = some name → s'.file? name = s.file? name

theorem courses_eq {r r' : Request} {s s' : Surroundings} (hfile : r'.courseFile? = r.courseFile?)
    (htable : ∀ name, r.courseFile? = some name → s'.file? name = s.file? name) : r'.courses s' = r.courses s := by
  rw [Request.courses, Request.courses, hfile]
  cases hname : r.courseFile? with
  | none => rfl
  | some name => simp only [htable name hname]

theorem reads_of_isForFile {r r' : Request} {s s' : Surroundings} {source : String} {content : Bytes}
    {table : CourseTable} {t : Timetable.Schedule} (htable : r.courses s = .ok table)
    (hread : readDocument r.leading table source content = .ok t) (h : r'.IsForFile s' content r s) :
    r'.Reads s' t := by
  obtain ⟨name, hsource, hfile⟩ := h.source
  refine ⟨name, content, table, .file hsource hfile, ?_, ?_⟩
  · rw [courses_eq h.courseFile h.courseTable, htable]
  · rw [h.leading]
    exact readDocument_eq_ok_of_source hread name

theorem run_eq {arguments : List String} {request : Request}
    (h : Request.ofArguments arguments = .ok request) (s : Surroundings) : run s arguments = request.run s := by
  rw [run, h]

/-- Nothing is printed but whole timetables. A run that ends with status 0 has printed the JSON value or the report
of the timetable that its arguments ask for, and any other run has printed nothing. What is printed for a published
timetable is what is printed for a file that holds the document behind the earliest entry of the week. -/
theorem run_promises {arguments : List String} {request : Request}
    (h : Request.ofArguments arguments = .ok request) (s : Surroundings) :
    request.Promises s (run s arguments) ∧
    ∀ year week, request.source = .ok (.published year week) → (run s arguments).ending = .ok 0 →
      ∃ content, Publishes s.web request.listingUrl year week content ∧
        ∀ arguments' request' s', Request.ofArguments arguments' = .ok request' →
          request'.IsForFile s' content request s →
          (run s' arguments').ending = .ok 0 ∧ (run s' arguments').output = (run s arguments).output := by
  rw [run_eq h s]
  have hpromises := promises_run request s
  refine ⟨hpromises, fun year week hsource hending => ?_⟩
  obtain ⟨t, ht⟩ := hpromises.succeeds.1 hending
  have hprints := hpromises.prints t ht
  obtain ⟨source, content, table, hcontent, htable, hread⟩ := ht
  have hpublished : Publishes s.web request.listingUrl year week content := by
    cases hcontent with
    | file hfile _ =>
      rw [hsource] at hfile
      cases hfile
    | published hyear hfile =>
      rw [hsource] at hyear
      cases hyear
      exact hfile
  refine ⟨content, hpublished, fun arguments' request' s' h' hfor => ?_⟩
  have ht' := reads_of_isForFile htable hread hfor
  have hpromises' := promises_run request' s'
  rw [run_eq h' s']
  refine ⟨hpromises'.succeeds.2 ⟨t, ht'⟩, ?_⟩
  rw [hpromises'.prints t ht', hprints, hfor.json]

def quietFile : Bytes :=
  ["1 0 obj << /Type /Page", "/MediaBox [0 0 9 9]", "/Contents 2 0 R >>", "endobj", "2 0 obj << >> stream",
    ".392 .8 1 rg", "0 0 9 9 re f", "(Semaine 1 (1) : du 01/09/2025 au 06/09/2025)", "Tj", "endstream",
    "trailer << /Root 3 0 R >>"].flatMap fun line => Pdf.ascii line ++ [10]

/-- Two entries of one week; only the one listed first leads to a file. -/
def quietListing : Bytes :=
  ["<a href=\"A1_S01.pdf\"> 2025-08-29 10:00", "<a href=\"A1_S1.pdf\"> 2025-08-30 10:00"].flatMap
    fun line => Pdf.ascii line ++ [10]

def quietSite : Surroundings :=
  ⟨[], [("u/A1/", ⟨200, "OK", quietListing⟩), ("u/A1/A1_S01.pdf", ⟨200, "OK", quietFile⟩)]⟩

def quietFolder : Surroundings := ⟨[("t.pdf", quietFile)], []⟩

def siteArguments : List String := ["--year", "A1", "--week", "1", "--listing-url", "u"]

def siteRequest : Request := { Request.default with year := some .first, week := some 1, listingUrl := "u" }

def folderRequest : Request := { Request.default with pdf := some "t.pdf" }

theorem quietFile_published : Publishes quietSite.web "u" .first 1 quietFile := by
  have hlist : (Published.Link.all .first (Text.decodeLossy quietListing)).mapM (Published.Link.entry "u" .first) =
      .ok [⟨"A1_S01.pdf", ⟨⟨2025, 8, 29, by decide⟩, 10, 0, none⟩, 1, .first, "u/A1/A1_S01.pdf"⟩,
        ⟨"A1_S1.pdf", ⟨⟨2025, 8, 30, by decide⟩, 10, 0, none⟩, 1, .first, "u/A1/A1_S1.pdf"⟩] := by
    decide +kernel
  have hpage : quietSite.web.get (Published.directoryUrl "u" .first) = .ok quietListing := by
    decide +kernel
  have hget : quietSite.web.get "u/A1/A1_S01.pdf" = .ok quietFile := by
    decide +kernel
  exact ⟨_, _, ⟨quietListing, hpage, hlist⟩, ⟨rfl, [], _, rfl, fun _ hother => (nomatch hother)⟩, hget⟩

theorem quietFile_read (source : String) :
    ∃ t, readDocument Page.Library.defaultLeading Courses.reference source quietFile = .ok t ∧
      t.lessons = [] := by
  have hread : (readDocument Page.Library.defaultLeading Courses.reference "" quietFile).map
      Timetable.Schedule.lessons = .ok [] := by
    unfold readDocument Page.extract
    simp only [Page.Library.interpret_eq_scanAlone]
    decide +kernel
  obtain ⟨t, ht, hlessons⟩ := Outcome.map_eq_ok_iff.1 hread
  exact ⟨t, readDocument_eq_ok_of_source ht source, hlessons⟩

theorem quietFile_printed :
    ∃ t : Timetable.Schedule, t.lessons = [] ∧
      (run quietSite siteArguments).ending = .ok 0 ∧ (run quietSite siteArguments).output = t.report ∧
      (run quietFolder ["t.pdf"]).ending = .ok 0 ∧ (run quietFolder ["t.pdf"]).output = t.report := by
  have hsite : Request.ofArguments siteArguments = .ok siteRequest := by decide +kernel
  have hfolder : Request.ofArguments ["t.pdf"] = .ok folderRequest := by decide +kernel
  have hsource : siteRequest.source = .ok (.published .first 1) := rfl
  obtain ⟨t, hread, hlessons⟩ := quietFile_read (Page.sourceOfBytes quietFile)
  have hreads : siteRequest.Reads quietSite t :=
    ⟨_, quietFile, Courses.reference, .published hsource quietFile_published, rfl, hread⟩
  obtain ⟨hpromises, hsame⟩ := run_promises hsite quietSite
  have hending := hpromises.succeeds.2 ⟨t, hreads⟩
  obtain ⟨content, hpublished, hsame⟩ := hsame .first 1 hsource hending
  have hcontent : content = quietFile :=
    Option.some.inj (hpublished.fetched.2.symm.trans quietFile_published.fetched.2)
  subst hcontent
  have hfile : folderRequest.IsForFile quietFolder quietFile siteRequest quietSite :=
    ⟨⟨"t.pdf", rfl, rfl⟩, rfl, rfl, rfl, fun _ hname => (nomatch hname)⟩
  obtain ⟨hending', houtput'⟩ := hsame ["t.pdf"] folderRequest quietFolder hfolder hfile
  have houtput : (run quietSite siteArguments).output = t.report := hpromises.prints t hreads
  exact ⟨t, hlessons, hending, houtput, hending', houtput'.trans houtput⟩

end WeekGrid.CommandLine
